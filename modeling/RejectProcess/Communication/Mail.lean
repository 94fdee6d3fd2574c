import Mathlib.Data.Fintype.Basic
import RejectProcess.App.SysConf
import RejectProcess.Communication.Send
import RejectProcess.Lib.Run
import RejectProcess.Tool.Message

/-!
# The messages between the tasks and the variables they point to

Every task that posts or pends on a mailbox: the interrupt tasks of `fpga/isr.c`, the search
tasks of `sample/array.c`, the position tasks of `sample/position.c`, and the receiving and the
sending task of the local socket.  The body of a task is a list of instructions, one for each of
its statements that touches a message or a variable whose address is put in one.  What does not
is left to the environment: the readings of the device, the record that a distance is taken to,
whether a sample list is empty, and the answers of `write`.
-/

namespace RejectProcess.Mail

open Lib

/-- The tasks. -/
inductive Task
  | localRecv
  | kick1Isr
  | kick2Isr
  | trig1Search
  | trig2Search
  | disC1Kt1
  | disKp1Kft1
  | disC1Kt2
  | disKp2Kft2
  | writeKp1Array
  | writeKp2Array
  | localSend
deriving DecidableEq, Repr

instance : Fintype Task where
  elems := { .localRecv, .kick1Isr, .kick2Isr, .trig1Search, .trig2Search, .disC1Kt1, .disKp1Kft1,
    .disC1Kt2, .disKp2Kft2, .writeKp1Array, .writeKp2Array, .localSend }
  complete := by
    intro t
    cases t <;> decide

/-- The mailboxes. -/
inductive Box
  | local
  | kick1
  | kick2
  | kt1
  | kt2
  | kp1
  | kp2
  | kft1
  | kft2
deriving DecidableEq, Repr

instance : Fintype Box where
  elems := { .local, .kick1, .kick2, .kt1, .kt2, .kp1, .kp2, .kft1, .kft2 }
  complete := by
    intro b
    cases b <;> decide

/-- The variables whose addresses are put in messages.  Each position task has a `dis` and an
`item` of its own. -/
inductive Var
  | kick1WheelCode
  | kick2WheelCode
  | kt1WheelCode
  | kt2WheelCode
  | kp1Time
  | kp2Time
  | kft1Time
  | kft2Time
  | dis (t : Task)
  | item (t : Task)
  | handshakeHead
  | resetHead
  | posReportHead
  | version
deriving DecidableEq, Repr

/-- The length that every `set_data` of the variable gives. -/
def Var.size : Var → ℕ
  | .dis _ | .item _ => 4
  | .version => 32
  | _ => 8

/-- The test item that a position task reports. -/
def testItem : Task → UInt32
  | .disC1Kt1 => 2
  | .disKp1Kft1 => 3
  | .disC1Kt2 => 4
  | .disKp2Kft2 => 5
  | _ => 0

/-- The static initialisers. -/
def Var.initial : Var → List UInt8
  | .item t => le32 (testItem t)
  | .handshakeHead => RejectProcess.handshakeHead.bytes
  | .resetHead => RejectProcess.resetHead.bytes
  | .posReportHead => RejectProcess.posReportHead.bytes
  | v => List.replicate v.size 0

/-- The data pointer of a payload.  History: `held` is what the variable held when its address
was passed to `set_data`. -/
structure Entry where
  var : Var
  held : List UInt8
deriving DecidableEq, Repr

/-! ## The bodies of the tasks -/

/-- The conditions of the tasks' branches. -/
inductive Cond
  /-- `g_sys_config.pos_test_item == k`. -/
  | posTestItem (k : UInt32)
  /-- `g_sys_config.kick_mode != 0`. -/
  | wheelCodeMode
  /-- The sample list of a position task is not empty. -/
  | listFull
  /-- `connect_status != 0`. -/
  | connected
deriving DecidableEq, Repr

/-- The statements of the tasks. -/
inductive Instr
  | produce (b : Box)
  /-- A new value from the environment. -/
  | store (v : Var)
  | copy (v w : Var)
  | strcpy (v : Var) (bs : List UInt8)
  | setData (v : Var)
  | post
  | pend
  | getData
  /-- All bytes behind the pointer that `getData` has returned are read. -/
  | read
  | recycle
  /-- The next `n` statements are under the condition. -/
  | when (c : Cond) (n : ℕ)
  | setPosTestItem
  | getDataNum
  /-- The head of the `for` loop of `local_send_tsk`. -/
  | nextData
  /-- A `write` of what is left of the data, and the test of the `while` loop it is in. -/
  | write
deriving DecidableEq, Repr

/-- `msg_factory_produce`, one `set_data` and `mailbox_post`. -/
def postOne (b : Box) (v : Var) : List Instr := [.produce b, .setData v, .post]

/-- `kick1_isr_tsk` on bit 0 of the status. -/
def kick1Pos : List Instr :=
  [.produce .kick1, .store .kick1WheelCode, .setData .kick1WheelCode, .post,
    .when (.posTestItem 2) 4, .copy .kt1WheelCode .kick1WheelCode] ++ postOne .kt1 .kt1WheelCode

/-- `kick2_isr_tsk` on bit 0 of the status. -/
def kick2Pos : List Instr :=
  [.produce .kick2, .store .kick2WheelCode, .setData .kick2WheelCode, .post,
    .when (.posTestItem 4) 4, .copy .kt2WheelCode .kick2WheelCode] ++ postOne .kt2 .kt2WheelCode

/-- An interrupt task on bit 1 or 2 of the status: the time is taken while item `k` is tested. -/
def kickTime (k : UInt32) (b : Box) (v : Var) : List Instr :=
  [.when (.posTestItem k) 4, .produce b, .store v, .setData v, .post]

/-- `trig1_search_tsk`, one turn of its loop. -/
def trig1Search : List Instr := [.pend, .when .wheelCodeMode 2, .getData, .read, .recycle]

/-- `trig2_search_tsk`, one turn of its loop. -/
def trig2Search : List Instr := [.pend, .getData, .read, .recycle]

/-- `dis_c1_kt1_tsk`, `dis_kp1_kft1_tsk`, `dis_c1_kt2_tsk` and `dis_kp2_kft2_tsk`, one turn of
their loops. -/
def disTsk (t : Task) : List Instr :=
  [.pend, .when .listFull 3, .getData, .read, .store (.dis t), .recycle,
    .produce .local, .setData .posReportHead, .setData (.item t), .setData (.dis t), .post]

/-- `write_kp1_array_tsk` and `write_kp2_array_tsk`, one turn of their loops. -/
def writeKpArray : List Instr := [.pend, .getData, .read, .recycle]

/-- `local_send_tsk`, one turn of its loop. -/
def localSend : List Instr := [.pend, .when .connected 2, .getDataNum, .nextData, .recycle]

/-- `recv_handshake_cmd`. -/
def recvHandshakeCmd (buildDate : List UInt8) : List Instr :=
  [.strcpy .version buildDate, .produce .local, .setData .handshakeHead, .setData .version, .post]

/-- `recv_reset_cmd`. -/
def recvResetCmd : List Instr := postOne .local .resetHead

/-- The bodies a task can start on. -/
def bodies (buildDate : List UInt8) : Task → List (List Instr)
  | .localRecv => [recvHandshakeCmd buildDate, recvResetCmd, [.setPosTestItem]]
  | .kick1Isr => [kick1Pos, kickTime 3 .kp1 .kp1Time, kickTime 3 .kft1 .kft1Time]
  | .kick2Isr => [kick2Pos, kickTime 5 .kp2 .kp2Time, kickTime 5 .kft2 .kft2Time]
  | .trig1Search => [trig1Search]
  | .trig2Search => [trig2Search]
  | .disC1Kt1 => [disTsk .disC1Kt1]
  | .disKp1Kft1 => [disTsk .disKp1Kft1]
  | .disC1Kt2 => [disTsk .disC1Kt2]
  | .disKp2Kft2 => [disTsk .disKp2Kft2]
  | .writeKp1Array => [writeKpArray]
  | .writeKp2Array => [writeKpArray]
  | .localSend => [localSend]

/-- The mailbox that a task casts its local message to. -/
def castTo : Task → Option Box
  | .localRecv | .kick1Isr | .kick2Isr => none
  | .trig1Search => some .kick1
  | .trig2Search => some .kick2
  | .disC1Kt1 => some .kt1
  | .disKp1Kft1 => some .kft1
  | .disC1Kt2 => some .kt2
  | .disKp2Kft2 => some .kft2
  | .writeKp1Array => some .kp1
  | .writeKp2Array => some .kp2
  | .localSend => some .local

/-! ## The state and its steps -/

/-- The statements a task has yet to take, and its local variables. -/
structure Locals where
  todo : List Instr
  data : Option Entry
  dataNum : ℕ
  i : ℕ
  nhasSend : ℕ
deriving DecidableEq, Repr

/-- History: some bytes that a task has read through the pointer that `get_data` returned, and
what they were when the message was made. -/
structure Read where
  task : Task
  bytes : List UInt8
  held : List UInt8
deriving DecidableEq, Repr

/-- The state of the tasks, of the variables and of the messages. -/
structure State where
  config : SysConfig
  sys : MsgSys Task Box Entry Empty
  mem : Var → List UInt8
  task : Task → Locals
  reads : List Read

/-- What a statement gets from the environment. -/
structure Env where
  /-- The value of a `store`. -/
  bytes : List UInt8
  /-- Whether the list is not empty, or the link is up. -/
  holds : Bool
  /-- The return value of `write`, with 0 for an error too. -/
  written : ℕ
  /-- The parameter of the position test command. -/
  item : UInt32

/-- A task starts on one of its bodies, or takes its next statement. -/
inductive Label
  | start (i : Task) (k : ℕ)
  | exec (i : Task) (e : Env)

/-- The state after start-up. -/
def init (config : SysConfig) (payload : ℕ → ℕ → MsgPayload Entry Empty) : State where
  config := config
  sys := .init payload castTo
  mem := Var.initial
  task := fun _ => { todo := [], data := none, dataNum := 0, i := 0, nhasSend := 0 }
  reads := []

namespace State

variable (s : State)

/-- Task `i` leaves the message system as `y` and its local variables as `l`. -/
def act (i : Task) (y : MsgSys Task Box Entry Empty) (l : Locals) : State :=
  { s with sys := y, task := Function.update s.task i l }

/-- A variable is written. -/
def stored (v : Var) (bs : List UInt8) : State := { s with mem := Function.update s.mem v bs }

/-- Task `i` reads the first `n` bytes of `d`. -/
def readBy (i : Task) (d : Entry) (n : ℕ) : State :=
  { s with reads := { task := i, bytes := (s.mem d.var).take n, held := d.held.take n } :: s.reads }

/-- The value of a condition. -/
def holds (c : Cond) (e : Env) : Bool :=
  match c with
  | .posTestItem k => s.config.posTestItem == k
  | .wheelCodeMode => s.config.kickMode != 0
  | .listFull | .connected => e.holds

/-- The pointer that `get_data` has returned, with what was held for the payload in its place. -/
def gotten : Option (MsgPayload Entry Empty) → Option (MsgPayload Entry Empty) → Option Entry
  | some p, some q => some { var := p.data.var, held := q.data.held }
  | _, _ => none

/-- `get_data` by task `i`, whose other local variables become `l`. -/
def got (i : Task) (l : Locals) : Option State :=
  (s.sys.getData i).map fun r => s.act i r.2.2 { l with data := gotten r.1 r.2.1 }

/-- One `write` by `local_send_tsk`, which leaves `l` when all is sent: an error goes to
`recycle`. -/
def write (i : Task) (l : Locals) (n : ℕ) (d : Entry) : Option State :=
  if n = 0 then
    some (s.act i s.sys { l with data := none, todo := l.todo.dropWhile (· != .recycle) })
  else if l.nhasSend + n < d.var.size then
    some ((s.readBy i d n).act i s.sys
      { l with nhasSend := l.nhasSend + n, todo := .write :: l.todo })
  else if l.nhasSend + n = d.var.size then
    some ((s.readBy i d n).act i s.sys { l with nhasSend := l.nhasSend + n, data := none })
  else none

/-- A statement by task `i`, which leaves `l` but for what the statement changes. -/
def run (i : Task) (l : Locals) (e : Env) : Instr → Option State
  | .produce b => (s.sys.produce i b).map fun y => s.act i y l
  | .store v =>
    if e.bytes.length = v.size then some ((s.stored v e.bytes).act i s.sys l) else none
  | .copy v w => some ((s.stored v (s.mem w)).act i s.sys l)
  | .strcpy v bs => some ((s.stored v (bs ++ 0 :: (s.mem v).drop (bs.length + 1))).act i s.sys l)
  | .setData v =>
    (s.sys.setData i { data := ⟨v, s.mem v⟩, release := none }).map fun y => s.act i y l
  | .post => (s.sys.post i).map fun y => s.act i y l
  | .pend => (s.sys.pend i).map fun y => s.act i y l
  | .getData => s.got i l
  | .read => l.data.map fun d => (s.readBy i d d.var.size).act i s.sys { l with data := none }
  | .recycle => (s.sys.recycle i).map fun r => s.act i r.2 l
  | .when c n =>
    some (s.act i s.sys (if s.holds c e then l else { l with todo := l.todo.drop n }))
  | .setPosTestItem =>
    some { s.act i s.sys l with config := { s.config with posTestItem := e.item } }
  | .getDataNum =>
    match s.sys.hold i with
    | .consuming m _ => some (s.act i s.sys { l with dataNum := m.payloadNum, i := 0 })
    | _ => none
  | .nextData =>
    if l.i < l.dataNum then
      s.got i { l with i := l.i + 1, nhasSend := 0, todo := .write :: .nextData :: l.todo }
    else some (s.act i s.sys l)
  | .write => l.data.bind (s.write i l e.written)

/-- One step. -/
def step (buildDate : List UInt8) (s : State) : Label → Option State
  | .start i k =>
    match (s.task i).todo, (bodies buildDate i)[k]? with
    | [], some body => some (s.act i s.sys { s.task i with todo := body })
    | _, _ => none
  | .exec i e =>
    match (s.task i).todo with
    | [] => none
    | a :: rest => s.run i { s.task i with todo := rest } e a

end State

/-! ## The bytes that are still to be read -/

/-- The task goes on to read the data of the message it has taken, as far as `kick_mode` tells;
the first `k` statements are skipped. -/
def wantsFrom (mode : UInt32) : ℕ → List Instr → Bool
  | _, [] => false
  | k + 1, _ :: rest => wantsFrom mode k rest
  | 0, a :: rest =>
    match a with
    | .getData | .nextData => true
    | .pend | .recycle => false
    | .when .wheelCodeMode n =>
      if mode != 0 then wantsFrom mode 0 rest else wantsFrom mode n rest
    | .when _ n => wantsFrom mode 0 rest || wantsFrom mode n rest
    | _ => wantsFrom mode 0 rest

/-- The task goes on to read the data of the message it has taken. -/
def wants (mode : UInt32) (todo : List Instr) : Bool := wantsFrom mode 0 todo

/-- The data of the messages in a mailbox is read: in counting mode those of `kick1` are not. -/
def readable (mode : UInt32) : Option Box → Bool
  | some .kick1 => mode != 0
  | _ => true

namespace State

variable (s : State)

/-- The payloads of a mailbox whose data is still to be read. -/
def boxEntries (b : Box) : List Entry :=
  if readable s.config.kickMode (some b) then (s.sys.mbx b).flatMap fun x => x.2.map MsgPayload.data
  else []

/-- The payloads in hand that are still to be read. -/
def handEntries (w : Bool) : Hold Box Entry Empty → List Entry
  | .none => []
  | .producing _ sent => sent.map MsgPayload.data
  | .consuming m sent => if w then (sent.drop m.curPayloadIdx).map MsgPayload.data else []

/-- The payloads that a task has yet to read or to pass on. -/
def taskEntries (i : Task) : List Entry :=
  handEntries (wants s.config.kickMode (s.task i).todo) (s.sys.hold i) ++ (s.task i).data.toList

/-- No message that is still to be read points to the variable. -/
def NotUnread (v : Var) : Prop :=
  (∀ b, ∀ e ∈ s.boxEntries b, e.var ≠ v) ∧ ∀ i, ∀ e ∈ s.taskEntries i, e.var ≠ v

instance (v : Var) : Decidable (s.NotUnread v) := by
  unfold NotUnread
  infer_instance

/-- The variable that a step writes, and its new bytes. -/
def writes : Label → Option (Var × List UInt8)
  | .start _ _ => none
  | .exec i e =>
    match (s.task i).todo with
    | .store v :: _ => some (v, e.bytes)
    | .copy v w :: _ => some (v, s.mem w)
    | .strcpy v bs :: _ => some (v, bs ++ 0 :: (s.mem v).drop (bs.length + 1))
    | _ => none

/-- A step changes no variable that a message still to be read points to. -/
def SparesUnread (a : Label) : Prop :=
  ∀ w ∈ s.writes a, s.mem w.1 = w.2 ∨ s.NotUnread w.1

instance (a : Label) : Decidable (s.SparesUnread a) := by
  unfold SparesUnread
  infer_instance

end State

/-! ## What the statements to come are fit for -/

section Todo

variable {mode : UInt32} {i : Task} {todo todo' : List Instr}

lemma wantsFrom_drop (n : ℕ) (todo : List Instr) :
    wantsFrom mode n todo = wants mode (todo.drop n) := by
  induction todo generalizing n with
  | nil => cases n <;> rfl
  | cons a rest ih =>
    cases n with
    | zero => rfl
    | succ n => exact ih n

lemma wants_when_wheelCodeMode (n : ℕ) : wants mode (.when .wheelCodeMode n :: todo) =
    if mode != 0 then wants mode todo else wants mode (todo.drop n) := by
  rw [← wantsFrom_drop]
  rfl

/-- A branch that depends on more than `kick_mode` may be taken or not. -/
lemma wants_when {k : Cond} (hk : k ≠ .wheelCodeMode) (n : ℕ) :
    wants mode (.when k n :: todo) = (wants mode todo || wants mode (todo.drop n)) := by
  rw [← wantsFrom_drop]
  cases k with
  | wheelCodeMode => exact absurd rfl hk
  | _ => rfl

/-- A failed `write` drops the data that was still to be sent. -/
lemma wants_dropWhile (todo : List Instr) :
    wants mode (todo.dropWhile (· != .recycle)) = false := by
  induction todo with
  | nil => rfl
  | cons a rest ih =>
    by_cases ha : a = .recycle
    · subst ha
      rfl
    · rw [List.dropWhile_cons_of_pos (by simpa using ha)]
      exact ih

/-- Before its `pend`, no body reads the data of a message. -/
lemma wants_bodies (buildDate : List UInt8) (i : Task) :
    ∀ body ∈ bodies buildDate i, wants mode body = false := by
  intro body hbody
  cases i <;> simp only [bodies, List.mem_cons, List.not_mem_nil, or_false] at hbody <;>
    rcases hbody with rfl | rfl | rfl <;> rfl

/-- A body pends only where what it goes on to do is right for the mailbox it is cast to. -/
def Fit (mode : UInt32) (i : Task) (todo : List Instr) : Prop :=
  ∀ rest, .pend :: rest <:+ todo → wants mode rest → readable mode (castTo i)

lemma Fit.suffix (h : Fit mode i todo) (hs : todo' <:+ todo) : Fit mode i todo' :=
  fun rest hrest => h rest (hrest.trans hs)

lemma Fit.cons {a : Instr} (h : Fit mode i todo) (ha : a ≠ .pend) : Fit mode i (a :: todo) := by
  intro rest hrest
  rcases List.suffix_cons_iff.1 hrest with he | hrest
  · exact absurd (List.cons.inj he).1.symm ha
  · exact h rest hrest

/-- The bodies are fit for their tasks. -/
lemma fit_bodies (buildDate : List UInt8) (i : Task) :
    ∀ body ∈ bodies buildDate i, Fit mode i body := by
  intro body hbody rest hrest hw
  cases i with
  | trig1Search =>
    obtain rfl := List.mem_singleton.1 hbody
    obtain rfl : rest = [.when .wheelCodeMode 2, .getData, .read, .recycle] := by
      simpa [trig1Search, List.suffix_cons_iff] using hrest
    by_cases hk : mode = 0
    · simp [wants, wantsFrom, hk] at hw
    · simpa [readable, castTo] using hk
  | _ => rfl

end Todo

/-! ## The invariant -/

namespace State

/-- The messages are sound, what is still to be read is as it was when the message was made, and
so was what has been read. -/
structure Intact (s : State) : Prop where
  sys : s.sys.Inv
  own : s.sys.own = castTo
  fit : ∀ i, Fit s.config.kickMode i (s.task i).todo
  box : ∀ b, ∀ e ∈ s.boxEntries b, s.mem e.var = e.held
  task : ∀ i, ∀ e ∈ s.taskEntries i, s.mem e.var = e.held
  reads : ∀ r ∈ s.reads, r.bytes = r.held

variable {s s' : State} {i : Task} {l : Locals} {v : Var}

lemma mem_boxEntries {b : Box} {e : Entry} : e ∈ s.boxEntries b ↔
    readable s.config.kickMode (some b) ∧ ∃ x ∈ s.sys.mbx b, ∃ p ∈ x.2, p.data = e := by
  unfold boxEntries
  split <;> simp [*]

lemma handEntries_mono {x : Hold Box Entry Empty} {e : Entry} {p q : Bool} (hpq : p → q)
    (he : e ∈ handEntries p x) : e ∈ handEntries q x := by
  cases x with
  | none => exact he
  | producing k sent => exact he
  | consuming m sent =>
    cases p with
    | false => exact absurd he List.not_mem_nil
    | true => rwa [hpq rfl]

lemma of_mem_handEntries {m : Message Box} {sent : List (MsgPayload Entry Empty)} {p : Bool}
    {e : Entry} (he : e ∈ handEntries p (.consuming m sent)) :
    p ∧ ∃ q ∈ sent.drop m.curPayloadIdx, q.data = e := by
  cases p with
  | false => exact absurd he List.not_mem_nil
  | true => exact ⟨rfl, List.mem_map.1 he⟩

namespace Intact

lemma init (config : SysConfig) (payload : ℕ → ℕ → MsgPayload Entry Empty) :
    (Mail.init config payload).Intact where
  sys := .init payload castTo
  own := rfl
  fit := by
    intro i rest hrest
    simp [Mail.init] at hrest
  box := by
    intro b e he
    obtain ⟨-, x, hx, -⟩ := mem_boxEntries.1 he
    exact absurd hx List.not_mem_nil
  task := fun _ _ he => absurd he List.not_mem_nil
  reads := fun _ hr => absurd hr List.not_mem_nil

/-- What is still to be read in the mailboxes, message by message. -/
lemma boxed (h : s.Intact) {b : Box} (hr : readable s.config.kickMode (some b))
    {x : Message Box × List (MsgPayload Entry Empty)} (hx : x ∈ s.sys.mbx b)
    {p : MsgPayload Entry Empty} (hp : p ∈ x.2) : s.mem p.data.var = p.data.held :=
  h.box b p.data (mem_boxEntries.2 ⟨hr, x, hx, p, hp, rfl⟩)

lemma handed (h : s.Intact) {e : Entry}
    (he : e ∈ handEntries (wants s.config.kickMode (s.task i).todo) (s.sys.hold i)) :
    s.mem e.var = e.held :=
  h.task i e (List.mem_append_left _ he)

lemma pointed (h : s.Intact) {d : Entry} (hd : (s.task i).data = some d) :
    s.mem d.var = d.held :=
  h.task i d (List.mem_append_right _ (by simp [hd]))

/-- Task `i` changes what it has in hand, its local variables, and the mailboxes. -/
lemma act (h : s.Intact) {y : MsgSys Task Box Entry Empty} (hy : y.Inv)
    (hown : y.own = s.sys.own) (hfit : Fit s.config.kickMode i l.todo)
    (hbox : ∀ b, readable s.config.kickMode (some b) → ∀ x ∈ y.mbx b, ∀ p ∈ x.2,
      s.mem p.data.var = p.data.held)
    (hother : ∀ j, j ≠ i → y.hold j = s.sys.hold j)
    (hself : ∀ e ∈ handEntries (wants s.config.kickMode l.todo) (y.hold i), s.mem e.var = e.held)
    (hdata : ∀ d, l.data = some d → s.mem d.var = d.held) : (s.act i y l).Intact where
  sys := hy
  own := hown.trans h.own
  fit := by
    intro j
    by_cases hj : j = i
    · subst hj
      simpa [State.act] using hfit
    · simpa [State.act, hj] using h.fit j
  box := by
    intro b e he
    obtain ⟨hr, x, hx, p, hp, rfl⟩ := mem_boxEntries.1 he
    exact hbox b hr x hx p hp
  task := by
    intro j e he
    simp only [taskEntries, State.act] at he
    by_cases hj : j = i
    · subst hj
      rw [Function.update_self] at he
      rcases List.mem_append.1 he with he | he
      · exact hself e he
      · exact hdata e (by simpa using he)
    · rw [Function.update_of_ne hj, hother j hj] at he
      exact h.task j e he
  reads := h.reads

/-- Task `i` makes a call, which replaces what it has in hand. -/
lemma act_hold (h : s.Intact) {y : MsgSys Task Box Entry Empty} {x : Hold Box Entry Empty}
    (hy : y.Inv) (hown : y.own = s.sys.own) (hfit : Fit s.config.kickMode i l.todo)
    (hhold : y.hold = Function.update s.sys.hold i x)
    (hbox : ∀ b, readable s.config.kickMode (some b) → ∀ x ∈ y.mbx b, ∀ p ∈ x.2,
      s.mem p.data.var = p.data.held)
    (hself : ∀ e ∈ handEntries (wants s.config.kickMode l.todo) x, s.mem e.var = e.held)
    (hdata : ∀ d, l.data = some d → s.mem d.var = d.held) : (s.act i y l).Intact := by
  refine h.act hy hown hfit hbox (fun j hj => ?_) ?_ hdata
  · rw [hhold, Function.update_of_ne hj]
  · rw [hhold, Function.update_self]
    exact hself

/-- Task `i` changes its local variables. -/
lemma goto (h : s.Intact) (hfit : Fit s.config.kickMode i l.todo)
    (hw : wants s.config.kickMode l.todo → wants s.config.kickMode (s.task i).todo)
    (hdata : ∀ d, l.data = some d → s.mem d.var = d.held) : (s.act i s.sys l).Intact := by
  refine h.act h.sys rfl hfit (fun b hr x hx p hp => h.boxed hr hx hp) (fun _ _ => rfl) ?_ hdata
  intro e he
  exact h.handed (handEntries_mono hw he)

/-- A variable is written to which nothing still to be read points. -/
lemma stored (h : s.Intact) {bs : List UInt8} (hv : s.mem v = bs ∨ s.NotUnread v) :
    (s.stored v bs).Intact := by
  rcases hv with rfl | ⟨hbox, htask⟩
  · rwa [State.stored, Function.update_eq_self]
  · refine ⟨h.sys, h.own, h.fit, ?_, ?_, h.reads⟩
    · intro b e he
      show Function.update s.mem v bs e.var = e.held
      rw [Function.update_of_ne (hbox b e he)]
      exact h.box b e he
    · intro j e he
      show Function.update s.mem v bs e.var = e.held
      rw [Function.update_of_ne (htask j e he)]
      exact h.task j e he

lemma readBy (h : s.Intact) {d : Entry} (hd : s.mem d.var = d.held) (n : ℕ) :
    (s.readBy i d n).Intact where
  sys := h.sys
  own := h.own
  fit := h.fit
  box := h.box
  task := h.task
  reads := by
    intro r hr
    rcases List.mem_cons.1 hr with rfl | hr
    · exact congrArg (List.take n) hd
    · exact h.reads r hr

/-! ### The statements on messages -/

section Messages

variable (h : s.Intact)

include h

lemma produce (hfit : Fit s.config.kickMode i l.todo) (hdata : l.data = (s.task i).data) {b : Box}
    (hs : (s.sys.produce i b).map (fun y => s.act i y l) = some s') : s'.Intact := by
  obtain ⟨y, hy, rfl⟩ := Option.map_eq_some_iff.1 hs
  have hinv := h.sys.produce hy
  obtain ⟨-, k, rest, -, rfl⟩ := MsgSys.produce_eq_some.1 hy
  exact h.act_hold hinv rfl hfit rfl (fun b' hr x hx p hp => h.boxed hr hx hp)
    (fun e he => absurd he List.not_mem_nil) fun d hd => h.pointed (hdata ▸ hd)

/-- The payload that is set is as the variable is at that moment. -/
lemma setData (hfit : Fit s.config.kickMode i l.todo) (hdata : l.data = (s.task i).data)
    (hs : (s.sys.setData i { data := ⟨v, s.mem v⟩, release := none }).map
      (fun y => s.act i y l) = some s') : s'.Intact := by
  obtain ⟨y, hy, rfl⟩ := Option.map_eq_some_iff.1 hs
  have hinv := h.sys.setData hy
  obtain ⟨k, sent, hi, rfl⟩ := MsgSys.setData_eq_some.1 hy
  have hsent : ∀ e ∈ sent.map MsgPayload.data, s.mem e.var = e.held := by
    intro e he
    exact h.handed (i := i) (by rw [hi]; exact he)
  refine h.act_hold hinv rfl hfit rfl (fun b' hr x hx p hp => h.boxed hr hx hp) (fun e he => ?_)
    fun d hd => h.pointed (hdata ▸ hd)
  simp only [handEntries] at he
  split at he
  · rw [List.map_append, List.mem_append] at he
    rcases he with he | he
    · exact hsent e he
    · obtain rfl : e = ⟨v, s.mem v⟩ := by simpa using he
      rfl
  · exact hsent e he

lemma post (hfit : Fit s.config.kickMode i l.todo) (hdata : l.data = (s.task i).data)
    (hs : (s.sys.post i).map (fun y => s.act i y l) = some s') : s'.Intact := by
  obtain ⟨y, hy, rfl⟩ := Option.map_eq_some_iff.1 hs
  have hinv := h.sys.post hy
  obtain ⟨k, sent, b, hi, -, rfl⟩ := MsgSys.post_eq_some.1 hy
  refine h.act_hold hinv rfl hfit rfl ?_ (fun e he => absurd he List.not_mem_nil)
    fun d hd => h.pointed (hdata ▸ hd)
  intro b' hr x hx p hp
  by_cases hb : b' = b
  · subst hb
    rw [show (s.sys.posted i k sent b').mbx b' = _ from Function.update_self ..] at hx
    rcases List.mem_append.1 hx with hx | hx
    · exact h.boxed hr hx hp
    · obtain rfl := List.mem_singleton.1 hx
      exact h.handed (i := i) (by rw [hi]; exact List.mem_map_of_mem hp)
  · rw [show (s.sys.posted i k sent b).mbx b' = _ from Function.update_of_ne hb ..] at hx
    exact h.boxed hr hx hp

/-- What is taken from a mailbox is read only where the mailbox is. -/
lemma pend (htodo : (s.task i).todo = .pend :: l.todo) (hdata : l.data = (s.task i).data)
    (hs : (s.sys.pend i).map (fun y => s.act i y l) = some s') : s'.Intact := by
  obtain ⟨y, hy, rfl⟩ := Option.map_eq_some_iff.1 hs
  have hinv := h.sys.pend hy
  have hown := h.sys.pend_own hy
  obtain ⟨-, b, x, rest, ho, hb, rfl⟩ := MsgSys.pend_eq_some.1 hy
  have hfit : Fit s.config.kickMode i (.pend :: l.todo) := htodo ▸ h.fit i
  -- what is left in the mailbox was in it, and what is taken is read only where the mailbox is
  refine h.act_hold hinv hown (hfit.suffix (List.suffix_cons _ _)) rfl ?_ ?_
    (fun d hd => h.pointed (hdata ▸ hd))
  · intro b' hr x' hx' p hp
    by_cases hb' : b' = b
    · subst hb'
      rw [show (s.sys.pended i b' x rest).mbx b' = _ from Function.update_self ..] at hx'
      exact h.boxed hr (by rw [hb]; exact List.mem_cons_of_mem x hx') hp
    · rw [show (s.sys.pended i b x rest).mbx b' = _ from Function.update_of_ne hb' ..] at hx'
      exact h.boxed hr hx' hp
  · intro e he
    obtain ⟨hw, p, hp, rfl⟩ := of_mem_handEntries he
    have hr : readable s.config.kickMode (some b) := by
      rw [← ho, h.own]
      exact hfit l.todo List.suffix_rfl hw
    exact h.boxed hr (by rw [hb]; exact List.mem_cons_self) (List.mem_of_mem_drop hp)

/-- The pointer that is returned is that of the payload set in its place. -/
lemma got (hfit : Fit s.config.kickMode i l.todo) (hw : wants s.config.kickMode (s.task i).todo)
    (hs : s.got i l = some s') : s'.Intact := by
  obtain ⟨⟨p, q, y⟩, hy, rfl⟩ := Option.map_eq_some_iff.1 hs
  have hinv := h.sys.getData hy
  obtain rfl := h.sys.getData_eq hy
  obtain ⟨m, sent, hi, hp, hq, rfl⟩ := MsgSys.getData_eq_some.1 hy
  -- the payload in place `cur_payload_idx` is one of those that were still to be read
  have hgood : ∀ r ∈ sent.drop m.curPayloadIdx, s.mem r.data.var = r.data.held := by
    intro r hr
    refine h.handed (i := i) ?_
    rw [hi, hw]
    exact List.mem_map_of_mem hr
  refine h.act_hold hinv rfl hfit rfl (fun b' hr x hx p hp => h.boxed hr hx hp) ?_ ?_
  · intro e he
    obtain ⟨-, r, hr, rfl⟩ := of_mem_handEntries he
    refine hgood r ?_
    unfold MsgFactory.getData at hr
    split at hr
    · exact hr
    · have hr : r ∈ sent.drop (m.curPayloadIdx + 1) := hr
      rw [← List.drop_drop] at hr
      exact List.mem_of_mem_drop hr
  · intro d hd
    cases p with
    | none => cases hd
    | some p =>
      obtain rfl : (⟨p.data.var, p.data.held⟩ : Entry) = d := Option.some.inj hd
      refine hgood p ?_
      have h0 : (sent.drop m.curPayloadIdx)[0]? = some p := by
        rw [List.getElem?_drop, Nat.add_zero, ← hq]
      exact List.mem_of_getElem? h0

lemma recycle (hfit : Fit s.config.kickMode i l.todo) (hdata : l.data = (s.task i).data)
    (hs : (s.sys.recycle i).map (fun r => s.act i r.2 l) = some s') : s'.Intact := by
  obtain ⟨⟨calls, y⟩, hy, rfl⟩ := Option.map_eq_some_iff.1 hs
  have hinv := h.sys.recycle hy
  obtain ⟨m, sent, -, -, rfl⟩ := MsgSys.recycle_eq_some.1 hy
  exact h.act_hold hinv rfl hfit rfl (fun b' hr x hx p hp => h.boxed hr hx hp)
    (fun e he => absurd he List.not_mem_nil) fun d hd => h.pointed (hdata ▸ hd)

end Messages

/-! ### All statements -/

/-- What a statement that reads no message leaves to the task. -/
lemma goto_rest (h : s.Intact) {a : Instr} {rest : List Instr}
    (htodo : (s.task i).todo = a :: rest)
    (hw : wants s.config.kickMode rest → wants s.config.kickMode (a :: rest)) :
    (s.act i s.sys { s.task i with todo := rest }).Intact := by
  have hfit : Fit s.config.kickMode i (a :: rest) := htodo ▸ h.fit i
  refine h.goto (hfit.suffix (List.suffix_cons a rest)) ?_ fun d hd => h.pointed hd
  rw [htodo]
  exact hw

/-- A branch that is not taken leaves less to read. -/
lemma skip (h : s.Intact) {c : Cond} {n : ℕ} {rest : List Instr} {e : Env}
    (htodo : (s.task i).todo = .when c n :: rest) :
    (s.act i s.sys (if s.holds c e then { s.task i with todo := rest }
      else { s.task i with todo := rest.drop n })).Intact := by
  have hfit : Fit s.config.kickMode i (.when c n :: rest) := htodo ▸ h.fit i
  have hrest := hfit.suffix (List.suffix_cons _ rest)
  split
  case isTrue hc =>
    refine h.goto_rest htodo fun hw => ?_
    by_cases hk : c = .wheelCodeMode
    · subst hk
      have hmode : (s.config.kickMode != 0) = true := hc
      rwa [wants_when_wheelCodeMode, if_pos hmode]
    · rw [wants_when hk, hw, Bool.true_or]
  case isFalse hc =>
    refine h.goto (hrest.suffix (List.drop_suffix n rest)) (fun hw => ?_) fun d hd => h.pointed hd
    have hw : wants s.config.kickMode (rest.drop n) := hw
    rw [htodo]
    by_cases hk : c = .wheelCodeMode
    · subst hk
      have hmode : ¬(s.config.kickMode != 0) = true := hc
      rwa [wants_when_wheelCodeMode, if_neg hmode]
    · rw [wants_when hk, hw, Bool.or_true]

lemma write (h : s.Intact) {n : ℕ} {rest : List Instr} (htodo : (s.task i).todo = .write :: rest)
    {d : Entry} (hd : (s.task i).data = some d)
    (hs : s.write i { s.task i with todo := rest } n d = some s') : s'.Intact := by
  have hfit : Fit s.config.kickMode i (.write :: rest) := htodo ▸ h.fit i
  have hrest := hfit.suffix (List.suffix_cons _ rest)
  have hw : wants s.config.kickMode (.write :: rest) = wants s.config.kickMode rest := rfl
  unfold State.write at hs
  split at hs
  case isTrue =>
    cases hs
    -- an error: nothing more of the message is sent
    refine h.goto (hrest.suffix (List.dropWhile_suffix _)) (fun hc => ?_) (fun _ hc => nomatch hc)
    rw [wants_dropWhile] at hc
    exact absurd hc Bool.false_ne_true
  case isFalse =>
    have h' := h.readBy (i := i) (h.pointed hd) n
    split at hs
    case isTrue =>
      cases hs
      -- a short write: the same data is written again, from its start
      refine h'.goto hfit (fun hc => ?_) fun d' hd' => h.pointed hd'
      show wants s.config.kickMode (s.task i).todo
      rw [htodo]
      exact hc
    case isFalse =>
      split at hs
      case isTrue =>
        cases hs
        refine h'.goto hrest (fun hc => ?_) (fun _ hc => nomatch hc)
        show wants s.config.kickMode (s.task i).todo
        rw [htodo, hw]
        exact hc
      case isFalse => cases hs

/-- One statement, by its kind. -/
lemma run (h : s.Intact) {a : Instr} {rest : List Instr} {e : Env}
    (htodo : (s.task i).todo = a :: rest) (hok : s.SparesUnread (.exec i e))
    (hs : s.run i { s.task i with todo := rest } e a = some s') : s'.Intact := by
  have hfit : Fit s.config.kickMode i (a :: rest) := htodo ▸ h.fit i
  have hrest := hfit.suffix (List.suffix_cons a rest)
  have hplain (hw : wants s.config.kickMode rest → wants s.config.kickMode (a :: rest)) :=
    h.goto_rest htodo hw
  cases a with
  | produce b => exact h.produce (l := { s.task i with todo := rest }) hrest rfl hs
  | store v =>
    have hs := hs
    simp only [State.run] at hs
    split at hs
    case isTrue =>
      cases hs
      exact (h.stored (hok (v, e.bytes) (by simp [writes, htodo]))).goto_rest htodo id
    case isFalse => cases hs
  | copy v w =>
    cases hs
    exact (h.stored (hok (v, s.mem w) (by simp [writes, htodo]))).goto_rest htodo id
  | strcpy v bs =>
    cases hs
    exact (h.stored (hok (v, _) (by simp [writes, htodo]))).goto_rest htodo id
  | setData v => exact h.setData (l := { s.task i with todo := rest }) hrest rfl hs
  | post => exact h.post (l := { s.task i with todo := rest }) hrest rfl hs
  | pend => exact h.pend (l := { s.task i with todo := rest }) htodo rfl hs
  | getData =>
    refine h.got hrest ?_ hs
    rw [htodo]
    rfl
  | read =>
    obtain ⟨d, hd, rfl⟩ := Option.map_eq_some_iff.1 hs
    refine (h.readBy (h.pointed hd) d.var.size).goto hrest (fun hw => ?_) (fun _ hc => nomatch hc)
    show wants s.config.kickMode (s.task i).todo
    rw [htodo]
    exact hw
  | recycle => exact h.recycle (l := { s.task i with todo := rest }) hrest rfl hs
  | when c n =>
    cases hs
    exact h.skip htodo
  | setPosTestItem =>
    cases hs
    have h' := hplain id
    exact ⟨h'.sys, h'.own, h'.fit, h'.box, h'.task, h'.reads⟩
  | getDataNum =>
    simp only [State.run] at hs
    split at hs
    case h_1 m sent hi =>
      cases hs
      refine h.goto hrest (fun hw => ?_) fun d hd => h.pointed hd
      rw [htodo]
      exact hw
    case h_2 => cases hs
  | nextData =>
    simp only [State.run] at hs
    split at hs
    case isTrue =>
      refine h.got ((hfit.cons (by simp))) ?_ hs
      rw [htodo]
      rfl
    case isFalse =>
      cases hs
      exact hplain fun _ => rfl
  | write =>
    obtain ⟨d, hd, hs⟩ := Option.bind_eq_some_iff.1 hs
    exact h.write htodo hd hs

/-- Every step that spares what is still to be read keeps the invariant. -/
lemma step (h : s.Intact) {buildDate : List UInt8} {a : Label} (hok : s.SparesUnread a)
    (hs : s.step buildDate a = some s') : s'.Intact := by
  cases a with
  | start i k =>
    simp only [State.step] at hs
    split at hs
    case h_1 body htodo hbody =>
      cases hs
      have hmem := List.mem_of_getElem? hbody
      refine h.goto (fit_bodies buildDate i body hmem) (fun hw => ?_) fun d hd => h.pointed hd
      rw [wants_bodies buildDate i body hmem] at hw
      exact absurd hw Bool.false_ne_true
    case h_2 => cases hs
  | exec i e =>
    simp only [State.step] at hs
    split at hs
    case h_1 => cases hs
    case h_2 a rest htodo => exact h.run htodo hok hs

end Intact

end State

/-- The bytes that a task reads through the pointer `get_data` returned are those the variable
held when it was set in that message, in every run that changes no variable while a message
still to be read points to it. -/
theorem payload_intact {config : SysConfig} {payload : ℕ → ℕ → MsgPayload Entry Empty}
    {buildDate : List UInt8} {s : State}
    (h : Reach (State.step buildDate) State.SparesUnread (init config payload) s) :
    ∀ r ∈ s.reads, r.bytes = r.held := by
  have hi : s.Intact := h.invariant (.init config payload)
    fun _ _ _ hi hok hs => hi.step hok hs
  exact hi.reads

/-- What the environment gives when only a stored value matters. -/
def envStore (bs : List UInt8) : Env := { bytes := bs, holds := true, written := 0, item := 0 }

/-- `kick1_isr_tsk` posts the wheel code `x`. -/
def kick1Once (x : ℕ) : List Label :=
  .start .kick1Isr 0 :: List.replicate 5 (.exec .kick1Isr (envStore (toLE 8 x)))

/-- `trig1_search_tsk` takes a message and reads its wheel code. -/
def trig1Once : List Label :=
  .start .trig1Search 0 :: List.replicate 4 (.exec .trig1Search (envStore []))

/-- The configuration of a line in wheel code mode. -/
def wheelCodeConfig : SysConfig := { SysConfig.default with kickMode := 1 }

/-- Payload arrays that hold nothing of interest. -/
def noPayload (_ _ : ℕ) : MsgPayload Entry Empty :=
  { data := { var := .version, held := [] }, release := none }

/-- The state after a list of labels. -/
def afterLabels (labels : List Label) : State :=
  (exec (State.step []) (init wheelCodeConfig noPayload) labels).getD
    (init wheelCodeConfig noPayload)

/-- Two samples pass the first kick position, and the one before is searched for. -/
def overtaken : List Label := kick1Once 1000 ++ kick1Once 2500 ++ trig1Once

/-- Each sample is searched for before the next one passes. -/
def oneByOne : List Label :=
  kick1Once 1000 ++ trig1Once ++ [.exec .trig1Search (envStore [])] ++ kick1Once 2500 ++ trig1Once

/-- The search for the first sample reads the wheel code of the second. -/
theorem second_kick_overwrites : ¬ ∀ (config : SysConfig)
    (payload : ℕ → ℕ → MsgPayload Entry Empty) (buildDate : List UInt8) (s : State),
    Reach (State.step buildDate) AnyStep (init config payload) s →
      ∀ r ∈ s.reads, r.bytes = r.held := by
  intro h
  have hreach : Reach (State.step []) AnyStep (init wheelCodeConfig noPayload)
      (afterLabels overtaken) := reach_any overtaken rfl
  have hread := h wheelCodeConfig noPayload [] _ hreach
    { task := .trig1Search, bytes := toLE 8 2500, held := toLE 8 1000 } (by decide +kernel)
  exact absurd hread (by decide)

theorem payload_intact_oneByOne : (afterLabels oneByOne).reads.length = 2 ∧
    ∀ r ∈ (afterLabels oneByOne).reads, r.bytes = r.held :=
  ⟨by decide +kernel, payload_intact (show Reach (State.step []) State.SparesUnread
    (init wheelCodeConfig noPayload) _ from reach_of_exec oneByOne (by decide +kernel) rfl)⟩

end RejectProcess.Mail
