import Mathlib.Data.UInt
import RejectProcess.Lib.Run
import RejectProcess.Sample.Array
import RejectProcess.Sample.Publish

/-!
# The position tests

`sample/position.c`, with what `recv_pos_test_cmd` and `recv_sample_result` of
`communication/local_protocol.c` and the interrupt tasks of `fpga/isr.c` have to do with it.  A
test measures the way or the time from a reference event to a later event.  The reference is
stored as a record in a list, and a task takes the events from its mailbox, the records from the
list, and posts a report.

There are four tests, one for each position task, and they work alike.  What belongs to one of
them is a `Line`: the list with its buffers, the task that stores and the task that takes, the
mailbox between the interrupt task and the position task.  A locked region is one step.  The
position task looks at the list without the lock, so that its test of `list_empty`, its load of
the first node and its call of `list_del` are steps of their own.

A message is a pointer to a static variable of `isr.c`, which the next event assigns again.  What
a task reads through it is what the variable holds then.  Where that is what the message was posted
with, the payload is intact.
-/

namespace RejectProcess.Position

open Lib Publish

/-- `struct timeval`. -/
structure Timeval where
  tvSec : ℤ
  tvUsec : ℤ
deriving DecidableEq, Repr

/-- A time in microseconds. -/
def Timeval.micros (t : Timeval) : ℤ := 1000000 * t.tvSec + t.tvUsec

/-- `SamplePosition`. -/
structure SamplePosition where
  count : UInt32
  wheelCode : UInt64
  cTime : Timeval
deriving DecidableEq, Repr

/-- `PositionArray`. -/
structure PositionArray where
  sample : SamplePosition
  buf : Buffer
deriving DecidableEq, Repr

/-- The value of `pos_test_item` that selects a test, the `item` of its position task. -/
def item : PosList → UInt32
  | .c1Kt .one => 2
  | .kpKft .one => 3
  | .c1Kt .two => 4
  | .kpKft .two => 5

/-- What a producer fills into a record: two of its fields. -/
inductive Reference
  /-- `recv_sample_result`. -/
  | sample (count : UInt32) (wheelCode : UInt64)
  /-- `write_kp1_array_tsk` and `write_kp2_array_tsk`. -/
  | kick (count : UInt32) (cTime : Timeval)
deriving DecidableEq, Repr

/-- The record with the fields filled in, and the other one as the buffer's last use left it. -/
def Reference.fill (r : Reference) (x : SamplePosition) : SamplePosition :=
  match r with
  | .sample count wheelCode => { x with count := count, wheelCode := wheelCode }
  | .kick count cTime => { x with count := count, cTime := cTime }

/-- The payload of a message to a position task: a wheel code or a time. -/
inductive Stamp
  | wheelCode (w : UInt64)
  | time (t : Timeval)
deriving DecidableEq, Repr

/-- A static variable of `isr.c` before the first event of a test. -/
def Stamp.zero : PosList → Stamp
  | .c1Kt _ => .wheelCode 0
  | .kpKft _ => .time { tvSec := 0, tvUsec := 0 }

/-- `ConvertCalcTime`.  The sum is converted to 32 bits, so the width of `long` does not
matter. -/
def convertCalcTime (curTime cTime : Timeval) : UInt32 :=
  UInt32.ofInt (1000000 * (curTime.tvSec - cTime.tvSec) + (curTime.tvUsec - cTime.tvUsec))

/-- `dis`, as `dis_c1_kt1_tsk` and `dis_c1_kt2_tsk` compute it from two wheel codes, and
`dis_kp1_kft1_tsk` and `dis_kp2_kft2_tsk` from two times. -/
def calcDis : Stamp → SamplePosition → UInt32
  | .wheelCode w, x => (w - x.wheelCode).toUInt32
  | .time t, x => convertCalcTime t x.cTime / 50

/-! ## One test -/

/-- An event on its way to the position task.  The message points to the variable that `stamp` was
assigned to.  History: the `stamp`, and as `session` the number of test commands and resets of this
test that came before it. -/
structure Event where
  stamp : Stamp
  session : ℕ
deriving DecidableEq, Repr

/-- History: a record as it was stored, and the `session` in which it was. -/
structure Stored where
  buf : Buffer
  sample : SamplePosition
  session : ℕ
deriving DecidableEq, Repr

/-- Where the producer stands. -/
inductive ProdPc
  | idle
  /-- Before `buf_factory_produce`. -/
  | produce (r : Reference)
  /-- With a buffer in hand, before the message is read. -/
  | fill (r : Reference) (buf : Buffer)
  /-- Before `list_add_tail`. -/
  | link (r : Reference) (buf : Buffer)
deriving DecidableEq, Repr

/-- Where a producer stands that has got a buffer for its record: `recv_sample_result` has its data
in the parameter block, and the others read theirs from a message. -/
def Reference.held (buf : Buffer) : Reference → ProdPc
  | .sample count wheelCode => .link (.sample count wheelCode) buf
  | .kick count cTime => .fill (.kick count cTime) buf

/-- Where the position task stands, with the event it is at. -/
inductive DisPc
  /-- In `mailbox_pend`. -/
  | idle
  /-- Before `list_empty`. -/
  | pended (e : Event)
  /-- Before `plist = list.next`. -/
  | notEmpty (e : Event)
  /-- Before `dis` is computed from the record of `plist`. -/
  | plist (e : Event) (p : Buffer)
  /-- Before `list_del(plist)`. -/
  | computed (e : Event) (p : Buffer)
  /-- Before `buf_factory_recycle`. -/
  | deleted (e : Event) (p : Buffer) (r : Stored)
  /-- Before the report.  History: the record that was taken, if the list was not empty. -/
  | report (e : Event) (r : Option Stored)
deriving DecidableEq, Repr

/-- A report: the values of `item` and `dis` when it is posted.  History: the event and the record
it was made for, and what the position task had read last. -/
structure Report where
  item : UInt32
  dis : UInt32
  event : Event
  record : Option Stored
  cur : Stamp
deriving DecidableEq, Repr

/-- The state of one test.  `payload` is the static variable that the messages to the position task
point to, and `coming` the event for which the interrupt task has assigned it and not yet posted
the message; `cur` is `cur_wheel_code` or `cur_time`.  History: the number of commands and resets,
in which session a buffer was filled, the events, the records that were stored and those that were
taken, and the reports. -/
structure Line where
  buf : BufferFactory PositionArray
  list : List Buffer
  prod : ProdPc
  payload : Stamp
  coming : Option Event
  mbx : List Event
  pc : DisPc
  cur : Stamp
  dis : UInt32
  session : ℕ
  filled : Buffer → ℕ
  events : List Event
  stored : List Stored
  taken : List Stored
  reports : List Report

namespace Line

/-- `position_context_init`. -/
def init (l : PosList) (memory : Buffer → PositionArray) : Line where
  buf := BufferFactory.create 128 memory
  list := []
  prod := .idle
  payload := .zero l
  coming := none
  mbx := []
  pc := .idle
  cur := .zero l
  dis := 0
  session := 0
  filled := fun _ => 0
  events := []
  stored := []
  taken := []
  reports := []

variable (L : Line)

/-- The record in a buffer. -/
def record (b : Buffer) : Stored where
  buf := b
  sample := (L.buf.memory b).sample
  session := L.filled b

/-- The producer starts to store a record. -/
def store (r : Reference) : Line := { L with prod := .produce r }

/-- `buf_factory_produce` has handed out `b` and left the factory `f`. -/
def produced (r : Reference) (b : Buffer) (f : BufferFactory PositionArray) : Line :=
  { L with buf := f, prod := r.held b }

/-- The message has been read. -/
def fillWith (r : Reference) (b : Buffer) : Line := { L with prod := .link r b }

/-- The record, which nobody else has seen, is filled and linked, and its owner assigned. -/
def linked (r : Reference) (b : Buffer) : Line :=
  let x := r.fill (L.buf.memory b).sample
  { L with
    buf := L.buf.store b { sample := x, buf := b }
    list := L.list ++ [b]
    prod := .idle
    filled := Function.update L.filled b L.session
    stored := L.stored ++ [{ buf := b, sample := x, session := L.session }] }

/-- The producer goes on.  `none` on an empty pool is `ERROR("buf factory crash !")`. -/
def stepProd : Option Line :=
  match L.prod with
  | .idle => none
  | .produce r => L.buf.produce.map fun x => L.produced r x.1 x.2
  | .fill r b => some (L.fillWith r b)
  | .link r b => some (L.linked r b)

/-- The interrupt task has an event, finds the test selected and assigns its variable. -/
def event (st : Stamp) : Line :=
  { L with
    payload := st
    coming := some { stamp := st, session := L.session }
    events := L.events ++ [{ stamp := st, session := L.session }] }

/-- The interrupt task posts its message. -/
def post (e : Event) : Line := { L with coming := none, mbx := L.mbx ++ [e] }

/-- The test is selected by a command, or the receive task is reset. -/
def command : Line := { L with session := L.session + 1 }

/-- The position task moves on. -/
def goto (pc : DisPc) : Line := { L with pc := pc }

/-- `mailbox_pend` by the position task. -/
def pend (e : Event) (rest : List Event) : Line := { L with pc := .pended e, mbx := rest }

/-- The position task reads the variable that its message points to, and the record in `p`. -/
def compute (e : Event) (p : Buffer) : Line :=
  { L with
    pc := .computed e p
    cur := L.payload
    dis := calcDis L.payload (L.buf.memory p).sample }

/-- The locked region of the position task. -/
def delete (e : Event) (p : Buffer) : Line :=
  { L with
    list := L.list.erase p
    pc := .deleted e p (L.record p)
    taken := L.taken ++ [L.record p] }

/-- `buf_factory_recycle(0, parray->buf, ..)`. -/
def recycle (e : Event) (p : Buffer) (r : Stored) : Line :=
  { L with buf := L.buf.recycle (L.buf.memory p).buf, pc := .report e (some r) }

/-- The report is posted. -/
def postReport (item : UInt32) (e : Event) (r : Option Stored) : Line :=
  { L with
    pc := .idle
    reports :=
      L.reports ++ [{ item := item, dis := L.dis, event := e, record := r, cur := L.cur }] }

/-- The position task goes on. -/
def stepDis (item : UInt32) : Option Line :=
  match L.pc with
  | .idle =>
    match L.mbx with
    | [] => none
    | e :: rest => some (L.pend e rest)
  | .pended e =>
    match L.list with
    | [] => some (L.goto (.report e none))
    | _ :: _ => some (L.goto (.notEmpty e))
  | .notEmpty e =>
    match L.list with
    -- the head itself: no other task takes a record
    | [] => none
    | p :: _ => some (L.goto (.plist e p))
  | .plist e p => some (L.compute e p)
  | .computed e p => some (L.delete e p)
  | .deleted e p r => some (L.recycle e p r)
  | .report e r => some (L.postReport item e r)

end Line

/-! ## The four tests -/

/-- The state of the tests and of the tasks around them.  `kpTime` is `kp1_time` and `kp2_time`, and
`kpComing` the command for which `kick1_isr_tsk` or `kick2_isr_tsk` has assigned it and not yet
posted its message.  History: the commands of each station, and what the messages in `kpMbx` were
posted with. -/
structure State where
  posTestItem : UInt32
  line : PosList → Line
  kpTime : Station → Timeval
  kpComing : Station → Option Timeval
  kpMbx : Station → List Timeval
  kpSampleCount : Station → UInt32
  cmds : Station → List Timeval

/-- Who moves, and what comes from outside. -/
inductive Label
  /-- A sample frame reaches `recv_sample_result`, behind its call of `write_array`. -/
  | sample (count : UInt32) (wheelCode : UInt64)
  /-- A position test command. -/
  | posTest (item : UInt32)
  /-- A reset command. -/
  | reset
  /-- `recv_sample_result` goes on to store its record in the list of a station. -/
  | recv (n : Station)
  /-- A sample at the kick tube of a station. -/
  | kick (n : Station) (wheelCode : UInt64)
  /-- A kick command of a station is issued. -/
  | cmd (n : Station) (t : Timeval)
  /-- The feedback of a kick. -/
  | feedback (n : Station) (t : Timeval)
  /-- The interrupt task of a station posts its message. -/
  | isr (n : Station)
  /-- `write_kp1_array_tsk` or `write_kp2_array_tsk` goes on. -/
  | writeKp (n : Station)
  /-- A position task goes on. -/
  | dis (l : PosList)
deriving DecidableEq, Repr

/-- The state after start-up, with the given content of the buffer memory. -/
def init (memory : PosList → Buffer → PositionArray) : State where
  posTestItem := 0
  line := fun l => .init l (memory l)
  kpTime := fun _ => { tvSec := 0, tvUsec := 0 }
  kpComing := fun _ => none
  kpMbx := fun _ => []
  kpSampleCount := fun _ => 0
  cmds := fun _ => []

namespace State

variable (s : State)

/-- Change one test. -/
def setLine (l : PosList) (L : Line) : State := { s with line := Function.update s.line l L }

/-- The receive task is between two frames. -/
def RecvIdle : Prop := ∀ n, (s.line (.c1Kt n)).prod = .idle

instance : Decidable s.RecvIdle :=
  decidable_of_iff ((s.line (.c1Kt .one)).prod = .idle ∧ (s.line (.c1Kt .two)).prod = .idle)
    ⟨fun h n => by cases n; exacts [h.1, h.2], fun h => ⟨h .one, h .two⟩⟩

/-- The interrupt task of a station is between two events. -/
def IsrIdle (n : Station) : Prop :=
  (s.line (.c1Kt n)).coming = none ∧ (s.line (.kpKft n)).coming = none ∧ s.kpComing n = none

instance (n : Station) : Decidable (s.IsrIdle n) := inferInstanceAs (Decidable (_ ∧ _ ∧ _))

/-- An event of test `l`, if `pos_test_item` selects it. -/
def event (l : PosList) (st : Stamp) : State :=
  if s.posTestItem = item l then s.setLine l ((s.line l).event st) else s

/-- A kick command, if `pos_test_item` selects the test of its time. -/
def command (n : Station) (t : Timeval) : State :=
  if s.posTestItem = item (.kpKft n) then
    { s with
      kpTime := Function.update s.kpTime n t
      kpComing := Function.update s.kpComing n (some t)
      cmds := Function.update s.cmds n (s.cmds n ++ [t]) }
  else s

/-- `recv_sample_result`, behind its call of `write_array`. -/
def recvSampleResult (count : UInt32) (wheelCode : UInt64) : State :=
  if s.posTestItem = 2 then
    s.setLine (.c1Kt .one) ((s.line (.c1Kt .one)).store (.sample count wheelCode))
  else if s.posTestItem = 4 then
    s.setLine (.c1Kt .two) ((s.line (.c1Kt .two)).store (.sample count wheelCode))
  else s

/-- What `recv_pos_test_cmd` does to `pos_test_item`. -/
def recvPosTestCmd (k : UInt32) : State :=
  { s with
    posTestItem := k
    line := fun l => if item l = k then (s.line l).command else s.line l }

/-- `recv_reset_cmd` leaves the position tests as they are. -/
def recvResetCmd : State := { s with line := fun l => (s.line l).command }

/-- The interrupt task of a station posts the message it has at hand. -/
def stepIsr (n : Station) : Option State :=
  match s.kpComing n, (s.line (.c1Kt n)).coming, (s.line (.kpKft n)).coming with
  | some t, _, _ =>
    some { s with
      kpComing := Function.update s.kpComing n none
      kpMbx := Function.update s.kpMbx n (s.kpMbx n ++ [t]) }
  | none, some e, _ => some (s.setLine (.c1Kt n) ((s.line (.c1Kt n)).post e))
  | none, none, some e => some (s.setLine (.kpKft n) ((s.line (.kpKft n)).post e))
  | none, none, none => none

/-- `write_kp1_array_tsk` and `write_kp2_array_tsk`: a message is taken, its record is filled from
the variable that the message points to, and stored. -/
def stepWriteKp (n : Station) : Option State :=
  match (s.line (.kpKft n)).prod, s.kpMbx n with
  | .idle, [] => none
  | .idle, t :: rest =>
    some { s.setLine (.kpKft n) ((s.line (.kpKft n)).store (.kick (s.kpSampleCount n + 1) t)) with
      kpMbx := Function.update s.kpMbx n rest
      kpSampleCount := Function.update s.kpSampleCount n (s.kpSampleCount n + 1) }
  | .fill (.kick count _) b, _ =>
    some (s.setLine (.kpKft n) ((s.line (.kpKft n)).fillWith (.kick count (s.kpTime n)) b))
  | _, _ => (s.line (.kpKft n)).stepProd.map (s.setLine (.kpKft n))

/-- One step. -/
def step (s : State) : Label → Option State
  | .sample count wheelCode =>
    if s.RecvIdle then some (s.recvSampleResult count wheelCode) else none
  | .posTest k => if s.RecvIdle then some (s.recvPosTestCmd k) else none
  | .reset => if s.RecvIdle then some s.recvResetCmd else none
  | .recv n => (s.line (.c1Kt n)).stepProd.map (s.setLine (.c1Kt n))
  | .kick n w => if s.IsrIdle n then some (s.event (.c1Kt n) (.wheelCode w)) else none
  | .cmd n t => if s.IsrIdle n then some (s.command n t) else none
  | .feedback n t => if s.IsrIdle n then some (s.event (.kpKft n) (.time t)) else none
  | .isr n => s.stepIsr n
  | .writeKp n => s.stepWriteKp n
  | .dis l => ((s.line l).stepDis (item l)).map (s.setLine l)

end State

/-! ## What a step does to one test -/

namespace Line

/-- Everything that can happen to the test `l` in a step of the four. -/
inductive Step (l : PosList) (L : Line) : Label → Line → Prop
  | store (a : Label) (r : Reference) : L.prod = .idle → Step l L a (L.store r)
  | produce (a : Label) (r : Reference) (b : Buffer) (f : BufferFactory PositionArray) :
      L.prod = .produce r → L.buf.produce = some (b, f) → Step l L a (L.produced r b f)
  | fill (a : Label) (r r' : Reference) (b : Buffer) : L.prod = .fill r b →
      Step l L a (L.fillWith r' b)
  | link (a : Label) (r : Reference) (b : Buffer) : L.prod = .link r b →
      Step l L a (L.linked r b)
  | event (a : Label) (st : Stamp) : L.coming = none → Step l L a (L.event st)
  | post (a : Label) (e : Event) : L.coming = some e → Step l L a (L.post e)
  | command (a : Label) : a = .reset ∨ a = .posTest (item l) → Step l L a L.command
  | pend (e : Event) (rest : List Event) : L.pc = .idle → L.mbx = e :: rest →
      Step l L (.dis l) (L.pend e rest)
  | empty (e : Event) : L.pc = .pended e → L.list = [] → Step l L (.dis l) (L.goto (.report e none))
  | notEmpty (e : Event) : L.pc = .pended e → L.list ≠ [] → Step l L (.dis l) (L.goto (.notEmpty e))
  | plist (e : Event) (p : Buffer) (rest : List Buffer) : L.pc = .notEmpty e →
      L.list = p :: rest → Step l L (.dis l) (L.goto (.plist e p))
  | compute (e : Event) (p : Buffer) : L.pc = .plist e p → Step l L (.dis l) (L.compute e p)
  | delete (e : Event) (p : Buffer) : L.pc = .computed e p → Step l L (.dis l) (L.delete e p)
  | recycle (e : Event) (p : Buffer) (r : Stored) : L.pc = .deleted e p r →
      Step l L (.dis l) (L.recycle e p r)
  | report (e : Event) (r : Option Stored) : L.pc = .report e r →
      Step l L (.dis l) (L.postReport (item l) e r)

variable {L L' : Line} {l : PosList}

lemma stepProd_inv (h : L.stepProd = some L') (a : Label) : Step l L a L' := by
  unfold stepProd at h
  cases hp : L.prod with
  | idle => simp [hp] at h
  | produce r =>
    rw [hp] at h
    obtain ⟨⟨b, f⟩, hf, rfl⟩ := Option.map_eq_some_iff.1 h
    exact .produce a r b f hp hf
  | fill r b =>
    rw [hp] at h
    cases h
    exact .fill a r r b hp
  | link r b =>
    rw [hp] at h
    cases h
    exact .link a r b hp

lemma stepDis_inv (h : L.stepDis (item l) = some L') : Step l L (.dis l) L' := by
  unfold stepDis at h
  cases hp : L.pc with
  | idle =>
    cases hm : L.mbx with
    | nil => simp [hp, hm] at h
    | cons e rest =>
      simp only [hp, hm, Option.some.injEq] at h
      subst h
      exact .pend e rest hp hm
  | pended e =>
    cases hl : L.list with
    | nil =>
      simp only [hp, hl, Option.some.injEq] at h
      subst h
      exact .empty e hp hl
    | cons p rest =>
      simp only [hp, hl, Option.some.injEq] at h
      subst h
      exact .notEmpty e hp (by simp [hl])
  | notEmpty e =>
    cases hl : L.list with
    | nil => simp [hp, hl] at h
    | cons p rest =>
      simp only [hp, hl, Option.some.injEq] at h
      subst h
      exact .plist e p rest hp hl
  | plist e p =>
    rw [hp] at h
    cases h
    exact .compute e p hp
  | computed e p =>
    rw [hp] at h
    cases h
    exact .delete e p hp
  | deleted e p r =>
    rw [hp] at h
    cases h
    exact .recycle e p r hp
  | report e r =>
    rw [hp] at h
    cases h
    exact .report e r hp

end Line

namespace State

variable {s s' : State} {a : Label} {l : PosList}

@[simp] lemma line_setLine_self (l : PosList) (L : Line) : (s.setLine l L).line l = L :=
  Function.update_self ..

lemma line_setLine_of_ne {l l' : PosList} (h : l' ≠ l) (L : Line) :
    (s.setLine l L).line l' = s.line l' :=
  Function.update_of_ne h ..

/-- A change of one test is a step of it, and leaves the others alone. -/
lemma setLine_step {l₀ : PosList} {L : Line} (h : Line.Step l₀ (s.line l₀) a L) (l : PosList) :
    (s.setLine l₀ L).line l = s.line l ∨ Line.Step l (s.line l) a ((s.setLine l₀ L).line l) := by
  by_cases hl : l = l₀
  · subst hl
    rw [line_setLine_self]
    exact .inr h
  · exact .inl (line_setLine_of_ne hl L)

/-- Inversion of a step: the invariants of a test are proved from it. -/
lemma line_step (h : s.step a = some s') (l : PosList) :
    s'.line l = s.line l ∨ Line.Step l (s.line l) a (s'.line l) := by
  have hevent : ∀ n l₀ st, (s.IsrIdle n → (s.line l₀).coming = none) →
      (if s.IsrIdle n then some (s.event l₀ st) else none) = some s' →
      s'.line l = s.line l ∨ Line.Step l (s.line l) a (s'.line l) := by
    intro n l₀ st hidle h
    obtain ⟨hi, ⟨⟩⟩ := Option.ite_none_right_eq_some.1 h
    unfold event
    split
    case isTrue => exact setLine_step (.event a st (hidle hi)) l
    case isFalse => exact .inl rfl
  cases a with
  | sample count w =>
    obtain ⟨hidle, ⟨⟩⟩ := Option.ite_none_right_eq_some.1 h
    unfold recvSampleResult
    split
    case isTrue => exact setLine_step (.store _ _ (hidle .one)) l
    case isFalse =>
      split
      case isTrue => exact setLine_step (.store _ _ (hidle .two)) l
      case isFalse => exact .inl rfl
  | posTest k =>
    obtain ⟨-, ⟨⟩⟩ := Option.ite_none_right_eq_some.1 h
    show (if item l = k then (s.line l).command else s.line l) = s.line l ∨
      Line.Step l (s.line l) _ (if item l = k then (s.line l).command else s.line l)
    split
    case isTrue hk => exact .inr (.command _ (.inr (by rw [hk])))
    case isFalse => exact .inl rfl
  | reset =>
    obtain ⟨-, ⟨⟩⟩ := Option.ite_none_right_eq_some.1 h
    exact .inr (.command _ (.inl rfl))
  | recv n =>
    obtain ⟨L, hL, rfl⟩ := Option.map_eq_some_iff.1 h
    exact setLine_step (Line.stepProd_inv hL _) l
  | kick n w => exact hevent n _ _ (fun hi => hi.1) h
  | cmd n t =>
    obtain ⟨-, ⟨⟩⟩ := Option.ite_none_right_eq_some.1 h
    unfold command
    split <;> exact .inl rfl
  | feedback n t => exact hevent n _ _ (fun hi => hi.2.1) h
  | isr n =>
    simp only [step, stepIsr] at h
    split at h
    case h_1 =>
      cases h
      exact .inl rfl
    case h_2 e _ he =>
      cases h
      exact setLine_step (.post _ _ he) l
    case h_3 e _ _ he =>
      cases h
      exact setLine_step (.post _ _ he) l
    case h_4 => cases h
  | writeKp n =>
    simp only [step, stepWriteKp] at h
    split at h
    case h_1 => cases h
    case h_2 t rest hp hm =>
      cases h
      exact setLine_step (s := s) (.store _ _ hp) l
    case h_3 hp =>
      cases h
      exact setLine_step (.fill _ _ _ _ hp) l
    case h_4 =>
      obtain ⟨L, hL, rfl⟩ := Option.map_eq_some_iff.1 h
      exact setLine_step (Line.stepProd_inv hL _) l
  | dis l₀ =>
    obtain ⟨L, hL, rfl⟩ := Option.map_eq_some_iff.1 h
    by_cases hl : l = l₀
    · subst hl
      rw [line_setLine_self]
      exact .inr (Line.stepDis_inv hL)
    · exact .inl (line_setLine_of_ne hl L)

end State

end RejectProcess.Position
