import Mathlib.Data.List.Basic
import Mathlib.Logic.Function.Basic
import RejectProcess.Communication.Recv
import RejectProcess.Communication.Send

/-!
# Frames across connections

The three tasks of `communication/local_socket.c` share `connect_fd` and `connect_status`: the
connect task creates and connects a socket, the receive task closes it when a read fails, and
the send task writes to whatever `connect_fd` is at each write.  Here a write transfers a whole
payload or fails.

A frame stays on one connection if no socket is created while the send task is between two
payloads, and a connection carries whole frames only if nothing is written to it after a write
has failed between two payloads.  Neither is ensured by the code: the status is read once for a
message, and a failed write drops the message but leaves the connection.
-/

namespace RejectProcess

open Lib

/-- A payload on a connection.  History: it is payload `idx` of the message posted as number
`num`. -/
structure Piece where
  num : ℕ
  idx : ℕ
  data : List UInt8
deriving DecidableEq, Repr

/-- The payloads of a message, with the number it was posted under. -/
def LocalMsg.pieces (num : ℕ) (m : LocalMsg) : List Piece :=
  m.payload.mapIdx fun idx data => { num := num, idx := idx, data := data }

/-- A connection: whether it is connected and not shut down.  History: what has been written on
it, and whether a write on it has failed after the first payload of a message. -/
structure Conn where
  up : Bool
  log : List Piece
  abandoned : Bool
deriving DecidableEq, Repr

/-- Where the connect task stands. -/
inductive ConnectPc
  /-- At `usleep`, before it looks at the status. -/
  | sleep
  /-- Before `socket`. -/
  | create
  /-- In the loop around `connect`. -/
  | connect
  /-- Before `connect_status = 1`. -/
  | mark
  /-- Before `sem_post`. -/
  | post
deriving DecidableEq, Repr

/-- How far the receive task has come in giving a connection up. -/
inductive ClosePc
  /-- It is not at it. -/
  | no
  /-- Before `shutdown`. -/
  | shutdown
  /-- Before `close`. -/
  | close
  /-- Before `connect_status = 0`. -/
  | status
deriving DecidableEq, Repr

/-- Where the send task stands.  History: the number its message was posted under. -/
inductive SendPc
  /-- At `mailbox_pend`. -/
  | pend
  /-- Before it looks at the status. -/
  | check (num : ℕ) (m : LocalMsg)
  /-- Before it writes payload `i`. -/
  | write (num : ℕ) (m : LocalMsg) (i : ℕ)
deriving DecidableEq, Repr

/-- Who moves, and what comes from outside. -/
inductive LinkLabel
  /-- Some task posts a message to the send task. -/
  | post (m : LocalMsg)
  /-- The connect task goes on.  Where it calls the system, `ok` says whether that succeeds. -/
  | connect (ok : Bool)
  /-- The receive task goes on in its loops. -/
  | recv (l : RecvLabel)
  /-- The receive task goes on giving the connection up. -/
  | close
  /-- The send task goes on.  Where it writes, `ok` says whether all bytes are transferred. -/
  | send (ok : Bool)
deriving DecidableEq, Repr

/-- The state of the three tasks.  `connectFd` is the number of a connection, in the order of
creation, or `none` where `connect_fd` is no socket.  `posted` and `taken` are history: the
messages posted, and how many of them the send task has taken. -/
structure Link where
  conns : ℕ → Conn
  created : ℕ
  connectFd : Option ℕ
  connectStatus : Bool
  gsemLink : ℕ
  connect : ConnectPc
  recv : RecvTsk
  closing : ClosePc
  send : SendPc
  mbx : List LocalMsg
  posted : List LocalMsg
  taken : ℕ

namespace Link

/-- The state after `local_socket_init`. -/
def init (param : Mem) : Link where
  conns := fun _ => { up := false, log := [], abandoned := false }
  created := 0
  connectFd := none
  connectStatus := false
  gsemLink := 0
  connect := .sleep
  recv := RecvTsk.init param
  closing := .no
  send := .pend
  mbx := []
  posted := []
  taken := 0

variable (s : Link)

/-- Change the connection that `connect_fd` is, if it is one. -/
def onFd (f : Conn → Conn) : Link :=
  match s.connectFd with
  | none => s
  | some c => { s with conns := Function.update s.conns c (f (s.conns c)) }

/-- `socket`: a new connection, or none. -/
def socket (ok : Bool) : Link :=
  if ok then
    { s with
      connectFd := some s.created
      created := s.created + 1
      connect := .connect }
  else
    { s with connectFd := none, connect := .connect }

/-- One step of `local_connect_tsk`. -/
def stepConnect (ok : Bool) : Option Link :=
  match s.connect with
  | .sleep => some (if s.connectStatus then s else { s with connect := .create })
  | .create => some (s.socket ok)
  | .connect =>
    if ok then
      if s.connectFd.isSome then
        some { s.onFd fun c => { c with up := true } with connect := .mark }
      else none
    else some s
  | .mark => some { s with connectStatus := true, connect := .post }
  | .post => some { s with gsemLink := s.gsemLink + 1, connect := .sleep }

/-- One step of `local_recv_tsk` in its loops. -/
def stepRecv (l : RecvLabel) : Option Link :=
  match s.closing with
  | .no =>
    match l with
    | .link =>
      if 0 < s.gsemLink then
        (s.recv.step .link).map fun r => { s with recv := r, gsemLink := s.gsemLink - 1 }
      else none
    | .read bs => (s.recv.step (.read bs)).map fun r => { s with recv := r }
    | .fail => (s.recv.step .fail).map fun r => { s with recv := r, closing := .shutdown }
  | _ => none

/-- One step of `local_recv_tsk` after a failed read. -/
def stepClose : Option Link :=
  match s.closing with
  | .no => none
  | .shutdown => some { s.onFd fun c => { c with up := false } with closing := .close }
  | .close => some { s with closing := .status }
  | .status => some { s with connectStatus := false, closing := .no }

/-- The state after the first payloads of a message, up to `i`, have been written. -/
def nextPayload (num : ℕ) (m : LocalMsg) (i : ℕ) : Link :=
  if i < m.payload.length then { s with send := .write num m i } else { s with send := .pend }

/-- A payload is written to the connection `connect_fd` is. -/
def writeOk (num : ℕ) (m : LocalMsg) (i : ℕ) : Link :=
  (s.onFd fun c => { c with
    log := c.log ++ [{ num := num, idx := i, data := m.payload.getD i [] }] }).nextPayload
      num m (i + 1)

/-- A write fails, and the message is dropped. -/
def writeFail (i : ℕ) : Link :=
  { s.onFd fun c => { c with abandoned := c.abandoned || decide (0 < i) } with send := .pend }

/-- Is `connect_fd` a connection that can take bytes? -/
def canWrite : Bool :=
  match s.connectFd with
  | none => false
  | some c => (s.conns c).up

/-- One step of `local_send_tsk`. -/
def stepSend (ok : Bool) : Option Link :=
  match s.send with
  | .pend =>
    match s.mbx with
    | [] => none
    | m :: mbx => some { s with mbx := mbx, send := .check s.taken m, taken := s.taken + 1 }
  | .check num m =>
    if s.connectStatus then some (s.nextPayload num m 0) else some { s with send := .pend }
  | .write num m i =>
    if ok then
      if s.canWrite then some (s.writeOk num m i) else none
    else some (s.writeFail i)

/-- One step of the three tasks. -/
def step (s : Link) : LinkLabel → Option Link
  | .post m => some { s with mbx := s.mbx ++ [m], posted := s.posted ++ [m] }
  | .connect ok => s.stepConnect ok
  | .recv l => s.stepRecv l
  | .close => s.stepClose
  | .send ok => s.stepSend ok

/-! ## Whole frames -/

/-- The payloads of the message posted under a number. -/
def framePieces (posted : List LocalMsg) (num : ℕ) : List Piece :=
  match posted[num]? with
  | none => []
  | some m => m.pieces num

/-- What has been written on a connection is a beginning of whole frames, of messages in the
order in which they were posted. -/
def FramesKept (posted : List LocalMsg) (log : List Piece) : Prop :=
  ∃ nums : List ℕ, nums.Pairwise (· < ·) ∧ (∀ i ∈ nums, i < posted.length) ∧
    log <+: nums.flatMap (framePieces posted)

end Link

/-- Is the send task between two payloads of a message? -/
def SendPc.midway : SendPc → Bool
  | .write _ _ (_ + 1) => true
  | _ => false

/-- Is the send task before a write? -/
def SendPc.writes : SendPc → Bool
  | .write _ _ _ => true
  | _ => false

/-- The message the send task is at. -/
def SendPc.message : SendPc → Option (ℕ × LocalMsg)
  | .pend => none
  | .check num m => some (num, m)
  | .write num m _ => some (num, m)

/-- The payloads of its message that the send task has written. -/
def SendPc.written : SendPc → List Piece
  | .write num m i => (m.pieces num).take i
  | _ => []

namespace Link

/-- Has a write failed in the middle of a frame on the connection that `connect_fd` is? -/
def broken (s : Link) : Bool :=
  match s.connectFd with
  | none => false
  | some c => (s.conns c).abandoned

/-- No socket is created while the send task is between two payloads, and no write succeeds on a
connection on which a write has failed between two payloads. -/
def FrameSafe (s : Link) : LinkLabel → Prop
  | .connect true => s.connect = .create → s.send.midway = false
  | .send true => s.send.writes = true → s.broken = false
  | _ => True

instance (s : Link) : ∀ l, Decidable (FrameSafe s l)
  | .connect true => inferInstanceAs (Decidable (_ → _))
  | .connect false => isTrue trivial
  | .send true => inferInstanceAs (Decidable (_ → _))
  | .send false => isTrue trivial
  | .post _ => isTrue trivial
  | .recv _ => isTrue trivial
  | .close => isTrue trivial

/-- The next message that can start on a connection has at least this number. -/
def nextNum (s : Link) : ℕ :=
  match s.send.message with
  | none => s.taken
  | some (num, _) => num

/-- The connection in use carries whole frames and the payloads of the message in progress. -/
def Aligned (s : Link) (log : List Piece) : Prop :=
  ∃ nums : List ℕ, nums.Pairwise (· < ·) ∧ (∀ i ∈ nums, i < s.nextNum) ∧
    log = nums.flatMap (framePieces s.posted) ++ s.send.written

/-- The invariant of the connections. -/
structure FrameInv (s : Link) : Prop where
  taken : s.taken ≤ s.posted.length
  mbx : s.mbx = s.posted.drop s.taken
  message : ∀ num m, s.send.message = some (num, m) → num + 1 = s.taken ∧ s.posted[num]? = some m
  payload : ∀ num m i, s.send = .write num m i → i < m.payload.length
  fresh : ∀ c, s.created ≤ c → (s.conns c).log = [] ∧ (s.conns c).abandoned = false
  fd : ∀ c, s.connectFd = some c → c < s.created
  kept : ∀ c, FramesKept s.posted (s.conns c).log
  current : ∀ c, s.connectFd = some c → (s.conns c).abandoned = false → s.Aligned (s.conns c).log

variable {s s' : Link} {l : LinkLabel}

lemma framePieces_append {posted : List LocalMsg} {num : ℕ} (h : num < posted.length)
    (m : LocalMsg) : framePieces (posted ++ [m]) num = framePieces posted num := by
  rw [framePieces, framePieces, List.getElem?_append_left h]

lemma flatMap_framePieces_append {posted : List LocalMsg} {nums : List ℕ}
    (h : ∀ i ∈ nums, i < posted.length) (m : LocalMsg) :
    nums.flatMap (framePieces (posted ++ [m])) = nums.flatMap (framePieces posted) :=
  List.flatMap_congr fun i hi => framePieces_append (h i hi) m

lemma FramesKept.post {posted : List LocalMsg} {log : List Piece} (h : FramesKept posted log)
    (m : LocalMsg) : FramesKept (posted ++ [m]) log := by
  obtain ⟨nums, hsorted, hlt, hpre⟩ := h
  refine ⟨nums, hsorted, ?_, by rwa [flatMap_framePieces_append hlt]⟩
  intro i hi
  have := hlt i hi
  simp
  omega

lemma framesKept_nil (posted : List LocalMsg) : FramesKept posted [] :=
  ⟨[], .nil, by simp, List.nil_prefix⟩

lemma frameInv_init (param : Mem) : (init param).FrameInv where
  taken := Nat.le_refl _
  mbx := rfl
  message := by simp [init, SendPc.message]
  payload := by simp [init]
  fresh := fun _ _ => ⟨rfl, rfl⟩
  fd := by simp [init]
  kept := fun _ => framesKept_nil _
  current := by simp [init]

/-- A step that leaves the logs, the messages and the send task alone, and puts no new
connection in use, keeps the invariant. -/
lemma FrameInv.congr (h : s.FrameInv) (hlog : ∀ c, (s'.conns c).log = (s.conns c).log)
    (hab : ∀ c, (s'.conns c).abandoned = (s.conns c).abandoned)
    (hfd : ∀ c, s'.connectFd = some c → s.connectFd = some c) (hcreated : s'.created = s.created)
    (hsend : s'.send = s.send) (hmbx : s'.mbx = s.mbx) (hposted : s'.posted = s.posted)
    (htaken : s'.taken = s.taken) : s'.FrameInv where
  taken := by rw [htaken, hposted]; exact h.taken
  mbx := by rw [hmbx, hposted, htaken]; exact h.mbx
  message := by rw [hsend, htaken, hposted]; exact h.message
  payload := by rw [hsend]; exact h.payload
  fresh := by
    intro c hc
    rw [hlog, hab]
    exact h.fresh c (hcreated ▸ hc)
  fd := by
    intro c hc
    rw [hcreated]
    exact h.fd c (hfd c hc)
  kept := by
    intro c
    rw [hlog, hposted]
    exact h.kept c
  current := by
    intro c hc ha
    have := h.current c (hfd c hc) (by rw [← hab]; exact ha)
    rw [Aligned, nextNum] at this ⊢
    rwa [hlog, hsend, htaken, hposted]

lemma FrameInv.nextNum_le (h : s.FrameInv) : s.nextNum ≤ s.posted.length := by
  have htaken := h.taken
  unfold nextNum
  cases hm : s.send.message with
  | none => exact htaken
  | some p =>
    have := (h.message p.1 p.2 hm).1
    show p.1 ≤ s.posted.length
    omega

/-- A message is posted. -/
lemma frameInv_post (h : s.FrameInv) (m : LocalMsg) :
    FrameInv { s with mbx := s.mbx ++ [m], posted := s.posted ++ [m] } where
  taken := by
    have := h.taken
    simp
    omega
  mbx := by rw [h.mbx, List.drop_append_of_le_length h.taken]
  message := by
    intro num m' hm
    obtain ⟨hnum, hget⟩ := h.message num m' hm
    refine ⟨hnum, ?_⟩
    rw [List.getElem?_append_left (List.getElem?_eq_some_iff.1 hget).1, hget]
  payload := h.payload
  fresh := h.fresh
  fd := h.fd
  kept := fun c => (h.kept c).post m
  current := by
    intro c hc ha
    obtain ⟨nums, hsorted, hlt, hlog⟩ := h.current c hc ha
    refine ⟨nums, hsorted, hlt, ?_⟩
    rw [flatMap_framePieces_append fun i hi => (hlt i hi).trans_le h.nextNum_le]
    exact hlog

/-- A socket is created while no message is in the middle, or none is. -/
lemma frameInv_socket (h : s.FrameInv) {ok : Bool} (hmid : ok = true → s.send.midway = false) :
    (s.socket ok).FrameInv := by
  cases ok with
  | false => exact h.congr (fun _ => rfl) (fun _ => rfl) (by simp [socket]) rfl rfl rfl rfl rfl
  | true =>
    refine ⟨h.taken, h.mbx, h.message, h.payload, ?_, ?_, h.kept, ?_⟩
    · intro c hc
      exact h.fresh c (Nat.le_of_succ_le hc)
    · intro c hc
      obtain rfl : s.created = c := by simpa [socket] using hc
      exact Nat.lt_succ_self _
    · intro c hc _
      obtain rfl : s.created = c := by simpa [socket] using hc
      refine ⟨[], .nil, by simp, ?_⟩
      have hwritten : s.send.written = [] := by
        have := hmid rfl
        cases hs : s.send with
        | pend => rfl
        | check num m => rfl
        | write num m i =>
          cases i with
          | zero => rfl
          | succ i => simp [hs, SendPc.midway] at this
      show (s.conns s.created).log = [] ++ s.send.written
      rw [(h.fresh _ (Nat.le_refl _)).1, hwritten]
      rfl

/-- The send task takes a message. -/
lemma frameInv_pend (h : s.FrameInv) {m : LocalMsg} {mbx : List LocalMsg} (hpc : s.send = .pend)
    (hm : s.mbx = m :: mbx) :
    FrameInv { s with mbx := mbx, send := .check s.taken m, taken := s.taken + 1 } := by
  have hdrop := h.mbx
  rw [hm] at hdrop
  have hget : s.posted[s.taken]? = some m := by
    have := congrArg List.head? hdrop
    simpa [List.head?_drop] using this.symm
  have hlt := (List.getElem?_eq_some_iff.1 hget).1
  refine ⟨hlt, ?_, ?_, by simp, h.fresh, h.fd, h.kept, ?_⟩
  · have := congrArg List.tail hdrop
    simpa [List.tail_drop] using this
  · intro num m' hm'
    obtain ⟨rfl, rfl⟩ : s.taken = num ∧ m = m' := by simpa [SendPc.message] using hm'
    exact ⟨rfl, hget⟩
  · intro c hc ha
    obtain ⟨nums, hsorted, hnums, hlog⟩ := h.current c hc ha
    refine ⟨nums, hsorted, ?_, ?_⟩
    · simpa [nextNum, hpc, SendPc.message] using hnums
    · simpa [hpc, SendPc.written] using hlog

/-- The send task moves on, or drops its message, while nothing of it is written. -/
lemma FrameInv.setSend (h : s.FrameInv) {pc : SendPc}
    (hmsg : pc = .pend ∨ pc.message = s.send.message)
    (hpayload : ∀ num m i, pc = .write num m i → i < m.payload.length)
    (hold : s.send.written = []) (hnew : pc.written = []) : FrameInv { s with send := pc } := by
  have hnext : s.nextNum ≤ nextNum { s with send := pc } := by
    rcases hmsg with rfl | hmsg
    · show s.nextNum ≤ s.taken
      unfold nextNum
      cases hm : s.send.message with
      | none => exact Nat.le_refl _
      | some p =>
        have := (h.message p.1 p.2 hm).1
        show p.1 ≤ s.taken
        omega
    · simp [nextNum, hmsg]
  refine ⟨h.taken, h.mbx, ?_, hpayload, h.fresh, h.fd, h.kept, ?_⟩
  · intro num m hm
    rcases hmsg with rfl | hmsg
    · simp [SendPc.message] at hm
    · exact h.message num m (hmsg ▸ hm)
  · intro c hc ha
    obtain ⟨nums, hsorted, hnums, hlog⟩ := h.current c hc ha
    refine ⟨nums, hsorted, fun i hi => (hnums i hi).trans_le hnext, ?_⟩
    rw [hold] at hlog
    rw [hnew]
    exact hlog

lemma payload_pos (m : LocalMsg) : 0 < m.payload.length := by
  cases m <;> simp [LocalMsg.payload]

/-- The send task looks at the status. -/
lemma frameInv_check (h : s.FrameInv) {num : ℕ} {m : LocalMsg} (hpc : s.send = .check num m) :
    (s.nextPayload num m 0).FrameInv ∧ FrameInv { s with send := .pend } := by
  have hold : s.send.written = [] := by rw [hpc]; rfl
  constructor
  · rw [nextPayload, if_pos (payload_pos m)]
    refine h.setSend (.inr (by rw [hpc]; rfl)) ?_ hold rfl
    intro num' m' i hw
    obtain ⟨-, rfl, rfl⟩ : num = num' ∧ m = m' ∧ 0 = i := by simpa using hw
    exact payload_pos m
  · exact h.setSend (.inl rfl) (by simp) hold rfl

lemma onFd_of_none (f : Conn → Conn) (h : s.connectFd = none) : s.onFd f = s := by
  rw [onFd, h]

lemma onFd_of_some {c : ℕ} (f : Conn → Conn) (h : s.connectFd = some c) :
    s.onFd f = { s with conns := Function.update s.conns c (f (s.conns c)) } := by
  rw [onFd, h]

/-- A change of the connection in use that its log and its mark do not notice. -/
lemma frameInv_onFd (h : s.FrameInv) {f : Conn → Conn} (hlog : ∀ c, (f c).log = c.log)
    (hab : ∀ c, (f c).abandoned = c.abandoned) : (s.onFd f).FrameInv := by
  cases hfd : s.connectFd with
  | none => rwa [onFd_of_none f hfd]
  | some c =>
    rw [onFd_of_some f hfd]
    refine h.congr ?_ ?_ (fun _ hc => hc) rfl rfl rfl rfl rfl
    · intro c'
      by_cases hc : c' = c
      · subst hc
        simp [hlog]
      · simp [hc]
    · intro c'
      by_cases hc : c' = c
      · subst hc
        simp [hab]
      · simp [hc]

/-- A change of the connection in use leaves the connections to come as they are. -/
lemma FrameInv.fresh_update (h : s.FrameInv) {c : ℕ} (hfd : s.connectFd = some c) (conn : Conn)
    {c' : ℕ} (hc' : s.created ≤ c') : (Function.update s.conns c conn c').log = [] ∧
      (Function.update s.conns c conn c').abandoned = false := by
  have hne : c' ≠ c := by
    have := h.fd c hfd
    omega
  rw [Function.update_of_ne hne]
  exact h.fresh c' hc'

/-- The connections keep whole frames when one of them is changed that does. -/
lemma FrameInv.kept_update (h : s.FrameInv) (c : ℕ) {conn : Conn}
    (hconn : FramesKept s.posted conn.log) (c' : ℕ) :
    FramesKept s.posted (Function.update s.conns c conn c').log := by
  by_cases hc : c' = c
  · rw [hc, Function.update_self]
    exact hconn
  · rw [Function.update_of_ne hc]
    exact h.kept c'

/-- A write fails: in the middle of a frame, nothing more is promised of the connection. -/
lemma frameInv_writeFail (h : s.FrameInv) {num : ℕ} {m : LocalMsg} {i : ℕ}
    (hpc : s.send = .write num m i) : (s.writeFail i).FrameInv := by
  cases i with
  | zero =>
    -- nothing of the message is written, and the connection stays as it is
    have hpend : FrameInv { s with send := .pend } :=
      h.setSend (.inl rfl) (by simp) (by rw [hpc]; rfl) rfl
    have := @frameInv_onFd { s with send := .pend } hpend
      (fun c => { c with abandoned := c.abandoned || decide (0 < 0) }) (fun _ => rfl) (by simp)
    rw [writeFail]
    cases hfd : s.connectFd <;> simpa [onFd, hfd] using this
  | succ i =>
    cases hfd : s.connectFd with
    | none =>
      rw [writeFail, onFd_of_none _ hfd]
      exact ⟨h.taken, h.mbx, by simp [SendPc.message], by simp, h.fresh, h.fd, h.kept,
        by simp [hfd]⟩
    | some c =>
      rw [writeFail, onFd_of_some _ hfd]
      refine ⟨h.taken, h.mbx, by simp [SendPc.message], by simp, fun c' => h.fresh_update hfd _,
        h.fd, h.kept_update c (h.kept c), ?_⟩
      intro c' hc' ha
      obtain rfl : c = c' := by simpa [hfd] using hc'
      simp at ha

/-- One payload more. -/
lemma take_pieces_succ {num i : ℕ} {m : LocalMsg} (hi : i < m.payload.length) :
    (m.pieces num).take (i + 1) =
      (m.pieces num).take i ++ [{ num := num, idx := i, data := m.payload.getD i [] }] := by
  rw [List.take_add_one, LocalMsg.pieces, List.getElem?_mapIdx, List.getElem?_eq_getElem hi]
  simp [List.getElem?_eq_getElem hi]

/-- A log that goes up to payload `i` of a message, with that payload. -/
lemma log_write {posted : List LocalMsg} {nums : List ℕ} {log : List Piece} {num i : ℕ}
    {m : LocalMsg} (hlog : log = nums.flatMap (framePieces posted) ++ (m.pieces num).take i)
    (hi : i < m.payload.length) :
    log ++ [{ num := num, idx := i, data := m.payload.getD i [] }] =
      nums.flatMap (framePieces posted) ++ (m.pieces num).take (i + 1) := by
  rw [take_pieces_succ hi, hlog, List.append_assoc]

/-- A beginning of the frame of a later message after whole frames. -/
lemma framesKept_take {posted : List LocalMsg} {nums : List ℕ} {num : ℕ} {m : LocalMsg}
    (hsorted : (nums ++ [num]).Pairwise (· < ·)) (hlt : ∀ j ∈ nums, j < num)
    (hget : posted[num]? = some m) (i : ℕ) :
    FramesKept posted (nums.flatMap (framePieces posted) ++ (m.pieces num).take i) := by
  have hnum : num < posted.length := (List.getElem?_eq_some_iff.1 hget).1
  refine ⟨nums ++ [num], hsorted, ?_, ?_⟩
  · intro j hj
    rcases List.mem_append.1 hj with hj | hj
    · exact (hlt j hj).trans hnum
    · rw [List.mem_singleton.1 hj]
      exact hnum
  · rw [List.flatMap_append, List.flatMap_singleton, framePieces, hget]
    exact (List.prefix_append_right_inj _).2 (List.take_prefix _ _)

/-- A write succeeds: the frame in progress goes on, or starts. -/
lemma frameInv_writeOk (h : s.FrameInv) {num : ℕ} {m : LocalMsg} {i : ℕ}
    (hpc : s.send = .write num m i) (hcan : s.canWrite = true) (hbroken : s.broken = false) :
    (s.writeOk num m i).FrameInv := by
  obtain ⟨c, hfd⟩ : ∃ c, s.connectFd = some c := by
    cases hfd : s.connectFd with
    | none => simp [canWrite, hfd] at hcan
    | some c => exact ⟨c, rfl⟩
  have hab : (s.conns c).abandoned = false := by simpa [broken, hfd] using hbroken
  -- the log goes up to the payloads written of this message, in whole frames before it
  obtain ⟨nums, hsorted, hnums, hlog⟩ := h.current c hfd hab
  obtain ⟨htaken, hget⟩ := h.message num m (by rw [hpc]; rfl)
  rw [hpc] at hlog
  have hlog' := log_write hlog (h.payload num m i hpc)
  have hlt : ∀ j ∈ nums, j < num := by simpa [nextNum, hpc, SendPc.message] using hnums
  have hsorted' : (nums ++ [num]).Pairwise (· < ·) := by
    rw [List.pairwise_append]
    exact ⟨hsorted, List.pairwise_singleton _ _, by simpa using hlt⟩
  have hkept : FramesKept s.posted
      ((s.conns c).log ++ [{ num := num, idx := i, data := m.payload.getD i [] }]) := by
    rw [hlog']
    exact framesKept_take hsorted' hlt hget (i + 1)
  rw [writeOk, onFd_of_some _ hfd, nextPayload]
  split
  · -- the frame goes on
    rename_i hmore
    refine ⟨h.taken, h.mbx, ?_, ?_, fun c' => h.fresh_update hfd _, h.fd, h.kept_update c hkept,
      ?_⟩
    · intro num' m' hm
      obtain ⟨rfl, rfl⟩ : num = num' ∧ m = m' := by simpa [SendPc.message] using hm
      exact ⟨htaken, hget⟩
    · intro num' m' i' hw
      obtain ⟨-, rfl, rfl⟩ : num = num' ∧ m = m' ∧ i + 1 = i' := by simpa using hw
      exact hmore
    · intro c' hc' _
      obtain rfl : c = c' := by simpa [hfd] using hc'
      refine ⟨nums, hsorted, hlt, ?_⟩
      show (Function.update s.conns c _ c).log =
        nums.flatMap (framePieces s.posted) ++ (m.pieces num).take (i + 1)
      rw [Function.update_self]
      exact hlog'
  · -- the frame is whole
    rename_i hlast
    refine ⟨h.taken, h.mbx, by simp [SendPc.message], by simp, fun c' => h.fresh_update hfd _, h.fd,
      h.kept_update c hkept, ?_⟩
    intro c' hc' _
    obtain rfl : c = c' := by simpa [hfd] using hc'
    refine ⟨nums ++ [num], hsorted', ?_, ?_⟩
    · intro j hj
      show j < s.taken
      rcases List.mem_append.1 hj with hj | hj
      · have := hlt j hj
        omega
      · have := List.mem_singleton.1 hj
        omega
    · have hall : (m.pieces num).take (i + 1) = m.pieces num := by
        rw [List.take_of_length_le]
        simp [LocalMsg.pieces]
        omega
      show (Function.update s.conns c _ c).log =
        (nums ++ [num]).flatMap (framePieces s.posted) ++ []
      rw [Function.update_self, hlog', hall, List.flatMap_append, List.flatMap_singleton,
        framePieces, hget, List.append_nil]

/-! ## Steps of the tasks -/

/-- What a step of the connect task does: it creates a socket, connects it, or leaves the
connections alone. -/
lemma stepConnect_cases {ok : Bool} (hs : s.stepConnect ok = some s') :
    (s.connect = .create ∧ s' = s.socket ok) ∨
      s' = { s.onFd fun c => { c with up := true } with connect := .mark } ∨
      ∃ pc st n, s' = { s with connectStatus := st, gsemLink := n, connect := pc } := by
  rw [stepConnect] at hs
  cases hpc : s.connect with
  | sleep =>
    rw [hpc] at hs
    obtain rfl := Option.some.inj hs
    refine .inr (.inr ?_)
    split
    · exact ⟨s.connect, s.connectStatus, s.gsemLink, rfl⟩
    · exact ⟨.create, s.connectStatus, s.gsemLink, rfl⟩
  | create =>
    rw [hpc] at hs
    exact .inl ⟨rfl, (Option.some.inj hs).symm⟩
  | connect =>
    rw [hpc] at hs
    cases ok with
    | false => exact .inr (.inr ⟨s.connect, s.connectStatus, s.gsemLink, (Option.some.inj hs).symm⟩)
    | true =>
      by_cases hfd : s.connectFd.isSome
      · simp only [hfd, if_true] at hs
        exact .inr (.inl (Option.some.inj hs).symm)
      · simp [hfd] at hs
  | mark =>
    rw [hpc] at hs
    exact .inr (.inr ⟨.post, true, s.gsemLink, (Option.some.inj hs).symm⟩)
  | post =>
    rw [hpc] at hs
    exact .inr (.inr ⟨.sleep, s.connectStatus, s.gsemLink + 1, (Option.some.inj hs).symm⟩)

/-- The receive task in its loops makes a step of its own. -/
lemma stepRecv_cases {l : RecvLabel} (hs : s.stepRecv l = some s') :
    ∃ r n cl, s.recv.step l = some r ∧ s' = { s with recv := r, gsemLink := n, closing := cl } := by
  rw [stepRecv.eq_def] at hs
  cases hc : s.closing with
  | no =>
    rw [hc] at hs
    cases l with
    | link =>
      by_cases hsem : 0 < s.gsemLink
      · simp only [hsem, if_true] at hs
        obtain ⟨r, hr, hs⟩ := Option.map_eq_some_iff.1 hs
        exact ⟨r, _, _, hr, hs.symm⟩
      · simp [hsem] at hs
    | read bs =>
      obtain ⟨r, hr, hs⟩ := Option.map_eq_some_iff.1 hs
      exact ⟨r, _, _, hr, hs.symm⟩
    | fail =>
      obtain ⟨r, hr, hs⟩ := Option.map_eq_some_iff.1 hs
      exact ⟨r, _, _, hr, hs.symm⟩
  | shutdown => simp [hc] at hs
  | close => simp [hc] at hs
  | status => simp [hc] at hs

/-- After a failed read the receive task shuts the connection down, and then only its status
changes. -/
lemma stepClose_cases (hs : s.stepClose = some s') :
    s' = { s.onFd fun c => { c with up := false } with closing := .close } ∨
      ∃ cl st, s' = { s with connectStatus := st, closing := cl } := by
  rw [stepClose] at hs
  cases hc : s.closing with
  | no => simp [hc] at hs
  | shutdown =>
    rw [hc] at hs
    exact .inl (Option.some.inj hs).symm
  | close =>
    rw [hc] at hs
    exact .inr ⟨.status, s.connectStatus, (Option.some.inj hs).symm⟩
  | status =>
    rw [hc] at hs
    exact .inr ⟨.no, false, (Option.some.inj hs).symm⟩

/-- The send task takes a message, looks at the status, or writes a payload. -/
lemma stepSend_cases {ok : Bool} (hs : s.stepSend ok = some s') :
    (∃ m mbx, s.send = .pend ∧ s.mbx = m :: mbx ∧
        s' = { s with mbx := mbx, send := .check s.taken m, taken := s.taken + 1 }) ∨
      (∃ num m, s.send = .check num m ∧
        (s' = s.nextPayload num m 0 ∨ s' = { s with send := .pend })) ∨
      ∃ num m i, s.send = .write num m i ∧
        ((ok = false ∧ s' = s.writeFail i) ∨
          (ok = true ∧ s.canWrite = true ∧ s' = s.writeOk num m i)) := by
  rw [stepSend] at hs
  cases hpc : s.send with
  | pend =>
    rw [hpc] at hs
    cases hm : s.mbx with
    | nil => simp [hm] at hs
    | cons m mbx =>
      rw [hm] at hs
      exact .inl ⟨m, mbx, rfl, rfl, (Option.some.inj hs).symm⟩
  | check num m =>
    rw [hpc] at hs
    dsimp only at hs
    refine .inr (.inl ⟨num, m, rfl, ?_⟩)
    by_cases hst : s.connectStatus
    · rw [if_pos hst] at hs
      exact .inl (Option.some.inj hs).symm
    · rw [if_neg hst] at hs
      exact .inr (Option.some.inj hs).symm
  | write num m i =>
    rw [hpc] at hs
    refine .inr (.inr ⟨num, m, i, rfl, ?_⟩)
    cases ok with
    | false => exact .inl ⟨rfl, (Option.some.inj hs).symm⟩
    | true =>
      by_cases hcan : s.canWrite
      · simp only [hcan, if_true] at hs
        exact .inr ⟨rfl, hcan, (Option.some.inj hs).symm⟩
      · simp [hcan] at hs

/-! ## Runs -/

lemma frameInv_stepConnect (h : s.FrameInv) {ok : Bool}
    (hok : s.connect = .create → ok = true → s.send.midway = false)
    (hs : s.stepConnect ok = some s') : s'.FrameInv := by
  rcases stepConnect_cases hs with ⟨hpc, rfl⟩ | rfl | ⟨pc, st, n, rfl⟩
  · exact frameInv_socket h (hok hpc)
  · have hup := frameInv_onFd h (f := fun c => { c with up := true }) (fun _ => rfl) fun _ => rfl
    exact hup.congr (fun _ => rfl) (fun _ => rfl) (fun _ hc => hc) rfl rfl rfl rfl rfl
  · exact h.congr (fun _ => rfl) (fun _ => rfl) (fun _ hc => hc) rfl rfl rfl rfl rfl

lemma frameInv_stepRecv (h : s.FrameInv) {l : RecvLabel} (hs : s.stepRecv l = some s') :
    s'.FrameInv := by
  obtain ⟨r, n, cl, -, rfl⟩ := stepRecv_cases hs
  exact h.congr (fun _ => rfl) (fun _ => rfl) (fun _ hc => hc) rfl rfl rfl rfl rfl

lemma frameInv_stepClose (h : s.FrameInv) (hs : s.stepClose = some s') : s'.FrameInv := by
  rcases stepClose_cases hs with rfl | ⟨cl, st, rfl⟩
  · have hdown := frameInv_onFd h (f := fun c => { c with up := false }) (fun _ => rfl) fun _ => rfl
    exact hdown.congr (fun _ => rfl) (fun _ => rfl) (fun _ hc => hc) rfl rfl rfl rfl rfl
  · exact h.congr (fun _ => rfl) (fun _ => rfl) (fun _ hc => hc) rfl rfl rfl rfl rfl

lemma frameInv_stepSend (h : s.FrameInv) {ok : Bool}
    (hok : s.send.writes = true → ok = true → s.broken = false)
    (hs : s.stepSend ok = some s') : s'.FrameInv := by
  rcases stepSend_cases hs with ⟨m, mbx, hpc, hm, rfl⟩ | ⟨num, m, hpc, hs⟩ | ⟨num, m, i, hpc, hs⟩
  · exact frameInv_pend h hpc hm
  · obtain ⟨hgo, hdrop⟩ := frameInv_check h hpc
    rcases hs with rfl | rfl
    · exact hgo
    · exact hdrop
  · rcases hs with ⟨-, rfl⟩ | ⟨rfl, hcan, rfl⟩
    · exact frameInv_writeFail h hpc
    · exact frameInv_writeOk h hpc hcan (hok (by rw [hpc]; rfl) rfl)

lemma frameInv_step (h : s.FrameInv) (hok : FrameSafe s l) (hs : s.step l = some s') :
    s'.FrameInv := by
  cases l with
  | post m =>
    obtain rfl : _ = s' := by simpa [step] using hs
    exact frameInv_post h m
  | connect ok =>
    exact frameInv_stepConnect h (fun hpc hok' => by subst hok'; exact hok hpc) hs
  | recv l =>
    exact frameInv_stepRecv h hs
  | close =>
    exact frameInv_stepClose h hs
  | send ok =>
    exact frameInv_stepSend h (fun hw hok' => by subst hok'; exact hok hw) hs

lemma frameInv_reach {param : Mem} (h : Reach step FrameSafe (init param) s) : s.FrameInv :=
  h.invariant (frameInv_init param) fun _ _ _ hi hok hs => frameInv_step hi hok hs

end Link

/-- The bytes that have been written on a connection. -/
def Conn.bytes (c : Conn) : List UInt8 := c.log.flatMap Piece.data

namespace Link

variable {s s' : Link} {l : LinkLabel}

/-- What has been written on a connection is a beginning of whole frames, of posted messages:
payload by payload, in the order of posting, and so byte by byte. -/
def WholeFrames (posted : List LocalMsg) (c : Conn) : Prop :=
  FramesKept posted c.log ∧
    ∃ ms : List LocalMsg, (∀ m ∈ ms, m ∈ posted) ∧ c.bytes <+: ms.flatMap LocalMsg.bytes

lemma flatMap_data_pieces (num : ℕ) (m : LocalMsg) :
    (m.pieces num).flatMap Piece.data = m.bytes := by
  have hmap : (m.pieces num).map Piece.data = m.payload := by
    refine List.ext_getElem? fun i => ?_
    simp only [LocalMsg.pieces, List.getElem?_map, List.getElem?_mapIdx, Option.map_map]
    exact Option.map_id'
  rw [List.flatMap, hmap, LocalMsg.bytes]

lemma flatMap_data_framePieces (posted : List LocalMsg) (nums : List ℕ) :
    (nums.flatMap (framePieces posted)).flatMap Piece.data =
      (nums.filterMap (posted[·]?)).flatMap LocalMsg.bytes := by
  induction nums with
  | nil => rfl
  | cons i nums ih =>
    rw [List.flatMap_cons, List.flatMap_append, ih, List.filterMap_cons, framePieces]
    cases posted[i]? with
    | none => rfl
    | some m => rw [flatMap_data_pieces, List.flatMap_cons]

/-- Whole frames payload by payload are whole frames byte by byte. -/
lemma FramesKept.whole {posted : List LocalMsg} {c : Conn} (h : FramesKept posted c.log) :
    WholeFrames posted c := by
  refine ⟨h, ?_⟩
  obtain ⟨nums, -, hlt, t, ht⟩ := h
  refine ⟨nums.filterMap (posted[·]?), ?_, t.flatMap Piece.data, ?_⟩
  · intro m hm
    obtain ⟨i, -, hi⟩ := List.mem_filterMap.1 hm
    exact List.mem_of_getElem? hi
  · rw [Conn.bytes, ← List.flatMap_append, ht, flatMap_data_framePieces]

/-- **Whole frames.**  In every run in which no socket is created between two payloads of a
message and nothing is written to a connection after a write on it has failed between two
payloads, every connection carries a beginning of whole frames. -/
theorem frames_whole {param : Mem} (h : Reach step FrameSafe (init param) s) (c : ℕ) :
    WholeFrames s.posted (s.conns c) :=
  ((frameInv_reach h).kept c).whole

/-! ## The receive task among the others -/

@[simp] lemma onFd_recv (f : Conn → Conn) : (s.onFd f).recv = s.recv := by
  cases hfd : s.connectFd <;> simp [onFd, hfd]

@[simp] lemma socket_recv (ok : Bool) : (s.socket ok).recv = s.recv := by
  cases ok <;> rfl

@[simp] lemma nextPayload_recv (num : ℕ) (m : LocalMsg) (i : ℕ) :
    (s.nextPayload num m i).recv = s.recv := by
  rw [nextPayload]
  split <;> rfl

/-- The connect task and the send task leave the receive task alone, and so does the end of a
connection. -/
lemma step_recv (hs : s.step l = some s') :
    s'.recv = s.recv ∨ ∃ l', l = .recv l' ∧ s.recv.step l' = some s'.recv := by
  cases l with
  | post m =>
    obtain rfl := Option.some.inj hs
    exact .inl rfl
  | connect ok =>
    rcases stepConnect_cases hs with ⟨-, rfl⟩ | rfl | ⟨pc, st, n, rfl⟩ <;> simp
  | recv l =>
    obtain ⟨r, n, cl, hr, rfl⟩ := stepRecv_cases hs
    exact .inr ⟨l, rfl, hr⟩
  | close =>
    rcases stepClose_cases hs with rfl | ⟨cl, st, rfl⟩ <;> simp
  | send ok =>
    rcases stepSend_cases hs with ⟨m, mbx, -, -, rfl⟩ | ⟨num, m, -, rfl | rfl⟩ |
      ⟨num, m, i, -, ⟨-, rfl⟩ | ⟨-, -, rfl⟩⟩ <;> simp [writeFail, writeOk]

/-- The receive task's part of a run is a run of its own, so what holds of `RecvTsk` in every
run holds here. -/
theorem reach_recv {param : Mem} {ok : RecvTsk → RecvLabel → Prop}
    (h : Reach step (fun s l => ∀ r, l = .recv r → ok s.recv r) (init param) s) :
    Reach RecvTsk.step ok (RecvTsk.init param) s.recv := by
  refine h.invariant (I := fun s => Reach RecvTsk.step ok (RecvTsk.init param) s.recv) .init ?_
  intro s l s' hr hok hs
  rcases step_recv hs with he | ⟨l', rfl, hstep⟩
  · rw [he]
    exact hr
  · exact hr.step (hok l' rfl) hstep

/-! ## A frame on two connections -/

/-- A first connection, and a handshake message of which the head is written. -/
def connectAndStart : List LinkLabel :=
  .post (.handshake (Vector.replicate 32 0)) :: List.replicate 5 (.connect true) ++
    List.replicate 3 (.send true)

/-- The connection is lost and replaced, and the message goes on. -/
def reconnectMidway : List LinkLabel :=
  connectAndStart ++ [.recv .link, .recv .fail, .close, .close, .close] ++
    List.replicate 3 (.connect true) ++ [.send true]

/-- The state after a list of labels. -/
def afterLabels (labels : List LinkLabel) : Link :=
  (exec step (init fun _ => 0) labels).getD (init fun _ => 0)

/-- The version of a handshake message goes to another connection than its head. -/
theorem frame_continued_elsewhere : ¬ ∀ (param : Mem) (s : Link),
    Reach step AnyStep (init param) s → ∀ c, WholeFrames s.posted (s.conns c) := by
  intro h
  have hreach : Reach step AnyStep (init fun _ => 0) (afterLabels reconnectMidway) :=
    reach_any reconnectMidway rfl
  obtain ⟨-, ms, hms, t, ht⟩ := h _ _ hreach 1
  have hposted : (afterLabels reconnectMidway).posted = [.handshake (Vector.replicate 32 0)] := rfl
  have hbytes : ((afterLabels reconnectMidway).conns 1).bytes = List.replicate 32 0 := by
    decide +kernel
  rw [hbytes] at ht
  cases ms with
  | nil => simp at ht
  | cons m ms =>
    obtain rfl : m = .handshake (Vector.replicate 32 0) := by simpa [hposted] using hms m (by simp)
    have hhead := congrArg List.head? ht
    have hversion : (List.replicate 32 0 ++ t).head? = some 0 := rfl
    have hlength : ((LocalMsg.handshake (Vector.replicate 32 0) :: ms).flatMap
        LocalMsg.bytes).head? = some 36 := rfl
    rw [hversion, hlength] at hhead
    exact absurd hhead (by decide)

/-- The head of a message and then the rest of it on one connection. -/
theorem frames_whole_connectAndStart :
    WholeFrames (afterLabels (connectAndStart ++ [.send true])).posted
      ((afterLabels (connectAndStart ++ [.send true])).conns 0) :=
  frames_whole (show Reach step FrameSafe (init fun _ => 0) _ from
    reach_of_exec (connectAndStart ++ [.send true]) (by decide +kernel) rfl) 0

end Link

end RejectProcess
