import Mathlib.Logic.Function.Basic
import RejectProcess.Lib.Run
import RejectProcess.Sample.Pool

/-!
# The tasks around the sample lists

Three tasks share the sample lists: the receive task, which runs `write_array` for a sample
frame and `recv_reset_cmd` for a reset frame, one command after the other, and the two search
tasks, which take the triggers that the interrupt tasks post.  This file is their interleaved
execution.  A locked region is one step, and so is every access to the trigger counter, which
no lock protects.

Some components of the state are a history that the program does not have: they number the
triggers and the samples and keep the moments that the theorems speak about.  No step reads
them to decide what to do.
-/

namespace RejectProcess

/-- A trigger message in a kick mailbox, with the wheel code that it was posted with.  History:
`num` triggers of the station were posted before it, and it is the `turn`-th one posted since
`returned` resets have returned. -/
structure Kick where
  code : UInt64
  num : ℕ
  turn : ℕ
  returned : ℕ
deriving DecidableEq, Repr

/-- What a search task looks for. -/
inductive Query
  | count (c : UInt32)
  | wheelCode (w : UInt64)
deriving DecidableEq, Repr

/-- The test of the search function that is called for a query. -/
def Query.test (cfg : SysConfig) (n : Station) : Query → SampleResult → Bool
  | .count c => countTest c
  | .wheelCode w => wheelCodeTest cfg n w

/-- A search that has been made: the trigger it was made for, what it looked for, and the
number of the sample it took, if any.  History: `era` counter resets preceded the assignment
of the counter value it used, `listed` were the samples in the list, and `cleared` those
that `clear_array` had removed from it. -/
structure Search where
  kick : Kick
  query : Query
  era : ℕ
  listed : List ℕ
  cleared : List ℕ
  found : Option ℕ
deriving DecidableEq, Repr

/-- Where a search task stands. -/
inductive TrigPc
  /-- Waiting in `mailbox_pend`. -/
  | idle
  /-- A message has been taken. -/
  | pended (k : Kick)
  /-- `cur_count_kt1++` has read the counter. -/
  | counting (k : Kick) (cur : UInt32)
  /-- `cur_count_kt1++` has written it back. -/
  | counted (k : Kick)
  /-- The search function has been called. -/
  | searching (k : Kick) (q : Query) (era : ℕ)
  /-- The locked region of the search is over. -/
  | searched (r : Search)
  /-- The command has been written. -/
  | written (k : Kick)
deriving DecidableEq, Repr

/-- Where the receive task stands. -/
inductive RecvPc
  /-- Between two commands. -/
  | idle
  /-- In `write_array`, before `buf_factory_produce`. -/
  | produce (r : SampleResult)
  /-- In `write_array`, with a buffer in hand. -/
  | link (r : SampleResult) (buf : Buffer)
  /-- In `recv_reset_cmd`, before `cur_count_kt1 = 0`. -/
  | zero
  /-- In `clear_array`, before the list of station 1. -/
  | clear1
  /-- In `clear_array`, before the list of station 2. -/
  | clear2
  /-- In `recv_reset_cmd`, before the reply. -/
  | reply
  /-- In `recv_reset_cmd`, before `g_sys_reset_flag = 0` and the return. -/
  | finish
deriving DecidableEq, Repr

/-- Is the search task inside a search function? -/
def TrigPc.inSearch : TrigPc → Bool
  | .searching _ _ _ => true
  | .searched _ => true
  | _ => false

/-- Is the receive task inside `write_array` or `clear_array`? -/
def RecvPc.inArray : RecvPc → Bool
  | .produce _ => true
  | .link _ _ => true
  | .clear1 => true
  | .clear2 => true
  | _ => false

/-- A write to a command register.  History: the station whose task made it, and its search. -/
structure Command where
  reg : ℕ
  val : UInt16
  station : Station
  search : Search
deriving DecidableEq, Repr

/-- A sample that `write_array` has linked, and the number of counter resets before that. -/
structure Accepted where
  sample : SampleResult
  era : ℕ
deriving DecidableEq, Repr

/-- The history of a run.  Samples are numbered in the order of acceptance. -/
structure History where
  accepted : List Accepted
  number : Buffer → ℕ
  cleared : Station → List ℕ
  posted : Station → ℕ
  consumed : Station → ℕ
  /-- The kick 1 triggers posted since the last reset returned. -/
  sinceReturn : ℕ
  returned : ℕ
  zeroed : ℕ
  /-- The counter resets that preceded the last assignment of the counter. -/
  era : ℕ

/-- The state of the three tasks and of what they share. -/
structure Sys where
  mem : ArrayMem
  curCountKt1 : UInt32
  gSysResetFlag : UInt32
  mbx : Station → List Kick
  recv : RecvPc
  trig : Station → TrigPc
  fifo : List Command
  exited : Bool
  hist : History

/-- Who moves, and what comes from outside. -/
inductive Label
  /-- A sample frame reaches the receive task. -/
  | sample (r : SampleResult)
  /-- A reset frame reaches the receive task. -/
  | reset
  /-- The receive task goes on. -/
  | recv
  /-- The interrupt task of a station posts a trigger. -/
  | kick (n : Station) (code : UInt64)
  /-- The search task of a station goes on. -/
  | trig (n : Station)
deriving DecidableEq, Repr

namespace Sys

/-- The state after start-up, with the given content of the buffer memory. -/
def init (memory : Buffer → SampleArray) : Sys where
  mem := arrayBufInit memory
  curCountKt1 := 0
  gSysResetFlag := 0
  mbx := fun _ => []
  recv := .idle
  trig := fun _ => .idle
  fifo := []
  exited := false
  hist :=
    { accepted := [], number := fun _ => 0, cleared := fun _ => [], posted := fun _ => 0,
      consumed := fun _ => 0, sinceReturn := 0, returned := 0, zeroed := 0, era := 0 }

variable (s : Sys)

/-- The numbers of the samples in the list of a station. -/
def listed (n : Station) : List ℕ := (s.mem.list n).map s.hist.number

/-- Move a search task. -/
def setTrig (n : Station) (pc : TrigPc) : Sys :=
  { s with trig := Function.update s.trig n pc }

/-- `mailbox_post` by the interrupt task of station `n`.  The variable that carries the wheel code
is set just before, and from that moment on the search task may read it. -/
def post (n : Station) (code : UInt64) : Sys :=
  let turn := match n with
    | .one => s.hist.sinceReturn + 1
    | .two => 0
  { s with
    mbx := Function.update s.mbx n
      (s.mbx n ++ [{ code := code, num := s.hist.posted n, turn := turn,
                     returned := s.hist.returned }])
    hist :=
      { s.hist with
        posted := Function.update s.hist.posted n (s.hist.posted n + 1)
        sinceReturn := match n with
          | .one => s.hist.sinceReturn + 1
          | .two => s.hist.sinceReturn } }

/-- `mailbox_pend` by a search task: `k` is taken off the mailbox. -/
def pend (n : Station) (k : Kick) (rest : List Kick) : Sys :=
  { s.setTrig n (.pended k) with
    mbx := Function.update s.mbx n rest
    hist := { s.hist with
      consumed := Function.update s.hist.consumed n (s.hist.consumed n + 1) } }

/-- What `kick1_wheel_code` or `kick2_wheel_code` holds while the search task has `k` in hand.  A
message carries the address of this one variable, and the interrupt task sets it anew for each
trigger: the last one is at the end of the mailbox, or it is `k`. -/
def wheelCode (n : Station) (k : Kick) : UInt64 := ((s.mbx n).getLast?.getD k).code

/-- The second half of `cur_count_kt1++`. -/
def countUp (n : Station) (k : Kick) (cur : UInt32) : Sys :=
  { s.setTrig n (.counted k) with
    curCountKt1 := cur + 1
    hist := { s.hist with era := s.hist.zeroed } }

/-- The locked region of a search function. -/
def search (cfg : SysConfig) (n : Station) (k : Kick) (q : Query) (era : ℕ) : Sys :=
  let r := searchLocked (q.test cfg n) n s.mem
  { s.setTrig n (.searched
      { kick := k, query := q, era := era, listed := s.listed n, cleared := s.hist.cleared n,
        found := r.1.map s.hist.number }) with
    mem := r.2 }

/-- The register write at the end of a search function. -/
def command (n : Station) (r : Search) : Sys :=
  { s.setTrig n (.written r.kick) with
    fifo := s.fifo ++
      [{ reg := n.comFifoReg, val := if r.found.isSome then 1 else 0, station := n, search := r }] }

/-- One step of the search task of station `n`. -/
def stepTrig (cfg : SysConfig) (n : Station) : Option Sys :=
  match s.trig n with
  | .idle =>
    match s.mbx n with
    | [] => none
    | k :: rest => some (s.pend n k rest)
  | .pended k =>
    match n with
    | .one => some (s.setTrig .one (.counting k s.curCountKt1))
    -- station 2 does not count, it searches by wheel code in every mode
    | .two => some (s.setTrig .two (.searching k (.wheelCode (s.wheelCode .two k)) 0))
  | .counting k cur => some (s.countUp n k cur)
  | .counted k =>
    if cfg.kickMode = 0 then
      some (s.setTrig n (.searching k (.count s.curCountKt1) s.hist.era))
    else
      some (s.setTrig n (.searching k (.wheelCode (s.wheelCode n k)) 0))
  | .searching k q era => some (s.search cfg n k q era)
  | .searched r => some (s.command n r)
  | .written _ => some (s.setTrig n .idle)

/-- The locked region of `write_array`, with the record filled before it and published. -/
def link (r : SampleResult) (buf : Buffer) : Sys :=
  { s with
    mem := linkSample r buf s.mem
    recv := .idle
    hist :=
      { s.hist with
        accepted := s.hist.accepted ++ [{ sample := r, era := s.hist.zeroed }]
        number := Function.update s.hist.number buf s.hist.accepted.length } }

/-- The locked region of `clear_array` for one list. -/
def clear (n : Station) (pc : RecvPc) : Sys :=
  { s with
    mem := clearLocked n s.mem
    recv := pc
    hist := { s.hist with
      cleared := Function.update s.hist.cleared n (s.hist.cleared n ++ s.listed n) } }

/-- `buf_factory_produce` has handed out `buf` and left the factory `f`. -/
def produced (r : SampleResult) (buf : Buffer) (f : BufferFactory SampleArray) : Sys :=
  { s with mem := s.mem.setBuf f, recv := .link r buf }

/-- `ERROR` ends the process. -/
def exit : Sys := { s with exited := true }

/-- `cur_count_kt1 = 0`. -/
def zeroCount : Sys :=
  { s with
    curCountKt1 := 0
    recv := .clear1
    hist := { s.hist with zeroed := s.hist.zeroed + 1, era := s.hist.zeroed } }

/-- The end of `recv_reset_cmd`. -/
def finishReset : Sys :=
  { s with
    gSysResetFlag := 0
    recv := .idle
    hist := { s.hist with returned := s.hist.returned + 1, sinceReturn := 0 } }

/-- One step of the receive task inside a command. -/
def stepRecv : Option Sys :=
  match s.recv with
  | .idle => none
  | .produce r =>
    match s.mem.sampleBuf.produce with
    | none => some s.exit
    | some (buf, f) => some (s.produced r buf f)
  | .link r buf => some (s.link r buf)
  | .zero => some s.zeroCount
  | .clear1 => some (s.clear .one .clear2)
  | .clear2 => some (s.clear .two .reply)
  | .reply => some { s with recv := .finish }
  | .finish => some s.finishReset

/-- One step of the system.  `none`: the party cannot move that way in this state, or the
process has exited. -/
def step (cfg : SysConfig) (s : Sys) (l : Label) : Option Sys :=
  if s.exited then none else
  match l with
  | .sample r =>
    if s.recv = .idle then
      some { s with recv := if r.pos ≠ 0 then .produce r else .idle }
    else none
  | .reset =>
    if s.recv = .idle then some { s with gSysResetFlag := 1, recv := .zero } else none
  | .recv => s.stepRecv
  | .kick n code => some (s.post n code)
  | .trig n => s.stepTrig cfg n

/-- Everything a step can do: the state it needs and the state it leaves. -/
inductive Step (cfg : SysConfig) (s : Sys) : Label → Sys → Prop
  | skip (r : SampleResult) : s.recv = .idle → r.pos = 0 → Step cfg s (.sample r) s
  | sample (r : SampleResult) : s.recv = .idle → r.pos ≠ 0 →
      Step cfg s (.sample r) { s with recv := .produce r }
  | reset : s.recv = .idle → Step cfg s .reset { s with gSysResetFlag := 1, recv := .zero }
  | crash (r : SampleResult) : s.recv = .produce r → s.mem.sampleBuf.produce = none →
      Step cfg s .recv s.exit
  | produce (r : SampleResult) (buf : Buffer) (f : BufferFactory SampleArray) :
      s.recv = .produce r → s.mem.sampleBuf.produce = some (buf, f) →
      Step cfg s .recv (s.produced r buf f)
  | link (r : SampleResult) (buf : Buffer) : s.recv = .link r buf →
      Step cfg s .recv (s.link r buf)
  | zero : s.recv = .zero → Step cfg s .recv s.zeroCount
  | clear1 : s.recv = .clear1 → Step cfg s .recv (s.clear .one .clear2)
  | clear2 : s.recv = .clear2 → Step cfg s .recv (s.clear .two .reply)
  | reply : s.recv = .reply → Step cfg s .recv { s with recv := .finish }
  | finish : s.recv = .finish → Step cfg s .recv s.finishReset
  | kick (n : Station) (code : UInt64) : Step cfg s (.kick n code) (s.post n code)
  | pend (n : Station) (k : Kick) (rest : List Kick) : s.trig n = .idle → s.mbx n = k :: rest →
      Step cfg s (.trig n) (s.pend n k rest)
  | readCount (k : Kick) : s.trig .one = .pended k →
      Step cfg s (.trig .one) (s.setTrig .one (.counting k s.curCountKt1))
  | call2 (k : Kick) : s.trig .two = .pended k →
      Step cfg s (.trig .two)
        (s.setTrig .two (.searching k (.wheelCode (s.wheelCode .two k)) 0))
  | countUp (n : Station) (k : Kick) (cur : UInt32) : s.trig n = .counting k cur →
      Step cfg s (.trig n) (s.countUp n k cur)
  | callCount (n : Station) (k : Kick) : s.trig n = .counted k → cfg.kickMode = 0 →
      Step cfg s (.trig n) (s.setTrig n (.searching k (.count s.curCountKt1) s.hist.era))
  | callWheelCode (n : Station) (k : Kick) : s.trig n = .counted k → cfg.kickMode ≠ 0 →
      Step cfg s (.trig n) (s.setTrig n (.searching k (.wheelCode (s.wheelCode n k)) 0))
  | search (n : Station) (k : Kick) (q : Query) (era : ℕ) : s.trig n = .searching k q era →
      Step cfg s (.trig n) (s.search cfg n k q era)
  | command (n : Station) (r : Search) : s.trig n = .searched r →
      Step cfg s (.trig n) (s.command n r)
  | done (n : Station) (k : Kick) : s.trig n = .written k →
      Step cfg s (.trig n) (s.setTrig n .idle)

lemma stepTrig_inv {cfg : SysConfig} {s s' : Sys} {n : Station}
    (h : s.stepTrig cfg n = some s') : Step cfg s (.trig n) s' := by
  unfold stepTrig at h
  cases hpc : s.trig n with
  | idle =>
    rw [hpc] at h
    cases hm : s.mbx n with
    | nil => simp [hm] at h
    | cons k rest =>
      obtain rfl : s.pend n k rest = s' := by simpa [hm] using h
      exact .pend n k rest hpc hm
  | pended k =>
    cases n with
    | one =>
      obtain rfl : _ = s' := by simpa [hpc] using h
      exact .readCount k hpc
    | two =>
      obtain rfl : _ = s' := by simpa [hpc] using h
      exact .call2 k hpc
  | counting k cur =>
    obtain rfl : s.countUp n k cur = s' := by simpa [hpc] using h
    exact .countUp n k cur hpc
  | counted k =>
    by_cases hm : cfg.kickMode = 0
    · obtain rfl : _ = s' := by simpa [hpc, hm] using h
      exact .callCount n k hpc hm
    · obtain rfl : _ = s' := by simpa [hpc, hm] using h
      exact .callWheelCode n k hpc hm
  | searching k q era =>
    obtain rfl : s.search cfg n k q era = s' := by simpa [hpc] using h
    exact .search n k q era hpc
  | searched r =>
    obtain rfl : s.command n r = s' := by simpa [hpc] using h
    exact .command n r hpc
  | written k =>
    obtain rfl : s.setTrig n .idle = s' := by simpa [hpc] using h
    exact .done n k hpc

lemma stepRecv_inv {cfg : SysConfig} {s s' : Sys} (h : s.stepRecv = some s') :
    Step cfg s .recv s' := by
  unfold stepRecv at h
  cases hpc : s.recv with
  | idle => simp [hpc] at h
  | produce r =>
    cases hp : s.mem.sampleBuf.produce with
    | none =>
      obtain rfl : s.exit = s' := by simpa [hpc, hp] using h
      exact .crash r hpc hp
    | some q =>
      obtain rfl : s.produced r q.1 q.2 = s' := by simpa [hpc, hp] using h
      exact .produce r q.1 q.2 hpc hp
  | link r buf =>
    obtain rfl : s.link r buf = s' := by simpa [hpc] using h
    exact .link r buf hpc
  | zero =>
    obtain rfl : s.zeroCount = s' := by simpa [hpc] using h
    exact .zero hpc
  | clear1 =>
    obtain rfl : s.clear .one .clear2 = s' := by simpa [hpc] using h
    exact .clear1 hpc
  | clear2 =>
    obtain rfl : s.clear .two .reply = s' := by simpa [hpc] using h
    exact .clear2 hpc
  | reply =>
    obtain rfl : _ = s' := by simpa [hpc] using h
    exact .reply hpc
  | finish =>
    obtain rfl : s.finishReset = s' := by simpa [hpc] using h
    exact .finish hpc

/-- Inversion of a step: every invariant below is proved from it. -/
lemma step_inv {cfg : SysConfig} {s s' : Sys} {l : Label} (h : s.step cfg l = some s') :
    Step cfg s l s' := by
  unfold step at h
  split at h
  · simp at h
  · cases l with
    | sample r =>
      by_cases hr : s.recv = .idle
      · by_cases hp : r.pos = 0
        · have hs : { s with recv := .idle } = s' := by simpa [hr, hp] using h
          obtain rfl : s = s' := by rw [← hs, ← hr]
          exact .skip r hr hp
        · obtain rfl : _ = s' := by simpa [hr, hp] using h
          exact .sample r hr hp
      · simp [hr] at h
    | reset =>
      by_cases hr : s.recv = .idle
      · obtain rfl : _ = s' := by simpa [hr] using h
        exact .reset hr
      · simp [hr] at h
    | recv => exact stepRecv_inv h
    | kick n code =>
      obtain rfl : s.post n code = s' := by simpa using h
      exact .kick n code
    | trig n => exact stepTrig_inv h

end Sys

end RejectProcess
