import RejectProcess.Fpga.IsrWork
import RejectProcess.Sample.Ejection

/-!
# From an interrupt to its command

The interrupt tasks of `Fpga/Isr` post the triggers that the search tasks of `Sample/Tasks` take.
The receive task is one task: it handles a sample, a reset or a position test command at a time.
This file runs all five tasks together and follows the position interrupts to the writes of the
command registers.
-/

namespace RejectProcess

open Lib Position

/-- The interrupt tasks with their registers, and the tasks around the sample lists. -/
structure Machine where
  isr : Isr.State
  sys : Sys

namespace Machine

/-- Who moves, and what comes from outside. -/
inductive Label
  /-- An interrupt of a station arrives, with the status bits it sets. -/
  | arrive (n : Station) (bits : UInt16)
  /-- The interrupt task of a station goes on. -/
  | isr (n : Station) (clock : Isr.Clock)
  /-- The interrupt task of a station finds the message pool empty. -/
  | crash (n : Station)
  /-- A sample frame reaches the receive task. -/
  | sample (r : SampleResult)
  /-- A reset frame reaches the receive task. -/
  | reset
  /-- A position test command reaches the receive task. -/
  | command (item : UInt32)
  /-- The receive task goes on. -/
  | recv
  /-- The search task of a station goes on. -/
  | trig (n : Station)

/-- A task moves, and nothing comes from outside. -/
def Label.ofTask : Label → Bool
  | .isr .. => true
  | .crash _ => true
  | .recv => true
  | .trig _ => true
  | _ => false

/-- The task is about to post a trigger. -/
def postsTrigger : Isr.Pc → Bool
  | .report _ .pos _ => true
  | _ => false

/-- The state after start-up. -/
def init (isrClr : Station → UInt16) (memory : Buffer → SampleArray) : Machine where
  isr := Isr.init isrClr
  sys := Sys.init memory

variable (m : Machine)

/-- The process has ended. -/
def exited : Bool := m.isr.exited || m.sys.exited

def withIsr (i : Isr.State) : Machine := { m with isr := i }

def withSys (s : Sys) : Machine := { m with sys := s }

/-- The interrupt task of station `n` has moved on, and has posted its trigger. -/
def isrMoved (n : Station) (clock : Isr.Clock) (i : Isr.State) : Machine where
  isr := i
  sys := if postsTrigger (m.isr.side n).pc then m.sys.post n clock.wheelCode else m.sys

/-- One step. -/
def step (cfg : SysConfig) (m : Machine) (l : Label) : Option Machine :=
  if m.exited then none else
  match l with
  | .arrive n bits => (m.isr.step (.arrive n bits)).map m.withIsr
  | .isr n clock => (m.isr.step (.isr n clock)).map (m.isrMoved n clock)
  | .crash n => (m.isr.step (.crash n)).map m.withIsr
  | .sample r => if m.isr.recv = .idle then (m.sys.step cfg (.sample r)).map m.withSys else none
  | .reset => if m.isr.recv = .idle then (m.sys.step cfg .reset).map m.withSys else none
  | .command item =>
    if m.sys.recv = .idle then (m.isr.step (.command item)).map m.withIsr else none
  | .recv =>
    if m.isr.recv = .idle then (m.sys.step cfg .recv).map m.withSys
    else (m.isr.step .recv).map m.withIsr
  | .trig n => (m.sys.step cfg (.trig n)).map m.withSys

/-- One step of a task. -/
def taskStep (cfg : SysConfig) (m : Machine) (l : Label) : Option Machine :=
  if l.ofTask then m.step cfg l else none

/-- The writes to the command register of a station. -/
def commandsTo (n : Station) : List Command := m.sys.fifo.filter fun c => c.reg = n.comFifoReg

/-- The position interrupts of a station that are on their way to a command: on their way to a
trigger, waiting as a trigger, or searched for. -/
def underway (n : Station) : ℕ :=
  (m.isr.side n).underway + (m.sys.mbx n).length + (m.sys.inProgress n).length

/-! ## The account -/

/-- The two parts keep their invariants, and have seen the same triggers. -/
structure Inv (m : Machine) : Prop where
  isr : m.isr.Inv
  sys : m.sys.Ledger
  posted : ∀ n, m.sys.hist.posted n = (m.isr.side n).kick.length

variable {cfg : SysConfig} {m m' : Machine} {l : Label}

/-- A step of an interrupt task posts the trigger that it is about to post. -/
lemma kick_stepIsr {n : Station} {item : UInt32} {clock : Isr.Clock} {d d' : Isr.Side}
    (hs : Isr.Side.Step n item clock d d') :
    d'.kick = if postsTrigger d.pc then d.kick ++ [clock.wheelCode] else d.kick := by
  cases hs with
  | trigger status todo hpc =>
    rw [hpc]
    rfl
  | wake hpc | sleep hpc | round hpc | again _ hpc | skip _ _ _ hpc | take _ _ _ hpc
  | set _ _ _ _ hpc | clear _ _ _ _ hpc | also _ _ _ hpc | cmd _ _ hpc | feedback _ _ hpc =>
    rw [hpc]
    rfl

/-- Everything else leaves the triggers of the interrupt tasks. -/
lemma kick_step {i i' : Isr.State} {a : Isr.Label} (hs : Isr.State.Step i a i')
    (ha : ∀ n clock, a ≠ .isr n clock) (n : Station) : (i'.side n).kick = (i.side n).kick := by
  have hset : ∀ k (d : Isr.Side), d.kick = (i.side k).kick →
      ((i.setSide k d).side n).kick = (i.side n).kick := by
    intro k d hd
    by_cases hn : n = k
    · subst hn
      rw [Isr.State.side_setSide_self, hd]
    · rw [Isr.State.side_setSide_of_ne hn]
  cases hs with
  | arrive k bits => exact hset k _ rfl
  | isr k clock => exact absurd rfl (ha k clock)
  | crash | command | done | read => rfl
  | write k u isrVal todo => exact hset k _ rfl

/-- Only the interrupt tasks post triggers. -/
lemma posted_step {s s' : Sys} {a : RejectProcess.Label} (hs : Sys.Step cfg s a s')
    (ha : ∀ n code, a ≠ .kick n code) : s'.hist.posted = s.hist.posted := by
  cases hs with
  | kick n code => exact absurd rfl (ha n code)
  | _ => rfl

lemma Inv.withIsr (h : m.Inv) {i : Isr.State} {a : Isr.Label} (hs : m.isr.step a = some i)
    (ha : ∀ n clock, a ≠ .isr n clock) : (m.withIsr i).Inv where
  isr := h.isr.step (Isr.State.step_inv hs)
  sys := h.sys
  posted := fun n => by
    change m.sys.hist.posted n = (i.side n).kick.length
    rw [kick_step (Isr.State.step_inv hs) ha]
    exact h.posted n

lemma Inv.withSys (h : m.Inv) {s : Sys} {a : RejectProcess.Label} (hs : m.sys.step cfg a = some s)
    (ha : ∀ n code, a ≠ .kick n code) : (m.withSys s).Inv where
  isr := h.isr
  sys := Sys.ledger_step h.sys (Sys.step_inv hs)
  posted := fun n => by
    change s.hist.posted n = (m.isr.side n).kick.length
    rw [posted_step (Sys.step_inv hs) ha]
    exact h.posted n

lemma Inv.isrMoved (h : m.Inv) {n : Station} {clock : Isr.Clock} {i : Isr.State}
    (hs : m.isr.step (.isr n clock) = some i) : (m.isrMoved n clock i).Inv := by
  have hstep := Isr.State.step_inv hs
  have hisr : i.Inv := h.isr.step hstep
  cases hstep with
  | isr _ _ d hd =>
    have hkick := kick_stepIsr hd
    rw [Machine.isrMoved]
    split_ifs at hkick with hpost
    · have hposted : Sys.Step SysConfig.default m.sys (.kick n clock.wheelCode)
          (m.sys.post n clock.wheelCode) := .kick n _
      have hupdate : (m.sys.post n clock.wheelCode).hist.posted =
          Function.update m.sys.hist.posted n (m.sys.hist.posted n + 1) := rfl
      rw [if_pos hpost]
      refine ⟨hisr, Sys.ledger_step h.sys hposted, fun k => ?_⟩
      by_cases hk : k = n
      · subst hk
        rw [hupdate, Function.update_self, Isr.State.side_setSide_self, hkick, List.length_append,
          h.posted]
        rfl
      · rw [hupdate, Function.update_of_ne hk, Isr.State.side_setSide_of_ne hk]
        exact h.posted k
    · rw [if_neg hpost]
      refine ⟨hisr, h.sys, fun k => ?_⟩
      by_cases hk : k = n
      · subst hk
        change _ = ((m.isr.setSide k d).side k).kick.length
        rw [Isr.State.side_setSide_self, hkick]
        exact h.posted k
      · change _ = ((m.isr.setSide n d).side k).kick.length
        rw [Isr.State.side_setSide_of_ne hk]
        exact h.posted k

lemma inv_init (isrClr : Station → UInt16) (memory : Buffer → SampleArray) :
    (init isrClr memory).Inv where
  isr := Isr.State.inv_init isrClr
  sys := Sys.ledger_init memory
  posted := fun _ => rfl

/-- Everything a step can do, by the part that moves. -/
inductive Step (cfg : SysConfig) (m : Machine) (l : Label) : Machine → Prop
  | isr (n : Station) (clock : Isr.Clock) (i : Isr.State) : l = .isr n clock →
      m.isr.step (.isr n clock) = some i → Step cfg m l (m.isrMoved n clock i)
  | other (a : Isr.Label) (i : Isr.State) : (∀ n clock, a ≠ .isr n clock) →
      (l.ofTask = true → a = .recv ∨ ∃ n, a = .crash n) →
      (∀ n bits, a = .arrive n bits → l = .arrive n bits) → m.isr.step a = some i →
      Step cfg m l (m.withIsr i)
  | sys (a : RejectProcess.Label) (s : Sys) : (∀ n code, a ≠ .kick n code) →
      (l.ofTask = true → a = .recv ∨ ∃ n, a = .trig n) → (∀ n, a = .trig n → l = .trig n) →
      m.sys.step cfg a = some s → Step cfg m l (m.withSys s)

lemma step_inv (hs : m.step cfg l = some m') : m.exited = false ∧ Step cfg m l m' := by
  unfold step at hs
  split at hs
  · exact nomatch hs
  · rename_i hexited
    refine ⟨Bool.eq_false_iff.2 hexited, ?_⟩
    cases l with
    | arrive n bits =>
      obtain ⟨i, hi, rfl⟩ := Option.map_eq_some_iff.1 hs
      exact .other _ i (by simp) (fun h => nomatch h) (fun _ _ h => by simpa using h) hi
    | isr n clock =>
      obtain ⟨i, hi, rfl⟩ := Option.map_eq_some_iff.1 hs
      exact .isr n clock i rfl hi
    | crash n =>
      obtain ⟨i, hi, rfl⟩ := Option.map_eq_some_iff.1 hs
      exact .other _ i (by simp) (fun _ => .inr ⟨n, rfl⟩) (by simp) hi
    | sample r =>
      simp only [Option.ite_none_right_eq_some] at hs
      obtain ⟨s, hs', rfl⟩ := Option.map_eq_some_iff.1 hs.2
      exact .sys _ s (by simp) (fun h => nomatch h) (by simp) hs'
    | reset =>
      simp only [Option.ite_none_right_eq_some] at hs
      obtain ⟨s, hs', rfl⟩ := Option.map_eq_some_iff.1 hs.2
      exact .sys _ s (by simp) (fun h => nomatch h) (by simp) hs'
    | command item =>
      simp only [Option.ite_none_right_eq_some] at hs
      obtain ⟨i, hi, rfl⟩ := Option.map_eq_some_iff.1 hs.2
      exact .other _ i (by simp) (fun h => nomatch h) (by simp) hi
    | recv =>
      simp only at hs
      split_ifs at hs with hidle
      · obtain ⟨s, hs', rfl⟩ := Option.map_eq_some_iff.1 hs
        exact .sys _ s (by simp) (fun _ => .inl rfl) (by simp) hs'
      · obtain ⟨i, hi, rfl⟩ := Option.map_eq_some_iff.1 hs
        exact .other _ i (by simp) (fun _ => .inl rfl) (by simp) hi
    | trig n =>
      obtain ⟨s, hs', rfl⟩ := Option.map_eq_some_iff.1 hs
      exact .sys _ s (by simp) (fun _ => .inr ⟨n, rfl⟩) (fun _ h => by simpa using h) hs'

lemma Inv.step (h : m.Inv) (hs : Step cfg m l m') : m'.Inv := by
  cases hs with
  | isr n clock i hl hi => exact h.isrMoved hi
  | other a i ha _ _ hi => exact h.withIsr hi ha
  | sys a s ha _ _ hs' => exact h.withSys hs' ha

/-- A position interrupt that has set its bit has been answered by one command, is on its way, or
was cleared by a write for another interrupt. -/
lemma Inv.account (h : m.Inv) (n : Station) :
    (m.isr.side n).rises = (m.commandsTo n).length + m.underway n + (m.isr.side n).lost := by
  have hcommands : (m.commandsTo n).length = (m.sys.answered n).length := by
    rw [commandsTo, Sys.answered, List.length_map]
    congr 1
    refine List.filter_congr fun c hc => ?_
    rw [(h.sys.commands c hc).reg, decide_eq_decide]
    exact ⟨Sys.comFifoReg_inj, fun hcn => by rw [hcn]⟩
  have hmessages := congrArg List.length (h.sys.messages n)
  rw [List.length_append, List.length_range] at hmessages
  have hposted := h.sys.posted n
  rw [h.posted n] at hposted
  have haccount := (h.isr n).account
  rw [underway]
  omega

/-! ## The tasks come to rest -/

/-- The steps that a search task has left before it takes the next trigger. -/
def trigLeft : TrigPc → ℕ
  | .idle => 0
  | .written _ => 1
  | .searched _ => 2
  | .searching _ _ _ => 3
  | .counted _ => 4
  | .counting _ _ => 5
  | .pended _ => 6

/-- The steps that the receive task has left in a sample or a reset. -/
def recvLeft : RecvPc → ℕ
  | .idle => 0
  | .link _ _ => 1
  | .produce _ => 2
  | .finish => 1
  | .reply => 2
  | .clear2 => 3
  | .clear1 => 4
  | .zero => 5

/-- The steps that it has left in a position test command. -/
def commandLeft : Mask.RecvPc → ℕ
  | .idle => 0
  | .read todo => 2 * todo.length + 1
  | .write _ _ _ todo => 2 * todo.length + 2

/-- The steps that the search task of a station has left. -/
def trigWork (s : Sys) (n : Station) : ℕ := 7 * (s.mbx n).length + trigLeft (s.trig n)

def sysWork (s : Sys) : ℕ :=
  trigWork s .one + trigWork s .two + recvLeft s.recv + if s.exited then 0 else 1

/-- What the tasks still have to do, if nothing comes from outside. -/
def work (m : Machine) : ℕ :=
  (m.isr.side .one).work + (m.isr.side .two).work + sysWork m.sys + commandLeft m.isr.recv +
    if m.isr.exited then 0 else 1

/-- No interrupt is set but the three of each station that the loops acknowledge. -/
def Known (m : Machine) : Prop := ∀ n, (m.isr.side n).Known

/-- A step of a search task that leaves the other tasks alone. -/
lemma sysWork_trig {s s' : Sys} (n : Station) (hlt : trigWork s' n < trigWork s n)
    (hother : ∀ k, k ≠ n → trigWork s' k = trigWork s k) (hrecv : s'.recv = s.recv)
    (hexit : s'.exited = s.exited) : sysWork s' < sysWork s := by
  rw [sysWork, sysWork, hrecv, hexit]
  cases n with
  | one =>
    rw [hother .two (by decide)]
    omega
  | two =>
    rw [hother .one (by decide)]
    omega

lemma trigWork_setTrig (s : Sys) (n : Station) (pc : TrigPc) :
    trigWork (s.setTrig n pc) n = 7 * (s.mbx n).length + trigLeft pc := by
  change 7 * (s.mbx n).length + trigLeft (Function.update s.trig n pc n) = _
  rw [Function.update_self]

lemma trigWork_setTrig_of_ne {s : Sys} {n k : Station} (h : k ≠ n) (pc : TrigPc) :
    trigWork (s.setTrig n pc) k = trigWork s k := by
  change 7 * (s.mbx k).length + trigLeft (Function.update s.trig n pc k) = _
  rw [Function.update_of_ne h]
  rfl

/-- A step of the receive task or of a search task leaves less to do. -/
lemma sysWork_lt {s s' : Sys} {a : RejectProcess.Label} (hs : Sys.Step cfg s a s')
    (ha : a = .recv ∨ ∃ n, a = .trig n) (halive : s.exited = false) : sysWork s' < sysWork s := by
  -- a search task moves on with its mailbox as it is
  have hmove : ∀ (n : Station) (pc : TrigPc) (s'' : Sys), s''.mbx = s.mbx →
      s''.trig = (s.setTrig n pc).trig → s''.recv = s.recv → s''.exited = s.exited →
      trigLeft pc < trigLeft (s.trig n) → sysWork s'' < sysWork s := by
    intro n pc s'' hmbx htrig hrecv hexit hlt
    have hwork : ∀ k, trigWork s'' k = trigWork (s.setTrig n pc) k := by
      intro k
      rw [trigWork, trigWork, hmbx, htrig]
      rfl
    refine sysWork_trig n ?_ (fun k hk => ?_) hrecv hexit
    · rw [hwork, trigWork_setTrig, trigWork]
      omega
    · rw [hwork, trigWork_setTrig_of_ne hk]
  -- the receive task moves on
  have hrecvMove : ∀ s'' : Sys, s''.mbx = s.mbx → s''.trig = s.trig → s''.exited = s.exited →
      recvLeft s''.recv < recvLeft s.recv → sysWork s'' < sysWork s := by
    intro s'' hmbx htrig hexit hlt
    rw [sysWork, sysWork, trigWork, trigWork, hmbx, htrig, hexit, trigWork, trigWork]
    omega
  cases hs with
  | skip | sample | reset | kick => simp at ha
  | crash r hrecv hempty =>
    rw [sysWork, sysWork, halive]
    change trigWork s .one + trigWork s .two + recvLeft s.recv + 0 < _
    simp
  | produce r buf f hrecv | link r buf hrecv | zero hrecv | clear1 hrecv | clear2 hrecv
  | reply hrecv | finish hrecv =>
    refine hrecvMove _ rfl rfl rfl ?_
    rw [hrecv]
    exact Nat.lt_add_one _
  | pend n k rest hpc hmbx =>
    refine sysWork_trig n ?_ (fun k' hk => ?_) rfl rfl
    · change 7 * (Function.update s.mbx n rest n).length +
        trigLeft (Function.update s.trig n (.pended k) n) < _
      rw [Function.update_self, Function.update_self, trigWork, hmbx, hpc, List.length_cons]
      simp only [trigLeft]
      omega
    · change 7 * (Function.update s.mbx n rest k').length +
        trigLeft (Function.update s.trig n (.pended k) k') = _
      rw [Function.update_of_ne hk, Function.update_of_ne hk]
      rfl
  | readCount k hpc =>
    refine hmove .one (.counting k s.curCountKt1) _ rfl rfl rfl rfl ?_
    rw [hpc]
    exact Nat.lt_add_one _
  | call2 k hpc =>
    refine hmove .two (.searching k (.wheelCode (s.wheelCode .two k)) 0) _ rfl rfl rfl rfl ?_
    rw [hpc]
    exact (by decide : 3 < 6)
  | countUp n k cur hpc =>
    refine hmove n (.counted k) _ rfl rfl rfl rfl ?_
    rw [hpc]
    exact Nat.lt_add_one _
  | callCount n k hpc hmode =>
    refine hmove n (.searching k (.count s.curCountKt1) s.hist.era) _ rfl rfl rfl rfl ?_
    rw [hpc]
    exact Nat.lt_add_one _
  | callWheelCode n k hpc hmode =>
    refine hmove n (.searching k (.wheelCode (s.wheelCode n k)) 0) _ rfl rfl rfl rfl ?_
    rw [hpc]
    exact Nat.lt_add_one _
  | search n k q era hpc =>
    refine hmove n (.searched _) _ rfl rfl rfl rfl ?_
    rw [hpc]
    exact Nat.lt_add_one _
  | command n r hpc =>
    refine hmove n (.written r.kick) _ rfl rfl rfl rfl ?_
    rw [hpc]
    exact Nat.lt_add_one _
  | done n k hpc =>
    refine hmove n .idle _ rfl rfl rfl rfl ?_
    rw [hpc]
    exact Nat.lt_add_one _

/-- A trigger that is posted is seven steps for its search task. -/
lemma sysWork_post {s : Sys} (n : Station) (code : UInt64) :
    sysWork (s.post n code) = sysWork s + 7 := by
  have hself : trigWork (s.post n code) n = trigWork s n + 7 := by
    change 7 * (Function.update s.mbx n (s.mbx n ++ [_]) n).length + trigLeft (s.trig n) = _
    rw [Function.update_self, List.length_append, trigWork, List.length_singleton]
    omega
  have hother : ∀ k, k ≠ n → trigWork (s.post n code) k = trigWork s k := by
    intro k hk
    change 7 * (Function.update s.mbx n _ k).length + trigLeft (s.trig k) = _
    rw [Function.update_of_ne hk]
    rfl
  have hrecv : (s.post n code).recv = s.recv := rfl
  have hexit : (s.post n code).exited = s.exited := rfl
  rw [sysWork, sysWork, hrecv, hexit]
  cases n with
  | one =>
    rw [hself, hother .two (by decide)]
    omega
  | two =>
    rw [hself, hother .one (by decide)]
    omega

/-- A step of a task leaves less to do. -/
lemma work_lt (hs : Step cfg m l m') (hl : l.ofTask = true) (hknown : m.Known)
    (halive : m.exited = false) : m'.work < m.work := by
  obtain ⟨hisr, hsys⟩ := Bool.or_eq_false_iff.1 halive
  cases hs with
  | isr n clock i hl' hi =>
    have hstep := Isr.State.step_inv hi
    cases hstep with
    | isr _ _ d hd =>
      have hlt := Isr.Side.work_stepIsr hd (hknown n)
      have hkick := kick_stepIsr hd
      -- what the trigger adds to the work of the search task
      have hadd : sysWork (m.isrMoved n clock (m.isr.setSide n d)).sys +
          7 * (m.isr.side n).kick.length = sysWork m.sys + 7 * d.kick.length := by
        rw [isrMoved]
        split_ifs at hkick ⊢ with hpost
        · rw [hkick, sysWork_post, List.length_append, List.length_singleton]
          omega
        · rw [hkick]
      have hrecv : (m.isrMoved n clock (m.isr.setSide n d)).isr.recv = m.isr.recv := rfl
      have hexit : (m.isrMoved n clock (m.isr.setSide n d)).isr.exited = m.isr.exited := rfl
      rw [work, work, hrecv, hexit]
      change ((m.isr.setSide n d).side .one).work + ((m.isr.setSide n d).side .two).work + _ + _ +
        _ < _
      cases n with
      | one =>
        rw [Isr.State.side_setSide_self, Isr.State.side_setSide_of_ne (by decide)]
        omega
      | two =>
        rw [Isr.State.side_setSide_self, Isr.State.side_setSide_of_ne (by decide)]
        omega
  | other a i _ ha _ hi =>
    have hstep := Isr.State.step_inv hi
    have hmove : ∀ i' : Isr.State, (∀ n, (i'.side n).work ≤ (m.isr.side n).work) →
        commandLeft i'.recv + (if i'.exited then 0 else 1) <
          commandLeft m.isr.recv + (if m.isr.exited then 0 else 1) →
        (m.withIsr i').work < m.work := by
      intro i' hwork hlt
      have h1 := hwork .one
      have h2 := hwork .two
      change (i'.side .one).work + (i'.side .two).work + sysWork m.sys + commandLeft i'.recv +
        (if i'.exited then 0 else 1) < _
      rw [work]
      omega
    rcases ha hl with rfl | ⟨n, rfl⟩
    · cases hstep with
      | done hrecv =>
        refine hmove _ (fun _ => le_rfl) ?_
        rw [hrecv]
        exact Nat.add_lt_add_right (Nat.lt_add_one _) _
      | read n u todo hrecv =>
        refine hmove _ (fun _ => le_rfl) ?_
        rw [hrecv]
        exact Nat.add_lt_add_right (Nat.lt_add_one _) _
      | write n u isrVal todo hrecv =>
        refine hmove _ (fun k => ?_) ?_
        · change (Function.update m.isr.side n _ k).work ≤ _
          by_cases hk : k = n
          · subst hk
            rw [Function.update_self]
            exact Isr.Side.work_write
          · rw [Function.update_of_ne hk]
        · rw [hrecv]
          exact Nat.add_lt_add_right (Nat.lt_add_one _) _
    · cases hstep with
      | crash =>
        refine hmove _ (fun _ => le_rfl) ?_
        simp [hisr]
  | sys a s _ ha _ hs' =>
    have hlt := sysWork_lt (Sys.step_inv hs') (ha hl) hsys
    change (m.isr.side .one).work + (m.isr.side .two).work + sysWork s + commandLeft m.isr.recv +
      (if m.isr.exited then 0 else 1) < _
    rw [work]
    omega

/-- Interrupts that the loops know, and nothing else that would set a bit. -/
lemma Known.step (h : m.Known) (hs : Step cfg m l m')
    (hl : ∀ n bits, l = .arrive n bits → ∀ i, 3 ≤ i → Drain.bitOf bits i = false) : m'.Known := by
  have hisr : ∀ (a : Isr.Label) (i : Isr.State), m.isr.step a = some i →
      (∀ n bits, a = .arrive n bits → l = .arrive n bits) → ∀ n, (i.side n).Known := by
    intro a i hi ha
    exact Isr.State.forall_side_step h (Isr.State.step_inv hi)
      (fun _ n bits hab hd => hd.arrive (hl n bits (ha n bits hab)))
      (fun _ _ _ _ _ hd hstep => hd.stepIsr hstep) fun n u isrVal _ _ _ => (h n).write _
  cases hs with
  | isr n clock i _ hi => exact hisr _ i hi (by simp)
  | other a i _ _ ha hi => exact hisr a i hi ha
  | sys a s _ _ _ hs' => exact h

/-- Where no task can move, nothing is on its way. -/
lemma Inv.atRest (h : m.Inv) (halive : m.exited = false)
    (hrest : ∀ l, taskStep cfg m l = none) (n : Station) : m.underway n = 0 := by
  obtain ⟨hisr, hsys⟩ := Bool.or_eq_false_iff.1 halive
  have hstep : ∀ l : Label, l.ofTask = true → m.step cfg l = none := by
    intro l hl
    have hnone := hrest l
    rwa [taskStep, if_pos hl] at hnone
  have hasleep : (m.isr.side n).underway = 0 := by
    refine (@Isr.Side.Inv.asleep _ _ n m.isr.posTestItem (h.isr n) fun clock => ?_).2
    have hnone := hstep (.isr n clock) rfl
    simpa [Machine.step, halive, Isr.State.step, hisr] using hnone
  have htrig : m.sys.stepTrig cfg n = none := by
    have hnone := hstep (.trig n) rfl
    simpa [Machine.step, halive, Sys.step, hsys] using hnone
  obtain ⟨hidle, hmbx⟩ : m.sys.trig n = .idle ∧ m.sys.mbx n = [] := by
    unfold Sys.stepTrig at htrig
    cases hpc : m.sys.trig n with
    | idle =>
      cases hmbx : m.sys.mbx n with
      | nil => exact ⟨rfl, rfl⟩
      | cons k rest => simp [hpc, hmbx] at htrig
    | counted k => simp [hpc, ite_eq_iff] at htrig
    | pended k => cases n <;> simp [hpc] at htrig
    | counting | searching | searched | written => simp [hpc] at htrig
  rw [underway, hasleep, hmbx, Sys.inProgress, hidle]
  rfl

/-- What a run with the labels `ls` shows about the position interrupts and their commands. -/
structure InterruptsAnswered (cfg : SysConfig) (ls : List Label) (m : Machine) : Prop where
  /-- A position interrupt that has set its bit has been answered by one write to the command
  register of its station, is on its way there, or was cleared by a write for another interrupt. -/
  account : ∀ n, (m.isr.side n).rises =
    (m.commandsTo n).length + m.underway n + (m.isr.side n).lost
  /-- If no status bits were set but those that the loops acknowledge, the tasks come to rest when
  nothing more comes from outside, after a bounded number of steps, and then none is on its way,
  unless the process has ended because a pool was empty. -/
  settles : (∀ n bits, Label.arrive n bits ∈ ls → ∀ i, 3 ≤ i → Drain.bitOf bits i = false) →
    Bounded (taskStep cfg) m ∧
    ∀ m', Reach (taskStep cfg) AnyStep m m' → (∀ l, taskStep cfg m' l = none) →
      m'.exited = true ∨
        ∀ n, (m'.isr.side n).rises = (m'.commandsTo n).length + (m'.isr.side n).lost

/-- A position interrupt of each station, up to the command of station 1, while a position test
command begins. -/
def twoInterrupts : List Label :=
  [.arrive .one 0x1, .command 3, .arrive .two 0x1] ++
    List.replicate 6 (.isr .one ⟨500, ⟨0, 0⟩⟩) ++ List.replicate 7 (.trig .one) ++
    [.recv, .isr .two ⟨500, ⟨0, 0⟩⟩]

end Machine

end RejectProcess
