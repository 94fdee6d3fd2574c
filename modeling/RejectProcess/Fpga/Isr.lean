import RejectProcess.Fpga.Drain
import RejectProcess.Sample.Position

/-!
# The interrupt tasks

`kick1_isr_tsk` and `kick2_isr_tsk` (`fpga/isr.c`) from the wait for an interrupt to the messages,
while `recv_pos_test_cmd` changes other bits of the same clear registers.  Every access to a
register is a step.  As for the loops of `Fpga/Drain`, a status bit is cleared when its bit in the
clear register falls, whoever writes it.

What wakes a task up is outside of the program: an interrupt leaves a signal behind, or a word to
read, and more interrupts before the task takes it leave no second one.
-/

namespace RejectProcess.Isr

open Lib Position
open Mask (Irq IsrPc recvPosTestCmd)
open Drain (bitOf index pending)

/-! ## The tasks -/

/-- Where an interrupt task stands. -/
inductive Pc
  /-- In `sigwaitinfo`, or in the `read` of `kick_fd`. -/
  | wait
  /-- In its loop, at the registers. -/
  | loop (pc : IsrPc)
  /-- Behind the pulse of an interrupt, before its message. -/
  | report (status : UInt16) (irq : Irq) (todo : List Irq)
  /-- Behind the trigger with this wheel code, before the test of `pos_test_item`. -/
  | also (status : UInt16) (code : UInt64) (todo : List Irq)
deriving DecidableEq, Repr

/-- What `fpga_get_current_code` and `gettimeofday` return in a step. -/
structure Clock where
  wheelCode : UInt64
  time : Timeval

/-- The task of one station with its registers, and the messages it has posted: to the kick
mailbox and to the three of the position tests.  History: the position interrupts that have set
their bit, and those of them that a write for another interrupt has cleared. -/
structure Side where
  isrState : UInt16
  isrClr : UInt16
  woken : Bool
  pc : Pc
  kick : List UInt64
  kt : List UInt64
  kp : List Timeval
  kft : List Timeval
  rises : ℕ
  lost : ℕ

namespace Side

variable (s : Side)

/-- The status bit of the position interrupt. -/
def posSet : Bool := bitOf s.isrState 0

/-- Its bit in the clear register. -/
def posClr : Bool := bitOf s.isrClr 0

/-- The task moves on. -/
def goto (pc : Pc) : Side := { s with pc := pc }

/-- A write to the clear register: the status bits whose bit falls are cleared. -/
def write (v : UInt16) : Side :=
  { s with isrState := s.isrState &&& ~~~(s.isrClr &&& ~~~v), isrClr := v }

/-- A write that clears a set position interrupt. -/
def erases (v : UInt16) : Bool := s.posSet && s.posClr && !bitOf v 0

/-- A write in a pulse. -/
def pulse (irq : Irq) (v : UInt16) : Side :=
  { s.write v with lost := if irq ≠ .pos ∧ s.erases v then s.lost + 1 else s.lost }

/-- An interrupt arrives and sets its bits. -/
def arrive (bits : UInt16) : Side :=
  { s with
    isrState := s.isrState ||| bits
    woken := true
    rises := if bitOf bits 0 ∧ s.posSet = false then s.rises + 1 else s.rises }

/-- One step of the task of station `n`, where `pos_test_item` is `posTestItem`. -/
def stepIsr (n : Station) (posTestItem : UInt32) (clock : Clock) : Option Side :=
  match s.pc with
  | .wait => if s.woken then some { s with woken := false, pc := .loop .status } else none
  | .loop .status =>
    if s.isrState = 0 then some (s.goto .wait)
    else some (s.goto (.loop (.test s.isrState [.pos, .cmd, .feedback])))
  | .loop (.test _ []) => some (s.goto (.loop .status))
  | .loop (.test status (irq :: todo)) =>
    if status &&& irq.bit ≠ 0 then some (s.goto (.loop (.set status irq s.isrClr todo)))
    else some (s.goto (.loop (.test status todo)))
  | .loop (.set status irq isrVal todo) =>
    some ((s.pulse irq (isrVal ||| irq.bit)).goto (.loop (.clear status irq isrVal todo)))
  | .loop (.clear status irq isrVal todo) =>
    some ((s.pulse irq (isrVal &&& irq.keep)).goto (.report status irq todo))
  | .report status .pos todo =>
    some { s with
      kick := s.kick ++ [clock.wheelCode]
      pc := .also status clock.wheelCode todo }
  | .also status code todo =>
    some { s with
      kt := if posTestItem = item (.c1Kt n) then s.kt ++ [code] else s.kt
      pc := .loop (.test status todo) }
  | .report status .cmd todo =>
    some { s with
      kp := if posTestItem = item (.kpKft n) then s.kp ++ [clock.time] else s.kp
      pc := .loop (.test status todo) }
  | .report status .feedback todo =>
    some { s with
      kft := if posTestItem = item (.kpKft n) then s.kft ++ [clock.time] else s.kft
      pc := .loop (.test status todo) }

/-- The task asks `msg_factory_produce` for a message in its next step. -/
def produces (n : Station) (posTestItem : UInt32) : Bool :=
  match s.pc with
  | .report _ .pos _ => true
  | .also _ _ _ => posTestItem == item (.c1Kt n)
  | .report _ _ _ => posTestItem == item (.kpKft n)
  | _ => false

end Side

/-- Both tasks and the receive task in `recv_pos_test_cmd`. -/
structure State where
  side : Station → Side
  recv : Mask.RecvPc
  posTestItem : UInt32
  exited : Bool

/-- Who moves, and what comes from outside. -/
inductive Label
  /-- An interrupt of a station arrives, with the status bits it sets. -/
  | arrive (n : Station) (bits : UInt16)
  /-- The interrupt task of a station goes on. -/
  | isr (n : Station) (clock : Clock)
  /-- The interrupt task of a station finds the message pool empty. -/
  | crash (n : Station)
  /-- A position test command reaches the receive task. -/
  | command (item : UInt32)
  /-- The command goes on. -/
  | recv

/-- The state after start-up, with what the clear registers then hold. -/
def init (isrClr : Station → UInt16) : State where
  side n :=
    { isrState := 0, isrClr := isrClr n, woken := false, pc := .wait, kick := [], kt := [],
      kp := [], kft := [], rises := 0, lost := 0 }
  recv := .idle
  posTestItem := 0
  exited := false

namespace State

variable (s : State)

def setSide (n : Station) (d : Side) : State := { s with side := Function.update s.side n d }

/-- `recv_pos_test_cmd`. -/
def stepRecv : Option State :=
  match s.recv with
  | .idle => none
  | .read [] => some { s with recv := .idle }
  | .read ((n, u) :: todo) => some { s with recv := .write n u (s.side n).isrClr todo }
  | .write n u isrVal todo =>
    some { s.setSide n ((s.side n).write (u.apply isrVal)) with recv := .read todo }

/-- One step. -/
def step (s : State) (l : Label) : Option State :=
  if s.exited then none else
  match l with
  | .arrive n bits => some (s.setSide n ((s.side n).arrive bits))
  | .isr n clock => ((s.side n).stepIsr n s.posTestItem clock).map (s.setSide n)
  | .crash n => if (s.side n).produces n s.posTestItem then some { s with exited := true } else none
  | .command item =>
    if s.recv = .idle then some { s with posTestItem := item, recv := .read (recvPosTestCmd item) }
    else none
  | .recv => s.stepRecv

end State

/-! ## What a step of a task does -/

/-- The order in which the loop looks for the interrupts. -/
abbrev order : List Irq := [.pos, .cmd, .feedback]

namespace Side

/-- Everything a step of the task can do. -/
inductive Step (n : Station) (posTestItem : UInt32) (clock : Clock) (s : Side) : Side → Prop
  | wake : s.pc = .wait → s.woken = true →
      Step n posTestItem clock s { s with woken := false, pc := .loop .status }
  | sleep : s.pc = .loop .status → s.isrState = 0 → Step n posTestItem clock s (s.goto .wait)
  | round : s.pc = .loop .status → s.isrState ≠ 0 →
      Step n posTestItem clock s (s.goto (.loop (.test s.isrState order)))
  | again (status : UInt16) : s.pc = .loop (.test status []) →
      Step n posTestItem clock s (s.goto (.loop .status))
  | take (status : UInt16) (irq : Irq) (todo : List Irq) :
      s.pc = .loop (.test status (irq :: todo)) → status &&& irq.bit ≠ 0 →
      Step n posTestItem clock s (s.goto (.loop (.set status irq s.isrClr todo)))
  | skip (status : UInt16) (irq : Irq) (todo : List Irq) :
      s.pc = .loop (.test status (irq :: todo)) → status &&& irq.bit = 0 →
      Step n posTestItem clock s (s.goto (.loop (.test status todo)))
  | set (status : UInt16) (irq : Irq) (isrVal : UInt16) (todo : List Irq) :
      s.pc = .loop (.set status irq isrVal todo) → Step n posTestItem clock s
        ((s.pulse irq (isrVal ||| irq.bit)).goto (.loop (.clear status irq isrVal todo)))
  | clear (status : UInt16) (irq : Irq) (isrVal : UInt16) (todo : List Irq) :
      s.pc = .loop (.clear status irq isrVal todo) → Step n posTestItem clock s
        ((s.pulse irq (isrVal &&& irq.keep)).goto (.report status irq todo))
  | trigger (status : UInt16) (todo : List Irq) : s.pc = .report status .pos todo →
      Step n posTestItem clock s { s with
        kick := s.kick ++ [clock.wheelCode]
        pc := .also status clock.wheelCode todo }
  | also (status : UInt16) (code : UInt64) (todo : List Irq) : s.pc = .also status code todo →
      Step n posTestItem clock s { s with
        kt := if posTestItem = item (.c1Kt n) then s.kt ++ [code] else s.kt
        pc := .loop (.test status todo) }
  | cmd (status : UInt16) (todo : List Irq) : s.pc = .report status .cmd todo →
      Step n posTestItem clock s { s with
        kp := if posTestItem = item (.kpKft n) then s.kp ++ [clock.time] else s.kp
        pc := .loop (.test status todo) }
  | feedback (status : UInt16) (todo : List Irq) : s.pc = .report status .feedback todo →
      Step n posTestItem clock s { s with
        kft := if posTestItem = item (.kpKft n) then s.kft ++ [clock.time] else s.kft
        pc := .loop (.test status todo) }

lemma stepIsr_inv {n : Station} {posTestItem : UInt32} {clock : Clock} {s s' : Side}
    (hs : s.stepIsr n posTestItem clock = some s') : Step n posTestItem clock s s' := by
  unfold stepIsr at hs
  cases hpc : s.pc with
  | wait =>
    obtain ⟨hw, rfl⟩ : s.woken = true ∧ { s with woken := false, pc := .loop .status } = s' := by
      simpa [hpc] using hs
    exact .wake hpc hw
  | loop pc =>
    cases pc with
    | status =>
      by_cases hz : s.isrState = 0
      · obtain rfl : s.goto .wait = s' := by simpa [hpc, hz] using hs
        exact .sleep hpc hz
      · obtain rfl : s.goto (.loop (.test s.isrState order)) = s' := by simpa [hpc, hz] using hs
        exact .round hpc hz
    | test status todo =>
      cases todo with
      | nil =>
        obtain rfl : s.goto (.loop .status) = s' := by simpa [hpc] using hs
        exact .again status hpc
      | cons irq todo =>
        by_cases hbit : status &&& irq.bit = 0
        · obtain rfl : s.goto (.loop (.test status todo)) = s' := by simpa [hpc, hbit] using hs
          exact .skip status irq todo hpc hbit
        · obtain rfl : s.goto (.loop (.set status irq s.isrClr todo)) = s' := by
            simpa [hpc, hbit] using hs
          exact .take status irq todo hpc hbit
    | set status irq isrVal todo =>
      obtain rfl : _ = s' := by simpa [hpc] using hs
      exact .set status irq isrVal todo hpc
    | clear status irq isrVal todo =>
      obtain rfl : _ = s' := by simpa [hpc] using hs
      exact .clear status irq isrVal todo hpc
  | report status irq todo =>
    cases irq with
    | pos =>
      obtain rfl : _ = s' := by simpa [hpc] using hs
      exact .trigger status todo hpc
    | cmd =>
      obtain rfl : _ = s' := by simpa [hpc] using hs
      exact .cmd status todo hpc
    | feedback =>
      obtain rfl : _ = s' := by simpa [hpc] using hs
      exact .feedback status todo hpc
  | also status code todo =>
    obtain rfl : _ = s' := by simpa [hpc] using hs
    exact .also status code todo hpc

end Side

/-! ## The position interrupt of one station -/

lemma pos_notMem_of_suffix {irq : Irq} {todo : List Irq} (h : irq :: todo <:+ order) :
    Irq.pos ∉ todo := by
  intro hp
  have hnd : (irq :: todo).Nodup := h.sublist.nodup (by decide)
  have hsub : (irq :: todo).Sublist order := h.sublist
  rcases List.suffix_cons_iff.1 h with heq | h
  · obtain ⟨rfl, rfl⟩ := List.cons.inj heq
    exact absurd hp (by decide)
  · have hmem : Irq.pos ∈ [Irq.cmd, .feedback] := h.subset (List.mem_cons_of_mem _ hp)
    exact absurd hmem (by decide)

/-- Only the first interrupt of the list can be the position interrupt. -/
lemma pending_cons_pos {status : UInt16} {irq : Irq} {todo : List Irq} (h : irq :: todo <:+ order) :
    pending status (irq :: todo) .pos = (decide (irq = .pos) && bitOf status 0) := by
  have hpos : Irq.pos ∉ todo := pos_notMem_of_suffix h
  cases irq <;> simp [pending, hpos, index]

namespace Pc

/-- What the task still looks for is what the loop has not looked for. -/
def Ordered : Pc → Prop
  | .wait => True
  | .loop .status => True
  | .loop (.test _ todo) => todo <:+ order
  | .loop (.set _ irq _ todo) => irq :: todo <:+ order
  | .loop (.clear _ irq _ todo) => irq :: todo <:+ order
  | .report _ irq todo => irq :: todo <:+ order
  | .also _ _ todo => .pos :: todo <:+ order

/-- Between the two writes of the pulse of the position interrupt. -/
def midPos : Pc → Bool
  | .loop (.clear _ .pos _ _) => true
  | _ => false

/-- The value that the task has read for the pulse of another interrupt. -/
def otherPulse : Pc → Option UInt16
  | .loop (.set _ irq isrVal _) => if irq = .pos then none else some isrVal
  | .loop (.clear _ irq isrVal _) => if irq = .pos then none else some isrVal
  | _ => none

/-- The trigger that has been posted and may be posted as a test message as well. -/
def posted : Pc → List UInt64
  | .also _ code _ => [code]
  | _ => []

/-- The task has read the set bit, and the bit is still the one it has read. -/
def inHand (posClr : Bool) : Pc → Bool
  | .loop (.test status todo) => pending status todo .pos
  | .loop (.set _ irq _ _) => decide (irq = .pos)
  | .loop (.clear _ irq _ _) => decide (irq = .pos) && posClr
  | _ => false

/-- The bit that the task has read has been cleared, and the trigger is still to be posted. -/
def acknowledged (posClr : Bool) : Pc → Bool
  | .loop (.clear _ irq _ _) => decide (irq = .pos) && !posClr
  | .report _ irq _ => decide (irq = .pos)
  | _ => false

/-- The position interrupts on their way to a trigger: one that the task has read, and one that is
set and that it has not read. -/
def underway (posSet posClr : Bool) (pc : Pc) : ℕ :=
  (pc.inHand posClr || pc.acknowledged posClr).toNat + (posSet && !pc.inHand posClr).toNat

end Pc

namespace Side

variable (s : Side)

/-- The position interrupts on their way to a trigger. -/
def underway : ℕ := s.pc.underway s.posSet s.posClr

/-- The invariant of a side, when the receive task has read `stale` as the position bit of the
clear register and is going to write it back. -/
structure Inv (stale : Option Bool) : Prop where
  ordered : s.pc.Ordered
  inHand : s.pc.inHand s.posClr = true → s.posSet = true
  /-- A 0 is written back over a 1 only between the two writes of the pulse. -/
  zero : s.pc.midPos = false → stale = some false → s.posClr = false
  /-- Where such a 0 was written, no 1 is written before the pulse ends. -/
  one : s.pc.midPos = true → s.posClr = false → stale ≠ some true
  other : ∀ v, s.pc.otherPulse = some v → bitOf v 0 = true → s.posClr = true
  woken : s.pc = .wait → s.isrState ≠ 0 → s.woken = true
  account : s.rises = s.kick.length + s.underway + s.lost

variable {s : Side} {stale : Option Bool} {v : UInt16} {irq : Irq}

@[simp] lemma posSet_write : (s.write v).posSet = (s.posSet && !(s.posClr && !bitOf v 0)) := by
  have hbit : bitOf (s.isrState &&& ~~~(s.isrClr &&& ~~~v)) 0 =
      (bitOf s.isrState 0 && !(bitOf s.isrClr 0 && !bitOf v 0)) := by
    rw [Drain.bitOf_and, Drain.bitOf_not (by decide), Drain.bitOf_and,
      Drain.bitOf_not (by decide)]
  exact hbit

lemma bitOf_set_pos (isrVal : UInt16) : bitOf (isrVal ||| Irq.pos.bit) 0 = true := by
  rw [Drain.bitOf_or, Drain.bitOf_bit]
  simp [index]

lemma bitOf_keep_pos (isrVal : UInt16) : bitOf (isrVal &&& Irq.pos.keep) 0 = false := by
  rw [Drain.bitOf_and, Drain.bitOf_keep (by decide)]
  simp [index]

/-- A pulse of another interrupt writes the position bit that it has read. -/
lemma bitOf_set_other (h : irq ≠ .pos) (isrVal : UInt16) :
    bitOf (isrVal ||| irq.bit) 0 = bitOf isrVal 0 := by
  rw [Drain.bitOf_or, Drain.bitOf_bit]
  cases irq with
  | pos => exact absurd rfl h
  | cmd => simp [index]
  | feedback => simp [index]

lemma bitOf_keep_other (h : irq ≠ .pos) (isrVal : UInt16) :
    bitOf (isrVal &&& irq.keep) 0 = bitOf isrVal 0 := by
  rw [Drain.bitOf_and, Drain.bitOf_keep (by decide)]
  cases irq with
  | pos => exact absurd rfl h
  | cmd => simp [index]
  | feedback => simp [index]

/-- A step without a write to a register, and without a trigger. -/
lemma Inv.move (h : s.Inv stale) {s' : Side} (hord : s'.pc.Ordered)
    (hstate : s'.isrState = s.isrState) (hclr : s'.isrClr = s.isrClr)
    (hmid : s.pc.midPos = false) (hmid' : s'.pc.midPos = false)
    (hother : ∀ v, s'.pc.otherPulse = some v → v = s.isrClr)
    (hwait : s'.pc = .wait → s.isrState = 0)
    (hhand : s'.pc.inHand s.posClr = true → s.posSet = true)
    (hunder : s'.pc.underway s.posSet s.posClr = s.underway) (hrises : s'.rises = s.rises)
    (hkick : s'.kick = s.kick) (hlost : s'.lost = s.lost) : s'.Inv stale := by
  have hset : s'.posSet = s.posSet := congrArg (bitOf · 0) hstate
  have hclr' : s'.posClr = s.posClr := congrArg (bitOf · 0) hclr
  refine ⟨hord, ?_, ?_, ?_, ?_, ?_, ?_⟩
  · rwa [hset, hclr']
  · rw [hclr']
    exact fun _ => h.zero hmid
  · exact fun hm => absurd (hm.symm.trans hmid') (by decide)
  · rw [hclr']
    rintro v hv hb
    obtain rfl := hother v hv
    exact hb
  · rw [hstate]
    exact fun hw hne => absurd (hwait hw) hne
  · rw [underway, hset, hclr', hunder, hrises, hkick, hlost, h.account]

/-- A write in a pulse, after which the task stands at `pc`. -/
lemma Inv.pulse (h : s.Inv stale) {pc : Pc} (hord : pc.Ordered) (hwait : pc ≠ .wait)
    (hhand : pc.inHand (bitOf v 0) = true → (s.posSet && !(s.posClr && !bitOf v 0)) = true)
    (hzero : pc.midPos = false → stale = some false → bitOf v 0 = false)
    (hone : pc.midPos = true → bitOf v 0 = true)
    (hother : ∀ w, pc.otherPulse = some w → bitOf w 0 = true → bitOf v 0 = true)
    (hunder : s.underway = pc.underway (s.posSet && !(s.posClr && !bitOf v 0)) (bitOf v 0) +
      if irq ≠ .pos ∧ s.erases v then 1 else 0) :
    ((s.pulse irq v).goto pc).Inv stale := by
  have hset : ((s.pulse irq v).goto pc).posSet = (s.posSet && !(s.posClr && !bitOf v 0)) :=
    posSet_write
  have hclr : ((s.pulse irq v).goto pc).posClr = bitOf v 0 := rfl
  refine ⟨hord, ?_, ?_, ?_, ?_, fun hw => absurd hw hwait, ?_⟩
  · rw [hset, hclr]
    exact hhand
  · rwa [hclr]
  · intro hm hc
    rw [hclr, hone hm] at hc
    contradiction
  · rwa [hclr]
  · rw [underway, hset, hclr]
    have hlost : ((s.pulse irq v).goto pc).lost =
        s.lost + if irq ≠ .pos ∧ s.erases v then 1 else 0 := by
      change (if irq ≠ .pos ∧ s.erases v then s.lost + 1 else s.lost) = _
      split_ifs <;> rfl
    have hrises : ((s.pulse irq v).goto pc).rises = s.rises := rfl
    have hkick : ((s.pulse irq v).goto pc).kick = s.kick := rfl
    have hpc : ((s.pulse irq v).goto pc).pc = pc := rfl
    rw [hrises, hkick, hpc, hlost, h.account, hunder]
    omega

/-- The first write of the pulse of the position interrupt. -/
lemma Inv.setPos (h : s.Inv stale) {status isrVal : UInt16} {todo : List Irq}
    (hpc : s.pc = .loop (.set status .pos isrVal todo)) :
    ((s.pulse .pos (isrVal ||| Irq.pos.bit)).goto (.loop (.clear status .pos isrVal todo))).Inv
      stale := by
  have hset : s.posSet = true := h.inHand (by rw [hpc]; rfl)
  have hord := h.ordered
  rw [hpc] at hord
  have hbit : bitOf (isrVal ||| Irq.pos.bit) 0 = true := bitOf_set_pos isrVal
  refine h.pulse hord (by simp) ?_ (fun hm => nomatch hm) (fun _ => hbit)
    (fun _ hw => nomatch hw) ?_
  · rw [hbit, hset]
    simp
  · rw [underway, hpc, hbit, hset]
    simp [Pc.underway, Pc.inHand]

/-- The second write, which clears what the task has read and leaves an interrupt that has come
after that was cleared. -/
lemma Inv.clearPos (h : s.Inv stale) {status isrVal : UInt16} {todo : List Irq}
    (hpc : s.pc = .loop (.clear status .pos isrVal todo)) :
    ((s.pulse .pos (isrVal &&& Irq.pos.keep)).goto (.report status .pos todo)).Inv stale := by
  have hord := h.ordered
  rw [hpc] at hord
  have hbit : bitOf (isrVal &&& Irq.pos.keep) 0 = false := bitOf_keep_pos isrVal
  refine h.pulse hord (by simp) (fun hi => nomatch hi) (fun _ _ => hbit) (fun hm => nomatch hm)
    (fun _ hw => nomatch hw) ?_
  have hhand := h.inHand
  rw [hpc] at hhand
  rw [underway, hpc, hbit]
  cases hclr : s.posClr with
  | true =>
    have hset : s.posSet = true := hhand (by rw [hclr]; rfl)
    simp [Pc.underway, Pc.inHand, Pc.acknowledged, hset]
  | false => simp [Pc.underway, Pc.inHand, Pc.acknowledged]

/-- A write in the pulse of another interrupt: the position bit is written as it was read, and may
take a position interrupt with it. -/
lemma Inv.pulseOther (h : s.Inv stale) (hirq : irq ≠ .pos) (isrVal : UInt16) {pc : Pc}
    (hpulse : s.pc.otherPulse = some isrVal) (hv : bitOf v 0 = bitOf isrVal 0)
    (hhand₀ : s.pc.inHand s.posClr = false) (hack₀ : s.pc.acknowledged s.posClr = false)
    (hmid₀ : s.pc.midPos = false) (hord : pc.Ordered) (hwait : pc ≠ .wait)
    (hhand : ∀ b, pc.inHand b = false) (hack : ∀ b, pc.acknowledged b = false)
    (hmid : pc.midPos = false) (hother : ∀ w, pc.otherPulse = some w → w = isrVal) :
    ((s.pulse irq v).goto pc).Inv stale := by
  refine h.pulse hord hwait (fun hi => absurd hi (by simp [hhand])) ?_
    (fun hm => absurd hm (by simp [hmid])) ?_ ?_
  · intro _ hst
    have hclr := h.zero hmid₀ hst
    rw [hv]
    by_contra hb
    rw [Bool.not_eq_false] at hb
    rw [h.other isrVal hpulse hb] at hclr
    contradiction
  · rintro w hw hb
    obtain rfl := hother w hw
    rw [hv, hb]
  · rw [underway, Pc.underway, Pc.underway, hhand₀, hack₀, hhand, hack]
    cases hset : s.posSet <;> cases hclr : s.posClr <;> cases hb : bitOf v 0 <;>
      simp [erases, hset, hclr, hb, hirq]

/-- The trigger is posted, with what the counter shows. -/
lemma Inv.trigger (h : s.Inv stale) {status : UInt16} {todo : List Irq}
    (hpc : s.pc = .report status .pos todo) (code : UInt64) :
    ({ s with kick := s.kick ++ [code], pc := .also status code todo } : Side).Inv stale := by
  have hord := h.ordered
  have hacc := h.account
  have hzero := h.zero
  rw [hpc] at hord hzero
  refine ⟨hord, (fun hi => nomatch hi), fun _ => hzero rfl, (fun hm => nomatch hm),
    (fun _ hw => nomatch hw), (fun hw => nomatch hw), ?_⟩
  rw [underway, hpc] at hacc
  change s.rises = (s.kick ++ [code]).length + Pc.underway s.posSet s.posClr _ + s.lost
  rw [hacc, List.length_append]
  simp only [Pc.underway, Pc.inHand, Pc.acknowledged, List.length_singleton, decide_true,
    Bool.or_true, Bool.or_self, Bool.toNat_true, Bool.toNat_false]
  omega

/-- A step that goes on behind an interrupt, with no position interrupt left to look for. -/
lemma Inv.next (h : s.Inv stale) {s' : Side} {status : UInt16} {todo : List Irq}
    (hord : todo <:+ order) (hpos : Irq.pos ∉ todo) (hpc' : s'.pc = .loop (.test status todo))
    (hstate : s'.isrState = s.isrState) (hclr : s'.isrClr = s.isrClr)
    (hmid : s.pc.midPos = false) (hhand : s.pc.inHand s.posClr = false)
    (hack : s.pc.acknowledged s.posClr = false) (hrises : s'.rises = s.rises)
    (hkick : s'.kick = s.kick) (hlost : s'.lost = s.lost) : s'.Inv stale := by
  have hpend : pending status todo .pos = false := by simp [pending, hpos]
  refine h.move ?_ hstate hclr hmid ?_ ?_ ?_ ?_ ?_ hrises hkick hlost
  · rw [hpc']
    exact hord
  · rw [hpc']
    rfl
  · rw [hpc']
    rintro _ ⟨⟩
  · rw [hpc']
    rintro ⟨⟩
  · rw [hpc', Pc.inHand, hpend]
    rintro ⟨⟩
  · rw [hpc', underway, Pc.underway, Pc.underway, hhand, hack, Pc.inHand, hpend]
    rfl

lemma Inv.stepIsr {n : Station} {posTestItem : UInt32} {clock : Clock} {s' : Side}
    (h : s.Inv stale) (hs : Step n posTestItem clock s s') : s'.Inv stale := by
  have hord := h.ordered
  cases hs with
  | wake hpc _ =>
    refine h.move trivial rfl rfl (by rw [hpc]; rfl) rfl (by rintro _ ⟨⟩)
      (by rintro ⟨⟩) (by rintro ⟨⟩) ?_ rfl rfl rfl
    rw [underway, hpc]
    rfl
  | sleep hpc hz =>
    refine h.move trivial rfl rfl (by rw [hpc]; rfl) rfl (by rintro _ ⟨⟩)
      (fun _ => hz) (by rintro ⟨⟩) ?_ rfl rfl rfl
    rw [underway, hpc]
    rfl
  | round hpc _ =>
    have hpend : pending s.isrState order .pos = s.posSet := by simp [pending, posSet, index]
    refine h.move List.suffix_rfl rfl rfl (by rw [hpc]; rfl) rfl (by rintro _ ⟨⟩)
      (by rintro ⟨⟩) (fun hi => hpend.symm.trans hi) ?_ rfl rfl rfl
    rw [underway, hpc]
    change Pc.underway _ _ (.loop (.test s.isrState order)) = _
    rw [Pc.underway, Pc.inHand, hpend]
    cases s.posSet <;> rfl
  | again status hpc =>
    refine h.move trivial rfl rfl (by rw [hpc]; rfl) rfl (by rintro _ ⟨⟩)
      (by rintro ⟨⟩) (by rintro ⟨⟩) ?_ rfl rfl rfl
    rw [underway, hpc]
    rfl
  | take status irq todo hpc hbit =>
    rw [hpc] at hord
    have hsame : pending status (irq :: todo) .pos = decide (irq = .pos) := by
      have hset : bitOf status (index irq) = true := Drain.and_bit_ne_zero.1 hbit
      rw [pending_cons_pos hord]
      cases irq with
      | pos => rw [show bitOf status 0 = true from hset]; rfl
      | cmd | feedback => rfl
    have hhand := h.inHand
    rw [hpc, Pc.inHand, hsame] at hhand
    refine h.move hord rfl rfl (by rw [hpc]; rfl) rfl ?_ (by rintro ⟨⟩) hhand ?_ rfl rfl rfl
    · intro v hv
      change (if irq = .pos then none else some s.isrClr) = some v at hv
      split_ifs at hv
      exact (Option.some.inj hv).symm
    · rw [underway, hpc]
      change Pc.underway _ _ (.loop (.set status irq s.isrClr todo)) = _
      rw [Pc.underway, Pc.underway, Pc.inHand, Pc.inHand, hsame]
      rfl
  | skip status irq todo hpc hbit =>
    rw [hpc] at hord
    have hzero : pending status (irq :: todo) .pos = false := by
      have hclear : bitOf status (index irq) = false := by
        rw [← Bool.not_eq_true, ← Drain.and_bit_ne_zero, not_not]
        exact hbit
      rw [pending_cons_pos hord]
      cases irq with
      | pos => rw [show bitOf status 0 = false from hclear]; rfl
      | cmd | feedback => rfl
    exact h.next ((List.suffix_cons irq todo).trans hord) (pos_notMem_of_suffix hord) rfl rfl rfl
      (by rw [hpc]; rfl) (by rw [hpc]; exact hzero) (by rw [hpc]; rfl) rfl rfl rfl
  | set status irq isrVal todo hpc =>
    rw [hpc] at hord
    by_cases hirq : irq = .pos
    · subst hirq
      exact h.setPos hpc
    · refine h.pulseOther hirq isrVal ?_ (bitOf_set_other hirq isrVal) ?_ ?_ ?_ hord
        (by simp) ?_ ?_ ?_ ?_
      all_goals simp [hpc, Pc.otherPulse, Pc.inHand, Pc.acknowledged, Pc.midPos, hirq]
  | clear status irq isrVal todo hpc =>
    rw [hpc] at hord
    by_cases hirq : irq = .pos
    · subst hirq
      exact h.clearPos hpc
    · refine h.pulseOther hirq isrVal ?_ (bitOf_keep_other hirq isrVal) ?_ ?_ ?_ hord
        (by simp) ?_ ?_ ?_ ?_
      all_goals simp [hpc, Pc.otherPulse, Pc.inHand, Pc.acknowledged, Pc.midPos, hirq]
  | trigger status todo hpc => exact h.trigger hpc _
  | also status code todo hpc =>
    rw [hpc] at hord
    exact h.next ((List.suffix_cons _ todo).trans hord) (pos_notMem_of_suffix hord) rfl rfl rfl
      (by rw [hpc]; rfl) (by rw [hpc]; rfl) (by rw [hpc]; rfl) rfl rfl rfl
  | cmd status todo hpc | feedback status todo hpc =>
    rw [hpc] at hord
    exact h.next ((List.suffix_cons _ todo).trans hord) (pos_notMem_of_suffix hord) rfl rfl rfl
      (by rw [hpc]; rfl) (by rw [hpc]; rfl) (by rw [hpc]; rfl) rfl rfl rfl

/-- An interrupt arrives: it is on its way, unless the one before it still has the bit set. -/
lemma Inv.arrive (h : s.Inv stale) (bits : UInt16) : (s.arrive bits).Inv stale := by
  have hset : (s.arrive bits).posSet = (s.posSet || bitOf bits 0) := Drain.bitOf_or
  have hclr : (s.arrive bits).posClr = s.posClr := rfl
  refine ⟨h.ordered, ?_, h.zero, h.one, h.other, fun _ _ => rfl, ?_⟩
  · intro hi
    rw [hset, h.inHand hi]
    rfl
  · have hacc := h.account
    rw [underway] at hacc ⊢
    rw [hset, hclr]
    change (if bitOf bits 0 ∧ s.posSet = false then s.rises + 1 else s.rises) =
      s.kick.length + Pc.underway _ _ s.pc + s.lost
    cases hs : s.posSet with
    | true =>
      rw [hs] at hacc
      simpa using hacc
    | false =>
      have hhand : s.pc.inHand s.posClr = false := by
        by_contra hi
        rw [Bool.not_eq_false] at hi
        rw [h.inHand hi] at hs
        contradiction
      rw [hs, Pc.underway, hhand] at hacc
      rw [Pc.underway, hhand]
      cases hb : bitOf bits 0 with
      | true =>
        simp only [and_self, if_true, Bool.false_or, Bool.not_false, Bool.and_true,
          Bool.toNat_true, Bool.toNat_false] at hacc ⊢
        omega
      | false => simpa using hacc

/-- The receive task reads the clear register. -/
lemma Inv.read (h : s.Inv none) : s.Inv (some s.posClr) where
  ordered := h.ordered
  inHand := h.inHand
  zero := fun _ hst => Option.some.inj hst
  one := fun _ hc hst => by
    rw [hc] at hst
    contradiction
  other := h.other
  woken := h.woken
  account := h.account

/-- What the receive task is going to write does not matter to another station. -/
lemma Inv.forget (h : s.Inv stale) : s.Inv none where
  ordered := h.ordered
  inHand := h.inHand
  zero := fun _ hst => nomatch hst
  one := fun _ _ hst => nomatch hst
  other := h.other
  woken := h.woken
  account := h.account

/-- Between the two writes of its pulse the task looks for no other position interrupt. -/
lemma midPos_cases (hm : s.pc.midPos = true) :
    ∃ status isrVal todo, s.pc = .loop (.clear status .pos isrVal todo) := by
  cases hpc : s.pc with
  | loop pc =>
    cases pc with
    | clear status irq isrVal todo =>
      rw [hpc] at hm
      cases irq with
      | pos => exact ⟨status, isrVal, todo, rfl⟩
      | cmd | feedback => exact nomatch hm
    | status | test | set =>
      rw [hpc] at hm
      exact nomatch hm
  | wait | report | also =>
    rw [hpc] at hm
    exact nomatch hm

lemma inHand_eq_of_not_midPos (hm : s.pc.midPos = false) (b b' : Bool) :
    s.pc.inHand b = s.pc.inHand b' ∧ s.pc.acknowledged b = s.pc.acknowledged b' := by
  cases hpc : s.pc with
  | loop pc =>
    cases pc with
    | clear status irq isrVal todo =>
      rw [hpc] at hm
      cases irq with
      | pos => exact nomatch hm
      | cmd | feedback => exact ⟨rfl, rfl⟩
    | status | test | set => exact ⟨rfl, rfl⟩
  | wait | report | also => exact ⟨rfl, rfl⟩

/-- The receive task writes back the position bit that it has read.  Where this clears the status
bit, the interrupt task is about to clear it. -/
lemma Inv.write (h : s.Inv (some (bitOf v 0))) : (s.write v).Inv none := by
  have hset : (s.write v).posSet = (s.posSet && !(s.posClr && !bitOf v 0)) := posSet_write
  have hclr : (s.write v).posClr = bitOf v 0 := rfl
  have hacc := h.account
  rw [underway] at hacc
  -- the set bits are among those that were set
  have hzero : s.isrState = 0 → (s.write v).isrState = 0 := by
    intro hz
    change s.isrState &&& _ = 0
    rw [hz, UInt16.zero_and]
  cases hm : s.pc.midPos with
  | true =>
    obtain ⟨status, isrVal, todo, hpc⟩ := midPos_cases hm
    have hhand := h.inHand
    rw [hpc] at hhand hacc
    have hone : s.posClr = false → bitOf v 0 = false := by
      intro hc
      have hne := h.one hm hc
      cases hb : bitOf v 0 with
      | true => exact absurd (by rw [hb]) hne
      | false => rfl
    refine ⟨h.ordered, ?_, ?_, ?_, ?_, ?_, ?_⟩
    · intro hi
      change s.pc.inHand (bitOf v 0) = true at hi
      rw [hpc] at hi
      have hb : bitOf v 0 = true := by simpa [Pc.inHand] using hi
      have hc : s.posClr = true := by
        by_contra hc
        rw [Bool.not_eq_true] at hc
        rw [hone hc] at hb
        contradiction
      rw [hset, hb, hhand (by rw [hc]; rfl)]
      simp
    · exact fun _ hst => nomatch hst
    · exact fun _ _ hst => nomatch hst
    · intro w hw
      change s.pc.otherPulse = some w at hw
      rw [hpc] at hw
      exact nomatch hw
    · intro hw
      change s.pc = .wait at hw
      rw [hpc] at hw
      exact nomatch hw
    · change s.rises = s.kick.length + Pc.underway _ _ s.pc + s.lost
      rw [hset, hclr, hacc, hpc]
      cases hc : s.posClr with
      | true =>
        rw [hhand (by rw [hc]; rfl)]
        cases bitOf v 0 <;> simp [Pc.underway, Pc.inHand, Pc.acknowledged]
      | false =>
        rw [hone hc]
        simp [Pc.underway, Pc.inHand, Pc.acknowledged]
  | false =>
    have hkeep : (s.posSet && !(s.posClr && !bitOf v 0)) = s.posSet := by
      cases hb : bitOf v 0 with
      | true => simp
      | false =>
        rw [h.zero hm (by rw [hb])]
        simp
    have heq := inHand_eq_of_not_midPos hm (bitOf v 0) s.posClr
    refine ⟨h.ordered, ?_, ?_, ?_, ?_, ?_, ?_⟩
    · intro hi
      rw [hset, hkeep]
      exact h.inHand (heq.1.symm.trans hi)
    · exact fun _ hst => nomatch hst
    · exact fun _ _ hst => nomatch hst
    · intro w hw hb
      have hc := h.other w hw hb
      rw [hclr]
      by_contra hne
      rw [Bool.not_eq_true] at hne
      rw [h.zero hm (by rw [hne])] at hc
      contradiction
    · exact fun hw hne => h.woken hw fun hz => hne (hzero hz)
    · change s.rises = s.kick.length + Pc.underway _ _ s.pc + s.lost
      rw [hset, hclr, hkeep, hacc, Pc.underway, Pc.underway, heq.1, heq.2]

/-- A task that cannot go on waits with no interrupt set and none on its way. -/
lemma Inv.asleep {n : Station} {posTestItem : UInt32} (h : s.Inv stale)
    (hs : ∀ clock, s.stepIsr n posTestItem clock = none) : s.isrState = 0 ∧ s.underway = 0 := by
  have hpc : s.pc = .wait ∧ s.woken = false := by
    have hnone := hs ⟨0, ⟨0, 0⟩⟩
    unfold Side.stepIsr at hnone
    grind
  have hzero : s.isrState = 0 := by
    by_contra hne
    rw [h.woken hpc.1 hne] at hpc
    exact nomatch hpc.2
  have hset : s.posSet = false := by
    rw [posSet, hzero]
    rfl
  exact ⟨hzero, by rw [underway, hset, hpc.1]; rfl⟩

/-- The pulses of the other interrupts leave the position bit as it is, and have cleared no
position interrupt. -/
structure NoLoss (s : Side) : Prop where
  same : ∀ v, s.pc.otherPulse = some v → bitOf v 0 = s.posClr
  lost : s.lost = 0

lemma NoLoss.pulse (h : s.NoLoss) {pc : Pc} (hkeep : irq ≠ .pos → bitOf v 0 = s.posClr)
    (hother : ∀ w, pc.otherPulse = some w → bitOf w 0 = bitOf v 0) :
    ((s.pulse irq v).goto pc).NoLoss where
  same := hother
  lost := by
    have hno : ¬ (irq ≠ .pos ∧ s.erases v) := by
      rintro ⟨hirq, he⟩
      rw [erases, hkeep hirq] at he
      cases hc : s.posClr <;> simp [hc] at he
    change (if irq ≠ .pos ∧ s.erases v then s.lost + 1 else s.lost) = 0
    rw [if_neg hno, h.lost]

lemma NoLoss.stepIsr {n : Station} {posTestItem : UInt32} {clock : Clock} {s' : Side}
    (h : s.NoLoss) (hs : Step n posTestItem clock s s') : s'.NoLoss := by
  cases hs with
  | wake | sleep | round | again | skip | trigger | also | cmd | feedback =>
    exact ⟨(fun _ hw => nomatch hw), h.lost⟩
  | take status irq todo hpc hbit =>
    refine ⟨fun v hv => ?_, h.lost⟩
    change (if irq = .pos then none else some s.isrClr) = some v at hv
    split_ifs at hv
    rw [← Option.some.inj hv]
    rfl
  | set status irq isrVal todo hpc =>
    have hpulse : irq ≠ .pos → s.pc.otherPulse = some isrVal := by
      intro hirq
      rw [hpc, Pc.otherPulse, if_neg hirq]
    refine h.pulse (fun hirq => (bitOf_set_other hirq isrVal).trans (h.same _ (hpulse hirq))) ?_
    intro w hw
    rw [Pc.otherPulse] at hw
    split_ifs at hw with hirq
    rw [← Option.some.inj hw, bitOf_set_other hirq]
  | clear status irq isrVal todo hpc =>
    have hpulse : irq ≠ .pos → s.pc.otherPulse = some isrVal := by
      intro hirq
      rw [hpc, Pc.otherPulse, if_neg hirq]
    exact h.pulse (fun hirq => (bitOf_keep_other hirq isrVal).trans (h.same _ (hpulse hirq)))
      fun _ hw => nomatch hw

/-- The test messages of the wheel code are among the triggers. -/
def Tests (s : Side) : Prop := ∃ ks, s.kick = ks ++ s.pc.posted ∧ s.kt.Sublist ks

lemma Tests.stepIsr {n : Station} {posTestItem : UInt32} {clock : Clock} {s' : Side}
    (h : s.Tests) (hs : Step n posTestItem clock s s') : s'.Tests := by
  obtain ⟨ks, hkick, hsub⟩ := h
  cases hs with
  | wake hpc | sleep hpc | round hpc | again _ hpc | skip _ _ _ hpc | take _ _ _ hpc
  | set _ _ _ _ hpc | clear _ _ _ _ hpc | cmd _ _ hpc | feedback _ _ hpc =>
    rw [hpc] at hkick
    exact ⟨ks, hkick, hsub⟩
  | trigger status todo hpc =>
    rw [hpc] at hkick
    refine ⟨ks, ?_, hsub⟩
    change s.kick ++ [clock.wheelCode] = _
    rw [hkick]
    exact congrArg (· ++ _) (List.append_nil ks)
  | also status code todo hpc =>
    rw [hpc] at hkick
    refine ⟨ks ++ [code], hkick.trans (List.append_nil _).symm, ?_⟩
    change (if posTestItem = item (.c1Kt n) then s.kt ++ [code] else s.kt).Sublist _
    split_ifs
    · exact hsub.append (List.Sublist.refl _)
    · exact hsub.trans (List.sublist_append_left _ _)

end Side

/-! ## Both stations -/

/-- What the receive task has read of the clear register of a station and is going to write. -/
def stale (n : Station) : Mask.RecvPc → Option Bool
  | .write m _ isrVal _ => if m = n then some (bitOf isrVal 0) else none
  | .idle => none
  | .read _ => none

/-- A command leaves the position bit as it was read. -/
lemma bitOf_apply (u : Mask.Update) (v : UInt16) : bitOf (u.apply v) 0 = bitOf v 0 := by
  cases u with
  | set =>
    change bitOf (v ||| 0x06) 0 = _
    rw [Drain.bitOf_or]
    simp [bitOf]
  | clear =>
    change bitOf (v &&& 0xFFF9) 0 = _
    rw [Drain.bitOf_and]
    simp [bitOf]

namespace State

variable {s s' : State}

/-- Everything a step can do. -/
inductive Step (s : State) : Label → State → Prop
  | arrive (n : Station) (bits : UInt16) :
      Step s (.arrive n bits) (s.setSide n ((s.side n).arrive bits))
  | isr (n : Station) (clock : Clock) (d : Side) :
      Side.Step n s.posTestItem clock (s.side n) d → Step s (.isr n clock) (s.setSide n d)
  | crash (n : Station) : Step s (.crash n) { s with exited := true }
  | command (item : UInt32) : s.recv = .idle →
      Step s (.command item) { s with posTestItem := item, recv := .read (recvPosTestCmd item) }
  | done : s.recv = .read [] → Step s .recv { s with recv := .idle }
  | read (n : Station) (u : Mask.Update) (todo : List (Station × Mask.Update)) :
      s.recv = .read ((n, u) :: todo) →
      Step s .recv { s with recv := .write n u (s.side n).isrClr todo }
  | write (n : Station) (u : Mask.Update) (isrVal : UInt16) (todo : List (Station × Mask.Update)) :
      s.recv = .write n u isrVal todo →
      Step s .recv { s.setSide n ((s.side n).write (u.apply isrVal)) with recv := .read todo }

lemma step_inv {l : Label} (hs : s.step l = some s') : Step s l s' := by
  unfold step at hs
  split at hs
  · exact nomatch hs
  · cases l with
    | arrive n bits =>
      obtain rfl := Option.some.inj hs
      exact .arrive n bits
    | isr n clock =>
      obtain ⟨d, hd, rfl⟩ := Option.map_eq_some_iff.1 hs
      exact .isr n clock d (Side.stepIsr_inv hd)
    | crash n =>
      simp only [Option.ite_none_right_eq_some, Option.some.injEq] at hs
      obtain ⟨-, rfl⟩ := hs
      exact .crash n
    | command item =>
      simp only [Option.ite_none_right_eq_some, Option.some.injEq] at hs
      obtain ⟨hidle, rfl⟩ := hs
      exact .command item hidle
    | recv =>
      simp only [stepRecv] at hs
      split at hs
      case h_1 => exact nomatch hs
      case h_2 hrecv =>
        obtain rfl := Option.some.inj hs
        exact .done hrecv
      case h_3 n u todo hrecv =>
        obtain rfl := Option.some.inj hs
        exact .read n u todo hrecv
      case h_4 n u isrVal todo hrecv =>
        obtain rfl := Option.some.inj hs
        exact .write n u isrVal todo hrecv

/-- The invariant of both sides. -/
def Inv (s : State) : Prop := ∀ n, (s.side n).Inv (stale n s.recv)

@[simp] lemma side_setSide_self (n : Station) (d : Side) : (s.setSide n d).side n = d :=
  Function.update_self ..

lemma side_setSide_of_ne {n m : Station} (h : m ≠ n) (d : Side) :
    (s.setSide n d).side m = s.side m := Function.update_of_ne h ..

lemma Inv.setSide (h : s.Inv) {n : Station} {d : Side} (hd : d.Inv (stale n s.recv)) :
    (s.setSide n d).Inv := by
  intro m
  by_cases hm : m = n
  · subst hm
    rw [side_setSide_self]
    exact hd
  · rw [side_setSide_of_ne hm]
    exact h m

lemma inv_init (isrClr : Station → UInt16) : (init isrClr).Inv := fun _ =>
  ⟨trivial, (fun hi => nomatch hi), (fun _ hst => nomatch hst), (fun hm => nomatch hm),
    (fun _ hw => nomatch hw), fun _ hne => absurd rfl hne,
    by simp [init, Side.underway, Side.posSet, Pc.underway, Pc.inHand, Pc.acknowledged, bitOf]⟩

lemma Inv.step {l : Label} (h : s.Inv) (hs : Step s l s') : s'.Inv := by
  cases hs with
  | arrive n bits => exact h.setSide ((h n).arrive bits)
  | isr n clock d hd => exact h.setSide ((h n).stepIsr hd)
  | crash => exact h
  | command | done => exact fun n => (h n).forget
  | read n u todo =>
    intro m
    change (s.side m).Inv (if n = m then some (bitOf (s.side n).isrClr 0) else none)
    by_cases hm : n = m
    · subst hm
      rw [if_pos rfl]
      exact (h n).forget.read
    · rw [if_neg hm]
      exact (h m).forget
  | write n u isrVal todo hrecv =>
    intro m
    change (Function.update s.side n _ m).Inv none
    by_cases hm : m = n
    · subst hm
      have hside := h m
      rw [hrecv, stale, if_pos rfl, ← bitOf_apply u isrVal] at hside
      rw [Function.update_self]
      exact hside.write
    · rw [Function.update_of_ne hm]
      exact (h m).forget

/-- The receive task does not write to a clear register inside a pulse of an interrupt other than
the position interrupt. -/
def Apart (s : State) : Label → Prop
  | .recv =>
    match s.recv with
    | .write n _ _ _ => (s.side n).pc.otherPulse = none
    | _ => True
  | _ => True

/-- A property of both sides that each step keeps, whatever the receive task writes. -/
lemma forall_side_step {I : Side → Prop} {l : Label} (h : ∀ n, I (s.side n))
    (hs : Step s l s') (harrive : ∀ d n bits, l = .arrive n bits → I d → I (d.arrive bits))
    (hisr : ∀ d d' n item clock, I d → Side.Step n item clock d d' → I d')
    (hwrite : ∀ n u isrVal todo, l = .recv → s.recv = .write n u isrVal todo →
      I ((s.side n).write (u.apply isrVal))) : ∀ n, I (s'.side n) := by
  have hset : ∀ n d, I d → ∀ m, I ((s.setSide n d).side m) := by
    intro n d hd m
    by_cases hm : m = n
    · subst hm
      rw [side_setSide_self]
      exact hd
    · rw [side_setSide_of_ne hm]
      exact h m
  cases hs with
  | arrive n bits => exact hset n _ (harrive _ n bits rfl (h n))
  | isr n clock d hd => exact hset n d (hisr _ _ _ _ _ (h n) hd)
  | crash | command | done | read => exact h
  | write n u isrVal todo hrecv => exact hset n _ (hwrite n u isrVal todo rfl hrecv)

/-- What a run shows about the position interrupts and their triggers. -/
structure TriggersAccounted (s : State) : Prop where
  /-- A position interrupt that has set its bit has been answered by one trigger, is on its way to
  one, or was cleared by a write for another interrupt. -/
  account : ∀ n, (s.side n).rises =
    (s.side n).kick.length + (s.side n).underway + (s.side n).lost
  /-- A task that waits and is not going to be woken up has left no interrupt set. -/
  asleep : ∀ n, (∀ clock, (s.side n).stepIsr n s.posTestItem clock = none) →
    (s.side n).isrState = 0 ∧ (s.side n).underway = 0
  /-- The test messages of the wheel code are among the triggers, in their order. -/
  tests : ∀ n, (s.side n).kt.Sublist (s.side n).kick

lemma inv_reach {isrClr : Station → UInt16} {ok : State → Label → Prop}
    (h : Reach step ok (init isrClr) s) : s.Inv :=
  h.invariant (inv_init isrClr) fun _ _ _ hI _ hs => hI.step (step_inv hs)

lemma tests_reach {isrClr : Station → UInt16} {ok : State → Label → Prop}
    (h : Reach step ok (init isrClr) s) : ∀ n, (s.side n).Tests := by
  refine h.invariant (I := fun s => ∀ n, (s.side n).Tests) (fun _ => ⟨[], rfl, .refl _⟩) ?_
  intro s l s' hI _ hs
  exact forall_side_step hI (step_inv hs) (fun _ _ _ _ hd => hd)
    (fun _ _ _ _ _ hd hstep => hd.stepIsr hstep)
    fun n _ _ _ _ _ => hI n

lemma noLoss_reach {isrClr : Station → UInt16} (h : Reach step Apart (init isrClr) s) :
    ∀ n, (s.side n).NoLoss := by
  refine h.invariant (I := fun s => ∀ n, (s.side n).NoLoss)
    (fun _ => ⟨(fun _ hv => nomatch hv), rfl⟩) ?_
  intro s l s' hI hok hs
  refine forall_side_step hI (step_inv hs) (fun _ _ _ _ hd => ⟨hd.same, hd.lost⟩)
    (fun _ _ _ _ _ hd hstep => hd.stepIsr hstep) ?_
  rintro n u isrVal todo rfl hrecv
  rw [Apart, hrecv] at hok
  exact ⟨(fun v hv => nomatch hok.symm.trans hv), (hI n).lost⟩

/-- **Position interrupts are answered once.**  In every run of the two interrupt tasks, whatever
`recv_pos_test_cmd` writes to their registers in between, each position interrupt that sets its bit
gets one trigger, unless a pulse of another interrupt clears it; and no pulse does when the receive
task keeps out of these pulses. -/
theorem triggers_accounted (isrClr : Station → UInt16) (s : State) (ls : List Label)
    (hs : exec step (init isrClr) ls = some s) : TriggersAccounted s ∧
      (Allowed step Apart (init isrClr) ls → ∀ n, (s.side n).lost = 0) := by
  have hreach : Reach step AnyStep (init isrClr) s := reach_any ls hs
  have hinv := inv_reach hreach
  refine ⟨⟨fun n => (hinv n).account, fun n => (hinv n).asleep, fun n => ?_⟩, fun hok n => ?_⟩
  · obtain ⟨ks, hkick, hsub⟩ := tests_reach hreach n
    rw [hkick]
    exact hsub.trans (List.sublist_append_left _ _)
  · exact (noLoss_reach (reach_of_exec ls hok hs) n).lost

/-- The task of station 1 goes on for `k` steps, with the clocks at 0. -/
def isrSteps (k : ℕ) : List Label := List.replicate k (.isr .one ⟨0, ⟨0, 0⟩⟩)

/-- A position interrupt, a kick and a test command that keeps out of the kick's pulse. -/
def kickAndCommand : List Label :=
  [.arrive .one 0x1] ++ isrSteps 10 ++ [.command 3, .recv, .recv, .recv, .arrive .one 0x2] ++
    isrSteps 8 ++ [.recv, .recv]

theorem triggers_accounted_kickAndCommand : ∃ s,
    exec step (init fun _ => 0) kickAndCommand = some s ∧ TriggersAccounted s ∧
      (Allowed step Apart (init fun _ => 0) kickAndCommand → ∀ n, (s.side n).lost = 0) := by
  obtain ⟨s, hs⟩ := Option.isSome_iff_exists.1
    (show (exec step (init fun _ => 0) kickAndCommand).isSome = true by decide +kernel)
  exact ⟨s, hs, triggers_accounted _ s _ hs⟩

/-- A command that reads the register inside a pulse of the position interrupt and writes it back
inside a pulse of the kick: the next position interrupt is lost. -/
example : (exec step (init fun _ => 0)
    ([.command 3, .arrive .one 0x1] ++ isrSteps 4 ++ [.recv] ++ isrSteps 6 ++ [.arrive .one 0x2] ++
      isrSteps 3 ++ [.recv, .arrive .one 0x1] ++ isrSteps 1)).map
    (fun s => ((s.side .one).rises, (s.side .one).kick.length, (s.side .one).lost)) =
      some (2, 1, 1) := by decide +kernel

end State

end RejectProcess.Isr
