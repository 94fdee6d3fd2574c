import RejectProcess.Fpga.Isr

/-!
# What an interrupt task still has to do

A bound on the steps of the interrupt tasks that does not depend on what the receive task writes
to their registers: a round of the loop is for an interrupt that is set and that the task has not
read, and no write sets an interrupt.
-/

namespace RejectProcess.Isr

open Lib Position
open Mask (Irq IsrPc recvPosTestCmd)
open Drain (bitOf index pending)

namespace Pc

/-- The task has read the bit of an interrupt, and no write has cleared it since. -/
def held (isrClr : UInt16) (irq : Irq) : Pc → Bool
  | .loop (.test status todo) => pending status todo irq
  | .loop (.set status irq' _ todo) => decide (irq = irq') || pending status todo irq
  | .loop (.clear status irq' _ todo) =>
    (decide (irq = irq') && bitOf isrClr (index irq)) || pending status todo irq
  | .report status _ todo => pending status todo irq
  | .also status _ todo => pending status todo irq
  | .loop .status => false
  | .wait => false

/-- The steps to the next read of the status register, where a trigger counts for more because a
search task has to handle it. -/
def steps : Pc → ℕ
  | .wait => 0
  | .loop .status => 1
  | .loop (.test _ todo) => 20 * todo.length + 2
  | .loop (.set _ _ _ todo) => 20 * todo.length + 14
  | .loop (.clear _ _ _ todo) => 20 * todo.length + 13
  | .report _ _ todo => 20 * todo.length + 12
  | .also _ _ todo => 20 * todo.length + 3

end Pc

namespace Side

variable (s : Side)

/-- The interrupt is set and the task has not read it. -/
def fresh (irq : Irq) : Bool := bitOf s.isrState (index irq) && !s.pc.held s.isrClr irq

/-- No interrupt is set but the three that the loop acknowledges. -/
def Known : Prop := ∀ i, 3 ≤ i → bitOf s.isrState i = false

/-- What the task still has to do, if no interrupt arrives. -/
def work : ℕ := 62 * order.countP s.fresh + s.pc.steps + if s.woken then 2 else 0

variable {s : Side} {s' : Side} {v : UInt16}

lemma bitOf_write {i : ℕ} (h : i < 16) :
    bitOf (s.write v).isrState i = (bitOf s.isrState i && !(bitOf s.isrClr i && !bitOf v i)) := by
  change bitOf (s.isrState &&& ~~~(s.isrClr &&& ~~~v)) i = _
  rw [Drain.bitOf_and, Drain.bitOf_not h, Drain.bitOf_and, Drain.bitOf_not h]

lemma index_lt (irq : Irq) : index irq < 16 := (Drain.index_lt irq).trans (by decide)

/-- A write, after which the task holds what it held, but for what the write has cleared. -/
lemma fresh_write {pc : Pc} {irq : Irq}
    (hheld : s.pc.held s.isrClr irq = true → pc.held v irq = false →
      bitOf s.isrClr (index irq) = true ∧ bitOf v (index irq) = false)
    (h : ((s.write v).goto pc).fresh irq = true) : s.fresh irq = true := by
  rw [fresh, Bool.and_eq_true] at h
  obtain ⟨hset, hnot⟩ := h
  have hset' := hset
  change bitOf (s.write v).isrState (index irq) = true at hset'
  rw [bitOf_write (index_lt irq)] at hset'
  have hnot' : pc.held v irq = false := by simpa [goto, write] using hnot
  rw [fresh, Bool.and_eq_true]
  refine ⟨(Bool.and_eq_true_iff.1 hset').1, ?_⟩
  cases hh : s.pc.held s.isrClr irq with
  | false => rfl
  | true =>
    obtain ⟨hc, hv⟩ := hheld hh hnot'
    rw [hc, hv] at hset'
    simp at hset'

/-- What the receive task writes sets no interrupt. -/
lemma work_write : (s.write v).work ≤ s.work := by
  have hcount : order.countP (s.write v).fresh ≤ order.countP s.fresh := by
    refine List.countP_mono_left fun irq _ h => @fresh_write s v s.pc irq ?_ h
    intro hheld hnot
    cases hpc : s.pc with
    | loop pc =>
      cases pc with
      | clear status irq' isrVal todo =>
        rw [hpc, Pc.held, Bool.or_eq_true] at hheld
        rw [hpc, Pc.held, Bool.or_eq_false_iff] at hnot
        rcases hheld with hheld | hheld
        · simp only [Bool.and_eq_true, decide_eq_true_eq] at hheld
          have hv := hnot.1
          rw [decide_eq_true hheld.1, Bool.true_and] at hv
          exact ⟨hheld.2, hv⟩
        · rw [hnot.2] at hheld
          contradiction
      | status | test | set =>
        rw [hpc] at hheld hnot
        exact absurd (hheld.symm.trans hnot) (by decide)
    | wait | report | also =>
      rw [hpc] at hheld hnot
      exact absurd (hheld.symm.trans hnot) (by decide)
  change 62 * order.countP (s.write v).fresh + s.pc.steps + (if s.woken then 2 else 0) ≤ _
  rw [work]
  omega

/-- A step without a write, which leaves the task the interrupts that it holds. -/
lemma fresh_congr (hstate : s'.isrState = s.isrState) (hclr : s'.isrClr = s.isrClr)
    (hheld : ∀ irq, s'.pc.held s.isrClr irq = s.pc.held s.isrClr irq) : s'.fresh = s.fresh := by
  funext irq
  rw [fresh, fresh, hstate, hclr, hheld irq]

/-- A round starts when an interrupt is set that the task has not read, and leaves none. -/
lemma fresh_round (hpc : s.pc = .loop .status) (hne : s.isrState ≠ 0) (hknown : s.Known) :
    0 < order.countP s.fresh ∧
      order.countP (s.goto (.loop (.test s.isrState order))).fresh = 0 := by
  constructor
  · obtain ⟨irq, hi⟩ := Drain.exists_index_of_ne_zero hne hknown
    refine List.countP_pos_iff.2 ⟨irq, by cases irq <;> decide, ?_⟩
    rw [fresh, hi, hpc]
    rfl
  · rw [List.countP_eq_zero]
    intro irq hirq
    change ¬ (bitOf s.isrState (index irq) && !pending s.isrState order irq) = true
    rw [pending, decide_eq_true hirq]
    simp

/-- A step of the task leaves it less to do, with a trigger that it posts counted as seven steps of
the search task. -/
lemma work_stepIsr {n : Station} {posTestItem : UInt32} {clock : Clock}
    (hs : Step n posTestItem clock s s') (hknown : s.Known) :
    s'.work + 7 * s'.kick.length < s.work + 7 * s.kick.length := by
  -- the steps that write nothing
  have hmove : ∀ (d : Side), d.isrState = s.isrState → d.isrClr = s.isrClr → d.woken = s.woken →
      (∀ irq, d.pc.held s.isrClr irq = s.pc.held s.isrClr irq) →
      d.pc.steps + 7 * d.kick.length < s.pc.steps + 7 * s.kick.length →
      d.work + 7 * d.kick.length < s.work + 7 * s.kick.length := by
    intro d hstate hclr hwoken hheld hlt
    rw [work, work, fresh_congr hstate hclr hheld, hwoken]
    omega
  -- the steps that write a value in a pulse
  have hwrite : ∀ (irq : Irq) (v : UInt16) (pc : Pc),
      (∀ irq', s.pc.held s.isrClr irq' = true → pc.held v irq' = false →
        bitOf s.isrClr (index irq') = true ∧ bitOf v (index irq') = false) →
      pc.steps < s.pc.steps → ((s.pulse irq v).goto pc).work + 7 * s.kick.length <
        s.work + 7 * s.kick.length := by
    intro irq v pc hheld hlt
    have hcount : order.countP ((s.pulse irq v).goto pc).fresh ≤ order.countP s.fresh :=
      List.countP_mono_left fun irq' _ h => fresh_write (hheld irq') h
    change 62 * order.countP ((s.pulse irq v).goto pc).fresh + pc.steps +
      (if s.woken then 2 else 0) + 7 * s.kick.length < _
    rw [work]
    omega
  cases hs with
  | wake hpc hw =>
    have hfresh : ({ s with woken := false, pc := .loop .status } : Side).fresh = s.fresh :=
      fresh_congr rfl rfl fun irq => by rw [hpc]; rfl
    rw [work, work, hfresh, hpc, hw]
    simp [Pc.steps]
  | sleep hpc _ =>
    refine hmove _ rfl rfl rfl (fun irq => by rw [hpc]; rfl) ?_
    rw [hpc]
    simp [goto, Pc.steps]
  | round hpc hne =>
    obtain ⟨hpos, hzero⟩ := fresh_round hpc hne hknown
    have hkick : (s.goto (.loop (.test s.isrState order))).kick = s.kick := rfl
    have hwork : (s.goto (.loop (.test s.isrState order))).work =
        62 * order.countP (s.goto (.loop (.test s.isrState order))).fresh + 62 +
          if s.woken then 2 else 0 := rfl
    rw [hwork, hzero, hkick, work, hpc, Pc.steps]
    omega
  | again status hpc =>
    refine hmove _ rfl rfl rfl (fun irq => by rw [hpc]; rfl) ?_
    rw [hpc]
    simp [goto, Pc.steps]
  | take status irq todo hpc hbit =>
    refine hmove _ rfl rfl rfl (fun irq' => ?_) ?_
    · rw [hpc, Pc.held, Drain.pending_cons, Drain.and_bit_ne_zero.1 hbit, Bool.and_true]
      rfl
    · rw [hpc]
      simp only [goto, Pc.steps, List.length_cons]
      omega
  | skip status irq todo hpc hbit =>
    refine hmove _ rfl rfl rfl (fun irq' => ?_) ?_
    · have hclear : bitOf status (index irq) = false := by
        rw [← Bool.not_eq_true, ← Drain.and_bit_ne_zero, not_not]
        exact hbit
      rw [hpc, Pc.held, Drain.pending_cons, hclear, Bool.and_false, Bool.false_or]
      rfl
    · rw [hpc]
      simp only [goto, Pc.steps, List.length_cons]
      omega
  | set status irq isrVal todo hpc =>
    refine hwrite irq _ _ (fun irq' hheld hnot => ?_) ?_
    · rw [hpc, Pc.held, Bool.or_eq_true] at hheld
      rw [Pc.held, Bool.or_eq_false_iff] at hnot
      rcases hheld with hheld | hheld
      · obtain rfl := of_decide_eq_true hheld
        have hbit : bitOf (isrVal ||| irq'.bit) (index irq') = true := by
          rw [Drain.bitOf_or, Drain.bitOf_bit]
          simp
        rw [hbit, decide_eq_true rfl] at hnot
        exact nomatch hnot.1
      · rw [hnot.2] at hheld
        contradiction
    · rw [hpc]
      simp [Pc.steps]
  | clear status irq isrVal todo hpc =>
    refine hwrite irq _ _ (fun irq' hheld hnot => ?_) ?_
    · rw [hpc, Pc.held, Bool.or_eq_true] at hheld
      rw [Pc.held] at hnot
      rcases hheld with hheld | hheld
      · simp only [Bool.and_eq_true, decide_eq_true_eq] at hheld
        obtain ⟨rfl, hc⟩ := hheld
        refine ⟨hc, ?_⟩
        rw [Drain.bitOf_and, Drain.bitOf_keep (index_lt irq')]
        simp
      · rw [hnot] at hheld
        contradiction
    · rw [hpc]
      simp [Pc.steps]
  | trigger status todo hpc =>
    refine hmove _ rfl rfl rfl (fun irq => by rw [hpc]; rfl) ?_
    rw [hpc]
    simp only [Pc.steps, List.length_append, List.length_singleton]
    omega
  | also status code todo hpc | cmd status todo hpc | feedback status todo hpc =>
    refine hmove _ rfl rfl rfl (fun irq => by rw [hpc]; rfl) ?_
    rw [hpc]
    simp [Pc.steps]

lemma Known.write (h : s.Known) (v : UInt16) : (s.write v).Known := by
  intro i hi
  by_cases h16 : i < 16
  · rw [bitOf_write h16, h i hi]
    rfl
  · exact Drain.bitOf_of_ge (Nat.le_of_not_lt h16)

lemma Known.arrive (h : s.Known) {bits : UInt16} (hb : ∀ i, 3 ≤ i → bitOf bits i = false) :
    (s.arrive bits).Known := by
  intro i hi
  change bitOf (s.isrState ||| bits) i = false
  rw [Drain.bitOf_or, h i hi, hb i hi]
  rfl

lemma Known.stepIsr {n : Station} {posTestItem : UInt32} {clock : Clock} (h : s.Known)
    (hs : Step n posTestItem clock s s') : s'.Known := by
  cases hs with
  | set | clear => exact h.write _
  | wake | sleep | round | again | take | skip | trigger | also | cmd | feedback => exact h

end Side

end RejectProcess.Isr
