import RejectProcess.Fpga.Mask

/-!
# The loops that drain the interrupt status

`kick1_isr_tsk` and `kick2_isr_tsk` (`fpga/isr.c`) read their status register in a loop until it
is 0, and acknowledge the interrupts they find by a pulse in their clear register.  A status bit is
cleared when its bit in the clear register falls from 1 to 0, and is set again by a new interrupt.
Every access to a register is a step; interrupts arrive between any two of them.
-/

namespace RejectProcess.Drain

open Lib Mask

/-- Where a task stands: in the loop, or behind it. -/
inductive Pc
  | loop (pc : IsrPc)
  | done
deriving DecidableEq, Repr

/-- The loop of one task with its two registers, and the interrupts that are still to come, each
with the status bits it sets. -/
structure Loop where
  isrState : UInt16
  isrClr : UInt16
  pc : Pc
  arrivals : List UInt16

/-- Who moves. -/
inductive Move
  /-- An interrupt arrives. -/
  | arrive
  /-- The task goes on. -/
  | isr
deriving DecidableEq, Repr

namespace Loop

variable (L : Loop)

/-- A write to the clear register: the status bits whose bit falls are cleared. -/
def write (v : UInt16) : Loop :=
  { L with isrState := L.isrState &&& ~~~(L.isrClr &&& ~~~v), isrClr := v }

/-- The task moves on. -/
def goto (pc : Pc) : Loop := { L with pc := pc }

/-- The body of the loop and its condition. -/
def stepIsr : Option Loop :=
  match L.pc with
  | .done => none
  | .loop .status =>
    if L.isrState = 0 then some (L.goto .done)
    else some (L.goto (.loop (.test L.isrState [.pos, .cmd, .feedback])))
  | .loop (.test _ []) => some (L.goto (.loop .status))
  | .loop (.test status (irq :: todo)) =>
    if status &&& irq.bit ≠ 0 then some (L.goto (.loop (.set status irq L.isrClr todo)))
    else some (L.goto (.loop (.test status todo)))
  | .loop (.set status irq isrVal todo) =>
    some ((L.write (isrVal ||| irq.bit)).goto (.loop (.clear status irq isrVal todo)))
  | .loop (.clear status irq isrVal todo) =>
    some ((L.write (isrVal &&& irq.keep)).goto (.loop (.test status todo)))

/-- An interrupt arrives and sets its bits. -/
def stepArrive : Option Loop :=
  match L.arrivals with
  | [] => none
  | a :: rest => some { L with isrState := L.isrState ||| a, arrivals := rest }

def step (L : Loop) : Move → Option Loop
  | .arrive => L.stepArrive
  | .isr => L.stepIsr

/-- A task before its first read of the status register. -/
def init (isrState isrClr : UInt16) (arrivals : List UInt16) : Loop where
  isrState := isrState
  isrClr := isrClr
  pc := .loop .status
  arrivals := arrivals

end Loop

/-- The two tasks, each with its own registers. -/
abbrev State := Station → Loop

/-- One step of the two tasks and the interrupts of their stations. -/
def State.step (s : State) (a : Station × Move) : Option State :=
  ((s a.1).step a.2).map (Function.update s a.1)

/-! ## The bits of a register -/

/-- Bit `i` of a register. -/
def bitOf (x : UInt16) (i : ℕ) : Bool := x.toBitVec.getLsbD i

/-- The number of the status bit. -/
def index : Irq → ℕ
  | .pos => 0
  | .cmd => 1
  | .feedback => 2

section Bits

variable {x y : UInt16} {i : ℕ} {irq : Irq}

lemma index_lt (irq : Irq) : index irq < 3 := by
  cases irq <;> decide

lemma index_inj {irq irq' : Irq} : index irq = index irq' ↔ irq = irq' := by
  cases irq <;> cases irq' <;> decide

@[simp] lemma bitOf_and : bitOf (x &&& y) i = (bitOf x i && bitOf y i) := by
  simp [bitOf]

@[simp] lemma bitOf_or : bitOf (x ||| y) i = (bitOf x i || bitOf y i) := by
  simp [bitOf]

lemma bitOf_of_ge (h : 16 ≤ i) : bitOf x i = false := BitVec.getLsbD_of_ge _ _ h

lemma bitOf_not (h : i < 16) : bitOf (~~~x) i = !bitOf x i := by
  simp [bitOf, h]

lemma bitOf_bit : bitOf irq.bit i = decide (i = index irq) := by
  by_cases h : i < 16
  · revert i
    cases irq <;> decide
  · have := index_lt irq
    rw [bitOf_of_ge (by omega), eq_comm, decide_eq_false_iff_not]
    omega

lemma bitOf_keep (h : i < 16) : bitOf irq.keep i = !decide (i = index irq) := by
  revert i
  cases irq <;> decide

lemma eq_zero_iff : x = 0 ↔ ∀ i, bitOf x i = false := by
  constructor
  · rintro rfl i
    simp [bitOf]
  · intro h
    rw [← UInt16.toBitVec_inj]
    exact BitVec.eq_of_getLsbD_eq fun i _ => by simpa [bitOf] using h i

lemma and_bit_ne_zero : x &&& irq.bit ≠ 0 ↔ bitOf x (index irq) = true := by
  rw [ne_eq, eq_zero_iff]
  simp [bitOf_bit]

/-- A register that has a bit and none beside the three of the interrupts has one of theirs. -/
lemma exists_index_of_ne_zero (hne : x ≠ 0) (hknown : ∀ i, 3 ≤ i → bitOf x i = false) :
    ∃ irq, bitOf x (index irq) = true := by
  obtain ⟨i, hi⟩ : ∃ i, bitOf x i = true := by
    simpa [eq_zero_iff] using hne
  have hlt : i < 3 := by
    by_contra hge
    rw [hknown i (by omega)] at hi
    contradiction
  obtain ⟨irq, rfl⟩ : ∃ irq, index irq = i := by
    rcases i with _ | _ | _ | i
    exacts [⟨.pos, rfl⟩, ⟨.cmd, rfl⟩, ⟨.feedback, rfl⟩, by omega]
  exact ⟨irq, hi⟩

end Bits

/-! ## What the task has in hand -/

/-- The interrupts the task still has to look at, as it has read them in the status register. -/
def pending (status : UInt16) (todo : List Irq) (irq : Irq) : Bool :=
  decide (irq ∈ todo) && bitOf status (index irq)

lemma pending_cons (status : UInt16) (todo : List Irq) (irq irq' : Irq) :
    pending status (irq :: todo) irq' =
      (decide (irq' = irq) && bitOf status (index irq) || pending status todo irq') := by
  rcases eq_or_ne irq' irq with rfl | h
  · cases hbit : bitOf status (index irq') <;> simp [pending, hbit]
  · simp [pending, h]

lemma pending_of_notMem {status : UInt16} {todo : List Irq} {irq : Irq} (h : irq ∉ todo) :
    pending status todo irq = false := by
  simp [pending, h]

namespace Pc

/-- The interrupts that the task will acknowledge in this round. -/
def committed : Pc → Irq → Bool
  | .loop (.test status todo), irq => pending status todo irq
  | .loop (.set status irq' _ todo), irq => decide (irq = irq') || pending status todo irq
  | .loop (.clear status irq' _ todo), irq => decide (irq = irq') || pending status todo irq
  | .loop .status, _ => false
  | .done, _ => false

/-- The interrupts the task still looks at are different ones. -/
def Distinct : Pc → Prop
  | .loop (.test _ todo) => todo.Nodup
  | .loop (.set _ irq _ todo) => (irq :: todo).Nodup
  | .loop (.clear _ irq _ todo) => (irq :: todo).Nodup
  | .loop .status => True
  | .done => True

/-- What the task has read of its clear register, in a pulse. -/
def RegRead (isrClr : UInt16) : Pc → Prop
  | .loop (.set _ _ isrVal _) => isrClr = isrVal
  | .loop (.clear _ irq isrVal _) => isrClr = isrVal ||| irq.bit
  | _ => True

/-- The number of steps to the next read of the status register, and one more. -/
def steps : Pc → ℕ
  | .done => 0
  | .loop .status => 1
  | .loop (.test _ todo) => 3 * todo.length + 2
  | .loop (.set _ _ _ todo) => 3 * todo.length + 4
  | .loop (.clear _ _ _ todo) => 3 * todo.length + 3

end Pc

namespace Loop

variable {L L' : Loop}

/-- Nobody else writes to the clear register, and what the task has in hand is still set. -/
structure Inv (L : Loop) : Prop where
  distinct : L.pc.Distinct
  regRead : L.pc.RegRead L.isrClr
  committed : ∀ irq, L.pc.committed irq = true → bitOf L.isrState (index irq) = true

/-- Only the three interrupts that the loop acknowledges are set or arrive. -/
structure Handled (L : Loop) : Prop where
  isrState : ∀ i, 3 ≤ i → bitOf L.isrState i = false
  arrivals : ∀ a ∈ L.arrivals, ∀ i, 3 ≤ i → bitOf a i = false

lemma bitOf_write (v : UInt16) {i : ℕ} (h : i < 16) :
    bitOf (L.write v).isrState i = (bitOf L.isrState i && !(bitOf L.isrClr i && !bitOf v i)) := by
  rw [write, bitOf_and, bitOf_not h, bitOf_and, bitOf_not h]

/-- The first write of a pulse clears no status bit. -/
lemma isrState_set {irq : Irq} {isrVal : UInt16} (h : L.isrClr = isrVal) :
    (L.write (isrVal ||| irq.bit)).isrState = L.isrState := by
  rw [← UInt16.toBitVec_inj]
  refine BitVec.eq_of_getLsbD_eq fun i hi => ?_
  change bitOf _ i = bitOf _ i
  rw [bitOf_write _ hi, h, bitOf_or]
  cases bitOf isrVal i <;> simp

/-- The second write clears the bit of the interrupt and no other. -/
lemma bitOf_clear {irq : Irq} {isrVal : UInt16} (h : L.isrClr = isrVal ||| irq.bit) {i : ℕ}
    (hi : i < 16) :
    bitOf (L.write (isrVal &&& irq.keep)).isrState i =
      (bitOf L.isrState i && !decide (i = index irq)) := by
  rw [bitOf_write _ hi, h, bitOf_or, bitOf_and, bitOf_bit, bitOf_keep hi]
  cases bitOf isrVal i <;> by_cases hirq : i = index irq <;> simp [hirq]

/-- An interrupt is set and the task does not have it in hand. -/
def isOpen (L : Loop) (irq : Irq) : Bool := bitOf L.isrState (index irq) && !L.pc.committed irq

/-- A step of the task inside a round: it comes closer to the end of the round, and no interrupt
is opened. -/
structure Forward (L L' : Loop) : Prop where
  inv : L'.Inv
  arrivals : L'.arrivals = L.arrivals
  steps : L'.pc.steps < L.pc.steps
  isOpen : ∀ irq, L'.isOpen irq = L.isOpen irq
  high : ∀ i, 3 ≤ i → bitOf L'.isrState i = bitOf L.isrState i

/-- A step that touches no register, and leaves the same interrupts in hand. -/
lemma Forward.goto (h : L.Inv) {pc : Pc} (hsteps : pc.steps < L.pc.steps) (hdis : pc.Distinct)
    (hreg : pc.RegRead L.isrClr) (hcom : ∀ irq, pc.committed irq = L.pc.committed irq) :
    Forward L (L.goto pc) where
  inv := ⟨hdis, hreg, fun irq hi => h.committed irq (by rw [← hcom irq]; exact hi)⟩
  arrivals := rfl
  steps := hsteps
  isOpen := fun irq => by
    change (_ && !pc.committed irq) = (_ && !L.pc.committed irq)
    rw [hcom irq]
    rfl
  high := fun _ _ => rfl

/-- The first write of a pulse. -/
lemma Forward.set (h : L.Inv) {status isrVal : UInt16} {irq : Irq} {todo : List Irq}
    (hpc : L.pc = .loop (.set status irq isrVal todo)) :
    Forward L ((L.write (isrVal ||| irq.bit)).goto (.loop (.clear status irq isrVal todo))) := by
  have hreg := h.regRead
  have hdis := h.distinct
  rw [hpc] at hreg hdis
  change L.isrClr = isrVal at hreg
  have hstate : (L.write (isrVal ||| irq.bit)).isrState = L.isrState := isrState_set hreg
  have hcom : ∀ x, Pc.committed (.loop (.clear status irq isrVal todo)) x = L.pc.committed x := by
    intro x
    rw [hpc]
    rfl
  have hclr : (L.write (isrVal ||| irq.bit)).isrClr = isrVal ||| irq.bit := rfl
  refine ⟨⟨hdis, hclr, ?_⟩, rfl, ?_, ?_, ?_⟩
  · intro x hx
    rw [Loop.goto, hstate]
    exact h.committed x ((hcom x).symm.trans hx)
  · rw [hpc]
    simp [Loop.goto, Pc.steps]
  · intro x
    simp only [Loop.isOpen, Loop.goto, hstate, hcom]
  · intro i _
    rw [Loop.goto, hstate]

/-- The second write of a pulse clears the bit of an interrupt that the task had in hand. -/
lemma Forward.clear (h : L.Inv) {status isrVal : UInt16} {irq : Irq} {todo : List Irq}
    (hpc : L.pc = .loop (.clear status irq isrVal todo)) :
    Forward L ((L.write (isrVal &&& irq.keep)).goto (.loop (.test status todo))) := by
  have hreg := h.regRead
  have hdis := h.distinct
  rw [hpc] at hreg hdis
  change L.isrClr = isrVal ||| irq.bit at hreg
  obtain ⟨hnot, hnodup⟩ := List.nodup_cons.1 hdis
  have hbit : ∀ x, bitOf (L.write (isrVal &&& irq.keep)).isrState (index x) =
      (bitOf L.isrState (index x) && !decide (x = irq)) := by
    intro x
    have := index_lt x
    rw [bitOf_clear hreg (by omega)]
    simp only [index_inj]
  have hcom : ∀ x, L.pc.committed x = (decide (x = irq) || pending status todo x) := by
    intro x
    rw [hpc]
    rfl
  refine ⟨⟨hnodup, trivial, ?_⟩, rfl, ?_, ?_, ?_⟩
  · intro x hx
    have hne : x ≠ irq := by
      rintro rfl
      change pending status todo x = true at hx
      rw [pending_of_notMem hnot] at hx
      contradiction
    change bitOf (L.write _).isrState _ = true
    rw [hbit x, h.committed x (by rw [hcom x]; exact Bool.or_eq_true_iff.2 (.inr hx))]
    simp [hne]
  · rw [hpc]
    simp [Loop.goto, Pc.steps]
  · intro x
    change (bitOf (L.write _).isrState _ && !pending status todo x) = (_ && !L.pc.committed x)
    rw [hbit x, hcom x]
    cases bitOf L.isrState (index x) <;> cases decide (x = irq) <;> simp
  · intro i hi
    change bitOf (L.write _).isrState i = _
    by_cases h16 : i < 16
    · have := index_lt irq
      rw [bitOf_clear hreg h16, decide_eq_false (by omega)]
      simp
    · rw [bitOf_of_ge (by omega), bitOf_of_ge (by omega)]

/-- What a step of the task does: it starts a round, with every set interrupt in hand, or it goes
forward. -/
lemma stepIsr_cases (h : L.Inv) (hs : L.stepIsr = some L') :
    (L.pc = .loop .status ∧ L.isrState ≠ 0 ∧
      L' = L.goto (.loop (.test L.isrState [.pos, .cmd, .feedback]))) ∨ Forward L L' := by
  unfold stepIsr at hs
  cases hpc : L.pc with
  | done => simp [hpc] at hs
  | loop pc =>
    rw [hpc] at hs
    cases pc with
    | status =>
      simp only at hs
      split at hs
      · cases hs
        exact .inr (.goto h (by simp [hpc, Pc.steps]) trivial trivial (by simp [hpc, Pc.committed]))
      · rename_i hne
        cases hs
        exact .inl ⟨rfl, hne, rfl⟩
    | test status todo =>
      have hdis := h.distinct
      rw [hpc] at hdis
      cases todo with
      | nil =>
        cases hs
        exact .inr (.goto h (by simp [hpc, Pc.steps]) trivial trivial
          (by simp [hpc, Pc.committed, pending]))
      | cons irq todo =>
        simp only [and_bit_ne_zero] at hs
        split at hs
        · rename_i hbit
          cases hs
          exact .inr (.goto h (by simp [hpc, Pc.steps]; omega) hdis rfl
            (by simp [hpc, Pc.committed, pending_cons, hbit]))
        · rename_i hbit
          cases hs
          exact .inr (.goto h (by simp [hpc, Pc.steps]) (List.nodup_cons.1 hdis).2 trivial
            (by simp [hpc, Pc.committed, pending_cons, hbit]))
    | set status irq isrVal todo =>
      cases hs
      exact .inr (.set h hpc)
    | clear status irq isrVal todo =>
      cases hs
      exact .inr (.clear h hpc)

/-! ## The measure -/

/-- A round starts with every set interrupt in hand. -/
lemma inv_start (L : Loop) :
    (L.goto (.loop (.test L.isrState [.pos, .cmd, .feedback]))).Inv where
  distinct := by simp [goto, Pc.Distinct]
  regRead := trivial
  committed := fun irq h => (Bool.and_eq_true_iff.1 h).2

lemma isOpen_start (L : Loop) (irq : Irq) :
    (L.goto (.loop (.test L.isrState [.pos, .cmd, .feedback]))).isOpen irq = false := by
  have hmem : irq ∈ [Irq.pos, .cmd, .feedback] := by cases irq <;> decide
  change (bitOf L.isrState (index irq) && !pending _ _ irq) = false
  rw [pending, decide_eq_true hmem]
  cases bitOf L.isrState (index irq) <;> rfl

/-- Interrupts that arrive do not take away what the task has in hand. -/
lemma Inv.arrive (h : L.Inv) (a : UInt16) (rest : List UInt16) :
    ({ L with isrState := L.isrState ||| a, arrivals := rest } : Loop).Inv where
  distinct := h.distinct
  regRead := h.regRead
  committed := fun irq hi => by rw [bitOf_or, h.committed irq hi, Bool.true_or]

lemma Inv.step (h : L.Inv) {m : Move} (hs : L.step m = some L') : L'.Inv := by
  cases m with
  | arrive =>
    simp only [Loop.step, stepArrive] at hs
    split at hs
    · cases hs
    · cases hs
      exact h.arrive _ _
  | isr =>
    rcases stepIsr_cases h hs with ⟨-, -, rfl⟩ | hf
    · exact inv_start L
    · exact hf.inv

/-- The interrupts that are set and not in hand. -/
def openBits (L : Loop) : ℕ := [Irq.pos, .cmd, .feedback].countP L.isOpen

/-- A bound on the steps that remain: a round takes at most ten, and every round is for an
interrupt that was set or arrives. -/
def measure (L : Loop) : ℕ := 34 * L.arrivals.length + 11 * L.openBits + L.pc.steps

/-- Outside a round every set bit is open. -/
lemma openBits_pos (h : L.Handled) (hpc : L.pc = .loop .status) (hne : L.isrState ≠ 0) :
    0 < L.openBits := by
  obtain ⟨irq, hi⟩ := exists_index_of_ne_zero hne h.isrState
  refine List.countP_pos_iff.2 ⟨irq, by cases irq <;> decide, ?_⟩
  rw [isOpen, hi, hpc]
  rfl

/-- As long as all interrupts are handled, every step decreases the measure. -/
lemma measure_lt (h : L.Inv) (hh : L.Handled) {m : Move} (hs : L.step m = some L') :
    L'.Handled ∧ L'.measure < L.measure := by
  cases m with
  | arrive =>
    simp only [Loop.step, stepArrive] at hs
    split at hs
    · cases hs
    · rename_i a rest harr
      cases hs
      have ha := hh.arrivals a (by simp [harr])
      refine ⟨⟨?_, ?_⟩, ?_⟩
      · intro i hi
        rw [bitOf_or, hh.isrState i hi, ha i hi]
        rfl
      · exact fun b hb => hh.arrivals b (by simp [harr, hb])
      · have hle :
            ({ L with isrState := L.isrState ||| a, arrivals := rest } : Loop).openBits ≤ 3 :=
          List.countP_le_length
        simp only [measure, harr, List.length_cons]
        omega
  | isr =>
    rcases stepIsr_cases h hs with ⟨hpc, hne, rfl⟩ | hf
    · have hpos := openBits_pos hh hpc hne
      have hzero : (L.goto (.loop (.test L.isrState [.pos, .cmd, .feedback]))).openBits = 0 := by
        rw [openBits, List.countP_eq_zero]
        simp [isOpen_start]
      refine ⟨⟨hh.isrState, hh.arrivals⟩, ?_⟩
      rw [measure, measure, hzero, hpc]
      simp only [goto, Pc.steps, List.length_cons, List.length_nil]
      omega
    · have hopen : L'.openBits = L.openBits := by
        rw [openBits, openBits, funext hf.isOpen]
      have := hf.steps
      refine ⟨⟨?_, by rw [hf.arrivals]; exact hh.arrivals⟩, ?_⟩
      · intro i hi
        rw [hf.high i hi, hh.isrState i hi]
      · rw [measure, measure, hopen, hf.arrivals]
        omega

/-! ## A bit that nobody acknowledges -/

/-- A bit above the three interrupts is set or will be set, and the task is in its loop. -/
structure Stuck (L : Loop) : Prop where
  inv : L.Inv
  loop : L.pc ≠ .done
  bit : ∃ i, 3 ≤ i ∧ (bitOf L.isrState i = true ∨ ∃ a ∈ L.arrivals, bitOf a i = true)

/-- The task goes on for ever after such a bit has been set. -/
lemma Stuck.step (h : L.Stuck) : ∃ m L', L.step m = some L' ∧ L'.Stuck := by
  obtain ⟨i, hi, hbit⟩ := h.bit
  cases harr : L.arrivals with
  | cons a rest =>
    refine ⟨.arrive, { L with isrState := L.isrState ||| a, arrivals := rest }, ?_,
      h.inv.arrive a rest, h.loop, i, hi, ?_⟩
    · simp [Loop.step, stepArrive, harr]
    · rcases hbit with hb | ⟨b, hb, hbi⟩
      · left
        rw [bitOf_or, hb]
        rfl
      · rw [harr] at hb
        rcases List.mem_cons.1 hb with rfl | hb
        · left
          rw [bitOf_or, hbi, Bool.or_true]
        · exact .inr ⟨b, hb, hbi⟩
  | nil =>
    have hset : bitOf L.isrState i = true := by simpa [harr] using hbit
    have hne : L.isrState ≠ 0 := by
      rw [ne_eq, eq_zero_iff]
      intro hz
      rw [hz i] at hset
      contradiction
    obtain ⟨L', hs, hloop⟩ : ∃ L', L.stepIsr = some L' ∧ L'.pc ≠ .done := by
      unfold stepIsr
      cases hpc : L.pc with
      | done => exact absurd hpc h.loop
      | loop pc =>
        cases pc with
        | status => exact ⟨_, if_neg hne, by simp [goto]⟩
        | test status todo =>
          cases todo with
          | nil => exact ⟨_, rfl, by simp [goto]⟩
          | cons irq todo =>
            simp only
            split
            · exact ⟨_, rfl, by simp [goto]⟩
            · exact ⟨_, rfl, by simp [goto]⟩
        | set status irq isrVal todo => exact ⟨_, rfl, by simp [goto]⟩
        | clear status irq isrVal todo => exact ⟨_, rfl, by simp [goto]⟩
    refine ⟨.isr, L', hs, h.inv.step (m := .isr) hs, hloop, i, hi, .inl ?_⟩
    rcases stepIsr_cases h.inv hs with ⟨-, -, rfl⟩ | hf
    · exact hset
    · rw [hf.high i hi, hset]

/-- A task in its loop can always go on. -/
lemma stepIsr_isSome (h : L.pc ≠ .done) : L.stepIsr ≠ none := by
  unfold stepIsr
  grind

end Loop

/-! ## Both tasks -/

lemma inv_init (isrState isrClr : UInt16) (arrivals : List UInt16) :
    (Loop.init isrState isrClr arrivals).Inv where
  distinct := trivial
  regRead := trivial
  committed := by simp [Loop.init, Pc.committed]

/-- The two tasks at their first read of the status registers. -/
def init (isrState isrClr : Station → UInt16) (arrivals : Station → List UInt16) : State :=
  fun n => .init (isrState n) (isrClr n) (arrivals n)

namespace State

variable {s s' : State}

lemma step_inv {a : Station × Move} (h : State.step s a = some s') :
    ∃ L', (s a.1).step a.2 = some L' ∧ s' = Function.update s a.1 L' := by
  obtain ⟨L', hL, rfl⟩ := Option.map_eq_some_iff.1 h
  exact ⟨L', hL, rfl⟩

/-- A property of both loops that each step of a loop keeps. -/
lemma forall_step {I : Loop → Prop} {a : Station × Move} (h : ∀ n, I (s n))
    (hs : State.step s a = some s') (hstep : ∀ L L' m, I L → L.step m = some L' → I L') :
    ∀ n, I (s' n) := by
  obtain ⟨L', hL, rfl⟩ := step_inv hs
  intro n
  by_cases hn : n = a.1
  · subst hn
    rw [Function.update_self]
    exact hstep _ _ _ (h _) hL
  · rw [Function.update_of_ne hn]
    exact h n

/-- The loops end: whatever the order of the steps and of the interrupts there is a bound on
their number, and when nobody can go on, both tasks are behind their loops. -/
def LoopsEnd (s : State) : Prop :=
  Bounded State.step s ∧
    ∀ s', Reach State.step AnyStep s s' → (∀ a, State.step s' a = none) → ∀ n, (s' n).pc = .done

/-- A step decreases the sum of the two measures. -/
lemma measure_lt {a : Station × Move} (h : ∀ n, (s n).Inv ∧ (s n).Handled)
    (hs : State.step s a = some s') :
    (s' .one).measure + (s' .two).measure < (s .one).measure + (s .two).measure := by
  obtain ⟨n, m⟩ := a
  obtain ⟨L', hL, rfl⟩ := step_inv hs
  have hlt := (Loop.measure_lt (h n).1 (h n).2 hL).2
  cases n with
  | one =>
    have hother : Function.update s .one L' .two = s .two := Function.update_of_ne (by decide) _ _
    rw [Function.update_self, hother]
    exact Nat.add_lt_add_right hlt _
  | two =>
    have hother : Function.update s .two L' .one = s .one := Function.update_of_ne (by decide) _ _
    rw [Function.update_self, hother]
    exact Nat.add_lt_add_left hlt _

lemma bounded (h : ∀ n, (s n).Inv ∧ (s n).Handled) : Bounded State.step s := by
  refine ⟨(s .one).measure + (s .two).measure, fun as has => ?_⟩
  refine length_le_measure (I := fun s => ∀ n, (s n).Inv ∧ (s n).Handled)
    (fun s => (s .one).measure + (s .two).measure) ?_ h has
  intro s a s' hI hs
  refine ⟨forall_step (I := fun L => L.Inv ∧ L.Handled) hI hs ?_, measure_lt hI hs⟩
  intro L L' m hL hstep
  exact ⟨hL.1.step hstep, (Loop.measure_lt hL.1 hL.2 hstep).1⟩

lemma not_bounded_of_stuck {n : Station} (h : (s n).Stuck) : ¬ Bounded State.step s := by
  refine not_bounded (I := fun s => (s n).Stuck) (fun s hI => ?_) h
  obtain ⟨m, L', hs, hL'⟩ := hI.step
  refine ⟨(n, m), Function.update s n L', ?_, by rwa [Function.update_self]⟩
  simp [State.step, hs]

lemma done_of_stop (h : ∀ a, State.step s a = none) (n : Station) : (s n).pc = .done := by
  by_contra hne
  have hnone : (s n).stepIsr.map (Function.update s n) = none := h (n, .isr)
  exact Loop.stepIsr_isSome hne (Option.map_eq_none_iff.1 hnone)

end State

/-- The loops end, for given contents of the registers and interrupts to come, if and only if no
status bit but the three that the loops acknowledge is set or will be set. -/
theorem loops_end_iff (isrState isrClr : Station → UInt16) (arrivals : Station → List UInt16) :
    (init isrState isrClr arrivals).LoopsEnd ↔
      ∀ n, ∀ status ∈ isrState n :: arrivals n, ∀ i, 3 ≤ i → bitOf status i = false := by
  constructor
  · rintro ⟨hb, -⟩ n status hst i hi
    by_contra hbit
    rw [Bool.not_eq_false] at hbit
    refine State.not_bounded_of_stuck (n := n)
      ⟨inv_init _ _ _, by simp [init, Loop.init], i, hi, ?_⟩ hb
    rcases List.mem_cons.1 hst with rfl | hst
    · exact .inl hbit
    · exact .inr ⟨status, hst, hbit⟩
  · intro h
    refine ⟨State.bounded fun n => ⟨inv_init _ _ _, ?_, ?_⟩, fun s' _ => State.done_of_stop⟩
    · exact h n _ List.mem_cons_self
    · exact fun a ha => h n a (List.mem_cons_of_mem _ ha)

/-- With status bit 3 set, `kick1_isr_tsk` does not leave its loop. -/
theorem not_loopsEnd_bit3 : ¬ (init (fun _ => 0x8) (fun _ => 0) (fun _ => [])).LoopsEnd := by
  rintro ⟨hb, -⟩
  exact State.not_bounded_of_stuck (n := .one) ⟨inv_init _ _ _, by simp [init, Loop.init], 3,
    le_rfl, .inl (by decide)⟩ hb

end RejectProcess.Drain
