import Mathlib.Data.UInt
import Mathlib.Logic.Function.Basic
import RejectProcess.Lib.Run
import RejectProcess.Sample.Array

/-!
# The interrupt clear registers

`recv_pos_test_cmd` of `communication/local_protocol.c` masks and unmasks two interrupts of each
station in `FPGA_ISRCLR_REG1` and `FPGA_ISRCLR_REG2`, and `kick1_isr_tsk` and `kick2_isr_tsk` of
`fpga/isr.c` acknowledge their interrupts in the same registers.  Both read a register, change some
of its bits and write it back, without a lock; every read and every write is a step here.
-/

namespace RejectProcess.Mask

open Lib

/-! ## The position test command -/

/-- What a command does to the bits 1 and 2 of a register. -/
inductive Update
  /-- `isr_val|0x06`. -/
  | set
  /-- `isr_val&0xFFF9`. -/
  | clear
deriving DecidableEq, Repr

namespace Update

/-- The value that is written. -/
def apply : Update → UInt16 → UInt16
  | .set, isrVal => isrVal ||| 0x06
  | .clear, isrVal => isrVal &&& 0xFFF9

/-- The bits 1 and 2 of such a value. -/
def bits : Update → UInt16
  | .set => 0x06
  | .clear => 0

end Update

/-- The updates of `recv_pos_test_cmd`, in order: the registers by their stations. -/
def recvPosTestCmd (item : UInt32) : List (Station × Update) :=
  if item = 2 then [(.one, .set), (.two, .set)]
  else if item = 3 then [(.one, .clear), (.two, .set)]
  else if item = 4 then [(.one, .set), (.two, .set)]
  else if item = 5 then [(.two, .clear), (.one, .set)]
  else []

/-- Where the receive task stands in `recv_pos_test_cmd`. -/
inductive RecvPc
  | idle
  /-- Before the read for the first update. -/
  | read (todo : List (Station × Update))
  /-- Before the write of an update. -/
  | write (n : Station) (u : Update) (isrVal : UInt16) (todo : List (Station × Update))
deriving DecidableEq, Repr

/-! ## The interrupt tasks -/

/-- The interrupts of a station, in the order in which its task looks for them. -/
inductive Irq
  /-- A sample at the kick tube. -/
  | pos
  /-- A kick command. -/
  | cmd
  | feedback
deriving DecidableEq, Repr

namespace Irq

/-- The status bit, which is also the bit set to acknowledge. -/
def bit : Irq → UInt16
  | .pos => 0x1
  | .cmd => 0x2
  | .feedback => 0x4

/-- The mask that clears the bit again. -/
def keep : Irq → UInt16
  | .pos => 0xFFFE
  | .cmd => 0xFFFD
  | .feedback => 0xFFFB

end Irq

/-- Where an interrupt task stands. -/
inductive IsrPc
  /-- Before it reads the status register. -/
  | status
  /-- With a status, before the test of the next interrupt. -/
  | test (status : UInt16) (todo : List Irq)
  /-- In a pulse, before `isr_val|bit` is written. -/
  | set (status : UInt16) (irq : Irq) (isrVal : UInt16) (todo : List Irq)
  /-- In a pulse, before `isr_val` is written with the bit cleared. -/
  | clear (status : UInt16) (irq : Irq) (isrVal : UInt16) (todo : List Irq)
deriving DecidableEq, Repr

/-- The pulse that is in progress: its interrupt and the value it has read. -/
def IsrPc.pulse : IsrPc → Option (Irq × UInt16)
  | .set _ irq isrVal _ => some (irq, isrVal)
  | .clear _ irq isrVal _ => some (irq, isrVal)
  | _ => none

/-! ## The two together -/

/-- The registers, the last `pos_test_item` and the three tasks. -/
structure State where
  reg : Station → UInt16
  posTestItem : UInt32
  recv : RecvPc
  isr : Station → IsrPc

/-- Who moves, and what comes from outside. -/
inductive Label
  /-- A position test command arrives. -/
  | command (item : UInt32)
  /-- The command goes on. -/
  | recv
  /-- The interrupt task of a station reads its status register. -/
  | status (n : Station) (status : UInt16)
  /-- The interrupt task of a station goes on. -/
  | isr (n : Station)
deriving DecidableEq, Repr

/-- The state after start-up, with what the registers then hold. -/
def init (reg : Station → UInt16) : State where
  reg := reg
  posTestItem := 0
  recv := .idle
  isr := fun _ => .status

namespace State

variable (s : State)

/-- A write to a register. -/
def setReg (n : Station) (v : UInt16) : State := { s with reg := Function.update s.reg n v }

/-- The receive task moves on. -/
def recvGoto (pc : RecvPc) : State := { s with recv := pc }

/-- The interrupt task of a station moves on. -/
def isrGoto (n : Station) (pc : IsrPc) : State := { s with isr := Function.update s.isr n pc }

/-- A command begins. -/
def command (item : UInt32) : State :=
  { s with posTestItem := item, recv := .read (recvPosTestCmd item) }

/-- `recv_pos_test_cmd`. -/
def stepRecv : Option State :=
  match s.recv with
  | .idle => none
  | .read [] => some (s.recvGoto .idle)
  | .read ((n, u) :: todo) => some (s.recvGoto (.write n u (s.reg n) todo))
  | .write n u isrVal todo => some ((s.setReg n (u.apply isrVal)).recvGoto (.read todo))

/-- `kick1_isr_tsk` and `kick2_isr_tsk`, behind their read of the status register. -/
def stepIsr (n : Station) : Option State :=
  match s.isr n with
  | .status => none
  | .test _ [] => some (s.isrGoto n .status)
  | .test status (irq :: todo) =>
    if status &&& irq.bit ≠ 0 then some (s.isrGoto n (.set status irq (s.reg n) todo))
    else some (s.isrGoto n (.test status todo))
  | .set status irq isrVal todo =>
    some ((s.setReg n (isrVal ||| irq.bit)).isrGoto n (.clear status irq isrVal todo))
  | .clear status irq isrVal todo =>
    some ((s.setReg n (isrVal &&& irq.keep)).isrGoto n (.test status todo))

/-- One step. -/
def step (s : State) : Label → Option State
  | .command item => if s.recv = .idle then some (s.command item) else none
  | .recv => s.stepRecv
  | .status n status =>
    if s.isr n = .status then some (s.isrGoto n (.test status [.pos, .cmd, .feedback])) else none
  | .isr n => s.stepIsr n

end State

/-! ## What a command requires -/

/-- What the command with an item requires of the register of a station, if anything. -/
def required (item : UInt32) (n : Station) : Option Update :=
  if item = 2 ∨ item = 4 then some .set
  else if item = 3 then
    match n with
    | .one => some .clear
    | .two => some .set
  else if item = 5 then
    match n with
    | .one => some .set
    | .two => some .clear
  else none

namespace State

variable (s : State)

/-- Outside a pulse, the bits 1 and 2 of each register are as the last command requires, if it has
returned. -/
def MasksFollow : Prop :=
  s.recv = .idle → ∀ n u, required s.posTestItem n = some u → (s.isr n).pulse = none →
    s.reg n &&& 0x06 = u.bits

/-- The register of a station as it is, or will be at the end of the pulse in progress. -/
def outsidePulse (n : Station) : UInt16 :=
  match (s.isr n).pulse with
  | some (irq, isrVal) => isrVal &&& irq.keep
  | none => s.reg n

end State

/-- The updates that are still to be written. -/
def RecvPc.pending : RecvPc → List (Station × Update)
  | .idle => []
  | .read todo => todo
  | .write n u _ todo => (n, u) :: todo

/-- A command writes to a register outside the pulses of that register, or in one that will leave
the bits as the command wants them. -/
def RecvPc.WritesApart (pulse : Station → Option (Irq × UInt16)) : RecvPc → Prop
  | .write n u _ _ => ∀ x ∈ pulse n, x.2 &&& x.1.keep &&& 0x06 = u.bits
  | .idle => True
  | .read _ => True

/-- A pulse does not start on a masked interrupt. -/
def IsrPc.KeepsMask (masked : Prop) : IsrPc → Prop
  | .test st (irq :: _) => st &&& irq.bit ≠ 0 → irq ≠ .pos → ¬ masked
  | .test _ [] => True
  | .status => True
  | .set .. => True
  | .clear .. => True

instance (pulse : Station → Option (Irq × UInt16)) :
    (pc : RecvPc) → Decidable (pc.WritesApart pulse)
  | .write n u _ _ =>
    inferInstanceAs (Decidable (∀ x ∈ pulse n, x.2 &&& x.1.keep &&& 0x06 = u.bits))
  | .idle => .isTrue trivial
  | .read _ => .isTrue trivial

instance (masked : Prop) [Decidable masked] : (pc : IsrPc) → Decidable (pc.KeepsMask masked)
  | .test _ (_ :: _) => inferInstanceAs (Decidable (_ → _ → ¬ _))
  | .test _ [] => .isTrue trivial
  | .status => .isTrue trivial
  | .set .. => .isTrue trivial
  | .clear .. => .isTrue trivial

namespace State

/-- The last command masks the interrupts 1 and 2 of a station, and has written so. -/
def Masked (s : State) (n : Station) : Prop :=
  required s.posTestItem n = some .set ∧ (n, .set) ∉ s.recv.pending

instance (s : State) (n : Station) : Decidable (s.Masked n) := inferInstanceAs (Decidable (_ ∧ _))

end State

/-- The step does not disturb the masks. -/
def Undisturbed (s : State) : Label → Prop
  | .recv => s.recv.WritesApart fun n => (s.isr n).pulse
  | .isr n => (s.isr n).KeepsMask (s.Masked n)
  | .command _ => True
  | .status .. => True

instance (s : State) : (a : Label) → Decidable (Undisturbed s a)
  | .recv => inferInstanceAs (Decidable (RecvPc.WritesApart _ _))
  | .isr _ => inferInstanceAs (Decidable (IsrPc.KeepsMask _ _))
  | .command _ => .isTrue trivial
  | .status .. => .isTrue trivial

/-! ## The bits of a register -/

@[simp] lemma Update.apply_bits (u : Update) (v : UInt16) : u.apply v &&& 0x06 = u.bits := by
  cases u with
  | set =>
    rw [apply, bits, ← UInt16.toBitVec_inj]
    ext i
    simp only [UInt16.toBitVec_and, UInt16.toBitVec_or, BitVec.getElem_and, BitVec.getElem_or]
    cases v.toBitVec[i] <;> simp
  | clear =>
    rw [apply, UInt16.and_assoc]
    exact UInt16.and_zero

/-- A pulse keeps the bits that are cleared, and the pulse of interrupt 0 the others as well. -/
lemma Irq.keep_bits {irq : Irq} {u : Update} {v : UInt16} (hv : v &&& 0x06 = u.bits)
    (h : irq = .pos ∨ u = .clear) : v &&& irq.keep &&& 0x06 = u.bits := by
  have hcomm : v &&& irq.keep &&& 0x06 = u.bits &&& irq.keep := by
    rw [UInt16.and_assoc, UInt16.and_comm irq.keep, ← UInt16.and_assoc, hv]
  rw [hcomm]
  rcases h with rfl | rfl
  · cases u <;> decide
  · cases irq <;> decide

/-- A command has an update for each register of which it requires something. -/
lemma mem_recvPosTestCmd {item : UInt32} {n : Station} {u : Update} :
    (n, u) ∈ recvPosTestCmd item ↔ required item n = some u := by
  unfold recvPosTestCmd required
  cases n <;> cases u <;> grind

/-! ## The masks over all runs -/

namespace State

variable {s s' : State} {n m : Station}

lemma outsidePulse_of_none (h : (s.isr n).pulse = none) : s.outsidePulse n = s.reg n := by
  simp [outsidePulse, h]

lemma outsidePulse_of_some (irq : Irq) (v : UInt16) (h : (s.isr n).pulse = some (irq, v)) :
    s.outsidePulse n = v &&& irq.keep := by
  simp [outsidePulse, h]

@[simp] lemma outsidePulse_recvGoto (pc : RecvPc) :
    (s.recvGoto pc).outsidePulse n = s.outsidePulse n := rfl

lemma outsidePulse_setReg_of_ne (h : n ≠ m) (v : UInt16) :
    (s.setReg m v).outsidePulse n = s.outsidePulse n := by
  simp [outsidePulse, setReg, Function.update_of_ne h]

lemma outsidePulse_isrGoto_of_ne (h : n ≠ m) (pc : IsrPc) :
    (s.isrGoto m pc).outsidePulse n = s.outsidePulse n := by
  simp [outsidePulse, isrGoto, Function.update_of_ne h]

lemma outsidePulse_write_of_ne (h : n ≠ m) (v : UInt16) (pc : IsrPc) :
    ((s.setReg m v).isrGoto m pc).outsidePulse n = s.outsidePulse n := by
  rw [outsidePulse_isrGoto_of_ne h, outsidePulse_setReg_of_ne h]

/-- The invariant: the updates still to come are the last of the command's, and the others are in
the registers, or will be after the pulse in progress. -/
structure Inv (s : State) : Prop where
  pending : s.recv.pending <:+ recvPosTestCmd s.posTestItem
  masks : ∀ n u, required s.posTestItem n = some u → (n, u) ∉ s.recv.pending →
    s.outsidePulse n &&& 0x06 = u.bits

namespace Inv

lemma init (reg : Station → UInt16) : (init reg).Inv where
  pending := List.nil_suffix
  masks := by
    intro n u hreq
    simp [required, Mask.init] at hreq

/-- A step of the interrupt task of station `m` that keeps what its register is outside a pulse. -/
lemma frame_isr (m : Station) (h : s.Inv) (hrecv : s'.recv = s.recv)
    (hitem : s'.posTestItem = s.posTestItem)
    (hother : ∀ n ≠ m, s'.outsidePulse n = s.outsidePulse n)
    (hself : ∀ u, required s.posTestItem m = some u → (m, u) ∉ s.recv.pending →
      s.outsidePulse m &&& 0x06 = u.bits → s'.outsidePulse m &&& 0x06 = u.bits) : s'.Inv where
  pending := by
    rw [hrecv, hitem]
    exact h.pending
  masks := by
    intro n u hreq hmem
    rw [hitem] at hreq
    rw [hrecv] at hmem
    by_cases hn : n = m
    · subst hn
      exact hself u hreq hmem (h.masks n u hreq hmem)
    · rw [hother n hn]
      exact h.masks n u hreq hmem

lemma stepRecv (h : s.Inv) (hs : s.stepRecv = some s')
    (hok : s.recv.WritesApart fun n => (s.isr n).pulse) : s'.Inv := by
  have hpend := h.pending
  unfold State.stepRecv at hs
  split at hs
  case h_1 => cases hs
  case h_2 hp =>
    cases hs
    refine ⟨List.nil_suffix, fun n u hreq _ => h.masks n u hreq ?_⟩
    simp [hp, RecvPc.pending]
  case h_3 n u todo hp =>
    cases hs
    rw [hp] at hpend
    refine ⟨hpend, fun m v hreq hmem => h.masks m v hreq ?_⟩
    rw [hp]
    exact hmem
  case h_4 n u isrVal todo hp =>
    cases hs
    rw [hp] at hpend hok
    refine ⟨(List.suffix_cons _ _).trans hpend, fun m v hreq hmem => ?_⟩
    by_cases hm : m = n
    · subst hm
      obtain rfl : u = v := by
        have hu := mem_recvPosTestCmd.1 (hpend.subset List.mem_cons_self)
        exact Option.some.inj (hu.symm.trans hreq)
      set s' := (s.setReg m (u.apply isrVal)).recvGoto (.read todo) with hs'
      cases hpulse : (s.isr m).pulse with
      | none =>
        rw [outsidePulse_of_none (s := s') hpulse]
        simp [hs', setReg, recvGoto]
      | some x =>
        obtain ⟨irq, w⟩ := x
        rw [outsidePulse_of_some (s := s') irq w hpulse]
        exact hok (irq, w) hpulse
    · rw [outsidePulse_recvGoto, outsidePulse_setReg_of_ne hm]
      refine h.masks m v hreq ?_
      rw [hp]
      simp only [RecvPc.pending, List.mem_cons, Prod.mk.injEq, not_or]
      exact ⟨fun he => hm he.1, hmem⟩

/-- A step of an interrupt task between two pulses. -/
lemma isrGoto (h : s.Inv) {pc : IsrPc} (hold : (s.isr n).pulse = none) (hnew : pc.pulse = none) :
    (s.isrGoto n pc).Inv := by
  refine h.frame_isr n rfl rfl (fun m hm => outsidePulse_isrGoto_of_ne hm _) fun u _ _ hbits => ?_
  rw [outsidePulse_of_none hold] at hbits
  rw [outsidePulse_of_none (by simpa [State.isrGoto] using hnew)]
  exact hbits

/-- A pulse starts. -/
lemma pulse (h : s.Inv) {status : UInt16} {irq : Irq} {todo : List Irq}
    (hp : s.isr n = .test status (irq :: todo)) (hbit : status &&& irq.bit ≠ 0)
    (hok : (s.isr n).KeepsMask (s.Masked n)) :
    (s.isrGoto n (.set status irq (s.reg n) todo)).Inv := by
  refine h.frame_isr n rfl rfl (fun m hm => outsidePulse_isrGoto_of_ne hm _)
    fun u hreq hmem hold => ?_
  rw [outsidePulse_of_none (by simp [hp, IsrPc.pulse])] at hold
  rw [outsidePulse_of_some irq (s.reg n) (by simp [State.isrGoto, IsrPc.pulse])]
  refine Irq.keep_bits hold ?_
  -- a set bit is only safe from the pulse of interrupt 0
  rw [hp] at hok
  cases u with
  | clear => exact .inr rfl
  | set =>
    left
    by_contra hirq
    exact hok hbit hirq ⟨hreq, hmem⟩

lemma stepIsr (h : s.Inv) (hs : s.stepIsr n = some s')
    (hok : (s.isr n).KeepsMask (s.Masked n)) : s'.Inv := by
  unfold State.stepIsr at hs
  split at hs
  case h_1 => cases hs
  case h_2 status hp =>
    cases hs
    exact h.isrGoto (by simp [hp, IsrPc.pulse]) rfl
  case h_3 status irq todo hp =>
    split at hs
    case isFalse =>
      cases hs
      exact h.isrGoto (by simp [hp, IsrPc.pulse]) rfl
    case isTrue hbit =>
      cases hs
      exact h.pulse hp hbit hok
  case h_4 status irq isrVal todo hp =>
    cases hs
    refine h.frame_isr n rfl rfl (fun m hm => outsidePulse_write_of_ne hm _ _)
      fun u _ _ hold => ?_
    rw [outsidePulse_of_some irq isrVal (by simp [hp, IsrPc.pulse])] at hold
    rw [outsidePulse_of_some irq isrVal (by simp [State.isrGoto, IsrPc.pulse])]
    exact hold
  case h_5 status irq isrVal todo hp =>
    cases hs
    refine h.frame_isr n rfl rfl (fun m hm => outsidePulse_write_of_ne hm _ _)
      fun u _ _ hold => ?_
    rw [outsidePulse_of_some irq isrVal (by simp [hp, IsrPc.pulse])] at hold
    rw [outsidePulse_of_none (by simp [State.isrGoto, IsrPc.pulse])]
    simpa [State.isrGoto, setReg] using hold

theorem step {a : Label} (h : s.Inv) (hs : s.step a = some s') (hok : Undisturbed s a) :
    s'.Inv := by
  cases a with
  | command item =>
    obtain ⟨-, ⟨⟩⟩ := Option.ite_none_right_eq_some.1 hs
    refine ⟨List.suffix_refl _, fun n u hreq hmem => ?_⟩
    exact absurd (mem_recvPosTestCmd.2 hreq) hmem
  | recv => exact h.stepRecv hs hok
  | status n status =>
    obtain ⟨hp, ⟨⟩⟩ := Option.ite_none_right_eq_some.1 hs
    exact h.isrGoto (by simp [hp, IsrPc.pulse]) rfl
  | isr n => exact h.stepIsr hs hok

lemma masksFollow (h : s.Inv) : s.MasksFollow := by
  intro hidle n u hreq hpulse
  have hbits := h.masks n u hreq (by simp [hidle, RecvPc.pending])
  rwa [outsidePulse_of_none hpulse] at hbits

end Inv

end State

namespace State

variable {s : State} {n : Station}

/-- A pulse ends with the value it has read. -/
lemma pulse_ends {irq : Irq} {v : UInt16} (h : (s.isr n).pulse = some (irq, v)) :
    ∃ as s', exec step s as = some s' ∧ s'.recv = s.recv ∧ s'.posTestItem = s.posTestItem ∧
      (s'.isr n).pulse = none ∧ s'.reg n = v &&& irq.keep := by
  cases hp : s.isr n with
  | status => simp [hp, IsrPc.pulse] at h
  | test st todo => simp [hp, IsrPc.pulse] at h
  | set st irq' v' todo =>
    obtain ⟨rfl, rfl⟩ : irq' = irq ∧ v' = v := by simpa [hp, IsrPc.pulse] using h
    refine ⟨[.isr n, .isr n], ((s.setReg n (v' ||| irq'.bit)).setReg n (v' &&& irq'.keep)).isrGoto n
      (.test st todo), ?_, rfl, rfl, ?_, ?_⟩
    · simp [exec_cons, step, stepIsr, hp, isrGoto, setReg]
    · simp [isrGoto, IsrPc.pulse]
    · simp [isrGoto, setReg]
  | clear st irq' v' todo =>
    obtain ⟨rfl, rfl⟩ : irq' = irq ∧ v' = v := by simpa [hp, IsrPc.pulse] using h
    refine ⟨[.isr n], (s.setReg n (v' &&& irq'.keep)).isrGoto n (.test st todo), ?_, rfl, rfl,
      ?_, ?_⟩
    · simp [exec_cons, step, stepIsr, hp]
    · simp [isrGoto, IsrPc.pulse]
    · simp [isrGoto, setReg]

/-- Once the command has returned, a pulse that has read other bits destroys the masks. -/
theorem masks_lost {irq : Irq} {v : UInt16} {u : Update} (hidle : s.recv = .idle)
    (hreq : required s.posTestItem n = some u) (hpulse : (s.isr n).pulse = some (irq, v))
    (hv : v &&& irq.keep &&& 0x06 ≠ u.bits) :
    ∃ as s', exec step s as = some s' ∧ ¬ s'.MasksFollow := by
  obtain ⟨as, s', has, hrecv, hitem, hnone, hreg⟩ := pulse_ends hpulse
  refine ⟨as, s', has, fun hfollow => hv ?_⟩
  rw [← hreg]
  exact hfollow (hrecv.trans hidle) n u (hitem ▸ hreq) hnone

end State

/-- In a run in which no step disturbs the masks, they are as the last command requires. -/
theorem masks_follow (reg : Station → UInt16) (s : State)
    (h : Reach State.step Undisturbed (init reg) s) : s.MasksFollow := by
  have hinv : s.Inv := h.invariant (.init reg) fun _ _ _ hI hok hs => hI.step hs hok
  exact hinv.masksFollow

/-- Test 3 and then test 2 for station 1, with a kick command acknowledged in between and a sample
at the kick tube after it. -/
def twoTests : List Label :=
  ([.command 3, .recv, .recv, .recv, .recv, .recv] : List Label)
    ++ ([.status .one 2, .isr .one, .isr .one, .isr .one, .isr .one, .isr .one, .isr .one] :
      List Label)
    ++ ([.command 2, .recv, .recv, .recv, .recv, .recv] : List Label)
    ++ ([.status .one 1, .isr .one, .isr .one, .isr .one, .isr .one, .isr .one, .isr .one] :
      List Label)

def afterTwoTests : State := (exec State.step (init fun _ => 0) twoTests).getD (init fun _ => 0)

theorem masks_follow_twoTests : afterTwoTests.MasksFollow :=
  masks_follow (fun _ => 0) afterTwoTests
    (reach_of_exec twoTests (by decide +kernel) (exec_getD (by decide +kernel) _))

/-- A kick command is pending at station 1 when test 2 masks its interrupt, and is acknowledged
afterwards. -/
def lateAcknowledge : List Label :=
  ([.status .one 2, .command 2, .recv, .recv, .recv, .recv, .recv] : List Label)
    ++ ([.isr .one, .isr .one, .isr .one, .isr .one, .isr .one, .isr .one] : List Label)

def afterLateAcknowledge : State :=
  (exec State.step (init fun _ => 0) lateAcknowledge).getD (init fun _ => 0)

/-- The masks do not always follow the command: the acknowledgement has unmasked the kick command
of station 1. -/
theorem acknowledge_unmasks : ¬ ∀ (reg : Station → UInt16) (s : State),
    Reach State.step AnyStep (init reg) s → s.MasksFollow := by
  intro h
  have hmasks := h (fun _ => 0) afterLateAcknowledge
    (reach_any lateAcknowledge (exec_getD (by decide +kernel) _))
  have hbits := hmasks (by decide +kernel) .one .set (by decide +kernel) (by decide +kernel)
  have hreg : afterLateAcknowledge.reg .one = 0x04 := by decide +kernel
  rw [hreg] at hbits
  revert hbits
  decide

end RejectProcess.Mask
