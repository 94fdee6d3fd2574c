import RejectProcess.Sample.PositionReport

/-!
# The delay between a kick command and its feedback

`dis_kp1_kft1_tsk` and `dis_kp2_kft2_tsk` take the difference of two times in 32-bit arithmetic
and report it in units of 50 microseconds.  The division comes after the difference was cut to
32 bits, so the report is right as long as the difference itself fits in 32 bits.
-/

namespace RejectProcess.Position

open Lib Publish

/-- `ConvertCalcTime` where `long` has 32 bits and wraps. -/
def convertCalcTime32 (curTime cTime : Timeval) : UInt32 :=
  (1000000 * (Int32.ofInt curTime.tvSec - Int32.ofInt cTime.tvSec)
    + (Int32.ofInt curTime.tvUsec - Int32.ofInt cTime.tvUsec)).toUInt32

/-- A wrap of the signed sum does not show in the 32 bits of `ConvertCalcTime`. -/
lemma convertCalcTime32_eq (curTime cTime : Timeval) :
    convertCalcTime32 curTime cTime = convertCalcTime curTime cTime := by
  have hword : ∀ z : ℤ, (Int32.ofInt z).toUInt32 = UInt32.ofInt z := by
    intro z
    rw [← UInt32.toNat_inj, UInt32.ofInt, UInt32.toNat_ofNat']
    change (BitVec.ofInt 32 z).toNat = _
    rw [BitVec.toNat_ofInt]
    push_cast
    omega
  have hfactor : (1000000 : Int32) = Int32.ofInt 1000000 := rfl
  rw [convertCalcTime32, convertCalcTime, hfactor, ← Int32.ofInt_sub, ← Int32.ofInt_sub,
    ← Int32.ofInt_mul, ← Int32.ofInt_add, hword]

/-- `ConvertCalcTime` is the difference in microseconds, modulo `2 ^ 32`. -/
lemma toNat_convertCalcTime (curTime cTime : Timeval) :
    ((convertCalcTime curTime cTime).toNat : ℤ) = (curTime.micros - cTime.micros) % 2 ^ 32 := by
  have hdiff : 1000000 * (curTime.tvSec - cTime.tvSec) + (curTime.tvUsec - cTime.tvUsec) =
      curTime.micros - cTime.micros := by
    rw [Timeval.micros, Timeval.micros]
    omega
  rw [convertCalcTime, hdiff, UInt32.ofInt, UInt32.toNat_ofNat']
  omega

/-- The delay is exact if and only if the difference in microseconds fits in 32 bits. -/
lemma toNat_calcDis_eq_iff {cur : Timeval} {x : SamplePosition}
    (hle : x.cTime.micros ≤ cur.micros) :
    ((calcDis (.time cur) x).toNat : ℤ) = (cur.micros - x.cTime.micros) / 50 ↔
      cur.micros - x.cTime.micros < 2 ^ 32 := by
  have hdis : ((calcDis (.time cur) x).toNat : ℤ) =
      (cur.micros - x.cTime.micros) % 2 ^ 32 / 50 := by
    rw [calcDis, UInt32.toNat_div]
    push_cast
    rw [toNat_convertCalcTime]
    rfl
  rw [hdis]
  omega

namespace Line

/-- What the position task reports with a record is measured against that record. -/
structure Measured (L : Line) : Prop extends Inv L where
  atHand : ∀ e r, L.pc.event = some e → L.pc.record = some r → L.dis = calcDis L.cur r.sample
  reported : ∀ rep ∈ L.reports, ∀ r, rep.record = some r →
    rep.dis = calcDis rep.cur r.sample

variable {L L' : Line} {l : PosList} {a : Label}

namespace Measured

lemma init (l : PosList) (memory : Buffer → PositionArray) : (Line.init l memory).Measured where
  toInv := .init l memory
  atHand := by simp [Line.init, DisPc.event]
  reported := by simp [Line.init]

/-- A step of the position task with no record at hand, or one of somebody else. -/
lemma frame (h : L.Measured) (hinv : L'.Inv) (hreports : L'.reports = L.reports)
    (hat : ∀ e r, L'.pc.event = some e → L'.pc.record = some r →
      L'.dis = calcDis L'.cur r.sample) : L'.Measured where
  toInv := hinv
  atHand := hat
  reported := by
    rw [hreports]
    exact h.reported

lemma step (h : L.Measured) (hs : Step l L a L') : L'.Measured := by
  have hinv := h.toInv.step hs
  cases hs with
  | store | produce | fill | link | event | post | command => exact h.frame hinv rfl h.atHand
  | pend e rest hp hm => exact h.frame hinv rfl (by simp [pend, DisPc.record])
  | empty e hp => exact h.frame hinv rfl (by simp [goto, DisPc.record])
  | notEmpty e hp => exact h.frame hinv rfl (by simp [goto, DisPc.record])
  | plist e p rest hp => exact h.frame hinv rfl (by simp [goto, DisPc.record])
  | compute e p hp => exact h.frame hinv rfl (by simp [compute, DisPc.record])
  | delete e p hp =>
    -- the record that is taken is the one `dis` was computed from
    refine h.frame hinv rfl ?_
    intro e' r he hr
    obtain rfl : e = e' := by simpa [delete, DisPc.event] using he
    obtain rfl : L.record p = r := by simpa [delete, DisPc.record] using hr
    exact h.computed e p hp
  | recycle e p r hp =>
    refine h.frame hinv rfl ?_
    intro e' r' he hr
    exact h.atHand e' r' (by simpa [recycle, hp, DisPc.event] using he)
      (by simpa [recycle, hp, DisPc.record] using hr)
  | report e r hp =>
    refine ⟨hinv, by simp [postReport, DisPc.record], ?_⟩
    intro rep hrep r' hr'
    rcases List.mem_append.1 hrep with hold | hnew
    · exact h.reported rep hold r' hr'
    · obtain rfl := List.mem_singleton.1 hnew
      exact h.atHand e r' (by simp [hp, DisPc.event]) (by simpa [hp, DisPc.record] using hr')

end Measured

end Line

/-- In every run, a report made from a record at `ref` and an event for which the position task has
read the time `cur` tells the time between them in units of 50 microseconds exactly when the time
in microseconds fits in 32 bits. -/
theorem delay_exact_iff (memory : PosList → Buffer → PositionArray) (n : Station) (s : State)
    (h : Reach State.step AnyStep (init memory) s) (rep : Report)
    (hrep : rep ∈ (s.line (.kpKft n)).reports) (r : Stored) (hr : rep.record = some r)
    (cur : Timeval) (hcur : rep.cur = .time cur)
    (hle : r.sample.cTime.micros ≤ cur.micros) :
    rep.dis = convertCalcTime32 cur r.sample.cTime / 50 ∧
      ((rep.dis.toNat : ℤ) = (cur.micros - r.sample.cTime.micros) / 50 ↔
        cur.micros - r.sample.cTime.micros < 2 ^ 32) := by
  have hinv : (s.line (.kpKft n)).Measured :=
    line_invariant h (.init _ (memory _)) fun _ _ _ _ hI hs => hI.step hs
  have hdis := hinv.reported rep hrep r hr
  rw [hcur] at hdis
  constructor
  · rw [hdis, calcDis, convertCalcTime32_eq]
  · rw [hdis]
    exact toNat_calcDis_eq_iff hle

/-- Test 3: a kick command at time 0 is stored, and its feedback comes at `t`. -/
def feedbackAt (t : Timeval) : List Label :=
  [.posTest 3, .cmd .one { tvSec := 0, tvUsec := 0 }, .isr .one]
    ++ List.replicate 4 (.writeKp .one) ++ [.feedback .one t, .isr .one]
    ++ List.replicate 7 (.dis (.kpKft .one))

def afterFeedbackAt (t : Timeval) : State :=
  (exec State.step (init zeroMemory) (feedbackAt t)).getD (init zeroMemory)

/-- The record of that command. -/
def commandAtZero : Stored where
  buf := 0
  sample := { count := 1, wheelCode := 0, cTime := { tvSec := 0, tvUsec := 0 } }
  session := 1

/-- The report that a feedback at `t` leads to. -/
def reportAt (t : Timeval) (dis : UInt32) : Report where
  item := 3
  dis := dis
  event := { stamp := .time t, session := 1 }
  record := some commandAtZero
  cur := .time t

theorem delay_exact_five_ms :
    (100 : UInt32) =
        convertCalcTime32 { tvSec := 0, tvUsec := 5000 } commandAtZero.sample.cTime / 50
      ∧ (((100 : UInt32).toNat : ℤ) = (5000 - 0) / 50 ↔ (5000 - 0 : ℤ) < 2 ^ 32) :=
  delay_exact_iff zeroMemory .one (afterFeedbackAt { tvSec := 0, tvUsec := 5000 })
    (reach_any _ (exec_getD (by decide +kernel) _)) (reportAt { tvSec := 0, tvUsec := 5000 } 100)
    (by decide +kernel) commandAtZero rfl { tvSec := 0, tvUsec := 5000 } rfl (by decide)

/-- A time that `gettimeofday` returns where `tv_sec` has 32 bits. -/
def Timeval.Normalised (t : Timeval) : Prop :=
  0 ≤ t.tvSec ∧ t.tvSec < 2 ^ 31 ∧ 0 ≤ t.tvUsec ∧ t.tvUsec < 1000000

/-- The report tells the time between its record and what was read for its event in units of 50
microseconds, if that number fits in 32 bits. -/
def Report.DelayExact (rep : Report) : Prop :=
  ∀ r cur, rep.record = some r → rep.cur = .time cur → r.sample.cTime.Normalised →
    cur.Normalised → r.sample.cTime.micros ≤ cur.micros →
      (cur.micros - r.sample.cTime.micros) / 50 < 2 ^ 32 →
        (rep.dis.toNat : ℤ) = (cur.micros - r.sample.cTime.micros) / 50

/-- The feedback comes 4295 seconds after the command, and the report says 654, which is not
quite 33 milliseconds. -/
theorem not_delayExact_late : ¬ ∀ (memory : PosList → Buffer → PositionArray) (s : State),
    Reach State.step AnyStep (init memory) s →
      ∀ n, ∀ rep ∈ (s.line (.kpKft n)).reports, rep.DelayExact := by
  intro h
  have hexact := h zeroMemory (afterFeedbackAt { tvSec := 4295, tvUsec := 0 })
    (reach_any _ (exec_getD (by decide +kernel) _)) .one
    (reportAt { tvSec := 4295, tvUsec := 0 } 654) (by decide +kernel)
  have hdis := hexact commandAtZero { tvSec := 4295, tvUsec := 0 } rfl rfl
    (by unfold Timeval.Normalised; decide) (by unfold Timeval.Normalised; decide)
    (by decide) (by decide)
  exact absurd hdis (by decide)

end RejectProcess.Position
