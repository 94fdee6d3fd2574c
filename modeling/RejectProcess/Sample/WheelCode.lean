import RejectProcess.Lib.Word
import RejectProcess.Sample.Array

/-!
# What the wheel code comparison decides

`search_wheelcode_array` subtracts 64-bit wheel codes and 32-bit delays as unsigned words and
passes the difference through a 32-bit `abs`.  This file computes the outcome: the test looks
at the difference of the exact integers, reduced modulo `2 ^ 32` into `[-2 ^ 31, 2 ^ 31)`.
-/

namespace RejectProcess

open Lib

/-- The configured distance from the camera to kick tube 1, as a signed integer. -/
def c1Kt1DistanceExact (cfg : SysConfig) : ℤ :=
  if cfg.video2Valid ≠ 0 then cfg.c1Kt1Delay.toNat - cfg.c1C2Delay.toNat else cfg.c1Kt1Delay.toNat

/-- The configured distance from the camera to the kick tube of a station, as a signed
integer. -/
def kickDistance (cfg : SysConfig) : Station → ℤ
  | .one => c1Kt1DistanceExact cfg
  | .two => c1Kt1DistanceExact cfg + cfg.kt1Kp1Delay.toNat + cfg.kp1Kt2Delay.toNat

/-- Half of the sample length, the width of the comparison on either side. -/
def halfLength (cfg : SysConfig) : ℕ := cfg.sampleLength.toNat / 2

/-- The comparison after `abs` is a comparison of absolute values: `INT_MIN` fails it too. -/
lemma absInt_le_iff (x : UInt64) (len : UInt32) :
    absInt x ≤ (len / 2).toUInt64 ↔ ((x.toNat : ℤ).bmod (2 ^ 32)).natAbs ≤ len.toNat / 2 := by
  have hlen := len.toNat_lt
  have hdiv : (len / 2).toUInt64.toNat = len.toNat / 2 := by simp
  rw [absInt, UInt64.le_iff_toNat_le, toNat_abs, toInt_toInt32_toInt64, hdiv]
  split <;> omega

lemma modEq_c1Kt1Distance (cfg : SysConfig) :
    ((c1Kt1Distance cfg).toUInt64.toNat : ℤ) ≡ c1Kt1DistanceExact cfg [ZMOD 2 ^ 32] := by
  simp only [c1Kt1Distance, c1Kt1DistanceExact, UInt32.toNat_toUInt64]
  split
  · exact modEq_sub_uint32 _ _
  · exact Int.ModEq.refl _

/-- The word that `search_wheelcode_array` passes to `abs` agrees with the exact difference
modulo `2 ^ 32`: neither the `__u32` underflow of the delay nor the `__u64` wrap of the
counter difference changes its residue. -/
lemma wheelCodeAbs_eq (cfg : SysConfig) (n : Station) (w : UInt64) (s : SampleResult) :
    ∃ x : UInt64, wheelCodeAbs cfg n w s = absInt x ∧
      (x.toNat : ℤ) ≡ w.toNat - s.wheelCode.toNat - kickDistance cfg n [ZMOD 2 ^ 32] := by
  have hone : ((w - s.wheelCode - (c1Kt1Distance cfg).toUInt64).toNat : ℤ)
      ≡ w.toNat - s.wheelCode.toNat - c1Kt1DistanceExact cfg [ZMOD 2 ^ 32] :=
    (modEq_sub_uint64 _ _).trans ((modEq_sub_uint64 _ _).sub (modEq_c1Kt1Distance cfg))
  cases n with
  | one => exact ⟨_, rfl, hone⟩
  | two =>
    refine ⟨_, rfl, (modEq_sub_uint64 _ _).trans ?_⟩
    have hsub := ((modEq_sub_uint64 _ cfg.kt1Kp1Delay.toUInt64).trans
      (hone.sub (Int.ModEq.refl _))).sub (Int.ModEq.refl (cfg.kp1Kt2Delay.toUInt64.toNat : ℤ))
    have hexact : (w.toNat - s.wheelCode.toNat - kickDistance cfg .two : ℤ)
        = w.toNat - s.wheelCode.toNat - c1Kt1DistanceExact cfg
          - cfg.kt1Kp1Delay.toUInt64.toNat - cfg.kp1Kt2Delay.toUInt64.toNat := by
      simp only [kickDistance, UInt32.toNat_toUInt64]
      omega
    rw [hexact]
    exact hsub

/-- The test of `search_wheelcode_array` compares the signed residue of the exact difference
with half the sample length. -/
lemma wheelCodeTest_iff (cfg : SysConfig) (n : Station) (w : UInt64) (s : SampleResult) :
    wheelCodeTest cfg n w s = true ↔
      ((w.toNat - s.wheelCode.toNat - kickDistance cfg n : ℤ).bmod (2 ^ 32)).natAbs
        ≤ halfLength cfg := by
  obtain ⟨x, hx, hmod⟩ := wheelCodeAbs_eq cfg n w s
  rw [wheelCodeTest, decide_eq_true_iff, hx, absInt_le_iff, bmod_eq_of_modEq hmod]
  rfl

end RejectProcess
