import Mathlib.Algebra.Order.Group.Abs
import Mathlib.Algebra.Order.Ring.Int
import Mathlib.Data.Int.ModEq
import Mathlib.Data.UInt
import Mathlib.Tactic.NormNum

/-!
# Machine words as residues

A fixed-width word stands for an integer up to a multiple of `2 ^ w`.  The subtraction and the
widening of words are congruences, so the value of a word expression modulo `2 ^ 32` is that
of the same expression over the integers; `Int.bmod` picks its signed representative.
-/

namespace RejectProcess.Lib

lemma bmod_eq_of_modEq {a b : ℤ} {n : ℕ} (h : a ≡ b [ZMOD n]) : a.bmod n = b.bmod n := by
  rw [← Int.emod_bmod a n, ← Int.emod_bmod b n, show a % n = b % n from h]

/-- An integer in the signed range is its own representative. -/
lemma bmod_eq_self {a : ℤ} (hlo : -2 ^ 31 ≤ a) (hhi : a < 2 ^ 31) : a.bmod (2 ^ 32) = a := by
  rw [Int.bmod_eq_emod]
  split <;> omega

/-- A residue is short if and only if the integer is close to some multiple of the modulus. -/
lemma natAbs_bmod_le_iff {a : ℤ} {h : ℕ} (hh : 2 * h < 2 ^ 32) :
    (a.bmod (2 ^ 32)).natAbs ≤ h ↔ ∃ k : ℤ, |a - k * 2 ^ 32| ≤ (h : ℤ) := by
  constructor
  · intro hr
    have hdiv := Int.bdiv_add_bmod a (2 ^ 32)
    refine ⟨a.bdiv (2 ^ 32), ?_⟩
    rw [abs_le]
    omega
  · rintro ⟨k, hk⟩
    rw [abs_le] at hk
    have hmod : a ≡ a - k * 2 ^ 32 [ZMOD (2 ^ 32 : ℕ)] := by
      rw [Int.modEq_iff_dvd]
      exact ⟨-k, by push_cast; omega⟩
    rw [bmod_eq_of_modEq hmod, bmod_eq_self (by omega) (by omega)]
    omega

lemma modEq_sub_uint64 (x y : UInt64) :
    ((x - y).toNat : ℤ) ≡ x.toNat - y.toNat [ZMOD 2 ^ 32] := by
  have hy := y.toNat_lt
  rw [UInt64.toNat_sub, Int.ModEq]
  omega

lemma modEq_sub_uint32 (x y : UInt32) :
    ((x - y).toNat : ℤ) ≡ x.toNat - y.toNat [ZMOD 2 ^ 32] := by
  have hy := y.toNat_lt
  rw [UInt32.toNat_sub, Int.ModEq]
  omega

/-- The `int` that a 64-bit word becomes is its signed residue modulo `2 ^ 32`. -/
lemma toInt_toInt32_toInt64 (x : UInt64) :
    x.toInt64.toInt32.toInt = (x.toNat : ℤ).bmod (2 ^ 32) := by
  rw [Int64.toInt_toInt32]
  have h : x.toInt64.toInt = (x.toNat : ℤ).bmod (2 ^ 64) := BitVec.toInt_eq_toNat_bmod _
  rw [h, Int.bmod_bmod_of_dvd (by norm_num)]

/-- The absolute value of a 32-bit `int`, widened to 64 bits without sign.  The least `int`
has none: it stays negative, and widened it lies above every 32-bit number. -/
lemma toNat_abs (i : Int32) :
    i.abs.toInt64.toUInt64.toNat =
      if i.toInt = -2 ^ 31 then 2 ^ 64 - 2 ^ 31 else i.toInt.natAbs := by
  by_cases hmin : i.toInt = -2 ^ 31
  · have hi : i = Int32.minValue := Int32.toInt_inj.1 (by rw [hmin]; rfl)
    subst hi
    rfl
  · have hne : i.toBitVec ≠ BitVec.intMin 32 := by
      intro h
      apply hmin
      change i.toBitVec.toInt = _
      rw [h]
      rfl
    have habs : i.abs.toInt = i.toInt.natAbs := BitVec.toInt_abs_eq_natAbs_of_ne_intMin hne
    have hlt : (i.toInt.natAbs : ℤ) < 2 ^ 31 := by
      rw [← habs]
      exact i.abs.toInt_lt
    have h64 : i.abs.toInt64.toInt = i.toInt.natAbs := by rw [Int32.toInt_toInt64, habs]
    have hmod : i.abs.toInt64.toInt = (i.abs.toInt64.toUInt64.toNat : ℤ).bmod (2 ^ 64) :=
      BitVec.toInt_eq_toNat_bmod _
    have hb := i.abs.toInt64.toUInt64.toNat_lt
    rw [if_neg hmin]
    rw [h64, Int.bmod_eq_emod] at hmod
    split at hmod <;> omega

end RejectProcess.Lib
