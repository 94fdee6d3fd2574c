import Mathlib.Data.List.GetD
import Mathlib.Data.UInt
import Mathlib.Tactic.Ring

/-!
# Bytes

Little-endian numbers as lists of bytes, and byte memories with blocks stored at and loaded
from an offset.
-/

namespace RejectProcess.Lib

/-! ## Little-endian numbers -/

/-- The number that a list of bytes represents, the first byte being the lowest. -/
def ofLE : List UInt8 → ℕ
  | [] => 0
  | b :: bs => b.toNat + 256 * ofLE bs

/-- The `n` lowest bytes of a number, the lowest first. -/
def toLE : ℕ → ℕ → List UInt8
  | 0, _ => []
  | n + 1, x => UInt8.ofNat x :: toLE n (x / 256)

@[simp] lemma length_toLE (n x : ℕ) : (toLE n x).length = n := by
  induction n generalizing x with
  | zero => rfl
  | succ n ih => simp [toLE, ih]

lemma ofLE_lt (bs : List UInt8) : ofLE bs < 256 ^ bs.length := by
  induction bs with
  | nil => simp [ofLE]
  | cons b bs ih =>
    have hb := b.toNat_lt
    rw [List.length_cons, Nat.pow_succ, ofLE]
    omega

lemma ofLE_toLE (n x : ℕ) : ofLE (toLE n x) = x % 256 ^ n := by
  induction n generalizing x with
  | zero => simp [toLE, ofLE, Nat.mod_one]
  | succ n ih =>
    have hpow : 256 ^ (n + 1) = 256 * 256 ^ n := by ring
    rw [toLE, ofLE, ih, UInt8.toNat_ofNat', hpow, Nat.mod_mul]

lemma toLE_ofLE (bs : List UInt8) : toLE bs.length (ofLE bs) = bs := by
  induction bs with
  | nil => rfl
  | cons b bs ih =>
    have hb := b.toNat_lt
    have hdiv : (b.toNat + 256 * ofLE bs) / 256 = ofLE bs := by omega
    have hhead : UInt8.ofNat (b.toNat + 256 * ofLE bs) = b := by
      rw [← UInt8.toNat_inj, UInt8.toNat_ofNat']
      omega
    rw [List.length_cons, ofLE, toLE, hdiv, ih, hhead]

/-- The four bytes of a 32-bit word. -/
def le32 (x : UInt32) : List UInt8 := toLE 4 x.toNat

/-- The 32-bit word of four bytes. -/
def ofLe32 (bs : List UInt8) : UInt32 := UInt32.ofNat (ofLE bs)

@[simp] lemma length_le32 (x : UInt32) : (le32 x).length = 4 := length_toLE 4 _

@[simp] lemma ofLe32_le32 (x : UInt32) : ofLe32 (le32 x) = x := by
  have hx := x.toNat_lt
  rw [ofLe32, le32, ofLE_toLE, Nat.mod_eq_of_lt (by omega), UInt32.ofNat_toNat]

lemma le32_ofLe32 {bs : List UInt8} (h : bs.length = 4) : le32 (ofLe32 bs) = bs := by
  have hlt := ofLE_lt bs
  rw [h] at hlt
  rw [le32, ofLe32, UInt32.toNat_ofNat', Nat.mod_eq_of_lt (by omega), ← h, toLE_ofLE]

/-! ## Byte memories -/

/-- The bytes from some address on. -/
abbrev Mem := ℕ → UInt8

/-- Store a block of bytes at an offset. -/
def store (m : Mem) (off : ℕ) (bs : List UInt8) : Mem :=
  fun i => if off ≤ i then bs.getD (i - off) (m i) else m i

/-- Load a block of `n` bytes from an offset. -/
def load (m : Mem) (off n : ℕ) : List UInt8 := (List.range n).map fun i => m (off + i)

@[simp] lemma length_load (m : Mem) (off n : ℕ) : (load m off n).length = n := by
  simp [load]

lemma load_add (m : Mem) (off n n' : ℕ) :
    load m off (n + n') = load m off n ++ load m (off + n) n' := by
  simp [load, List.range_add, Nat.add_assoc]

/-- A store behind a block leaves the block alone. -/
lemma load_store_of_le (m : Mem) {off n off' : ℕ} (bs : List UInt8) (h : off + n ≤ off') :
    load (store m off' bs) off n = load m off n := by
  refine List.map_congr_left ?_
  intro i hi
  have := List.mem_range.1 hi
  rw [store, if_neg (by omega)]

/-- A store before a block leaves the block alone. -/
lemma load_store_of_ge (m : Mem) {off n off' : ℕ} (bs : List UInt8) (h : off' + bs.length ≤ off) :
    load (store m off' bs) off n = load m off n := by
  refine List.map_congr_left ?_
  intro i _
  rw [store, if_pos (by omega), List.getD_eq_default _ _ (by omega)]

/-- What has been stored can be loaded. -/
lemma load_store_self (m : Mem) (off : ℕ) (bs : List UInt8) :
    load (store m off bs) off bs.length = bs := by
  refine List.ext_getElem (by simp) ?_
  intro i hi hi'
  simp [load, store, List.getElem?_eq_getElem hi']

/-- The block before the store and the block stored. -/
lemma load_store_append (m : Mem) (off n : ℕ) (bs : List UInt8) :
    load (store m (off + n) bs) off (n + bs.length) = load m off n ++ bs := by
  rw [load_add, load_store_of_le m bs (Nat.le_refl _), load_store_self]

end RejectProcess.Lib
