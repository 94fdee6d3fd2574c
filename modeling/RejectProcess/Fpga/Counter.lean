import Mathlib.Data.UInt

/-!
# Reading the wheel counter

`fpga_get_current_code` (`fpga/fpga.c`) reads the 64-bit wheel counter in four 16-bit
registers and glues them together.  The counter moves on between the reads.  A carry that falls
between the reads of two neighbouring half-words is counted by one of them only, so the result is
off by a whole round of the lower half-words, and it lies between the values that the counter had
during the call only if the counter itself has gone that far.
-/

namespace RejectProcess

/-! ## The registers -/

/-- `FPGA_WHEELCOUNTER1_REG`: bits 0 to 15 of the counter. -/
def fpgaWheelcounter1Reg : ℕ := 0x96

/-- `FPGA_WHEELCOUNTER3_REG`: bits 32 to 47 of the counter. -/
def fpgaWheelcounter3Reg : ℕ := 0x98

/-- Half-word `j` of a counter value. -/
def halfWord (code : UInt64) (j : ℕ) : UInt16 := UInt16.ofNat (code.toNat / 65536 ^ j)

/-- What the register at an offset shows while the counter stands at `code`: the four wheel
counter registers follow each other from `FPGA_WHEELCOUNTER1_REG` on. -/
def readReg (offset : ℕ) (code : UInt64) : UInt16 := halfWord code (offset - fpgaWheelcounter1Reg)

/-- `a | b << 16`, the half-words being promoted to `int`. -/
def glue (lo hi : UInt16) : Int32 := lo.toUInt32.toInt32 ||| hi.toUInt32.toInt32 <<< 16

/-- The order of the two register reads inside one `FPGA_READ32`, which C leaves open. -/
inductive ReadOrder
  | lowFirst
  | highFirst
deriving DecidableEq, Repr

/-- `FPGA_READ32`, the counter standing at `c` at its first read and at `c'` at its second. -/
def fpgaRead32 (offset : ℕ) (c c' : UInt64) : ReadOrder → Int32
  | .lowFirst => glue (readReg offset c) (readReg (offset + 1) c')
  | .highFirst => glue (readReg offset c') (readReg (offset + 1) c)

/-- The values of the counter at the four register reads of one call: the counter never goes
back. -/
structure Evolution where
  first : UInt64
  second : UInt64
  third : UInt64
  fourth : UInt64
  le_second : first ≤ second
  le_third : second ≤ third
  le_fourth : third ≤ fourth

/-- `fpga_get_current_code`. -/
def fpgaGetCurrentCode (low high : ReadOrder) (e : Evolution) : UInt64 :=
  let codeLow32 : UInt32 := (fpgaRead32 fpgaWheelcounter1Reg e.first e.second low).toUInt32
  let codeHigh32 : UInt32 := (fpgaRead32 fpgaWheelcounter3Reg e.third e.fourth high).toUInt32
  codeHigh32.toUInt64 <<< 32 ||| codeLow32.toUInt64

/-! ## What the glueing computes -/

/-- No sign gets in the way: the promoted half-words make up the unsigned word. -/
lemma toNat_glue (lo hi : UInt16) :
    (glue lo hi).toUInt32.toNat = lo.toNat + hi.toNat * 65536 := by
  have hlo := lo.toNat_lt
  have hhi := hi.toNat_lt
  have hshift : (hi.toUInt32 <<< 16).toNat = hi.toNat <<< 16 := by
    rw [UInt32.toNat_shiftLeft, UInt16.toNat_toUInt32]
    refine Nat.mod_eq_of_lt ?_
    change hi.toNat <<< 16 < 2 ^ 32
    rw [Nat.shiftLeft_eq]
    omega
  change (lo.toUInt32 ||| hi.toUInt32 <<< 16).toNat = _
  rw [UInt32.toNat_or, hshift, UInt16.toNat_toUInt32, Nat.or_comm,
    ← Nat.shiftLeft_add_eq_or_of_lt hlo, Nat.shiftLeft_eq]
  omega

lemma toNat_join (hi lo : UInt32) :
    (hi.toUInt64 <<< 32 ||| lo.toUInt64).toNat = lo.toNat + hi.toNat * 4294967296 := by
  have hlo := lo.toNat_lt
  have hhi := hi.toNat_lt
  have hshift : (hi.toUInt64 <<< 32).toNat = hi.toNat <<< 32 := by
    rw [UInt64.toNat_shiftLeft, UInt32.toNat_toUInt64]
    refine Nat.mod_eq_of_lt ?_
    change hi.toNat <<< 32 < 2 ^ 64
    rw [Nat.shiftLeft_eq]
    omega
  rw [UInt64.toNat_or, hshift, UInt32.toNat_toUInt64, ← Nat.shiftLeft_add_eq_or_of_lt hlo,
    Nat.shiftLeft_eq]
  omega

lemma halfWord_toNat (code : UInt64) (j : ℕ) :
    (halfWord code j).toNat = code.toNat / 65536 ^ j % 65536 := by
  rw [halfWord, UInt16.toNat_ofNat']

namespace Evolution

variable (e : Evolution) (low high : ReadOrder)

/-- The value of the counter when its half-word `j` is read. -/
def codeAt : ℕ → UInt64
  | 0 => if low = .lowFirst then e.first else e.second
  | 1 => if low = .lowFirst then e.second else e.first
  | 2 => if high = .lowFirst then e.third else e.fourth
  | _ => if high = .lowFirst then e.fourth else e.third

/-- Half-word `j` as it was read. -/
def seen (j : ℕ) : UInt16 := halfWord (e.codeAt low high j) j

/-- The result is made up of the half-words as they were read. -/
lemma toNat_getCurrentCode :
    (fpgaGetCurrentCode low high e).toNat =
      (e.seen low high 0).toNat + (e.seen low high 1).toNat * 65536 +
        ((e.seen low high 2).toNat + (e.seen low high 3).toNat * 65536) * 4294967296 := by
  rw [fpgaGetCurrentCode, toNat_join]
  cases low <;> cases high <;> simp only [fpgaRead32, toNat_glue] <;> rfl

/-- The value of the counter when its lowest half-word is read. -/
def lowest : ℤ := (e.codeAt low high 0).toNat

/-- The carries into half-word `j` that fall between the read of the half-word below it and its own
read, negative if its own comes first. -/
def carries (j : ℕ) : ℤ :=
  ((e.codeAt low high j).toNat / 65536 ^ j : ℕ) -
    ((e.codeAt low high (j - 1)).toNat / 65536 ^ j : ℕ)

/-- The way that these carries stand for: a round of the half-words below for each. -/
def carried : ℤ := 65536 * e.carries low high 1 + 65536 ^ 2 * e.carries low high 2 +
  65536 ^ 3 * e.carries low high 3

/-- During the call the counter goes as far as the carries between the reads stand for, forward
behind the read of the lowest half-word or, for carries that count negative, before it. -/
def CarriesMadeUp : Prop :=
  e.first.toNat - e.lowest low high ≤ e.carried low high ∧
    e.carried low high ≤ e.fourth.toNat - e.lowest low high

/-- No carry falls between the reads of two neighbouring half-words. -/
def NoCarry : Prop := ∀ j ∈ [1, 2, 3], e.carries low high j = 0

/-- The result is the value at the read of the lowest half-word, and the carries. -/
lemma getCurrentCode_eq :
    ((fpgaGetCurrentCode low high e).toNat : ℤ) = e.lowest low high + e.carried low high := by
  have hlt := (e.codeAt low high 3).toNat_lt
  rw [toNat_getCurrentCode]
  simp only [seen, halfWord_toNat, lowest, carried, carries, Nat.sub_self, Nat.reduceSub,
    Nat.reducePow, Int.reducePow]
  omega

/-- Each half-word is read while the counter is between its first and its last value. -/
lemma codeAt_mem (j : ℕ) :
    e.first.toNat ≤ (e.codeAt low high j).toNat ∧
      (e.codeAt low high j).toNat ≤ e.fourth.toNat := by
  have h2 := UInt64.le_iff_toNat_le.1 e.le_second
  have h3 := UInt64.le_iff_toNat_le.1 e.le_third
  have h4 := UInt64.le_iff_toNat_le.1 e.le_fourth
  rw [codeAt.eq_def]
  split <;> split <;> omega

/-- Without such carries the result is a value that the counter had. -/
lemma NoCarry.madeUp {e : Evolution} {low high : ReadOrder} (h : e.NoCarry low high) :
    e.CarriesMadeUp low high := by
  have h1 := h 1 (by simp)
  have h2 := h 2 (by simp)
  have h3 := h 3 (by simp)
  obtain ⟨hfirst, hfourth⟩ := e.codeAt_mem low high 0
  rw [CarriesMadeUp, carried, h1, h2, h3, lowest]
  omega

/-- In less than a round there is at most one carry. -/
lemma div_le_div_add_one {x y m r : ℕ} (hr : r ≤ m) (hm : 0 < m) (h : x < y + r) :
    x / m ≤ y / m + 1 := by
  rw [← Nat.add_div_right _ hm]
  exact Nat.div_le_div_right (by omega)

/-- A counter that goes less than a round of one half-word makes up for no carry. -/
lemma noCarry_of_madeUp {e : Evolution} {low high : ReadOrder}
    (hslow : e.fourth.toNat - e.first.toNat < 65536) (h : e.CarriesMadeUp low high) :
    e.NoCarry low high := by
  have hone : ∀ j, 0 < j → -1 ≤ e.carries low high j ∧ e.carries low high j ≤ 1 := by
    intro j hj
    have hround : 65536 ≤ 65536 ^ j := Nat.le_self_pow hj.ne' 65536
    obtain ⟨hlo, hhi⟩ := e.codeAt_mem low high j
    obtain ⟨hlo', hhi'⟩ := e.codeAt_mem low high (j - 1)
    have hup : (e.codeAt low high j).toNat < (e.codeAt low high (j - 1)).toNat + 65536 := by omega
    have hdown : (e.codeAt low high (j - 1)).toNat < (e.codeAt low high j).toNat + 65536 := by omega
    have hpos : 0 < 65536 ^ j := Nat.lt_of_lt_of_le (by decide) hround
    have hle := div_le_div_add_one hround hpos hup
    have hge := div_le_div_add_one hround hpos hdown
    rw [carries]
    omega
  have h1 := hone 1 (by decide)
  have h2 := hone 2 (by decide)
  have h3 := hone 3 (by decide)
  have hway := e.codeAt_mem low high 0
  obtain ⟨hfirst, hfourth⟩ := h
  rw [lowest] at hfirst hfourth
  -- a round of a higher half-word outweighs those of the lower ones
  rw [carried] at hfirst hfourth
  intro j hj
  have hzero : e.carries low high 1 = 0 ∧ e.carries low high 2 = 0 ∧
      e.carries low high 3 = 0 := by omega
  simp only [List.mem_cons, List.not_mem_nil, or_false] at hj
  rcases hj with rfl | rfl | rfl
  exacts [hzero.1, hzero.2.1, hzero.2.2]

/-- The counter stands still during the call. -/
def still (code : UInt64) : Evolution where
  first := code
  second := code
  third := code
  fourth := code
  le_second := UInt64.le_refl _
  le_third := UInt64.le_refl _
  le_fourth := UInt64.le_refl _

@[simp] lemma seen_still (code : UInt64) (j : ℕ) :
    (still code).seen low high j = halfWord code j := by
  have hat : (still code).codeAt low high j = code := by
    rw [codeAt.eq_def]
    split <;> exact ite_self code
  rw [seen, hat]

lemma getCurrentCode_still (code : UInt64) : fpgaGetCurrentCode low high (still code) = code := by
  have hlt := code.toNat_lt
  rw [← UInt64.toNat_inj, toNat_getCurrentCode]
  simp only [seen_still, halfWord_toNat]
  omega

/-- The result lies between the values of the counter at the first and at the last read. -/
def Between : Prop :=
  e.first ≤ fpgaGetCurrentCode low high e ∧ fpgaGetCurrentCode low high e ≤ e.fourth

/-- The result lies between the first and the last value if and only if the counter makes up for the
carries between the reads.  If it goes less than 65536 during the call, there must be none.  A
counter that stands still is read as it is. -/
theorem between_iff (low high : ReadOrder) :
    (∀ e : Evolution, e.Between low high ↔ e.CarriesMadeUp low high) ∧
    (∀ e : Evolution, e.fourth.toNat - e.first.toNat < 65536 →
      (e.Between low high ↔ e.NoCarry low high)) ∧
    ∀ code, fpgaGetCurrentCode low high (still code) = code := by
  have hiff : ∀ e : Evolution, e.Between low high ↔ e.CarriesMadeUp low high := by
    intro e
    have heq := e.getCurrentCode_eq low high
    rw [Between, CarriesMadeUp, UInt64.le_iff_toNat_le, UInt64.le_iff_toNat_le]
    omega
  refine ⟨hiff, fun e hslow => ?_, getCurrentCode_still low high⟩
  rw [hiff]
  exact ⟨noCarry_of_madeUp hslow, NoCarry.madeUp⟩

/-- The counter steps from `0xffffffff` to `0x100000000` after the low word has been read. -/
def rollover : Evolution where
  first := 0xffffffff
  second := 0xffffffff
  third := 0x100000000
  fourth := 0x100000000
  le_second := by decide
  le_third := by decide
  le_fourth := by decide

/-- The code read is `0x1ffffffff`, in whatever order the half-words are read. -/
theorem not_between_rollover :
    ¬ rollover.Between .lowFirst .lowFirst ∧ ¬ rollover.Between .highFirst .highFirst := by
  have hlow : fpgaGetCurrentCode .lowFirst .lowFirst rollover = 0x1ffffffff := by decide
  have hhigh : fpgaGetCurrentCode .highFirst .highFirst rollover = 0x1ffffffff := by decide
  rw [Between, Between, hlow, hhigh]
  decide

end Evolution

end RejectProcess
