import Mathlib.Data.List.Perm.Basic
import RejectProcess.Sample.Pool
import RejectProcess.Sample.WheelCode

/-!
# The ejection window of `search_wheelcode_array`

The comparison decides on the residue modulo `2 ^ 32` of an exact difference.  This file says
what that means for a whole search: which samples it ejects besides those in the window, and
that the order of the list is irrelevant when the samples are far enough apart.
-/

namespace RejectProcess

open Lib

/-- The station whose list a search walks: every `pos` other than 1 means station 2. -/
def searchStation (pos : UInt32) : Station :=
  if pos = 1 then .one else .two

/-- The record that `search_wheelcode_array` takes off its list, if it finds one. -/
def ejected (cfg : SysConfig) (w : UInt64) (pos : UInt32) (m : ArrayMem) : Option Buffer :=
  (m.list (searchStation pos)).find? fun b => wheelCodeTest cfg (searchStation pos) w (m.sample b)

section Search

variable (cfg : SysConfig) (w : UInt64) (pos : UInt32) (m : ArrayMem)

lemma searchWheelcodeArray_eq :
    searchWheelcodeArray cfg w pos m =
      kickCommand (searchStation pos)
        (searchLocked (wheelCodeTest cfg (searchStation pos) w) (searchStation pos) m) := by
  rw [searchWheelcodeArray, searchStation]
  split <;> rfl

variable {cfg w pos m}

/-- A search without a match reports `-1` and leaves everything as it was. -/
lemma search_of_ejected_none (h : ejected cfg w pos m = none) :
    searchWheelcodeArray cfg w pos m =
      { ret := -1, reg := (searchStation pos).comFifoReg, val := 0, mem := m } := by
  rw [searchWheelcodeArray_eq, searchLocked, searchLoop_eq_find?]
  rw [ejected] at h
  rw [h]
  rfl

/-- A search with a match reports `1`, and the record leaves the list. -/
lemma search_of_ejected_some {b : Buffer} (h : ejected cfg w pos m = some b) :
    searchWheelcodeArray cfg w pos m =
      { ret := 1, reg := (searchStation pos).comFifoReg, val := 1,
        mem := recycleRecord (m.setList (searchStation pos) ((m.list (searchStation pos)).erase b))
          (m.sampleBuf.memory b) } := by
  rw [searchWheelcodeArray_eq, searchLocked, searchLoop_eq_find?]
  rw [ejected] at h
  rw [h]
  rfl

/-- Giving a buffer back does not touch the lists or the records. -/
@[simp] lemma list_recycleRecord_setList (n : Station) (l : List Buffer) (a : SampleArray) :
    (recycleRecord (m.setList n l) a).list n = l := by
  cases n <;> rfl

@[simp] lemma sample_recycleRecord_setList (n : Station) (l : List Buffer) (a : SampleArray) :
    (recycleRecord (m.setList n l) a).sample = m.sample := by
  cases n <;> rfl

end Search

/-! ## The window in exact integers -/

/-- The window of a trigger: the sample lies within half the sample length of the place that
the configured distance predicts, all of it computed in exact integers. -/
def InWindow (cfg : SysConfig) (n : Station) (w : UInt64) (s : SampleResult) : Prop :=
  |(w.toNat : ℤ) - (s.wheelCode.toNat + kickDistance cfg n)| ≤ (halfLength cfg : ℤ)

/-- A sample that is off by a nonzero multiple of `2 ^ 32`, up to the window's width. -/
def Aliased (cfg : SysConfig) (n : Station) (w : UInt64) (s : SampleResult) : Prop :=
  ∃ k : ℤ, k ≠ 0 ∧
    |(w.toNat : ℤ) - (s.wheelCode.toNat + kickDistance cfg n) - k * 2 ^ 32| ≤ (halfLength cfg : ℤ)

/-- What the window asks of one search, by what it returns and leaves behind: only a sample in
the window leaves the list, and `no match` is reported, with nothing changed, only when the
window is empty. -/
def ExactWindow (cfg : SysConfig) (w : UInt64) (pos : UInt32) (m : ArrayMem) : Prop :=
  let n := searchStation pos
  let r := searchWheelcodeArray cfg w pos m
  (r.ret = 1 ∧ ∃ b, InWindow cfg n w (m.sample b) ∧ (m.list n).Perm (b :: r.mem.list n)) ∨
    (r.ret = -1 ∧ r.mem = m ∧ ∀ b ∈ m.list n, ¬ InWindow cfg n w (m.sample b))

section Window

variable {cfg : SysConfig} {n : Station} {w : UInt64} {s t : SampleResult}

lemma halfLength_lt (cfg : SysConfig) : halfLength cfg < 2 ^ 31 := by
  have := cfg.sampleLength.toNat_lt
  rw [halfLength]
  omega

/-- The comparison accepts exactly the samples within the window's width of some multiple of
`2 ^ 32`. -/
lemma wheelCodeTest_iff_exists :
    wheelCodeTest cfg n w s = true ↔
      ∃ k : ℤ, |(w.toNat : ℤ) - (s.wheelCode.toNat + kickDistance cfg n) - k * 2 ^ 32|
        ≤ (halfLength cfg : ℤ) := by
  have hlt := halfLength_lt cfg
  rw [wheelCodeTest_iff, ← natAbs_bmod_le_iff (by omega), sub_sub]

lemma wheelCodeTest_iff_window :
    wheelCodeTest cfg n w s = true ↔ InWindow cfg n w s ∨ Aliased cfg n w s := by
  rw [wheelCodeTest_iff_exists, InWindow, Aliased]
  constructor
  · rintro ⟨k, hk⟩
    by_cases h0 : k = 0
    · left
      simpa [h0] using hk
    · exact .inr ⟨k, h0, hk⟩
  · rintro (h | ⟨k, -, hk⟩)
    · exact ⟨0, by simpa using h⟩
    · exact ⟨k, hk⟩

/-- The window is narrower than the distance of two multiples of `2 ^ 32`. -/
lemma Aliased.not_inWindow (h : Aliased cfg n w s) : ¬ InWindow cfg n w s := by
  obtain ⟨k, hk, hle⟩ := h
  have hlt := halfLength_lt cfg
  rw [InWindow]
  rw [abs_le] at hle ⊢
  omega

/-- A record leaves the list exactly if the loop stops at it. -/
lemma exactWindow_iff_ejected {pos : UInt32} {m : ArrayMem} :
    ExactWindow cfg w pos m ↔
      (∀ b, ejected cfg w pos m = some b → InWindow cfg (searchStation pos) w (m.sample b)) ∧
        (ejected cfg w pos m = none →
          ∀ b ∈ m.list (searchStation pos), ¬ InWindow cfg (searchStation pos) w (m.sample b)) := by
  rw [ExactWindow]
  cases he : ejected cfg w pos m with
  | none => simp [search_of_ejected_none he]
  | some b =>
    have hperm : (m.list (searchStation pos)).Perm (b :: (m.list (searchStation pos)).erase b) :=
      List.perm_cons_erase (List.mem_of_find?_eq_some he)
    simp only [search_of_ejected_some he, list_recycleRecord_setList, reduceCtorEq, false_imp_iff,
      and_true, Option.some.injEq, forall_eq']
    constructor
    · rintro (⟨-, c, hin, hc⟩ | ⟨hret, -⟩)
      · -- what is left determines the record that went
        obtain rfl : c = b := by
          have := hc.symm.trans hperm
          by_contra hne
          have hcount := this.count_eq c
          rw [List.count_cons_self, List.count_cons_of_ne (Ne.symm hne)] at hcount
          omega
        exact hin
      · exact absurd hret (by decide)
    · exact fun hin => .inl ⟨trivial, b, hin, hperm⟩

/-- The search meets the exact window if and only if no sample off by a nonzero multiple of
`2 ^ 32` stands in the list before every sample that is in the window. -/
theorem exact_window_iff (cfg : SysConfig) (w : UInt64) (pos : UInt32) (m : ArrayMem) :
    ExactWindow cfg w pos m ↔
      ∀ l b r, m.list (searchStation pos) = l ++ b :: r →
        Aliased cfg (searchStation pos) w (m.sample b) →
          ∃ a ∈ l, InWindow cfg (searchStation pos) w (m.sample a) := by
  rw [exactWindow_iff_ejected]
  constructor
  · rintro ⟨honly, -⟩ l b r hl hb
    have htest := wheelCodeTest_iff_window.2 (.inr hb)
    cases he : ejected cfg w pos m with
    | none =>
      rw [ejected, List.find?_eq_none] at he
      exact absurd htest (he b (by simp [hl]))
    | some c =>
      have hc := honly c he
      rw [ejected, hl, List.find?_append] at he
      -- the match is not found at `b`, so it is found before it
      cases hf : l.find? fun x => wheelCodeTest cfg (searchStation pos) w (m.sample x) with
      | none =>
        rw [hf, List.find?_cons_of_pos (by exact htest)] at he
        obtain rfl : b = c := by simpa using he
        exact absurd hc hb.not_inWindow
      | some d =>
        obtain rfl : d = c := by simpa [hf] using he
        exact ⟨d, List.mem_of_find?_eq_some hf, hc⟩
  · intro h
    constructor
    · intro b hb
      obtain ⟨hpos, l, r, hl, hbefore⟩ := List.find?_eq_some_iff_append.1 hb
      rcases wheelCodeTest_iff_window.1 hpos with hin | hal
      · exact hin
      · obtain ⟨a, ha, hin⟩ := h l b r hl hal
        have := hbefore a ha
        rw [wheelCodeTest_iff_window.2 (.inl hin)] at this
        contradiction
    · intro hnone b hb hin
      rw [ejected, List.find?_eq_none] at hnone
      exact hnone b hb (wheelCodeTest_iff_window.2 (.inl hin))

end Window

/-- A record of a sample for station 1 with a wheel code, in the buffer `b`. -/
def recordAt (b : Buffer) (wheelCode : UInt64) : SampleArray where
  sample :=
    { result := Vector.replicate 8 0, count := 0, wheelCode := wheelCode, pos := 1, alarm := 0 }
  buf := b

/-- A sample at wheel code 500 waits for a trigger at 1500; the trigger at `2 ^ 32 + 1500`
ejects it. -/
theorem not_exactWindow_alias :
    ¬ ExactWindow { SysConfig.default with kickMode := 1 } (2 ^ 32 + 1500) 1
      { sampleBuf := { list := [], memory := fun b => recordAt b 500 }
        k1SampleList := [0], k2SampleList := [] } := by
  rintro (⟨-, b, hin, hperm⟩ | ⟨hret, -⟩)
  · obtain rfl : b = 0 := List.mem_singleton.1 (hperm.symm.subset List.mem_cons_self)
    rw [InWindow, abs_le] at hin
    exact absurd hin.2 (by decide)
  · exact absurd hret (by decide)

/-! ## What one comparison decides -/

/-- The comparison accepts a sample exactly if the signed residue of the exact difference is at
most half the sample length, whatever wraps on the way. -/
theorem comparison_decides (cfg : SysConfig) (n : Station) (w : UInt64) (s : SampleResult) :
    ∃ r : ℤ, -2 ^ 31 ≤ r ∧ r < 2 ^ 31 ∧
      r ≡ w.toNat - s.wheelCode.toNat - kickDistance cfg n [ZMOD 2 ^ 32] ∧
      (wheelCodeTest cfg n w s = true ↔ |r| ≤ ((cfg.sampleLength.toNat / 2 : ℕ) : ℤ)) := by
  refine ⟨(w.toNat - s.wheelCode.toNat - kickDistance cfg n : ℤ).bmod (2 ^ 32), ?_, ?_, ?_, ?_⟩
  · exact Int.le_bmod (by decide)
  · exact Int.bmod_lt (by decide)
  · exact Int.bmod_emod ..
  · rw [wheelCodeTest_iff, halfLength, Int.abs_eq_natAbs, Nat.cast_le]

/-! ## The order of arrival -/

/-- The distance of two wheel codes around the circle of length `2 ^ 32`. -/
def circularDistance (a b : UInt64) : ℤ :=
  min (((a.toNat : ℤ) - b.toNat) % 2 ^ 32) (((b.toNat : ℤ) - a.toNat) % 2 ^ 32)

/-- Two samples so far apart that no trigger lies within half the sample length of both. -/
def Separated (cfg : SysConfig) (s t : SampleResult) : Prop :=
  2 * (halfLength cfg : ℤ) < circularDistance s.wheelCode t.wheelCode

section Order

variable {cfg : SysConfig} {n : Station} {w : UInt64} {pos : UInt32} {s t : SampleResult}

lemma Separated.not_both (h : Separated cfg s t) (hs : wheelCodeTest cfg n w s = true) :
    wheelCodeTest cfg n w t = false := by
  rw [Bool.eq_false_iff]
  intro ht
  obtain ⟨i, hi⟩ := wheelCodeTest_iff_exists.1 hs
  obtain ⟨j, hj⟩ := wheelCodeTest_iff_exists.1 ht
  rw [abs_le] at hi hj
  rw [Separated, circularDistance] at h
  omega

/-- Of pairwise separated samples at most one passes the comparison. -/
lemma countP_le_one {l : List SampleResult} (h : l.Pairwise (Separated cfg)) :
    l.countP (wheelCodeTest cfg n w) ≤ 1 := by
  induction h with
  | nil => simp
  | @cons s l hsep _ ih =>
    by_cases hs : wheelCodeTest cfg n w s = true
    · have hl : l.countP (wheelCodeTest cfg n w) = 0 :=
        List.countP_eq_zero.2 fun t ht => by simp [(hsep t ht).not_both hs]
      simp [hs, hl]
    · simpa [hs] using ih

/-- Where at most one element passes a test, its position does not change what is found. -/
lemma find?_perm {α : Type*} {p : α → Bool} {l l' : List α} (h : l'.Perm l)
    (hone : l.countP p ≤ 1) : l'.find? p = l.find? p := by
  have hfilter : l'.filter p = l.filter p := by
    have hlen : (l.filter p).length ≤ 1 := by rwa [← List.countP_eq_length_filter]
    have hperm := h.filter p
    cases hl : l.filter p with
    | nil => rwa [hl, List.perm_nil] at hperm
    | cons a t =>
      obtain rfl : t = [] := by simpa [hl] using hlen
      rwa [hl, List.perm_singleton] at hperm
  rw [← List.head?_filter, ← List.head?_filter, hfilter]

lemma map_ejected (m : ArrayMem) :
    (ejected cfg w pos m).map m.sample =
      ((m.list (searchStation pos)).map m.sample).find?
        (wheelCodeTest cfg (searchStation pos) w) := by
  rw [List.find?_map]
  rfl

/-- The samples that a search with a match leaves behind, and the one it takes. -/
lemma cons_remaining_perm {m : ArrayMem} {b : Buffer} (h : ejected cfg w pos m = some b) :
    (m.sample b :: ((m.list (searchStation pos)).erase b).map m.sample).Perm
      ((m.list (searchStation pos)).map m.sample) := by
  have hb : b ∈ m.list (searchStation pos) := List.mem_of_find?_eq_some h
  exact ((List.perm_cons_erase hb).map m.sample).symm

/-- What a search with the result `r` did to the list of station `n`: `found` is the sample it
took, if it took one.  The return value and the command tell whether it did, what it took and
what it left make up the list, and what it took passes the comparison. -/
structure Took (cfg : SysConfig) (n : Station) (w : UInt64) (m : ArrayMem) (r : SearchResult)
    (found : Option SampleResult) : Prop where
  ret : r.ret = if found.isSome then 1 else -1
  val : r.val = if found.isSome then 1 else 0
  samples : (found.toList ++ (r.mem.list n).map r.mem.sample).Perm ((m.list n).map m.sample)
  test : ∀ s ∈ found, wheelCodeTest cfg n w s = true

lemma took_ejected (m : ArrayMem) :
    Took cfg (searchStation pos) w m (searchWheelcodeArray cfg w pos m)
      ((ejected cfg w pos m).map m.sample) := by
  cases he : ejected cfg w pos m with
  | none =>
    rw [search_of_ejected_none he]
    exact ⟨rfl, rfl, .refl _, by simp⟩
  | some b =>
    rw [search_of_ejected_some he]
    refine ⟨rfl, rfl, ?_, ?_⟩
    · rw [list_recycleRecord_setList, sample_recycleRecord_setList]
      exact cons_remaining_perm he
    · rintro s ⟨⟩
      have htest := List.find?_some he
      exact htest

/-- Whatever the order in which pairwise separated samples arrived, a search finds a match in
one order if it does in the other, takes the same sample and leaves the same samples; at most
one of them can match. -/
theorem arrival_order_irrelevant (cfg : SysConfig) (w : UInt64) (pos : UInt32) (m m' : ArrayMem)
    (hsep : ((m.list (searchStation pos)).map m.sample).Pairwise (Separated cfg))
    (hperm : ((m'.list (searchStation pos)).map m'.sample).Perm
      ((m.list (searchStation pos)).map m.sample)) :
    let n := searchStation pos
    let r := searchWheelcodeArray cfg w pos m
    let r' := searchWheelcodeArray cfg w pos m'
    ((m.list n).map m.sample).countP (wheelCodeTest cfg n w) ≤ 1 ∧
      r'.ret = r.ret ∧ r'.val = r.val ∧
      (∃ found, Took cfg n w m r found ∧ Took cfg n w m' r' found) ∧
      ((r'.mem.list n).map r'.mem.sample).Perm ((r.mem.list n).map r.mem.sample) := by
  intro n r r'
  have hone : ((m.list n).map m.sample).countP (wheelCodeTest cfg n w) ≤ 1 := countP_le_one hsep
  have hsame : (ejected cfg w pos m').map m'.sample = (ejected cfg w pos m).map m.sample := by
    rw [map_ejected, map_ejected]
    exact find?_perm hperm hone
  have htook : Took cfg n w m r ((ejected cfg w pos m).map m.sample) := took_ejected m
  have htook' : Took cfg n w m' r' ((ejected cfg w pos m).map m.sample) := hsame ▸ took_ejected m'
  refine ⟨hone, htook'.ret.trans htook.ret.symm, htook'.val.trans htook.val.symm,
    ⟨_, htook, htook'⟩, ?_⟩
  -- both took the same sample from the same samples
  exact (List.perm_append_left_iff _).1
    (htook'.samples.trans (hperm.trans htook.samples.symm))

/-- Two samples at wheel codes 500 and 5000 in either order, and a trigger for the second. -/
def arrivalOrder (l : List Buffer) : ArrayMem where
  sampleBuf := { list := [7], memory := fun b => recordAt b (if b = 0 then 500 else 5000) }
  k1SampleList := l
  k2SampleList := []

theorem arrival_order_two :
    (searchWheelcodeArray SysConfig.default 6000 1 (arrivalOrder [1, 0])).ret = 1 :=
  (arrival_order_irrelevant SysConfig.default 6000 1 (arrivalOrder [0, 1]) (arrivalOrder [1, 0])
    (by
      change List.Pairwise _ [_, _]
      rw [List.pairwise_pair, Separated]
      decide)
    (List.Perm.swap _ _ _)).2.1.trans (by decide)

end Order

end RejectProcess
