import RejectProcess.Sample.ArrayHeap
import RejectProcess.Sample.Window

/-!
# The searches in memory

`search_count_array` and `search_wheelcode_array` as they walk the circular list and take a record
out of it.  They find the first record that passes their test, and the three lists are well-formed
again afterwards.
-/

namespace RejectProcess.ArrayHeap

open Lib

/-- What a search returns and leaves behind: its return value, the register it writes and the
value, and the memory. -/
structure Outcome (α : Type*) where
  ret : ℤ
  reg : ℕ
  val : UInt16
  heap : Heap α

variable {α : Type*} [DecidableEq α]

section Code

variable (g : Globals α) (test : SampleResult → Bool) (n : Station) (h : Heap α)

/-- The loop of the searches, from the node `p` on.  `none` is more rounds than `fuel`. -/
def searchLoop : ℕ → α → Option (Outcome α)
  | 0, _ => none
  | fuel + 1, p =>
    if p = g.head n then some { ret := -1, reg := n.comFifoReg, val := 0, heap := h }
    else
      let parray := h.list.owner p
      if test (h.sample parray) then
        let h' := h.listDel g p
        some { ret := 1, reg := n.comFifoReg, val := 1, heap := h'.recycle g (h'.buf parray) }
      else searchLoop fuel (h.list.next p)

/-- A search of the list of a station. -/
def searchList (fuel : ℕ) : Option (Outcome α) :=
  searchLoop g test n h fuel (h.list.next (g.head n))

end Code

/-- `search_count_array`. -/
def searchCountArray (g : Globals α) (count _pos : UInt32) (h : Heap α) (fuel : ℕ) :
    Option (Outcome α) :=
  searchList g (countTest count) .one h fuel

/-- `search_wheelcode_array`. -/
def searchWheelcodeArray (g : Globals α) (cfg : SysConfig) (wheelCode : UInt64) (pos : UInt32)
    (h : Heap α) (fuel : ℕ) : Option (Outcome α) :=
  if pos = 1 then searchList g (wheelCodeTest cfg .one wheelCode) .one h fuel
  else searchList g (wheelCodeTest cfg .two wheelCode) .two h fuel

/-- Both branches of `search_wheelcode_array` are the same search, of the list of their station. -/
lemma searchWheelcodeArray_eq_searchList (g : Globals α) (cfg : SysConfig) (wheelCode : UInt64)
    (pos : UInt32) (h : Heap α) :
    searchWheelcodeArray g cfg wheelCode pos h =
      searchList g (wheelCodeTest cfg (searchStation pos) wheelCode) (searchStation pos) h := by
  funext fuel
  rw [searchWheelcodeArray, searchStation]
  split <;> rfl

/-! ## What a search does -/

/-- A match: the record is unlinked and its buffer recycled. -/
def found (g : Globals α) (n : Station) (h : Heap α) (b : α) : Outcome α where
  ret := 1
  reg := n.comFifoReg
  val := 1
  heap := (h.listDel g (h.item g b)).recycle g b

/-- No match. -/
def notFound (n : Station) (h : Heap α) : Outcome α where
  ret := -1
  reg := n.comFifoReg
  val := 0
  heap := h

/-- What a search returns, by what it found. -/
def outcome (g : Globals α) (n : Station) (h : Heap α) : Option α → Outcome α
  | some b => found g n h b
  | none => notFound n h

namespace Holds

variable {g : Globals α} {h : Heap α} {records all : List α} {s : Seqs α} {n : Station}

/-- The loop finds the first match among the records that are left, in at most one round for each
of them and one more. -/
lemma searchLoop_eq (hh : Holds g h records all s) (test : SampleResult → Bool) {l rest : List α}
    (hl : s.list n = l ++ rest) {fuel : ℕ} (hfuel : rest.length < fuel) :
    searchLoop g test n h fuel ((rest.map (h.item g)).headD (g.head n)) =
      some (outcome g n h (rest.find? fun b => test (h.sampleOf b))) := by
  induction rest generalizing l fuel with
  | nil =>
    obtain ⟨fuel, rfl⟩ : ∃ f, fuel = f + 1 := ⟨fuel - 1, by simp at hfuel; omega⟩
    exact if_pos rfl
  | cons b rest ih =>
    obtain ⟨fuel, rfl⟩ : ∃ f, fuel = f + 1 := ⟨fuel - 1, by omega⟩
    have hmem : b ∈ s.list n := by simp [hl]
    have hb : b ∈ records := hh.listed n b hmem
    have hnext : h.list.next (h.item g b) = (rest.map (h.item g)).headD (g.head n) :=
      hh.next_item hl
    rw [List.map_cons, List.headD_cons, searchLoop, if_neg (hh.item_ne_head hb n)]
    simp only [hh.owner b hb]
    rw [List.find?_cons]
    cases htest : test (h.sampleOf b) with
    | true =>
      rw [if_pos (by exact htest)]
      change some ({ ret := 1, reg := n.comFifoReg, val := 1,
                     heap := (h.listDel g (h.item g b)).recycle g (h.buf (h.memory b)) } :
                       Outcome α) = _
      rw [hh.buf b hb]
      rfl
    | false =>
      rw [if_neg (by rw [Bool.not_eq_true]; exact htest), hnext]
      exact ih (l := l ++ [b]) (by simp [hl]) (by simpa using hfuel)

/-- A search ends, with the first match of the list. -/
lemma searchList_eq (hh : Holds g h records all s) (test : SampleResult → Bool) {fuel : ℕ}
    (hfuel : (s.list n).length < fuel) :
    searchList g test n h fuel =
      some (outcome g n h ((s.list n).find? fun b => test (h.sampleOf b))) := by
  rw [searchList, Ring.next_head (hh.lists n)]
  exact hh.searchLoop_eq (l := []) test rfl hfuel

/-- After a match the record is off its list and its buffer at the end of the free list. -/
lemma remove (hh : Holds g h records all s) {l r : List α} {b : α} (hl : s.list n = l ++ b :: r)
    (hb : b ∈ all) (hfree : b ∉ s.free) :
    Holds g (found g n h b).heap records all
      ({ list := (s.setList n (l ++ r)).list, free := s.free ++ [b] } : Seqs α) :=
  (hh.listDel hl).recycle hb hfree

end Holds

/-! ## The specification of a search -/

/-- The sequences after the record `b` between `l` and `r` was taken out of a list. -/
def Seqs.remove (s : Seqs α) (n : Station) (l : List α) (b : α) (r : List α) : Seqs α where
  list := (s.setList n (l ++ r)).list
  free := s.free ++ [b]

/-- The links of the list of a station are as they were, and so are all records and buffers. -/
structure Untouched (g : Globals α) (h h' : Heap α) (s : Seqs α) (m : Station) : Prop where
  links : ∀ x ∈ g.head m :: (s.list m).map (h.item g),
    h'.list.next x = h.list.next x ∧ h'.list.prev x = h.list.prev x
  owner : h'.list.owner = h.list.owner
  sample : h'.sample = h.sample
  buf : h'.buf = h.buf
  memory : h'.memory = h.memory
  node : h'.node = h.node

/-- The call finds the first sample of the list of station `n` that passes the test and removes
it, or finds that there is none; it ends after at most one round for each record and one more. -/
def FindsFirst (g : Globals α) (test : SampleResult → Bool) (n : Station) (h : Heap α)
    (s : Seqs α) (call : ℕ → Option (Outcome α)) : Prop :=
  ∃ r, (∀ fuel, (s.list n).length < fuel → call fuel = some r) ∧ r.reg = n.comFifoReg ∧
    (∀ m, m ≠ n → Untouched g h r.heap s m) ∧
    ((∃ l b rest, s.list n = l ++ b :: rest ∧ (∀ a ∈ l, test (h.sampleOf a) = false) ∧
        test (h.sampleOf b) = true ∧ r.ret = 1 ∧ r.val = 1 ∧
        WellFormed g r.heap (s.remove n l b rest)) ∨
      ((∀ a ∈ s.list n, test (h.sampleOf a) = false) ∧ r.ret = -1 ∧ r.val = 0 ∧ r.heap = h))

namespace WellFormed

variable {g : Globals α} {h : Heap α} {s : Seqs α} {n : Station} {l r : List α} {b : α}

omit [DecidableEq α] in
/-- The buffer of a listed record is not free. -/
lemma notMem_free (hwf : WellFormed g h s) (hb : b ∈ s.list n) : b ∉ s.free := by
  have hrec : b ∈ s.records := hwf.listed n b hb
  have hnd := hwf.distinct
  simp only [List.nodup_cons, List.nodup_append] at hnd
  have hall := List.Nodup.of_map _ hnd.2.2.2.2.1
  exact fun hc => (List.nodup_append.1 hall).2.2 b hc b hrec rfl

/-- The lists are well-formed after a match. -/
lemma found (hwf : WellFormed g h s) (hl : s.list n = l ++ b :: r) :
    WellFormed g (ArrayHeap.found g n h b).heap (s.remove n l b r) := by
  have hmem : b ∈ s.list n := by simp [hl]
  have hb : b ∈ s.records := hwf.listed n b hmem
  have hh := hwf.remove hl (List.mem_append_right _ hb) (hwf.notMem_free hmem)
  have hperm : s.records.Perm (b :: (s.remove n l b r).records) := by
    cases n with
    | one =>
      change (s.list .one ++ s.list .two).Perm (b :: ((l ++ r) ++ s.list .two))
      rw [hl, ← List.cons_append]
      exact List.perm_middle.append_right _
    | two =>
      change (s.list .one ++ s.list .two).Perm (b :: (s.list .one ++ (l ++ r)))
      rw [hl]
      exact (List.perm_middle.append_left _).trans List.perm_middle
  refine Holds.wellFormed hh ?_ ?_
  · have hsub : (l ++ r).Sublist (l ++ b :: r) := (List.sublist_cons_self b r).append_left l
    cases n with
    | one =>
      change ((l ++ r) ++ s.list .two).Sublist (s.list .one ++ s.list .two)
      rw [hl]
      exact hsub.append_right _
    | two =>
      change (s.list .one ++ (l ++ r)).Sublist (s.list .one ++ s.list .two)
      rw [hl]
      exact hsub.append_left _
  · change ((s.free ++ [b]) ++ (s.remove n l b r).records).Perm (s.free ++ s.records)
    rw [List.append_assoc, List.singleton_append]
    exact hperm.symm.append_left _

/-- A match touches nothing of the other list. -/
lemma untouched (hwf : WellFormed g h s) (hl : s.list n = l ++ b :: r) {m : Station} (hm : m ≠ n) :
    Untouched g h (ArrayHeap.found g n h b).heap s m where
  links := by
    intro x hx
    have hmem : b ∈ s.list n := by simp [hl]
    have hdel : Holds g (h.listDel g (h.item g b)) s.records (s.free ++ s.records)
        (s.setList n (l ++ r)) := hwf.listDel hl
    have hx' : x ∈ g.head m :: ((s.setList n (l ++ r)).list m).map (h.item g) := by
      rwa [Seqs.setList_of_ne _ _ hm]
    have hrec := hdel.recycle_frame (List.mem_append_right _ (hwf.listed n b hmem)) m hx'
    have hring := hwf.lists n
    have hnot := hwf.list_disjoint hm.symm hx
    rw [hl, List.map_append, List.map_cons] at hring hnot
    have hframe := hring.del_frame g.null hnot
    exact ⟨hrec.1.trans hframe.1, hrec.2.trans hframe.2⟩
  owner := rfl
  sample := rfl
  buf := rfl
  memory := rfl
  node := rfl

/-- A search of a well-formed list. -/
lemma findsFirst (hwf : WellFormed g h s) (test : SampleResult → Bool) (n : Station) :
    FindsFirst g test n h s (searchList g test n h) := by
  refine ⟨outcome g n h ((s.list n).find? fun b => test (h.sampleOf b)), ?_, ?_⟩
  · exact fun fuel hfuel => hwf.searchList_eq test hfuel
  · cases hf : (s.list n).find? fun b => test (h.sampleOf b) with
    | none =>
      have hnone : ∀ a ∈ s.list n, test (h.sampleOf a) = false := by
        simpa using List.find?_eq_none.1 hf
      exact ⟨rfl, fun m _ => ⟨fun _ _ => ⟨rfl, rfl⟩, rfl, rfl, rfl, rfl, rfl⟩,
        .inr ⟨hnone, rfl, rfl, rfl⟩⟩
    | some b =>
      obtain ⟨htest, l, rest, hl, hbefore⟩ := List.find?_eq_some_iff_append.1 hf
      refine ⟨rfl, fun m hm => hwf.untouched hl hm,
        .inl ⟨l, b, rest, hl, ?_, htest, rfl, rfl, hwf.found hl⟩⟩
      simpa using hbefore

end WellFormed

/-- On well-formed lists both searches find and remove the first sample that passes their test, in
the list of their station. -/
theorem searches_find_first (g : Globals α) (cfg : SysConfig) (h : Heap α) (s : Seqs α)
    (hwf : WellFormed g h s) (count wheelPos countPos : UInt32) (wheelCode : UInt64) :
    FindsFirst g (countTest count) .one h s (searchCountArray g count countPos h) ∧
      FindsFirst g (wheelCodeTest cfg (searchStation wheelPos) wheelCode) (searchStation wheelPos)
        h s (searchWheelcodeArray g cfg wheelCode wheelPos h) := by
  refine ⟨hwf.findsFirst _ _, ?_⟩
  rw [searchWheelcodeArray_eq_searchList]
  exact hwf.findsFirst _ _

/-- A small memory: the heads at 0, 1 and 2, the buffers from 10 on, their records from 20 on with
their nodes from 30 on, and the nodes of the buffers from 40 on. -/
def smallGlobals : Globals ℕ where
  head
    | .one => 0
    | .two => 1
  pool := 2
  null := 99
  nodeOf := fun r => r + 10

/-- Two samples wait at station 1 and one at station 2, and one buffer is free. -/
def smallSeqs : Seqs ℕ where
  list
    | .one => [10, 11]
    | .two => [12]
  free := [13]

def smallHeap : Heap ℕ where
  list :=
    { next := fun x => [(0, 30), (30, 31), (31, 0), (1, 32), (32, 1), (2, 43), (43, 2)].lookup x
        |>.getD 99
      prev := fun x => [(0, 31), (31, 30), (30, 0), (1, 32), (32, 1), (2, 43), (43, 2)].lookup x
        |>.getD 99
      owner := fun x => if x < 40 then x - 10 else x - 30 }
  sample := fun r => (recordAt 0 (UInt64.ofNat (100 * (r - 20)))).sample
  buf := fun r => r - 10
  memory := fun b => b + 10
  node := fun b => b + 30

lemma wellFormed_small : WellFormed smallGlobals smallHeap smallSeqs where
  distinct := by decide
  owner := by decide
  buf := by decide
  nodeOwner := by decide
  lists := by
    rintro (_ | _)
    · exact ⟨by decide, by decide⟩
    · exact ⟨by decide, by decide⟩
  free := ⟨by decide, by decide⟩
  listed := by
    rintro (_ | _)
    · decide
    · decide
  freed := by decide
  apart := by decide

theorem searches_find_first_small :
    FindsFirst smallGlobals (countTest 0) .one smallHeap smallSeqs
        (searchCountArray smallGlobals 0 1 smallHeap) ∧
      FindsFirst smallGlobals (wheelCodeTest SysConfig.default (searchStation 2) 3000)
        (searchStation 2) smallHeap smallSeqs
        (searchWheelcodeArray smallGlobals SysConfig.default 3000 2 smallHeap) :=
  searches_find_first smallGlobals SysConfig.default smallHeap smallSeqs wellFormed_small 0 2 1 3000

end RejectProcess.ArrayHeap
