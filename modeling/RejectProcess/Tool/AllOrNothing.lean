import Mathlib.Data.Nat.Find
import RejectProcess.Tool.BufFactory
import RejectProcess.Tool.CreateFactory

/-!
# What is left of a factory that cannot be built

A factory is built with all its slots, or the blocks it was given are freed before the process
ends.  The loops that free them are only right for the first slots.
-/

namespace RejectProcess.Factory

open Lib Lib.AllocEvent

/-- The free list holds the `num` slots in index order, and each node is owned by its slot. -/
def Complete (num : ℕ) (factory : Ptr) (h : Heap) : Prop :=
  h.list.Represents factory.listOf ((List.range num).map fun i => h.node (h.slot factory i)) ∧
    ∀ i < num, h.list.owner (h.node (h.slot factory i)) = h.slot factory i

/-- If some request behind the first one fails, the process ends with all blocks freed, and else
the factory is complete. -/
structure AllOrNothing (num : ℕ) (grant : ℕ → Bool) (o : Outcome) : Prop where
  nothing : ∀ k < 2 + 2 * num, 0 < k → FirstFail grant k →
    ∃ msg h, o = .error msg h ∧ FreedOnce h.trace
  all : (∀ k < 2 + 2 * num, grant k = true) → ∃ factory h, o = .done factory h ∧
    Complete num factory h

/-! ## The blocks and the pointers freed -/

lemma elem_mem_blocks {b k : ℕ} (hk : k < b) : Ptr.elem k 0 ∈ blocks b :=
  List.mem_map_of_mem (List.mem_range.2 hk)

lemma null_notMem_blocks (b : ℕ) : Ptr.null ∉ blocks b := by
  simp [blocks]

lemma nodup_blocks (b : ℕ) : (blocks b).Nodup :=
  List.nodup_range.map fun k l hkl => by simpa using hkl

namespace Heap

/-- Pointers are freed one after the other. -/
def freed (ps : List Ptr) (h : Heap) : Heap :=
  { h with trace := h.trace ++ (ps.filter (· ≠ .null)).map .free }

lemma free_eq_freed (p : Ptr) (h : Heap) : h.free p = h.freed [p] := by
  rw [free, freed]
  split <;> simp [*]

lemma freed_freed (ps qs : List Ptr) (h : Heap) :
    (h.freed ps).freed qs = h.freed (ps ++ qs) := by
  simp [freed, List.append_assoc]

lemma freed_nil (h : Heap) : h.freed [] = h := by
  simp [freed]

/-- A loop that frees what is in a field, which the loop leaves alone. -/
lemma foldl_free {g : ℕ → Heap → Ptr} (hg : ∀ j ps h, g j (h.freed ps) = g j h) (js : List ℕ)
    (h : Heap) : js.foldl (fun h j => h.free (g j h)) h = h.freed (js.map fun j => g j h) := by
  induction js generalizing h with
  | nil => exact (freed_nil h).symm
  | cons j js ih =>
    rw [List.foldl_cons, ih, free_eq_freed, freed_freed]
    simp only [hg, List.map_cons, List.singleton_append]

lemma countDown_free {g : ℕ → Heap → Ptr} (hg : ∀ j ps h, g j (h.freed ps) = g j h) {n : ℕ}
    {h : Heap} {f : ℕ → Ptr} (hf : ∀ j < n, g j h = f j) :
    h.countDown n (fun j h => h.free (g j h)) = h.freed ((List.range n).reverse.map f) := by
  rw [countDown, foldl_free hg, List.map_congr_left fun j hj => hf j (by simpa using hj)]

lemma countUp_free {g : ℕ → Heap → Ptr} (hg : ∀ j ps h, g j (h.freed ps) = g j h) {n : ℕ}
    {h : Heap} {f : ℕ → Ptr} (hf : ∀ j < n, g j h = f j) :
    h.countUp n (fun j h => h.free (g j h)) = h.freed ((List.range n).map f) := by
  rw [countUp, foldl_free hg, List.map_congr_left fun j hj => hf j (List.mem_range.1 hj)]

end Heap

namespace Built

variable {b d n : ℕ} {h : Heap} {ps : List Ptr}

lemma giveUp_freed (hb : Built b d n h) : giveUp (.elem 0 0) (h.freed ps) =
    h.freed (ps ++ [.elem 1 0, .elem 0 0]) := by
  have harr : (h.freed ps).array (.elem 0 0) = .elem 1 0 := hb.array
  rw [giveUp, harr, Heap.free_eq_freed, Heap.free_eq_freed, Heap.freed_freed, Heap.freed_freed]
  simp

lemma freedOnce_iff (hb : Built b d n h) : FreedOnce (h.freed ps).trace ↔
    ∀ p, (ps.filter (· ≠ .null)).count p = if p ∈ blocks b then 1 else 0 := by
  simp only [FreedOnce, Heap.freed, hb.trace, allocs_append, frees_append, allocs_map_alloc,
    frees_map_alloc, allocs_map_free, frees_map_free, List.nil_append, List.append_nil]

lemma freedOnce_of_perm (hb : Built b d n h) (hp : ps.Perm (blocks b)) :
    FreedOnce (h.freed ps).trace := by
  refine hb.freedOnce_iff.2 fun p => ?_
  have hnull : ps.filter (· ≠ .null) = ps := List.filter_eq_self.2 fun q hq => by
    simpa using (ne_of_mem_of_not_mem (hp.subset hq) (null_notMem_blocks b))
  rw [hnull, hp.count_eq]
  exact (nodup_blocks b).count

lemma count_of_freedOnce (hb : Built b d n h) (hf : FreedOnce (h.freed ps).trace) {k : ℕ}
    (hk : k < b) : ps.count (.elem k 0) = 1 := by
  have := hb.freedOnce_iff.1 hf (.elem k 0)
  rwa [if_pos (elem_mem_blocks hk), List.count_filter (by simp)] at this

/-! What the loops free, slot `i` being the first one that is not complete. -/

variable {i : ℕ}

lemma undoData_buf (hb : Built b i n h) (hnull : h.data (.elem 1 i) = .null) :
    bufKind.undoData (.elem 0 0) i h = h.freed ((List.range i).reverse.map fun _ => .null) := by
  refine Heap.countDown_free (g := fun _ h => h.data (h.slot (.elem 0 0) i))
    (fun _ _ _ => rfl) fun j _ => ?_
  rw [hb.slot_eq, hnull]

lemma undoNode_buf (hb : Built b (i + 1) n h) (hnull : h.node (.elem 1 i) = .null) :
    bufKind.undoNode (.elem 0 0) i h = h.freed (((List.range i).reverse.map fun _ => .null) ++
      (List.range (i + 1)).reverse.map fun _ => .elem (2 + 2 * i) 0) := by
  have hnodes : h.countDown i (fun _ h => h.free (h.node (h.slot (.elem 0 0) i))) =
      h.freed ((List.range i).reverse.map fun _ => .null) := by
    refine Heap.countDown_free (g := fun _ h => h.node (h.slot (.elem 0 0) i))
      (fun _ _ _ => rfl) fun j _ => ?_
    rw [hb.slot_eq, hnull]
  simp only [bufKind, hnodes]
  rw [← Heap.freed_freed]
  refine Heap.countDown_free (g := fun _ h => h.data (h.slot (.elem 0 0) i))
    (fun _ _ _ => rfl) fun j _ => ?_
  show h.data (h.slot (.elem 0 0) i) = _
  rw [hb.slot_eq, hb.data i (Nat.lt_succ_self i)]

lemma undoData_msg (hb : Built b i n h) : msgKind.undoData (.elem 0 0) i h =
    h.freed ((List.range i).reverse.map fun j => .elem (2 + 2 * j) 0) := by
  refine Heap.countDown_free (g := fun j h => h.data (h.slot (.elem 0 0) j))
    (fun _ _ _ => rfl) fun j hj => ?_
  rw [hb.slot_eq, hb.data j hj]

lemma undoNode_msg (hb : Built b (i + 1) i h) : msgKind.undoNode (.elem 0 0) i h =
    h.freed (((List.range i).reverse.map fun j => .elem (3 + 2 * j) 0) ++
      (List.range payloadNumMax).map fun _ => .elem (2 + 2 * i) 0) := by
  have hnodes : h.countDown i (fun j h => h.free (h.node (h.slot (.elem 0 0) j))) =
      h.freed ((List.range i).reverse.map fun j => .elem (3 + 2 * j) 0) := by
    refine Heap.countDown_free (g := fun j h => h.node (h.slot (.elem 0 0) j))
      (fun _ _ _ => rfl) fun j hj => ?_
    rw [hb.slot_eq, hb.node j hj]
  simp only [msgKind, hnodes]
  rw [← Heap.freed_freed]
  refine Heap.countUp_free (g := fun _ h => h.data (h.slot (.elem 0 0) i))
    (fun _ _ _ => rfl) fun j _ => ?_
  show h.data (h.slot (.elem 0 0) i) = _
  rw [hb.slot_eq, hb.data i (Nat.lt_succ_self i)]

end Built

/-! ## For which slots the loops are right -/

section Undo

variable {i : ℕ} {h : Heap}

lemma freedOnce_undoData_buf (hb : Built (2 + 2 * i) i i h) (hnull : h.data (.elem 1 i) = .null) :
    FreedOnce (giveUp (.elem 0 0) (bufKind.undoData (.elem 0 0) i h)).trace ↔ i = 0 := by
  rw [hb.undoData_buf hnull, hb.giveUp_freed]
  constructor
  · intro hf
    by_contra hi
    -- the blocks of the slots before are not freed
    have hone := hb.count_of_freedOnce hf (show 2 < 2 + 2 * i by omega)
    simp [List.count_replicate] at hone
  · rintro rfl
    exact hb.freedOnce_of_perm (by decide)

lemma freedOnce_undoNode_buf (hb : Built (3 + 2 * i) (i + 1) i h)
    (hnull : h.node (.elem 1 i) = .null) :
    FreedOnce (giveUp (.elem 0 0) (bufKind.undoNode (.elem 0 0) i h)).trace ↔ i = 0 := by
  rw [hb.undoNode_buf hnull, hb.giveUp_freed]
  constructor
  · intro hf
    -- the block of slot `i` is freed in every turn
    have hone := hb.count_of_freedOnce hf (show 2 + 2 * i < 3 + 2 * i by omega)
    simp only [List.count_append, List.map_const', List.length_reverse, List.length_range,
      List.count_replicate_self] at hone
    omega
  · rintro rfl
    exact hb.freedOnce_of_perm (by decide)

lemma freedOnce_undoData_msg (hb : Built (2 + 2 * i) i i h) :
    FreedOnce (giveUp (.elem 0 0) (msgKind.undoData (.elem 0 0) i h)).trace ↔ i = 0 := by
  rw [hb.undoData_msg, hb.giveUp_freed]
  constructor
  · intro hf
    by_contra hi
    -- the nodes of the slots before are not freed
    have hone := hb.count_of_freedOnce hf (show 3 < 2 + 2 * i by omega)
    have hmem : Ptr.elem 3 0 ∈ ((List.range i).reverse.map fun j => Ptr.elem (2 + 2 * j) 0) ++
        [.elem 1 0, .elem 0 0] := List.count_pos_iff.1 (by omega)
    simp only [List.map_reverse, List.mem_append, List.mem_reverse, List.mem_map, List.mem_range,
      Ptr.elem.injEq, and_true, List.mem_cons, Nat.reduceEqDiff, reduceCtorEq, List.not_mem_nil,
      or_self, or_false] at hmem
    omega
  · rintro rfl
    exact hb.freedOnce_of_perm (by decide)

/-- The block of the payloads is freed as often as there are payloads in it. -/
lemma not_freedOnce_undoNode_msg (hb : Built (3 + 2 * i) (i + 1) i h) :
    ¬ FreedOnce (giveUp (.elem 0 0) (msgKind.undoNode (.elem 0 0) i h)).trace := by
  rw [hb.undoNode_msg, hb.giveUp_freed]
  intro hf
  have hone := hb.count_of_freedOnce hf (show 2 + 2 * i < 3 + 2 * i by omega)
  simp only [List.count_append, List.map_const', List.length_range, List.count_replicate_self]
    at hone
  have hnum : payloadNumMax = 16 := rfl
  omega

end Undo

/-! ## The calls -/

section Calls

variable {c : Kind} {grant : ℕ → Bool} {num k : ℕ} {mem : Mem} {o : Outcome}

lemma FirstFail.unique {l : ℕ} (hk : FirstFail grant k) (hl : FirstFail grant l) : k = l := by
  rcases lt_trichotomy k l with hlt | heq | hgt
  · exact absurd (hl.2 k hlt) (by simp [hk.1])
  · exact heq
  · exact absurd (hk.2 l hgt) (by simp [hl.1])

lemma exists_firstFail (grant : ℕ → Bool) (n : ℕ) :
    (∃ k < n, FirstFail grant k) ∨ ∀ k < n, grant k = true := by
  by_cases hex : ∃ k, grant k = false
  · have hfirst : FirstFail grant (Nat.find hex) :=
      ⟨Nat.find_spec hex, fun j hj => by simpa using Nat.find_min hex hj⟩
    rcases Nat.lt_or_ge (Nat.find hex) n with hlt | hge
    · exact .inl ⟨_, hlt, hfirst⟩
    · exact .inr fun k hk => hfirst.2 k (hk.trans_le hge)
  · exact .inr fun k _ => by simpa using fun hk => hex ⟨k, hk⟩

namespace AllOrNothing

lemma iff_of_fail (hk : k < 2 + 2 * num) (h0 : 0 < k) (hf : FirstFail grant k) :
    AllOrNothing num grant o ↔ ∃ msg h, o = .error msg h ∧ FreedOnce h.trace := by
  constructor
  · exact fun ha => ha.nothing k hk h0 hf
  · intro ho
    refine ⟨fun l _ _ _ => ho, fun hall => ?_⟩
    have := hall k hk
    simp [hf.1] at this

lemma iff_of_granted (hg : ∀ k < 2 + 2 * num, grant k = true) :
    AllOrNothing num grant o ↔ ∃ factory h, o = .done factory h ∧ Complete num factory h := by
  constructor
  · exact fun ha => ha.all hg
  · refine fun ho => ⟨fun k hk _ hf => ?_, fun _ => ho⟩
    have := hg k hk
    simp [hf.1] at this

end AllOrNothing

lemma Built.complete {b : ℕ} {h : Heap} (hb : Built b num num h) :
    Complete num (.elem 0 0) h := by
  have hnode : ∀ i ∈ List.range num, h.node (h.slot (.elem 0 0) i) = .elem (3 + 2 * i) 0 := by
    intro i hi
    rw [hb.slot_eq, hb.node i (List.mem_range.1 hi)]
  constructor
  · rw [List.map_congr_left hnode]
    exact hb.ring
  · intro i hi
    rw [hnode i (List.mem_range.2 hi), hb.slot_eq, hb.owner i hi]

/-- For which slots the loops free what they should. -/
structure Kind.Undoes (c : Kind) (data node : ℕ → Prop) : Prop where
  data : ∀ {i h}, Built (2 + 2 * i) i i h → h.data (.elem 1 i) = .null →
    (FreedOnce (giveUp (.elem 0 0) (c.undoData (.elem 0 0) i h)).trace ↔ data i)
  node : ∀ {i h}, Built (3 + 2 * i) (i + 1) i h → h.node (.elem 1 i) = .null →
    (FreedOnce (giveUp (.elem 0 0) (c.undoNode (.elem 0 0) i h)).trace ↔ node i)

/-- The first failing request at which a call of this kind frees what it should. -/
def Recovers (data node : ℕ → Prop) (k : ℕ) : Prop :=
  k < 2 ∨ ∃ i < 2 ^ 31, k = 2 + 2 * i ∧ data i ∨ k = 3 + 2 * i ∧ node i

lemma recovers_data {data node : ℕ → Prop} (i : ℕ) :
    Recovers data node (2 + 2 * i) ↔ i < 2 ^ 31 ∧ data i := by
  constructor
  · rintro (hk | ⟨j, hj, ⟨hk, hd⟩ | ⟨hk, -⟩⟩)
    · omega
    · obtain rfl : i = j := by omega
      exact ⟨hj, hd⟩
    · omega
  · exact fun hr => .inr ⟨i, hr.1, .inl ⟨rfl, hr.2⟩⟩

lemma recovers_node {data node : ℕ → Prop} (i : ℕ) :
    Recovers data node (3 + 2 * i) ↔ i < 2 ^ 31 ∧ node i := by
  constructor
  · rintro (hk | ⟨j, hj, ⟨hk, -⟩ | ⟨hk, hn⟩⟩)
    · omega
    · omega
    · obtain rfl : i = j := by omega
      exact ⟨hj, hn⟩
  · exact fun hr => .inr ⟨i, hr.1, .inr ⟨rfl, hr.2⟩⟩

lemma exists_error_iff {msg : String} {h : Heap} {P : Heap → Prop} :
    (∃ msg' h', Outcome.error msg h = .error msg' h' ∧ P h') ↔ P h := by
  simp

/-- Behind the overflow of the index nothing is promised. -/
lemma not_allOrNothing_overflow (hk : k < 2 + 2 * num) (hle : 2 + 2 * 2 ^ 31 ≤ k)
    (hf : FirstFail grant k) : ¬ AllOrNothing num grant (createFactory c grant num mem) := by
  rw [AllOrNothing.iff_of_fail hk (by omega) hf,
    createFactory_overflow c mem (by omega) fun l hl => hf.2 l (by omega)]
  simp

namespace Kind.Undoes

variable {data node : ℕ → Prop}

lemma fail_iff (hu : c.Undoes data node) (hk : k < 2 + 2 * num) (hf : FirstFail grant k) :
    AllOrNothing num grant (createFactory c grant num mem) ↔ Recovers data node k := by
  obtain rfl | rfl | ⟨i, rfl | rfl⟩ : k = 0 ∨ k = 1 ∨ ∃ i, k = 2 + 2 * i ∨ k = 3 + 2 * i := by
    have hk : k = 0 ∨ k = 1 ∨ k = 2 + 2 * ((k - 2) / 2) ∨ k = 3 + 2 * ((k - 2) / 2) := by omega
    exact hk.imp_right (Or.imp_right fun h => ⟨_, h⟩)
  · refine iff_of_true ⟨fun l _ hl hf' => ?_, fun hg => ?_⟩ (.inl (by omega))
    · exact absurd (hf'.2 0 hl) (by simp [hf.1])
    · exact absurd (hg 0 hk) (by simp [hf.1])
  · obtain ⟨h, htrace, ho⟩ : ∃ h, h.trace = [.alloc (.elem 0 0), .free (.elem 0 0)] ∧
        createFactory c grant num mem = .error "calloc" h :=
      createFactory_noArray c mem (hf.2 0 (by omega)) hf.1
    rw [AllOrNothing.iff_of_fail hk (by omega) hf, ho, exists_error_iff, htrace]
    exact iff_of_true (fun p => (List.nodup_singleton (Ptr.elem 0 0)).count) (.inl (by omega))
  · rw [recovers_data]
    rcases Nat.lt_or_ge i (2 ^ 31) with hlt | hge
    · obtain ⟨h, hb, hnull, ho⟩ := createFactory_noData c mem
        (show i < num by omega) hlt hf
      rw [AllOrNothing.iff_of_fail hk (by omega) hf, ho, exists_error_iff, hu.data hb hnull,
        and_iff_right hlt]
    · exact iff_of_false (not_allOrNothing_overflow hk (by omega) hf) (by omega)
  · rw [recovers_node]
    rcases Nat.lt_or_ge i (2 ^ 31) with hlt | hge
    · obtain ⟨h, hb, hnull, ho⟩ := createFactory_noNode c mem
        (show i < num by omega) hlt hf
      rw [AllOrNothing.iff_of_fail hk (by omega) hf, ho, exists_error_iff, hu.node hb hnull,
        and_iff_right hlt]
    · exact iff_of_false (not_allOrNothing_overflow hk (by omega) hf) (by omega)

/-- When a call keeps the promise, whatever its kind. -/
theorem allOrNothing_iff (hu : c.Undoes data node) :
    AllOrNothing num grant (createFactory c grant num mem) ↔
      (∃ k < 2 + 2 * num, FirstFail grant k ∧ Recovers data node k) ∨
        (num < 2 ^ 31 ∧ ∀ k < 2 + 2 * num, grant k = true) := by
  rcases exists_firstFail grant (2 + 2 * num) with ⟨k, hk, hf⟩ | hg
  · rw [hu.fail_iff hk hf]
    constructor
    · exact fun hr => .inl ⟨k, hk, hf, hr⟩
    · rintro (⟨l, -, hl, hr⟩ | ⟨-, hg⟩)
      · rwa [hf.unique hl]
      · exact absurd (hg k hk) (by simp [hf.1])
  · have hnot : ¬ ∃ k < 2 + 2 * num, FirstFail grant k ∧ Recovers data node k := by
      rintro ⟨k, hk, hf, -⟩
      exact absurd (hg k hk) (by simp [hf.1])
    rw [AllOrNothing.iff_of_granted hg, or_iff_right hnot, and_iff_left hg]
    rcases Nat.lt_or_ge num (2 ^ 31) with hlt | hge
    · obtain ⟨h, hb, ho⟩ := createFactory_done c mem hlt hg
      exact iff_of_true ⟨_, h, ho, hb.complete⟩ hlt
    · rw [createFactory_overflow c mem hge fun k hk => hg k (by omega)]
      exact iff_of_false (by simp) (by omega)

end Kind.Undoes

end Calls

/-! ## The two functions -/

section Functions

variable {grant : ℕ → Bool} {num k m : ℕ}

lemma bufKind_undoes : bufKind.Undoes (· = 0) (· = 0) :=
  ⟨freedOnce_undoData_buf, freedOnce_undoNode_buf⟩

lemma msgKind_undoes : msgKind.Undoes (· = 0) fun _ => False :=
  ⟨fun hb _ => freedOnce_undoData_msg hb,
    fun hb _ => iff_of_false (not_freedOnce_undoNode_msg hb) id⟩

lemma recovers_buf : Recovers (· = 0) (· = 0) k ↔ k < 4 := by
  constructor
  · rintro (hk | ⟨i, -, ⟨rfl, hi⟩ | ⟨rfl, hi⟩⟩) <;> omega
  · intro hk
    rcases Nat.lt_or_ge k 2 with hlt | hge
    · exact .inl hlt
    · exact .inr ⟨0, by omega, by omega⟩

lemma recovers_msg : Recovers (· = 0) (fun _ => False) k ↔ k < 3 := by
  constructor
  · rintro (hk | ⟨i, -, ⟨rfl, hi⟩ | ⟨-, hi⟩⟩)
    · omega
    · omega
    · exact hi.elim
  · intro hk
    rcases Nat.lt_or_ge k 2 with hlt | hge
    · exact .inl hlt
    · exact .inr ⟨0, by omega, .inl ⟨by omega, rfl⟩⟩

/-- The first failing request is an early one exactly if an early one fails. -/
lemma exists_firstFail_lt_iff : (∃ k < num, FirstFail grant k ∧ k < m) ↔
    ∃ k < m, k < num ∧ grant k = false := by
  constructor
  · rintro ⟨k, hk, hf, hm⟩
    exact ⟨k, hm, hk, hf.1⟩
  · rintro ⟨k, hm, hk, hg⟩
    rcases exists_firstFail grant (k + 1) with ⟨l, hl, hf⟩ | hall
    · exact ⟨l, by omega, hf, by omega⟩
    · exact absurd (hall k (Nat.lt_succ_self k)) (by simp [hg])

/-- The promise is kept if one of the first requests fails, up to those of the first slot, or if
none fails and the index stays in its range.  Of a message factory even the node of the first slot
is too late. -/
theorem all_or_nothing_iff (grant : ℕ → Bool) (mem : Mem) :
    (∀ num : UInt32, AllOrNothing num.toNat grant (createBufFactory grant num mem) ↔
      (∃ k < 4, k < 2 + 2 * num.toNat ∧ grant k = false) ∨
        (num.toNat < 2 ^ 31 ∧ ∀ k < 2 + 2 * num.toNat, grant k = true)) ∧
    (AllOrNothing msgNumMax grant (createMsgFactory grant mem) ↔
      (∃ k < 3, grant k = false) ∨ ∀ k < 2 + 2 * msgNumMax, grant k = true) := by
  constructor
  · intro num
    rw [createBufFactory, bufKind_undoes.allOrNothing_iff]
    simp only [recovers_buf, exists_firstFail_lt_iff]
  · have hnum : msgNumMax = 128 := rfl
    rw [createMsgFactory, msgKind_undoes.allOrNothing_iff]
    simp only [recovers_msg, exists_firstFail_lt_iff]
    refine or_congr (exists_congr fun k => and_congr_right fun hk => ?_) ?_
    · exact and_iff_right (by omega)
    · exact and_iff_right (by omega)

/-- Two slots: without the `memory` of the second one, the blocks of the first one are leaked, and
without its `node`, its `memory` is freed twice.  Without the first node of a message factory, its
payloads are freed sixteen times. -/
theorem not_allOrNothing_second :
    ¬ AllOrNothing 2 (· != 4) (createBufFactory (· != 4) 2
      ⟨⟨id, id, id⟩, id, id, id, id⟩) ∧
    ¬ AllOrNothing 2 (· != 5) (createBufFactory (· != 5) 2
      ⟨⟨id, id, id⟩, id, id, id, id⟩) ∧
    ¬ AllOrNothing msgNumMax (· != 3) (createMsgFactory (· != 3)
      ⟨⟨id, id, id⟩, id, id, id, id⟩) := by
  have hfail : ∀ k, FirstFail (· != k) k := fun k =>
    ⟨by simp, fun j hj => by simpa using Nat.ne_of_lt hj⟩
  refine ⟨?_, ?_, ?_⟩
  · rw [createBufFactory, show (2 : UInt32).toNat = 2 from rfl,
      bufKind_undoes.fail_iff (by decide) (hfail 4), recovers_buf]
    decide
  · rw [createBufFactory, show (2 : UInt32).toNat = 2 from rfl,
      bufKind_undoes.fail_iff (by decide) (hfail 5), recovers_buf]
    decide
  · rw [createMsgFactory, msgKind_undoes.fail_iff (by decide) (hfail 3), recovers_msg]
    decide

/-- The owners along the free list of a complete factory are its slots in index order. -/
lemma Complete.owners {factory : Ptr} {h : Heap} (hc : Complete num factory h) :
    ∃ nodes, h.list.Represents factory.listOf nodes ∧
      nodes.map h.list.owner = (List.range num).map (h.slot factory) := by
  refine ⟨_, hc.1, ?_⟩
  rw [List.map_map]
  exact List.map_congr_left fun i hi => hc.2 i (List.mem_range.1 hi)

/-- When no request fails, the functions build the free lists that the factories start with. -/
theorem createBufFactory_create {num : UInt32} (hlt : num.toNat < 2 ^ 31)
    (hg : ∀ k < 2 + 2 * num.toNat, grant k = true) (mem : Mem) {α : Type*}
    (memory : Buffer → α) : ∃ factory h nodes, createBufFactory grant num mem = .done factory h ∧
      h.list.Represents factory.listOf nodes ∧ nodes.map h.list.owner =
        (BufferFactory.create num.toNat memory).list.map (h.slot factory) := by
  obtain ⟨h, hb, ho⟩ := createFactory_done bufKind mem hlt hg
  obtain ⟨nodes, hnodes, howner⟩ := hb.complete.owners
  exact ⟨_, h, nodes, ho, hnodes, howner⟩

theorem createMsgFactory_create (hg : ∀ k < 2 + 2 * msgNumMax, grant k = true) (mem : Mem)
    {β π ρ : Type*} (payload : ℕ → ℕ → MsgPayload π ρ) :
    ∃ factory h nodes, createMsgFactory grant mem = .done factory h ∧
      h.list.Represents factory.listOf nodes ∧ nodes.map h.list.owner =
        (MsgFactory.create payload : MsgFactory β π ρ).list.map (h.slot factory) := by
  obtain ⟨h, hb, ho⟩ := createFactory_done msgKind mem (by decide) hg
  obtain ⟨nodes, hnodes, howner⟩ := hb.complete.owners
  exact ⟨_, h, nodes, ho, hnodes, howner⟩

end Functions

end RejectProcess.Factory
