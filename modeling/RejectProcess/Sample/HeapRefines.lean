import Mathlib.Data.List.Find
import RejectProcess.Sample.HeapCleared

/-!
# The lists in memory refine the sequences of buffers

`Sample/Array` says what `array.c` does to sequences of buffers.  Here a memory refines such
sequences, with the buffers at given addresses, and the functions that walk the memory do to it what
those of `Sample/Array` do to the sequences.
-/

namespace RejectProcess.ArrayHeap

open Lib

variable {α : Type*} {g : Globals α} {addr : Buffer → α} {h : Heap α} {m : ArrayMem}

/-- The sequences of `ArrayMem`, with the buffers at their addresses. -/
def seqsOf (addr : Buffer → α) (m : ArrayMem) : Seqs α where
  list := fun n => (m.list n).map addr
  free := m.sampleBuf.list.map addr

/-- The memory has the lists and the samples of `ArrayMem`. -/
structure Refines (g : Globals α) (addr : Buffer → α) (h : Heap α) (m : ArrayMem) : Prop where
  wellFormed : WellFormed g h (seqsOf addr m)
  sample : ∀ n, ∀ b ∈ m.list n, h.sampleOf (addr b) = m.sample b
  buf : ∀ n, ∀ b ∈ m.list n, (m.sampleBuf.memory b).buf = b

/-- A search in memory returns and leaves what the search of the sequence does. -/
structure ResultRefines (g : Globals α) (addr : Buffer → α) (r : Outcome α) (r' : SearchResult) :
    Prop where
  ret : r.ret = r'.ret
  reg : r.reg = r'.reg
  val : r.val = r'.val
  mem : Refines g addr r.heap r'.mem

namespace Refines

/-- The first record that passes a test is the same one. -/
lemma find (hr : Refines g addr h m) (test : SampleResult → Bool) (n : Station) :
    ((seqsOf addr m).list n).find? (fun b => test (h.sampleOf b)) =
      ((m.list n).find? fun b => test (m.sample b)).map addr := by
  change ((m.list n).map addr).find? _ = _
  rw [List.find?_map]
  congr 1
  refine List.find?_congr fun b hb => ?_
  simp only [Function.comp_apply, hr.sample n b hb]

/-- A listed buffer is in its list once. -/
lemma nodup_list (hr : Refines g addr h m) (n : Station) : (m.list n).Nodup := by
  have hring := (hr.wellFormed.lists n).nodup
  exact List.Nodup.of_map addr (List.Nodup.of_map _ (List.nodup_cons.1 hring).2)

lemma mem_list_recycle {n n' : Station} {b b' : Buffer} {x : SampleArray}
    (hb : b' ∈ (recycleRecord (m.setList n ((m.list n).erase b)) x).list n') : b' ∈ m.list n' := by
  rw [list_recycleRecord] at hb
  by_cases hn : n' = n
  · subst hn
    rw [ArrayMem.list_setList_self] at hb
    exact List.mem_of_mem_erase hb
  · rwa [ArrayMem.list_setList_of_ne _ _ hn] at hb

/-- What is left of the sequences when a listed record is given back. -/
lemma seqsOf_recycle (hr : Refines g addr h m) {n : Station} {l r : List Buffer} {b : Buffer}
    (hl : m.list n = l ++ b :: r) :
    seqsOf addr (recycleRecord (m.setList n ((m.list n).erase b)) (m.sampleBuf.memory b)) =
      (seqsOf addr m).remove n (l.map addr) (addr b) (r.map addr) := by
  have hmem : b ∈ m.list n := by simp [hl]
  have hbl : b ∉ l := by
    have hnd := hr.nodup_list n
    rw [hl] at hnd
    exact fun hc => (List.nodup_append.1 hnd).2.2 b hc b List.mem_cons_self rfl
  have herase : (m.list n).erase b = l ++ r := by
    rw [hl, List.erase_append_right _ hbl, List.erase_cons_head]
  rw [herase]
  have hlist : ∀ n', (recycleRecord (m.setList n (l ++ r)) (m.sampleBuf.memory b)).list n' =
      if n' = n then l ++ r else m.list n' := by
    intro n'
    rw [list_recycleRecord]
    split_ifs with hn
    · rw [hn, ArrayMem.list_setList_self]
    · exact ArrayMem.list_setList_of_ne _ _ hn
  rw [seqsOf, Seqs.remove, free_recycleRecord, hr.buf n b hmem, ArrayMem.sampleBuf_setList,
    List.map_append]
  congr 1
  funext n'
  rw [hlist]
  split_ifs with hn
  · rw [hn, Seqs.setList_self, List.map_append]
  · rw [Seqs.setList_of_ne _ _ hn]
    rfl

variable [DecidableEq α]

/-- A match in memory is a match in the sequence. -/
lemma found (hr : Refines g addr h m) {n : Station} {b : Buffer} (hb : b ∈ m.list n) :
    Refines g addr (ArrayHeap.found g n h (addr b)).heap
      (recycleRecord (m.setList n ((m.list n).erase b)) (m.sampleBuf.memory b)) where
  wellFormed := by
    obtain ⟨l, r, hl⟩ := List.append_of_mem hb
    rw [hr.seqsOf_recycle hl]
    refine hr.wellFormed.found ?_
    change (m.list n).map addr = _
    rw [hl, List.map_append, List.map_cons]
  sample := by
    intro n' b' hb'
    rw [ArrayMem.sample, memory_recycleRecord, ArrayMem.sampleBuf_setList]
    exact hr.sample n' b' (mem_list_recycle hb')
  buf := by
    intro n' b' hb'
    rw [memory_recycleRecord, ArrayMem.sampleBuf_setList]
    exact hr.buf n' b' (mem_list_recycle hb')

/-- A search in memory does what the search of the sequence does. -/
lemma searchList (hr : Refines g addr h m) (test : SampleResult → Bool) (n : Station) {fuel : ℕ}
    (hfuel : (m.list n).length < fuel) :
    ∃ r, ArrayHeap.searchList g test n h fuel = some r ∧
      ResultRefines g addr r (kickCommand n (searchLocked test n m)) := by
  have hlen : ((seqsOf addr m).list n).length < fuel := by simpa [seqsOf] using hfuel
  have heq := hr.wellFormed.searchList_eq test hlen
  rw [hr.find] at heq
  rw [searchLocked, searchLoop_eq_find?]
  cases hf : (m.list n).find? fun b => test (m.sample b) with
  | none =>
    rw [hf] at heq
    exact ⟨_, heq, rfl, rfl, rfl, hr⟩
  | some b =>
    rw [hf] at heq
    exact ⟨_, heq, rfl, rfl, rfl, hr.found (List.mem_of_find?_eq_some hf)⟩

theorem searchCountArray (hr : Refines g addr h m) (count pos : UInt32) {fuel : ℕ}
    (hfuel : (m.list .one).length < fuel) :
    ∃ r, ArrayHeap.searchCountArray g count pos h fuel = some r ∧
      ResultRefines g addr r (RejectProcess.searchCountArray count pos m) :=
  hr.searchList _ _ hfuel

theorem searchWheelcodeArray (hr : Refines g addr h m) (cfg : SysConfig) (wheelCode : UInt64)
    (pos : UInt32) {fuel : ℕ} (hfuel : (m.list (searchStation pos)).length < fuel) :
    ∃ r, ArrayHeap.searchWheelcodeArray g cfg wheelCode pos h fuel = some r ∧
      ResultRefines g addr r (RejectProcess.searchWheelcodeArray cfg wheelCode pos m) := by
  rw [searchWheelcodeArray_eq, searchWheelcodeArray_eq_searchList]
  exact hr.searchList _ _ hfuel

end Refines

/-! ## Clearing without searches -/

/-- The list has not been locked yet by `clear_array`. -/
def ClearPc.Ahead (pc : ClearPc α) (n : Station) : Prop :=
  pc = .lock n ∨ pc.station = some .one ∧ n = .two

namespace ClearState

/-- `clear_array` has been alone so far: it found the lists as they were at the call. -/
structure Alone (s₀ : Seqs α) (s : ClearState α) : Prop where
  log : ∀ e ∈ s.log, e.1 = .clear
  ahead : ∀ n, s.clear.Ahead n → s.seqs.list n = s₀.list n
  found : ∀ n, ¬ s.clear.Ahead n → s.found n = s₀.list n

variable {s₀ : Seqs α} {s s' : ClearState α}

lemma Alone.init (h : Heap α) (s₀ : Seqs α) : Alone s₀ (.init h s₀) where
  log := by simp [ClearState.init]
  ahead := fun _ _ => rfl
  found := by
    intro n hn
    cases n <;> simp [ClearState.init, ClearPc.Ahead, ClearPc.station] at hn

/-- Where `clear_array` moves on in a list, nothing changes ahead of it. -/
lemma Alone.goto (hs : Alone s₀ s) {n : Station} (hpc : s.clear.holding = some n)
    (hpc' : s'.clear.holding = some n) (hlog : ∀ e ∈ s'.log, e ∈ s.log ∨ e.1 = .clear)
    (hfound : s'.found = s.found) (hlist : ∀ m, m ≠ n → s'.seqs.list m = s.seqs.list m) :
    Alone s₀ s' := by
  have hahead : ∀ pc : ClearPc α, pc.holding = some n → ∀ m, pc.Ahead m ↔ n = .one ∧ m = .two := by
    intro pc hn m
    cases pc <;> simp_all [ClearPc.holding, ClearPc.Ahead, ClearPc.station]
  refine ⟨fun e he => ?_, fun m hm => ?_, fun m hm => ?_⟩
  · rcases hlog e he with he | he
    · exact hs.log e he
    · exact he
  · have hm' := (hahead _ hpc' m).1 hm
    rw [hlist m (by rw [hm'.1, hm'.2]; decide)]
    exact hs.ahead m ((hahead _ hpc m).2 hm')
  · rw [hfound]
    refine hs.found m fun hc => hm ?_
    exact (hahead _ hpc' m).2 ((hahead _ hpc m).1 hc)

lemma Alone.step [DecidableEq α] (hs : Alone s₀ s) (hstep : ClearStep g s s') : Alone s₀ s' := by
  cases hstep with
  | lock n hpc =>
    have hn : s.seqs.list n = s₀.list n := hs.ahead n (.inl hpc)
    refine ⟨hs.log, fun m hm => ?_, fun m hm => ?_⟩
    · obtain hm | ⟨hst, rfl⟩ := hm
      · cases hm
      · exact hs.ahead .two (.inr ⟨by rw [hpc]; exact hst, rfl⟩)
    · by_cases hmn : m = n
      · subst hmn
        exact (Function.update_self ..).trans hn
      · refine (Function.update_of_ne hmn ..).trans (hs.found m fun hc => hm ?_)
        rw [hpc] at hc
        obtain hc | hc := hc
        · exact absurd (ClearPc.lock.inj hc).symm hmn
        · exact .inr hc
  | stop n hpc | body n p hpc | next n p hpc =>
    exact hs.goto (by rw [hpc]; rfl) rfl (fun e he => .inl he) rfl fun _ _ => rfl
  | recycle n p hpc =>
    refine hs.goto (by rw [hpc]; rfl) rfl (fun e he => ?_) rfl fun _ _ => rfl
    rcases List.mem_append.1 he with he | he
    · exact .inl he
    · rw [List.mem_singleton.1 he]
      exact .inr rfl
  | init n hpc =>
    refine hs.goto (by rw [hpc]; rfl) rfl (fun e he => .inl he) rfl fun m hm => ?_
    exact Seqs.setList_of_ne _ _ hm
  | unlock n hpc =>
    refine ⟨hs.log, fun m hm => hs.ahead m ?_, fun m hm => hs.found m fun hc => hm ?_⟩
    · rw [hpc]
      cases n <;> cases m <;> simp_all [clearUnlock, ClearPc.Ahead, ClearPc.station]
    · rw [hpc] at hc
      cases n <;> cases m <;> simp_all [clearUnlock, ClearPc.Ahead, ClearPc.station]

lemma Alone.reach [DecidableEq α]
    (hs : Reach (ClearState.step g) (fun _ a => a.isClear = true) (.init h s₀) s) : Alone s₀ s := by
  refine hs.invariant (.init h s₀) fun s a s' hI ha hstep => ?_
  cases a with
  | clear => exact hI.step (stepClear_inv hstep)
  | search n test => cases ha

end ClearState

namespace Refines

/-- What `clear_array` leaves of the sequences. -/
lemma seqsOf_clear (hr : Refines g addr h m) :
    seqsOf addr (clearArray m) =
      { list := fun _ => []
        free := ((m.sampleBuf.list ++ m.list .one) ++ m.list .two).map addr } := by
  rw [clearArray, clearLocked, clearLocked, clearLoop_eq m _ (hr.buf .one), clearLoop_eq]
  · rw [seqsOf]
    congr 1
    funext n
    cases n <;> rfl
  · exact fun b hb => hr.buf .two b hb

/-- `clear_array` in memory, without searches, does what it does to the sequences. -/
theorem clear [DecidableEq α] (hr : Refines g addr h m) {s : ClearState α}
    (hs : Reach (ClearState.step g) (fun _ a => a.isClear = true) (.init h (seqsOf addr m)) s)
    (hdone : s.clear = .done) : Refines g addr s.heap (clearArray m) := by
  set s₀ := seqsOf addr m
  have hinv : s.Inv g s₀.records (s₀.free ++ s₀.records) s₀.free :=
    hs.invariant (.init hr.wellFormed) fun _ _ _ hI _ hstep => hI.step hstep
  have halone : s.Alone s₀ := .reach hs
  have hlist : ∀ n, s.seqs.list n = [] := fun n => hinv.emptied n (.inl (by rw [hdone]; rfl))
  have hfound : ∀ n, s.found n = s₀.list n := by
    intro n
    refine halone.found n ?_
    rw [hdone]
    cases n <;> simp [ClearPc.Ahead, ClearPc.station]
  -- all that was given back, `clear_array` gave back
  have hlog : s.log.map Prod.snd = s₀.list .one ++ s₀.list .two := by
    have hret := hinv.clearAt
    simp only [ClearState.ClearAt, hdone, hfound] at hret
    rw [← hret, ClearState.returned, ← List.filterMap_eq_map]
    refine List.filterMap_congr fun e he => ?_
    simp [halone.log e he]
  have hseqs : s.seqs = seqsOf addr (clearArray m) := by
    have hfree := hinv.free
    obtain ⟨⟨list, free⟩, hs'⟩ : ∃ q, s.seqs = q := ⟨_, rfl⟩
    rw [hs'] at hlist hfree ⊢
    rw [hr.seqsOf_clear]
    obtain rfl : list = fun _ => [] := funext hlist
    obtain rfl : free = _ := hfree
    rw [hlog, List.map_append, List.map_append, List.append_assoc]
    rfl
  have hempty : ∀ n, (clearArray m).list n = [] := by
    intro n
    have hn := hlist n
    rw [hseqs] at hn
    exact List.map_eq_nil_iff.1 hn
  refine ⟨?_, fun n b hb => ?_, fun n b hb => ?_⟩
  · rw [← hseqs]
    refine hinv.holds.wellFormed ?_ ?_
    · rw [Seqs.records, hlist, hlist]
      exact List.nil_sublist _
    · rw [Seqs.records, hlist, hlist, hinv.free, hlog, List.append_nil, List.append_nil]
      rfl
  · rw [hempty n] at hb
    cases hb
  · rw [hempty n] at hb
    cases hb

end Refines

end RejectProcess.ArrayHeap
