import RejectProcess.Sample.HeapWrite
import RejectProcess.Sample.Production

/-!
# Whole runs in memory

The calls of `array.c` one after the other, all on the circular lists: samples are stored, triggers
search, resets clear.  Every run of them does what the run on sequences of buffers does, so the
results about sequences are results about the pointers.
-/

namespace RejectProcess.ArrayHeap

open Lib

variable {α : Type*} [DecidableEq α] {g : Globals α} {addr : Buffer → α} {h h' : Heap α}
  {m : ArrayMem}

/-! ## The searches -/

omit [DecidableEq α] in
lemma all_seqsOf (addr : Buffer → α) (m : ArrayMem) :
    (seqsOf addr m).all = (m.sampleBuf.list ++ (m.list .one ++ m.list .two)).map addr := by
  rw [List.map_append, List.map_append]
  rfl

lemma layout_searchLoop {test : SampleResult → Bool} {n : Station} {fuel : ℕ} {p : α}
    {r : Outcome α} (hr : searchLoop g test n h fuel p = some r) :
    r.heap.memory = h.memory ∧ r.heap.node = h.node := by
  induction fuel generalizing p with
  | zero => cases hr
  | succ fuel ih =>
    rw [searchLoop] at hr
    split at hr
    · obtain rfl := Option.some.inj hr
      exact ⟨rfl, rfl⟩
    · simp only at hr
      split at hr
      · obtain rfl := Option.some.inj hr
        exact ⟨rfl, rfl⟩
      · exact ih hr

omit [DecidableEq α] in
/-- A search moves a buffer from a list to the pool, or none. -/
lemma perm_searchLocked (hbuf : ∀ n, ∀ b ∈ m.list n, (m.sampleBuf.memory b).buf = b)
    (test : SampleResult → Bool) (n : Station) :
    (seqsOf addr (searchLocked test n m).2).all.Perm (seqsOf addr m).all := by
  rw [all_seqsOf, all_seqsOf]
  refine List.Perm.map addr ?_
  rw [searchLocked]
  cases hf : RejectProcess.searchLoop test m (m.list n) with
  | none => exact List.Perm.refl _
  | some p =>
    rw [searchLoop_eq_find?] at hf
    have hp : p ∈ m.list n := List.mem_of_find?_eq_some hf
    have hcons := List.perm_cons_erase hp
    simp only [free_recycleRecord, list_recycleRecord, ArrayMem.sampleBuf_setList, hbuf n p hp,
      List.append_assoc]
    refine List.Perm.append_left _ ?_
    cases n with
    | one =>
      rw [ArrayMem.list_setList_self, ArrayMem.list_setList_of_ne _ _ (by decide)]
      exact (hcons.append_right _).symm
    | two =>
      rw [ArrayMem.list_setList_self, ArrayMem.list_setList_of_ne _ _ (by decide)]
      refine List.Perm.trans ?_ (hcons.append_left (m.list .one)).symm
      change (p :: (m.list .one ++ (m.list .two).erase p)).Perm _
      exact List.perm_middle.symm

/-- A search between two calls finds the memory good and leaves it good. -/
lemma Good.searchList (hg : Good g addr h m) (test : SampleResult → Bool) (n : Station) {fuel : ℕ}
    (hfuel : (m.list n).length < fuel) :
    ∃ r, ArrayHeap.searchList g test n h fuel = some r ∧
      r.reg = (kickCommand n (searchLocked test n m)).reg ∧
      r.val = (kickCommand n (searchLocked test n m)).val ∧
      Good g addr r.heap (kickCommand n (searchLocked test n m)).mem := by
  obtain ⟨r, hr, href⟩ := hg.refines.searchList test n hfuel
  obtain ⟨hmem, hnode⟩ := layout_searchLoop hr
  have hm : (kickCommand n (searchLocked test n m)).mem = (searchLocked test n m).2 := by
    rw [kickCommand]
    split <;> rfl
  refine ⟨r, hr, href.reg, href.val, href.mem, ?_⟩
  rw [hm]
  exact (hg.apart.of_perm (perm_searchLocked hg.refines.buf test n)).congr hmem hnode

/-! ## Clearing -/

section Code

variable (g) (n : Station)

/-- The loop of `clear_array`, from the node `p` on.  `none` is more rounds than `fuel`. -/
def clearLoop : ℕ → Heap α → α → Option (Heap α)
  | 0, _, _ => none
  | fuel + 1, h, p =>
    if p = g.head n then some h
    else
      let parray := h.list.owner p
      let h := h.recycle g (h.buf parray)
      clearLoop fuel h (h.list.next p)

/-- What `clear_array` does while it holds the mutex of a list. -/
def clearLocked (h : Heap α) (fuel : ℕ) : Option (Heap α) :=
  (clearLoop g n fuel h (h.list.next (g.head n))).map fun h => h.initList g n

end Code

/-- `clear_array`. -/
def clearArray (g : Globals α) (h : Heap α) (fuel : ℕ) : Option (Heap α) :=
  (clearLocked g .one h fuel).bind fun h => clearLocked g .two h fuel

/-- The loop gives back the buffers it still finds, although their records stay linked. -/
lemma Holds.clearLoop {records all : List α} {s : Seqs α} (hh : Holds g h records all s)
    {n : Station} {past rest : List α} (hl : s.list n = past ++ rest)
    (hall : ∀ b ∈ records, b ∈ all) (hnot : ∀ b ∈ rest, b ∉ s.free) (hnd : rest.Nodup) {fuel : ℕ}
    (hfuel : rest.length < fuel) :
    ∃ h', ArrayHeap.clearLoop g n fuel h ((rest.map (h.item g)).headD (g.head n)) = some h' ∧
      Holds g h' records all { s with free := s.free ++ rest } ∧
      h'.memory = h.memory ∧ h'.node = h.node ∧ h'.sample = h.sample := by
  induction rest generalizing h s past fuel with
  | nil =>
    obtain ⟨fuel, rfl⟩ := Nat.exists_eq_add_one_of_ne_zero (Nat.ne_of_gt hfuel)
    refine ⟨h, ?_, ?_, rfl, rfl, rfl⟩
    · rw [ArrayHeap.clearLoop]
      exact if_pos rfl
    · rw [List.append_nil]
      exact hh
  | cons b rest ih =>
    obtain ⟨fuel, rfl⟩ := Nat.exists_eq_add_one_of_ne_zero (Nat.ne_of_gt (Nat.zero_lt_of_lt hfuel))
    have hb : b ∈ records := hh.listed n b (by simp [hl])
    obtain ⟨hbr, hnd⟩ := List.nodup_cons.1 hnd
    have hrecycle := hh.recycle (hall b hb) (hnot b List.mem_cons_self)
    have hnext : (h.recycle g b).list.next (h.item g b) = (rest.map (h.item g)).headD (g.head n) :=
      hrecycle.next_item hl
    have hl' : s.list n = (past ++ [b]) ++ rest := by simpa using hl
    have hnot' : ∀ b' ∈ rest, b' ∉ s.free ++ [b] := by
      intro b' hb' hc
      rcases List.mem_append.1 hc with hc | hc
      · exact hnot b' (List.mem_cons_of_mem b hb') hc
      · exact hbr (List.mem_singleton.1 hc ▸ hb')
    obtain ⟨h', hloop, hholds, hmem, hnode, hsample⟩ :=
      ih hrecycle hl' hnot' hnd (Nat.lt_of_succ_lt_succ hfuel)
    refine ⟨h', ?_, ?_, hmem, hnode, hsample⟩
    · change ArrayHeap.clearLoop g n (fuel + 1) h (h.item g b) = some h'
      rw [ArrayHeap.clearLoop, if_neg (hh.item_ne_head hb n)]
      simp only
      rw [hh.owner b hb, hh.buf b hb, hnext]
      exact hloop
    · rwa [List.append_assoc] at hholds

omit [DecidableEq α] in
lemma Seqs.sublist_records (s : Seqs α) (n : Station) :
    (s.setList n []).records.Sublist s.records := by
  rw [Seqs.records]
  cases n with
  | one => exact (List.nil_sublist _).append (List.Sublist.refl _)
  | two => exact (List.Sublist.refl _).append (List.nil_sublist _)

omit [DecidableEq α] in
lemma Seqs.perm_records (s : Seqs α) (n : Station) :
    (s.list n ++ (s.setList n []).records).Perm s.records := by
  rw [Seqs.records]
  cases n with
  | one => exact List.Perm.refl _
  | two =>
    change (s.list .two ++ (s.list .one ++ [])).Perm _
    rw [List.append_nil]
    exact List.perm_append_comm

omit [DecidableEq α] in
/-- The sequences after a list has been cleared. -/
lemma seqsOf_clearLocked (hbuf : ∀ n, ∀ b ∈ m.list n, (m.sampleBuf.memory b).buf = b)
    (n : Station) :
    seqsOf addr (RejectProcess.clearLocked n m) =
      Seqs.setList { seqsOf addr m with free := (seqsOf addr m).free ++ (seqsOf addr m).list n } n
        [] := by
  rw [RejectProcess.clearLocked, clearLoop_eq _ _ (hbuf n), seqsOf, ArrayMem.list_setList,
    ArrayMem.sampleBuf_setList, Seqs.setList]
  congr 1
  · funext n'
    by_cases hn : n' = n
    · subst hn
      rw [Function.update_self, Function.update_self]
      rfl
    · rw [Function.update_of_ne hn, Function.update_of_ne hn, ArrayMem.list_setBuf]
      rfl
  · exact List.map_append

omit [DecidableEq α] in
/-- Clearing a list moves its buffers to the pool. -/
lemma perm_clearLocked (hbuf : ∀ n, ∀ b ∈ m.list n, (m.sampleBuf.memory b).buf = b) (n : Station) :
    (seqsOf addr (RejectProcess.clearLocked n m)).all.Perm (seqsOf addr m).all := by
  rw [seqsOf_clearLocked hbuf, Seqs.all]
  change (((seqsOf addr m).free ++ (seqsOf addr m).list n) ++
    ((seqsOf addr m).setList n []).records).Perm _
  rw [List.append_assoc]
  exact (Seqs.perm_records _ n).append_left _

/-- Clearing a list in memory does what it does to the sequences. -/
lemma Good.clearLocked (hg : Good g addr h m) (n : Station) {fuel : ℕ}
    (hfuel : (m.list n).length < fuel) :
    ∃ h', ArrayHeap.clearLocked g n h fuel = some h' ∧
      Good g addr h' (RejectProcess.clearLocked n m) := by
  have hwf := hg.refines.wellFormed
  have hnd : ((seqsOf addr m).list n).Nodup := by
    have hring := (hwf.lists n).nodup
    exact List.Nodup.of_map _ (List.nodup_cons.1 hring).2
  have hlen : ((seqsOf addr m).list n).length < fuel := by simpa [seqsOf] using hfuel
  obtain ⟨h', hloop, hholds, hmem, hnode, hsample⟩ := Holds.clearLoop hwf
    (List.nil_append _).symm (fun b hb => List.mem_append_right _ hb)
    (fun b hb => hwf.notMem_free hb) hnd hlen
  have hseqs : seqsOf addr (RejectProcess.clearLocked n m) = _ :=
    seqsOf_clearLocked hg.refines.buf n
  have hall : (seqsOf addr (RejectProcess.clearLocked n m)).all.Perm (seqsOf addr m).all :=
    perm_clearLocked hg.refines.buf n
  have hitems : ∀ n', ∀ b ∈ (RejectProcess.clearLocked n m).list n', b ∈ m.list n' := by
    intro n' b hb
    rw [RejectProcess.clearLocked, clearLoop_eq _ _ (hg.refines.buf n)] at hb
    by_cases hn : n' = n
    · subst hn
      simp at hb
    · rwa [ArrayMem.list_setList_of_ne _ _ hn, ArrayMem.list_setBuf] at hb
  have hmemory : (RejectProcess.clearLocked n m).sampleBuf.memory = m.sampleBuf.memory := by
    rw [RejectProcess.clearLocked, clearLoop_eq _ _ (hg.refines.buf n), ArrayMem.sampleBuf_setList]
    rfl
  refine ⟨h'.initList g n, ?_, ⟨?_, fun n' b hb => ?_, fun n' b hb => ?_⟩, ?_⟩
  · have hnext : h.list.next (g.head n) =
        (((seqsOf addr m).list n).map (h.item g)).headD (g.head n) := Ring.next_head (hwf.lists n)
    rw [ArrayHeap.clearLocked, hnext, hloop]
    rfl
  · rw [hseqs]
    refine (hholds.initList n).wellFormed (Seqs.sublist_records _ n) ?_
    rw [← hseqs]
    exact hall
  · rw [Heap.sampleOf, ArrayMem.sample, hmemory]
    change h'.sample (h'.memory (addr b)) = _
    rw [hmem, hsample]
    exact hg.refines.sample n' b (hitems n' b hb)
  · rw [hmemory]
    exact hg.refines.buf n' b (hitems n' b hb)
  · exact (hg.apart.of_perm hall).congr hmem hnode

/-! ## Runs -/

/-- What `array.c` keeps between calls: the memory and the trigger counter. -/
structure HeapState (α : Type*) where
  heap : Heap α
  curCountKt1 : UInt32

section Code

variable (g) (cfg : SysConfig)

/-- One turn of `trig1_search_tsk`. -/
def trig1SearchTsk (wheelCode : UInt64) (s : HeapState α) (fuel : ℕ) :
    Option (Outcome α × HeapState α) :=
  let curCountKt1 := s.curCountKt1 + 1
  let r :=
    if cfg.kickMode = 0 then searchCountArray g curCountKt1 1 s.heap fuel
    else searchWheelcodeArray g cfg wheelCode 1 s.heap fuel
  r.map fun r => (r, { heap := r.heap, curCountKt1 := curCountKt1 })

/-- One turn of `trig2_search_tsk`. -/
def trig2SearchTsk (wheelCode : UInt64) (s : HeapState α) (fuel : ℕ) :
    Option (Outcome α × HeapState α) :=
  (searchWheelcodeArray g cfg wheelCode 2 s.heap fuel).map fun r => (r, { s with heap := r.heap })

/-- The register writes of a sequence of events, and the state after it. -/
def runHeap (fuel : ℕ) : HeapState α → List ArrayEvent →
    Option (List (ℕ × UInt16) × HeapState α)
  | s, [] => some ([], s)
  | s, .sample r :: es =>
    (writeArray g s.heap r).bind fun h => runHeap fuel { s with heap := h } es
  | s, .trigger1 code :: es =>
    (trig1SearchTsk g cfg code s fuel).bind fun r =>
      (runHeap fuel r.2 es).map fun q => ((r.1.reg, r.1.val) :: q.1, q.2)
  | s, .trigger2 code :: es =>
    (trig2SearchTsk g cfg code s fuel).bind fun r =>
      (runHeap fuel r.2 es).map fun q => ((r.1.reg, r.1.val) :: q.1, q.2)
  | s, .reset :: es =>
    (clearArray g s.heap fuel).bind fun h => runHeap fuel { heap := h, curCountKt1 := 0 } es

end Code

/-- The memory is good, and walking any list takes fewer rounds than `fuel`. -/
structure Fits (g : Globals α) (addr : Buffer → α) (fuel : ℕ) (h : Heap α) (m : ArrayMem) :
    Prop where
  good : Good g addr h m
  length : (seqsOf addr m).all.length < fuel

/-- A state of `array.c` in memory has the memory and the counter of one on sequences. -/
structure StateRefines (g : Globals α) (addr : Buffer → α) (fuel : ℕ) (t : HeapState α)
    (s : ArrayState) : Prop where
  mem : Fits g addr fuel t.heap s.mem
  count : t.curCountKt1 = s.curCountKt1

/-- A search in memory writes the command of the search of the sequence, and leaves what that
leaves. -/
structure Answers (g : Globals α) (addr : Buffer → α) (fuel : ℕ) (r : Outcome α)
    (r' : SearchResult) : Prop where
  command : (r.reg, r.val) = (r'.reg, r'.val)
  mem : Fits g addr fuel r.heap r'.mem

omit [DecidableEq α] in
/-- A stored sample takes a buffer from the pool, and links it or not. -/
lemma length_writeArray {sample : SampleResult} {m' : ArrayMem}
    (hs : RejectProcess.writeArray sample m = some m') :
    (seqsOf addr m').all.length ≤ (seqsOf addr m).all.length := by
  rw [all_seqsOf, all_seqsOf, List.length_map, List.length_map]
  simp only [List.length_append]
  rw [RejectProcess.writeArray] at hs
  split at hs
  case isFalse =>
    obtain rfl := Option.some.inj hs
    exact le_rfl
  case isTrue =>
    obtain ⟨⟨b, f⟩, hp, rfl⟩ := Option.map_eq_some_iff.1 hs
    obtain ⟨hl, -⟩ := BufferFactory.produce_eq_some.1 hp
    have hfree := congrArg List.length hl
    rw [List.length_cons] at hfree
    cases hn : stationOf sample.pos with
    | none =>
      rw [linkSample_of_none hn]
      simp only [ArrayMem.list_setBuf, ArrayMem.sampleBuf_setBuf, BufferFactory.store_list]
      omega
    | some n =>
      rw [linkSample_of_pos (stationOf_eq_some.1 hn)]
      cases n with
      | one =>
        simp only [ArrayMem.list_setList_self, ArrayMem.list_setBuf, ArrayMem.sampleBuf_setBuf,
          ArrayMem.sampleBuf_setList, BufferFactory.store_list, List.length_append,
          ArrayMem.list_setList_of_ne _ _ (show Station.two ≠ .one by decide),
          List.length_singleton]
        omega
      | two =>
        simp only [ArrayMem.list_setList_self, ArrayMem.list_setBuf, ArrayMem.sampleBuf_setBuf,
          ArrayMem.sampleBuf_setList, BufferFactory.store_list, List.length_append,
          ArrayMem.list_setList_of_ne _ _ (show Station.one ≠ .two by decide),
          List.length_singleton]
        omega

namespace Fits

variable {fuel : ℕ}

omit [DecidableEq α] in
lemma length_list (hf : Fits g addr fuel h m) (n : Station) : (m.list n).length < fuel := by
  have hlen := hf.length
  rw [all_seqsOf] at hlen
  simp only [List.length_map, List.length_append] at hlen
  cases n <;> omega

lemma writeArray (hf : Fits g addr fuel h m) (sample : SampleResult) :
    Option.Rel (Fits g addr fuel) (ArrayHeap.writeArray g h sample)
      (RejectProcess.writeArray sample m) := by
  have hrel := hf.good.writeArray sample
  have hle : ∀ m', RejectProcess.writeArray sample m = some m' →
      (seqsOf addr m').all.length ≤ (seqsOf addr m).all.length := fun m' => length_writeArray
  revert hrel hle
  generalize ArrayHeap.writeArray g h sample = a
  generalize RejectProcess.writeArray sample m = b
  intro hrel hle
  cases hrel with
  | none => exact .none
  | some hgood => exact .some ⟨hgood, (hle _ rfl).trans_lt hf.length⟩

/-- A search returns what the search of the sequence returns. -/
lemma searchList (hf : Fits g addr fuel h m) (test : SampleResult → Bool) (n : Station) :
    ∃ r, ArrayHeap.searchList g test n h fuel = some r ∧
      Answers g addr fuel r (kickCommand n (searchLocked test n m)) := by
  obtain ⟨r, hr, hreg, hval, hgood⟩ := hf.good.searchList test n (hf.length_list n)
  refine ⟨r, hr, Prod.ext hreg hval, hgood, ?_⟩
  have hm : (kickCommand n (searchLocked test n m)).mem = (searchLocked test n m).2 := by
    rw [kickCommand]
    split <;> rfl
  rw [hm, (perm_searchLocked hf.good.refines.buf test n).length_eq]
  exact hf.length

lemma clearLocked (hf : Fits g addr fuel h m) (n : Station) :
    ∃ h', ArrayHeap.clearLocked g n h fuel = some h' ∧
      Fits g addr fuel h' (RejectProcess.clearLocked n m) := by
  obtain ⟨h', hh', hgood⟩ := hf.good.clearLocked n (hf.length_list n)
  refine ⟨h', hh', hgood, ?_⟩
  rw [(perm_clearLocked hf.good.refines.buf n).length_eq]
  exact hf.length

lemma clearArray (hf : Fits g addr fuel h m) :
    ∃ h', ArrayHeap.clearArray g h fuel = some h' ∧
      Fits g addr fuel h' (RejectProcess.clearArray m) := by
  obtain ⟨h₁, hh₁, hf₁⟩ := hf.clearLocked .one
  obtain ⟨h₂, hh₂, hf₂⟩ := hf₁.clearLocked .two
  refine ⟨h₂, ?_, hf₂⟩
  rw [ArrayHeap.clearArray, hh₁]
  exact hh₂

end Fits

namespace StateRefines

variable {cfg : SysConfig} {fuel : ℕ} {t : HeapState α} {s : ArrayState}

lemma trig1SearchTsk (ht : StateRefines g addr fuel t s) (cfg : SysConfig) (code : UInt64) :
    ∃ r, ArrayHeap.trig1SearchTsk g cfg code t fuel = some r ∧
      Answers g addr fuel r.1 (RejectProcess.trig1SearchTsk cfg code s).1 ∧
      StateRefines g addr fuel r.2 (RejectProcess.trig1SearchTsk cfg code s).2 := by
  have hcount : ∃ r, searchCountArray g (t.curCountKt1 + 1) 1 t.heap fuel = some r ∧
      Answers g addr fuel r (RejectProcess.searchCountArray (s.curCountKt1 + 1) 1 s.mem) := by
    rw [ht.count]
    exact ht.mem.searchList _ _
  have hcode : ∃ r, searchWheelcodeArray g cfg code 1 t.heap fuel = some r ∧
      Answers g addr fuel r (RejectProcess.searchWheelcodeArray cfg code 1 s.mem) := by
    rw [searchWheelcodeArray_eq, searchWheelcodeArray_eq_searchList]
    exact ht.mem.searchList _ _
  rw [ArrayHeap.trig1SearchTsk, RejectProcess.trig1SearchTsk]
  by_cases hk : cfg.kickMode = 0
  · simp only [hk, if_true]
    obtain ⟨r, hr, ha⟩ := hcount
    rw [hr]
    exact ⟨_, rfl, ha, ha.mem, congrArg (· + 1) ht.count⟩
  · simp only [hk, if_false]
    obtain ⟨r, hr, ha⟩ := hcode
    rw [hr]
    exact ⟨_, rfl, ha, ha.mem, congrArg (· + 1) ht.count⟩

lemma trig2SearchTsk (ht : StateRefines g addr fuel t s) (cfg : SysConfig) (code : UInt64) :
    ∃ r, ArrayHeap.trig2SearchTsk g cfg code t fuel = some r ∧
      Answers g addr fuel r.1 (RejectProcess.trig2SearchTsk cfg code s).1 ∧
      StateRefines g addr fuel r.2 (RejectProcess.trig2SearchTsk cfg code s).2 := by
  obtain ⟨r, hr, ha⟩ : ∃ r, searchWheelcodeArray g cfg code 2 t.heap fuel = some r ∧
      Answers g addr fuel r (RejectProcess.searchWheelcodeArray cfg code 2 s.mem) := by
    rw [searchWheelcodeArray_eq, searchWheelcodeArray_eq_searchList]
    exact ht.mem.searchList _ _
  rw [ArrayHeap.trig2SearchTsk, hr]
  exact ⟨_, rfl, ha, ha.mem, ht.count⟩

end StateRefines

/-- A run of calls in memory writes the same commands as the run on sequences, leaves a memory that
holds the sequences which that run leaves, and exits where that run exits. -/
theorem runs_refine (g : Globals α) (addr : Buffer → α) (cfg : SysConfig) (fuel : ℕ)
    (t : HeapState α) (s : ArrayState) (h : StateRefines g addr fuel t s) (es : List ArrayEvent) :
    Option.Rel (fun q r => q.1 = r.1 ∧ StateRefines g addr fuel q.2 r.2)
      (runHeap g cfg fuel t es) (runArray cfg s es) := by
  induction es generalizing t s with
  | nil => exact .some ⟨rfl, h⟩
  | cons e es ih =>
    have hthen : ∀ (r : Outcome α × HeapState α) (r' : SearchResult × ArrayState),
        Answers g addr fuel r.1 r'.1 → StateRefines g addr fuel r.2 r'.2 →
        Option.Rel (fun q r => q.1 = r.1 ∧ StateRefines g addr fuel q.2 r.2)
          ((runHeap g cfg fuel r.2 es).map fun q => ((r.1.reg, r.1.val) :: q.1, q.2))
          ((runArray cfg r'.2 es).map fun q => ((r'.1.reg, r'.1.val) :: q.1, q.2)) := by
      intro r r' ha hs
      have hrel := ih r.2 r'.2 hs
      revert hrel
      generalize runHeap g cfg fuel r.2 es = a
      generalize runArray cfg r'.2 es = b
      intro hrel
      cases hrel with
      | none => exact .none
      | some hq => exact .some ⟨congrArg₂ List.cons ha.command hq.1, hq.2⟩
    cases e with
    | sample r =>
      have hrel := h.mem.writeArray r
      rw [runHeap, runArray]
      revert hrel
      generalize ArrayHeap.writeArray g t.heap r = a
      generalize RejectProcess.writeArray r s.mem = b
      intro hrel
      cases hrel with
      | none => exact .none
      | some hf => exact ih _ _ ⟨hf, h.count⟩
    | trigger1 code =>
      obtain ⟨r, hr, ha, hs⟩ := h.trig1SearchTsk cfg code
      rw [runHeap, hr]
      exact hthen r _ ha hs
    | trigger2 code =>
      obtain ⟨r, hr, ha, hs⟩ := h.trig2SearchTsk cfg code
      rw [runHeap, hr]
      exact hthen r _ ha hs
    | reset =>
      obtain ⟨h', hh', hf⟩ := h.mem.clearArray
      rw [runHeap, hh']
      exact ih _ _ ⟨hf, rfl⟩

end RejectProcess.ArrayHeap
