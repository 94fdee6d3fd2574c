import Mathlib.Data.List.Perm.Basic
import Mathlib.Data.List.Range
import Mathlib.Logic.Function.Basic
import RejectProcess.Sample.Array

/-!
# What the array operations do to the sample buffers

One lemma for each operation of `sample/array.c`, and the invariant they all keep: every one
of the 128 buffers is in the free list, in one of the two sample lists, or in the hands of
whoever took it out of the pool.
-/

namespace RejectProcess

namespace ArrayMem

variable (m : ArrayMem) (n : Station) (l : List Buffer) (f : BufferFactory SampleArray)

@[simp] lemma list_setList_self : (m.setList n l).list n = l := by
  cases n <;> rfl

lemma list_setList_of_ne {n n' : Station} (h : n' ≠ n) : (m.setList n l).list n' = m.list n' := by
  cases n <;> cases n' <;> first | rfl | exact absurd rfl h

/-- The lists after one of them is replaced. -/
lemma list_setList : (m.setList n l).list = Function.update m.list n l := by
  funext n'
  by_cases h : n' = n
  · subst h
    simp
  · rw [list_setList_of_ne m l h, Function.update_of_ne h]

@[simp] lemma sample_setList : (m.setList n l).sample = m.sample := by
  cases n <;> rfl

@[simp] lemma sampleBuf_setList : (m.setList n l).sampleBuf = m.sampleBuf := by
  cases n <;> rfl

@[simp] lemma list_setBuf : (m.setBuf f).list n = m.list n := by
  cases n <;> rfl

@[simp] lemma sampleBuf_setBuf : (m.setBuf f).sampleBuf = f := rfl

end ArrayMem

@[simp] lemma list_recycleRecord (m : ArrayMem) (r : SampleArray) (n : Station) :
    (recycleRecord m r).list n = m.list n := by
  cases n <;> rfl

@[simp] lemma free_recycleRecord (m : ArrayMem) (r : SampleArray) :
    (recycleRecord m r).sampleBuf.list = m.sampleBuf.list ++ [r.buf] := rfl

@[simp] lemma memory_recycleRecord (m : ArrayMem) (r : SampleArray) :
    (recycleRecord m r).sampleBuf.memory = m.sampleBuf.memory := rfl

/-- The station that a `pos` value names, if any. -/
def stationOf (pos : UInt32) : Option Station :=
  if pos = 1 then some .one else if pos = 2 then some .two else none

@[simp] lemma stationOf_pos (n : Station) : stationOf n.pos = some n := by
  cases n <;> rfl

lemma stationOf_eq_some {pos : UInt32} {n : Station} : stationOf pos = some n ↔ pos = n.pos := by
  constructor
  · intro h
    simp only [stationOf] at h
    split at h
    · rename_i h1
      obtain rfl : Station.one = n := by simpa using h
      exact h1
    · split at h
      · rename_i h2
        obtain rfl : Station.two = n := by simpa using h
        exact h2
      · simp at h
  · rintro rfl
    simp

/-- A sample whose `pos` names a station is linked at the tail of that station's list. -/
lemma linkSample_of_pos {r : SampleResult} {n : Station} (h : r.pos = n.pos) (buf : Buffer)
    (m : ArrayMem) :
    linkSample r buf m =
      (m.setBuf (m.sampleBuf.store buf { sample := r, buf := buf })).setList n
        (m.list n ++ [buf]) := by
  cases n <;> simp [linkSample, h, Station.pos]

/-- A sample with any other `pos` is linked nowhere. -/
lemma linkSample_of_none {r : SampleResult} (h : stationOf r.pos = none) (buf : Buffer)
    (m : ArrayMem) :
    linkSample r buf m = m.setBuf (m.sampleBuf.store buf { sample := r, buf := buf }) := by
  simp only [stationOf] at h
  split at h
  · simp at h
  · split at h
    · simp at h
    · simp [linkSample, *]

/-- Buffer memory with every byte zero, as a fresh page has it. -/
def zeroMemory : Buffer → SampleArray := fun _ =>
  { sample := { result := Vector.replicate 8 0, count := 0, wheelCode := 0, pos := 0, alarm := 0 }
    buf := 0 }

/-! ## The searches -/

lemma searchLoop_eq_find? (test : SampleResult → Bool) (m : ArrayMem) (l : List Buffer) :
    searchLoop test m l = l.find? fun p => test (m.sample p) := by
  induction l with
  | nil => rfl
  | cons p next ih =>
    simp only [searchLoop, List.find?_cons]
    cases test (m.sample p) <;> simp [ih]

/-- A search that finds nothing changes nothing. -/
lemma searchLocked_none {test : SampleResult → Bool} {n : Station} {m m' : ArrayMem}
    (h : searchLocked test n m = (none, m')) :
    (m.list n).find? (fun p => test (m.sample p)) = none ∧ m' = m := by
  rw [searchLocked, searchLoop_eq_find?] at h
  split at h
  · simp at h
  · rename_i hf
    simp only [Prod.mk.injEq, true_and] at h
    exact ⟨hf, h.symm⟩

/-- A search that finds a record takes it off its list and gives its buffer back. -/
lemma searchLocked_some {test : SampleResult → Bool} {n : Station} {m m' : ArrayMem}
    {p : Buffer} (h : searchLocked test n m = (some p, m')) :
    (m.list n).find? (fun p => test (m.sample p)) = some p ∧
      m' = recycleRecord (m.setList n ((m.list n).erase p)) (m.sampleBuf.memory p) := by
  rw [searchLocked, searchLoop_eq_find?] at h
  split at h
  · rename_i q hf
    simp only [Prod.mk.injEq, Option.some.injEq] at h
    obtain ⟨rfl, rfl⟩ := h
    exact ⟨hf, rfl⟩
  · simp at h

/-! ## The invariant of the pool -/

/-- Every buffer of the pool is in exactly one place, `hand` being the buffers that are in
neither the free list nor a sample list, and every listed record knows its own buffer. -/
structure PoolInv (m : ArrayMem) (hand : List Buffer) : Prop where
  perm : (m.sampleBuf.list ++ m.list .one ++ m.list .two ++ hand).Perm (List.range 128)
  own : ∀ n, ∀ p ∈ m.list n, (m.sampleBuf.memory p).buf = p

namespace PoolInv

variable {m : ArrayMem} {hand : List Buffer} {buf : Buffer}

lemma nodup (h : PoolInv m hand) :
    (m.sampleBuf.list ++ m.list .one ++ m.list .two ++ hand).Nodup :=
  h.perm.nodup_iff.2 List.nodup_range

/-- A buffer that is linked in one list is not in the other, not free and not in hand. -/
lemma not_mem_of_mem_list (h : PoolInv m hand) {n : Station} {p : Buffer} (hp : p ∈ m.list n) :
    p ∉ m.sampleBuf.list ∧ p ∉ hand ∧ ∀ n' ≠ n, p ∉ m.list n' := by
  have hnd := h.nodup
  simp only [List.nodup_append, List.mem_append] at hnd
  obtain ⟨⟨⟨-, -, h1⟩, -, h2⟩, -, h3⟩ := hnd
  cases n with
  | one =>
    refine ⟨fun hf => h1 p hf p hp rfl, fun hh => h3 p (.inl (.inr hp)) p hh rfl, ?_⟩
    rintro (_ | _) hne hp'
    · exact hne rfl
    · exact h2 p (.inr hp) p hp' rfl
  | two =>
    refine ⟨fun hf => h2 p (.inl hf) p hp rfl, fun hh => h3 p (.inr hp) p hh rfl, ?_⟩
    rintro (_ | _) hne hp'
    · exact h2 p (.inr hp') p hp rfl
    · exact hne rfl

lemma length_eq (h : PoolInv m hand) :
    m.sampleBuf.list.length + (m.list .one).length + (m.list .two).length + hand.length
      = 128 := by
  simpa [Nat.add_assoc] using h.perm.length_eq

/-- The pool that `array_buf_init` sets up. -/
lemma init (memory : Buffer → SampleArray) : PoolInv (arrayBufInit memory) [] where
  perm := by simp [arrayBufInit, ArrayMem.list]
  own := by rintro (_ | _) <;> simp [arrayBufInit, ArrayMem.list]

/-- `buf_factory_produce` moves the head of the free list into the caller's hands. -/
lemma produce (h : PoolInv m hand) {buf : Buffer} {f : BufferFactory SampleArray}
    (hp : m.sampleBuf.produce = some (buf, f)) : PoolInv (m.setBuf f) (buf :: hand) := by
  obtain ⟨hl, hm⟩ := BufferFactory.produce_eq_some.1 hp
  refine ⟨?_, fun n p hpn => ?_⟩
  · refine List.Perm.trans ?_ h.perm
    rw [hl]
    simp only [ArrayMem.sampleBuf_setBuf, ArrayMem.list_setBuf, List.cons_append]
    exact List.perm_middle
  · simp only [ArrayMem.list_setBuf] at hpn
    simpa [hm] using h.own n p hpn

/-- A store into a buffer in hand keeps the invariant. -/
lemma store (h : PoolInv m (buf :: hand)) (x : SampleArray) :
    PoolInv (m.setBuf (m.sampleBuf.store buf x)) (buf :: hand) := by
  refine ⟨by simpa using h.perm, fun n p hpn => ?_⟩
  simp only [ArrayMem.list_setBuf] at hpn
  have hne : p ≠ buf := by
    rintro rfl
    exact (h.not_mem_of_mem_list hpn).2.1 (by simp)
  rw [ArrayMem.sampleBuf_setBuf, BufferFactory.store_memory_of_ne _ _ hne]
  exact h.own n p hpn

/-- Linking a buffer in hand whose record knows it. -/
lemma link (h : PoolInv m (buf :: hand)) (n : Station) (hbuf : (m.sampleBuf.memory buf).buf = buf) :
    PoolInv (m.setList n (m.list n ++ [buf])) hand := by
  refine ⟨?_, fun n' p hp => ?_⟩
  · refine List.Perm.trans ?_ h.perm
    rw [List.perm_iff_count]
    intro b
    cases n with
    | one => simp [ArrayMem.list_setList_of_ne, List.count_cons]; omega
    | two => simp [ArrayMem.list_setList_of_ne, List.count_cons]
  · rw [ArrayMem.sampleBuf_setList]
    by_cases hn : n' = n
    · subst hn
      simp only [ArrayMem.list_setList_self, List.mem_append, List.mem_singleton] at hp
      rcases hp with hp | rfl
      · exact h.own n' p hp
      · exact hbuf
    · rw [ArrayMem.list_setList_of_ne _ _ hn] at hp
      exact h.own n' p hp

/-- `write_array` links the buffer it has in hand into the list that `pos` names. -/
lemma linkSample (h : PoolInv m (buf :: hand)) {r : SampleResult} {n : Station}
    (hpos : r.pos = n.pos) : PoolInv (linkSample r buf m) hand := by
  rw [linkSample_of_pos hpos]
  simpa using (h.store { sample := r, buf := buf }).link n (by simp)

/-- A sample that no list takes keeps its buffer: nobody can give it back. -/
lemma drop (h : PoolInv m (buf :: hand)) {r : SampleResult} (hr : stationOf r.pos = none) :
    PoolInv (RejectProcess.linkSample r buf m) (buf :: hand) := by
  rw [linkSample_of_none hr]
  exact h.store _

/-- A record that leaves its list takes its buffer back to the pool. -/
lemma unlink (h : PoolInv m hand) {n : Station} {p : Buffer} (hp : p ∈ m.list n) :
    PoolInv (recycleRecord (m.setList n ((m.list n).erase p)) (m.sampleBuf.memory p)) hand := by
  refine ⟨?_, fun n' q hq => ?_⟩
  · refine List.Perm.trans ?_ h.perm
    have hpos := List.count_pos_iff.2 hp
    rw [free_recycleRecord, h.own _ p hp, List.perm_iff_count]
    intro b
    cases n <;>
      simp only [ArrayMem.sampleBuf_setList, list_recycleRecord, List.count_append,
        ArrayMem.list_setList_self, List.count_erase, List.count_singleton, ne_eq, reduceCtorEq,
        not_false_eq_true, ArrayMem.list_setList_of_ne] <;>
      by_cases hb : p = b
    all_goals grind
  · rw [memory_recycleRecord, ArrayMem.sampleBuf_setList]
    rw [list_recycleRecord] at hq
    by_cases hn : n' = n
    · subst hn
      rw [ArrayMem.list_setList_self] at hq
      exact h.own n' q (List.mem_of_mem_erase hq)
    · rw [ArrayMem.list_setList_of_ne _ _ hn] at hq
      exact h.own n' q hq

/-- The searches keep the invariant. -/
lemma search (h : PoolInv m hand) {test : SampleResult → Bool} {n : Station}
    {r : Option Buffer} {m' : ArrayMem} (hs : searchLocked test n m = (r, m')) :
    PoolInv m' hand := by
  cases r with
  | none =>
    rw [(searchLocked_none hs).2]
    exact h
  | some p =>
    obtain ⟨hp, rfl⟩ := searchLocked_some hs
    exact h.unlink (List.mem_of_find?_eq_some hp)

end PoolInv

/-! ## Clearing a list -/

lemma clearLoop_eq (m : ArrayMem) (l : List Buffer)
    (hown : ∀ p ∈ l, (m.sampleBuf.memory p).buf = p) :
    clearLoop m l = m.setBuf { m.sampleBuf with list := m.sampleBuf.list ++ l } := by
  induction l generalizing m with
  | nil => simp [clearLoop, ArrayMem.setBuf]
  | cons p next ih =>
    have hp : (m.sampleBuf.memory p).buf = p := hown p (by simp)
    have hnext : ∀ q ∈ next, (m.sampleBuf.memory q).buf = q :=
      fun q hq => hown q (List.mem_cons_of_mem _ hq)
    rw [clearLoop, ih (recycleRecord m (m.sampleBuf.memory p)) hnext]
    simp [recycleRecord, BufferFactory.recycle, ArrayMem.setBuf, hp]

/-- `clear_array` appends the buffers of a list to the free list, in list order, and empties
the list. -/
lemma clearLocked_eq {m : ArrayMem} {hand : List Buffer} (h : PoolInv m hand) (n : Station) :
    clearLocked n m =
      (m.setBuf { m.sampleBuf with list := m.sampleBuf.list ++ m.list n }).setList n [] := by
  rw [clearLocked, clearLoop_eq _ _ (h.own n)]

lemma PoolInv.clear {m : ArrayMem} {hand : List Buffer} (h : PoolInv m hand) (n : Station) :
    PoolInv (clearLocked n m) hand := by
  rw [clearLocked_eq h]
  refine ⟨?_, fun n' q hq => ?_⟩
  · refine List.Perm.trans ?_ h.perm
    rw [List.perm_iff_count]
    intro b
    cases n with
    | one => simp [ArrayMem.list_setList_of_ne]
    | two => simp [ArrayMem.list_setList_of_ne]; omega
  · rw [ArrayMem.sampleBuf_setList, ArrayMem.sampleBuf_setBuf]
    by_cases hn : n' = n
    · subst hn
      simp at hq
    · rw [ArrayMem.list_setList_of_ne _ _ hn, ArrayMem.list_setBuf] at hq
      exact h.own n' q hq

/-- After `clear_array` both lists are empty. -/
lemma list_clearArray {m : ArrayMem} {hand : List Buffer} (h : PoolInv m hand) (n : Station) :
    (clearArray m).list n = [] := by
  rw [clearArray, clearLocked_eq (h.clear .one), clearLocked_eq h]
  cases n <;> simp [ArrayMem.list_setList_of_ne]

lemma PoolInv.clearArray {m : ArrayMem} {hand : List Buffer} (h : PoolInv m hand) :
    PoolInv (clearArray m) hand :=
  (h.clear .one).clear .two

end RejectProcess
