import RejectProcess.Sample.HeapRefines

/-!
# Storing a sample in memory

`write_array` and `buf_factory_produce` on the circular lists: the first node of the free list is
taken out, the record in its buffer is filled, and the node inside the record is linked at the end
of a sample list.  Before that the record is in no list, so its node has to be apart from all
others: the memory of the buffers in circulation is laid out without overlap.
-/

namespace RejectProcess.ArrayHeap

open Lib

variable {α : Type*} {g : Globals α} {addr : Buffer → α} {h h' : Heap α} {m : ArrayMem}

/-- The buffers that are free or listed, at their addresses. -/
def Seqs.all (s : Seqs α) : List α := s.free ++ s.records

/-- The nodes of some buffers and of their records, and the heads, are at different addresses. -/
def Apart (g : Globals α) (h : Heap α) (all : List α) : Prop :=
  (g.head .one :: g.head .two :: g.pool :: (all.map (h.item g) ++ all.map h.node)).Nodup

/-- A memory between two calls. -/
structure Good (g : Globals α) (addr : Buffer → α) (h : Heap α) (m : ArrayMem) : Prop where
  refines : Refines g addr h m
  apart : Apart g h (seqsOf addr m).all

section Code

variable [DecidableEq α] (g : Globals α) (h : Heap α)

namespace Heap

/-- `buf_factory_produce(g_c1_sample_buf)`.  `none` is `ERROR("buf factory crash !")`. -/
def produce : Option (α × Heap α) :=
  if h.list.listEmpty g.pool then none
  else
    let nodeOfBuf := h.list.next g.pool
    some (h.list.owner nodeOfBuf, h.listDel g nodeOfBuf)

/-- `parray->buf = buf` and the copy of the sample. -/
def fill (parray buf : α) (sample : SampleResult) : Heap α :=
  { h with
    buf := Function.update h.buf parray buf
    sample := Function.update h.sample parray sample }

/-- `list_add_tail` to the list of a station. -/
def addTail (n : Station) (new : α) : Heap α :=
  { h with list := h.list.flush (h.list.listAddTail new (g.head n)) }

/-- `parray->node.owner = parray`. -/
def setOwner (parray : α) : Heap α :=
  { h with list := h.list.store ⟨.owner, g.nodeOf parray, parray⟩ }

end Heap

/-- What `write_array` does with the buffer it has got. -/
def storeSample (sample : SampleResult) (buf : α) : Heap α :=
  let parray := h.memory buf
  let h := h.fill parray buf sample
  let h :=
    if sample.pos = 1 then h.addTail g .one (g.nodeOf parray)
    else if sample.pos = 2 then h.addTail g .two (g.nodeOf parray)
    else h
  h.setOwner g parray

/-- `write_array`. -/
def writeArray (sample : SampleResult) : Option (Heap α) :=
  if sample.pos ≠ 0 then (h.produce g).map fun r => storeSample g r.2 sample r.1
  else some h

end Code

/-! ## The layout -/

namespace Apart

variable {all all' : List α}

lemma of_perm (ha : Apart g h all) (hp : all'.Perm all) : Apart g h all' := by
  have hperm := ((((hp.map (h.item g)).append (hp.map h.node)).cons g.pool).cons
    (g.head .two)).cons (g.head .one)
  exact hperm.nodup_iff.2 ha

lemma sublist (ha : Apart g h all) (hs : all'.Sublist all) : Apart g h all' :=
  List.Nodup.sublist (((((hs.map (h.item g)).append (hs.map h.node)).cons_cons _).cons_cons
    _).cons_cons _) ha

/-- The layout depends on where the records and nodes of the buffers are, and on nothing else. -/
lemma congr (ha : Apart g h all) (hmem : h'.memory = h.memory) (hnode : h'.node = h.node) :
    Apart g h' all := by
  have hitem : h'.item g = h.item g := by
    funext b
    rw [Heap.item, hmem, Heap.item]
  rw [Apart, hitem, hnode]
  exact ha

/-- Different buffers have different records. -/
lemma memory_inj (ha : Apart g h all) {b b' : α} (hb : b ∈ all) (hb' : b' ∈ all)
    (heq : h.memory b = h.memory b') : b = b' := by
  simp only [Apart, List.nodup_cons, List.nodup_append] at ha
  exact List.inj_on_of_nodup_map ha.2.2.2.1 hb hb' (congrArg g.nodeOf heq)

end Apart

/-! ## The steps of `write_array` -/

namespace Holds

variable {records all : List α} {s : Seqs α} {b : α}

/-- Fewer records and buffers. -/
lemma mono (hh : Holds g h records all s) {records' all' : List α}
    (hrec : records'.Sublist records) (hall : all'.Sublist all)
    (hlisted : ∀ n, ∀ b ∈ s.list n, b ∈ records') (hfreed : ∀ b ∈ s.free, b ∈ all') :
    Holds g h records' all' s :=
  hh.among (hh.distinct.sublist
    (((((hrec.map _).append (hall.map _)).cons_cons _).cons_cons _).cons_cons _))
    hrec.subset hall.subset hlisted hfreed

/-- The records and the buffers in another order. -/
lemma of_perm (hh : Holds g h records all s) {records' all' : List α}
    (hrec : records'.Perm records) (hall : all'.Perm all) : Holds g h records' all' s := by
  have hperm := ((((hrec.map (h.item g)).append (hall.map h.node)).cons g.pool).cons
    (g.head .two)).cons (g.head .one)
  exact hh.among (hperm.nodup_iff.2 hh.distinct) hrec.subset hall.subset
    (fun n b hb => hrec.symm.subset (hh.listed n b hb)) fun b hb => hall.symm.subset (hh.freed b hb)

/-- The record of a new buffer is not the record of another one. -/
lemma item_inj_of_distinct {b' : α}
    (hdis : (g.head .one :: g.head .two :: g.pool ::
      ((b :: records).map (h.item g) ++ all.map h.node)).Nodup) (hb' : b' ∈ b :: records)
    (heq : h.item g b' = h.item g b) : b' = b := by
  simp only [List.nodup_cons, List.nodup_append] at hdis
  exact List.inj_on_of_nodup_map hdis.2.2.2.1 hb' List.mem_cons_self heq

variable [DecidableEq α]

/-- The first free buffer is taken. -/
lemma produce (hh : Holds g h records all s) {rest : List α} (hfree : s.free = b :: rest) :
    h.produce g = some (b, h.listDel g (h.node b)) ∧
      Holds g (h.listDel g (h.node b)) records all { s with free := rest } := by
  have hring := hh.free
  rw [hfree, List.map_cons] at hring
  have hb : b ∈ all := hh.freed b (by simp [hfree])
  have hnext : h.list.next g.pool = h.node b := Ring.next_head hring
  constructor
  · rw [Heap.produce, ListMem.listEmpty, hnext, beq_eq_false_iff_ne.2 (hh.node_ne_pool hb)]
    change some (h.list.owner (h.node b), _) = _
    rw [hh.nodeOwner b hb]
  · refine { hh with
      owner := fun b' hb' => hh.owner b' hb'
      nodeOwner := fun b' hb' => hh.nodeOwner b' hb'
      lists := fun n => (hh.lists n).congr fun x hx => ?_
      free := @ListMem.Represents.del _ _ _ _ _ [] _ hring g.null
      freed := fun b' hb' => hh.freed b' (by rw [hfree]; exact List.mem_cons_of_mem b hb') }
    have hx' : x ∉ g.pool :: ([] ++ h.node b :: rest.map h.node) := by
      intro hc
      refine hh.pool_disjoint n (x := x) ?_ hx
      rw [hfree]
      exact hc
    exact @ListMem.Represents.del_frame _ _ _ _ _ [] _ hring g.null x hx'

/-- No buffer is free. -/
lemma produce_none (hh : Holds g h records all s) (hfree : s.free = []) : h.produce g = none := by
  have hring := hh.free
  rw [hfree] at hring
  have hnext : h.list.next g.pool = g.pool := Ring.next_head hring
  rw [Heap.produce, ListMem.listEmpty, hnext, beq_self_eq_true, if_pos rfl]

/-- A buffer in hand gets its record, which from then on can be linked. -/
lemma record (hh : Holds g h records all s)
    (hdis : (g.head .one :: g.head .two :: g.pool ::
      ((b :: records).map (h.item g) ++ all.map h.node)).Nodup) (sample : SampleResult) :
    Holds g ((h.fill (h.memory b) b sample).setOwner g (h.memory b)) (b :: records) all s where
  distinct := hdis
  owner := by
    intro b' hb'
    change Function.update h.list.owner (h.item g b) (h.memory b) (h.item g b') = h.memory b'
    rw [Function.update_apply]
    split_ifs with heq
    · rw [item_inj_of_distinct hdis hb' heq]
    · rcases List.mem_cons.1 hb' with rfl | hb'
      · exact absurd rfl heq
      · exact hh.owner b' hb'
  buf := by
    intro b' hb'
    change Function.update h.buf (h.memory b) b (h.memory b') = b'
    rw [Function.update_apply]
    split_ifs with heq
    · exact (item_inj_of_distinct hdis hb' (congrArg g.nodeOf heq)).symm
    · rcases List.mem_cons.1 hb' with rfl | hb'
      · exact absurd rfl heq
      · exact hh.buf b' hb'
  nodeOwner := by
    intro b' hb'
    change Function.update h.list.owner (h.item g b) (h.memory b) (h.node b') = b'
    rw [Function.update_of_ne]
    · exact hh.nodeOwner b' hb'
    · rintro heq
      simp only [List.map_cons, List.cons_append, List.nodup_cons, List.mem_append] at hdis
      exact hdis.2.2.2.1 (.inr (heq ▸ List.mem_map_of_mem hb'))
  lists := fun n => (hh.lists n).congr fun _ _ => ⟨rfl, rfl⟩
  free := hh.free.congr fun _ _ => ⟨rfl, rfl⟩
  listed := fun n b' hb' => List.mem_cons_of_mem b (hh.listed n b' hb')
  freed := hh.freed
  apart := hh.apart

/-- A record that is in no list is linked at the end of one. -/
lemma addTail (hh : Holds g h records all s) (hb : b ∈ records) (hnot : ∀ n, b ∉ s.list n)
    (n : Station) :
    Holds g (h.addTail g n (h.item g b)) records all (s.setList n (s.list n ++ [b])) := by
  have hnew : ∀ n', h.item g b ∉ g.head n' :: (s.list n').map (h.item g) := by
    intro n' hc
    rcases List.mem_cons.1 hc with heq | hc
    · exact hh.item_ne_head hb n' heq
    · obtain ⟨b', hb', heq⟩ := List.mem_map.1 hc
      exact hnot n' (hh.item_inj (hh.listed n' b' hb') hb heq ▸ hb')
  refine { hh with
    lists := ?lists, free := ?free, listed := ?listed, apart := ?apart
    owner := fun b' hb' => hh.owner b' hb', nodeOwner := fun b' hb' => hh.nodeOwner b' hb' }
  case lists =>
    intro n'
    by_cases hn : n' = n
    · subst hn
      rw [Seqs.setList_self, List.map_append]
      exact (hh.lists n').addTail (hnew n')
    · rw [Seqs.setList_of_ne _ _ hn]
      refine (hh.lists n').congr fun x hx => ?_
      refine (hh.lists n).addTail_frame (hh.list_disjoint (Ne.symm hn) hx) ?_
      rintro rfl
      exact hnew n' hx
  case free =>
    refine hh.free.congr fun x hx => ?_
    refine (hh.lists n).addTail_frame (hh.pool_disjoint n hx) ?_
    rintro rfl
    rcases List.mem_cons.1 hx with heq | hx
    · exact hh.item_ne_pool hb heq
    · obtain ⟨b', hb', heq⟩ := List.mem_map.1 hx
      exact hh.item_ne_node hb (hh.freed b' hb') heq.symm
  case listed =>
    intro n' b' hb'
    by_cases hn : n' = n
    · subst hn
      rw [Seqs.setList_self] at hb'
      rcases List.mem_append.1 hb' with hb' | hb'
      · exact hh.listed n' b' hb'
      · rwa [List.mem_singleton.1 hb']
    · rw [Seqs.setList_of_ne _ _ hn] at hb'
      exact hh.listed n' b' hb'
  case apart =>
    intro b' h1 h2
    have happart := hh.apart b'
    cases n with
    | one =>
      rw [Seqs.setList_self] at h1
      rw [Seqs.setList_of_ne _ _ (by decide)] at h2
      rcases List.mem_append.1 h1 with h1 | h1
      · exact happart h1 h2
      · exact hnot .two (List.mem_singleton.1 h1 ▸ h2)
    | two =>
      rw [Seqs.setList_of_ne _ _ (by decide)] at h1
      rw [Seqs.setList_self] at h2
      rcases List.mem_append.1 h2 with h2 | h2
      · exact happart h1 h2
      · exact hnot .one (List.mem_singleton.1 h2 ▸ h1)

end Holds

/-! ## `write_array` -/

section Write

variable [DecidableEq α] {sample : SampleResult} {b : α}

/-- The owner of the new node may as well be set before the node is linked. -/
lemma storeSample_of_pos {n : Station} (hpos : sample.pos = n.pos) :
    storeSample g h sample b =
      ((h.fill (h.memory b) b sample).setOwner g (h.memory b)).addTail g n (h.item g b) := by
  cases n with
  | one =>
    have h1 : sample.pos = 1 := hpos
    rw [storeSample, if_pos h1]
    rfl
  | two =>
    have h2 : sample.pos = 2 := hpos
    rw [storeSample, if_neg (by rw [h2]; decide), if_pos h2]
    rfl

lemma storeSample_of_none (hpos : stationOf sample.pos = none) :
    storeSample g h sample b = (h.fill (h.memory b) b sample).setOwner g (h.memory b) := by
  have h1 : sample.pos ≠ 1 := by
    rintro hc
    simp [stationOf, hc] at hpos
  have h2 : sample.pos ≠ 2 := by
    rintro hc
    simp [stationOf, hc] at hpos
  rw [storeSample, if_neg h1, if_neg h2]

namespace Good

omit [DecidableEq α] in
/-- A buffer that is taken out of the pool is none of the listed ones. -/
lemma ne_of_mem_list (hg : Good g addr h m) {b b' : Buffer} {rest : List Buffer}
    (hfree : m.sampleBuf.list = b :: rest) {n : Station} (hb' : b' ∈ m.list n) :
    addr b' ≠ addr b := by
  intro heq
  have hnot : addr b' ∉ (seqsOf addr m).free :=
    hg.refines.wellFormed.notMem_free (n := n) (List.mem_map_of_mem hb')
  rw [heq, seqsOf, hfree] at hnot
  exact hnot List.mem_cons_self

omit [DecidableEq α] in
lemma all_eq_cons {b : Buffer} {rest : List Buffer} (hfree : m.sampleBuf.list = b :: rest) :
    (seqsOf addr m).all =
      addr b :: (rest.map addr ++ (seqsOf addr m).records) := by
  rw [Seqs.all, seqsOf, hfree]
  rfl

/-- The heap after the record has been filled, before it is linked. -/
lemma record (hg : Good g addr h m) {b : Buffer} {rest : List Buffer}
    (hfree : m.sampleBuf.list = b :: rest) (sample : SampleResult) :
    h.produce g = some (addr b, h.listDel g (h.node (addr b))) ∧
      Holds g (((h.listDel g (h.node (addr b))).fill (h.memory (addr b)) (addr b) sample).setOwner g
          (h.memory (addr b))) (addr b :: (seqsOf addr m).records) (seqsOf addr m).all
        { seqsOf addr m with free := rest.map addr } := by
  have hq : (seqsOf addr m).free = addr b :: rest.map addr := by
    rw [seqsOf, hfree]
    rfl
  obtain ⟨hproduce, hholds⟩ := Holds.produce hg.refines.wellFormed hq
  refine ⟨hproduce, hholds.record ?_ sample⟩
  refine List.Nodup.sublist ?_ hg.apart
  refine (((List.Sublist.append ?_ (List.Sublist.refl _)).cons_cons _).cons_cons _).cons_cons _
  rw [all_eq_cons hfree]
  exact ((List.sublist_append_right (rest.map addr) _).cons_cons (addr b)).map _

/-- The records of the listed buffers and of the new one, after the new one has been filled. -/
lemma sample_store (hg : Good g addr h m) {b : Buffer} {rest : List Buffer}
    (hfree : m.sampleBuf.list = b :: rest) (h' : Heap α) (m' : ArrayMem)
    (hm : m'.sampleBuf.memory = (m.sampleBuf.store b { sample := sample, buf := b }).memory)
    (hmem : h'.memory = h.memory)
    (hsample : h'.sample = Function.update h.sample (h.memory (addr b)) sample) (b' : Buffer)
    (hb' : b' = b ∨ ∃ n, b' ∈ m.list n) :
    h'.sampleOf (addr b') = m'.sample b' ∧ (m'.sampleBuf.memory b').buf = b' := by
  rw [Heap.sampleOf, ArrayMem.sample, hm, hmem, hsample]
  rcases hb' with rfl | ⟨n, hb'⟩
  · rw [Function.update_self, BufferFactory.store_memory_self]
    exact ⟨rfl, rfl⟩
  · have hne := hg.ne_of_mem_list hfree hb'
    have hmem : addr b' ∈ (seqsOf addr m).all := by
      have hrec : addr b' ∈ (seqsOf addr m).records :=
        hg.refines.wellFormed.listed n _ (List.mem_map_of_mem hb')
      exact List.mem_append_right _ hrec
    have hmemb : addr b ∈ (seqsOf addr m).all := by
      rw [all_eq_cons hfree]
      exact List.mem_cons_self
    have hrecord : h.memory (addr b') ≠ h.memory (addr b) :=
      fun heq => hne (hg.apart.memory_inj hmem hmemb heq)
    rw [Function.update_of_ne hrecord,
      BufferFactory.store_memory_of_ne _ _ fun heq => hne (congrArg addr heq)]
    exact ⟨hg.refines.sample n b' hb', hg.refines.buf n b' hb'⟩

omit [DecidableEq α] in
lemma sublist_all {b : Buffer} {rest : List Buffer} (hfree : m.sampleBuf.list = b :: rest) :
    (rest.map addr ++ (seqsOf addr m).records).Sublist (seqsOf addr m).all := by
  rw [all_eq_cons hfree]
  exact List.sublist_cons_self _ _

/-- A sample that names no station gets a buffer and is linked nowhere. -/
lemma storeSample_none (hg : Good g addr h m) {b : Buffer} {rest : List Buffer}
    (hfree : m.sampleBuf.list = b :: rest) (hpos : stationOf sample.pos = none) :
    Good g addr (storeSample g (h.listDel g (h.node (addr b))) sample (addr b))
      (linkSample sample b (m.setBuf { m.sampleBuf with list := rest })) := by
  rw [storeSample_of_none hpos, linkSample_of_none hpos]
  have hstore := hg.sample_store hfree
    (((h.listDel g (h.node (addr b))).fill (h.memory (addr b)) (addr b) sample).setOwner g
      (h.memory (addr b))) ((m.setBuf { m.sampleBuf with list := rest }).setBuf
    (((m.setBuf { m.sampleBuf with list := rest }).sampleBuf).store b
      { sample := sample, buf := b })) rfl rfl rfl
  refine ⟨⟨?_, fun n b' hb' => ?_, fun n b' hb' => ?_⟩, ?_⟩
  · exact (hg.record hfree sample).2.mono (List.sublist_cons_self _ _) (sublist_all hfree)
      hg.refines.wellFormed.listed fun b' hb' => List.mem_append_left _ hb'
  · rw [ArrayMem.list_setBuf, ArrayMem.list_setBuf] at hb'
    exact (hstore b' (.inr ⟨n, hb'⟩)).1
  · rw [ArrayMem.list_setBuf, ArrayMem.list_setBuf] at hb'
    exact (hstore b' (.inr ⟨n, hb'⟩)).2
  · exact (hg.apart.sublist (sublist_all hfree)).congr rfl rfl

/-- A sample that names a station is linked at the end of its list. -/
lemma storeSample_pos (hg : Good g addr h m) {b : Buffer} {rest : List Buffer}
    (hfree : m.sampleBuf.list = b :: rest) {n : Station} (hpos : sample.pos = n.pos) :
    Good g addr (storeSample g (h.listDel g (h.node (addr b))) sample (addr b))
      (linkSample sample b (m.setBuf { m.sampleBuf with list := rest })) := by
  rw [storeSample_of_pos hpos, linkSample_of_pos hpos, ArrayMem.list_setBuf]
  set m₁ := (m.setBuf { m.sampleBuf with list := rest }).setBuf
    (((m.setBuf { m.sampleBuf with list := rest }).sampleBuf).store b
      { sample := sample, buf := b })
  have hlist : ∀ n', m₁.list n' = m.list n' := by
    intro n'
    rw [ArrayMem.list_setBuf, ArrayMem.list_setBuf]
  have hmem : ∀ n', ∀ b' ∈ (m₁.setList n (m.list n ++ [b])).list n',
      b' = b ∨ ∃ n, b' ∈ m.list n := by
    intro n' b' hb'
    by_cases hn : n' = n
    · subst hn
      rw [ArrayMem.list_setList_self] at hb'
      rcases List.mem_append.1 hb' with hb' | hb'
      · exact .inr ⟨n', hb'⟩
      · exact .inl (List.mem_singleton.1 hb')
    · rw [ArrayMem.list_setList_of_ne _ _ hn, hlist] at hb'
      exact .inr ⟨n', hb'⟩
  have hstore := hg.sample_store hfree
    (((h.listDel g (h.node (addr b))).fill (h.memory (addr b)) (addr b) sample).setOwner g
      (h.memory (addr b))) (m₁.setList n (m.list n ++ [b]))
    (by rw [ArrayMem.sampleBuf_setList]; rfl) rfl rfl
  have hseqs : seqsOf addr (m₁.setList n (m.list n ++ [b])) =
      ({ seqsOf addr m with free := rest.map addr } : Seqs α).setList n
        ((seqsOf addr m).list n ++ [addr b]) := by
    rw [seqsOf, ArrayMem.list_setList, Seqs.setList, ArrayMem.sampleBuf_setList]
    congr 1
    funext n'
    by_cases hn : n' = n
    · subst hn
      rw [Function.update_self, Function.update_self, List.map_append]
      rfl
    · rw [Function.update_of_ne hn, Function.update_of_ne hn, hlist]
      rfl
  have hrecords : (seqsOf addr (m₁.setList n (m.list n ++ [b]))).records.Perm
      (addr b :: (seqsOf addr m).records) := by
    rw [hseqs, Seqs.records]
    cases n with
    | one =>
      rw [Seqs.setList_self, Seqs.setList_of_ne _ _ (by decide), List.append_assoc]
      exact List.perm_middle
    | two =>
      rw [Seqs.setList_self, Seqs.setList_of_ne _ _ (by decide), ← List.append_assoc]
      exact List.perm_append_singleton _ _
  have hall : (seqsOf addr (m₁.setList n (m.list n ++ [b]))).all.Perm (seqsOf addr m).all := by
    rw [all_eq_cons hfree, Seqs.all]
    refine (hrecords.append_left _).trans ?_
    rw [hseqs]
    exact List.perm_middle
  have hnot : ∀ n', addr b ∉ (seqsOf addr m).list n' := by
    intro n' hc
    obtain ⟨b', hb', heq⟩ := List.mem_map.1 hc
    exact hg.ne_of_mem_list hfree hb' heq
  refine ⟨⟨?_, fun n' b' hb' => (hstore b' (hmem n' b' hb')).1,
    fun n' b' hb' => (hstore b' (hmem n' b' hb')).2⟩, ?_⟩
  · have hholds := ((hg.record hfree sample).2.addTail List.mem_cons_self hnot n).of_perm
      hrecords hall
    rw [WellFormed, hseqs]
    rw [hseqs] at hholds
    exact hholds
  · exact (hg.apart.of_perm hall).congr rfl rfl

/-- `write_array` in memory does what it does to the sequences. -/
theorem writeArray (hg : Good g addr h m) (sample : SampleResult) :
    Option.Rel (Good g addr) (ArrayHeap.writeArray g h sample)
      (RejectProcess.writeArray sample m) := by
  rw [ArrayHeap.writeArray, RejectProcess.writeArray]
  split
  case isFalse => exact .some hg
  case isTrue =>
  cases hlist : m.sampleBuf.list with
  | nil =>
    rw [Holds.produce_none hg.refines.wellFormed (by rw [seqsOf, hlist]; rfl),
      BufferFactory.produce_eq_none.2 hlist]
    exact .none
  | cons b rest =>
    have hprod : m.sampleBuf.produce = some (b, { m.sampleBuf with list := rest }) :=
      BufferFactory.produce_eq_some.2 ⟨hlist, rfl⟩
    rw [(hg.record hlist sample).1, hprod]
    refine .some ?_
    cases hn : stationOf sample.pos with
    | none => exact hg.storeSample_none hlist hn
    | some n => exact hg.storeSample_pos hlist (stationOf_eq_some.1 hn)

end Good

end Write

end RejectProcess.ArrayHeap
