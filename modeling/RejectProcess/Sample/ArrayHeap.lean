import RejectProcess.Sample.Array
import RejectProcess.Tool.ListHead

/-!
# The sample lists in memory

`Sample/Array` has the two sample lists and the free list as sequences of buffers.  Here they are
what the code has: circular lists of `struct list_head` in a memory, one node in each record and
another one in each buffer.  This file says when a memory holds given sequences, and what
`list_del`, `buf_factory_recycle` and `init_list_head` do to them.
-/

namespace RejectProcess.ArrayHeap

open Lib

/-- The memory that `array.c` and `buf_factory.c` work on: the list nodes at their addresses, the
fields `sample` and `buf` of a `SampleArray`, and the fields `memory` and `node` of a
`struct Buffer`. -/
structure Heap (α : Type*) where
  list : ListMem α
  sample : α → SampleResult
  buf : α → α
  memory : α → α
  node : α → α

/-- The addresses of the global variables, and of the node inside a record. -/
structure Globals (α : Type*) where
  /-- `&g_k1_sample_list` and `&g_k2_sample_list`. -/
  head : Station → α
  /-- `&g_c1_sample_buf->list`. -/
  pool : α
  /-- `(void *)0`. -/
  null : α
  /-- `&parray->node`. -/
  nodeOf : α → α

/-- The buffers that are linked in the sample lists, and the free ones, in the order of the
lists. -/
structure Seqs (α : Type*) where
  list : Station → List α
  free : List α

variable {α : Type*}

/-- The node by which the record in a buffer is linked. -/
def Heap.item (g : Globals α) (h : Heap α) (b : α) : α := g.nodeOf (h.memory b)

/-- The sample in a buffer. -/
def Heap.sampleOf (h : Heap α) (b : α) : SampleResult := h.sample (h.memory b)

/-- The records in the buffers `records` know their buffers, and the nodes of these records and of
the buffers `all` know what they are part of.  No two nodes are at one address. -/
structure Placed (g : Globals α) (h : Heap α) (records all : List α) : Prop where
  distinct : (g.head .one :: g.head .two :: g.pool ::
    (records.map (h.item g) ++ all.map h.node)).Nodup
  owner : ∀ b ∈ records, h.list.owner (h.item g b) = h.memory b
  buf : ∀ b ∈ records, h.buf (h.memory b) = b
  nodeOwner : ∀ b ∈ all, h.list.owner (h.node b) = b

/-- The memory holds the sequences: three well-formed circular lists. -/
structure Holds (g : Globals α) (h : Heap α) (records all : List α) (s : Seqs α) : Prop
    extends Placed g h records all where
  lists : ∀ n, h.list.Represents (g.head n) ((s.list n).map (h.item g))
  free : h.list.Represents g.pool (s.free.map h.node)
  listed : ∀ n, ∀ b ∈ s.list n, b ∈ records
  freed : ∀ b ∈ s.free, b ∈ all
  apart : ∀ b ∈ s.list .one, b ∉ s.list .two

namespace Heap

variable [DecidableEq α] (g : Globals α) (h : Heap α)

/-- `list_del(p)`. -/
def listDel (p : α) : Heap α := { h with list := h.list.flush (h.list.listDel g.null p) }

/-- `buf_factory_recycle(0, buf, g_c1_sample_buf)`. -/
def recycle (buf : α) : Heap α :=
  { h with list := h.list.flush (h.list.listAddTail (h.node buf) g.pool) }

/-- `init_list_head` of the list of a station. -/
def initList (n : Station) : Heap α :=
  { h with list := h.list.flush (initListHead (g.head n)) }

end Heap

/-! ## The addresses are distinct -/

namespace Placed

variable {g : Globals α} {h : Heap α} {records all : List α}

lemma item_inj (hp : Placed g h records all) {b b' : α} (hb : b ∈ records) (hb' : b' ∈ records)
    (heq : h.item g b = h.item g b') : b = b' := by
  have hnd := hp.distinct
  simp only [List.nodup_cons, List.nodup_append] at hnd
  exact List.inj_on_of_nodup_map hnd.2.2.2.1 hb hb' heq

lemma node_inj (hp : Placed g h records all) {b b' : α} (hb : b ∈ all) (hb' : b' ∈ all)
    (heq : h.node b = h.node b') : b = b' := by
  have hnd := hp.distinct
  simp only [List.nodup_cons, List.nodup_append] at hnd
  exact List.inj_on_of_nodup_map hnd.2.2.2.2.1 hb hb' heq

lemma item_ne_node (hp : Placed g h records all) {b b' : α} (hb : b ∈ records) (hb' : b' ∈ all) :
    h.item g b ≠ h.node b' := by
  have hnd := hp.distinct
  simp only [List.nodup_cons, List.nodup_append] at hnd
  exact hnd.2.2.2.2.2 _ (List.mem_map_of_mem hb) _ (List.mem_map_of_mem hb')

lemma item_ne_head (hp : Placed g h records all) {b : α} (hb : b ∈ records) (n : Station) :
    h.item g b ≠ g.head n := by
  have hnd := hp.distinct
  simp only [List.nodup_cons, List.mem_cons, List.mem_append, not_or] at hnd
  have hmem : h.item g b ∈ records.map (h.item g) := List.mem_map_of_mem hb
  rintro heq
  rw [heq] at hmem
  cases n with
  | one => exact hnd.1.2.2.1 hmem
  | two => exact hnd.2.1.2.1 hmem

lemma item_ne_pool (hp : Placed g h records all) {b : α} (hb : b ∈ records) :
    h.item g b ≠ g.pool := by
  have hnd := hp.distinct
  simp only [List.nodup_cons, List.mem_append, not_or] at hnd
  intro heq
  exact hnd.2.2.1.1 (heq ▸ List.mem_map_of_mem hb)

lemma node_ne_head (hp : Placed g h records all) {b : α} (hb : b ∈ all) (n : Station) :
    h.node b ≠ g.head n := by
  have hnd := hp.distinct
  simp only [List.nodup_cons, List.mem_cons, List.mem_append, not_or] at hnd
  have hmem : h.node b ∈ all.map h.node := List.mem_map_of_mem hb
  rintro heq
  rw [heq] at hmem
  cases n with
  | one => exact hnd.1.2.2.2 hmem
  | two => exact hnd.2.1.2.2 hmem

lemma node_ne_pool (hp : Placed g h records all) {b : α} (hb : b ∈ all) : h.node b ≠ g.pool := by
  have hnd := hp.distinct
  simp only [List.nodup_cons, List.mem_append, not_or] at hnd
  intro heq
  exact hnd.2.2.1.2 (heq ▸ List.mem_map_of_mem hb)

lemma head_ne (hp : Placed g h records all) {n m : Station} (hne : n ≠ m) :
    g.head n ≠ g.head m := by
  have hnd := hp.distinct
  simp only [List.nodup_cons, List.mem_cons, not_or] at hnd
  cases n <;> cases m <;> first | exact absurd rfl hne | exact hnd.1.1 | exact Ne.symm hnd.1.1

lemma head_ne_pool (hp : Placed g h records all) (n : Station) : g.head n ≠ g.pool := by
  have hnd := hp.distinct
  simp only [List.nodup_cons, List.mem_cons, not_or] at hnd
  cases n with
  | one => exact hnd.1.2.1
  | two => exact hnd.2.1.1

end Placed

/-! ## What the list operations do to the sequences -/

/-- Replace the sequence of a station. -/
def Seqs.setList (s : Seqs α) (n : Station) (l : List α) : Seqs α :=
  { s with list := Function.update s.list n l }

@[simp] lemma Seqs.setList_self (s : Seqs α) (n : Station) (l : List α) :
    (s.setList n l).list n = l := Function.update_self ..

lemma Seqs.setList_of_ne (s : Seqs α) {n m : Station} (l : List α) (h : m ≠ n) :
    (s.setList n l).list m = s.list m := Function.update_of_ne h ..

namespace Holds

variable {g : Globals α} {h h' : Heap α} {records all : List α} {s : Seqs α}

/-- The nodes of one sample list are not in the other. -/
lemma list_disjoint (hh : Holds g h records all s) {n m : Station} (hne : n ≠ m) {x : α}
    (hx : x ∈ g.head m :: (s.list m).map (h.item g)) :
    x ∉ g.head n :: (s.list n).map (h.item g) := by
  have happart : ∀ b ∈ s.list m, b ∉ s.list n := by
    intro b hb hb'
    cases n <;> cases m
    · exact hne rfl
    · exact hh.apart b hb' hb
    · exact hh.apart b hb hb'
    · exact hne rfl
  rintro hx'
  rcases List.mem_cons.1 hx with rfl | hx <;> rcases List.mem_cons.1 hx' with heq | hx'
  · exact hh.head_ne hne.symm heq
  · obtain ⟨b, hb, heq⟩ := List.mem_map.1 hx'
    exact hh.item_ne_head (hh.listed n b hb) m heq
  · obtain ⟨b, hb, rfl⟩ := List.mem_map.1 hx
    exact hh.item_ne_head (hh.listed m b hb) n heq
  · obtain ⟨b, hb, rfl⟩ := List.mem_map.1 hx
    obtain ⟨b', hb', heq⟩ := List.mem_map.1 hx'
    obtain rfl := hh.item_inj (hh.listed n b' hb') (hh.listed m b hb) heq
    exact happart b' hb hb'

/-- The link from one record to the next. -/
lemma next_item (hh : Holds g h records all s) {n : Station} {l r : List α} {b : α}
    (hl : s.list n = l ++ b :: r) :
    h.list.next (h.item g b) = (r.map (h.item g)).headD (g.head n) := by
  have hring := hh.lists n
  rw [hl, List.map_append, List.map_cons] at hring
  exact Ring.next_middle hring

/-- The nodes of the free list are in no sample list. -/
lemma pool_disjoint (hh : Holds g h records all s) (n : Station) {x : α}
    (hx : x ∈ g.pool :: s.free.map h.node) : x ∉ g.head n :: (s.list n).map (h.item g) := by
  rintro hx'
  rcases List.mem_cons.1 hx with rfl | hx <;> rcases List.mem_cons.1 hx' with heq | hx'
  · exact hh.head_ne_pool n heq.symm
  · obtain ⟨b, hb, heq⟩ := List.mem_map.1 hx'
    exact hh.item_ne_pool (hh.listed n b hb) heq
  · obtain ⟨b, hb, rfl⟩ := List.mem_map.1 hx
    exact hh.node_ne_head (hh.freed b hb) n heq
  · obtain ⟨b, hb, rfl⟩ := List.mem_map.1 hx
    obtain ⟨b', hb', heq⟩ := List.mem_map.1 hx'
    exact hh.item_ne_node (hh.listed n b' hb') (hh.freed b hb) heq

/-- A change of the list of one station that leaves everything else alone. -/
lemma setList (hh : Holds g h records all s) {n : Station} {l : List α} {list : ListMem α}
    (hnew : list.Represents (g.head n) (l.map (h.item g))) (hsub : ∀ b ∈ l, b ∈ s.list n)
    (hframe : ∀ x ∉ g.head n :: (s.list n).map (h.item g),
      list.next x = h.list.next x ∧ list.prev x = h.list.prev x)
    (howner : ∀ x, x ≠ g.head n → list.owner x = h.list.owner x) :
    Holds g { h with list := list } records all (s.setList n l) where
  distinct := hh.distinct
  owner := fun b hb => (howner _ (hh.item_ne_head hb n)).trans (hh.owner b hb)
  buf := hh.buf
  nodeOwner := fun b hb => (howner _ (hh.node_ne_head hb n)).trans (hh.nodeOwner b hb)
  lists := by
    intro m
    by_cases hm : m = n
    · subst hm
      rw [Seqs.setList_self]
      exact hnew
    · rw [Seqs.setList_of_ne _ _ hm]
      exact (hh.lists m).congr fun x hx => hframe x (hh.list_disjoint (Ne.symm hm) hx)
  free := hh.free.congr fun x hx => hframe x (hh.pool_disjoint n hx)
  listed := by
    intro m b hb
    by_cases hm : m = n
    · subst hm
      rw [Seqs.setList_self] at hb
      exact hh.listed m b (hsub b hb)
    · rw [Seqs.setList_of_ne _ _ hm] at hb
      exact hh.listed m b hb
  freed := hh.freed
  apart := by
    have hle : ∀ m, ∀ b ∈ (s.setList n l).list m, b ∈ s.list m := by
      intro m b hb
      by_cases hm : m = n
      · subst hm
        rw [Seqs.setList_self] at hb
        exact hsub b hb
      · rwa [Seqs.setList_of_ne _ _ hm] at hb
    exact fun b hb hb' => hh.apart b (hle .one b hb) (hle .two b hb')

/-- The same lists among other records and buffers, none of them new. -/
lemma among (hh : Holds g h records all s) {records' all' : List α}
    (hdistinct : (g.head .one :: g.head .two :: g.pool ::
      (records'.map (h.item g) ++ all'.map h.node)).Nodup)
    (hrec : records' ⊆ records) (hall : all' ⊆ all)
    (hlisted : ∀ n, ∀ b ∈ s.list n, b ∈ records') (hfreed : ∀ b ∈ s.free, b ∈ all') :
    Holds g h records' all' s where
  distinct := hdistinct
  owner b hb := hh.owner b (hrec hb)
  buf b hb := hh.buf b (hrec hb)
  nodeOwner b hb := hh.nodeOwner b (hall hb)
  lists := hh.lists
  free := hh.free
  listed := hlisted
  freed := hfreed
  apart := hh.apart

variable [DecidableEq α]

/-- `list_del` takes a record out of its list. -/
lemma listDel (hh : Holds g h records all s) {n : Station} {l r : List α} {b : α}
    (hl : s.list n = l ++ b :: r) :
    Holds g (h.listDel g (h.item g b)) records all (s.setList n (l ++ r)) := by
  have hring := hh.lists n
  rw [hl, List.map_append, List.map_cons] at hring
  refine hh.setList ?_ ?_ ?_ fun _ _ => by rw [ListMem.owner_flush_listDel]
  · rw [List.map_append]
    exact hring.del g.null
  · intro x hx
    rw [hl]
    rcases List.mem_append.1 hx with hx | hx <;> simp [hx]
  · intro x hx
    rw [hl, List.map_append, List.map_cons] at hx
    exact hring.del_frame g.null hx

/-- `init_list_head` drops the whole list. -/
lemma initList (hh : Holds g h records all s) (n : Station) :
    Holds g (h.initList g n) records all (s.setList n []) := by
  refine hh.setList (.init _) (by simp) ?_ ?_
  · intro x hx
    have hne : x ≠ g.head n := fun hc => hx (by simp [hc])
    exact ⟨(ListMem.Represents.init_frame hne).1, (ListMem.Represents.init_frame hne).2.1⟩
  · exact fun x hne => (ListMem.Represents.init_frame hne).2.2

/-- A recycled buffer leaves the sample lists as they are, link by link. -/
lemma recycle_frame (hh : Holds g h records all s) {b : α} (hb : b ∈ all) (n : Station) {x : α}
    (hx : x ∈ g.head n :: (s.list n).map (h.item g)) :
    (h.recycle g b).list.next x = h.list.next x ∧ (h.recycle g b).list.prev x = h.list.prev x := by
  have hpool : x ∉ g.pool :: s.free.map h.node := fun hc => hh.pool_disjoint n hc hx
  have hnode : x ≠ h.node b := by
    rintro rfl
    rcases List.mem_cons.1 hx with heq | hx
    · exact hh.node_ne_head hb n heq
    · obtain ⟨b', hb', heq⟩ := List.mem_map.1 hx
      exact hh.item_ne_node (hh.listed n b' hb') hb heq
  exact hh.free.addTail_frame hpool hnode

/-- `buf_factory_recycle` puts a buffer at the end of the free list, also when its record is still
linked in a sample list. -/
lemma recycle (hh : Holds g h records all s) {b : α} (hb : b ∈ all) (hfree : b ∉ s.free) :
    Holds g (h.recycle g b) records all { s with free := s.free ++ [b] } where
  distinct := hh.distinct
  owner := hh.owner
  buf := hh.buf
  nodeOwner := hh.nodeOwner
  lists := by
    intro n
    exact (hh.lists n).congr fun x hx => hh.recycle_frame hb n hx
  free := by
    rw [List.map_append]
    refine hh.free.addTail ?_
    rw [List.mem_cons, not_or]
    refine ⟨hh.node_ne_pool hb, ?_⟩
    intro hc
    obtain ⟨b', hb', heq⟩ := List.mem_map.1 hc
    exact hfree (hh.node_inj (hh.freed b' hb') hb heq ▸ hb')
  listed := hh.listed
  freed := by
    intro x hx
    rcases List.mem_append.1 hx with hx | hx
    · exact hh.freed x hx
    · rw [List.mem_singleton.1 hx]
      exact hb
  apart := hh.apart

end Holds

/-! ## Well-formed lists -/

/-- The buffers whose records are linked. -/
def Seqs.records (s : Seqs α) : List α := s.list .one ++ s.list .two

/-- The three lists of a memory are well-formed and hold the sequences, and have no node in
common. -/
def WellFormed (g : Globals α) (h : Heap α) (s : Seqs α) : Prop :=
  Holds g h s.records (s.free ++ s.records) s

/-- Nothing more than the lists themselves has to be distinct. -/
lemma Holds.wellFormed {g : Globals α} {h : Heap α} {records all : List α} {s : Seqs α}
    (hh : Holds g h records all s) (hrec : s.records.Sublist records)
    (hall : (s.free ++ s.records).Perm all) : WellFormed g h s := by
  have hdistinct : (g.head .one :: g.head .two :: g.pool ::
      (s.records.map (h.item g) ++ (s.free ++ s.records).map h.node)).Nodup := by
    have hperm : (g.head .one :: g.head .two :: g.pool ::
        (s.records.map (h.item g) ++ (s.free ++ s.records).map h.node)).Perm
        (g.head .one :: g.head .two :: g.pool ::
          (s.records.map (h.item g) ++ all.map h.node)) :=
      (((hall.map h.node).append_left _).cons _ |>.cons _).cons _
    refine hperm.nodup_iff.2 (hh.distinct.sublist ?_)
    exact (((hrec.map _).append_right _).cons_cons _ |>.cons_cons _).cons_cons _
  refine hh.among hdistinct hrec.subset hall.subset ?_ fun b hb => List.mem_append_left _ hb
  intro n b hb
  cases n
  · exact List.mem_append_left _ hb
  · exact List.mem_append_right _ hb

end RejectProcess.ArrayHeap
