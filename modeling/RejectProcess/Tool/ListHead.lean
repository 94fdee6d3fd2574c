import RejectProcess.Lib.Ring

/-!
# Intrusive lists

`tool/list.c` over a memory of `struct list_head`.  An operation is the sequence of its stores,
with the loads done first: nothing else writes the fields it loads.
-/

namespace RejectProcess

open Lib

/-- The `struct list_head` at every address. -/
structure ListMem (α : Type*) where
  next : α → α
  prev : α → α
  owner : α → α

/-- The fields of `struct list_head`. -/
inductive ListField
  | next
  | prev
  | owner
deriving DecidableEq, Repr

/-- A store to a field. -/
structure ListStore (α : Type*) where
  field : ListField
  addr : α
  val : α
deriving DecidableEq, Repr

/-- The stores of `init_list_head`. -/
def initListHead {α : Type*} (list : α) : List (ListStore α) :=
  [⟨.next, list, list⟩, ⟨.prev, list, list⟩, ⟨.owner, list, list⟩]

/-- The stores of `_list_add`. -/
def _listAdd {α : Type*} (new prev next : α) : List (ListStore α) :=
  [⟨.prev, next, new⟩, ⟨.next, new, next⟩, ⟨.prev, new, prev⟩, ⟨.next, prev, new⟩]

/-- The stores of `_list_del`. -/
def _listDel {α : Type*} (prev next : α) : List (ListStore α) :=
  [⟨.prev, next, prev⟩, ⟨.next, prev, next⟩]

namespace ListMem

variable {α : Type*} [DecidableEq α]

/-- One store. -/
def store (m : ListMem α) (st : ListStore α) : ListMem α :=
  match st.field with
  | .next => { m with next := Function.update m.next st.addr st.val }
  | .prev => { m with prev := Function.update m.prev st.addr st.val }
  | .owner => { m with owner := Function.update m.owner st.addr st.val }

/-- A sequence of stores. -/
def flush (m : ListMem α) (sts : List (ListStore α)) : ListMem α := sts.foldl store m

variable (m : ListMem α)

/-- The stores of `list_add`. -/
def listAdd (new head : α) : List (ListStore α) := _listAdd new head (m.next head)

/-- The stores of `list_add_tail`. -/
def listAddTail (new head : α) : List (ListStore α) := _listAdd new (m.prev head) head

/-- The stores of `list_del`, where `null` is the null pointer. -/
def listDel (null entry : α) : List (ListStore α) :=
  _listDel (m.prev entry) (m.next entry) ++ [⟨.next, entry, null⟩, ⟨.prev, entry, null⟩]

/-- `list_empty`. -/
def listEmpty (head : α) : Bool := m.next head == head

/-- The sequence that a list represents. -/
def Represents (head : α) (xs : List α) : Prop := Ring m.next m.prev head xs

variable {m} {head a : α} {xs ys zs : List α} {st : ListStore α} {sts : List (ListStore α)}

lemma flush_cons : m.flush (st :: sts) = (m.store st).flush sts := rfl

lemma store_next_of_ne (h : a ≠ st.addr) : (m.store st).next a = m.next a := by
  cases hf : st.field <;> simp [store, hf, h]

lemma store_prev_of_ne (h : a ≠ st.addr) : (m.store st).prev a = m.prev a := by
  cases hf : st.field <;> simp [store, hf, h]

/-- What stores leave at an address depends on the links that were there. -/
lemma flush_links_congr {m' : ListMem α} (hn : m.next a = m'.next a) (hp : m.prev a = m'.prev a) :
    (m.flush sts).next a = (m'.flush sts).next a ∧
      (m.flush sts).prev a = (m'.flush sts).prev a := by
  induction sts generalizing m m' with
  | nil => exact ⟨hn, hp⟩
  | cons st sts ih =>
    rw [flush_cons, flush_cons]
    refine ih ?_ ?_
    · cases hf : st.field <;> simp [store, hf, Function.update_apply, hn]
    · cases hf : st.field <;> simp [store, hf, Function.update_apply, hp]

/-- A store elsewhere, before other stores. -/
lemma flush_store_of_ne (h : a ≠ st.addr) :
    ((m.store st).flush sts).next a = (m.flush sts).next a ∧
      ((m.store st).flush sts).prev a = (m.flush sts).prev a :=
  flush_links_congr (store_next_of_ne h) (store_prev_of_ne h)

/-- The list operations leave the owners alone. -/
@[simp] lemma owner_flush_listAdd (new : α) :
    (m.flush (m.listAdd new head)).owner = m.owner := rfl

@[simp] lemma owner_flush_listAddTail (new : α) :
    (m.flush (m.listAddTail new head)).owner = m.owner := rfl

@[simp] lemma owner_flush_listDel (null entry : α) :
    (m.flush (m.listDel null entry)).owner = m.owner := rfl

namespace Represents

/-- `init_list_head` makes the empty list. -/
lemma init (head : α) : (m.flush (initListHead head)).Represents head [] :=
  Ring.nil (by simp [flush, initListHead, store]) (by simp [flush, initListHead, store])

omit [DecidableEq α] in
lemma congr {m' : ListMem α} (h : m.Represents head xs)
    (hm : ∀ x ∈ head :: xs, m'.next x = m.next x ∧ m'.prev x = m.prev x) :
    m'.Represents head xs :=
  Ring.congr h (fun x hx => (hm x hx).1) fun x hx => (hm x hx).2

/-- `list_add` puts a new node in front. -/
lemma add (h : m.Represents head xs) {new : α} (hnew : new ∉ head :: xs) :
    (m.flush (m.listAdd new head)).Represents head (new :: xs) := by
  have h' : Ring m.next m.prev head ([] ++ xs) := h
  exact h'.insert hnew rfl (Ring.next_head_mem h)

/-- `list_add_tail` puts a new node at the end. -/
lemma addTail (h : m.Represents head xs) {new : α} (hnew : new ∉ head :: xs) :
    (m.flush (m.listAddTail new head)).Represents head (xs ++ [new]) := by
  have h' : Ring m.next m.prev head (xs ++ []) := by
    rw [List.append_nil]
    exact h
  exact h'.insert (by rw [List.append_nil]; exact hnew) (Ring.prev_head_mem h) rfl

/-- `list_del` takes a node out. -/
lemma del (h : m.Represents head (ys ++ a :: zs)) (null : α) :
    (m.flush (m.listDel null a)).Represents head (ys ++ zs) := by
  have hp := Ring.prev_middle h
  have hn : m.next a ∈ (zs ++ [head]).head? := by
    rw [Ring.next_middle h]
    cases zs <;> rfl
  have hne : ∀ x ∈ head :: (ys ++ zs), x ≠ a := by
    rintro x hx rfl
    have hnd := h.nodup
    rw [← List.cons_append, List.nodup_middle, List.nodup_cons] at hnd
    exact hnd.1 hx
  refine (Ring.delete h hp hn).congr (fun x hx => ?_) fun x hx => ?_
  · simp [flush, listDel, _listDel, store, hne x hx]
  · simp [flush, listDel, _listDel, store, hne x hx]

/-! What an operation on one list leaves alone: the links at all addresses of other lists. -/

/-- `init_list_head` writes to the head only. -/
lemma init_frame {x : α} (hx : x ≠ head) :
    (m.flush (initListHead head)).next x = m.next x ∧
      (m.flush (initListHead head)).prev x = m.prev x ∧
      (m.flush (initListHead head)).owner x = m.owner x := by
  simp [flush, initListHead, store, hx]

/-- `list_add` writes to the list and to the new node. -/
lemma add_frame (h : m.Represents head xs) {new x : α} (hx : x ∉ head :: xs) (hnew : x ≠ new) :
    (m.flush (m.listAdd new head)).next x = m.next x ∧
      (m.flush (m.listAdd new head)).prev x = m.prev x := by
  have hne := (ne_of_mem_of_not_mem (Ring.next_head_mem_cons h) hx).symm
  have hhead := (ne_of_mem_of_not_mem List.mem_cons_self hx).symm
  simp [flush, listAdd, _listAdd, store, hne, hhead, hnew]

/-- `list_add_tail` writes to the list and to the new node. -/
lemma addTail_frame (h : m.Represents head xs) {new x : α} (hx : x ∉ head :: xs) (hnew : x ≠ new) :
    (m.flush (m.listAddTail new head)).next x = m.next x ∧
      (m.flush (m.listAddTail new head)).prev x = m.prev x := by
  have hne := (ne_of_mem_of_not_mem (List.mem_of_getLast? (Ring.prev_head_mem h)) hx).symm
  have hhead := (ne_of_mem_of_not_mem List.mem_cons_self hx).symm
  simp [flush, listAddTail, _listAdd, store, hne, hhead, hnew]

/-- `list_del` writes to the list. -/
lemma del_frame (h : m.Represents head (ys ++ a :: zs)) (null : α) {x : α}
    (hx : x ∉ head :: (ys ++ a :: zs)) :
    (m.flush (m.listDel null a)).next x = m.next x ∧
      (m.flush (m.listDel null a)).prev x = m.prev x := by
  have hprev : m.prev a ∈ head :: ys := List.mem_of_getLast? (Ring.prev_middle h)
  have hnext : m.next a ∈ zs ++ [head] := by
    rw [Ring.next_middle h]
    cases zs <;> simp
  have hp : x ≠ m.prev a := by
    rintro rfl
    rcases List.mem_cons.1 hprev with hc | hc <;> exact hx (by simp [hc])
  have hn : x ≠ m.next a := by
    rintro rfl
    rcases List.mem_append.1 hnext with hc | hc
    · exact hx (by simp [hc])
    · exact hx (by simp [List.mem_singleton.1 hc])
  have ha : x ≠ a := by
    rintro rfl
    exact hx (by simp)
  simp [flush, listDel, _listDel, store, hp, hn, ha]

end Represents

end ListMem

end RejectProcess
