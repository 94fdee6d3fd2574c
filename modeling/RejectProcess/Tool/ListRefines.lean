import RejectProcess.Lib.Run
import RejectProcess.Tool.ListHead

/-!
# Intrusive lists as sequences

What `tool/list.c` does to the sequences that the lists in a memory represent: one call on one
list, and any run of calls on any number of lists that share no node.
-/

namespace RejectProcess

open Lib

variable {α : Type*} [DecidableEq α]

namespace ListMem

variable {m m' : ListMem α} {head head' n : α} {xs ys : List α}

namespace Represents

omit [DecidableEq α] in
/-- A list is what following `next` from its head visits until it is back there, and `prev`
leads the other way. -/
theorem iff_iterate : m.Represents head xs ↔ (head :: xs).Nodup ∧
    head :: xs ++ [head] = List.iterate m.next head (xs.length + 2) ∧
      ∀ x ∈ head :: xs, m.prev (m.next x) = x :=
  Ring.iff_iterate

lemma listEmpty_iff (h : m.Represents head xs) : m.listEmpty head = true ↔ xs = [] := by
  have hnd := h.nodup
  rw [listEmpty, beq_iff_eq, Ring.next_head h]
  cases xs with
  | nil => simp
  | cons x xs => simpa using Ne.symm (List.ne_of_not_mem_cons (List.nodup_cons.1 hnd).1)

/-- `list_del` of any node of the list. -/
lemma del_of_mem (h : m.Represents head xs) (hn : n ∈ xs) (null : α) :
    (m.flush (m.listDel null n)).Represents head (xs.erase n) := by
  obtain ⟨ys, zs, rfl, hys⟩ := List.eq_append_cons_of_mem hn
  rw [List.erase_append_right _ hys, List.erase_cons_head]
  exact h.del null

/-! A list that the call is not about. -/

lemma other_init (h' : m.Represents head' ys) (hd : head ∉ head' :: ys) :
    (m.flush (initListHead head)).Represents head' ys :=
  h'.congr fun _ hx =>
    have hf := init_frame (ne_of_mem_of_not_mem hx hd)
    ⟨hf.1, hf.2.1⟩

lemma other_add (h : m.Represents head xs) (h' : m.Represents head' ys)
    (hd : (head' :: ys).Disjoint (head :: xs)) (hn : n ∉ head' :: ys) :
    (m.flush (m.listAdd n head)).Represents head' ys :=
  h'.congr fun _ hx => h.add_frame (hd hx) (ne_of_mem_of_not_mem hx hn)

lemma other_addTail (h : m.Represents head xs) (h' : m.Represents head' ys)
    (hd : (head' :: ys).Disjoint (head :: xs)) (hn : n ∉ head' :: ys) :
    (m.flush (m.listAddTail n head)).Represents head' ys :=
  h'.congr fun _ hx => h.addTail_frame (hd hx) (ne_of_mem_of_not_mem hx hn)

lemma other_del (h : m.Represents head xs) (hn : n ∈ xs) (null : α)
    (h' : m.Represents head' ys) (hd : (head' :: ys).Disjoint (head :: xs)) :
    (m.flush (m.listDel null n)).Represents head' ys := by
  obtain ⟨zs, zs', rfl⟩ := List.append_of_mem hn
  exact h'.congr fun _ hx => h.del_frame null (hd hx)

end Represents

lemma listDel_links (null : α) : (m.flush (m.listDel null n)).next n = null ∧
    (m.flush (m.listDel null n)).prev n = null := by
  simp [flush, listDel, _listDel, store]

/-- The calls of `list.c` do on the represented sequence what they do on the links, and leave all
other lists and, but for `init_list_head`, all owners alone. -/
theorem list_refines (m : ListMem α) (head n null : α) (xs : List α) :
    (m.flush (initListHead head)).Represents head [] ∧
    (∀ head' ys, m.Represents head' ys → head ∉ head' :: ys →
      (m.flush (initListHead head)).Represents head' ys) ∧
    (m.flush (m.listAdd n head)).owner = m.owner ∧
    (m.flush (m.listAddTail n head)).owner = m.owner ∧
    (m.flush (m.listDel null n)).owner = m.owner ∧
    (m.Represents head xs →
      (m.listEmpty head = true ↔ xs = []) ∧
      (n ∉ head :: xs →
        (m.flush (m.listAdd n head)).Represents head (n :: xs) ∧
        (m.flush (m.listAddTail n head)).Represents head (xs ++ [n]) ∧
        ∀ head' ys, m.Represents head' ys → (head' :: ys).Disjoint (head :: n :: xs) →
          (m.flush (m.listAdd n head)).Represents head' ys ∧
          (m.flush (m.listAddTail n head)).Represents head' ys) ∧
      (n ∈ xs →
        (m.flush (m.listDel null n)).Represents head (xs.erase n) ∧
        (m.flush (m.listDel null n)).next n = null ∧
        (m.flush (m.listDel null n)).prev n = null ∧
        ∀ head' ys, m.Represents head' ys → (head' :: ys).Disjoint (head :: xs) →
          (m.flush (m.listDel null n)).Represents head' ys)) := by
  refine ⟨.init head, fun _ _ h' hd => h'.other_init hd, owner_flush_listAdd n,
    owner_flush_listAddTail n, owner_flush_listDel null n, fun h => ?_⟩
  refine ⟨h.listEmpty_iff, fun hn => ⟨h.add hn, h.addTail hn, ?_⟩, fun hn => ?_⟩
  · intro head' ys h' hd
    have hxs : (head' :: ys).Disjoint (head :: xs) := fun x hx hx' =>
      hd hx (List.cons_subset_cons head (List.subset_cons_self n xs) hx')
    have hn' : n ∉ head' :: ys := fun hc => hd hc (by simp)
    exact ⟨h.other_add h' hxs hn', h.other_addTail h' hxs hn'⟩
  · obtain ⟨hnext, hprev⟩ := listDel_links (m := m) (n := n) null
    exact ⟨h.del_of_mem hn null, hnext, hprev, fun _ _ h' hd => h.other_del hn null h' hd⟩

theorem list_refines_two : ∃ m : ListMem ℕ, m.Represents 1 [2, 3] ∧
    (m.flush (m.listAdd 4 1)).Represents 1 [4, 2, 3] ∧
    (m.flush (m.listDel 0 2)).Represents 1 [3] := by
  let m : ListMem ℕ := ⟨fun x => x % 3 + 1, fun x => (x + 1) % 3 + 1, id⟩
  have h : m.Represents 1 [2, 3] := ⟨by decide, by decide⟩
  refine ⟨m, h, ?_, ?_⟩
  · exact ((((list_refines m 1 4 0 [2, 3]).2.2.2.2.2 h).2.1 (by decide)).1)
  · exact ((((list_refines m 1 2 0 [2, 3]).2.2.2.2.2 h).2.2 (by decide)).1)

end ListMem

/-! ## Runs on several lists -/

/-- A call on one of the lists, which are named by keys. -/
inductive ListCall (κ α : Type*)
  | init (l : κ)
  | add (new : α) (l : κ)
  | addTail (new : α) (l : κ)
  | del (entry : α)

namespace ListCall

variable {κ : Type*}

/-- The stores of a call. -/
def stores (head : κ → α) (null : α) (m : ListMem α) : ListCall κ α → List (ListStore α)
  | init l => initListHead (head l)
  | add new l => m.listAdd new (head l)
  | addTail new l => m.listAddTail new (head l)
  | del entry => m.listDel null entry

variable [DecidableEq κ]

/-- What a call is for: the sequences it leaves. -/
def seqs (s : κ → List α) : ListCall κ α → κ → List α
  | init l => Function.update s l []
  | add new l => Function.update s l (new :: s l)
  | addTail new l => Function.update s l (s l ++ [new])
  | del entry => fun l => (s l).erase entry

omit [DecidableEq α] [DecidableEq κ] in
/-- What a caller has to see to: a node that is put in is in no list yet, and one that is taken
out is in some list. -/
def Allowed (head : κ → α) (s : κ → List α) : ListCall κ α → Prop
  | init _ => True
  | add new _ | addTail new _ => ∀ l, new ∉ head l :: s l
  | del entry => ∃ l, entry ∈ s l

end ListCall

/-- The memory holds the sequences: every list is a ring, and no two rings share a node. -/
structure ListMem.Holds {κ : Type*} (head : κ → α) (m : ListMem α) (s : κ → List α) : Prop where
  ring : ∀ l, m.Represents (head l) (s l)
  apart : ∀ l l', l ≠ l' → (head l :: s l).Disjoint (head l' :: s l')

namespace ListMem.Holds

variable {κ : Type*} [DecidableEq κ] {head : κ → α} {null : α} {m m' : ListMem α} {s : κ → List α}

omit [DecidableEq α] in
/-- One list is replaced, by nodes of its own and nodes that were in no list. -/
lemma update (h : Holds head m s) {l : κ} {xs : List α} (hl : m'.Represents (head l) xs)
    (hother : ∀ l', l' ≠ l → m'.Represents (head l') (s l'))
    (hxs : ∀ x ∈ xs, x ∈ s l ∨ ∀ l', x ∉ head l' :: s l') :
    Holds head m' (Function.update s l xs) := by
  have hdisj : ∀ l', l' ≠ l → (head l' :: s l').Disjoint (head l :: xs) := by
    intro l' hne x hx hx'
    rcases List.mem_cons.1 hx' with rfl | hx'
    · exact h.apart l' l hne hx List.mem_cons_self
    · rcases hxs x hx' with hold | hnew
      · exact h.apart l' l hne hx (List.mem_cons_of_mem _ hold)
      · exact hnew l' hx
  constructor
  · intro l'
    rcases eq_or_ne l' l with rfl | hne
    · rw [Function.update_self]
      exact hl
    · rw [Function.update_of_ne hne]
      exact hother l' hne
  · intro l₁ l₂ hne
    rcases eq_or_ne l₁ l with rfl | h₁
    · rw [Function.update_self, Function.update_of_ne hne.symm]
      exact fun _ hx hx' => hdisj l₂ hne.symm hx' hx
    · rw [Function.update_of_ne h₁]
      rcases eq_or_ne l₂ l with rfl | h₂
      · rw [Function.update_self]
        exact hdisj l₁ h₁
      · rw [Function.update_of_ne h₂]
        exact h.apart l₁ l₂ hne

/-- A node is in one list only, so taking it out of its list takes it out of all. -/
lemma seqs_del (h : Holds head m s) {n : α} {l : κ} (hn : n ∈ s l) :
    (ListCall.del n : ListCall κ α).seqs s = Function.update s l ((s l).erase n) := by
  funext l'
  rcases eq_or_ne l' l with rfl | hne
  · rw [Function.update_self]
    rfl
  · rw [Function.update_of_ne hne]
    have hnot : n ∉ s l' := fun hc =>
      h.apart l' l hne (List.mem_cons_of_mem _ hc) (List.mem_cons_of_mem _ hn)
    exact List.erase_of_not_mem hnot

/-- A call does on the sequences what it does on the memory. -/
lemma step (h : Holds head m s) {c : ListCall κ α} (hc : c.Allowed head s) :
    Holds head (m.flush (c.stores head null m)) (c.seqs s) := by
  cases c with
  | init l =>
    refine h.update (.init (head l)) (fun l' hne => ?_) (by simp)
    refine (h.ring l').other_init fun hmem => ?_
    exact h.apart l' l hne hmem List.mem_cons_self
  | add n l =>
    refine h.update ((h.ring l).add (hc l)) (fun l' hne => ?_) fun x hx => ?_
    · exact (h.ring l).other_add (h.ring l') (h.apart l' l hne) (hc l')
    · rcases List.mem_cons.1 hx with rfl | hx
      · exact .inr hc
      · exact .inl hx
  | addTail n l =>
    refine h.update ((h.ring l).addTail (hc l)) (fun l' hne => ?_) fun x hx => ?_
    · exact (h.ring l).other_addTail (h.ring l') (h.apart l' l hne) (hc l')
    · rcases List.mem_append.1 hx with hx | hx
      · exact .inl hx
      · obtain rfl := List.mem_singleton.1 hx
        exact .inr hc
  | del n =>
    obtain ⟨l, hn⟩ := hc
    rw [h.seqs_del hn]
    refine h.update ((h.ring l).del_of_mem hn null) (fun l' hne => ?_) fun x hx => ?_
    · exact (h.ring l).other_del hn null (h.ring l') (h.apart l' l hne)
    · exact .inl (List.mem_of_mem_erase hx)

/-- In every run of allowed calls the memory holds the sequences that the calls are for. -/
theorem reach (h : Holds head m s) {t : ListMem α × (κ → List α)}
    (ht : Reach (fun t c => some (t.1.flush (ListCall.stores head null t.1 c), c.seqs t.2))
      (fun t c => c.Allowed head t.2) (m, s) t) : Holds head t.1 t.2 := by
  refine ht.invariant (I := fun t => Holds head t.1 t.2) h ?_
  rintro t c t' hold hok hs
  obtain rfl := Option.some.inj hs
  exact hold.step hok

end ListMem.Holds

end RejectProcess
