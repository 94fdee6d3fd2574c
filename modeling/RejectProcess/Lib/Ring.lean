import Mathlib.Data.List.Chain
import Mathlib.Data.List.Iterate
import Mathlib.Data.List.Nodup
import Mathlib.Logic.Function.Basic

/-!
# Circular doubly linked lists

A memory gives every address a successor `next` and a predecessor `prev`.  A ring is a sequence
of distinct addresses that starts at a head, where `next` leads from each to the one behind it
and from the last back to the head, and `prev` leads the other way.  This file has what a ring
depends on, its ends, and the two changes of links that put an address in and take one out.
-/

namespace RejectProcess.Lib

variable {α : Type*}

/-- `b` comes right behind `a`. -/
def Linked (next prev : α → α) (a b : α) : Prop := next a = b ∧ prev b = a

instance [DecidableEq α] (next prev : α → α) : DecidableRel (Linked next prev) :=
  fun _ _ => inferInstanceAs (Decidable (_ ∧ _))

/-- A link between addresses that are not written to. -/
lemma Linked.update [DecidableEq α] {next prev : α → α} {a b a' b' x y : α}
    (h : Linked next prev x y) (hx : x ≠ a) (hy : y ≠ b) :
    Linked (Function.update next a b') (Function.update prev b a') x y := by
  constructor
  · rw [Function.update_of_ne hx]
    exact h.1
  · rw [Function.update_of_ne hy]
    exact h.2

/-- The ring of `head` and `xs`. -/
structure Ring (next prev : α → α) (head : α) (xs : List α) : Prop where
  links : (head :: xs ++ [head]).IsChain (Linked next prev)
  nodup : (head :: xs).Nodup

namespace Ring

variable {next prev next' prev' : α → α} {head a b n : α} {xs ys zs : List α}

/-- A head that is linked to itself. -/
lemma nil (hn : next head = head) (hp : prev head = head) : Ring next prev head [] where
  links := List.isChain_pair.2 ⟨hn, hp⟩
  nodup := List.nodup_singleton head

/-- A ring is made of the links at its own addresses. -/
lemma congr (h : Ring next prev head xs) (hnext : ∀ x ∈ head :: xs, next' x = next x)
    (hprev : ∀ x ∈ head :: xs, prev' x = prev x) : Ring next' prev' head xs where
  links := by
    have hmem : ∀ x, x ∈ head :: xs ++ [head] → x ∈ head :: xs := by
      intro x hx
      rcases List.mem_append.1 hx with hx | hx
      · exact hx
      · exact List.mem_singleton.1 hx ▸ List.mem_cons_self
    refine h.links.imp_of_mem_imp fun x y hx hy hxy => ⟨?_, ?_⟩
    · rw [hnext x (hmem x hx)]
      exact hxy.1
    · rw [hprev y (hmem y hy)]
      exact hxy.2
  nodup := h.nodup

/-- The ring is cut between two neighbours. -/
lemma cut (h : Ring next prev head (ys ++ zs)) :
    (head :: ys).IsChain (Linked next prev) ∧ (zs ++ [head]).IsChain (Linked next prev) ∧
      ∀ a ∈ (head :: ys).getLast?, ∀ b ∈ (zs ++ [head]).head?, Linked next prev a b := by
  have := h.links
  rw [show head :: (ys ++ zs) ++ [head] = (head :: ys) ++ (zs ++ [head]) by simp] at this
  exact List.isChain_append.1 this

/-- The address behind a cut is neither in the front part nor later in the back part. -/
lemma head_back_notMem (h : Ring next prev head (ys ++ zs)) (hb : b ∈ (zs ++ [head]).head?) :
    b ∉ ys ∧ b ∉ (zs ++ [head]).tail := by
  have hnd := h.nodup
  cases zs with
  | nil =>
    obtain rfl : head = b := by simpa using hb
    exact ⟨fun hc => (List.nodup_cons.1 hnd).1 (by simpa using hc), by simp⟩
  | cons z zs =>
    obtain rfl : z = b := by simpa using hb
    rw [List.nodup_cons, List.nodup_append] at hnd
    obtain ⟨hhead, -, hz, hdisj⟩ := hnd
    refine ⟨fun hc => hdisj z hc z List.mem_cons_self rfl, ?_⟩
    rw [List.cons_append, List.tail_cons, List.mem_append, List.mem_singleton]
    rintro (hc | rfl)
    · exact (List.nodup_cons.1 hz).1 hc
    · exact hhead (by simp)

/-- The first address, or the head of the empty ring. -/
lemma next_head (h : Ring next prev head xs) : next head = xs.headD head := by
  have h' : Ring next prev head ([] ++ xs) := h
  have := h'.cut.2.2 head rfl
  cases xs with
  | nil => exact (this head rfl).1
  | cons x xs => exact (this x rfl).1

lemma next_head_mem (h : Ring next prev head xs) : next head ∈ (xs ++ [head]).head? := by
  rw [h.next_head]
  cases xs <;> rfl

lemma next_head_mem_cons (h : Ring next prev head xs) : next head ∈ head :: xs := by
  rw [h.next_head]
  cases xs <;> simp

/-- The address behind one in the middle. -/
lemma next_middle (h : Ring next prev head (ys ++ a :: zs)) : next a = zs.headD head := by
  have h' : Ring next prev head ((ys ++ [a]) ++ zs) := by simpa using h
  have := h'.cut.2.2 a (List.getLast?_concat (l := head :: ys))
  cases zs with
  | nil => exact (this head rfl).1
  | cons z zs => exact (this z rfl).1

/-- The address before one in the middle. -/
lemma prev_middle (h : Ring next prev head (ys ++ a :: zs)) :
    prev a ∈ (head :: ys).getLast? := by
  obtain ⟨p, hp⟩ : ∃ p, (head :: ys).getLast? = some p :=
    ⟨_, List.getLast?_eq_some_getLast (List.cons_ne_nil head ys)⟩
  rw [(h.cut.2.2 p hp a rfl).2]
  exact hp

/-- The last address, or the head of the empty ring. -/
lemma prev_head_mem (h : Ring next prev head xs) : prev head ∈ (head :: xs).getLast? := by
  have h' : Ring next prev head (xs ++ []) := by
    rw [List.append_nil]
    exact h
  have hcut := h'.cut.2.2
  obtain ⟨a, ha⟩ : ∃ a, (head :: xs).getLast? = some a :=
    ⟨_, List.getLast?_eq_some_getLast (List.cons_ne_nil head xs)⟩
  rw [(hcut a ha head rfl).2]
  exact ha

/-- A ring is what `next` visits from the head until it is back there, and `prev` leads from each
address to the one it was visited from. -/
theorem iff_iterate : Ring next prev head xs ↔ (head :: xs).Nodup ∧
    head :: xs ++ [head] = List.iterate next head (xs.length + 2) ∧
      ∀ x ∈ head :: xs, prev (next x) = x := by
  have hlen : (head :: xs ++ [head]).length = xs.length + 2 := by simp
  constructor
  · rintro ⟨hlinks, hnd⟩
    rw [List.isChain_iff_getElem] at hlinks
    refine ⟨hnd, List.ext_getElem (by simp) fun i hi _ => ?_, fun x hx => ?_⟩
    · rw [List.getElem_iterate]
      induction i with
      | zero => rfl
      | succ i ih =>
        rw [← (hlinks i hi).1, ih (by omega) (by simpa using by omega),
          Function.iterate_succ_apply']
    · obtain ⟨i, hi, rfl⟩ := List.getElem_of_mem hx
      have hl := hlinks i (by simp only [List.length_cons] at hi; omega)
      rw [List.getElem_append_left hi] at hl
      rw [hl.1]
      exact hl.2
  · rintro ⟨hnd, hiter, hprev⟩
    refine ⟨List.isChain_iff_getElem.2 fun i hi => ?_, hnd⟩
    have hi' : i < (head :: xs).length := by simp only [List.length_cons]; omega
    have hmem : (head :: xs ++ [head])[i] ∈ head :: xs := by
      rw [List.getElem_append_left hi']
      exact List.getElem_mem hi'
    have hnext : next (head :: xs ++ [head])[i] = (head :: xs ++ [head])[i + 1] := by
      simp only [hiter, List.getElem_iterate, Function.iterate_succ_apply']
    exact ⟨hnext, by rw [← hnext]; exact hprev _ hmem⟩

/-- What is `i` steps behind the head. -/
lemma getElem?_eq_iterate (h : Ring next prev head xs) {i : ℕ} (hi : i < xs.length + 2) :
    (head :: xs ++ [head])[i]? = some (next^[i] head) := by
  rw [(iff_iterate.1 h).2.1]
  exact List.getElem?_iterate next head _ _ hi

lemma getElem_eq_iterate (h : Ring next prev head xs) {i : ℕ} (hi : i < xs.length) :
    xs[i] = next^[i + 1] head := by
  have := h.getElem?_eq_iterate (show i + 1 < xs.length + 2 by omega)
  simpa [List.getElem?_append_left hi, hi] using this

lemma iterate_length (h : Ring next prev head xs) : next^[xs.length + 1] head = head := by
  have := h.getElem?_eq_iterate (Nat.lt_succ_self (xs.length + 1))
  simpa using this.symm

lemma length_le (h : Ring next prev head xs) (h' : Ring next prev head ys) :
    ys.length ≤ xs.length := by
  by_contra! hlt
  -- where `xs` is back at the head, `ys` is at one of its own addresses
  have heq : ys[xs.length] = head := (h'.getElem_eq_iterate hlt).trans h.iterate_length
  exact (List.nodup_cons.1 h'.nodup).1 (heq ▸ List.getElem_mem hlt)

/-- There is at most one ring with a given head. -/
theorem unique (h : Ring next prev head xs) (h' : Ring next prev head ys) : xs = ys :=
  List.ext_getElem ((h'.length_le h).antisymm (h.length_le h')) fun _ hi hi' =>
    (h.getElem_eq_iterate hi).trans (h'.getElem_eq_iterate hi').symm

variable [DecidableEq α]

/-- An address that is not in the ring is linked in between two neighbours. -/
lemma insert (h : Ring next prev head (ys ++ zs)) (hn : n ∉ head :: (ys ++ zs))
    (ha : a ∈ (head :: ys).getLast?) (hb : b ∈ (zs ++ [head]).head?) :
    Ring (Function.update (Function.update next n b) a n)
      (Function.update (Function.update prev b n) n a) head (ys ++ n :: zs) := by
  obtain ⟨hfront, hback, hab⟩ := h.cut
  have hlink := hab a ha b hb
  have hbnot := h.head_back_notMem hb
  have hamem : a ∈ head :: ys := List.mem_of_getLast? ha
  have hbmem : b ∈ zs ++ [head] := List.mem_of_head? hb
  have hnys : ∀ x ∈ head :: ys, x ≠ n := by
    rintro x hx rfl
    exact hn (by rcases List.mem_cons.1 hx with hc | hc <;> simp [hc])
  have hnzs : ∀ x ∈ zs ++ [head], x ≠ n := by
    rintro x hx rfl
    rcases List.mem_append.1 hx with hc | hc
    · exact hn (by simp [hc])
    · exact hn (by simp [List.mem_singleton.1 hc])
  have hna : a ≠ n := hnys a hamem
  have hnb : b ≠ n := hnzs b hbmem
  -- a link whose second end is neither `b` nor `n` is left alone
  have keep : ∀ x y, x ≠ n → y ≠ n → y ≠ b → Linked next prev x y →
      Linked (Function.update (Function.update next n b) a n)
        (Function.update (Function.update prev b n) n a) x y := by
    intro x y hx hyn hyb hxy
    have hxa : x ≠ a := by
      rintro rfl
      exact hyb (hxy.1.symm.trans hlink.1)
    exact (hxy.update hx hyb).update hxa hyn
  constructor
  · rw [show head :: (ys ++ n :: zs) ++ [head] = (head :: ys) ++ n :: (zs ++ [head]) by simp,
      List.isChain_append]
    refine ⟨?_, List.isChain_cons.2 ⟨?_, ?_⟩, ?_⟩
    · refine hfront.imp_of_mem_tail_imp fun x y hx hy hxy => ?_
      have hy : y ∈ ys := hy
      exact keep x y (hnys x hx) (hnys y (List.mem_cons_of_mem head hy))
        (fun he => hbnot.1 (he ▸ hy)) hxy
    · intro y hy
      obtain rfl : b = y := Option.some.inj (hb.symm.trans hy)
      exact ⟨by simp [hna.symm], by simp [hnb]⟩
    · refine hback.imp_of_mem_tail_imp fun x y hx hy hxy => ?_
      exact keep x y (hnzs x hx) (hnzs y (List.mem_of_mem_tail hy))
        (fun he => hbnot.2 (he ▸ hy)) hxy
    · intro x hx y hy
      obtain rfl : a = x := Option.some.inj (ha.symm.trans hx)
      obtain rfl : n = y := by simpa using hy
      exact ⟨by simp, by simp⟩
  · have hperm : (head :: (ys ++ n :: zs)).Perm (n :: head :: (ys ++ zs)) :=
      (List.perm_middle.cons head).trans (List.Perm.swap n head _)
    rw [hperm.nodup_iff]
    exact List.nodup_cons.2 ⟨hn, h.nodup⟩

/-- An address is taken out between its neighbours. -/
lemma delete (h : Ring next prev head (ys ++ n :: zs)) (ha : a ∈ (head :: ys).getLast?)
    (hb : b ∈ (zs ++ [head]).head?) :
    Ring (Function.update next a b) (Function.update prev b a) head (ys ++ zs) := by
  have h' : Ring next prev head ((ys ++ [n]) ++ zs) := by simpa using h
  obtain ⟨hfront, -, han⟩ := h.cut
  have hback := h'.cut.2.1
  have hnext : next a = n := (han a ha n rfl).1
  have hbnot := h'.head_back_notMem hb
  have hnot := h.head_back_notMem (b := n) rfl
  have keep : ∀ x y, y ≠ n → y ≠ b → Linked next prev x y →
      Linked (Function.update next a b) (Function.update prev b a) x y := by
    intro x y hyn hyb hxy
    have hxa : x ≠ a := by
      rintro rfl
      exact hyn (hxy.1.symm.trans hnext)
    exact hxy.update hxa hyb
  constructor
  · rw [show head :: (ys ++ zs) ++ [head] = (head :: ys) ++ (zs ++ [head]) by simp,
      List.isChain_append]
    refine ⟨?_, ?_, ?_⟩
    · refine hfront.imp_of_mem_tail_imp fun x y _ hy hxy => ?_
      have hy : y ∈ ys := hy
      exact keep x y (fun he => hnot.1 (he ▸ hy))
        (fun he => hbnot.1 (he ▸ List.mem_append_left _ hy)) hxy
    · refine hback.imp_of_mem_tail_imp fun x y _ hy hxy => ?_
      have hy' : y ∈ (n :: zs ++ [head]).tail := List.mem_of_mem_tail hy
      exact keep x y (fun he => hnot.2 (he ▸ hy')) (fun he => hbnot.2 (he ▸ hy)) hxy
    · intro x hx y hy
      obtain rfl : a = x := Option.some.inj (ha.symm.trans hx)
      obtain rfl : b = y := Option.some.inj (hb.symm.trans hy)
      exact ⟨by simp, by simp⟩
  · refine h.nodup.sublist ?_
    exact ((List.sublist_cons_self n zs).append_left ys).cons_cons head

end Ring

end RejectProcess.Lib
