import Mathlib.Data.List.Basic
import Mathlib.Data.List.Count
import Mathlib.Data.List.Induction

/-!
# A stock of items with keys

Items come with a key and wait in the order of their arrival, an item with a key is asked for and
the first one with that key leaves, and now and then all leave.  However the keys are mixed, each
key is a counter of its own: what is answered to a key depends on the deals that concern it.
-/

namespace RejectProcess.Lib

/-- What happens to a stock. -/
inductive Deal (κ : Type*)
  /-- An item with this key comes. -/
  | put (k : κ)
  /-- An item with this key is asked for, or one that is never there. -/
  | ask (k : Option κ)
  /-- All items leave. -/
  | clear
deriving DecidableEq, Repr

variable {κ : Type*} [DecidableEq κ]

namespace Deal

/-- The deal is one of the key. -/
def concerns (k : κ) : Deal κ → Bool
  | put k' => k' = k
  | ask k' => k' = some k
  | clear => true

/-- The items of a stock after the deal. -/
def apply (items : List κ) : Deal κ → List κ
  | put k => items ++ [k]
  | ask none => items
  | ask (some k) => items.erase k
  | clear => []

/-- A counter after the deal, which does not go below zero. -/
def count (c : ℕ) : Deal κ → ℕ
  | put _ => c + 1
  | ask _ => c - 1
  | clear => 0

end Deal

/-- The items after some deals, of which none were there before. -/
def stock (ds : List (Deal κ)) : List κ := ds.foldl Deal.apply []

/-- The counter of a key after some deals: those of other keys do not count. -/
def balance (k : κ) (ds : List (Deal κ)) : ℕ := (ds.filter (Deal.concerns k)).foldl Deal.count 0

/-- Whether an item with the key is there after some deals. -/
def answer (past : List (Deal κ)) : Option κ → Bool
  | none => false
  | some k => 0 < balance k past

/-- The answers to the demands among some deals, after those in `past`. -/
def answers (past : List (Deal κ)) : List (Deal κ) → List Bool
  | [] => []
  | .put k :: ds => answers (past ++ [.put k]) ds
  | .ask k :: ds => answer past k :: answers (past ++ [.ask k]) ds
  | .clear :: ds => answers (past ++ [.clear]) ds

variable {k : κ} {d : Deal κ} {ds : List (Deal κ)}

lemma stock_append (ds : List (Deal κ)) (d : Deal κ) : stock (ds ++ [d]) = d.apply (stock ds) := by
  rw [stock, List.foldl_append]
  rfl

lemma balance_append_of_concerns (h : d.concerns k = true) :
    balance k (ds ++ [d]) = d.count (balance k ds) := by
  rw [balance, List.filter_append, List.foldl_append, List.filter_cons_of_pos h]
  rfl

lemma balance_append_of_not (h : d.concerns k = false) :
    balance k (ds ++ [d]) = balance k ds := by
  rw [balance, List.filter_append, List.filter_cons_of_neg (by simp [h]), List.filter_nil,
    List.append_nil]
  rfl

/-- A deal of another key leaves the items with the key. -/
lemma count_apply_of_not (h : d.concerns k = false) (items : List κ) :
    (d.apply items).count k = items.count k := by
  cases d with
  | put k' =>
    have hne : k' ≠ k := by simpa [Deal.concerns] using h
    simp [Deal.apply, hne]
  | ask k' =>
    cases k' with
    | none => rfl
    | some k' =>
      have hne : k' ≠ k := by simpa [Deal.concerns] using h
      exact List.count_erase_of_ne (Ne.symm hne)
  | clear => simp [Deal.concerns] at h

/-- A deal of the key counts them. -/
lemma count_apply_of_concerns (h : d.concerns k = true) (items : List κ) :
    (d.apply items).count k = d.count (items.count k) := by
  cases d with
  | put k' =>
    obtain rfl : k' = k := by simpa [Deal.concerns] using h
    simp [Deal.apply, Deal.count]
  | ask k' =>
    obtain rfl : k' = some k := by simpa [Deal.concerns] using h
    exact List.count_erase_self
  | clear => rfl

/-- Each key is a counter of its own. -/
theorem count_stock (k : κ) (ds : List (Deal κ)) : (stock ds).count k = balance k ds := by
  induction ds using List.reverseRecOn with
  | nil => rfl
  | append_singleton ds d ih =>
    rw [stock_append]
    cases h : d.concerns k with
    | true => rw [count_apply_of_concerns h, balance_append_of_concerns h, ih]
    | false => rw [count_apply_of_not h, balance_append_of_not h, ih]

/-- An item with the key is there exactly if the counter says so. -/
lemma mem_stock_iff : k ∈ stock ds ↔ answer ds (some k) = true := by
  rw [answer, decide_eq_true_iff, ← count_stock, List.count_pos_iff]

section Map

variable {α : Type*} {f : α → κ} {test : α → Bool} {l : List α} {a : Option κ}

/-- To take the first thing that passes a test is to ask for its key, if the test tells the keys
apart. -/
lemma map_eraseP (h : ∀ x ∈ l, test x = true ↔ a = some (f x)) :
    (l.eraseP test).map f = (Deal.ask a).apply (l.map f) := by
  cases a with
  | none =>
    have hno : ∀ x ∈ l, ¬ test x = true := fun x hx => by simp [h x hx]
    rw [List.eraseP_of_forall_not hno]
    rfl
  | some k =>
    change _ = (l.map f).erase k
    induction l with
    | nil => rfl
    | cons x l ih =>
      by_cases hx : test x = true
      · obtain rfl : k = f x := by simpa using (h x List.mem_cons_self).1 hx
        simp [hx]
      · have hne : f x ≠ k := fun heq => hx ((h x List.mem_cons_self).2 (by rw [heq]))
        rw [List.eraseP_cons_of_neg hx, List.map_cons, List.map_cons,
          List.erase_cons_tail (by simpa using hne), ih fun y hy => h y (List.mem_cons_of_mem x hy)]

lemma any_eq_answer (h : ∀ x ∈ l, test x = true ↔ a = some (f x)) (hl : l.map f = stock ds) :
    l.any test = answer ds a := by
  cases a with
  | none =>
    rw [answer, List.any_eq_false]
    exact fun x hx => by simp [h x hx]
  | some k =>
    rw [Bool.eq_iff_iff, ← mem_stock_iff, ← hl, List.any_eq_true, List.mem_map]
    refine exists_congr fun x => and_congr_right fun hx => ?_
    rw [h x hx, Option.some_inj, eq_comm]

end Map

lemma answers_append (past ds : List (Deal κ)) (d : Deal κ) :
    answers past (ds ++ [d]) = answers past ds ++ answers (past ++ ds) [d] := by
  induction ds generalizing past with
  | nil => simp [answers]
  | cons e ds ih =>
    have hpast : past ++ e :: ds = past ++ [e] ++ ds := by simp
    cases e with
    | put | clear => rw [List.cons_append, answers, answers, ih, hpast]
    | ask k => rw [List.cons_append, answers, answers, ih, hpast, List.cons_append]

end RejectProcess.Lib
