import Mathlib.Data.Set.Insert
import Mathlib.Logic.Relation
import RejectProcess.Lib.Run

/-!
# Tasks that lock mutexes

A language for the control flow of tasks that share mutexes.  Of a program it keeps the locks and
unlocks, the other operations that may block, and which statement follows which; the outcome of a
test is left open.  The tasks take their steps in any order.

Mutexes that are locked in the order of a rank are the way to avoid deadlocks.  `Stmt.wp` asks
for this along every path through a statement, and for more: nothing blocks with a mutex held, and
a function returns with the mutexes that its caller had.  What it asks for is a condition on the
text of a task, and holds in every state of every interleaving once it holds at the start.
-/

namespace RejectProcess.Lib

/-- A statement, over mutexes `M`, other operations that may block `W`, labels `J` and
functions `F`. -/
inductive Stmt (M W J F : Type*)
  | skip
  | lock (m : M)
  | unlock (m : M)
  /-- An operation that may block until something outside the mutexes happens. -/
  | wait (w : W)
  | seq (p q : Stmt M W J F)
  /-- A test with an open outcome. -/
  | ite (p q : Stmt M W J F)
  /-- A loop with a test in front. -/
  | loop (p : Stmt M W J F)
  /-- A loop without a test. -/
  | forever (p : Stmt M W J F)
  | jump (j : J)
  /-- A jump to the label out of this statement goes to its end. -/
  | target (j : J) (p : Stmt M W J F)
  | call (f : F) (p : Stmt M W J F)
  /-- The whole process ends. -/
  | exit

/-- What is left to do after a statement.  A call remembers the mutexes held when it was made. -/
inductive Kont (M W J F : Type*)
  | done
  | seq (p : Stmt M W J F) (k : Kont M W J F)
  | loop (p : Stmt M W J F) (k : Kont M W J F)
  | forever (p : Stmt M W J F) (k : Kont M W J F)
  | target (j : J) (k : Kont M W J F)
  | call (f : F) (held : Set M) (k : Kont M W J F)

/-- A task: the statement it is at, and what follows. -/
structure Ctrl (M W J F : Type*) where
  stmt : Stmt M W J F
  kont : Kont M W J F

/-- The mutexes with their owners, and the tasks. -/
structure LockState (ι M W J F : Type*) where
  owner : M → Option ι
  task : ι → Ctrl M W J F
  exited : Bool

variable {ι M W J F R : Type*}

namespace Stmt

/-- Statements one after the other. -/
def block : List (Stmt M W J F) → Stmt M W J F
  | [] => .skip
  | p :: ps => .seq p (block ps)

variable [Preorder R] [DecidableEq J] (rank : M → R) (entry : F → Set M → Prop)

/-- With the mutexes `H` held, the statement keeps the discipline, and `N` holds of the mutexes
held at its end, `K j` of those held at a jump to `j`.  A loop has to restore the mutexes held; a
function that is called with `H` has to be one that `entry` allows to be called so, and to
restore `H`. -/
def wp : Stmt M W J F → (Set M → Prop) → (J → Set M → Prop) → Set M → Prop
  | .skip, N, _, H => N H
  | .lock m, N, _, H => (∀ m' ∈ H, rank m' < rank m) ∧ N (insert m H)
  | .unlock m, N, _, H => m ∈ H ∧ N (H \ {m})
  | .wait _, N, _, H => H = ∅ ∧ N H
  | .seq p q, N, K, H => p.wp (q.wp N K) K H
  | .ite p q, N, K, H => p.wp N K H ∧ q.wp N K H
  | .loop p, N, K, H => N H ∧ p.wp (· = H) K H
  | .forever p, _, K, H => p.wp (· = H) K H
  | .jump j, _, K, H => K j H
  | .target j p, N, K, H => p.wp N (Function.update K j N) H
  | .call f p, N, _, H => entry f H ∧ p.wp (fun H' => H' = H ∧ N H') (fun _ _ => False) H
  | .exit, _, _, _ => True

variable {rank entry}

@[simp] lemma wp_block_nil {N : Set M → Prop} {K : J → Set M → Prop} {H : Set M} :
    (block ([] : List (Stmt M W J F))).wp rank entry N K H ↔ N H := Iff.rfl

@[simp] lemma wp_block_cons {p : Stmt M W J F} {ps : List (Stmt M W J F)} {N : Set M → Prop}
    {K : J → Set M → Prop} {H : Set M} :
    (block (p :: ps)).wp rank entry N K H ↔
      p.wp rank entry ((block ps).wp rank entry N K) K H := Iff.rfl

lemma wp_mono {p : Stmt M W J F} {N N' : Set M → Prop} {K K' : J → Set M → Prop} {H : Set M}
    (h : p.wp rank entry N K H) (hN : ∀ H, N H → N' H) (hK : ∀ j H, K j H → K' j H) :
    p.wp rank entry N' K' H := by
  induction p generalizing N N' K K' H with
  | skip => exact hN H h
  | lock m => exact ⟨h.1, hN _ h.2⟩
  | unlock m => exact ⟨h.1, hN _ h.2⟩
  | wait w => exact ⟨h.1, hN _ h.2⟩
  | seq p q ihp ihq => exact ihp h (fun H h => ihq h hN hK) hK
  | ite p q ihp ihq => exact ⟨ihp h.1 hN hK, ihq h.2 hN hK⟩
  | loop p ih => exact ⟨hN H h.1, ih h.2 (fun _ h => h) hK⟩
  | forever p ih => exact ih h (fun _ h => h) hK
  | jump j => exact hK j H h
  | target j p ih =>
    refine ih h hN fun j' H' h' => ?_
    by_cases hj : j' = j
    · subst hj
      rw [Function.update_self] at h' ⊢
      exact hN H' h'
    · rw [Function.update_of_ne hj] at h' ⊢
      exact hK j' H' h'
  | call f p ih => exact ⟨h.1, ih h.2 (fun H' h' => ⟨h'.1, hN H' h'.2⟩) fun _ _ h => h⟩
  | exit => trivial

end Stmt

/-! ## Steps -/

namespace Ctrl

variable [DecidableEq J]

/-- Where the task goes; `H` are the mutexes it holds, `b` is the outcome of a test. -/
def next (H : Set M) (b : Bool) : Ctrl M W J F → Option (Ctrl M W J F)
  | ⟨.skip, .done⟩ => none
  | ⟨.skip, .seq p k⟩ => some ⟨p, k⟩
  | ⟨.skip, .loop p k⟩ => some ⟨.loop p, k⟩
  | ⟨.skip, .forever p k⟩ => some ⟨.forever p, k⟩
  | ⟨.skip, .target _ k⟩ => some ⟨.skip, k⟩
  | ⟨.skip, .call _ _ k⟩ => some ⟨.skip, k⟩
  | ⟨.lock _, k⟩ => some ⟨.skip, k⟩
  | ⟨.unlock _, k⟩ => some ⟨.skip, k⟩
  | ⟨.wait _, k⟩ => some ⟨.skip, k⟩
  | ⟨.seq p q, k⟩ => some ⟨p, .seq q k⟩
  | ⟨.ite p q, k⟩ => some ⟨if b then p else q, k⟩
  | ⟨.loop p, k⟩ => some (if b then ⟨p, .loop p k⟩ else ⟨.skip, k⟩)
  | ⟨.forever p, k⟩ => some ⟨p, .forever p k⟩
  | ⟨.jump _, .done⟩ => none
  | ⟨.jump j, .seq _ k⟩ => some ⟨.jump j, k⟩
  | ⟨.jump j, .loop _ k⟩ => some ⟨.jump j, k⟩
  | ⟨.jump j, .forever _ k⟩ => some ⟨.jump j, k⟩
  | ⟨.jump j, .target j' k⟩ => some ⟨if j = j' then .skip else .jump j, k⟩
  | ⟨.jump _, .call _ _ _⟩ => none
  | ⟨.target j p, k⟩ => some ⟨p, .target j k⟩
  | ⟨.call f p, k⟩ => some ⟨p, .call f H k⟩
  | ⟨.exit, _⟩ => none

/-- The mutexes held after a step. -/
def heldAfter (c : Ctrl M W J F) (H : Set M) : Set M :=
  match c.stmt with
  | .lock m => insert m H
  | .unlock m => H \ {m}
  | _ => H

end Ctrl

namespace LockState

variable (s : LockState ι M W J F)

/-- The mutexes that a task holds. -/
def held (i : ι) : Set M := {m | s.owner m = some i}

/-- No mutex is held, and every task is at its first statement. -/
def init (prog : ι → Stmt M W J F) : LockState ι M W J F where
  owner := fun _ => none
  task := fun i => ⟨prog i, .done⟩
  exited := false

variable [DecidableEq ι] [DecidableEq M] [DecidableEq J]

/-- The owners after a step of a task, if the task need not wait for a mutex. -/
def owners (i : ι) : Option (M → Option ι) :=
  match (s.task i).stmt with
  | .lock m => if s.owner m = none then some (Function.update s.owner m (some i)) else none
  | .unlock m => some (Function.update s.owner m none)
  | _ => some s.owner

/-- A step of a task. -/
def move (i : ι) (b : Bool) : Option (LockState ι M W J F) :=
  match s.owners i, (s.task i).next (s.held i) b with
  | some owner, some c => some { s with owner := owner, task := Function.update s.task i c }
  | _, _ => none

/-- One step: a task moves on, with the outcome of a test if it is at one. -/
def step (s : LockState ι M W J F) (a : ι × Bool) : Option (LockState ι M W J F) :=
  if s.exited then none
  else match (s.task a.1).stmt with
    | .exit => some { s with exited := true }
    | _ => s.move a.1 a.2

end LockState

/-! ## The invariant -/

variable [Preorder R] [DecidableEq J] {rank : M → R} {entry : F → Set M → Prop}

/-- What has to hold of the mutexes held at the end of a statement, and at a jump out of it, for
what follows to keep the discipline. -/
def Kont.post (rank : M → R) (entry : F → Set M → Prop) :
    Kont M W J F → (Set M → Prop) × (J → Set M → Prop)
  | .done => (fun H => H = ∅, fun _ _ => False)
  | .seq p k => (p.wp rank entry (k.post rank entry).1 (k.post rank entry).2,
      (k.post rank entry).2)
  | .loop p k => ((Stmt.loop p).wp rank entry (k.post rank entry).1 (k.post rank entry).2,
      (k.post rank entry).2)
  | .forever p k => ((Stmt.forever p).wp rank entry (k.post rank entry).1 (k.post rank entry).2,
      (k.post rank entry).2)
  | .target j k => ((k.post rank entry).1,
      Function.update (k.post rank entry).2 j (k.post rank entry).1)
  | .call f held k => (fun H => H = held ∧ entry f held ∧ (k.post rank entry).1 H,
      fun _ _ => False)

/-- From here on the task keeps the discipline. -/
def Ctrl.Ok (rank : M → R) (entry : F → Set M → Prop) (c : Ctrl M W J F) (H : Set M) : Prop :=
  c.stmt.wp rank entry (c.kont.post rank entry).1 (c.kont.post rank entry).2 H

/-- Every task keeps the discipline. -/
def LockState.Ok (rank : M → R) (entry : F → Set M → Prop) (s : LockState ι M W J F) : Prop :=
  ∀ i, (s.task i).Ok rank entry (s.held i)

lemma Ctrl.Ok.next {c c' : Ctrl M W J F} {H : Set M} {b : Bool} (h : c.Ok rank entry H)
    (hn : c.next H b = some c') : c'.Ok rank entry (c.heldAfter H) := by
  obtain ⟨p, k⟩ := c
  cases p with
  | skip =>
    cases k with
    | done => cases hn
    | seq p k | loop p k | forever p k | target j k =>
      cases hn
      exact h
    | call f held k =>
      cases hn
      exact h.2.2
  | lock m | unlock m | wait w =>
    cases hn
    exact h.2
  | seq p q =>
    cases hn
    exact h
  | ite p q =>
    cases hn
    cases b
    · exact h.2
    · exact h.1
  | loop p =>
    cases b
    · cases hn
      exact h.1
    · cases hn
      refine Stmt.wp_mono h.2 ?_ fun _ _ h => h
      rintro _ rfl
      exact h
  | forever p =>
    cases hn
    refine Stmt.wp_mono h ?_ fun _ _ h => h
    rintro _ rfl
    exact h
  | jump j =>
    cases k with
    | done => cases hn
    | seq p k | loop p k | forever p k =>
      cases hn
      exact h
    | target j' k =>
      cases hn
      have hj : Function.update (k.post rank entry).2 j' (k.post rank entry).1 j H := h
      by_cases hjj : j = j'
      · subst hjj
        rw [Function.update_self] at hj
        rw [if_pos rfl]
        exact hj
      · rw [Function.update_of_ne hjj] at hj
        rw [if_neg hjj]
        exact hj
    | call f held k => cases hn
  | target j p =>
    cases hn
    exact h
  | call f p =>
    cases hn
    refine Stmt.wp_mono h.2 ?_ fun _ _ h => h
    rintro H' ⟨rfl, hN⟩
    exact ⟨rfl, h.1, hN⟩
  | exit => cases hn

namespace LockState

variable {s s' : LockState ι M W J F} {i : ι} {m : M}

lemma ok_init {prog : ι → Stmt M W J F}
    (h : ∀ i, (prog i).wp rank entry (· = ∅) (fun _ _ => False) ∅) : (init prog).Ok rank entry := by
  intro i
  have hheld : (init prog).held i = ∅ := by
    ext m
    simp [held, init]
  rw [hheld]
  exact h i

section Step

variable [DecidableEq ι] [DecidableEq M] {a : ι × Bool}

/-- The owners after a step, task by task. -/
lemma held_owners {owner : M → Option ι} (h : (s.task i).Ok rank entry (s.held i))
    (ho : s.owners i = some owner) (j : ι) :
    {m | owner m = some j} = if j = i then (s.task i).heldAfter (s.held i) else s.held j := by
  rw [owners] at ho
  rw [Ctrl.Ok] at h
  rw [Ctrl.heldAfter]
  ext m'
  cases hst : (s.task i).stmt with
  | lock m =>
    simp only [hst] at ho
    obtain ⟨hfree, ⟨⟩⟩ := Option.ite_none_right_eq_some.1 ho
    by_cases hm : m' = m
    · subst hm
      by_cases hj : j = i
      · simp [hj]
      · simp [hj, held, hfree, Ne.symm hj]
    · by_cases hj : j = i <;> simp [hj, held, hm]
  | unlock m =>
    simp only [hst] at ho
    cases ho
    rw [hst] at h
    have howner : s.owner m = some i := h.1
    by_cases hm : m' = m
    · subst hm
      by_cases hj : j = i
      · simp [hj]
      · simp [hj, held, howner, Ne.symm hj]
    · by_cases hj : j = i <;> simp [hj, held, hm]
  | _ =>
    simp only [hst] at ho
    cases ho
    by_cases hj : j = i <;> simp [hj, held]

lemma Ok.move {b : Bool} (h : s.Ok rank entry) (hs : s.move i b = some s') :
    s'.Ok rank entry := by
  rw [LockState.move] at hs
  split at hs
  · rename_i owner c howner hc
    cases hs
    intro j
    have hheld := held_owners (h i) howner j
    rw [held, hheld]
    by_cases hj : j = i
    · subst hj
      rw [if_pos rfl]
      change Ctrl.Ok rank entry (Function.update s.task j c j) _
      rw [Function.update_self]
      exact (h j).next hc
    · rw [if_neg hj]
      change Ctrl.Ok rank entry (Function.update s.task i c j) _
      rw [Function.update_of_ne hj]
      exact h j
  · cases hs

lemma Ok.step (h : s.Ok rank entry) (hs : s.step a = some s') : s'.Ok rank entry := by
  rw [LockState.step] at hs
  split_ifs at hs
  split at hs
  · cases hs
    exact h
  · exact h.move hs

/-- The discipline holds in every state of every interleaving. -/
theorem Ok.reach {s₀ : LockState ι M W J F} (h : s₀.Ok rank entry)
    (hr : Reach LockState.step AnyStep s₀ s) : s.Ok rank entry :=
  hr.invariant h fun _ _ _ hok _ hs => hok.step hs

end Step

/-! ## What the discipline is good for -/

/-- The task is at a lock of the mutex. -/
def Wants (s : LockState ι M W J F) (i : ι) (m : M) : Prop := (s.task i).stmt = .lock m

/-- A task wants a mutex that another one holds. -/
def WaitsFor (s : LockState ι M W J F) (i j : ι) : Prop :=
  ∃ m, s.Wants i m ∧ s.owner m = some j

/-- Whoever holds the one mutex wants the other. -/
def WaitsBehind (s : LockState ι M W J F) (m m' : M) : Prop :=
  ∃ i, s.owner m = some i ∧ s.Wants i m'

namespace Ok

lemma rank_lt (h : s.Ok rank entry) (hw : s.Wants i m) {m' : M} (hm : s.owner m' = some i) :
    rank m' < rank m := by
  have hi := h i
  rw [Ctrl.Ok, hw] at hi
  exact hi.1 m' hm

/-- No task waits for a mutex that it holds. -/
lemma not_owner (h : s.Ok rank entry) (hw : s.Wants i m) : s.owner m ≠ some i :=
  fun hm => lt_irrefl _ (h.rank_lt hw hm)

/-- From mutex to mutex along the waiting tasks the rank goes up. -/
lemma rank_lt_of_behind (h : s.Ok rank entry) {m' : M}
    (hw : Relation.TransGen s.WaitsBehind m m') : rank m < rank m' := by
  induction hw with
  | single hw =>
    obtain ⟨i, hm, hi⟩ := hw
    exact h.rank_lt hi hm
  | tail _ hw ih =>
    obtain ⟨i, hm, hi⟩ := hw
    exact ih.trans (h.rank_lt hi hm)

/-- No mutexes wait for each other in a cycle. -/
lemma not_behind (h : s.Ok rank entry) (m : M) : ¬ Relation.TransGen s.WaitsBehind m m :=
  fun hw => lt_irrefl _ (h.rank_lt_of_behind hw)

/-- A task that others wait for in a chain holds a mutex, and what it wants ranks higher. -/
lemma rank_lt_of_waitsFor (h : s.Ok rank entry) {j : ι} (hw : Relation.TransGen s.WaitsFor i j)
    (hm : s.Wants i m) {m' : M} (hm' : s.Wants j m') : rank m < rank m' := by
  induction hw generalizing m' with
  | single hw =>
    obtain ⟨m₁, hi, ho⟩ := hw
    obtain rfl : m = m₁ := Stmt.lock.inj (hm.symm.trans hi)
    exact h.rank_lt hm' ho
  | tail _ hw ih =>
    obtain ⟨m₁, hi, ho⟩ := hw
    exact (ih hi).trans (h.rank_lt hm' ho)

/-- No tasks wait for each other in a cycle. -/
lemma not_waitsFor (h : s.Ok rank entry) (i : ι) : ¬ Relation.TransGen s.WaitsFor i i := by
  intro hw
  obtain ⟨j, ⟨m, hm, -⟩, -⟩ := Relation.TransGen.head'_iff.1 hw
  exact lt_irrefl _ (h.rank_lt_of_waitsFor hw hm hm)

/-- Nothing else blocks with a mutex held. -/
lemma held_of_wait (h : s.Ok rank entry) {w : W} (hw : (s.task i).stmt = .wait w) :
    s.held i = ∅ := by
  have hi := h i
  rw [Ctrl.Ok, hw] at hi
  exact hi.1

/-- A function returns with the mutexes held that were held when it was called. -/
lemma held_of_return (h : s.Ok rank entry) {f : F} {held : Set M} {k : Kont M W J F}
    (hr : s.task i = ⟨.skip, .call f held k⟩) : s.held i = held ∧ entry f held := by
  have hi := h i
  rw [Ctrl.Ok, hr] at hi
  exact ⟨hi.1, hi.2.1⟩

end Ok

end LockState

end RejectProcess.Lib
