import Mathlib.Data.List.Basic
import Mathlib.Order.Nat

/-!
# Runs of a labelled step function

A concurrent program is a partial step function `step : σ → ι → Option σ`: the label says
which party moves and what its environment answers, and `none` says that the party cannot
move that way.  A run is a list of labels, so every interleaving is a run.  This file has
the reachable states of such a function, optionally with a condition on the steps taken,
and the rule that carries an invariant from one step to all runs.
-/

namespace RejectProcess.Lib

variable {σ ι : Type*}

/-- The states reachable from `s₀` by steps that all meet `ok`. -/
inductive Reach (step : σ → ι → Option σ) (ok : σ → ι → Prop) (s₀ : σ) : σ → Prop
  | init : Reach step ok s₀ s₀
  | step {s s' : σ} {a : ι} : Reach step ok s₀ s → ok s a → step s a = some s' →
      Reach step ok s₀ s'

/-- The condition that every step meets: a run under it is any run. -/
def AnyStep (_ : σ) (_ : ι) : Prop := True

/-- A step function with an observer beside it, whom no step asks. -/
def observed {γ : Type*} (step : σ → ι → Option σ) (see : γ → σ → ι → γ) (p : σ × γ) (a : ι) :
    Option (σ × γ) :=
  (step p.1 a).map fun s' => (s', see p.2 p.1 a)

/-- The state after a list of labels, if every one of them can be taken. -/
def exec (step : σ → ι → Option σ) : σ → List ι → Option σ
  | s, [] => some s
  | s, a :: as => (step s a).bind fun s' => exec step s' as

variable {step : σ → ι → Option σ} {ok ok' : σ → ι → Prop} {s₀ s s' : σ}

@[simp] lemma exec_nil : exec step s [] = some s := rfl

lemma exec_cons (a : ι) (as : List ι) :
    exec step s (a :: as) = (step s a).bind fun s' => exec step s' as := rfl

lemma observed_eq_some {γ : Type*} {see : γ → σ → ι → γ} {p q : σ × γ} {a : ι} :
    observed step see p a = some q ↔ step p.1 a = some q.1 ∧ q.2 = see p.2 p.1 a := by
  rw [observed, Option.map_eq_some_iff]
  constructor
  · rintro ⟨s', hs, rfl⟩
    exact ⟨hs, rfl⟩
  · rintro ⟨hs, hsee⟩
    exact ⟨q.1, hs, by rw [← hsee]⟩

/-- A run in two parts. -/
lemma exec_append (as bs : List ι) :
    exec step s (as ++ bs) = (exec step s as).bind fun s' => exec step s' bs := by
  induction as generalizing s with
  | nil => rfl
  | cons a as ih =>
    rw [List.cons_append, exec_cons, exec_cons, Option.bind_assoc]
    congr 1
    funext s'
    exact ih

namespace Reach

/-- A property that holds at the start and that every allowed step keeps holds in every
reachable state. -/
theorem invariant {I : σ → Prop} (h : Reach step ok s₀ s) (h0 : I s₀)
    (hstep : ∀ s a s', I s → ok s a → step s a = some s' → I s') : I s := by
  induction h with
  | init => exact h0
  | step _ hok hs ih => exact hstep _ _ _ ih hok hs

lemma trans (h : Reach step ok s₀ s) (h' : Reach step ok s s') : Reach step ok s₀ s' := by
  induction h' with
  | init => exact h
  | step _ ho hs ih => exact ih.step ho hs

/-- A run of a concrete step function is a run of the abstract one that `f` maps it to, if every
concrete step from a state with `I` is an abstract step and keeps `I`. -/
theorem refines {τ : Type*} {step' : τ → ι → Option τ} {okAbs : τ → ι → Prop} (f : σ → τ)
    {I : σ → Prop} (h : Reach step ok s₀ s) (h0 : I s₀)
    (hstep : ∀ s a s', Reach step' okAbs (f s₀) (f s) → I s → ok s a → step s a = some s' →
      I s' ∧ okAbs (f s) a ∧ step' (f s) a = some (f s')) :
    I s ∧ Reach step' okAbs (f s₀) (f s) := by
  induction h with
  | init => exact ⟨h0, .init⟩
  | step _ hok hs ih =>
    obtain ⟨hI, hreach⟩ := ih
    obtain ⟨hI', hok', hs'⟩ := hstep _ _ _ hreach hI hok hs
    exact ⟨hI', hreach.step hok' hs'⟩

end Reach

/-- Every step along a list of labels meets `ok`. -/
def Allowed (step : σ → ι → Option σ) (ok : σ → ι → Prop) : σ → List ι → Prop
  | _, [] => True
  | s, a :: as => ok s a ∧ ∀ s', step s a = some s' → Allowed step ok s' as

instance decidableAllowed [∀ s a, Decidable (ok s a)] :
    ∀ (s : σ) (as : List ι), Decidable (Allowed step ok s as)
  | _, [] => isTrue trivial
  | s, a :: as =>
    match h : step s a with
    | none => decidable_of_iff (ok s a) ⟨fun ho => ⟨ho, by simp [h]⟩, And.left⟩
    | some s₁ =>
      haveI := decidableAllowed s₁ as
      decidable_of_iff (ok s a ∧ Allowed step ok s₁ as)
        ⟨fun ho => ⟨ho.1, by simpa [h] using ho.2⟩, fun ho => ⟨ho.1, ho.2 s₁ h⟩⟩

/-- The state after an allowed list of labels is reachable. -/
lemma reach_of_exec (as : List ι) (hok : Allowed step ok s₀ as)
    (h : exec step s₀ as = some s) : Reach step ok s₀ s := by
  induction as generalizing s₀ with
  | nil =>
    obtain rfl : s₀ = s := by simpa using h
    exact .init
  | cons a as ih =>
    rw [exec_cons, Option.bind_eq_some_iff] at h
    obtain ⟨s₁, hs, h⟩ := h
    exact (Reach.init.step hok.1 hs).trans (ih (hok.2 s₁ hs) h)

lemma allowed_any (as : List ι) : Allowed step AnyStep s₀ as := by
  induction as generalizing s₀ with
  | nil => trivial
  | cons a as ih => exact ⟨trivial, fun _ _ => ih⟩

/-- A condition on labels that all labels of a list meet. -/
lemma allowed_of_forall {p : ι → Prop} {as : List ι} (h : ∀ a ∈ as, p a) :
    Allowed step (fun _ a => p a) s₀ as := by
  induction as generalizing s₀ with
  | nil => trivial
  | cons a as ih =>
    exact ⟨h a List.mem_cons_self, fun _ _ => ih fun b hb => h b (List.mem_cons_of_mem a hb)⟩

/-- Any list of labels that can be taken leads to a reachable state. -/
lemma reach_any (as : List ι) (h : exec step s₀ as = some s) : Reach step AnyStep s₀ s :=
  reach_of_exec as (allowed_any as) h

/-- The state after a list of labels that can be taken, read off with any default. -/
lemma exec_getD {as : List ι} (h : (exec step s₀ as).isSome) (d : σ) :
    exec step s₀ as = some ((exec step s₀ as).getD d) := by
  obtain ⟨s, hs⟩ := Option.isSome_iff_exists.1 h
  rw [hs]
  rfl

/-- A function that takes every step from a state with `I` to a step takes runs to runs, and the
runs that get stuck to runs that get stuck. -/
theorem exec_map {τ : Type*} {step' : τ → ι → Option τ} (f : σ → τ) {I : σ → Prop}
    (hkeep : ∀ s a s', I s → step s a = some s' → I s')
    (hstep : ∀ s a, I s → (step s a).map f = step' (f s) a) (h0 : I s) (as : List ι) :
    (exec step s as).map f = exec step' (f s) as := by
  induction as generalizing s with
  | nil => rfl
  | cons a as ih =>
    rw [exec_cons, exec_cons, ← hstep s a h0, Option.map_bind]
    cases hs : step s a with
    | none => rfl
    | some s₁ => exact ih (hkeep s a s₁ h0 hs)

/-- Where the steps with a label in `proj` are steps of another function on what `f` shows of the
state, and the others do not change that, a run shows a run of the other function. -/
theorem exec_filterMap {τ κ : Type*} {step' : τ → κ → Option τ} (f : σ → τ) (proj : ι → Option κ)
    (hsome : ∀ s a s' b, step s a = some s' → proj a = some b → step' (f s) b = some (f s'))
    (hnone : ∀ s a s', step s a = some s' → proj a = none → f s' = f s) {as : List ι}
    (h : exec step s as = some s') : exec step' (f s) (as.filterMap proj) = some (f s') := by
  induction as generalizing s with
  | nil =>
    obtain rfl : s = s' := by simpa using h
    rfl
  | cons a as ih =>
    rw [exec_cons, Option.bind_eq_some_iff] at h
    obtain ⟨s₁, hs, h⟩ := h
    cases hp : proj a with
    | none => rw [List.filterMap_cons_none hp, ← hnone s a s₁ hs hp, ih h]
    | some b =>
      rw [List.filterMap_cons_some hp, exec_cons, hsome s a s₁ b hs hp]
      exact ih h

/-- A property of the labels so far and of the state they lead to, that every step keeps. -/
theorem exec_history {I : List ι → σ → Prop}
    (hstep : ∀ as s a s', I as s → step s a = some s' → I (as ++ [a]) s') {as bs : List ι}
    (h0 : I bs s) (h : exec step s as = some s') : I (bs ++ as) s' := by
  induction as generalizing bs s with
  | nil =>
    obtain rfl : s = s' := by simpa using h
    rwa [List.append_nil]
  | cons a as ih =>
    rw [exec_cons, Option.bind_eq_some_iff] at h
    obtain ⟨s₁, hs, h⟩ := h
    have hrest := ih (hstep bs s a s₁ h0 hs) h
    rwa [List.append_assoc, List.singleton_append] at hrest

/-- Where every step of a system is a run of one of its parts, in which the labels with `p` are
those that `seen` grows by and the labels with `q` are the step's own, a run of the system is a run
of the part that takes what was seen and what the labels show. -/
theorem exec_part {τ κ : Type*} {step' : τ → κ → Option τ} (f : σ → τ) (p q : κ → Bool)
    (seen : σ → List κ) (proj : ι → Option κ) {I : σ → Prop}
    (hstep : ∀ s a s', I s → step s a = some s' → I s' ∧ ∃ bs,
      exec step' (f s) bs = some (f s') ∧ seen s' = seen s ++ bs.filter p ∧
        bs.filter q = (proj a).toList)
    {as : List ι} (h0 : I s) (h : exec step s as = some s') :
    ∃ bs, exec step' (f s) bs = some (f s') ∧ seen s' = seen s ++ bs.filter p ∧
      bs.filter q = as.filterMap proj := by
  induction as generalizing s with
  | nil =>
    obtain rfl : s = s' := by simpa using h
    exact ⟨[], rfl, (List.append_nil _).symm, rfl⟩
  | cons a as ih =>
    rw [exec_cons, Option.bind_eq_some_iff] at h
    obtain ⟨s₁, hs, h⟩ := h
    obtain ⟨h1, bs, hbs, hseen, hproj⟩ := hstep s a s₁ h0 hs
    obtain ⟨bs', hbs', hseen', hproj'⟩ := ih h1 h
    refine ⟨bs ++ bs', ?_, ?_, ?_⟩
    · rw [exec_append, hbs]
      exact hbs'
    · rw [hseen', hseen, List.filter_append, List.append_assoc]
    · rw [List.filter_append, hproj, hproj']
      cases hp : proj a <;> simp [hp]

/-! ## Runs that end -/

/-- There is a bound on the lengths of the runs from a state, so every run comes to an end. -/
def Bounded (step : σ → ι → Option σ) (s : σ) : Prop :=
  ∃ N, ∀ as, (exec step s as).isSome → as.length ≤ N

/-- A measure that no step increases, and that the steps with `p` decrease, bounds how many of
these steps a run takes. -/
lemma countP_le_measure {I : σ → Prop} (f : σ → ℕ) (p : ι → Bool)
    (hstep : ∀ s a s', I s → step s a = some s' → I s' ∧ f s' + (if p a then 1 else 0) ≤ f s)
    {as : List ι} (h0 : I s) (h : (exec step s as).isSome) : as.countP p ≤ f s := by
  induction as generalizing s with
  | nil => exact Nat.zero_le _
  | cons a as ih =>
    rw [exec_cons, Option.isSome_bind, Option.any_eq_true] at h
    obtain ⟨s₁, hs, h⟩ := h
    obtain ⟨h1, hle⟩ := hstep s a s₁ h0 hs
    have := ih h1 h
    rw [List.countP_cons]
    omega

/-- A measure that every step decreases bounds the runs. -/
lemma length_le_measure {I : σ → Prop} (f : σ → ℕ)
    (hstep : ∀ s a s', I s → step s a = some s' → I s' ∧ f s' < f s) {as : List ι} (h0 : I s)
    (h : (exec step s as).isSome) : as.length ≤ f s := by
  rw [← List.countP_true]
  exact countP_le_measure f _ hstep h0 h

/-- Where some step always leads on, the runs are not bounded. -/
lemma not_bounded {I : σ → Prop} (hstep : ∀ s, I s → ∃ a s', step s a = some s' ∧ I s')
    (h0 : I s) : ¬ Bounded step s := by
  have hrun : ∀ n s, I s → ∃ as : List ι, as.length = n ∧ (exec step s as).isSome := by
    intro n
    induction n with
    | zero => exact fun s _ => ⟨[], rfl, rfl⟩
    | succ n ih =>
      intro s hs
      obtain ⟨a, s₁, hs₁, h1⟩ := hstep s hs
      obtain ⟨as, hlen, has⟩ := ih s₁ h1
      refine ⟨a :: as, by simp [hlen], ?_⟩
      rw [exec_cons, hs₁]
      exact has
  rintro ⟨N, hN⟩
  obtain ⟨as, hlen, has⟩ := hrun (N + 1) s h0
  have := hN as has
  omega

/-! ## Runs that go on -/

/-- A run without end: its states and its labels. -/
def Run (step : σ → ι → Option σ) (r : ℕ → σ) (l : ℕ → ι) : Prop :=
  ∀ i, step (r i) (l i) = some (r (i + 1))

lemma Run.reach {r : ℕ → σ} {l : ℕ → ι} (h : Run step r l) (i : ℕ) :
    Reach step AnyStep (r 0) (r i) := by
  induction i with
  | zero => exact .init
  | succ i ih => exact ih.step trivial (h i)

section Measure

/-! A measure along a run is a relation here: `M i k` says that `k` is left at time `i`. -/

variable {M : ℕ → ℕ → Prop} {i₀ k : ℕ}

lemma measure_le (hstep : ∀ i ≥ i₀, ∀ k, M i k → ∃ k' ≤ k, M (i + 1) k') (h0 : M i₀ k) {i : ℕ}
    (hi : i₀ ≤ i) : ∃ k' ≤ k, M i k' := by
  induction hi with
  | refl => exact ⟨k, le_rfl, h0⟩
  | step hi ih =>
    obtain ⟨k₁, hk₁, hM₁⟩ := ih
    obtain ⟨k₂, hk₂, hM₂⟩ := hstep _ hi k₁ hM₁
    exact ⟨k₂, hk₂.trans hk₁, hM₂⟩

/-- What lowers a measure that never grows, does not happen for ever. -/
lemma eventually_not {p : ℕ → Prop}
    (hstep : ∀ i ≥ i₀, ∀ k, M i k → ∃ k' ≤ k, M (i + 1) k' ∧ (p i → k' < k)) (h0 : M i₀ k) :
    ∃ j ≥ i₀, ∀ i ≥ j, ¬ p i := by
  have hle : ∀ i ≥ i₀, ∀ k, M i k → ∃ k' ≤ k, M (i + 1) k' := by
    intro i hi k hM
    obtain ⟨k', hk', hM', -⟩ := hstep i hi k hM
    exact ⟨k', hk', hM'⟩
  induction k using Nat.strongRecOn generalizing i₀ with
  | _ k ih =>
    by_cases hp : ∃ i ≥ i₀, p i
    · obtain ⟨i, hi, hpi⟩ := hp
      obtain ⟨k₁, hk₁, hM₁⟩ := measure_le hle h0 hi
      obtain ⟨k₂, -, hM₂, hlt⟩ := hstep i hi k₁ hM₁
      have hfrom : ∀ i' ≥ i + 1, i' ≥ i₀ := fun i' hi' => hi.trans (Nat.le_of_succ_le hi')
      obtain ⟨j, hj, hnot⟩ := ih k₂ ((hlt hpi).trans_le hk₁)
        (fun i' hi' => hstep i' (hfrom i' hi')) hM₂ fun i' hi' => hle i' (hfrom i' hi')
      exact ⟨j, hfrom j hj, hnot⟩
    · exact ⟨i₀, le_rfl, fun i hi hpi => hp ⟨i, hi, hpi⟩⟩

end Measure

end RejectProcess.Lib
