import RejectProcess.Sample.HeapClear
import RejectProcess.Sample.HeapSearch

/-!
# `clear_array` gives every buffer back once

The invariant of `Sample/HeapClear` says what `clear_array` has done at each of its steps.  It also
comes to its end: every one of its own steps leaves it less to do, no step of a search leaves it
more, and it waits only for the mutex of a list that a search has, which gives it back after as
many steps as its list has records.
-/

namespace RejectProcess.ArrayHeap

open Lib

/-- The steps of `clear_array`. -/
def ClearLabel.isClear : ClearLabel → Bool
  | .clear => true
  | .search _ _ => false

namespace ClearState

variable {α : Type*} {g : Globals α} {records all free₀ : List α} {s s' : ClearState α}
  {n : Station}

/-! ## How much is left to do -/

/-- What `clear_array` does after a list, in steps. -/
def workAfter (s : ClearState α) : Station → ℕ
  | .one => 3 * (s.kept .two).length + 4
  | .two => 0

/-- What `clear_array` does still, in steps. -/
def work (s : ClearState α) : ℕ :=
  match s.clear with
  | .lock n => 3 * (s.kept n).length + s.workAfter n + 4
  | .loop n _ => 3 * (s.kept n).length + s.workAfter n + 3
  | .recycle n _ => 3 * (s.kept n).length + s.workAfter n + 2
  | .next n _ => 3 * (s.kept n).length + s.workAfter n + 4
  | .init n => s.workAfter n + 2
  | .unlock n => s.workAfter n + 1
  | .done => 0

/-- What a search does still, in steps. -/
def SearchLeft (g : Globals α) (s : ClearState α) (n : Station) (k : ℕ) : Prop :=
  match s.search n with
  | .idle => True
  | .loop _ p =>
    ∃ l rest, s.seqs.list n = l ++ rest ∧ p = (rest.map (s.heap.item g)).headD (g.head n) ∧
      k = rest.length + 2
  | .recycle _ => k = 2
  | .unlock => k = 1

lemma SearchFrame.kept_length (hf : SearchFrame n s s') (m : Station) :
    (s'.kept m).length ≤ (s.kept m).length := by
  by_cases hm : m = n
  · rw [hm]
    exact hf.keptLe
  · rw [hf.kept m hm]

lemma workAfter_mono (h : ∀ m, (s'.kept m).length ≤ (s.kept m).length) (n : Station) :
    s'.workAfter n ≤ s.workAfter n := by
  have := h .two
  cases n with
  | one =>
    simp only [workAfter]
    omega
  | two => exact le_rfl

lemma work_mono (hclear : s'.clear = s.clear) (h : ∀ m, (s'.kept m).length ≤ (s.kept m).length) :
    s'.work ≤ s.work := by
  have hafter := workAfter_mono h
  simp only [work, hclear]
  cases s.clear with
  | lock n | loop n p | recycle n p | next n p =>
    have := h n
    have := hafter n
    simp only
    omega
  | init n | unlock n => exact Nat.add_le_add_right (hafter n) _
  | done => exact le_rfl

/-- A step of another search leaves a search as much to do as before. -/
lemma SearchLeft.frame {m : Station} {k : ℕ} (hk : s.SearchLeft g n k) (hs : SearchFrame m s s')
    (hm : n ≠ m) : s'.SearchLeft g n k := by
  have hitem : s'.heap.item g = s.heap.item g := by
    funext b
    simp only [Heap.item, hs.memory]
  simpa only [SearchLeft, hs.search n hm, hs.list n hm, hitem] using hk

lemma Inv.exists_searchLeft (h : Inv g records all free₀ s) (n : Station) :
    ∃ k, s.SearchLeft g n k := by
  have hat := h.searchAt n
  rw [SearchAt] at hat
  unfold SearchLeft
  cases hpc : s.search n with
  | idle => exact ⟨0, trivial⟩
  | loop test' p =>
    simp only [hpc] at hat
    obtain ⟨l, rest, hl, hp⟩ := hat
    exact ⟨_, l, rest, hl, hp, rfl⟩
  | recycle parray | unlock => exact ⟨_, rfl⟩

section Steps

variable [DecidableEq α] {test : SampleResult → Bool}

lemma Inv.work_lt (h : Inv g records all free₀ s) (hs : ClearStep g s s') : s'.work < s.work := by
  have hat := h.clearAt
  cases hs with
  | lock n hpc | body n p hpc | next n p hpc | init n hpc =>
    simp only [work, hpc]
    exact Nat.lt_succ_self _
  | stop n hpc =>
    simp only [work, hpc]
    change s.workAfter n + 2 < _
    omega
  | recycle n p hpc =>
    simp only [ClearAt, hpc] at hat
    obtain ⟨-, b, rest, hkept, -⟩ := hat
    have hrest : (s.clearRecycle g n p).kept n = rest := by
      simp [ClearState.clearRecycle, hkept]
    have hafter : (s.clearRecycle g n p).workAfter n = s.workAfter n := by
      cases n <;> rfl
    have hpc' : (s.clearRecycle g n p).clear = .next n p := rfl
    simp only [work, hpc, hpc', hrest, hafter, hkept, List.length_cons]
    omega
  | unlock n hpc =>
    simp only [work, hpc]
    cases n with
    | one =>
      change 3 * (s.kept .two).length + 0 + 4 < 3 * (s.kept .two).length + 4 + 1
      omega
    | two => exact Nat.succ_pos _

/-- A search that has a mutex does not wait. -/
lemma stepSearch_isSome (hne : s.search n ≠ .idle) (test : SampleResult → Bool) :
    (s.stepSearch g n test).isSome := by
  rw [stepSearch]
  cases hpc : s.search n with
  | idle => exact absurd hpc hne
  | loop test' p =>
    simp only
    split_ifs <;> rfl
  | recycle parray | unlock => rfl

/-- `clear_array` waits only for a mutex that a search has. -/
lemma Inv.waits (h : Inv g records all free₀ s) (hstuck : s.stepClear g = none) :
    s.clear = .done ∨ ∃ n, s.clear = .lock n ∧ s.search n ≠ .idle := by
  rw [ClearState.stepClear] at hstuck
  cases hpc : s.clear with
  | lock n =>
    simp only [hpc, ite_eq_left_iff, reduceCtorEq, imp_false, Decidable.not_not] at hstuck
    rcases h.lockedBy n hstuck with hc | hs
    · rw [hpc] at hc
      cases hc
    · exact .inr ⟨n, rfl, hs⟩
  | loop n p =>
    simp only [hpc] at hstuck
    split_ifs at hstuck
  | done => exact .inl rfl
  | recycle n p | next n p | init n | unlock n => simp [hpc] at hstuck

/-- A search that stays in its critical section has less to do after each step. -/
lemma Inv.searchLeft_step (h : Inv g records all free₀ s) (hne : s.search n ≠ .idle)
    (hs : SearchStep g s n s') {k : ℕ} (hk : s.SearchLeft g n k) :
    ∃ k' < k, s'.SearchLeft g n k' := by
  cases hs with
  | start test hpc => exact absurd hpc hne
  | stop test hpc =>
    simp only [SearchLeft, hpc] at hk
    obtain ⟨l, rest, -, -, rfl⟩ := hk
    exact ⟨1, by omega, by simp [SearchLeft, ClearState.searchGoto]⟩
  | del test p hpc hp =>
    simp only [SearchLeft, hpc] at hk
    obtain ⟨l, rest, -, hrest, rfl⟩ := hk
    cases rest with
    | nil => exact absurd hrest hp
    | cons b rest =>
      exact ⟨2, by simp, by simp [SearchLeft, ClearState.searchDel, ClearState.searchGoto]⟩
  | next test p hpc hp =>
    simp only [SearchLeft, hpc] at hk
    obtain ⟨l, rest, hl, hrest, rfl⟩ := hk
    cases rest with
    | nil => exact absurd hrest hp
    | cons b rest =>
      obtain rfl : p = s.heap.item g b := hrest
      refine ⟨rest.length + 2, by simp, ?_⟩
      have hself : (s.searchGoto n (.loop test (s.heap.list.next (s.heap.item g b)))).search n =
          .loop test (s.heap.list.next (s.heap.item g b)) := Function.update_self _ _ _
      rw [SearchLeft, hself]
      exact ⟨l ++ [b], rest, by simp [hl, ClearState.searchGoto], h.holds.next_item hl, rfl⟩
  | recycle parray hpc =>
    simp only [SearchLeft, hpc] at hk
    exact ⟨1, by omega, by simp [SearchLeft, ClearState.searchGoto]⟩
  | unlock hpc =>
    simp only [SearchLeft, hpc] at hk
    exact ⟨0, by omega, by simp [SearchLeft, ClearState.searchGoto]⟩

/-- `clear_array` moves no buffer and no record. -/
lemma ClearStep.node (hs : ClearStep g s s') :
    s'.heap.node = s.heap.node ∧ s'.heap.memory = s.heap.memory := by
  cases hs <;> exact ⟨rfl, rfl⟩

end Steps

/-! ## Runs -/

variable [DecidableEq α]

/-- A run without end that leaves nobody out: `clear_array` goes on some time if it can again and
again, and a search does not rest in its critical section for ever. -/
structure FairRun (g : Globals α) (r : ℕ → ClearState α) (l : ℕ → ClearLabel) : Prop where
  run : Run (step g) r l
  clear : (∀ i, ∃ j ≥ i, ((r j).stepClear g).isSome) → ∀ i, ∃ j ≥ i, (l j).isClear
  search : ∀ n i, (∀ j ≥ i, (r j).search n ≠ .idle) → ∃ j ≥ i, ∃ test, l j = .search n test

lemma Inv.reach (h : Inv g records all free₀ s) (hr : Reach (ClearState.step g) AnyStep s s') :
    Inv g records all free₀ s' := by
  induction hr with
  | init => exact h
  | step _ _ hs ih => exact ih.step hs

lemma Inv.work_step (h : Inv g records all free₀ s) {a : ClearLabel}
    (hs : ClearState.step g s a = some s') : s'.work + (if a.isClear then 1 else 0) ≤ s.work := by
  cases a with
  | clear => exact h.work_lt (stepClear_inv hs)
  | search n test =>
    have hframe := (stepSearch_inv hs).frame
    exact work_mono hframe.clear hframe.kept_length

/-- Where nobody is left out, `clear_array` comes to its end. -/
lemma FairRun.ends {r : ℕ → ClearState α} {l : ℕ → ClearLabel} (hr : FairRun g r l)
    (h0 : Inv g records all free₀ (r 0)) : ∃ i, (r i).clear = .done := by
  by_contra hnot
  rw [not_exists] at hnot
  have hinv : ∀ i, Inv g records all free₀ (r i) := fun i => h0.reach (hr.run.reach i)
  -- the work is bounded, so from some time on `clear_array` does not move
  have hwork : ∀ i ≥ 0, ∀ k, (r i).work = k →
      ∃ k' ≤ k, (r (i + 1)).work = k' ∧ ((l i).isClear = true → k' < k) := by
    rintro i - k rfl
    have hstep := (hinv i).work_step (hr.run i)
    refine ⟨(r (i + 1)).work, by omega, rfl, fun hc => ?_⟩
    rw [if_pos hc] at hstep
    omega
  obtain ⟨i₁, -, hrest⟩ := eventually_not hwork rfl
  -- so from some time on it cannot
  obtain ⟨i₂, hstuck⟩ : ∃ i₂, ∀ j ≥ i₂, (r j).stepClear g = none := by
    by_contra hc
    push Not at hc
    obtain ⟨j, hj, hclear⟩ := hr.clear (fun i => by
      obtain ⟨j, hj, hne⟩ := hc i
      exact ⟨j, hj, Option.isSome_iff_ne_none.2 hne⟩) i₁
    exact hrest j hj hclear
  obtain ⟨i₃, h31, h32⟩ : ∃ i₃, i₁ ≤ i₃ ∧ i₂ ≤ i₃ :=
    ⟨max i₁ i₂, le_max_left .., le_max_right ..⟩
  have hframe : ∀ j ≥ i₃, ∃ m, SearchFrame m (r j) (r (j + 1)) ∧
      SearchStep g (r j) m (r (j + 1)) ∧ ∃ test, l j = .search m test := by
    intro j hj
    have hrun := hr.run j
    cases hl : l j with
    | clear => exact absurd (by rw [hl]; rfl) (hrest j (h31.trans hj))
    | search m test =>
      rw [hl] at hrun
      have hs := stepSearch_inv hrun
      exact ⟨m, hs.frame, hs, test, rfl⟩
  obtain ⟨n, hlock⟩ : ∃ n, (r i₃).clear = .lock n := by
    rcases (hinv i₃).waits (hstuck i₃ h32) with hc | ⟨n, hn, -⟩
    · exact absurd hc (hnot i₃)
    · exact ⟨n, hn⟩
  have hclear : ∀ j ≥ i₃, (r j).clear = .lock n := by
    intro j hj
    induction hj with
    | refl => exact hlock
    | step hj ih =>
      obtain ⟨m, hm, -⟩ := hframe _ hj
      rw [hm.clear, ih]
  -- it waits for the mutex of one list, and the search that has it never gives it back
  have hbusy : ∀ j ≥ i₃, (r j).search n ≠ .idle := by
    intro j hj
    rcases (hinv j).waits (hstuck j (h32.trans hj)) with hc | ⟨m, hm, hne⟩
    · exact absurd hc (hnot j)
    · rw [hclear j hj] at hm
      cases hm
      exact hne
  have hleft : ∀ j ≥ i₃, ∀ k, (r j).SearchLeft g n k →
      ∃ k' ≤ k, (r (j + 1)).SearchLeft g n k' ∧ ((∃ test, l j = .search n test) → k' < k) := by
    intro j hj k hk
    obtain ⟨m, hm, hs, test, hl⟩ := hframe j hj
    by_cases hmn : n = m
    · subst hmn
      obtain ⟨k', hk', hleft⟩ := (hinv j).searchLeft_step (hbusy j hj) hs hk
      exact ⟨k', hk'.le, hleft, fun _ => hk'⟩
    · refine ⟨k, le_rfl, hk.frame hm hmn, ?_⟩
      rintro ⟨test', hl'⟩
      rw [hl] at hl'
      exact absurd (ClearLabel.search.inj hl').1.symm hmn
  obtain ⟨k, hk⟩ := (hinv i₃).exists_searchLeft n
  obtain ⟨i₄, h43, hquiet⟩ := eventually_not hleft hk
  obtain ⟨j, hj, htest⟩ := hr.search n i₄ fun j hj => hbusy j (h43.trans hj)
  exact hquiet j hj htest

/-! ## The result -/

/-- What holds in a state that a run from the sequences `s₀` reaches. -/
structure ReturnsOnce (g : Globals α) (h : Heap α) (s₀ : Seqs α) (s : ClearState α) : Prop where
  /-- In a list that `clear_array` walks, there are still the records it found. -/
  finds : ∀ n, s.clear.holding = some n → s.clear ≠ .unlock n →
    s.heap.list.Represents (g.head n) ((s.found n).map (h.item g))
  /-- It releases the mutex of a list that is empty. -/
  empties : ∀ n, s.clear = .unlock n → s.heap.list.Represents (g.head n) []
  /-- The list stays empty. -/
  leaves : ∀ n, s.clear.Past n → s.heap.list.Represents (g.head n) []
  /-- What was given back is at the end of the free list. -/
  free : s.heap.list.Represents g.pool ((s₀.free ++ s.log.map Prod.snd).map h.node)
  /-- Nothing was given back twice. -/
  once : (s₀.free ++ s.log.map Prod.snd).Nodup
  /-- `clear_array` gives back what it found, list by list and in the order of the lists. -/
  order : s.clear = .done → s.returned .clear = s.found .one ++ s.found .two
  /-- Nothing was skipped. -/
  skipsNone : s.clear = .done →
    (s₀.free ++ s.log.map Prod.snd ++ s.hand .one ++ s.hand .two).Perm (s₀.free ++ s₀.records)
  /-- It waits at most for a search, which does not wait itself. -/
  goesOn : (s.stepClear g).isSome ∨ s.clear = .done ∨
    ∃ n, s.clear = .lock n ∧ s.search n ≠ .idle ∧ ∀ test, (s.stepSearch g n test).isSome

lemma step_node {a : ClearLabel} (hs : step g s a = some s') :
    s'.heap.node = s.heap.node ∧ s'.heap.memory = s.heap.memory := by
  cases a with
  | clear => exact (stepClear_inv hs).node
  | search n test =>
    have hframe := (stepSearch_inv hs).frame
    exact ⟨hframe.node, hframe.memory⟩

lemma node_reach (hr : Reach (step g) AnyStep s s') :
    s'.heap.node = s.heap.node ∧ s'.heap.memory = s.heap.memory := by
  induction hr with
  | init => exact ⟨rfl, rfl⟩
  | step _ _ hs ih => exact ⟨(step_node hs).1.trans ih.1, (step_node hs).2.trans ih.2⟩

lemma Inv.returnsOnce {h : Heap α} {s₀ : Seqs α}
    (hs : Inv g s₀.records (s₀.free ++ s₀.records) s₀.free s) (hnode : s.heap.node = h.node)
    (hmem : s.heap.memory = h.memory) : ReturnsOnce g h s₀ s where
  finds := by
    intro n hn hne
    have hitem : h.item g = s.heap.item g := by
      funext b
      simp only [Heap.item, hmem]
    have hring := hs.holds.lists n
    have hat := hs.clearAt
    suffices hlist : s.seqs.list n = s.found n by rwa [hitem, ← hlist]
    cases hpc : s.clear with
    | lock m | done =>
      rw [hpc] at hn
      cases hn
    | unlock m =>
      rw [hpc] at hn hne
      cases hn
      exact absurd rfl hne
    | loop m p | recycle m p | next m p | init m =>
      rw [hpc] at hn
      cases hn
      simp only [ClearAt, hpc] at hat
      exact hat.1.1
  empties := by
    intro n hn
    have hat := hs.clearAt
    simp only [ClearAt, hn] at hat
    have hring := hs.holds.lists n
    rwa [hat.1] at hring
  leaves := by
    intro n hn
    have hring := hs.holds.lists n
    rwa [hs.emptied n hn] at hring
  free := by
    have hring := hs.holds.free
    rwa [hs.free, hnode] at hring
  once := by
    rw [← hs.free]
    have hnd := hs.nodup_places
    simp only [List.append_assoc] at hnd
    exact (List.nodup_append.1 hnd).1
  order := by
    intro hdone
    have hat := hs.clearAt
    simpa only [ClearAt, hdone] using hat
  skipsNone := by
    intro hdone
    have hkept : ∀ n, s.kept n = [] := by
      intro n
      rw [hs.kept n (by rw [hdone]; simp [ClearPc.holding])]
      exact hs.emptied n (.inl (by rw [hdone]; rfl))
    have hplaces := hs.places
    rwa [hkept, hkept, List.append_nil, List.append_nil, hs.free] at hplaces
  goesOn := by
    cases hstep : s.stepClear g with
    | some s' => exact .inl rfl
    | none =>
      rcases hs.waits hstep with hdone | ⟨n, hlock, hne⟩
      · exact .inr (.inl hdone)
      · exact .inr (.inr ⟨n, hlock, hne, stepSearch_isSome hne⟩)

end ClearState

open ClearState

/-- However `clear_array` and the searches interleave, every buffer goes back once and in order,
and `clear_array` ends: it takes at most so many steps of its own, and in a run that leaves nobody
out it takes them all. -/
theorem clear_returns_once {α : Type*} [DecidableEq α] (g : Globals α) (h : Heap α) (s₀ : Seqs α)
    (hwf : WellFormed g h s₀) :
    (∀ s, Reach (step g) AnyStep (.init h s₀) s → ReturnsOnce g h s₀ s) ∧
      (∀ as, (exec (step g) (.init h s₀) as).isSome →
        as.countP ClearLabel.isClear ≤ 3 * s₀.records.length + 8) ∧
      ∀ r l, FairRun g r l → r 0 = .init h s₀ → ∃ i, (r i).clear = .done := by
  have h0 := Inv.init hwf
  refine ⟨fun s hr => ?_, fun as has => ?_, fun r l hfair hr => ?_⟩
  · obtain ⟨hnode, hmem⟩ := node_reach hr
    exact (h0.reach hr).returnsOnce hnode hmem
  · have hle := countP_le_measure work ClearLabel.isClear
      (fun s a s' hs hstep => ⟨Inv.step hs hstep, hs.work_step hstep⟩) h0 has
    have hwork : (ClearState.init h s₀).work = 3 * s₀.records.length + 8 := by
      simp only [work, ClearState.init, workAfter, Seqs.records, List.length_append]
      omega
    rwa [hwork] at hle
  · rw [← hr] at h0
    exact hfair.ends h0

/-- While `clear_array` walks the list of station 1, a search takes the only record of station 2:
its buffer goes back between the two of station 1. -/
def smallRun : List ClearLabel :=
  let search := .search .two fun _ => true
  [.clear, search, .clear, .clear, search, .clear, search, .clear, .clear, .clear, .clear, .clear,
    .clear, search, .clear, .clear, .clear, .clear]

def smallCleared : ClearState ℕ :=
  (exec (step smallGlobals) (.init smallHeap smallSeqs) smallRun).getD (.init smallHeap smallSeqs)

/-- After that, searches of the empty list of station 1 for ever. -/
def smallLabel (i : ℕ) : ClearLabel := (smallRun[i]?).getD (.search .one fun _ => false)

def smallState : ℕ → ClearState ℕ
  | 0 => .init smallHeap smallSeqs
  | i + 1 => (step smallGlobals (smallState i) (smallLabel i)).getD (smallState i)

/-- Where `clear_array` has returned and only searches of an empty list are to come. -/
def Quiet (s : ClearState ℕ) : Prop :=
  s.clear = .done ∧ s.heap.list.next 0 = 0 ∧ s.search .two = .idle ∧
    (s.search .one = .idle ∧ s.locked .one = false ∨ (∃ test, s.search .one = .loop test 0) ∨
      s.search .one = .unlock)

lemma Quiet.step {s : ClearState ℕ} (hs : Quiet s) (test : SampleResult → Bool) :
    ∃ s', ClearState.step smallGlobals s (.search .one test) = some s' ∧ Quiet s' := by
  have hother : ∀ pc, (s.searchGoto .one pc).search .two = s.search .two := fun pc => by
    simp [searchGoto]
  obtain ⟨hdone, hnext, htwo, ⟨hidle, hfree⟩ | ⟨test', hloop⟩ | hunlock⟩ := hs
  · refine ⟨{ s.searchGoto .one (.loop test (s.heap.list.next 0)) with
      locked := Function.update s.locked .one true }, ?_, hdone, hnext,
      (hother (.loop test (s.heap.list.next 0))).trans htwo, ?_⟩
    · rw [ClearState.step, stepSearch, hidle, hfree]
      rfl
    · rw [hnext]
      exact .inr (.inl ⟨test, by simp [searchGoto]⟩)
  · refine ⟨s.searchGoto .one .unlock, ?_, hdone, hnext, (hother _).trans htwo, ?_⟩
    · rw [ClearState.step, stepSearch, hloop]
      rfl
    · exact .inr (.inr (by simp [searchGoto]))
  · refine ⟨{ s.searchGoto .one .idle with locked := Function.update s.locked .one false }, ?_,
      hdone, hnext, (hother .idle).trans htwo, ?_⟩
    · rw [ClearState.step, stepSearch, hunlock]
    · exact .inl ⟨by simp [searchGoto], by simp⟩

lemma smallLabel_of_le {i : ℕ} (hi : 18 ≤ i) : smallLabel i = .search .one fun _ => false := by
  rw [smallLabel, List.getElem?_eq_none (show smallRun.length ≤ i from hi)]
  rfl

lemma quiet_smallState {i : ℕ} (hi : 18 ≤ i) : Quiet (smallState i) := by
  induction hi with
  | refl => exact ⟨by decide, by decide, rfl, .inl ⟨rfl, by decide⟩⟩
  | step hi ih =>
    obtain ⟨s', hs, hquiet⟩ := ih.step fun _ => false
    rw [smallState, smallLabel_of_le hi, hs]
    exact hquiet

lemma fairRun_small : FairRun smallGlobals smallState smallLabel where
  run := by
    intro i
    have hsome : (step smallGlobals (smallState i) (smallLabel i)).isSome := by
      by_cases hi : 18 ≤ i
      · obtain ⟨s', hs, -⟩ := (quiet_smallState hi).step fun _ => false
        rw [smallLabel_of_le hi, hs]
        rfl
      · have : ∀ i < 18, (step smallGlobals (smallState i) (smallLabel i)).isSome := by decide
        exact this i (not_le.1 hi)
    obtain ⟨s', hs⟩ := Option.isSome_iff_exists.1 hsome
    rw [smallState, hs]
    rfl
  clear := by
    intro h
    obtain ⟨j, hj, hsome⟩ := h 18
    rw [stepClear, (quiet_smallState hj).1] at hsome
    cases hsome
  search := by
    intro n i h
    have hmax : 18 ≤ max 18 i := le_max_left ..
    refine ⟨max 18 i, le_max_right .., fun _ => false, ?_⟩
    rw [smallLabel_of_le hmax]
    cases n with
    | one => rfl
    | two => exact absurd (quiet_smallState hmax).2.2.1 (h _ (le_max_right ..))

theorem clear_returns_once_small :
    ReturnsOnce smallGlobals smallHeap smallSeqs smallCleared ∧ smallCleared.clear = .done ∧
      smallCleared.log = [(.clear, 10), (.search .two, 12), (.clear, 11)] ∧
      ∃ i, (smallState i).clear = .done := by
  obtain ⟨hreach, -, hends⟩ :=
    clear_returns_once smallGlobals smallHeap smallSeqs wellFormed_small
  refine ⟨hreach _ ?_, ?_, ?_, hends _ _ fairRun_small rfl⟩
  · exact reach_any smallRun (exec_getD (by decide) _)
  · decide
  · decide

end RejectProcess.ArrayHeap
