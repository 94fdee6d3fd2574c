import RejectProcess.Lib.Run
import RejectProcess.Sample.ArrayHeap

/-!
# Clearing the sample lists while they are searched

`clear_array` walks a list, gives the buffer of every record back to the pool and drops the list as
a whole: it reads `p->next` from a record whose buffer is free already.  Meanwhile the search tasks
take records out of the other list and give buffers back to the same pool.

Every access to a list is a step of its own here, under the mutex of the list; a call of
`buf_factory_recycle` is one step, the critical section of the pool's mutex.
-/

namespace RejectProcess.ArrayHeap

open Lib

/-- Where `clear_array` stands. -/
inductive ClearPc (α : Type*)
  /-- Before `pthread_mutex_lock`. -/
  | lock (n : Station)
  /-- Before the test of the loop. -/
  | loop (n : Station) (p : α)
  /-- Before `buf_factory_recycle`. -/
  | recycle (n : Station) (p : α)
  /-- Before `p = p->next`. -/
  | next (n : Station) (p : α)
  /-- Before `init_list_head`. -/
  | init (n : Station)
  /-- Before `pthread_mutex_unlock`. -/
  | unlock (n : Station)
  | done
deriving DecidableEq, Repr

/-- Where a search stands. -/
inductive SearchPc (α : Type*)
  | idle
  /-- Before the test of the loop. -/
  | loop (test : SampleResult → Bool) (p : α)
  /-- Before `buf_factory_recycle`, with the record unlinked. -/
  | recycle (parray : α)
  /-- Before `pthread_mutex_unlock`. -/
  | unlock

/-- Who gives a buffer back. -/
inductive Who
  | clear
  | search (n : Station)
deriving DecidableEq, Repr

/-- Who moves.  A search that starts, does so with the given test. -/
inductive ClearLabel
  | clear
  | search (n : Station) (test : SampleResult → Bool)

/-- The memory, the mutexes of the two lists and the tasks.  History: the sequences the memory
holds; the records of each list whose buffers are not back yet; what `clear_array` found in each
list; the buffers given back, in order. -/
structure ClearState (α : Type*) where
  heap : Heap α
  locked : Station → Bool
  clear : ClearPc α
  search : Station → SearchPc α
  seqs : Seqs α
  kept : Station → List α
  found : Station → List α
  log : List (Who × α)

namespace ClearState

variable {α : Type*}

/-- `clear_array` is called, and no search is in progress. -/
def init (h : Heap α) (s : Seqs α) : ClearState α where
  heap := h
  locked := fun _ => false
  clear := .lock .one
  search := fun _ => .idle
  seqs := s
  kept := s.list
  found := fun _ => []
  log := []

variable [DecidableEq α] (g : Globals α) (s : ClearState α)

/-- `pthread_mutex_lock` by `clear_array`, and `p` becomes the first node. -/
def clearLock (n : Station) : ClearState α :=
  { s with
    locked := Function.update s.locked n true
    clear := .loop n (s.heap.list.next (g.head n))
    found := Function.update s.found n (s.seqs.list n) }

/-- A buffer goes back to the pool. -/
def recycle (w : Who) (b : α) : ClearState α :=
  { s with
    heap := s.heap.recycle g b
    seqs := { s.seqs with free := s.seqs.free ++ [b] }
    log := s.log ++ [(w, b)] }

/-- `buf_factory_recycle(0, parray->buf, g_c1_sample_buf)` by `clear_array`. -/
def clearRecycle (n : Station) (p : α) : ClearState α :=
  { s.recycle g .clear (s.heap.buf (s.heap.list.owner p)) with
    clear := .next n p
    kept := Function.update s.kept n (s.kept n).tail }

/-- `init_list_head`. -/
def clearInit (n : Station) : ClearState α :=
  { s with heap := s.heap.initList g n, clear := .unlock n, seqs := s.seqs.setList n [] }

/-- `pthread_mutex_unlock` by `clear_array`. -/
def clearUnlock (n : Station) : ClearState α :=
  { s with
    locked := Function.update s.locked n false
    clear := match n with
      | .one => .lock .two
      | .two => .done }

/-- One step of `clear_array`. -/
def stepClear : Option (ClearState α) :=
  match s.clear with
  | .lock n => if s.locked n then none else some (s.clearLock g n)
  | .loop n p =>
    if p = g.head n then some { s with clear := .init n } else some { s with clear := .recycle n p }
  | .recycle n p => some (s.clearRecycle g n p)
  | .next n p => some { s with clear := .loop n (s.heap.list.next p) }
  | .init n => some (s.clearInit g n)
  | .unlock n => some (s.clearUnlock n)
  | .done => none

/-- A search moves on. -/
def searchGoto (n : Station) (pc : SearchPc α) : ClearState α :=
  { s with search := Function.update s.search n pc }

/-- `list_del(p)` by a search. -/
def searchDel (n : Station) (p : α) : ClearState α :=
  { s.searchGoto n (.recycle (s.heap.list.owner p)) with
    heap := s.heap.listDel g p
    seqs := s.seqs.setList n ((s.seqs.list n).erase (s.heap.buf (s.heap.list.owner p)))
    kept := Function.update s.kept n
      ((s.kept n).erase (s.heap.buf (s.heap.list.owner p))) }

/-- One step of a search of the list of station `n`. -/
def stepSearch (n : Station) (test : SampleResult → Bool) : Option (ClearState α) :=
  match s.search n with
  | .idle =>
    if s.locked n then none
    else some { s.searchGoto n (.loop test (s.heap.list.next (g.head n))) with
                locked := Function.update s.locked n true }
  | .loop test p =>
    if p = g.head n then some (s.searchGoto n .unlock)
    else if test (s.heap.sample (s.heap.list.owner p)) then some (s.searchDel g n p)
    else some (s.searchGoto n (.loop test (s.heap.list.next p)))
  | .recycle parray =>
    some ((s.recycle g (.search n) (s.heap.buf parray)).searchGoto n .unlock)
  | .unlock =>
    some { s.searchGoto n .idle with locked := Function.update s.locked n false }

/-- One step. -/
def step (g : Globals α) (s : ClearState α) : ClearLabel → Option (ClearState α)
  | .clear => s.stepClear g
  | .search n test => s.stepSearch g n test

/-! ## What a step can do -/

/-- The steps of `clear_array`. -/
inductive ClearStep (g : Globals α) (s : ClearState α) : ClearState α → Prop
  | lock (n : Station) : s.clear = .lock n → s.locked n = false → ClearStep g s (s.clearLock g n)
  | stop (n : Station) : s.clear = .loop n (g.head n) → ClearStep g s { s with clear := .init n }
  | body (n : Station) (p : α) : s.clear = .loop n p → p ≠ g.head n →
      ClearStep g s { s with clear := .recycle n p }
  | recycle (n : Station) (p : α) : s.clear = .recycle n p → ClearStep g s (s.clearRecycle g n p)
  | next (n : Station) (p : α) : s.clear = .next n p →
      ClearStep g s { s with clear := .loop n (s.heap.list.next p) }
  | init (n : Station) : s.clear = .init n → ClearStep g s (s.clearInit g n)
  | unlock (n : Station) : s.clear = .unlock n → ClearStep g s (s.clearUnlock n)

/-- The steps of a search of the list of station `n`. -/
inductive SearchStep (g : Globals α) (s : ClearState α) (n : Station) : ClearState α → Prop
  | start (test : SampleResult → Bool) : s.search n = .idle → s.locked n = false →
      SearchStep g s n { s.searchGoto n (.loop test (s.heap.list.next (g.head n))) with
                         locked := Function.update s.locked n true }
  | stop (test : SampleResult → Bool) : s.search n = .loop test (g.head n) →
      SearchStep g s n (s.searchGoto n .unlock)
  | del (test : SampleResult → Bool) (p : α) : s.search n = .loop test p → p ≠ g.head n →
      SearchStep g s n (s.searchDel g n p)
  | next (test : SampleResult → Bool) (p : α) : s.search n = .loop test p → p ≠ g.head n →
      SearchStep g s n (s.searchGoto n (.loop test (s.heap.list.next p)))
  | recycle (parray : α) : s.search n = .recycle parray →
      SearchStep g s n ((s.recycle g (.search n) (s.heap.buf parray)).searchGoto n .unlock)
  | unlock : s.search n = .unlock →
      SearchStep g s n { s.searchGoto n .idle with locked := Function.update s.locked n false }

variable {g s} {s' : ClearState α} {n : Station} {test : SampleResult → Bool}

lemma stepClear_inv (hs : s.stepClear g = some s') : ClearStep g s s' := by
  rw [stepClear] at hs
  cases hpc : s.clear with
  | lock n =>
    simp only [hpc] at hs
    obtain ⟨hfree, ⟨⟩⟩ := Option.ite_none_left_eq_some.1 hs
    exact .lock n hpc (by simpa using hfree)
  | loop n p =>
    simp only [hpc] at hs
    split_ifs at hs with hp
    · cases hs
      exact .stop n (hp ▸ hpc)
    · cases hs
      exact .body n p hpc hp
  | recycle n p =>
    simp only [hpc] at hs
    cases hs
    exact .recycle n p hpc
  | next n p =>
    simp only [hpc] at hs
    cases hs
    exact .next n p hpc
  | init n =>
    simp only [hpc] at hs
    cases hs
    exact .init n hpc
  | unlock n =>
    simp only [hpc] at hs
    cases hs
    exact .unlock n hpc
  | done => simp [hpc] at hs

lemma stepSearch_inv (hs : s.stepSearch g n test = some s') : SearchStep g s n s' := by
  rw [stepSearch] at hs
  cases hpc : s.search n with
  | idle =>
    simp only [hpc] at hs
    obtain ⟨hfree, ⟨⟩⟩ := Option.ite_none_left_eq_some.1 hs
    exact .start test hpc (by simpa using hfree)
  | loop test' p =>
    simp only [hpc] at hs
    split_ifs at hs with hp
    · cases hs
      exact .stop test' (hp ▸ hpc)
    · cases hs
      exact .del test' p hpc hp
    · cases hs
      exact .next test' p hpc hp
  | recycle parray =>
    simp only [hpc] at hs
    cases hs
    exact .recycle parray hpc
  | unlock =>
    simp only [hpc] at hs
    cases hs
    exact .unlock hpc

/-- What a step of a search leaves alone. -/
structure SearchFrame (n : Station) (s s' : ClearState α) : Prop where
  clear : s'.clear = s.clear
  found : s'.found = s.found
  memory : s'.heap.memory = s.heap.memory
  node : s'.heap.node = s.heap.node
  buf : s'.heap.buf = s.heap.buf
  log : s'.log = s.log ∨ ∃ b, s'.log = s.log ++ [(.search n, b)]
  search : ∀ m, m ≠ n → s'.search m = s.search m
  locked : ∀ m, m ≠ n → s'.locked m = s.locked m
  list : ∀ m, m ≠ n → s'.seqs.list m = s.seqs.list m
  kept : ∀ m, m ≠ n → s'.kept m = s.kept m
  keptLe : (s'.kept n).length ≤ (s.kept n).length

omit [DecidableEq α] in
lemma searchFrame_goto (s : ClearState α) (n : Station) (pc : SearchPc α) :
    SearchFrame n s (s.searchGoto n pc) where
  clear := rfl
  found := rfl
  memory := rfl
  node := rfl
  buf := rfl
  log := .inl rfl
  search := fun _ hm => Function.update_of_ne hm _ _
  locked := fun _ _ => rfl
  list := fun _ _ => rfl
  kept := fun _ _ => rfl
  keptLe := le_rfl

lemma SearchStep.frame (hs : SearchStep g s n s') : SearchFrame n s s' := by
  have hgoto := searchFrame_goto s n
  cases hs with
  | stop | next => exact hgoto _
  | start | unlock => exact { hgoto _ with locked := fun _ hm => Function.update_of_ne hm _ _ }
  | recycle parray =>
    exact ⟨rfl, rfl, rfl, rfl, rfl, .inr ⟨_, rfl⟩, (hgoto _).search, fun _ _ => rfl,
      fun _ _ => rfl, fun _ _ => rfl, le_rfl⟩
  | del test p =>
    refine ⟨rfl, rfl, rfl, rfl, rfl, .inl rfl, (hgoto _).search, fun _ _ => rfl,
      fun _ hm => Seqs.setList_of_ne _ _ hm, fun _ hm => Function.update_of_ne hm _ _, ?_⟩
    exact (congrArg _ (Function.update_self ..)).trans_le List.length_erase_le

end ClearState

/-! ## The invariant -/

namespace ClearPc

variable {α : Type*}

/-- The list whose mutex `clear_array` holds. -/
def holding : ClearPc α → Option Station
  | .lock _ => none
  | .loop n _ => some n
  | .recycle n _ => some n
  | .next n _ => some n
  | .init n => some n
  | .unlock n => some n
  | .done => none

/-- The list `clear_array` is at, also before it has the mutex. -/
def station : ClearPc α → Option Station
  | .lock n => some n
  | .loop n _ => some n
  | .recycle n _ => some n
  | .next n _ => some n
  | .init n => some n
  | .unlock n => some n
  | .done => none

/-- `clear_array` has released the mutex of the list. -/
def Past (pc : ClearPc α) (n : Station) : Prop :=
  pc.station = none ∨ n = .one ∧ pc.station = some .two

lemma station_of_holding {pc : ClearPc α} {n : Station} (h : pc.holding = some n) :
    pc.station = some n := by
  cases pc <;> first | exact h | cases h

end ClearPc

namespace ClearState

variable {α : Type*}

section Defs

variable (s : ClearState α)

/-- The buffers that one task has given back, in order. -/
def returned (w : Who) : List α :=
  s.log.filterMap fun e => if e.1 = w then some e.2 else none

/-- The buffer of a record that a search has unlinked and not yet given back. -/
def hand (n : Station) : List α :=
  match s.search n with
  | .recycle parray => [s.heap.buf parray]
  | _ => []

/-- What `clear_array` gives back before it comes to a list. -/
def before : Station → List α
  | .one => []
  | .two => s.found .one

/-- The list is as `clear_array` found it, and the buffers of its records are back up to
`todo`. -/
def Walked (n : Station) (todo : List α) : Prop :=
  s.seqs.list n = s.found n ∧
    ∃ done, s.found n = done ++ todo ∧ s.returned .clear = s.before n ++ done

/-- What holds where `clear_array` stands. -/
def ClearAt (g : Globals α) : Prop :=
  match s.clear with
  | .lock n => s.returned .clear = s.before n
  | .loop n p =>
    s.Walked n (s.kept n) ∧ p = ((s.kept n).map (s.heap.item g)).headD (g.head n)
  | .recycle n p =>
    s.Walked n (s.kept n) ∧ ∃ b rest, s.kept n = b :: rest ∧ p = s.heap.item g b
  | .next n p =>
    s.Walked n (s.kept n) ∧ ∃ l b, s.seqs.list n = l ++ b :: s.kept n ∧ p = s.heap.item g b
  | .init n => s.Walked n [] ∧ s.kept n = []
  | .unlock n =>
    s.seqs.list n = [] ∧ s.kept n = [] ∧ s.returned .clear = s.before n ++ s.found n
  | .done => s.returned .clear = s.found .one ++ s.found .two

/-- What holds where a search stands. -/
def SearchAt (g : Globals α) (records : List α) (n : Station) : Prop :=
  match s.search n with
  | .idle => True
  | .loop _ p =>
    ∃ l rest, s.seqs.list n = l ++ rest ∧ p = (rest.map (s.heap.item g)).headD (g.head n)
  | .recycle parray => ∃ b ∈ records, parray = s.heap.memory b
  | .unlock => True

end Defs

/-- The invariant: the memory holds the sequences, a list is changed by the task that has its
mutex, and every buffer is in one place. -/
structure Inv (g : Globals α) (records all free₀ : List α) (s : ClearState α) : Prop where
  holds : Holds g s.heap records all s.seqs
  clearLocked : ∀ n, s.clear.holding = some n → s.locked n = true ∧ s.search n = .idle
  searchLocked : ∀ n, s.search n ≠ .idle → s.locked n = true
  lockedBy : ∀ n, s.locked n = true → s.clear.holding = some n ∨ s.search n ≠ .idle
  clearAt : s.ClearAt g
  searchAt : ∀ n, s.SearchAt g records n
  kept : ∀ n, s.clear.holding ≠ some n → s.kept n = s.seqs.list n
  emptied : ∀ n, s.clear.Past n → s.seqs.list n = []
  free : s.seqs.free = free₀ ++ s.log.map Prod.snd
  places : (s.seqs.free ++ s.kept .one ++ s.kept .two ++ s.hand .one ++ s.hand .two).Perm all

variable {g : Globals α} {records all free₀ : List α} {s s' : ClearState α} {n : Station}

/-- A step of somebody else leaves what holds where `clear_array` stands. -/
lemma ClearAt.congr (h : s.ClearAt g) (hclear : s'.clear = s.clear) (hfound : s'.found = s.found)
    (hret : s'.returned .clear = s.returned .clear) (hmem : s'.heap.memory = s.heap.memory)
    (hlist : ∀ m, s.clear.holding = some m →
      s'.seqs.list m = s.seqs.list m ∧ s'.kept m = s.kept m) : s'.ClearAt g := by
  have hbefore : s'.before = s.before := by
    funext m
    cases m <;> simp [before, hfound]
  have hitem : s'.heap.item g = s.heap.item g := by
    funext b
    simp only [Heap.item, hmem]
  rw [ClearAt] at h ⊢
  rw [hclear]
  cases hpc : s.clear with
  | lock m => simpa only [hpc, hret, hbefore] using h
  | loop m p | recycle m p | next m p =>
    obtain ⟨h1, h2⟩ := hlist m (by rw [hpc]; rfl)
    simpa only [hpc, Walked, h1, h2, hret, hbefore, hfound, hitem] using h
  | init m | unlock m =>
    obtain ⟨h1, h2⟩ := hlist m (by rw [hpc]; rfl)
    simpa only [hpc, Walked, h1, h2, hret, hbefore, hfound] using h
  | done => simpa only [hpc, hret, hfound] using h

/-- A step of somebody else leaves what holds where a search stands. -/
lemma SearchAt.congr (h : s.SearchAt g records n) (hsearch : s'.search n = s.search n)
    (hmem : s'.heap.memory = s.heap.memory)
    (hlist : s.search n ≠ .idle → s'.seqs.list n = s.seqs.list n) : s'.SearchAt g records n := by
  have hitem : s'.heap.item g = s.heap.item g := by
    funext b
    simp only [Heap.item, hmem]
  rw [SearchAt] at h ⊢
  rw [hsearch]
  cases hpc : s.search n with
  | idle => trivial
  | loop test p =>
    rw [hlist (by simp [hpc]), hitem]
    simpa only [hpc] using h
  | recycle parray =>
    rw [hmem]
    simpa only [hpc] using h
  | unlock => trivial

lemma SearchAt.loop {test : SampleResult → Bool} {p : α} {l rest : List α}
    (hpc : s.search n = .loop test p) (hl : s.seqs.list n = l ++ rest)
    (hp : p = (rest.map (s.heap.item g)).headD (g.head n)) : s.SearchAt g records n := by
  rw [SearchAt, hpc]
  exact ⟨l, rest, hl, hp⟩

lemma returned_append (w : Who) (e : Who × α) :
    { s with log := s.log ++ [e] }.returned w =
      s.returned w ++ if e.1 = w then [e.2] else [] := by
  simp only [returned, List.filterMap_append]
  by_cases h : e.1 = w <;> simp [h]

namespace SearchFrame

lemma returned (hf : SearchFrame n s s') : s'.returned .clear = s.returned .clear := by
  rcases hf.log with hl | ⟨b, hl⟩
  · rw [ClearState.returned, hl]
    rfl
  · have happ := returned_append (s := s) .clear (.search n, b)
    rw [if_neg (by simp), List.append_nil] at happ
    rw [← happ, ClearState.returned, hl]
    rfl

lemma hand (hf : SearchFrame n s s') {m : Station} (hm : m ≠ n) : s'.hand m = s.hand m := by
  rw [ClearState.hand, ClearState.hand, hf.search m hm, hf.buf]

end SearchFrame

namespace Inv

lemma init {h : Heap α} {s₀ : Seqs α} (hwf : WellFormed g h s₀) :
    Inv g s₀.records (s₀.free ++ s₀.records) s₀.free (.init h s₀) where
  holds := hwf
  clearLocked := by simp [ClearState.init, ClearPc.holding]
  searchLocked := by simp [ClearState.init]
  lockedBy := by simp [ClearState.init]
  clearAt := rfl
  searchAt := fun _ => trivial
  kept := fun _ _ => rfl
  emptied := by simp [ClearState.init, ClearPc.Past, ClearPc.station]
  free := by simp [ClearState.init]
  places := by simp [ClearState.init, hand, Seqs.records]

/-- A task that does not have the mutex of a list has not locked it. -/
lemma not_holding (h : Inv g records all free₀ s) (hne : s.search n ≠ .idle) :
    s.clear.holding ≠ some n := fun hc => hne (h.clearLocked n hc).2

/-- The records of a list are different. -/
lemma nodup_list (h : Inv g records all free₀ s) (n : Station) : (s.seqs.list n).Nodup :=
  List.Nodup.of_map _ (List.nodup_cons.1 (h.holds.lists n).nodup).2

/-- No buffer is in two places. -/
lemma nodup_places (h : Inv g records all free₀ s) :
    (s.seqs.free ++ s.kept .one ++ s.kept .two ++ s.hand .one ++ s.hand .two).Nodup := by
  have hnd := h.holds.distinct
  simp only [List.nodup_cons, List.nodup_append] at hnd
  exact h.places.nodup_iff.2 (List.Nodup.of_map _ hnd.2.2.2.2.1)

/-- A step of `clear_array` under the mutex of a list. -/
lemma ofClear (h : Inv g records all free₀ s) (hold : s.clear.holding = some n)
    (hold' : s'.clear.holding = some n) (hsearch : s'.search = s.search)
    (hlocked : s'.locked = s.locked) (hmem : s'.heap.memory = s.heap.memory)
    (hlist : ∀ m, m ≠ n → s'.seqs.list m = s.seqs.list m)
    (hkept : ∀ m, m ≠ n → s'.kept m = s.kept m) (hholds : Holds g s'.heap records all s'.seqs)
    (hat : s'.ClearAt g) (hfree : s'.seqs.free = free₀ ++ s'.log.map Prod.snd)
    (hplaces : (s'.seqs.free ++ s'.kept .one ++ s'.kept .two ++ s'.hand .one ++ s'.hand .two).Perm
      all) : Inv g records all free₀ s' where
  holds := hholds
  clearLocked := by
    intro m hm
    rw [hlocked, hsearch]
    exact h.clearLocked m (by rw [hold, ← hold', hm])
  searchLocked := by
    rw [hlocked, hsearch]
    exact h.searchLocked
  lockedBy := by
    rw [hlocked, hsearch, hold', ← hold]
    exact h.lockedBy
  clearAt := hat
  searchAt := by
    intro m
    refine (h.searchAt m).congr (by rw [hsearch]) hmem fun hne => hlist m ?_
    rintro rfl
    exact hne (h.clearLocked m hold).2
  kept := by
    intro m hm
    rw [hold'] at hm
    have hmn : m ≠ n := fun hc => hm (by rw [hc])
    rw [hkept m hmn, hlist m hmn]
    exact h.kept m (by rwa [hold])
  emptied := by
    intro m hm
    have hst := ClearPc.station_of_holding hold
    rw [ClearPc.Past, ClearPc.station_of_holding hold', ← hst] at hm
    have hmn : m ≠ n := by
      rintro rfl
      rw [hst] at hm
      cases m <;> simp at hm
    rw [hlist m hmn]
    exact h.emptied m hm
  free := hfree
  places := hplaces

/-- `clear_array` moves on under the mutex it has. -/
lemma clearGoto (h : Inv g records all free₀ s) {pc : ClearPc α} (hold : s.clear.holding = some n)
    (hold' : pc.holding = some n) (hat : ClearAt { s with clear := pc } g) :
    Inv g records all free₀ { s with clear := pc } :=
  h.ofClear hold hold' rfl rfl rfl (fun _ _ => rfl) (fun _ _ => rfl) h.holds hat h.free h.places

/-- `clear_array` locks a list. -/
lemma clearLock (h : Inv g records all free₀ s) (hpc : s.clear = .lock n)
    (hfree : s.locked n = false) [DecidableEq α] :
    Inv g records all free₀ (s.clearLock g n) := by
  have hidle : s.search n = .idle := by
    by_contra hne
    rw [h.searchLocked n hne] at hfree
    contradiction
  have hnone : s.clear.holding = none := by rw [hpc]; rfl
  have hret : s.returned .clear = s.before n := by
    have := h.clearAt
    rwa [ClearAt, hpc] at this
  refine ⟨h.holds, ?_, ?_, ?_, ?_, ?_, ?_, ?_, h.free, h.places⟩
  · intro m hm
    obtain rfl : n = m := by simpa [ClearState.clearLock, ClearPc.holding] using hm
    exact ⟨by simp [ClearState.clearLock], hidle⟩
  · intro m hm
    by_cases hmn : m = n
    · simp [ClearState.clearLock, hmn]
    · simpa [ClearState.clearLock, hmn] using h.searchLocked m hm
  · intro m hm
    by_cases hmn : m = n
    · exact .inl (by rw [hmn]; rfl)
    · have hm' : s.locked m = true := by simpa [ClearState.clearLock, hmn] using hm
      rcases h.lockedBy m hm' with hc | hs
      · rw [hnone] at hc
        cases hc
      · exact .inr hs
  · have hkept : s.kept n = s.seqs.list n := h.kept n (by rw [hnone]; simp)
    refine ⟨⟨by simp [ClearState.clearLock], [], ?_, ?_⟩, ?_⟩
    · simp [ClearState.clearLock, hkept]
    · cases n <;> simpa [ClearState.clearLock, returned, before] using hret
    · rw [Ring.next_head (h.holds.lists n)]
      simp only [ClearState.clearLock, hkept]
  · exact fun m => (h.searchAt m).congr rfl rfl fun _ => rfl
  · exact fun m _ => h.kept m (by rw [hnone]; simp)
  · intro m hm
    exact h.emptied m (by rw [hpc]; exact hm)

/-- `clear_array` gives the buffer of a record back. -/
lemma clearRecycle (h : Inv g records all free₀ s) {p : α} (hpc : s.clear = .recycle n p)
    [DecidableEq α] : Inv g records all free₀ (s.clearRecycle g n p) := by
  have hat := h.clearAt
  simp only [ClearAt, hpc] at hat
  obtain ⟨⟨hlist, done, hdone, hret⟩, b, rest, hkept, rfl⟩ := hat
  have hrec : b ∈ records := h.holds.listed n b (by simp [hlist, hdone, hkept])
  have hbuf : s.heap.buf (s.heap.list.owner (s.heap.item g b)) = b := by
    rw [h.holds.owner b hrec, h.holds.buf b hrec]
  -- the buffer is one of those that are not back yet
  have hmem : b ∈ s.kept .one ++ s.kept .two := by
    cases n <;> simp [hkept]
  have hall : b ∈ all := by
    refine h.places.subset ?_
    simp only [List.mem_append] at hmem ⊢
    tauto
  have hfree : b ∉ s.seqs.free := by
    have hnd := h.nodup_places
    simp only [List.append_assoc] at hnd
    rw [← List.append_assoc (s.kept .one)] at hnd
    intro hc
    exact (List.nodup_append.1 hnd).2.2 b hc b (List.mem_append_left _ hmem) rfl
  have hstep : s.clearRecycle g n (s.heap.item g b) =
      { s.recycle g .clear b with
        clear := .next n (s.heap.item g b), kept := Function.update s.kept n rest } := by
    rw [ClearState.clearRecycle, hbuf, hkept]
    rfl
  rw [hstep]
  have hhold : s.clear.holding = some n := by rw [hpc]; rfl
  refine h.ofClear hhold rfl rfl rfl rfl (fun _ _ => rfl)
    (fun _ hm => Function.update_of_ne hm _ _) (h.holds.recycle hall hfree) ?_ ?_ ?_
  · refine ⟨⟨hlist, done ++ [b], ?_, ?_⟩, done, b, ?_, rfl⟩
    · simp [ClearState.recycle, hdone, hkept]
    · have happ := returned_append (s := s) .clear (.clear, b)
      rw [if_pos rfl, hret, List.append_assoc] at happ
      exact happ
    · change s.seqs.list n = _
      simp [hlist, hdone, hkept]
  · simp [ClearState.recycle, h.free]
  · refine List.Perm.trans ?_ h.places
    change ((s.seqs.free ++ [b]) ++ Function.update s.kept n rest .one
      ++ Function.update s.kept n rest .two ++ s.hand .one ++ s.hand .two).Perm _
    rw [List.perm_iff_count]
    intro x
    cases n with
    | one =>
      have hother : Function.update s.kept .one rest .two = s.kept .two :=
        Function.update_of_ne (by decide) _ _
      simp only [Function.update_self, hother, hkept, List.count_append, List.count_cons,
        List.count_nil]
      omega
    | two =>
      have hother : Function.update s.kept .two rest .one = s.kept .one :=
        Function.update_of_ne (by decide) _ _
      simp only [Function.update_self, hother, hkept, List.count_append, List.count_cons,
        List.count_nil]
      omega

/-- The loop of `clear_array` ends where no record is left. -/
lemma clearEnd (h : Inv g records all free₀ s) (hpc : s.clear = .loop n (g.head n)) :
    Inv g records all free₀ { s with clear := .init n } := by
  have hat := h.clearAt
  simp only [ClearAt, hpc] at hat
  obtain ⟨hwalk, hp⟩ := hat
  have hkept : s.kept n = [] := by
    obtain ⟨hlist, done, hdone, -⟩ := hwalk
    cases hk : s.kept n with
    | nil => rfl
    | cons b rest =>
      rw [hk, List.map_cons, List.headD_cons] at hp
      have hb : b ∈ records := h.holds.listed n b (by simp [hlist, hdone, hk])
      exact absurd hp.symm (h.holds.item_ne_head hb n)
  refine h.clearGoto (by rw [hpc]; rfl) rfl ?_
  exact ⟨by rw [← hkept]; exact hwalk, hkept⟩

/-- The loop of `clear_array` goes on with the next record. -/
lemma clearBody (h : Inv g records all free₀ s) {p : α} (hpc : s.clear = .loop n p)
    (hne : p ≠ g.head n) : Inv g records all free₀ { s with clear := .recycle n p } := by
  have hat := h.clearAt
  simp only [ClearAt, hpc] at hat
  obtain ⟨hwalk, hp⟩ := hat
  refine h.clearGoto (by rw [hpc]; rfl) rfl ⟨hwalk, ?_⟩
  cases hk : s.kept n with
  | nil =>
    rw [hk] at hp
    exact absurd hp hne
  | cons b rest =>
    rw [hk] at hp
    exact ⟨b, rest, rfl, hp⟩

/-- `p = p->next`: the record is still linked, its buffer being free or not. -/
lemma clearNext (h : Inv g records all free₀ s) {p : α} (hpc : s.clear = .next n p) :
    Inv g records all free₀ { s with clear := .loop n (s.heap.list.next p) } := by
  have hat := h.clearAt
  simp only [ClearAt, hpc] at hat
  obtain ⟨hwalk, l, b, hl, rfl⟩ := hat
  exact h.clearGoto (by rw [hpc]; rfl) rfl ⟨hwalk, h.holds.next_item hl⟩

/-- `init_list_head`: nothing of the list is kept. -/
lemma clearInit (h : Inv g records all free₀ s) (hpc : s.clear = .init n) [DecidableEq α] :
    Inv g records all free₀ (s.clearInit g n) := by
  have hat := h.clearAt
  simp only [ClearAt, hpc] at hat
  obtain ⟨⟨hlist, done, hdone, hret⟩, hkept⟩ := hat
  rw [List.append_nil] at hdone
  have hhold : s.clear.holding = some n := by rw [hpc]; rfl
  refine h.ofClear hhold rfl rfl rfl rfl (fun _ hm => Seqs.setList_of_ne _ _ hm) (fun _ _ => rfl)
    (h.holds.initList n) ⟨Seqs.setList_self .., hkept, ?_⟩ h.free h.places
  rw [← hdone] at hret
  exact hret

/-- `clear_array` releases a list, which is empty, and goes on. -/
lemma clearUnlock (h : Inv g records all free₀ s) (hpc : s.clear = .unlock n) :
    Inv g records all free₀ (s.clearUnlock n) := by
  have hat := h.clearAt
  simp only [ClearAt, hpc] at hat
  obtain ⟨hempty, hkept, hret⟩ := hat
  have hhold : s.clear.holding = some n := by rw [hpc]; rfl
  have hhold' : (s.clearUnlock n).clear.holding = none := by cases n <;> rfl
  refine ⟨h.holds, ?_, ?_, ?_, ?_, ?_, ?_, ?_, h.free, h.places⟩
  · intro m hm
    rw [hhold'] at hm
    cases hm
  · intro m hm
    have hmn : m ≠ n := by
      rintro rfl
      exact hm (h.clearLocked m hhold).2
    simpa [ClearState.clearUnlock, hmn] using h.searchLocked m hm
  · intro m hm
    by_cases hmn : m = n
    · simp [ClearState.clearUnlock, hmn] at hm
    · have hm' : s.locked m = true := by simpa [ClearState.clearUnlock, hmn] using hm
      rcases h.lockedBy m hm' with hc | hs
      · rw [hhold] at hc
        exact absurd (Option.some.inj hc).symm hmn
      · exact .inr hs
  · cases n with
    | one => exact hret
    | two => exact hret
  · exact fun m => (h.searchAt m).congr rfl rfl fun _ => rfl
  · intro m _
    by_cases hmn : m = n
    · change s.kept m = s.seqs.list m
      rw [hmn, hkept, hempty]
    · exact h.kept m (by rw [hhold]; simpa using Ne.symm hmn)
  · intro m hm
    by_cases hmn : m = n
    · rw [hmn]
      exact hempty
    · refine h.emptied m ?_
      rw [hpc]
      cases n <;> cases m <;> simp_all [ClearState.clearUnlock, ClearPc.Past, ClearPc.station]

/-! ### The searches -/

/-- A step of a search, which has the mutex of its list. -/
lemma ofSearch (h : Inv g records all free₀ s) (hf : SearchFrame n s s')
    (hnot : s.clear.holding ≠ some n) (hholds : Holds g s'.heap records all s'.seqs)
    (hlocked : s'.locked n = true ↔ s'.search n ≠ .idle) (hat : s'.SearchAt g records n)
    (hkept : s'.kept n = s'.seqs.list n) (hlist : s'.seqs.list n ⊆ s.seqs.list n)
    (hfree : s'.seqs.free = free₀ ++ s'.log.map Prod.snd)
    (hplaces : (s'.seqs.free ++ s'.kept .one ++ s'.kept .two ++ s'.hand .one ++ s'.hand .two).Perm
      all) : Inv g records all free₀ s' where
  holds := hholds
  clearLocked := by
    intro m hm
    rw [hf.clear] at hm
    have hmn : m ≠ n := fun hc => hnot (hc ▸ hm)
    rw [hf.locked m hmn, hf.search m hmn]
    exact h.clearLocked m hm
  searchLocked := by
    intro m hm
    by_cases hmn : m = n
    · subst hmn
      exact hlocked.2 hm
    · rw [hf.search m hmn] at hm
      rw [hf.locked m hmn]
      exact h.searchLocked m hm
  lockedBy := by
    intro m hm
    by_cases hmn : m = n
    · subst hmn
      exact .inr (hlocked.1 hm)
    · rw [hf.locked m hmn] at hm
      rw [hf.clear, hf.search m hmn]
      exact h.lockedBy m hm
  clearAt := by
    refine h.clearAt.congr hf.clear hf.found hf.returned hf.memory fun m hm => ?_
    have hmn : m ≠ n := fun hc => hnot (hc ▸ hm)
    exact ⟨hf.list m hmn, hf.kept m hmn⟩
  searchAt := by
    intro m
    by_cases hmn : m = n
    · subst hmn
      exact hat
    · exact (h.searchAt m).congr (hf.search m hmn) hf.memory fun _ => hf.list m hmn
  kept := by
    intro m hm
    by_cases hmn : m = n
    · subst hmn
      exact hkept
    · rw [hf.clear] at hm
      rw [hf.kept m hmn, hf.list m hmn]
      exact h.kept m hm
  emptied := by
    intro m hm
    rw [hf.clear] at hm
    have hempty := h.emptied m hm
    by_cases hmn : m = n
    · subst hmn
      rw [hempty] at hlist
      exact List.subset_nil.1 hlist
    · rwa [hf.list m hmn]
  free := hfree
  places := hplaces

/-- A step of a search that changes nothing but where it stands. -/
lemma ofGoto (h : Inv g records all free₀ s) (hf : SearchFrame n s s')
    (hnot : s.clear.holding ≠ some n) (hheap : s'.heap = s.heap) (hseqs : s'.seqs = s.seqs)
    (hkept : s'.kept = s.kept) (hlog : s'.log = s.log)
    (hlocked : s'.locked n = true ↔ s'.search n ≠ .idle) (hat : s'.SearchAt g records n)
    (hhand : s'.hand n = s.hand n) : Inv g records all free₀ s' := by
  have hhands : ∀ m, s'.hand m = s.hand m := by
    intro m
    by_cases hm : m = n
    · subst hm
      exact hhand
    · exact hf.hand hm
  refine h.ofSearch hf hnot ?_ hlocked hat ?_ ?_ ?_ ?_
  · rw [hheap, hseqs]
    exact h.holds
  · rw [hkept, hseqs]
    exact h.kept n hnot
  · rw [hseqs]
    exact List.Subset.refl _
  · rw [hseqs, hlog]
    exact h.free
  · rw [hseqs, hkept, hhands, hhands]
    exact h.places

/-- A search takes a record out of its list. -/
lemma searchDel (h : Inv g records all free₀ s) {test : SampleResult → Bool} {p : α}
    (hpc : s.search n = .loop test p) (hne : p ≠ g.head n) [DecidableEq α] :
    Inv g records all free₀ (s.searchDel g n p) := by
  have hf : SearchFrame n s (s.searchDel g n p) := (SearchStep.del test p hpc hne).frame
  have hat := h.searchAt n
  simp only [SearchAt, hpc] at hat
  obtain ⟨l, rest, hl, hp⟩ := hat
  cases rest with
  | nil => exact absurd hp hne
  | cons b rest =>
  obtain rfl : p = s.heap.item g b := hp
  have hrec : b ∈ records := h.holds.listed n b (by simp [hl])
  have howner := h.holds.owner b hrec
  have hbuf : s.heap.buf (s.heap.memory b) = b := h.holds.buf b hrec
  have hnot : s.clear.holding ≠ some n := h.not_holding (by simp [hpc])
  have hkept : s.kept n = l ++ b :: rest := (h.kept n hnot).trans hl
  have herase : (l ++ b :: rest).erase b = l ++ rest := by
    have hnd := h.nodup_list n
    rw [hl] at hnd
    have hbl : b ∉ l := fun hc => (List.nodup_append.1 hnd).2.2 b hc b List.mem_cons_self rfl
    rw [List.erase_append_right _ hbl, List.erase_cons_head]
  set s' : ClearState α :=
    { s.searchGoto n (.recycle (s.heap.memory b)) with
      heap := s.heap.listDel g (s.heap.item g b)
      seqs := s.seqs.setList n (l ++ rest)
      kept := Function.update s.kept n (l ++ rest) } with hs'
  have hstep : s.searchDel g n (s.heap.item g b) = s' := by
    rw [ClearState.searchDel, howner, hbuf, hl, hkept, herase]
  rw [hstep] at hf ⊢
  have hself : s'.search n = .recycle (s.heap.memory b) := Function.update_self _ _ _
  refine h.ofSearch hf hnot (h.holds.listDel hl) ?_ ?_ ?_ ?_ h.free ?_
  · rw [hself]
    exact iff_of_true (h.searchLocked n (by simp [hpc])) (by simp)
  · rw [SearchAt, hself]
    exact ⟨b, hrec, rfl⟩
  · simp [hs']
  · rw [hl]
    change (s.seqs.setList n (l ++ rest)).list n ⊆ _
    rw [Seqs.setList_self]
    exact ((List.sublist_cons_self b rest).append_left l).subset
  · refine List.Perm.trans ?_ h.places
    have hnew : s'.hand n = [b] := by
      rw [hand, hself]
      exact congrArg (fun x => [x]) hbuf
    have hold : s.hand n = [] := by simp [hand, hpc]
    have hself' : s'.kept n = l ++ rest := Function.update_self ..
    rw [List.perm_iff_count]
    intro x
    change List.count x (s.seqs.free ++ _ ++ _ ++ _ ++ _) = _
    cases n with
    | one =>
      simp only [hself', hf.kept .two (by decide), hf.hand (m := .two) (by decide), hkept, hnew,
        hold, List.count_append, List.count_cons, List.count_nil]
      omega
    | two =>
      simp only [hself', hf.kept .one (by decide), hf.hand (m := .one) (by decide), hkept, hnew,
        hold, List.count_append, List.count_cons, List.count_nil]
      omega

/-- A search gives the buffer of the record it has unlinked back. -/
lemma searchRecycle (h : Inv g records all free₀ s) {parray : α}
    (hpc : s.search n = .recycle parray) [DecidableEq α] :
    Inv g records all free₀
      ((s.recycle g (.search n) (s.heap.buf parray)).searchGoto n .unlock) := by
  have hf := (SearchStep.recycle (g := g) parray hpc).frame
  have hnot : s.clear.holding ≠ some n := h.not_holding (by simp [hpc])
  set b := s.heap.buf parray with hb
  set s' := (s.recycle g (.search n) b).searchGoto n .unlock with hs'
  have hhand : s.hand n = [b] := by simp [hand, hpc, hb]
  have hmem : b ∈ s.hand .one ++ s.hand .two := by
    cases n <;> simp [hhand]
  have hall : b ∈ all := by
    refine h.places.subset ?_
    simp only [List.mem_append] at hmem ⊢
    tauto
  have hfree : b ∉ s.seqs.free := by
    have hnd := h.nodup_places
    simp only [List.append_assoc] at hnd
    intro hc
    refine (List.nodup_append.1 hnd).2.2 b hc b ?_ rfl
    simp only [List.mem_append] at hmem ⊢
    tauto
  have hself : s'.search n = .unlock := Function.update_self _ _ _
  refine h.ofSearch hf hnot (h.holds.recycle hall hfree) ?_ ?_ (h.kept n hnot)
    (List.Subset.refl _) ?_ ?_
  · rw [hself]
    exact iff_of_true (h.searchLocked n (by simp [hpc])) (by simp)
  · rw [SearchAt, hself]
    trivial
  · simp [hs', ClearState.searchGoto, ClearState.recycle, h.free]
  · refine List.Perm.trans ?_ h.places
    have hnew : s'.hand n = [] := by rw [hand, hself]
    rw [List.perm_iff_count]
    intro x
    change List.count x ((s.seqs.free ++ [b]) ++ s.kept .one ++ s.kept .two ++ _ ++ _) = _
    cases n with
    | one =>
      simp only [hnew, hhand, hf.hand (m := .two) (by decide), List.count_append,
        List.count_cons, List.count_nil]
      omega
    | two =>
      simp only [hnew, hhand, hf.hand (m := .one) (by decide), List.count_append,
        List.count_cons, List.count_nil]
      omega

variable [DecidableEq α]

/-- Every step of `clear_array` keeps the invariant. -/
lemma stepClear (h : Inv g records all free₀ s) (hs : ClearStep g s s') :
    Inv g records all free₀ s' := by
  cases hs with
  | lock n hpc hfree => exact h.clearLock hpc hfree
  | stop n hpc => exact h.clearEnd hpc
  | body n p hpc hp => exact h.clearBody hpc hp
  | recycle n p hpc => exact h.clearRecycle hpc
  | next n p hpc => exact h.clearNext hpc
  | init n hpc => exact h.clearInit hpc
  | unlock n hpc => exact h.clearUnlock hpc

/-- Every step of a search keeps the invariant. -/
lemma stepSearch (h : Inv g records all free₀ s) (hs : SearchStep g s n s') :
    Inv g records all free₀ s' := by
  have hf := hs.frame
  have hat := h.searchAt n
  have hnot := h.not_holding (n := n)
  have hlocked := h.searchLocked n
  cases hs with
  | start test hpc hfree =>
    have hnot : s.clear.holding ≠ some n := fun hc => by simp [(h.clearLocked n hc).1] at hfree
    refine h.ofGoto hf hnot rfl rfl rfl rfl ?_ ?_ ?_
    · simp [ClearState.searchGoto]
    · have hself : (s.searchGoto n (.loop test (s.heap.list.next (g.head n)))).search n =
          .loop test (s.heap.list.next (g.head n)) := Function.update_self _ _ _
      exact .loop hself (List.nil_append _).symm (Ring.next_head (h.holds.lists n))
    · simp [hand, hpc, ClearState.searchGoto]
  | stop test hpc =>
    refine h.ofGoto hf (hnot (by simp [hpc])) rfl rfl rfl rfl ?_ ?_ ?_
    · simpa [ClearState.searchGoto] using hlocked (by simp [hpc])
    · simp [SearchAt, ClearState.searchGoto]
    · simp [hand, hpc, ClearState.searchGoto]
  | del test p hpc hp => exact h.searchDel hpc hp
  | next test p hpc hp =>
    simp only [SearchAt, hpc] at hat
    obtain ⟨l, rest, hl, hrest⟩ := hat
    refine h.ofGoto hf (hnot (by simp [hpc])) rfl rfl rfl rfl ?_ ?_ ?_
    · simpa [ClearState.searchGoto] using hlocked (by simp [hpc])
    · cases rest with
      | nil => exact absurd hrest hp
      | cons b rest =>
        obtain rfl : p = s.heap.item g b := hrest
        have hself : (s.searchGoto n (.loop test (s.heap.list.next (s.heap.item g b)))).search n =
            .loop test (s.heap.list.next (s.heap.item g b)) := Function.update_self _ _ _
        have hl' : s.seqs.list n = (l ++ [b]) ++ rest := by simp [hl]
        exact .loop hself hl' (h.holds.next_item hl)
    · simp [hand, hpc, ClearState.searchGoto]
  | recycle parray hpc => exact h.searchRecycle hpc
  | unlock hpc =>
    refine h.ofGoto hf (hnot (by simp [hpc])) rfl rfl rfl rfl ?_ ?_ ?_
    · simp [ClearState.searchGoto]
    · simp [SearchAt, ClearState.searchGoto]
    · simp [hand, hpc, ClearState.searchGoto]

lemma step (h : Inv g records all free₀ s) {a : ClearLabel} (hs : ClearState.step g s a = some s') :
    Inv g records all free₀ s' := by
  cases a with
  | clear => exact h.stepClear (stepClear_inv hs)
  | search n test => exact h.stepSearch (stepSearch_inv hs)

end Inv

end ClearState

end RejectProcess.ArrayHeap
