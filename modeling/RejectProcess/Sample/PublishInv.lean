import RejectProcess.Sample.Publish

/-!
# The links of the sample lists

Behind the pending stores of its lock holder every sample list is a ring of the records that
are in it, and every record is free, in one list or in the hand of one task.  The invariant and
what each kind of step, whichever task makes it, does to it.
-/

namespace RejectProcess.Publish

open Lib

namespace Pc

/-- The list whose mutex the task holds. -/
def holds : Pc → Option SList
  | .add l _ | .link l _ _ | .unlockAdd l => some l
  | .firstClear n | .atClear n _ | .gotClear n _ _ | .nextClear n _ | .initClear n _
  | .first n | .look n _ | .got n _ _ | .del n _ _ | .unlock n => some (.sample n)
  | .lockedDis l _ _ | .delDis l _ _ => some (.pos l)
  | _ => none

/-- The linked record whose owner the task has still to assign. -/
def owes : Pc → Option Rec
  | .link _ r _ | .own r => some r
  | _ => none

/-- The stores of the list operation that the task is in. -/
def stores : Pc → Stores
  | .link _ _ sts | .initClear _ sts | .del _ _ sts | .delDis _ _ sts => sts
  | _ => []

/-- The list that the task is clearing. -/
def clearing : Pc → Option Station
  | .atClear n _ | .gotClear n _ _ | .nextClear n _ => some n
  | _ => none

end Pc

/-- All tasks. -/
def Task.all : List Task :=
  [.recv, .writeKp .one, .writeKp .two, .trig .one, .trig .two, .dis (.c1Kt .one),
    .dis (.c1Kt .two), .dis (.kpKft .one), .dis (.kpKft .two)]

lemma Task.mem_all (t : Task) : t ∈ Task.all := by
  rcases t with _ | (_ | _) | (_ | _) | ((_ | _) | (_ | _)) <;> decide

namespace State

variable (s : State)

/-- The node whose owner the step reads. -/
def readsOwner (a : Label) : Option Ptr :=
  match s.pc a.task with
  | .atClear n p | .look n p => if p = .head (.sample n) then none else some p
  | .plist _ p => some p
  | _ => none

/-- The step reads the owner of no node that a producer has linked and not yet given its owner,
unless the field has the value already, from an earlier use of the buffer. -/
def SparesUnowned (a : Label) : Prop :=
  ∀ p ∈ s.readsOwner a, ∀ t ∈ Task.all, ∀ r ∈ (s.pc t).owes, p = .node r →
    s.mem.owner p = .record r

instance (a : Label) : Decidable (s.SparesUnowned a) := by
  unfold SparesUnowned
  infer_instance

/-- The stores to a list that are still to be made. -/
def pending (l : SList) : Stores :=
  match s.lock l with
  | some t => (s.pc t).stores
  | none => []

/-- The memory as it is for a list once they are made. -/
def flushed (l : SList) : ListMem Ptr := s.mem.flush (s.pending l)

/-- The nodes of a list. -/
def ring (l : SList) : List Ptr := (s.cleared l ++ s.seq l).map .node

/-- The first node of a list, or its head. -/
def front (l : SList) : Ptr := ((s.seq l).map Ptr.node).headD (.head l)

/-- What a load of the first node gives without the mutex: the list as it is behind the pending
stores, or an empty one. -/
def Sees (l : SList) : Prop :=
  (s.mem.next (.head l) = .head l ∨ s.mem.next (.head l) = (s.flushed l).next (.head l)) ∧
    ∀ st ∈ s.pending l, st.field = .next → st.addr = .head l →
      st.val = (s.flushed l).next (.head l)

end State

/-- A place a record can be in. -/
inductive Place
  | free
  | list (l : SList)
  | hand (t : Task)
deriving DecidableEq

section

variable {place : Rec → Place} {r r' : Rec} {p q : Place}

/-- Moving a record between two places changes no third one. -/
lemma update_place_iff (hp : p ≠ q) (hr : place r ≠ q) :
    Function.update place r p r' = q ↔ place r' = q := by
  by_cases hrr : r' = r
  · rw [hrr, Function.update_self]
    exact iff_of_false hp hr
  · rw [Function.update_of_ne hrr]

/-- A record in another place than the one moved stays there. -/
lemma update_place_of_place (hr : place r ≠ q) (h : place r' = q) :
    Function.update place r p r' = q := by
  rw [Function.update_of_ne]
  · exact h
  · rintro rfl
    exact hr h

end

/-- A record in the hand of a task, with its buffer noted. -/
def InHand (s : State) (place : Rec → Place) (t : Task) (P : Pool) (r : Rec) : Prop :=
  place r = .hand t ∧ r.pool = P ∧ s.buf (.record r) = some r

/-- What is true of a task where it stands. -/
def Here (s : State) (place : Rec → Place) (t : Task) : Pc → Prop
  | .produce l => (l.elim .c1Sample SList.pool) = .c1Sample → t = .recv
  | .fill l r => place r = .hand t ∧ r.pool = l.elim .c1Sample SList.pool
  | .lockAdd l r | .add l r => InHand s place t l.pool r
  | .lockClear _ | .firstClear _ | .initClear _ _ => t = .recv
  | .atClear n p => t = .recv ∧ p = s.front (.sample n)
  | .gotClear n p q =>
    t = .recv ∧ ∃ r, (s.seq (.sample n)).head? = some r ∧ p = .node r ∧ q = .record r
  | .nextClear n p => t = .recv ∧ ∃ cs r, s.cleared (.sample n) = cs ++ [r] ∧ p = .node r
  | .look n p => p = .head (.sample n) ∨ ∃ r ∈ s.seq (.sample n), p = .node r
  | .got n p q => ∃ r ∈ s.seq (.sample n), p = .node r ∧ q = .record r
  | .del _ q _ => ∃ r, q = .record r ∧ InHand s place t .c1Sample r
  | .notEmpty l => t = .dis l ∧ s.mem.next (.head (.pos l)) ≠ .head (.pos l)
  | .plist l p => t = .dis l ∧ ∃ r, (s.seq (.pos l)).head? = some r ∧ p = .node r
  | .gotDis l p q | .lockedDis l p q =>
    t = .dis l ∧ ∃ r, (s.seq (.pos l)).head? = some r ∧ p = .node r ∧ q = .record r
  | .delDis l q _ | .recycleDis l q => t = .dis l ∧ ∃ r, q = .record r ∧ InHand s place t (.pos l) r
  | _ => True

/-- A pending store of task `t` to list `l` goes to the list or to the record in hand. -/
def StoreOk (place : Rec → Place) (t : Task) (l : SList) (st : ListStore Ptr) : Prop :=
  st.addr = .head l ∨
    ∃ r, st.addr = .node r ∧ st.field ≠ .owner ∧ (place r = .list l ∨ place r = .hand t)

/-- The free records of every factory. -/
structure Stock (free : Pool → List Rec) (place : Rec → Place) : Prop where
  free_pool : ∀ P, ∀ r ∈ free P, r.pool = P
  free_iff : ∀ r, r ∈ free r.pool ↔ place r = .free
  free_nodup : ∀ P, (free P).Nodup

/-- Every record is in one place, and the factories and the lists have the ones that are
there. -/
structure Placement (s : State) (place : Rec → Place) : Prop extends Stock s.free place where
  seq_iff : ∀ l r, r ∈ s.seq l ↔ place r = .list l
  seq_ok : ∀ l, ∀ r ∈ s.seq l, r.pool = l.pool ∧ s.buf (.record r) = some r
  cleared_ok : ∀ l, ∀ r ∈ s.cleared l, place r = .free ∧ r.pool = .c1Sample

/-- The invariant, for a place of every record. -/
structure Inv (s : State) (place : Rec → Place) : Prop extends Placement s place where
  lock_iff : ∀ l t, s.lock l = some t ↔ (s.pc t).holds = some l
  ring : ∀ l, (s.flushed l).Represents (.head l) (s.ring l)
  stores : ∀ t l, (s.pc t).holds = some l → ∀ st ∈ (s.pc t).stores, StoreOk place t l st
  sees : ∀ l, (∀ q sts, s.pc (.dis l) ≠ .delDis l q sts) → s.Sees (.pos l)
  cleared_pc : ∀ l, s.cleared l ≠ [] → ∃ n, l = .sample n ∧ (s.pc .recv).clearing = some n
  owner : ∀ l, ∀ r ∈ s.seq l,
    s.mem.owner (.node r) = .record r ∨ ∃ t, (s.pc t).owes = some r
  here : ∀ t, Here s place t (s.pc t)

/-- What a step of task `t` leaves to the others. -/
structure Frame (s s' : State) (place place' : Rec → Place) (t : Task) : Prop where
  pc : ∀ t', t' ≠ t → s'.pc t' = s.pc t'
  hand : ∀ t', t' ≠ t → ∀ r, place r = .hand t' → place' r = .hand t'
  lists : ∀ l t', t' ≠ t → s.lock l = some t' → s'.seq l = s.seq l ∧ s'.cleared l = s.cleared l
  grows : ∀ l, t ≠ .dis l → s.seq (.pos l) <+: s'.seq (.pos l)
  buf : ∀ r, s.buf (.record r) = some r → s'.buf (.record r) = some r
  owner : ∀ r, s.mem.owner (.node r) = .record r → s'.mem.owner (.node r) = .record r
  head : ∀ l, t ≠ .dis l → (∀ q sts, s.pc (.dis l) ≠ .delDis l q sts) →
    s.mem.next (.head (.pos l)) ≠ .head (.pos l) → s'.mem.next (.head (.pos l)) ≠ .head (.pos l)

namespace Stock

variable {free : Pool → List Rec} {place place' : Rec → Place} {P : Pool} {r : Rec}

lemma congr (h : Stock free place) (hplace : ∀ r, place' r = .free ↔ place r = .free) :
    Stock free place' :=
  ⟨h.free_pool, fun r => (h.free_iff r).trans (hplace r).symm, h.free_nodup⟩

/-- One record of a factory goes to another place, or comes back. -/
lemma update (h : Stock free place) (hP : r.pool = P) {rs : List Rec} {p : Place}
    (hother : ∀ r', r' ≠ r → (r' ∈ rs ↔ r' ∈ free P)) (hr : r ∈ rs ↔ p = .free) (hnd : rs.Nodup) :
    Stock (Function.update free P rs) (Function.update place r p) := by
  constructor
  · intro P' r' hr'
    by_cases hPP : P' = P
    · rw [hPP, Function.update_self] at hr'
      rw [hPP]
      by_cases hrr : r' = r
      · rw [hrr, hP]
      · exact h.free_pool P r' ((hother r' hrr).1 hr')
    · rw [Function.update_of_ne hPP] at hr'
      exact h.free_pool P' r' hr'
  · intro r'
    by_cases hrr : r' = r
    · rw [hrr, hP, Function.update_self, Function.update_self]
      exact hr
    · rw [Function.update_of_ne hrr, ← h.free_iff]
      by_cases hPP : r'.pool = P
      · rw [hPP, Function.update_self]
        exact hother r' hrr
      · rw [Function.update_of_ne hPP]
  · intro P'
    by_cases hPP : P' = P
    · rw [hPP, Function.update_self]
      exact hnd
    · rw [Function.update_of_ne hPP]
      exact h.free_nodup P'

/-- The first free record goes elsewhere. -/
lemma produce (h : Stock free place) {rest : List Rec} (hfree : free P = r :: rest) {p : Place}
    (hp : p ≠ .free) : Stock (Function.update free P rest) (Function.update place r p) := by
  have hnd := h.free_nodup P
  rw [hfree, List.nodup_cons] at hnd
  refine h.update (h.free_pool P r (by simp [hfree])) (fun r' hrr => ?_) ?_ hnd.2
  · simp [hfree, hrr]
  · exact iff_of_false hnd.1 hp

/-- A record goes back to its factory. -/
lemma recycle (h : Stock free place) (hP : r.pool = P) (hr : place r ≠ .free) :
    Stock (Function.update free P (free P ++ [r])) (Function.update place r .free) := by
  have hnot : r ∉ free P := by
    rw [← hP, h.free_iff]
    exact hr
  refine h.update hP (fun r' hrr => ?_) (by simp) ?_
  · simp [hrr]
  · rw [List.nodup_append]
    refine ⟨h.free_nodup P, List.nodup_singleton r, fun x hx y hy => ?_⟩
    rw [List.mem_singleton.1 hy]
    exact fun he => hnot (he ▸ hx)

end Stock

section

variable {s s' : State} {place place' : Rec → Place} {t t' : Task} {l : SList} {r : Rec}

lemma InHand.frame {P : Pool} (h : InHand s place t' P r) (hf : Frame s s' place place' t)
    (ht : t' ≠ t) : InHand s' place' t' P r :=
  ⟨hf.hand t' ht r h.1, h.2.1, hf.buf r h.2.2⟩

lemma of_none {α : Type} {o o' : Option α} (h : o = none) (a : α) (ha : o = some a) :
    o' = some a := by
  rw [h] at ha
  cases ha

lemma head?_of_prefix {xs ys : List Rec} (h : xs <+: ys) (hr : xs.head? = some r) :
    ys.head? = some r := by
  obtain ⟨zs, rfl⟩ := h
  cases xs with
  | nil => cases hr
  | cons x xs => exact hr

/-- What is true of a task stays true when another one moves. -/
lemma Here.frame (h : Inv s place) (hf : Frame s s' place place' t) (ht : t' ≠ t) :
    Here s' place' t' (s'.pc t') := by
  have hhere := h.here t'
  rw [hf.pc t' ht]
  have held : ∀ l, (s.pc t').holds = some l →
      s'.seq l = s.seq l ∧ s'.cleared l = s.cleared l :=
    fun l hl => hf.lists l t' ht ((h.lock_iff l t').2 hl)
  -- a position task is the one that its list's records are taken out by
  have hdis : ∀ l, t' = .dis l → t ≠ .dis l := fun l he hc => ht (he.trans hc.symm)
  obtain ⟨pc, hpc⟩ : ∃ pc, s.pc t' = pc := ⟨_, rfl⟩
  rw [hpc] at hhere ⊢
  cases pc with
  | fill l r =>
    exact ⟨hf.hand t' ht r hhere.1, hhere.2⟩
  | lockAdd l r =>
    exact InHand.frame hhere hf ht
  | add l r =>
    exact InHand.frame hhere hf ht
  | atClear n p =>
    have hl := held (.sample n) (by rw [hpc]; rfl)
    rw [Here, State.front, hl.1]
    exact hhere
  | gotClear n p q =>
    have hl := held (.sample n) (by rw [hpc]; rfl)
    rw [Here, hl.1]
    exact hhere
  | nextClear n p =>
    have hl := held (.sample n) (by rw [hpc]; rfl)
    rw [Here, hl.2]
    exact hhere
  | look n p =>
    have hl := held (.sample n) (by rw [hpc]; rfl)
    rw [Here, hl.1]
    exact hhere
  | got n p q =>
    have hl := held (.sample n) (by rw [hpc]; rfl)
    rw [Here, hl.1]
    exact hhere
  | del n q sts =>
    obtain ⟨r, hq, hr⟩ := hhere
    exact ⟨r, hq, hr.frame hf ht⟩
  | notEmpty l =>
    obtain ⟨he, hne⟩ := hhere
    refine ⟨he, hf.head l (hdis l he) ?_ hne⟩
    intro q sts hc
    rw [← he, hpc] at hc
    cases hc
  | plist l p =>
    obtain ⟨he, r, hr, hp⟩ := hhere
    exact ⟨he, r, head?_of_prefix (hf.grows l (hdis l he)) hr, hp⟩
  | gotDis l p q =>
    obtain ⟨he, r, hr, hp⟩ := hhere
    exact ⟨he, r, head?_of_prefix (hf.grows l (hdis l he)) hr, hp⟩
  | lockedDis l p q =>
    obtain ⟨he, r, hr, hp⟩ := hhere
    exact ⟨he, r, head?_of_prefix (hf.grows l (hdis l he)) hr, hp⟩
  | delDis l q sts =>
    obtain ⟨he, r, hq, hr⟩ := hhere
    exact ⟨he, r, hq, hr.frame hf ht⟩
  | recycleDis l q =>
    obtain ⟨he, r, hq, hr⟩ := hhere
    exact ⟨he, r, hq, hr.frame hf ht⟩
  | _ => exact hhere

end

namespace Inv

variable {s s' : State} {place place' : Rec → Place} {t : Task} {l : SList} {r : Rec} {pc : Pc}

/-! ### What holds where the mutex is held -/

lemma lock_of (h : Inv s place) (hpc : s.pc t = pc) (hl : pc.holds = some l) :
    s.lock l = some t :=
  (h.lock_iff l t).2 (by rw [hpc]; exact hl)

lemma pending_of_lock (hl : s.lock l = some t) : s.pending l = (s.pc t).stores := by
  simp [State.pending, hl]

lemma holds_of_clearing {n : Station} (hc : pc.clearing = some n) :
    pc.holds = some (.sample n) := by
  cases pc <;> simp_all [Pc.clearing, Pc.holds]

/-- Only `clear_array` has returned records that are still linked. -/
lemma cleared_nil (h : Inv s place) (hl : s.lock l = some t) (hc : (s.pc t).clearing = none) :
    s.cleared l = [] := by
  by_contra hne
  obtain ⟨n, rfl, hn⟩ := h.cleared_pc l hne
  have hrecv := (h.lock_iff (.sample n) .recv).2 (holds_of_clearing hn)
  rw [hl] at hrecv
  obtain rfl := Option.some.inj hrecv
  rw [hc] at hn
  cases hn

lemma cleared_pos (h : Inv s place) (l : PosList) : s.cleared (.pos l) = [] := by
  by_contra hne
  obtain ⟨n, hn, -⟩ := h.cleared_pc (.pos l) hne
  cases hn

/-- A holder with no pending stores sees the list as it is. -/
lemma settled (h : Inv s place) (hl : s.lock l = some t) (hst : (s.pc t).stores = []) :
    s.mem.Represents (.head l) (s.ring l) := by
  have := h.ring l
  rwa [State.flushed, pending_of_lock hl, hst] at this

lemma ring_of_cleared (hc : s.cleared l = []) : s.ring l = (s.seq l).map .node := by
  rw [State.ring, hc, List.nil_append]

/-- The first node, as the holder loads it. -/
lemma next_head (h : Inv s place) (hl : s.lock l = some t) (hst : (s.pc t).stores = [])
    (hc : s.cleared l = []) : s.mem.next (.head l) = s.front l := by
  have := h.settled hl hst
  rw [ring_of_cleared hc] at this
  exact this.next_head

lemma sees_of_nil (hp : s.pending l = []) : s.Sees l := by
  refine ⟨.inr ?_, ?_⟩
  · rw [State.flushed, hp]
    rfl
  · rw [hp]
    exact fun _ hst => absurd hst List.not_mem_nil

lemma seq_nodup (h : Inv s place) (l : SList) : (s.seq l).Nodup := by
  have := (List.nodup_cons.1 (h.ring l).nodup).2
  rw [State.ring, List.map_append] at this
  exact (this.sublist (List.sublist_append_right _ _)).of_map _

/-- Only one task holds a list. -/
lemma ne_of_holds (h : Inv s place) {t' : Task} {l' : SList} (hl : s.lock l = some t)
    (hl' : (s.pc t').holds = some l') (ht : t' ≠ t) : l' ≠ l := by
  rintro rfl
  have := (h.lock_iff l' t').2 hl'
  rw [hl] at this
  exact ht (Option.some.inj this).symm

/-! ### What one task does -/

/-- The invariant after a step of task `t`, from what the step does to `t` and to the lists. -/
lemma of_frame (h : Inv s place) (hf : Frame s s' place place' t)
    (hlock : ∀ l t', s'.lock l = some t' ↔ (s'.pc t').holds = some l)
    (hplace : Placement s' place')
    (hlists : ∀ l t', t' ≠ t → s.lock l = some t' → ∀ r, place r = .list l → place' r = .list l)
    (hring : ∀ l, (s'.flushed l).Represents (.head l) (s'.ring l))
    (hstores : ∀ l, (s'.pc t).holds = some l → ∀ st ∈ (s'.pc t).stores, StoreOk place' t l st)
    (hsees : ∀ l, (∀ q sts, s'.pc (.dis l) ≠ .delDis l q sts) → s'.Sees (.pos l))
    (hcleared : ∀ l, s'.cleared l ≠ [] → ∃ n, l = .sample n ∧ (s'.pc .recv).clearing = some n)
    (hseq : ∀ l, ∀ r ∈ s'.seq l, r ∈ s.seq l ∨ (s'.pc t).owes = some r)
    (howes : ∀ r, (s.pc t).owes = some r →
      (s'.pc t).owes = some r ∨ s'.mem.owner (.node r) = .record r)
    (hhere : Here s' place' t (s'.pc t)) : Inv s' place' := by
  refine ⟨hplace, hlock, hring, ?_, hsees, hcleared, ?_, ?_⟩
  · intro t' l hl st hst
    by_cases ht : t' = t
    · rw [ht] at hl hst ⊢
      exact hstores l hl st hst
    · rw [hf.pc t' ht] at hl hst
      have hheld := (h.lock_iff l t').2 hl
      rcases h.stores t' l hl st hst with ha | ⟨r, ha, hne, hr⟩
      · exact .inl ha
      · exact .inr ⟨r, ha, hne, hr.imp (hlists l t' ht hheld r) (hf.hand t' ht r)⟩
  · intro l r hr
    rcases hseq l r hr with hr | ho
    · rcases h.owner l r hr with ho | ⟨t', ho⟩
      · exact .inl (hf.owner r ho)
      · by_cases ht : t' = t
        · rw [ht] at ho
          rcases howes r ho with ho | ho
          · exact .inr ⟨t, ho⟩
          · exact .inl ho
        · exact .inr ⟨t', by rw [hf.pc t' ht]; exact ho⟩
    · exact .inr ⟨t, ho⟩
  · intro t'
    by_cases ht : t' = t
    · rw [ht]
      exact hhere
    · exact Here.frame h hf ht

/-- A task with no pending stores keeps no list operation from being seen. -/
lemma sees_of_settled (h : Inv s place) (hpc : ∀ t', t' ≠ t → s'.pc t' = s.pc t')
    (hst : (s.pc t).stores = []) {l : PosList}
    (hne : ∀ q sts, s'.pc (.dis l) ≠ .delDis l q sts) : s.Sees (.pos l) := by
  by_cases hd : ∃ q sts, s.pc (.dis l) = .delDis l q sts
  · obtain ⟨q, sts, hd⟩ := hd
    -- the position task has left its list operation, so nothing is pending
    have ht : t = .dis l := by
      by_contra hc
      exact hne q sts (by rw [hpc _ (Ne.symm hc)]; exact hd)
    have hl := h.lock_of hd (l := .pos l) rfl
    refine sees_of_nil ?_
    rw [pending_of_lock hl, ← ht]
    exact hst
  · exact h.sees l fun q sts hc => hd ⟨q, sts, hc⟩

/-- The pending stores after a step of a task that has none before or after, whatever it does
to the locks. -/
lemma pending_settled (h : Inv s place) (hpc : ∀ t', t' ≠ t → s'.pc t' = s.pc t')
    (hlock : ∀ l t', s'.lock l = some t' ↔ (s'.pc t').holds = some l)
    (hst : (s.pc t).stores = []) (hst' : (s'.pc t).stores = []) (l : SList) :
    s'.pending l = s.pending l := by
  -- only the other tasks have stores pending, and they keep their locks
  have hnone : (∀ t', t' ≠ t → s.lock l ≠ some t') → s.pending l = [] := by
    intro hn
    cases hl : s.lock l with
    | none => simp [State.pending, hl]
    | some t' =>
      have ht : t' = t := by
        by_contra ht
        exact hn t' ht hl
      rw [pending_of_lock hl, ht, hst]
  have hiff : ∀ t', t' ≠ t → (s'.lock l = some t' ↔ s.lock l = some t') := by
    intro t' ht
    rw [hlock, h.lock_iff, hpc t' ht]
  cases hl : s'.lock l with
  | none =>
    rw [hnone fun t' ht hs => by rw [← hiff t' ht, hl] at hs; cases hs]
    simp [State.pending, hl]
  | some t₁ =>
    rw [pending_of_lock hl]
    by_cases ht : t₁ = t
    · rw [ht, hst', hnone]
      intro t' ht' hs
      rw [← hiff t' ht', hl] at hs
      exact ht' ((Option.some.inj hs).symm.trans ht)
    · rw [pending_of_lock ((hiff t₁ ht).1 hl), hpc t₁ ht]

/-- A task moves on, with no list operation before or after, and no link changes. -/
lemma steady (h : Inv s place) (hf : Frame s s' place place' t)
    (hlock : ∀ l t', s'.lock l = some t' ↔ (s'.pc t').holds = some l)
    (hnext : s'.mem.next = s.mem.next) (hprev : s'.mem.prev = s.mem.prev)
    (hst : (s.pc t).stores = []) (hst' : (s'.pc t).stores = [])
    (hring : ∀ l, s'.ring l = s.ring l) (hplace : Placement s' place')
    (hlists : ∀ l t', t' ≠ t → s.lock l = some t' → ∀ r, place r = .list l → place' r = .list l)
    (hcleared : ∀ l, s'.cleared l ≠ [] → ∃ n, l = .sample n ∧ (s'.pc .recv).clearing = some n)
    (hseq : ∀ l, s'.seq l ⊆ s.seq l)
    (howes : ∀ r, (s.pc t).owes = some r →
      (s'.pc t).owes = some r ∨ s'.mem.owner (.node r) = .record r)
    (hhere : Here s' place' t (s'.pc t)) : Inv s' place' := by
  have hpend := h.pending_settled hf.pc hlock hst hst'
  have hflush : ∀ l a, (s'.flushed l).next a = (s.flushed l).next a ∧
      (s'.flushed l).prev a = (s.flushed l).prev a := by
    intro l a
    rw [State.flushed, hpend]
    exact ListMem.flush_links_congr (congrFun hnext a) (congrFun hprev a)
  refine h.of_frame hf hlock hplace hlists ?_ ?_ ?_ hcleared (fun l r hr => .inl (hseq l hr))
    howes hhere
  · intro l
    rw [hring]
    exact (h.ring l).congr fun x _ => hflush l x
  · intro l _ st hmem
    rw [hst'] at hmem
    exact absurd hmem List.not_mem_nil
  · intro l hne
    have := h.sees_of_settled hf.pc hst hne
    rw [State.Sees, hpend, hnext, (hflush (.pos l) _).1]
    exact this

/-! ### Steps that change no link -/

/-- A task moves on, and no link, no list and no factory changes. -/
lemma move (h : Inv s place) {pc' : Pc} (hpc : s.pc t = pc)
    (hpc' : s'.pc = Function.update s.pc t pc')
    (hlock : ∀ l t', s'.lock l = some t' ↔ (s'.pc t').holds = some l)
    (hnext : s'.mem.next = s.mem.next) (hprev : s'.mem.prev = s.mem.prev)
    (howner : ∀ r, s.mem.owner (.node r) = .record r → s'.mem.owner (.node r) = .record r)
    (hbuf : ∀ r, s.buf (.record r) = some r → s'.buf (.record r) = some r)
    (hfree : s'.free = s.free) (hseq : s'.seq = s.seq) (hcleared : s'.cleared = s.cleared)
    (hst : pc.stores = []) (hst' : pc'.stores = [])
    (howes : ∀ r, pc.owes = some r → pc'.owes = some r ∨ s'.mem.owner (.node r) = .record r)
    (hclear : ∀ n, pc.clearing = some n → pc'.clearing = some n)
    (hhere : Here s' place t pc') : Inv s' place := by
  have hself : s'.pc t = pc' := by rw [hpc', Function.update_self]
  have hother : ∀ t', t' ≠ t → s'.pc t' = s.pc t' :=
    fun t' ht => by rw [hpc', Function.update_of_ne ht]
  have hframe : Frame s s' place place t :=
    { pc := hother
      hand := fun _ _ _ hr => hr
      lists := fun l _ _ _ => ⟨congrFun hseq l, congrFun hcleared l⟩
      grows := fun l _ => by rw [hseq]
      buf := hbuf
      owner := howner
      head := fun l _ _ hne => by rw [hnext]; exact hne }
  have hplace : Placement s' place :=
    { toStock := hfree ▸ h.toStock
      seq_iff := hseq ▸ h.seq_iff
      seq_ok := fun l r hr =>
        (h.seq_ok l r (by rw [← hseq]; exact hr)).imp_right (hbuf r)
      cleared_ok := hcleared ▸ h.cleared_ok }
  refine h.steady hframe hlock hnext hprev (by rw [hpc]; exact hst) (by rw [hself]; exact hst')
    (fun l => by rw [State.ring, State.ring, hseq, hcleared]) hplace (fun _ _ _ _ _ hr => hr) ?_
    (fun l => by rw [hseq]; exact List.Subset.refl _) (by rw [hpc, hself]; exact howes)
    (by rw [hself]; exact hhere)
  intro l hne
  rw [hcleared] at hne
  obtain ⟨n, hn, hc⟩ := h.cleared_pc l hne
  refine ⟨n, hn, ?_⟩
  by_cases ht : Task.recv = t
  · rw [ht, hself]
    rw [ht, hpc] at hc
    exact hclear n hc
  · rw [hother _ ht]
    exact hc

/-- The locks after a step that takes and gives back none. -/
lemma lock_same (h : Inv s place) {pc' : Pc} (hpc : s.pc t = pc) (hl : pc'.holds = pc.holds)
    (l : SList) (t' : Task) :
    s.lock l = some t' ↔ (Function.update s.pc t pc' t').holds = some l := by
  by_cases ht : t' = t
  · rw [ht, Function.update_self, hl, ← hpc]
    exact h.lock_iff l t
  · rw [Function.update_of_ne ht]
    exact h.lock_iff l t'

lemma goto (h : Inv s place) {pc' : Pc} (hpc : s.pc t = pc) (hst : pc.stores = [])
    (hst' : pc'.stores = []) (hl : pc'.holds = pc.holds)
    (howes : ∀ r, pc.owes = some r → pc'.owes = some r)
    (hclear : ∀ n, pc.clearing = some n → pc'.clearing = some n)
    (hhere : Here (s.goto t pc') place t pc') : Inv (s.goto t pc') place :=
  h.move hpc rfl (h.lock_same hpc hl) rfl rfl (fun _ ho => ho) (fun _ hb => hb) rfl rfl rfl hst
    hst' (fun r hr => .inl (howes r hr)) hclear hhere

/-- What the consumers have read is history. -/
lemma withReads (h : Inv s place) (x : List OwnerRead) : Inv { s with reads := x } place :=
  { seq_iff := h.seq_iff, seq_ok := h.seq_ok, cleared_ok := h.cleared_ok, toStock := h.toStock
    lock_iff := h.lock_iff, ring := h.ring, stores := h.stores, sees := h.sees
    cleared_pc := h.cleared_pc, owner := h.owner, here := h.here }

/-- Task `t` takes or gives back the lock of `l`, which no other task holds. -/
lemma lock_update (h : Inv s place) (pc' : Pc) (x : Option Task) (hpc : s.pc t = pc)
    (hl : ∀ l', l' ≠ l → (pc'.holds = some l' ↔ pc.holds = some l'))
    (hself : x = some t ↔ pc'.holds = some l) (hold : ∀ t', t' ≠ t → s.lock l ≠ some t')
    (hnew : ∀ t', t' ≠ t → x ≠ some t') (l' : SList) (t' : Task) :
    Function.update s.lock l x l' = some t' ↔
      (Function.update s.pc t pc' t').holds = some l' := by
  by_cases ht : t' = t
  · subst ht
    rw [Function.update_self]
    by_cases hll : l' = l
    · rw [hll, Function.update_self]
      exact hself
    · rw [Function.update_of_ne hll, h.lock_iff, hpc]
      exact (hl l' hll).symm
  · rw [Function.update_of_ne ht]
    by_cases hll : l' = l
    · rw [hll, Function.update_self, ← h.lock_iff]
      exact iff_of_false (hnew t' ht) (hold t' ht)
    · rw [Function.update_of_ne hll]
      exact h.lock_iff l' t'

lemma lockBy (h : Inv s place) {pc' : Pc} (hpc : s.pc t = pc) (hst : pc.stores = [])
    (hst' : pc'.stores = []) (hl : pc.holds = none) (hl' : pc'.holds = some l)
    (howes : ∀ r, pc.owes = some r → pc'.owes = some r) (hclear : pc.clearing = none)
    (hs : s.lockBy l t pc' = some s') (hhere : Here (s.goto t pc') place t pc') :
    Inv s' place := by
  unfold State.lockBy at hs
  split at hs
  case h_2 => cases hs
  case h_1 hnone =>
    cases hs
    have hlock := h.lock_update (l := l) pc' (some t) hpc (by simp [hl, hl', eq_comm])
      (by simp [hl']) (by simp [hnone]) (by simp [eq_comm])
    exact h.move hpc rfl hlock rfl rfl (fun _ ho => ho) (fun _ hb => hb) rfl rfl rfl hst hst'
      (fun r hr => .inl (howes r hr)) (fun n hn => by rw [hclear] at hn; cases hn) hhere

lemma unlockBy (h : Inv s place) {pc' : Pc} (hpc : s.pc t = pc) (hst : pc.stores = [])
    (hst' : pc'.stores = []) (hl : pc.holds = some l) (hl' : pc'.holds = none)
    (howes : ∀ r, pc.owes = some r → pc'.owes = some r) (hclear : pc.clearing = none)
    (hhere : Here (s.goto t pc') place t pc') : Inv (s.unlockBy l t pc') place := by
  have hlock := h.lock_update (l := l) pc' none hpc (by simp [hl, hl', eq_comm])
    (by simp [hl']) (by simp [h.lock_of hpc hl, eq_comm]) (by simp)
  exact h.move hpc rfl hlock rfl rfl (fun _ ho => ho) (fun _ hb => hb) rfl rfl rfl hst hst'
    (fun r hr => .inl (howes r hr)) (fun n hn => by rw [hclear] at hn; cases hn) hhere

lemma setBuf (h : Inv s place) {pc' : Pc} (hpc : s.pc t = pc) (hst : pc.stores = [])
    (hst' : pc'.stores = []) (hl : pc'.holds = pc.holds)
    (howes : ∀ r, pc.owes = some r → pc'.owes = some r)
    (hclear : ∀ n, pc.clearing = some n → pc'.clearing = some n)
    (hhere : Here (s.setBuf r t pc') place t pc') : Inv (s.setBuf r t pc') place := by
  refine h.move hpc rfl (h.lock_same hpc hl) rfl rfl (fun _ ho => ho) ?_ rfl rfl rfl hst hst'
    (fun r hr => .inl (howes r hr)) hclear hhere
  intro r' hr'
  show Function.update s.buf (.record r) (some r) (.record r') = some r'
  by_cases hrr : r' = r
  · rw [hrr, Function.update_self]
  · rw [Function.update_of_ne (by simpa using hrr)]
    exact hr'

/-- The owner that a producer owes is assigned. -/
lemma setOwner (h : Inv s place) {pc' : Pc} (hpc : s.pc t = pc) (hst : pc.stores = [])
    (hst' : pc'.stores = []) (hl : pc'.holds = pc.holds) (howes : pc.owes = some r)
    (hclear : pc.clearing = none) (hhere : Here (s.goto t pc') place t pc') :
    Inv (s.setOwner r t pc') place := by
  have hself : (s.setOwner r t pc').mem.owner (.node r) = .record r := Function.update_self ..
  refine h.move hpc rfl (h.lock_same hpc hl) rfl rfl ?_ (fun _ hb => hb) rfl rfl rfl hst hst'
    ?_ (fun n hn => by rw [hclear] at hn; cases hn) hhere
  · intro r' ho
    by_cases hrr : r' = r
    · rw [hrr]
      exact hself
    · show Function.update s.mem.owner (.node r) (.record r) (.node r') = .record r'
      rw [Function.update_of_ne (by simpa using hrr)]
      exact ho
  · intro r' hr'
    rw [howes] at hr'
    obtain rfl := Option.some.inj hr'
    exact .inr hself

/-! ### A pending store is made -/

lemma pending_self {pc' : Pc} (hpc' : s'.pc = Function.update s.pc t pc')
    (hlock : s'.lock = s.lock) (hl : s.lock l = some t) : s'.pending l = pc'.stores := by
  rw [State.pending, hlock, hl]
  show (s'.pc t).stores = pc'.stores
  rw [hpc', Function.update_self]

lemma pending_other (h : Inv s place) {pc' : Pc} (hpc' : s'.pc = Function.update s.pc t pc')
    (hlock : s'.lock = s.lock) (hl : s.lock l = some t) {l' : SList} (hll : l' ≠ l) :
    s'.pending l' = s.pending l' := by
  rw [State.pending, State.pending, hlock]
  cases hs : s.lock l' with
  | none => rfl
  | some t' =>
    have ht : t' ≠ t := by
      rintro rfl
      have h' := (h.lock_iff l' t').1 hs
      rw [(h.lock_iff l t').1 hl] at h'
      exact hll (Option.some.inj h').symm
    show (s'.pc t').stores = (s.pc t').stores
    rw [hpc', Function.update_of_ne ht]

/-- A store to one list is to no node of another. -/
lemma addr_ne (h : Inv s place) {st : ListStore Ptr} (hok : StoreOk place t l st) {l' : SList}
    (hll : l' ≠ l) : ∀ x ∈ .head l' :: s.ring l', x ≠ st.addr := by
  intro x hx
  rcases hok with ha | ⟨r, ha, -, hr⟩
  · rw [ha]
    rcases List.mem_cons.1 hx with rfl | hx
    · simpa using hll
    · obtain ⟨r', -, rfl⟩ := List.mem_map.1 hx
      simp
  · rw [ha]
    rcases List.mem_cons.1 hx with rfl | hx
    · simp
    · obtain ⟨r', hr', rfl⟩ := List.mem_map.1 hx
      have hplace : place r' = .free ∨ place r' = .list l' := by
        rcases List.mem_append.1 hr' with hc | hs
        · exact .inl (h.cleared_ok l' r' hc).1
        · exact .inr ((h.seq_iff l' r').1 hs)
      rintro he
      obtain rfl := Ptr.node.inj he
      rcases hplace with hp | hp <;> rcases hr with hr | hr <;> rw [hp] at hr <;> simp_all

/-- A store of a list operation leaves the owners alone. -/
lemma store_owner {st : ListStore Ptr} (hok : StoreOk place t l st) (r : Rec) :
    (s.mem.store st).owner (.node r) = s.mem.owner (.node r) := by
  cases hf : st.field with
  | next => simp [ListMem.store, hf]
  | prev => simp [ListMem.store, hf]
  | owner =>
    rcases hok with ha | ⟨r', -, hne, -⟩
    · simp [ListMem.store, hf, ha]
    · exact absurd hf hne

/-- The first link of a list changes only by a store to it. -/
lemma store_next_head (h : Inv s place) {st : ListStore Ptr} (hok : StoreOk place t l st)
    (l' : SList) : (s.mem.store st).next (.head l') = s.mem.next (.head l') ∨
      l' = l ∧ st.field = .next ∧ st.addr = .head l ∧
        (s.mem.store st).next (.head l') = st.val := by
  by_cases ha : Ptr.head l' = st.addr
  · have hll : l' = l := by
      by_contra hll
      exact h.addr_ne hok hll _ List.mem_cons_self ha
    subst hll
    cases hf : st.field with
    | next => exact .inr ⟨rfl, rfl, ha.symm, by simp [ListMem.store, hf, ha]⟩
    | prev => exact .inl (by simp [ListMem.store, hf])
    | owner => exact .inl (by simp [ListMem.store, hf])
  · exact .inl (ListMem.store_next_of_ne ha)

/-- The store made is the first of those that were pending. -/
lemma flushed_storeBy {pc' : Pc} {st : ListStore Ptr} {sts : Stores}
    (hpend : s.pending l = st :: sts) (hpend' : (s.storeBy st t pc').pending l = sts) :
    (s.storeBy st t pc').flushed l = s.flushed l := by
  rw [State.flushed, State.flushed, hpend, hpend']
  rfl

lemma flushed_storeBy_of_ne (h : Inv s place) {pc' : Pc} {st : ListStore Ptr} {l' : SList}
    (hst : StoreOk place t l st) (hll : l' ≠ l)
    (hpend : (s.storeBy st t pc').pending l' = s.pending l') :
    ∀ x ∈ Ptr.head l' :: s.ring l',
      ((s.storeBy st t pc').flushed l').next x = (s.flushed l').next x ∧
        ((s.storeBy st t pc').flushed l').prev x = (s.flushed l').prev x := by
  intro x hx
  rw [State.flushed, hpend]
  exact ListMem.flush_store_of_ne (h.addr_ne hst hll x hx)

/-- A store to the first link of a list gives it its last value. -/
lemma sees_storeBy (h : Inv s place) {pc' : Pc} {st : ListStore Ptr} {sts : Stores}
    (hst : StoreOk place t l st) (hpend : s.pending l = st :: sts)
    (hpend' : (s.storeBy st t pc').pending l = sts)
    (hother : ∀ l', l' ≠ l → (s.storeBy st t pc').pending l' = s.pending l') (l' : PosList)
    (hne : ∀ q sts, s.pc (.dis l') ≠ .delDis l' q sts) :
    (s.storeBy st t pc').Sees (.pos l') := by
  have hnext : (s.storeBy st t pc').mem.next (.head (.pos l')) = s.mem.next (.head (.pos l')) ∨
      .pos l' = l ∧ st.field = .next ∧ st.addr = .head l ∧
        (s.storeBy st t pc').mem.next (.head (.pos l')) = st.val := h.store_next_head hst _
  obtain ⟨hload, hvals⟩ := h.sees l' hne
  by_cases hll : SList.pos l' = l
  · subst hll
    rw [State.Sees, flushed_storeBy hpend hpend', hpend']
    rw [hpend] at hvals
    refine ⟨?_, fun st' hst' => hvals st' (List.mem_cons_of_mem st hst')⟩
    rcases hnext with hn | ⟨-, hf, ha, hn⟩
    · rw [hn]
      exact hload
    · rw [hn]
      exact .inr (hvals st List.mem_cons_self hf ha)
  · have hn : (s.storeBy st t pc').mem.next (.head (.pos l')) = s.mem.next (.head (.pos l')) := by
      rcases hnext with hn | ⟨he, -⟩
      · exact hn
      · exact absurd he hll
    rw [State.Sees, hother _ hll, hn,
      (h.flushed_storeBy_of_ne hst hll (hother _ hll) _ List.mem_cons_self).1]
    exact ⟨hload, hvals⟩

lemma storeBy (h : Inv s place) {pc' : Pc} {st : ListStore Ptr} {sts : Stores}
    (hpc : s.pc t = pc) (hst : pc.stores = st :: sts) (hst' : pc'.stores = sts)
    (hl : pc.holds = some l) (hl' : pc'.holds = some l) (howes : pc'.owes = pc.owes)
    (hclear : pc.clearing = none)
    (hdel : ∀ l q sts, pc = .delDis l q sts → ∃ q sts, pc' = .delDis l q sts)
    (hhere : Here (s.storeBy st t pc') place t pc') : Inv (s.storeBy st t pc') place := by
  have hlock := h.lock_of hpc hl
  have hok : ∀ st' ∈ st :: sts, StoreOk place t l st' := by
    intro st' hmem
    exact h.stores t l (by rw [hpc]; exact hl) st' (by rw [hpc, hst]; exact hmem)
  have hst₀ := hok st List.mem_cons_self
  have hpend : s.pending l = st :: sts := by rw [pending_of_lock hlock, hpc, hst]
  have hpc' : (s.storeBy st t pc').pc = Function.update s.pc t pc' := rfl
  have hpend' : (s.storeBy st t pc').pending l = sts := by
    rw [pending_self hpc' rfl hlock, hst']
  have hother : ∀ l', l' ≠ l → (s.storeBy st t pc').pending l' = s.pending l' :=
    fun l' hll => h.pending_other hpc' rfl hlock hll
  have hflush := flushed_storeBy hpend hpend'
  have hsees : ∀ l', (∀ q sts, s.pc (.dis l') ≠ .delDis l' q sts) →
      (s.storeBy st t pc').Sees (.pos l') := fun l' => h.sees_storeBy hst₀ hpend hpend' hother l'
  have hself : (s.storeBy st t pc').pc t = pc' := by rw [hpc', Function.update_self]
  have hframe : Frame s (s.storeBy st t pc') place place t :=
    { pc := fun t' ht => Function.update_of_ne ht _ _
      hand := fun _ _ _ hr => hr
      lists := fun _ _ _ _ => ⟨rfl, rfl⟩
      grows := fun _ _ => List.prefix_rfl
      buf := fun _ hb => hb
      owner := fun r ho => (store_owner hst₀ r).trans ho
      head := by
        intro l' _ hne hhead
        obtain ⟨hload, hvals⟩ := h.sees l' hne
        have hnext :
            (s.storeBy st t pc').mem.next (.head (.pos l')) = s.mem.next (.head (.pos l')) ∨
            .pos l' = l ∧ st.field = .next ∧ st.addr = .head l ∧
              (s.storeBy st t pc').mem.next (.head (.pos l')) = st.val := h.store_next_head hst₀ _
        rcases hnext with hn | ⟨he, hf, ha, hn⟩
        · rw [hn]
          exact hhead
        · rw [hn, hvals st (by rw [he, hpend]; exact List.mem_cons_self) hf (by rw [ha, he])]
          exact fun hc => hhead ((hload.resolve_left hhead).trans hc) }
  refine h.of_frame hframe (h.lock_same hpc (hl'.trans hl.symm)) { h.toPlacement with }
    (fun _ _ _ _ _ hr => hr) ?_ ?_ ?_ ?_ (fun _ _ hr => .inl hr) ?_ (by rw [hself]; exact hhere)
  · intro l'
    by_cases hll : l' = l
    · rw [hll, hflush]
      exact h.ring l
    · exact (h.ring l').congr (h.flushed_storeBy_of_ne hst₀ hll (hother l' hll))
  · intro l' hl₁ st' hmem
    rw [hself] at hl₁ hmem
    rw [hl'] at hl₁
    obtain rfl := Option.some.inj hl₁
    exact hok st' (List.mem_cons_of_mem st (hst' ▸ hmem))
  · intro l' hne
    refine hsees l' fun q sts hc => ?_
    by_cases ht : Task.dis l' = t
    · obtain ⟨q', sts', hd⟩ := hdel l' q sts (by rw [← hpc, ← ht]; exact hc)
      exact hne q' sts' (by rw [ht, hself]; exact hd)
    · exact hne q sts (by rw [hpc', Function.update_of_ne ht]; exact hc)
  · intro l' hne
    obtain ⟨n, hn, hc⟩ := h.cleared_pc l' hne
    refine ⟨n, hn, ?_⟩
    rw [hpc', Function.update_of_ne]
    · exact hc
    · rintro rfl
      rw [hpc, hclear] at hc
      cases hc
  · intro r ho
    rw [hself, howes, ← hpc]
    exact .inl ho

/-! ### Buffers change hands -/

/-- A record goes from the factory to the hand of a task, or back from there. -/
lemma exchange (h : Inv s place) {pc' : Pc} {free' : Pool → List Rec} (hpc : s.pc t = pc)
    (hst : pc.stores = []) (hst' : pc'.stores = []) (hl : pc'.holds = pc.holds)
    (howes : pc.owes = none) (hclear : pc.clearing = none) (hfree : Stock free' place')
    (hlist : ∀ r l, place' r = .list l ↔ place r = .list l)
    (hhand : ∀ t', t' ≠ t → ∀ r, place r = .hand t' → place' r = .hand t')
    (hcleared : ∀ l, ∀ r ∈ s.cleared l, place' r = .free)
    (hhere : Here (s.goto t pc') place' t pc') :
    Inv { s.goto t pc' with free := free' } place' := by
  have hself : ({ s.goto t pc' with free := free' } : State).pc t = pc' := Function.update_self ..
  have hother : ∀ t', t' ≠ t → (s.goto t pc').pc t' = s.pc t' :=
    fun t' ht => Function.update_of_ne ht _ _
  have hframe : Frame s { s.goto t pc' with free := free' } place place' t :=
    { pc := hother
      hand := hhand
      lists := fun _ _ _ _ => ⟨rfl, rfl⟩
      grows := fun _ _ => List.prefix_rfl
      buf := fun _ hb => hb
      owner := fun _ ho => ho
      head := fun _ _ _ hne => hne }
  have hplace : Placement { s.goto t pc' with free := free' } place' :=
    { toStock := hfree
      seq_iff := fun l r => (h.seq_iff l r).trans (hlist r l).symm
      seq_ok := h.seq_ok
      cleared_ok := fun l r hr => ⟨hcleared l r hr, (h.cleared_ok l r hr).2⟩ }
  refine h.steady hframe (h.lock_same hpc hl) rfl rfl (by rw [hpc]; exact hst)
    (by rw [hself]; exact hst') (fun _ => rfl) hplace (fun l _ _ _ r hr => (hlist r l).2 hr) ?_
    (fun _ => List.Subset.refl _) (fun r hr => by rw [hpc, howes] at hr; cases hr)
    (by rw [hself]; exact hhere)
  intro l hne
  obtain ⟨n, hn, hc⟩ := h.cleared_pc l hne
  refine ⟨n, hn, ?_⟩
  show ((s.goto t pc').pc .recv).clearing = some n
  rw [hother]
  · exact hc
  · rintro rfl
    rw [hpc, hclear] at hc
    cases hc

lemma produce (h : Inv s place) {lo : Option SList} (hpc : s.pc t = .produce lo)
    (hs : s.produce (lo.elim .c1Sample SList.pool) t (.fill lo) = some s') :
    ∃ place', Inv s' place' := by
  unfold State.produce at hs
  split at hs
  case h_1 => cases hs
  case h_2 r rest hfree =>
  cases hs
  have hP : r.pool = lo.elim .c1Sample SList.pool := h.free_pool _ r (by simp [hfree])
  have hplace : place r = .free := (h.free_iff r).1 (by simp [hP, hfree])
  refine ⟨Function.update place r (.hand t), h.exchange hpc rfl rfl rfl rfl rfl
    (h.toStock.produce hfree (by simp)) ?_ ?_ ?_ ⟨Function.update_self .., hP⟩⟩
  · exact fun r' l => update_place_iff (by simp) (by simp [hplace])
  · exact fun t' _ r' => update_place_of_place (by simp [hplace])
  · intro l r' hr'
    have hok := h.cleared_ok l r' hr'
    rw [Function.update_of_ne]
    · exact hok.1
    · rintro rfl
      -- no sample buffer is handed out while the lists are cleared
      obtain ⟨n, -, hc⟩ := h.cleared_pc l (List.ne_nil_of_mem hr')
      have hhere := h.here t
      rw [hpc] at hhere
      obtain rfl := hhere (hP.symm.trans hok.2)
      rw [hpc] at hc
      cases hc

/-- A record in hand goes back to its factory. -/
lemma recycle (h : Inv s place) {P : Pool} {q : Ptr} (pc' : Pc) (hpc : s.pc t = pc)
    (hst : pc.stores = []) (hst' : pc'.stores = []) (hl : pc'.holds = pc.holds)
    (howes : pc.owes = none) (hclear : pc.clearing = none) (hq : q = .record r)
    (hr : InHand s place t P r) (hs : s.recycle P q t pc' = some s')
    (hhere : ∀ place', Here (s.goto t pc') place' t pc') : ∃ place', Inv s' place' := by
  obtain ⟨hplace, hP, hbuf⟩ := hr
  rw [State.recycle, hq, hbuf] at hs
  cases hs
  refine ⟨Function.update place r .free, h.exchange hpc hst hst' hl howes hclear
    (h.toStock.recycle hP (by rw [hplace]; simp)) ?_ ?_ ?_ (hhere _)⟩
  · exact fun r' l => update_place_iff (by simp) (by simp [hplace])
  · exact fun t' ht r' => update_place_of_place (by simp [hplace, Ne.symm ht])
  · intro l r' hr'
    by_cases hrr : r' = r
    · rw [hrr, Function.update_self]
    · rw [Function.update_of_ne hrr]
      exact (h.cleared_ok l r' hr').1

end Inv

/-! ### The holder of a list changes its records -/

/-- The holder of list `l` makes its records `cs`, returned and still linked, and `xs`. -/
structure Relists (s s' : State) (t : Task) (l : SList) (pc' : Pc) (cs xs : List Rec) : Prop where
  pc : s'.pc = Function.update s.pc t pc'
  lock : s'.lock = s.lock
  mem : s'.mem = s.mem
  buf : s'.buf = s.buf
  seq : s'.seq = Function.update s.seq l xs
  cleared : s'.cleared = Function.update s.cleared l cs

namespace Relists

variable {s s' : State} {place place' : Rec → Place} {t t' : Task} {l l' : SList} {pc' : Pc}
  {cs xs : List Rec}

lemma pc_self (h : Relists s s' t l pc' cs xs) : s'.pc t = pc' := by
  rw [h.pc, Function.update_self]

lemma pc_other (h : Relists s s' t l pc' cs xs) (ht : t' ≠ t) : s'.pc t' = s.pc t' := by
  rw [h.pc, Function.update_of_ne ht]

lemma seq_self (h : Relists s s' t l pc' cs xs) : s'.seq l = xs := by
  rw [h.seq, Function.update_self]

lemma seq_other (h : Relists s s' t l pc' cs xs) (hl : l' ≠ l) : s'.seq l' = s.seq l' := by
  rw [h.seq, Function.update_of_ne hl]

lemma cleared_self (h : Relists s s' t l pc' cs xs) : s'.cleared l = cs := by
  rw [h.cleared, Function.update_self]

lemma cleared_other (h : Relists s s' t l pc' cs xs) (hl : l' ≠ l) :
    s'.cleared l' = s.cleared l' := by
  rw [h.cleared, Function.update_of_ne hl]

/-- The other tasks hold other lists. -/
lemma frame (h : Relists s s' t l pc' cs xs) (hi : Inv s place) (hlock : s.lock l = some t)
    (hhand : ∀ t', t' ≠ t → ∀ r, place r = .hand t' → place' r = .hand t')
    (hgrows : ∀ l', l = .pos l' → t ≠ .dis l' → s.seq l <+: xs) : Frame s s' place place' t where
  pc := fun t' ht => h.pc_other ht
  hand := hhand
  lists := by
    intro l' t' ht hl
    have hll := hi.ne_of_holds hlock ((hi.lock_iff l' t').1 hl) ht
    exact ⟨h.seq_other hll, h.cleared_other hll⟩
  grows := by
    intro l' ht
    by_cases hll : .pos l' = l
    · rw [hll, h.seq_self]
      exact hgrows l' hll.symm ht
    · rw [h.seq_other hll]
  buf := fun r hr => by rw [h.buf]; exact hr
  owner := fun r ho => by rw [h.mem]; exact ho
  head := fun l' _ _ hne => by rw [h.mem]; exact hne

lemma placement (h : Relists s s' t l pc' cs xs) (hi : Placement s place)
    (hstock : Stock s'.free place') (hseq : ∀ r, r ∈ xs ↔ place' r = .list l)
    (hother : ∀ l', l' ≠ l → ∀ r, place' r = .list l' ↔ place r = .list l')
    (hok : ∀ r ∈ xs, r.pool = l.pool ∧ s.buf (.record r) = some r)
    (hcs : ∀ r ∈ cs, place' r = .free ∧ r.pool = .c1Sample)
    (hfree : ∀ r, place r = .free → place' r = .free) : Placement s' place' where
  toStock := hstock
  seq_iff := by
    intro l' r
    by_cases hll : l' = l
    · rw [hll, h.seq_self]
      exact hseq r
    · rw [h.seq_other hll, hother l' hll]
      exact hi.seq_iff l' r
  seq_ok := by
    intro l' r hr
    rw [h.buf]
    by_cases hll : l' = l
    · rw [hll, h.seq_self] at hr
      rw [hll]
      exact hok r hr
    · rw [h.seq_other hll] at hr
      exact hi.seq_ok l' r hr
  cleared_ok := by
    intro l' r hr
    by_cases hll : l' = l
    · rw [hll, h.cleared_self] at hr
      exact hcs r hr
    · rw [h.cleared_other hll] at hr
      exact (hi.cleared_ok l' r hr).imp_left (hfree r)

end Relists

namespace Inv

variable {s s' : State} {place place' : Rec → Place} {t : Task} {l : SList} {r : Rec} {pc : Pc}

/-- `clear_array` returns the first record, which stays linked. -/
lemma recycleFirst (h : Inv s place) {n : Station} {p q : Ptr}
    (hpc : s.pc t = .gotClear n p q)
    (hs : (s.markCleared n).recycle .c1Sample q t (.nextClear n p) = some s') :
    ∃ place', Inv s' place' := by
  have hhere := h.here t
  rw [hpc] at hhere
  obtain ⟨rfl, r, hr, rfl, rfl⟩ := hhere
  obtain ⟨rest, hseq⟩ := List.head?_eq_some_iff.1 hr
  have hmem : r ∈ s.seq (.sample n) := by simp [hseq]
  obtain ⟨hP, hbuf⟩ := h.seq_ok _ r hmem
  have hplace := (h.seq_iff _ r).1 hmem
  have hlock := h.lock_of hpc (l := .sample n) rfl
  have hnd := h.seq_nodup (.sample n)
  rw [hseq, List.nodup_cons] at hnd
  rw [State.recycle, show (s.markCleared n).buf (.record r) = some r from hbuf] at hs
  have hs' := Option.some.inj hs
  have hfr : s'.free = Function.update s.free .c1Sample (s.free .c1Sample ++ [r]) := by
    rw [← hs']
    rfl
  have hre : Relists s s' .recv (.sample n) (.nextClear n (.node r))
      (s.cleared (.sample n) ++ [r]) rest := by
    rw [← hs']
    refine ⟨rfl, rfl, rfl, rfl, ?_, ?_⟩ <;> simp [State.markCleared, State.goto, hseq]
  have hsub : ∀ l, s'.seq l ⊆ s.seq l := by
    intro l
    by_cases hll : l = .sample n
    · rw [hll, hre.seq_self, hseq]
      exact List.subset_cons_self r rest
    · rw [hre.seq_other hll]
      exact List.Subset.refl _
  have hring : ∀ l, s'.ring l = s.ring l := by
    intro l
    by_cases hll : l = .sample n
    · rw [hll, State.ring, State.ring, hre.seq_self, hre.cleared_self, hseq]
      simp
    · rw [State.ring, State.ring, hre.seq_other hll, hre.cleared_other hll]
  have hother : ∀ l, l ≠ .sample n → ∀ r',
      Function.update place r .free r' = .list l ↔ place r' = .list l :=
    fun l hll r' => update_place_iff (by simp) (by simp [hplace, Ne.symm hll])
  have hframe : Frame s s' place (Function.update place r .free) .recv :=
    hre.frame h hlock (fun t' _ r' => update_place_of_place (by simp [hplace])) (by rintro _ ⟨⟩)
  have hplace' : Placement s' (Function.update place r .free) := by
    refine hre.placement h.toPlacement ?_ ?_ hother ?_ ?_ ?_
    · rw [hfr]
      exact h.toStock.recycle hP (by simp [hplace])
    · intro r'
      by_cases hrr : r' = r
      · rw [hrr, Function.update_self]
        exact iff_of_false hnd.1 (by simp)
      · rw [Function.update_of_ne hrr, ← h.seq_iff, hseq, List.mem_cons]
        simp [hrr]
    · exact fun r' hr' => h.seq_ok _ r' (by rw [hseq]; exact List.mem_cons_of_mem r hr')
    · intro r' hr'
      by_cases hrr : r' = r
      · rw [hrr, Function.update_self]
        exact ⟨rfl, hP⟩
      · rw [Function.update_of_ne hrr]
        exact h.cleared_ok _ r' (by simpa [hrr] using hr')
    · intro r' hr'
      exact update_place_of_place (by simp [hplace]) hr'
  refine ⟨Function.update place r .free, h.steady hframe ?_ (by rw [hre.mem]) (by rw [hre.mem])
    (by rw [hpc]; rfl) (by rw [hre.pc_self]; rfl) hring hplace' ?_ ?_ hsub
    (fun r' hr' => by rw [hpc] at hr'; cases hr') ?_⟩
  · intro l t'
    rw [hre.lock, hre.pc]
    exact h.lock_same hpc (show (Pc.nextClear n (.node r)).holds = _ from rfl) l t'
  · intro l t' ht hl r'
    exact (hother l (h.ne_of_holds hlock ((h.lock_iff l t').1 hl) ht) r').2
  · intro l hne
    by_cases hll : l = .sample n
    · exact ⟨n, hll, by rw [hre.pc_self]; rfl⟩
    · rw [hre.cleared_other hll] at hne
      obtain ⟨n', rfl, hc⟩ := h.cleared_pc l hne
      rw [hpc] at hc
      exact absurd (congrArg SList.sample (Option.some.inj hc).symm) hll
  · rw [hre.pc_self]
    exact ⟨rfl, s.cleared (.sample n), r, hre.cleared_self, rfl⟩

/-! ### A list operation is called -/

/-- The holder of a list calls an operation on it: its stores become pending. -/
lemma relist (h : Inv s place) (pc' : Pc) (xs : List Rec) (place' : Rec → Place)
    (hpc : s.pc t = pc) (hl : pc.holds = some l) (hl' : pc'.holds = some l)
    (howes : pc.owes = none) (hring : (s.mem.flush pc'.stores).Represents (.head l) (xs.map .node))
    (hstores : ∀ st ∈ pc'.stores, StoreOk place' t l st)
    (hfree : ∀ r, place' r = .free ↔ place r = .free)
    (hseq : ∀ r, r ∈ xs ↔ place' r = .list l)
    (hother : ∀ l', l' ≠ l → ∀ r, place' r = .list l' ↔ place r = .list l')
    (hhand : ∀ t', t' ≠ t → ∀ r, place r = .hand t' → place' r = .hand t')
    (hok : ∀ r ∈ xs, r.pool = l.pool ∧ s.buf (.record r) = some r)
    (howner : ∀ r ∈ xs, r ∈ s.seq l ∨ pc'.owes = some r)
    (hsees : ∀ l', l = .pos l' → (t = .dis l' ∧ ∃ q sts, pc' = .delDis l' q sts) ∨
      ∀ s' : State, s'.mem = s.mem → s'.pending l = pc'.stores → s'.Sees l)
    (hgrows : ∀ l', l = .pos l' → t ≠ .dis l' → s.seq l <+: xs)
    (hhere : ∀ s' : State, s'.buf = s.buf → Here s' place' t pc') :
    Inv { s.goto t pc' with
      seq := Function.update s.seq l xs, cleared := Function.update s.cleared l [] } place' := by
  generalize hs' : ({ s.goto t pc' with
    seq := Function.update s.seq l xs, cleared := Function.update s.cleared l [] } : State) = s'
  have hre : Relists s s' t l pc' [] xs := by
    rw [← hs']
    exact ⟨rfl, rfl, rfl, rfl, rfl, rfl⟩
  have hfr : s'.free = s.free := by rw [← hs']; rfl
  have hlock := h.lock_of hpc hl
  have hpend : s'.pending l = pc'.stores := pending_self hre.pc hre.lock hlock
  have hpends : ∀ l', l' ≠ l → s'.pending l' = s.pending l' :=
    fun l' hll => h.pending_other hre.pc hre.lock hlock hll
  have hflushs : ∀ l', l' ≠ l → s'.flushed l' = s.flushed l' :=
    fun l' hll => by rw [State.flushed, State.flushed, hre.mem, hpends l' hll]
  have hplace : Placement s' place' := by
    refine hre.placement h.toPlacement ?_ hseq hother hok ?_ (fun r => (hfree r).2)
    · rw [hfr]
      exact h.toStock.congr hfree
    · exact fun _ hr => absurd hr List.not_mem_nil
  refine h.of_frame (hre.frame h hlock hhand hgrows) ?_ hplace ?_ ?_ ?_ ?_ ?_ ?_ ?_
    (by rw [hre.pc_self]; exact hhere s' hre.buf)
  · intro l' t'
    rw [hre.lock, hre.pc]
    exact h.lock_same hpc (hl'.trans hl.symm) l' t'
  · intro l' t' ht hl₁ r
    exact (hother l' (h.ne_of_holds hlock ((h.lock_iff l' t').1 hl₁) ht) r).2
  · intro l'
    by_cases hll : l' = l
    · subst hll
      rw [State.flushed, hpend, hre.mem, ring_of_cleared hre.cleared_self, hre.seq_self]
      exact hring
    · rw [hflushs l' hll, State.ring, hre.seq_other hll, hre.cleared_other hll]
      exact h.ring l'
  · intro l' hl₁ st hst
    rw [hre.pc_self] at hl₁ hst
    rw [hl'] at hl₁
    obtain rfl := Option.some.inj hl₁
    exact hstores st hst
  · intro l' hne
    by_cases hll : l = .pos l'
    · rcases hsees l' hll with ⟨ht, q, sts, hd⟩ | hsees
      · exact absurd (hre.pc_self.trans hd) (ht ▸ hne q sts)
      · rw [← hll]
        exact hsees s' hre.mem hpend
    · rw [State.Sees, hre.mem, hpends _ (Ne.symm hll), hflushs _ (Ne.symm hll)]
      refine h.sees l' fun q sts hc => ?_
      by_cases ht : Task.dis l' = t
      · rw [ht, hpc] at hc
        rw [hc] at hl
        exact hll (Option.some.inj hl).symm
      · exact hne q sts (by rw [hre.pc_other ht]; exact hc)
  · intro l' hne
    have hll : l' ≠ l := by
      rintro rfl
      exact hne hre.cleared_self
    rw [hre.cleared_other hll] at hne
    obtain ⟨n, rfl, hc⟩ := h.cleared_pc l' hne
    refine ⟨n, rfl, ?_⟩
    rw [hre.pc_other]
    · exact hc
    · rintro rfl
      have := holds_of_clearing hc
      rw [hpc, hl] at this
      exact hll (Option.some.inj this).symm
  · intro l' r hr
    rw [hre.pc_self]
    by_cases hll : l' = l
    · subst hll
      rw [hre.seq_self] at hr
      exact howner r hr
    · rw [hre.seq_other hll] at hr
      exact .inl hr
  · intro r ho
    rw [hpc, howes] at ho
    cases ho

/-- The stores of `list_add_tail` go to the list and to the new record. -/
lemma storeOk_listAddTail (hset : s.mem.Represents (.head l) ((s.seq l).map .node))
    (hseq : ∀ r' ∈ s.seq l, place r' = .list l) (hr : place r = .list l) :
    ∀ st ∈ s.mem.listAddTail (.node r) (.head l), StoreOk place t l st := by
  have hprev : StoreOk place t l ⟨.next, s.mem.prev (.head l), .node r⟩ := by
    rcases List.mem_cons.1 (List.mem_of_getLast? (Ring.prev_head_mem hset)) with hp | hp
    · exact .inl hp
    · obtain ⟨r', hr', hp⟩ := List.mem_map.1 hp
      exact .inr ⟨r', hp.symm, by simp, .inl (hseq r' hr')⟩
  have hnew : ∀ f, f ≠ ListField.owner → ∀ v, StoreOk place t l ⟨f, .node r, v⟩ :=
    fun f hf v => .inr ⟨r, rfl, hf, .inl hr⟩
  intro st hst
  simp only [ListMem.listAddTail, _listAdd, List.mem_cons, List.not_mem_nil, or_false] at hst
  rcases hst with rfl | rfl | rfl | rfl
  · exact .inl rfl
  · exact hnew _ (by simp) _
  · exact hnew _ (by simp) _
  · exact hprev

/-- A list that gets a record at its tail is seen without the mutex as it was, or as it
becomes. -/
lemma sees_listAddTail (hset : s.mem.Represents (.head l) ((s.seq l).map .node))
    (hring : (s.mem.flush (s.mem.listAddTail (.node r) (.head l))).Represents (.head l)
      ((s.seq l).map .node ++ [.node r]))
    (hmem : s'.mem = s.mem) (hpend : s'.pending l = s.mem.listAddTail (.node r) (.head l)) :
    s'.Sees l := by
  have hold := hset.next_head
  have hlinks := hring.next_head
  rw [State.Sees, State.flushed, hpend, hmem]
  constructor
  · cases hx : s.seq l with
    | nil =>
      rw [hx] at hold
      exact .inl hold
    | cons x xs =>
      rw [hx] at hold hlinks
      exact .inr (hold.trans hlinks.symm)
  · intro st hst hf ha
    simp only [ListMem.listAddTail, _listAdd, List.mem_cons, List.not_mem_nil, or_false] at hst
    rcases hst with rfl | rfl | rfl | rfl
    · cases hf
    · cases ha
    · cases hf
    · -- only into an empty list is the first link stored
      have ha : s.mem.prev (.head l) = .head l := ha
      simp [ListMem.listAddTail, _listAdd, ListMem.flush, ListMem.store, ha]

/-- `list_add_tail` of the record in hand. -/
lemma callAddTail (h : Inv s place) (hpc : s.pc t = .add l r) :
    ∃ place', Inv (s.callAddTail l r t) place' := by
  have hhere := h.here t
  rw [hpc] at hhere
  obtain ⟨hplace, hP, hbuf⟩ := hhere
  have hlock := h.lock_of hpc (l := l) rfl
  have hcl : s.cleared l = [] := h.cleared_nil hlock (by rw [hpc]; rfl)
  have hset := h.settled hlock (by rw [hpc]; rfl)
  rw [ring_of_cleared hcl] at hset
  -- the record is in hand, so in no list
  have hnot : r ∉ s.seq l := by
    rw [h.seq_iff, hplace]
    simp
  have hfresh : Ptr.node r ∉ Ptr.head l :: (s.seq l).map .node := by
    simp [hnot]
  have hring := hset.addTail hfresh
  refine ⟨Function.update place r (.list l), ?_⟩
  have hinv := h.relist (l := l) (.link l r (s.mem.listAddTail (.node r) (.head l)))
    (s.seq l ++ [r]) (Function.update place r (.list l)) hpc rfl rfl rfl
    ?_ ?_ ?_ ?_ ?_ ?_ ?_ ?_ ?_ ?_ ?_
  · rwa [show Function.update s.cleared l [] = s.cleared by
      rw [← hcl, Function.update_eq_self]] at hinv
  · rw [List.map_append]
    exact hring
  · refine storeOk_listAddTail hset (fun r' hr' => ?_) (Function.update_self ..)
    have hrr : r' ≠ r := fun he => hnot (he ▸ hr')
    rw [Function.update_of_ne hrr]
    exact (h.seq_iff l r').1 hr'
  · exact fun r' => update_place_iff (by simp) (by simp [hplace])
  · intro r'
    by_cases hrr : r' = r
    · simp [hrr]
    · rw [Function.update_of_ne hrr, ← h.seq_iff]
      simp [hrr]
  · exact fun l' hll r' => update_place_iff (by simp [Ne.symm hll]) (by simp [hplace])
  · exact fun t' ht r' => update_place_of_place (by simp [hplace, Ne.symm ht])
  · intro r' hr'
    rcases List.mem_append.1 hr' with hr' | hr'
    · exact h.seq_ok l r' hr'
    · rw [List.mem_singleton.1 hr']
      exact ⟨hP, hbuf⟩
  · intro r' hr'
    rcases List.mem_append.1 hr' with hr' | hr'
    · exact .inl hr'
    · rw [List.mem_singleton.1 hr']
      exact .inr rfl
  · exact fun l' hll => .inr fun s' hmem hpend => sees_listAddTail hset hring hmem hpend
  · exact fun _ _ _ => List.prefix_append _ _
  · exact fun _ _ => trivial

/-- The stores of `list_del` go to the list and to the record taken out. -/
lemma storeOk_listDel (hset : s.mem.Represents (.head l) ((s.seq l).map .node)) (hr : r ∈ s.seq l)
    (hseq : ∀ r' ∈ s.seq l, place r' = .list l ∨ place r' = .hand t) :
    ∀ st ∈ s.mem.listDel .null (.node r), StoreOk place t l st := by
  have hring : ∀ f, f ≠ ListField.owner → ∀ a ∈ Ptr.head l :: (s.seq l).map .node, ∀ v,
      StoreOk place t l ⟨f, a, v⟩ := by
    intro f hf a ha v
    rcases List.mem_cons.1 ha with ha | ha
    · exact .inl ha
    · obtain ⟨r', hr', ha⟩ := List.mem_map.1 ha
      exact .inr ⟨r', ha.symm, hf, hseq r' hr'⟩
  obtain ⟨as, bs, hsplit⟩ := List.append_of_mem hr
  rw [hsplit, List.map_append, List.map_cons] at hset hring
  have hnext : s.mem.next (.node r) ∈
      Ptr.head l :: (as.map .node ++ Ptr.node r :: bs.map .node) := by
    rw [Ring.next_middle hset]
    cases bs <;> simp
  have hprev : s.mem.prev (.node r) ∈
      Ptr.head l :: (as.map .node ++ Ptr.node r :: bs.map .node) :=
    List.mem_append_left _ (List.mem_of_getLast? (Ring.prev_middle hset))
  intro st hst
  simp only [ListMem.listDel, _listDel, List.cons_append, List.nil_append, List.mem_cons,
    List.not_mem_nil, or_false] at hst
  rcases hst with rfl | rfl | rfl | rfl
  · exact hring _ (by simp) _ hnext _
  · exact hring _ (by simp) _ hprev _
  · exact hring _ (by simp) _ (by simp) _
  · exact hring _ (by simp) _ (by simp) _

/-- `list_del` of a node of the list. -/
lemma callDel (h : Inv s place) {pc' : Stores → Pc} (hpc : s.pc t = pc)
    (hst : pc.stores = []) (hl : pc.holds = some l) (howes : pc.owes = none)
    (hclear : pc.clearing = none) (hst' : ∀ sts, (pc' sts).stores = sts)
    (hl' : ∀ sts, (pc' sts).holds = some l) (hr : r ∈ s.seq l)
    (hdis : ∀ l', l = .pos l' → t = .dis l' ∧ ∀ sts, ∃ q, pc' sts = .delDis l' q sts)
    (hhere : ∀ s' place' sts, InHand s' place' t l.pool r → Here s' place' t (pc' sts)) :
    ∃ place', Inv (s.callDel l (.node r) t pc') place' := by
  have hlock := h.lock_of hpc hl
  have hcl : s.cleared l = [] := h.cleared_nil hlock (by rw [hpc]; exact hclear)
  have hset := h.settled hlock (by rw [hpc]; exact hst)
  rw [ring_of_cleared hcl] at hset
  have hplace := (h.seq_iff l r).1 hr
  have hok := h.seq_ok l r hr
  have hnd := h.seq_nodup l
  obtain ⟨as, bs, hsplit⟩ := List.append_of_mem hr
  -- the records are distinct, so the filter takes out this one
  have hfilter : (s.seq l).filter (fun r' => Ptr.node r' != .node r) = as ++ bs := by
    rw [hsplit, List.nodup_middle, List.nodup_cons] at hnd
    have hkeep : ∀ x ∈ as ++ bs, (Ptr.node x != .node r) = true := by
      intro x hx
      have : x ≠ r := fun he => hnd.1 (he ▸ hx)
      simpa using this
    rw [hsplit, List.filter_append, List.filter_cons_of_neg (by simp), ← List.filter_append]
    exact List.filter_eq_self.2 hkeep
  have hmem : ∀ r', r' ∈ as ++ bs ↔ r' ∈ s.seq l ∧ r' ≠ r := by
    intro r'
    rw [← hfilter, List.mem_filter]
    simp
  refine ⟨Function.update place r (.hand t), ?_⟩
  have hinv := h.relist (l := l) (pc' (s.mem.listDel .null (.node r))) (as ++ bs)
    (Function.update place r (.hand t)) hpc hl (hl' _) howes
    ?_ ?_ ?_ ?_ ?_ ?_ ?_ ?_ ?_ ?_ ?_
  · rw [show Function.update s.cleared l [] = s.cleared by
      rw [← hcl, Function.update_eq_self]] at hinv
    rw [State.callDel, hfilter]
    exact hinv
  · rw [hsplit, List.map_append, List.map_cons] at hset
    rw [hst', List.map_append]
    exact hset.del .null
  · rw [hst']
    refine storeOk_listDel hset hr fun r' hr' => ?_
    by_cases hrr : r' = r
    · exact .inr (by rw [hrr, Function.update_self])
    · rw [Function.update_of_ne hrr]
      exact .inl ((h.seq_iff l r').1 hr')
  · exact fun r' => update_place_iff (by simp) (by simp [hplace])
  · intro r'
    rw [hmem]
    by_cases hrr : r' = r
    · simp [hrr]
    · rw [Function.update_of_ne hrr, ← h.seq_iff]
      simp [hrr]
  · exact fun l' hll r' => update_place_iff (by simp) (by simp [hplace, Ne.symm hll])
  · exact fun t' _ r' => update_place_of_place (by simp [hplace])
  · intro r' hr'
    exact h.seq_ok l r' ((hmem r').1 hr').1
  · intro r' hr'
    exact .inl ((hmem r').1 hr').1
  · intro l' hll
    obtain ⟨ht, hd⟩ := hdis l' hll
    obtain ⟨q, hq⟩ := hd (s.mem.listDel .null (.node r))
    exact .inl ⟨ht, q, _, hq⟩
  · intro l' hll ht
    exact absurd (hdis l' hll).1 ht
  · intro s' hbuf
    refine hhere s' _ _ ⟨Function.update_self .., hok.1, ?_⟩
    rw [hbuf]
    exact hok.2

/-- `init_list_head` of a list whose records have all been returned. -/
lemma callInit (h : Inv s place) {n : Station} (hpc : s.pc t = .atClear n (.head (.sample n))) :
    ∃ place', Inv (s.callInit n t) place' := by
  have hhere := h.here t
  rw [hpc] at hhere
  obtain ⟨ht, hfront⟩ := hhere
  have hnil : s.seq (.sample n) = [] := by
    cases hx : s.seq (.sample n) with
    | nil => rfl
    | cons x xs =>
      rw [State.front, hx] at hfront
      cases hfront
  refine ⟨place, h.relist (l := .sample n) (.initClear n (initListHead (.head (.sample n)))) []
    place hpc rfl rfl rfl (ListMem.Represents.init _) ?_ (fun _ => Iff.rfl) ?_
    (fun _ _ _ => Iff.rfl) (fun _ _ _ hr => hr) (fun _ hr => absurd hr List.not_mem_nil)
    (fun _ hr => absurd hr List.not_mem_nil) (by rintro _ ⟨⟩) (by rintro _ ⟨⟩)
    (fun _ _ => ht)⟩
  · intro st hst
    simp only [Pc.stores, initListHead, List.mem_cons, List.not_mem_nil, or_false] at hst
    rcases hst with rfl | rfl | rfl <;> exact .inl rfl
  · intro r
    rw [← hnil]
    exact h.seq_iff _ r

end Inv

end RejectProcess.Publish
