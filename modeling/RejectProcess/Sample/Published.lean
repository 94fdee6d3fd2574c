import RejectProcess.Sample.PublishInv

/-!
# Records are published complete

The record of a node in a list is the node's owner unless a producer has still to assign it.  So
a consumer that leaves alone the nodes a producer has linked and not yet given their owner reads
the record of every node it looks at.
-/

namespace RejectProcess.Publish

open Lib

namespace Inv

variable {s s' : State} {place : Rec → Place} {t : Task} {pc : Pc}

/-! ### The tasks -/

/-- The node that a consumer reads the owner of has its record for owner. -/
lemma read_complete (h : Inv s place) {a : Label} {p : Ptr} (hp : s.readsOwner a = some p)
    (hok : s.SparesUnowned a) : (OwnerRead.mk p (s.mem.owner p)).Complete := by
  have hlisted : ∀ l, ∀ r ∈ s.seq l, p = .node r → (OwnerRead.mk p (s.mem.owner p)).Complete := by
    intro l r hr he
    refine ⟨r, he, ?_⟩
    rcases h.owner l r hr with ho | ⟨t, ho⟩
    · rw [he]
      exact ho
    -- no producer owes it, or the step spares it
    · exact hok p hp t t.mem_all r ho he
  have hhere := h.here a.task
  unfold State.readsOwner at hp
  split at hp
  case h_1 n p' hpc =>
    rw [hpc] at hhere
    split at hp
    case isTrue => cases hp
    case isFalse hne =>
      obtain rfl := Option.some.inj hp
      cases hx : s.seq (.sample n) with
      | nil => exact absurd (hhere.2.trans (by rw [State.front, hx]; rfl)) hne
      | cons r rest =>
        exact hlisted (.sample n) r (by simp [hx]) (hhere.2.trans (by rw [State.front, hx]; rfl))
  case h_2 n p' hpc =>
    rw [hpc] at hhere
    split at hp
    case isTrue => cases hp
    case isFalse hne =>
      obtain rfl := Option.some.inj hp
      obtain ⟨r, hr, he⟩ := hhere.resolve_left hne
      exact hlisted _ r hr he
  case h_3 l p' hpc =>
    rw [hpc] at hhere
    obtain rfl := Option.some.inj hp
    obtain ⟨-, r, hr, he⟩ := hhere
    exact hlisted _ r (List.mem_of_head? hr) he
  case h_4 => cases hp

lemma stepProducer (h : Inv s place) {e : Env} (hpc : s.pc t = pc)
    (hs : s.stepProducer t e pc = some s') : ∃ place', Inv s' place' := by
  have hhere := h.here t
  rw [hpc] at hhere
  cases pc with
  | produce lo => cases lo <;> exact h.produce hpc hs
  | fill lo r =>
    cases lo with
    | none =>
      cases hs
      exact ⟨place, h.setBuf hpc rfl rfl rfl (of_none rfl) (of_none rfl) trivial⟩
    | some l =>
      cases hs
      exact ⟨place, h.setBuf hpc rfl rfl rfl (of_none rfl) (of_none rfl)
        ⟨hhere.1, hhere.2, Function.update_self ..⟩⟩
  | lockAdd l r =>
    exact ⟨place, h.lockBy hpc rfl rfl rfl rfl (of_none rfl) rfl hs hhere⟩
  | add l r =>
    cases hs
    exact h.callAddTail hpc
  | link l r sts =>
    cases sts with
    | nil =>
      cases l with
      | sample n =>
        cases hs
        exact ⟨place, h.unlockBy hpc rfl rfl rfl rfl (fun _ hr => hr) rfl trivial⟩
      | pos l =>
        cases hs
        exact ⟨place, h.setOwner hpc rfl rfl rfl rfl rfl trivial⟩
    | cons st sts =>
      have hs : some (s.storeBy st t (.link l r sts)) = some s' := by
        cases l <;> exact hs
      cases hs
      exact ⟨place, h.storeBy hpc rfl rfl rfl rfl rfl rfl (by rintro _ _ _ ⟨⟩) trivial⟩
  | own r =>
    cases hs
    exact ⟨place, h.setOwner hpc rfl rfl rfl rfl rfl trivial⟩
  | unlockAdd l =>
    cases hs
    exact ⟨place, h.unlockBy hpc rfl rfl rfl rfl (of_none rfl) rfl trivial⟩
  | posPart =>
    have key : ∀ pc' : Pc, pc'.stores = [] → pc'.holds = none →
        Here (s.goto t pc') place t pc' → Inv (s.goto t pc') place := fun pc' hst hl hh =>
      h.goto hpc rfl hst hl (of_none rfl) (of_none rfl) hh
    simp only [State.stepProducer] at hs
    split at hs <;> cases hs
    · exact ⟨place, key _ rfl rfl (by rintro ⟨⟩)⟩
    · exact ⟨place, key _ rfl rfl (by rintro ⟨⟩)⟩
    · exact ⟨place, key _ rfl rfl trivial⟩
  | _ => cases hs

/-- A consumer reads an owner and goes on. -/
lemma readOwner (h : Inv s place) {pc' : Pc} {p : Ptr} (hpc : s.pc t = pc) (hst : pc.stores = [])
    (hst' : pc'.stores = []) (hl : pc'.holds = pc.holds) (howes : pc.owes = none)
    (hclear : ∀ n, pc.clearing = some n → pc'.clearing = some n)
    (hhere : Here (s.goto t pc') place t pc') : Inv (s.readOwner p t pc') place := by
  have hgoto := h.goto hpc hst hst' hl (fun r hr => by rw [howes] at hr; cases hr) hclear hhere
  exact hgoto.withReads _

lemma stepClear (h : Inv s place) {e : Env} (hpc : s.pc t = pc) (hok : s.SparesUnowned ⟨t, e⟩)
    (hs : s.stepClear t pc = some s') : ∃ place', Inv s' place' := by
  have hhere := h.here t
  rw [hpc] at hhere
  cases pc with
  | lockClear n =>
    exact ⟨place, h.lockBy hpc rfl rfl rfl rfl (of_none rfl) rfl hs hhere⟩
  | firstClear n =>
    cases hs
    have hlock := h.lock_of hpc (l := .sample n) rfl
    have hnext := h.next_head hlock (by rw [hpc]; rfl) (h.cleared_nil hlock (by rw [hpc]; rfl))
    exact ⟨place, h.goto hpc rfl rfl rfl (of_none rfl) (of_none rfl) ⟨hhere, hnext⟩⟩
  | atClear n p =>
    simp only [State.stepClear] at hs
    split at hs
    case isTrue he =>
      subst he
      cases hs
      exact h.callInit hpc
    case isFalse hne =>
      cases hs
      obtain ⟨r, hp, hq⟩ := h.read_complete (a := ⟨t, e⟩) (p := p)
        (by simp [State.readsOwner, hpc, hne]) hok
      refine ⟨place, h.readOwner hpc rfl rfl rfl rfl (fun _ hn => hn) ⟨hhere.1, r, ?_, hp, hq⟩⟩
      have hfront := hhere.2
      show (s.seq (.sample n)).head? = some r
      cases hx : s.seq (.sample n) with
      | nil => exact absurd (hfront.trans (by rw [State.front, hx]; rfl)) hne
      | cons x rest =>
        rw [State.front, hx] at hfront
        rw [List.head?_cons, Ptr.node.inj (hp.symm.trans hfront)]
  | gotClear n p q => exact h.recycleFirst hpc hs
  | nextClear n p =>
    cases hs
    obtain ⟨ht, cs, r, hcl, rfl⟩ := hhere
    have hlock := h.lock_of hpc (l := .sample n) rfl
    have hset := h.settled hlock (by rw [hpc]; rfl)
    have hring : Ring s.mem.next s.mem.prev (.head (.sample n))
        (cs.map .node ++ Ptr.node r :: (s.seq (.sample n)).map .node) := by
      rw [State.ring, hcl] at hset
      simpa [ListMem.Represents] using hset
    exact ⟨place, h.goto hpc rfl rfl rfl (of_none rfl) (fun _ hn => hn)
      ⟨ht, hring.next_middle⟩⟩
  | initClear n sts =>
    cases sts with
    | nil =>
      cases n with
      | one =>
        cases hs
        exact ⟨place, h.unlockBy hpc rfl rfl rfl rfl (of_none rfl) rfl hhere⟩
      | two =>
        cases hs
        exact ⟨place, h.unlockBy hpc rfl rfl rfl rfl (of_none rfl) rfl trivial⟩
    | cons st sts =>
      have hs : some (s.storeBy st t (.initClear n sts)) = some s' := by
        cases n <;> exact hs
      cases hs
      exact ⟨place, h.storeBy hpc rfl rfl rfl rfl rfl rfl (by rintro _ _ _ ⟨⟩) hhere⟩
  | _ => cases hs

lemma stepSearch (h : Inv s place) {e : Env} (hpc : s.pc t = pc) (hok : s.SparesUnowned ⟨t, e⟩)
    (hs : s.stepSearch t e pc = some s') : ∃ place', Inv s' place' := by
  have hhere := h.here t
  rw [hpc] at hhere
  cases pc with
  | first n =>
    cases hs
    have hlock := h.lock_of hpc (l := .sample n) rfl
    have hnext := h.next_head hlock (by rw [hpc]; rfl) (h.cleared_nil hlock (by rw [hpc]; rfl))
    refine ⟨place, h.goto hpc rfl rfl rfl (of_none rfl) (of_none rfl) ?_⟩
    show s.mem.next (.head (.sample n)) = _ ∨ ∃ r ∈ s.seq (.sample n), _ = Ptr.node r
    rw [hnext, State.front]
    cases hx : s.seq (.sample n) with
    | nil => exact .inl rfl
    | cons r rest => exact .inr ⟨r, List.mem_cons_self, rfl⟩
  | look n p =>
    simp only [State.stepSearch] at hs
    split at hs
    case isTrue =>
      cases hs
      exact ⟨place, h.unlockBy hpc rfl rfl rfl rfl (of_none rfl) rfl trivial⟩
    case isFalse hne =>
      cases hs
      obtain ⟨r, hp, hq⟩ := h.read_complete (a := ⟨t, e⟩) (p := p)
        (by simp [State.readsOwner, hpc, hne]) hok
      obtain ⟨r', hr', hp'⟩ := hhere.resolve_left hne
      obtain rfl := Ptr.node.inj (hp.symm.trans hp')
      exact ⟨place, h.readOwner hpc rfl rfl rfl rfl (of_none rfl) ⟨r, hr', hp, hq⟩⟩
  | got n p q =>
    obtain ⟨r, hr, rfl, rfl⟩ := hhere
    simp only [State.stepSearch] at hs
    split at hs
    case isTrue =>
      cases hs
      exact h.callDel hpc rfl rfl rfl rfl (fun _ => rfl) (fun _ => rfl) hr
        (by rintro _ ⟨⟩) fun _ _ _ hin => ⟨r, rfl, hin⟩
    case isFalse =>
      cases hs
      have hlock := h.lock_of hpc (l := .sample n) rfl
      have hset := h.settled hlock (by rw [hpc]; rfl)
      rw [ring_of_cleared (h.cleared_nil hlock (by rw [hpc]; rfl))] at hset
      obtain ⟨as, bs, hsplit⟩ := List.append_of_mem hr
      refine ⟨place, h.goto hpc rfl rfl rfl (of_none rfl) (of_none rfl) ?_⟩
      show s.mem.next (.node r) = _ ∨ ∃ r' ∈ s.seq (.sample n), _ = Ptr.node r'
      rw [hsplit, List.map_append, List.map_cons] at hset
      rw [Ring.next_middle hset, hsplit]
      cases bs with
      | nil => exact .inl rfl
      | cons b bs => exact .inr ⟨b, by simp, rfl⟩
  | del n q sts =>
    cases sts with
    | nil =>
      obtain ⟨r, hq, hin⟩ := hhere
      exact h.recycle (.unlock n) hpc rfl rfl rfl rfl rfl hq hin hs fun _ => trivial
    | cons st sts =>
      cases hs
      exact ⟨place, h.storeBy hpc rfl rfl rfl rfl rfl rfl (by rintro _ _ _ ⟨⟩) hhere⟩
  | unlock n =>
    cases hs
    exact ⟨place, h.unlockBy hpc rfl rfl rfl rfl (of_none rfl) rfl trivial⟩
  | _ => cases hs

lemma stepDis (h : Inv s place) {e : Env} (hpc : s.pc t = pc) (hok : s.SparesUnowned ⟨t, e⟩)
    (hs : s.stepDis t pc = some s') : ∃ place', Inv s' place' := by
  have hhere := h.here t
  rw [hpc] at hhere
  cases pc with
  | notEmpty l =>
    cases hs
    obtain ⟨rfl, hne⟩ := hhere
    refine ⟨place, h.goto hpc rfl rfl rfl (of_none rfl) (of_none rfl) ⟨rfl, ?_⟩⟩
    -- the list is not empty, so what is loaded is its first node, pending stores or not
    have hsees := h.sees l fun q sts hc => by rw [hpc] at hc; cases hc
    have hload := hsees.1.resolve_left hne
    have hring := h.ring (.pos l)
    rw [ring_of_cleared (h.cleared_pos l)] at hring
    have hfirst := hload.trans hring.next_head
    show ∃ r, (s.seq (.pos l)).head? = some r ∧ s.mem.next (.head (.pos l)) = .node r
    cases hx : s.seq (.pos l) with
    | nil =>
      rw [hx] at hfirst
      exact absurd hfirst hne
    | cons r rest =>
      rw [hx] at hfirst
      exact ⟨r, rfl, hfirst⟩
  | plist l p =>
    cases hs
    obtain ⟨r, hp, hq⟩ := h.read_complete (a := ⟨t, e⟩) (p := p)
      (by simp [State.readsOwner, hpc]) hok
    obtain ⟨ht, r', hr', hp'⟩ := hhere
    obtain rfl := Ptr.node.inj (hp.symm.trans hp')
    exact ⟨place, h.readOwner hpc rfl rfl rfl rfl (of_none rfl) ⟨ht, r, hr', hp, hq⟩⟩
  | gotDis l p q =>
    exact ⟨place, h.lockBy hpc rfl rfl rfl rfl (of_none rfl) rfl hs hhere⟩
  | lockedDis l p q =>
    cases hs
    obtain ⟨ht, r, hr, rfl, rfl⟩ := hhere
    refine h.callDel hpc rfl rfl rfl rfl (fun _ => rfl) (fun _ => rfl) (List.mem_of_head? hr) ?_
      fun _ _ _ hin => ⟨ht, r, rfl, hin⟩
    intro l' hl
    obtain rfl := SList.pos.inj hl
    exact ⟨ht, fun _ => ⟨_, rfl⟩⟩
  | delDis l q sts =>
    cases sts with
    | nil =>
      cases hs
      exact ⟨place, h.unlockBy hpc rfl rfl rfl rfl (of_none rfl) rfl hhere⟩
    | cons st sts =>
      cases hs
      refine ⟨place, h.storeBy hpc rfl rfl rfl rfl rfl rfl ?_ hhere⟩
      intro l' q' sts' hd
      obtain ⟨rfl, -, -⟩ := Pc.delDis.inj hd
      exact ⟨_, _, rfl⟩
  | recycleDis l q =>
    obtain ⟨-, r, hq, hin⟩ := hhere
    exact h.recycle .idle hpc rfl rfl rfl rfl rfl hq hin hs fun _ => trivial
  | _ => cases hs

lemma call (h : Inv s place) {e : Env} (hpc : s.pc t = .idle) (hs : s.call t e = some s') :
    ∃ place', Inv s' place' := by
  have key : ∀ pc' : Pc, pc'.stores = [] → pc'.holds = none →
      Here (s.goto t pc') place t pc' → Inv (s.goto t pc') place := fun pc' hst hl hh =>
    h.goto hpc rfl hst hl (of_none rfl) (of_none rfl) hh
  cases t with
  | recv =>
    simp only [State.call] at hs
    split at hs
    · cases hs
      exact ⟨place, key _ rfl rfl rfl⟩
    · split at hs <;> cases hs
      · exact ⟨place, key _ rfl rfl trivial⟩
      · exact ⟨place, key _ rfl rfl fun _ => rfl⟩
      · exact ⟨place, key _ rfl rfl fun _ => rfl⟩
      · exact ⟨place, key _ rfl rfl fun _ => rfl⟩
  | writeKp n =>
    cases hs
    exact ⟨place, key _ rfl rfl (by rintro ⟨⟩)⟩
  | trig n =>
    exact ⟨place, h.lockBy hpc rfl rfl rfl rfl (of_none rfl) rfl hs trivial⟩
  | dis l =>
    simp only [State.call] at hs
    split at hs
    case isTrue =>
      cases hs
      exact ⟨place, h⟩
    case isFalse hne =>
      cases hs
      exact ⟨place, key _ rfl rfl ⟨rfl, hne⟩⟩

end Inv

/-- The function that makes a step. -/
lemma step_cases {s s' : State} {a : Label} (hs : s.step a = some s') :
    (s.pc a.task = .idle ∧ s.call a.task a.env = some s') ∨
      s.stepProducer a.task a.env (s.pc a.task) = some s' ∨
      s.stepClear a.task (s.pc a.task) = some s' ∨
      s.stepSearch a.task a.env (s.pc a.task) = some s' ∨
      s.stepDis a.task (s.pc a.task) = some s' := by
  unfold State.step at hs
  split at hs
  case h_1 hpc => exact .inl ⟨hpc, hs⟩
  case h_2 =>
    simp only [Option.orElse_eq_orElse, Option.orElse_eq_or, Option.or_eq_some_iff] at hs
    rcases hs with hs | ⟨-, hs | ⟨-, hs | ⟨-, hs⟩⟩⟩
    · exact .inr (.inl hs)
    · exact .inr (.inr (.inl hs))
    · exact .inr (.inr (.inr (.inl hs)))
    · exact .inr (.inr (.inr (.inr hs)))

/-- Every step that spares the unowned nodes keeps the invariant. -/
lemma Inv.step {s s' : State} {place : Rec → Place} (h : Inv s place) {a : Label}
    (hok : s.SparesUnowned a) (hs : s.step a = some s') : ∃ place', Inv s' place' := by
  rcases step_cases hs with ⟨hpc, hs⟩ | hs | hs | hs | hs
  · exact h.call hpc hs
  · exact h.stepProducer rfl hs
  · exact h.stepClear rfl hok hs
  · exact h.stepSearch rfl hok hs
  · exact h.stepDis rfl hok hs

/-! ### What a step does to memory -/

/-- A step stores nothing and reads no owner, reads the owner it is about to read, makes a pending
store, or assigns the owner of a record. -/
inductive Effect (s s' : State) (a : Label) : Prop
  | none : s'.mem = s.mem → s'.reads = s.reads → Effect s s' a
  | read (p : Ptr) : s.readsOwner a = some p → s'.mem = s.mem →
      s'.reads = ⟨p, s.mem.owner p⟩ :: s.reads → Effect s s' a
  | store (st : ListStore Ptr) : st ∈ (s.pc a.task).stores → s'.mem = s.mem.store st →
      s'.reads = s.reads → Effect s s' a
  | own (r : Rec) : s'.mem = s.mem.store ⟨.owner, .node r, .record r⟩ →
      s'.reads = s.reads → Effect s s' a

section Effects

variable {s s' : State} {t : Task} {pc : Pc} {e : Env} {a : Label}

lemma lockBy_effect {l : SList} (hs : s.lockBy l t pc = some s') : Effect s s' a := by
  rw [State.lockBy] at hs
  split at hs <;> cases hs
  exact .none rfl rfl

lemma produce_effect {P : Pool} {pc : Rec → Pc} (hs : s.produce P t pc = some s') :
    Effect s s' a := by
  rw [State.produce] at hs
  split at hs <;> cases hs
  exact .none rfl rfl

lemma recycle_effect {P : Pool} {q : Ptr} (hs : s.recycle P q t pc = some s') :
    Effect s s' a := by
  obtain ⟨r, -, rfl⟩ := Option.map_eq_some_iff.1 hs
  exact .none rfl rfl

/-- The next pending store. -/
lemma storeBy_effect {st : ListStore Ptr} {sts : Stores} {pc' : Pc} (hpc : s.pc t = pc)
    (hst : pc.stores = st :: sts) : Effect s (s.storeBy st t pc') ⟨t, e⟩ :=
  .store st (by rw [hpc, hst]; exact List.mem_cons_self) rfl rfl

lemma call_effect (hs : s.call t e = some s') : Effect s s' a := by
  cases t with
  | recv =>
    simp only [State.call] at hs
    split at hs
    · cases hs
      exact .none rfl rfl
    · split at hs <;> cases hs <;> exact .none rfl rfl
  | writeKp n =>
    cases hs
    exact .none rfl rfl
  | trig n => exact lockBy_effect hs
  | dis l =>
    simp only [State.call] at hs
    split at hs <;> cases hs <;> exact .none rfl rfl

lemma stepProducer_effect (hpc : s.pc t = pc) (hs : s.stepProducer t e pc = some s') :
    Effect s s' ⟨t, e⟩ := by
  cases pc with
  | produce lo => cases lo <;> exact produce_effect hs
  | fill lo r => cases lo <;> cases hs <;> exact .none rfl rfl
  | lockAdd l r => exact lockBy_effect hs
  | add l r =>
    cases hs
    exact .none rfl rfl
  | link l r sts =>
    cases sts with
    | nil =>
      cases l with
      | sample n =>
        cases hs
        exact .none rfl rfl
      | pos l =>
        cases hs
        exact .own r rfl rfl
    | cons st sts =>
      have hs : some (s.storeBy st t (.link l r sts)) = some s' := by
        cases l <;> exact hs
      cases hs
      exact storeBy_effect hpc rfl
  | own r =>
    cases hs
    exact .own r rfl rfl
  | unlockAdd l =>
    cases hs
    exact .none rfl rfl
  | posPart =>
    simp only [State.stepProducer] at hs
    split at hs <;> cases hs <;> exact .none rfl rfl
  | _ => cases hs

lemma stepClear_effect (hpc : s.pc t = pc) (hs : s.stepClear t pc = some s') :
    Effect s s' ⟨t, e⟩ := by
  cases pc with
  | lockClear n => exact lockBy_effect hs
  | firstClear n =>
    cases hs
    exact .none rfl rfl
  | atClear n p =>
    simp only [State.stepClear] at hs
    split at hs
    case isTrue =>
      cases hs
      exact .none rfl rfl
    case isFalse hne =>
      cases hs
      exact .read p (by simp [State.readsOwner, hpc, hne]) rfl rfl
  | gotClear n p q =>
    obtain ⟨r, -, rfl⟩ := Option.map_eq_some_iff.1 hs
    exact .none rfl rfl
  | nextClear n p =>
    cases hs
    exact .none rfl rfl
  | initClear n sts =>
    cases sts with
    | nil => cases n <;> cases hs <;> exact .none rfl rfl
    | cons st sts =>
      have hs : some (s.storeBy st t (.initClear n sts)) = some s' := by
        cases n <;> exact hs
      cases hs
      exact storeBy_effect hpc rfl
  | _ => cases hs

lemma stepSearch_effect (hpc : s.pc t = pc) (hs : s.stepSearch t e pc = some s') :
    Effect s s' ⟨t, e⟩ := by
  cases pc with
  | first n =>
    cases hs
    exact .none rfl rfl
  | look n p =>
    simp only [State.stepSearch] at hs
    split at hs
    case isTrue =>
      cases hs
      exact .none rfl rfl
    case isFalse hne =>
      cases hs
      exact .read p (by simp [State.readsOwner, hpc, hne]) rfl rfl
  | got n p q =>
    simp only [State.stepSearch] at hs
    split at hs <;> cases hs <;> exact .none rfl rfl
  | del n q sts =>
    cases sts with
    | nil => exact recycle_effect hs
    | cons st sts =>
      cases hs
      exact storeBy_effect hpc rfl
  | unlock n =>
    cases hs
    exact .none rfl rfl
  | _ => cases hs

lemma stepDis_effect (hpc : s.pc t = pc) (hs : s.stepDis t pc = some s') :
    Effect s s' ⟨t, e⟩ := by
  cases pc with
  | notEmpty l =>
    cases hs
    exact .none rfl rfl
  | plist l p =>
    cases hs
    exact .read p (by simp [State.readsOwner, hpc]) rfl rfl
  | gotDis l p q => exact lockBy_effect hs
  | lockedDis l p q =>
    cases hs
    exact .none rfl rfl
  | delDis l q sts =>
    cases sts with
    | nil =>
      cases hs
      exact .none rfl rfl
    | cons st sts =>
      cases hs
      exact storeBy_effect hpc rfl
  | recycleDis l q => exact recycle_effect hs
  | _ => cases hs

lemma step_effect (hs : s.step a = some s') : Effect s s' a := by
  rcases step_cases hs with ⟨-, hs⟩ | hs | hs | hs | hs
  · exact call_effect hs
  · exact stepProducer_effect rfl hs
  · exact stepClear_effect rfl hs
  · exact stepSearch_effect rfl hs
  · exact stepDis_effect rfl hs

end Effects

/-- Stores are pending only where the mutex of a list is held. -/
lemma holds_of_stores {pc : Pc} {st : ListStore Ptr} (hst : st ∈ pc.stores) :
    ∃ l, pc.holds = some l := by
  cases pc <;> first | exact ⟨_, rfl⟩ | exact absurd hst List.not_mem_nil

/-- No step takes the owner of a record away. -/
lemma Inv.owner_step {s s' : State} {place : Rec → Place} (h : Inv s place) {a : Label}
    (hs : s.step a = some s') {r : Rec} (ho : s.mem.owner (.node r) = .record r) :
    s'.mem.owner (.node r) = .record r := by
  cases step_effect hs with
  | none hm => rwa [hm]
  | read p hp hm => rwa [hm]
  | store st hst hm =>
    obtain ⟨l, hl⟩ := holds_of_stores hst
    rw [hm, store_owner (h.stores a.task l hl st hst)]
    exact ho
  | own r' hm =>
    rw [hm]
    show Function.update s.mem.owner (.node r') (.record r') (.node r) = .record r
    by_cases hrr : r = r'
    · rw [hrr, Function.update_self]
    · rw [Function.update_of_ne (by simpa using hrr)]
      exact ho

lemma Inv.init (mem : ListMem Ptr) (buf : Ptr → Option Rec) :
    Inv (Publish.init mem buf) fun r => if r.idx < 128 then .free else .hand .recv where
  lock_iff := fun _ _ => by simp [Publish.init, Pc.holds]
  ring := fun l => Ring.nil rfl rfl
  stores := by rintro t l ⟨⟩
  sees := fun l _ => Inv.sees_of_nil rfl
  free_pool := by
    intro P r hr
    obtain ⟨k, -, rfl⟩ := List.mem_map.1 hr
    rfl
  free_iff := by
    rintro ⟨P, k⟩
    by_cases hk : k < 128 <;> simp [Publish.init, hk]
  free_nodup := fun P => List.nodup_range.map fun _ _ he => (Rec.mk.inj he).2
  seq_iff := by
    intro l r
    by_cases hk : r.idx < 128 <;> simp [Publish.init, hk]
  seq_ok := fun _ _ hr => absurd hr List.not_mem_nil
  cleared_ok := fun _ _ hr => absurd hr List.not_mem_nil
  cleared_pc := fun _ hne => absurd rfl hne
  owner := fun _ _ hr => absurd hr List.not_mem_nil
  here := fun _ => trivial

section Runs

variable {mem : ListMem Ptr} {buf : Ptr → Option Rec} {s s' : State}

lemma inv_reach (h : Reach State.step State.SparesUnowned (init mem buf) s) :
    ∃ place, Inv s place := by
  refine h.invariant (I := fun s => ∃ place, Inv s place) ⟨_, .init mem buf⟩ ?_
  rintro s a s' ⟨place, hi⟩ hok hs
  exact hi.step hok hs

/-- A record that has its owner keeps it, so the owner of a node can be missing only in the first
use of its buffer. -/
theorem owner_stays (h : Reach State.step State.SparesUnowned (init mem buf) s)
    (h' : Reach State.step State.SparesUnowned s s') {r : Rec}
    (ho : s.mem.owner (.node r) = .record r) : s'.mem.owner (.node r) = .record r := by
  induction h' with
  | init => exact ho
  | step hr hok hs ih =>
    obtain ⟨place, hi⟩ := inv_reach (h.trans hr)
    exact hi.owner_step hs ih

/-- Whenever a consumer has read the owner of a node, it was the record that contains the node,
in every run in which no step reads the owner of a node that a producer has linked and not yet
given its owner. -/
theorem nodes_published (h : Reach State.step State.SparesUnowned (init mem buf) s) :
    ∀ x ∈ s.reads, x.Complete := by
  induction h with
  | init => exact fun _ hx => absurd hx List.not_mem_nil
  | step hr hok hs ih =>
    obtain ⟨place, hi⟩ := inv_reach hr
    cases step_effect hs with
    | none _ hreads => rwa [hreads]
    | read p hp _ hreads =>
      rw [hreads]
      intro x hx
      rcases List.mem_cons.1 hx with rfl | hx
      · exact hi.read_complete hp hok
      · exact ih x hx
    | store st _ _ hreads => rwa [hreads]
    | own r _ hreads => rwa [hreads]

end Runs

/-! ## The gap of `write_array` -/

/-- A task takes `k` steps; a sample goes to the first list. -/
def steps (t : Task) (k : ℕ) : List Label :=
  List.replicate k { task := t, env := { reset := false, pos := 1, item := 0, hit := true } }

/-- Memory as `malloc` may leave it. -/
def wildMem : ListMem Ptr where
  next := fun _ => .wild 0
  prev := fun _ => .wild 0
  owner := fun _ => .wild 0

/-- The state after a list of labels. -/
def afterLabels (labels : List Label) : State :=
  (exec State.step (init wildMem fun _ => none) labels).getD (init wildMem fun _ => none)

/-- `write_array` has unlocked the list and not assigned the owner when `trig1_search_tsk`
searches it. -/
def searchInGap : List Label := steps .recv 10 ++ steps (.trig .one) 3

/-- `trig1_search_tsk` searches the list after `write_array` has returned. -/
def searchAfter : List Label := steps .recv 11 ++ steps (.trig .one) 3

/-- The search takes what `malloc` left for the owner. -/
theorem owner_read_in_gap : ¬ ∀ (mem : ListMem Ptr) (buf : Ptr → Option Rec) (s : State),
    Reach State.step AnyStep (init mem buf) s → ∀ x ∈ s.reads, x.Complete := by
  intro h
  have hreach : Reach State.step AnyStep (init wildMem fun _ => none) (afterLabels searchInGap) :=
    reach_any searchInGap rfl
  obtain ⟨r, -, hq⟩ := h _ _ _ hreach
    { p := .node ⟨.c1Sample, 0⟩, q := .wild 0 } (by decide +kernel)
  cases hq

theorem nodes_published_searchAfter : (afterLabels searchAfter).reads.length = 1 ∧
    ∀ x ∈ (afterLabels searchAfter).reads, x.Complete :=
  ⟨by decide +kernel, nodes_published (show Reach State.step State.SparesUnowned
    (init wildMem fun _ => none) _ from reach_of_exec searchAfter (by decide +kernel) rfl)⟩

end RejectProcess.Publish
