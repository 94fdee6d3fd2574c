import RejectProcess.Sample.PositionPairing

/-!
# What the position reports say

The reports of a test in every run, also in those in which the position task finds its list empty.
A report says what the task has read for its event measures against its record, and without a
record what the report before it has said.  The records of the distance tests are samples that
frames have brought.  Where every message is read as it was posted, the values are those of the
events, and the records of the time tests are the kick commands.
-/

namespace RejectProcess.Position

open Lib Publish

/-! ## A variable that is assigned or left alone -/

section Held

variable {α : Type*}

/-- What a variable holds after it has been assigned or left alone some times. -/
def held (d : α) (vs : List (Option α)) : α := vs.foldl (fun d v => v.getD d) d

/-- What it holds after each of them. -/
def heldAll (d : α) : List (Option α) → List α
  | [] => []
  | v :: vs => v.getD d :: heldAll (v.getD d) vs

lemma held_append (d : α) (vs : List (Option α)) (v : Option α) :
    held d (vs ++ [v]) = v.getD (held d vs) := by
  rw [held, List.foldl_append]
  rfl

lemma heldAll_append (d : α) (vs : List (Option α)) (v : Option α) :
    heldAll d (vs ++ [v]) = heldAll d vs ++ [held d (vs ++ [v])] := by
  induction vs generalizing d with
  | nil => rfl
  | cons u vs ih =>
    rw [List.cons_append, heldAll, ih, heldAll, List.cons_append]
    rfl

end Held

/-! ## The values of the reports -/

/-- What a report assigns to `dis`, if it has a record. -/
def Report.measure (rep : Report) : Option UInt32 :=
  rep.record.map fun r => calcDis rep.cur r.sample

namespace Line

variable {L L' : Line} {l : PosList} {a : Label}

/-- What `dis` holds: it is assigned behind the test of `list_empty`, and a report leaves it. -/
def DisHeld (L : Line) : Prop :=
  match L.pc with
  | .computed _ _ => True
  | .deleted _ _ r => L.dis = calcDis L.cur r.sample
  | .report _ (some r) => L.dis = calcDis L.cur r.sample
  | _ => L.dis = held 0 (L.reports.map Report.measure)

/-- What holds of the reports in every run. -/
structure ValueInv (L : Line) : Prop extends Inv L where
  events : L.EventsInOrder
  taken : L.taken = L.reports.filterMap Report.record ++ L.pc.record.toList
  dis : L.DisHeld
  said : L.reports.map Report.dis = heldAll 0 (L.reports.map Report.measure)

namespace ValueInv

lemma init (l : PosList) (memory : Buffer → PositionArray) : (Line.init l memory).ValueInv where
  toInv := .init l memory
  events := rfl
  taken := rfl
  dis := rfl
  said := rfl

/-- A report is posted with what `dis` holds. -/
lemma report (h : L.ValueInv) {k : UInt32} {e : Event} {r : Option Stored}
    (hp : L.pc = .report e r) (hinv : (L.postReport k e r).Inv)
    (hev : (L.postReport k e r).EventsInOrder) : (L.postReport k e r).ValueInv := by
  have hmeasure : (L.postReport k e r).reports.map Report.measure =
      L.reports.map Report.measure ++ [r.map fun r => calcDis L.cur r.sample] :=
    List.map_append
  have hdis : L.dis = held 0 ((L.postReport k e r).reports.map Report.measure) := by
    have hold := h.dis
    rw [hmeasure, held_append]
    cases r with
    | none => simpa [DisHeld, hp] using hold
    | some r => simpa [DisHeld, hp] using hold
  refine ⟨hinv, hev, ?_, hdis, ?_⟩
  · have htaken := h.taken
    rw [hp] at htaken
    change L.taken = (L.reports ++ [_]).filterMap Report.record ++ []
    rw [htaken, List.filterMap_append, List.append_nil]
    cases r <;> rfl
  · rw [hmeasure, heldAll_append, ← hmeasure, ← hdis, ← h.said]
    exact List.map_append

/-- Every step keeps it. -/
theorem step (h : L.ValueInv) (hs : Step l L a L') : L'.ValueInv := by
  have hinv := h.toInv.step hs
  have hev := h.events.step hs
  have htaken := h.taken
  have hdis := h.dis
  cases hs with
  | store | produce | fill | link | event | post | command =>
    exact ⟨hinv, hev, htaken, hdis, h.said⟩
  | pend e rest hp hm =>
    refine ⟨hinv, hev, ?_, ?_, h.said⟩
    · simpa [pend, hp, DisPc.record] using htaken
    · simpa [DisHeld, pend, hp] using hdis
  | empty e hp hl =>
    refine ⟨hinv, hev, ?_, ?_, h.said⟩
    · simpa [goto, hp, DisPc.record] using htaken
    · simpa [DisHeld, goto, hp] using hdis
  | notEmpty e hp hl =>
    refine ⟨hinv, hev, ?_, ?_, h.said⟩
    · simpa [goto, hp, DisPc.record] using htaken
    · simpa [DisHeld, goto, hp] using hdis
  | plist e p rest hp hl =>
    refine ⟨hinv, hev, ?_, ?_, h.said⟩
    · simpa [goto, hp, DisPc.record] using htaken
    · simpa [DisHeld, goto, hp] using hdis
  | compute e p hp =>
    refine ⟨hinv, hev, ?_, trivial, h.said⟩
    simpa [compute, hp, DisPc.record] using htaken
  | delete e p hp =>
    -- `dis` was computed from the head, which is the record that leaves the list
    refine ⟨hinv, hev, ?_, h.computed e p hp, h.said⟩
    simpa [delete, hp, DisPc.record] using htaken
  | recycle e p r hp =>
    refine ⟨hinv, hev, ?_, ?_, h.said⟩
    · simpa [recycle, hp, DisPc.record] using htaken
    · simpa [DisHeld, recycle, hp] using hdis
  | report e r hp => exact h.report hp hinv hev

end ValueInv

/-! ### What was read and what was posted -/

/-- What the position task has read for the event at hand is what was posted with it. -/
def CurIntact (L : Line) : Prop :=
  match L.pc with
  | .computed e _ => L.cur = e.stamp
  | .deleted e _ _ => L.cur = e.stamp
  | .report e (some _) => L.cur = e.stamp
  | _ => True

/-- Every report that has a record was made with what was posted with its event. -/
structure AsPosted (L : Line) : Prop where
  cur : L.CurIntact
  reports : ∀ rep ∈ L.reports, rep.record.isSome → rep.cur = rep.event.stamp

lemma AsPosted.step (h : L.AsPosted) (hs : Step l L a L') (hread : a = .dis l → L.ReadsIntact) :
    L'.AsPosted := by
  have hcur := h.cur
  cases hs with
  | store | produce | fill | link | event | post | command => exact ⟨hcur, h.reports⟩
  | pend | empty | notEmpty | plist => exact ⟨trivial, h.reports⟩
  | compute e p hp => exact ⟨hread rfl e (by simp [hp, DisPc.reads]), h.reports⟩
  | delete e p hp => exact ⟨by simpa [CurIntact, delete, hp] using hcur, h.reports⟩
  | recycle e p r hp => exact ⟨by simpa [CurIntact, recycle, hp] using hcur, h.reports⟩
  | report e r hp =>
    refine ⟨trivial, fun rep hrep hsome => ?_⟩
    rcases List.mem_append.1 hrep with hold | hnew
    · exact h.reports rep hold hsome
    · obtain rfl := List.mem_singleton.1 hnew
      cases r with
      | none => exact absurd hsome Bool.false_ne_true
      | some r => simpa [CurIntact, hp] using hcur

end Line

/-! ## The samples of the distance tests -/

/-- What is stored of a sample. -/
def Stored.key (r : Stored) : UInt32 × UInt64 := (r.sample.count, r.sample.wheelCode)

/-- What a producer stores of a sample. -/
def Reference.key : Reference → Option (UInt32 × UInt64)
  | .sample count wheelCode => some (count, wheelCode)
  | .kick _ _ => none

/-- What a sample frame brings. -/
def Label.sampled : Label → Option (UInt32 × UInt64)
  | .sample count wheelCode => some (count, wheelCode)
  | _ => none

/-- The part of the state that the samples of a distance test pass through. -/
structure Kt where
  prod : ProdPc
  stored : List Stored

namespace Kt

/-- What can happen to them. -/
inductive Step (v : Kt) : Label → Kt → Prop
  | other (a : Label) : Step v a v
  | store (count : UInt32) (wheelCode : UInt64) : v.prod = .idle →
      Step v (.sample count wheelCode) { v with prod := .produce (.sample count wheelCode) }
  | produce (a : Label) (r : Reference) (b : Buffer) : v.prod = .produce r →
      Step v a { v with prod := r.held b }
  | fill (a : Label) (r : Reference) (b : Buffer) : v.prod = .fill r b →
      Step v a { v with prod := .link r b }
  | link (a : Label) (r : Reference) (b : Buffer) (x : SamplePosition) (session : ℕ) :
      v.prod = .link r b →
      Step v a { v with
        prod := .idle
        stored := v.stored ++ [{ buf := b, sample := r.fill x, session := session }] }

/-- The samples stored and the one at hand are, in their order, some of those that frames have
brought. -/
structure FromSamples (v : Kt) (asked : List (UInt32 × UInt64)) : Prop where
  sample : ∀ r ∈ v.prod.ref, ∃ count wheelCode, r = .sample count wheelCode
  order : (v.stored.map Stored.key ++ (v.prod.ref.bind Reference.key).toList).Sublist asked

variable {v v' : Kt} {asked : List (UInt32 × UInt64)} {a : Label}

lemma FromSamples.step (h : v.FromSamples asked) (hs : Step v a v') :
    v'.FromSamples (asked ++ a.sampled.toList) := by
  obtain ⟨hsample, horder⟩ := h
  have hgrows : asked.Sublist (asked ++ a.sampled.toList) := List.sublist_append_left _ _
  cases hs with
  | other => exact ⟨hsample, horder.trans hgrows⟩
  | store count w hp =>
    refine ⟨?_, ?_⟩
    · rintro r ⟨⟩
      exact ⟨count, w, rfl⟩
    · have hold : (v.stored.map Stored.key).Sublist asked := by
        simpa [hp, ProdPc.ref] using horder
      exact hold.append (.refl _)
  | produce _ r b hp =>
    have hsame : (r.held b).ref = v.prod.ref := by rw [ref_held, hp, ProdPc.ref]
    refine ⟨?_, ?_⟩
    · change ∀ r' ∈ (r.held b).ref, _
      rwa [hsame]
    · change (v.stored.map Stored.key ++ ((r.held b).ref.bind _).toList).Sublist _
      rw [hsame]
      exact horder.trans hgrows
  | fill _ r b hp =>
    refine ⟨by simpa [hp, ProdPc.ref] using hsample, ?_⟩
    simpa [hp, ProdPc.ref] using horder.trans hgrows
  | link _ r b x session hp =>
    obtain ⟨count, w, rfl⟩ := hsample r (by simp [hp, ProdPc.ref])
    refine ⟨by simp [ProdPc.ref], ?_⟩
    have hold := horder.trans hgrows
    simpa [hp, ProdPc.ref, Reference.key, Stored.key, Reference.fill] using hold

end Kt

namespace State

variable {s s' : State} {a : Label} {n : Station}

/-- The samples of a distance test. -/
def kt (s : State) (n : Station) : Kt where
  prod := (s.line (.c1Kt n)).prod
  stored := (s.line (.c1Kt n)).stored

/-- A change of a test that keeps its producer and what it has stored. -/
lemma kt_setLine {l : PosList} {L : Line} (hp : L.prod = (s.line l).prod)
    (hst : L.stored = (s.line l).stored) : (s.setLine l L).kt n = s.kt n := by
  by_cases hl : .c1Kt n = l
  · subst hl
    rw [kt, line_setLine_self, hp, hst, kt]
  · rw [kt, line_setLine_of_ne hl, kt]

lemma kt_setLine_of_ne {l : PosList} {L : Line} (h : .c1Kt n ≠ l) :
    (s.setLine l L).kt n = s.kt n := by
  rw [kt, line_setLine_of_ne h, kt]

/-- Inversion of a step for the samples of a distance test. -/
lemma kt_step (h : s.step a = some s') (n : Station) : Kt.Step (s.kt n) a (s'.kt n) := by
  have hother : s'.kt n = s.kt n → Kt.Step (s.kt n) a (s'.kt n) := by
    intro he
    rw [he]
    exact .other a
  cases a with
  | sample count w =>
    obtain ⟨hidle, ⟨⟩⟩ := Option.ite_none_right_eq_some.1 h
    have hstore : ∀ n', Kt.Step (s.kt n) (.sample count w)
        ((s.setLine (.c1Kt n') ((s.line (.c1Kt n')).store (.sample count w))).kt n) := by
      intro n'
      by_cases hn : n = n'
      · subst hn
        have hprod := Kt.Step.store (v := s.kt n) count w (hidle n)
        simpa [kt, Line.store] using hprod
      · rw [kt_setLine_of_ne (by simpa using hn)]
        exact .other _
    rw [recvSampleResult]
    split
    case isTrue => exact hstore .one
    case isFalse =>
      split
      case isTrue => exact hstore .two
      case isFalse => exact .other _
  | recv n' =>
    obtain ⟨L, hL, rfl⟩ := Option.map_eq_some_iff.1 h
    by_cases hn : n = n'
    · subst hn
      rw [Line.stepProd] at hL
      split at hL
      case h_1 => cases hL
      case h_2 r hp =>
        obtain ⟨⟨b, f⟩, -, rfl⟩ := Option.map_eq_some_iff.1 hL
        have hprod := Kt.Step.produce (v := s.kt n) (.recv n) r b hp
        simpa [kt, Line.produced] using hprod
      case h_3 r b hp =>
        cases hL
        have hfill := Kt.Step.fill (v := s.kt n) (.recv n) r b hp
        simpa [kt, Line.fillWith] using hfill
      case h_4 r b hp =>
        cases hL
        have hlink := Kt.Step.link (v := s.kt n) (.recv n) r b
          ((s.line (.c1Kt n)).buf.memory b).sample (s.line (.c1Kt n)).session hp
        simpa [kt, Line.linked] using hlink
    · exact hother (kt_setLine_of_ne (by simpa using hn))
  | posTest k =>
    obtain ⟨-, ⟨⟩⟩ := Option.ite_none_right_eq_some.1 h
    refine hother ?_
    by_cases hk : item (.c1Kt n) = k <;> simp [kt, recvPosTestCmd, Line.command, hk]
  | reset =>
    obtain ⟨-, ⟨⟩⟩ := Option.ite_none_right_eq_some.1 h
    exact hother rfl
  | kick n' w =>
    obtain ⟨-, ⟨⟩⟩ := Option.ite_none_right_eq_some.1 h
    refine hother ?_
    rw [event]
    split <;> first | exact kt_setLine rfl rfl | rfl
  | feedback n' t =>
    obtain ⟨-, ⟨⟩⟩ := Option.ite_none_right_eq_some.1 h
    refine hother ?_
    rw [event]
    split <;> first | exact kt_setLine rfl rfl | rfl
  | cmd n' t =>
    obtain ⟨-, ⟨⟩⟩ := Option.ite_none_right_eq_some.1 h
    refine hother ?_
    rw [command]
    split <;> rfl
  | isr n' =>
    refine hother ?_
    simp only [step, stepIsr] at h
    split at h
    case h_1 =>
      cases h
      rfl
    case h_2 | h_3 =>
      cases h
      exact kt_setLine rfl rfl
    case h_4 => cases h
  | writeKp n' =>
    refine hother ?_
    simp only [step, stepWriteKp] at h
    split at h
    case h_1 => cases h
    case h_2 =>
      cases h
      exact kt_setLine_of_ne (s := s) (by simp)
    case h_3 =>
      cases h
      exact kt_setLine_of_ne (by simp)
    case h_4 =>
      obtain ⟨L, -, rfl⟩ := Option.map_eq_some_iff.1 h
      exact kt_setLine_of_ne (by simp)
  | dis l =>
    obtain ⟨L, hL, rfl⟩ := Option.map_eq_some_iff.1 h
    obtain ⟨hp, hst, -⟩ := Line.stepDis_prod hL
    exact hother (kt_setLine hp hst)

end State

/-! ## Messages that are read as they were posted -/

/-- Whatever task moves reads its message as it was posted. -/
def AllIntact (s : State) : Label → Prop
  | .dis l => (s.line l).ReadsIntact
  | .writeKp n => (s.kp n).ReadsIntact
  | _ => True

/-- What was read of the messages is what was posted, and the kick commands are stored in order. -/
structure State.AsPosted (s : State) : Prop where
  line : ∀ l, (s.line l).AsPosted
  kp : ∀ n, (s.kp n).InOrder

lemma State.asPosted_init (memory : PosList → Buffer → PositionArray) : (init memory).AsPosted where
  line _ := ⟨trivial, by simp [init, Line.init]⟩
  kp _ := ⟨by rintro r ⟨⟩, rfl⟩

lemma State.AsPosted.step {s s' : State} {a : Label} (h : s.AsPosted) (hok : AllIntact s a)
    (hs : s.step a = some s') : s'.AsPosted where
  line l := by
    rcases State.line_step hs l with hl | hl
    · rw [hl]
      exact h.line l
    · refine (h.line l).step hl ?_
      rintro rfl
      exact hok
  kp n := by
    rcases State.kp_step (n := n) hs with hkp | hkp
    · rw [hkp]
      exact h.kp n
    · refine (h.kp n).step hkp ?_
      rintro rfl
      exact hok

/-! ## Runs -/

variable {memory : PosList → Buffer → PositionArray} {s : State} {ls : List Label}

lemma valueInv_exec (h : exec State.step (init memory) ls = some s) (l : PosList) :
    (s.line l).ValueInv :=
  line_invariant (reach_any ls h) (.init l (memory l)) fun _ _ _ _ hI hs => hI.step hs

lemma fromSamples_exec (h : exec State.step (init memory) ls = some s) (n : Station) :
    (s.kt n).FromSamples (ls.filterMap Label.sampled) := by
  let I : List Label → State → Prop := fun ls s => (s.kt n).FromSamples (ls.filterMap Label.sampled)
  have h0 : I [] (init memory) := ⟨by rintro r ⟨⟩, .refl _⟩
  refine exec_history (I := I) (fun as s a s' hI hs => ?_) h0 h
  have hstep := hI.step (State.kt_step hs n)
  change (s'.kt n).FromSamples ((as ++ [a]).filterMap Label.sampled)
  rw [List.filterMap_append]
  cases ha : a.sampled <;> simpa [ha] using hstep

end RejectProcess.Position
