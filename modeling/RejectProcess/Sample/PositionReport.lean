import Mathlib.Data.List.Forall2
import RejectProcess.Sample.PositionPool

/-!
# What the position reports are made from

A report should tell the distance or the time between its event and one record of the list, and no
record should serve two reports.  The position task posts its report behind the test of
`list_empty`, whatever the outcome: when the list is empty, the report has the `dis` of the report
before.  And it measures what it reads through the message, which the next event may have
overwritten.  As long as every test finds a record and every message is read intact, all reports
are backed by a record.
-/

namespace RejectProcess.Position

open Lib Publish

/-- The event the position task is at. -/
def DisPc.event : DisPc → Option Event
  | .idle => none
  | .pended e => some e
  | .notEmpty e => some e
  | .plist e _ => some e
  | .computed e _ => some e
  | .deleted e _ _ => some e
  | .report e _ => some e

/-- The record the position task has taken and not yet reported. -/
def DisPc.record : DisPc → Option Stored
  | .deleted _ _ r => some r
  | .report _ r => r
  | _ => none

/-- The event whose message the position task reads in its next step. -/
def DisPc.reads : DisPc → Option Event
  | .plist e _ => some e
  | _ => none

/-- The position task is before its test of `list_empty`. -/
def DisPc.atTest : DisPc → Bool
  | .pended _ => true
  | _ => false

/-- The report is the measurement of its event against `r`. -/
def Report.For (rep : Report) (r : Stored) : Prop :=
  rep.record = some r ∧ rep.dis = calcDis rep.event.stamp r.sample

namespace Line

/-- The reports of a test are measurements: each is for an event of its own and a record of its
own, which was stored in the list and taken from it. -/
structure Backed (L : Line) : Prop where
  records : ∃ recs, recs <+: L.taken ∧ List.Forall₂ Report.For L.reports recs
  stored : L.taken <+: L.stored
  events : L.reports.map Report.event <+: L.events

/-- The events of a test, in order: those reported, the one at hand, those in the mailbox and the
one that is about to be posted. -/
def EventsInOrder (L : Line) : Prop :=
  L.events = L.reports.map Report.event ++ L.pc.event.toList ++ L.mbx ++ L.coming.toList

/-- What the position task reads in its next step, if it reads a message, is what that message was
posted with. -/
def ReadsIntact (L : Line) : Prop := ∀ e ∈ L.pc.reads, L.payload = e.stamp

instance (L : Line) : Decidable L.ReadsIntact :=
  inferInstanceAs (Decidable (∀ e ∈ L.pc.reads, L.payload = e.stamp))

/-- What holds of the reports while every test of `list_empty` has found a record and every message
was read intact. -/
structure ReportInv (L : Line) : Prop extends Inv L where
  events : L.EventsInOrder
  read : ∀ e p, L.pc = .computed e p → L.cur = e.stamp
  records : ∃ recs, L.taken = recs ++ L.pc.record.toList ∧ List.Forall₂ Report.For L.reports recs
  dis : ∀ e r, L.pc.event = some e → L.pc.record = some r → L.dis = calcDis e.stamp r.sample
  found : ∀ e, L.pc ≠ .report e none

variable {L L' : Line} {l : PosList} {a : Label}

/-- A step moves an event on, and forgets none. -/
lemma EventsInOrder.step (h : L.EventsInOrder) (hs : Step l L a L') : L'.EventsInOrder := by
  unfold EventsInOrder at h ⊢
  cases hs with
  | store | produce | fill | link => exact h
  | event _ st hc => simp [Line.event, h, hc]
  | post _ e hc => simp [Line.post, h, hc]
  | command => exact h
  | pend e rest hp hm => simp [pend, h, hp, hm, DisPc.event]
  | empty e hp => simp [goto, h, hp, DisPc.event]
  | notEmpty e hp => simp [goto, h, hp, DisPc.event]
  | plist e p rest hp => simp [goto, h, hp, DisPc.event]
  | compute e p hp => simp [compute, h, hp, DisPc.event]
  | delete e p hp => simp [delete, h, hp, DisPc.event]
  | recycle e p r hp => simp [recycle, h, hp, DisPc.event]
  | report e r hp => simp [postReport, h, hp, DisPc.event]

namespace ReportInv

lemma init (l : PosList) (memory : Buffer → PositionArray) : (Line.init l memory).ReportInv where
  toInv := .init l memory
  events := rfl
  read := by simp [Line.init]
  records := ⟨[], rfl, .nil⟩
  dis := by simp [Line.init, DisPc.event]
  found := by simp [Line.init]

/-- A step after which the position task holds the same record as before, and has reported
nothing. -/
lemma frame (h : L.ReportInv) (hinv : L'.Inv) (hev : L'.EventsInOrder) (htaken : L'.taken = L.taken)
    (hreports : L'.reports = L.reports) (hrecord : L'.pc.record = L.pc.record)
    (hread : ∀ e p, L'.pc = .computed e p → L'.cur = e.stamp)
    (hdis : ∀ e r, L'.pc.event = some e → L'.pc.record = some r → L'.dis = calcDis e.stamp r.sample)
    (hfound : ∀ e, L'.pc ≠ .report e none) : L'.ReportInv where
  toInv := hinv
  events := hev
  read := hread
  records := by
    rw [htaken, hreports, hrecord]
    exact h.records
  dis := hdis
  found := hfound

/-- The record is taken for the event that `dis` was computed from. -/
lemma delete (h : L.ReportInv) {e : Event} {p : Buffer} (hp : L.pc = .computed e p)
    (hinv : (L.delete e p).Inv) (hev : (L.delete e p).EventsInOrder) :
    (L.delete e p).ReportInv where
  toInv := hinv
  events := hev
  read := by simp [Line.delete]
  records := by
    obtain ⟨recs, htaken, hall⟩ := h.records
    refine ⟨recs, ?_, hall⟩
    simp [Line.delete, htaken, hp, DisPc.record]
  dis := by
    intro e' r he hr
    obtain rfl : e = e' := by simpa [Line.delete, DisPc.event] using he
    obtain rfl : L.record p = r := by simpa [Line.delete, DisPc.record] using hr
    change L.dis = calcDis e.stamp (L.record p).sample
    rw [← h.read e p hp]
    exact h.computed e p hp
  found := by simp [Line.delete]

/-- The report that is posted is for the record that was taken. -/
lemma report (h : L.ReportInv) {k : UInt32} {e : Event} {r : Stored}
    (hp : L.pc = .report e (some r)) (hinv : (L.postReport k e (some r)).Inv)
    (hev : (L.postReport k e (some r)).EventsInOrder) :
    (L.postReport k e (some r)).ReportInv where
  toInv := hinv
  events := hev
  read := by simp [postReport]
  records := by
    obtain ⟨recs, htaken, hall⟩ := h.records
    have hdis : L.dis = calcDis e.stamp r.sample :=
      h.dis e r (by simp [hp, DisPc.event]) (by simp [hp, DisPc.record])
    refine ⟨recs ++ [r], ?_, ?_⟩
    · simp [postReport, htaken, hp, DisPc.record]
    · exact List.rel_append hall (.cons ⟨rfl, hdis⟩ .nil)
  dis := by simp [postReport, DisPc.record]
  found := by simp [postReport]

/-- A step keeps the reports backed, unless it is a test that finds the list empty or a read of a
message that is not intact. -/
theorem step (h : L.ReportInv) (hs : Step l L a L')
    (hok : a = .dis l → L.pc.atTest → L.list ≠ []) (hread : a = .dis l → L.ReadsIntact) :
    L'.ReportInv := by
  have hinv := h.toInv.step hs
  have hev := h.events.step hs
  cases hs with
  | store | produce | fill | link | event | post | command =>
    exact h.frame hinv hev rfl rfl rfl h.read h.dis h.found
  | pend e rest hp hm =>
    exact h.frame hinv hev rfl rfl (by simp [pend, hp, DisPc.record]) (by simp [pend])
      (by simp [pend, DisPc.record]) (by simp [pend])
  | empty e hp hl => exact absurd hl (hok rfl (by simp [hp, DisPc.atTest]))
  | notEmpty e hp hl =>
    exact h.frame hinv hev rfl rfl (by simp [goto, hp, DisPc.record]) (by simp [goto])
      (by simp [goto, DisPc.record]) (by simp [goto])
  | plist e p rest hp hl =>
    exact h.frame hinv hev rfl rfl (by simp [goto, hp, DisPc.record]) (by simp [goto])
      (by simp [goto, DisPc.record]) (by simp [goto])
  | compute e p hp =>
    refine h.frame hinv hev rfl rfl (by simp [compute, hp, DisPc.record]) ?_
      (by simp [compute, DisPc.record]) (by simp [compute])
    rintro e' p' ⟨⟩
    exact hread rfl e (by simp [hp, DisPc.reads])
  | delete e p hp => exact h.delete hp hinv hev
  | recycle e p r hp =>
    refine h.frame hinv hev rfl rfl (by simp [recycle, hp, DisPc.record]) (by simp [recycle]) ?_
      (by simp [recycle])
    intro e' r' he hr
    exact h.dis e' r' (by simpa [recycle, hp, DisPc.event] using he)
      (by simpa [recycle, hp, DisPc.record] using hr)
  | report e r hp =>
    cases r with
    | none => exact absurd hp (h.found e)
    | some r => exact h.report hp hinv hev

lemma backed (h : L.ReportInv) : L.Backed where
  records := by
    obtain ⟨recs, htaken, hall⟩ := h.records
    exact ⟨recs, ⟨_, htaken.symm⟩, hall⟩
  stored := ⟨_, h.order.symm⟩
  events := ⟨_, by rw [h.events, List.append_assoc, List.append_assoc]⟩

end ReportInv

/-- A backed report has a record. -/
lemma Backed.exists_record (h : L.Backed) {rep : Report} (hrep : rep ∈ L.reports) :
    ∃ r, rep.record = some r := by
  obtain ⟨recs, -, hall⟩ := h.records
  obtain ⟨i, hi, rfl⟩ := List.getElem_of_mem hrep
  have hlen : i < recs.length := hall.length_eq ▸ hi
  exact ⟨recs[i], (List.forall₂_iff_get.1 hall).2 i hi hlen |>.1⟩

/-- A test that finds the list empty ends in a report that no record backs. -/
theorem not_backed_of_empty {e : Event} (hp : L.pc = .pended e) (hl : L.list = []) (k : UInt32) :
    ∃ L', (L.stepDis k).bind (fun L₁ => L₁.stepDis k) = some L' ∧ ¬ L'.Backed := by
  refine ⟨(L.goto (.report e none)).postReport k e none, ?_, fun h => ?_⟩
  · simp [stepDis, hp, hl, goto]
  · obtain ⟨r, hr⟩ := h.exists_record (List.mem_append_right _ List.mem_cons_self)
    cases hr

end Line

/-- The position task of `l` finds a record whenever it looks for one. -/
def FindsRecord (l : PosList) (s : State) (a : Label) : Prop :=
  a = .dis l → (s.line l).pc.atTest → (s.line l).list ≠ []

instance (l : PosList) (s : State) (a : Label) : Decidable (FindsRecord l s a) :=
  inferInstanceAs (Decidable (_ → _ → _))

/-- The position task of `l` reads its messages as they were posted. -/
def Intact (l : PosList) (s : State) (a : Label) : Prop := a = .dis l → (s.line l).ReadsIntact

instance (l : PosList) (s : State) (a : Label) : Decidable (Intact l s a) :=
  inferInstanceAs (Decidable (_ → _))

/-- Test 2: a sample is stored, and its product passes. -/
def onePass : List Label :=
  [.posTest 2, .sample 1 100, .recv .one, .recv .one, .kick .one 250, .isr .one]
    ++ List.replicate 7 (.dis (.c1Kt .one))

def afterOnePass : State := (exec State.step (init zeroMemory) onePass).getD (init zeroMemory)

/-- Then a product passes for which no sample was stored. -/
def passWithoutSample : List Label :=
  onePass ++ [.kick .one 900, .isr .one] ++ List.replicate 3 (.dis (.c1Kt .one))

def afterPassWithoutSample : State :=
  (exec State.step (init zeroMemory) passWithoutSample).getD (init zeroMemory)

/-- Test 2: two samples are stored and both products pass before the position task runs. -/
def twoPasses : List Label :=
  [.posTest 2, .sample 1 100, .recv .one, .recv .one, .sample 2 300, .recv .one,
    .recv .one, .kick .one 250, .isr .one, .kick .one 500, .isr .one]
    ++ List.replicate 14 (.dis (.c1Kt .one))

/-- The first report is then made with the wheel code of the second product. -/
example : (exec State.step (init zeroMemory) twoPasses).map
    (fun s => (s.line (.c1Kt .one)).reports.map Report.dis) = some [400, 200] := by decide +kernel

end RejectProcess.Position
