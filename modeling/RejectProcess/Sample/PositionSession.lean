import RejectProcess.Sample.PositionPool

/-!
# The sessions of a position test

A test command that selects a test, and a reset, begin a new session of it: an event of the new
session should not be measured against a record from before.  Neither of them empties the list,
as `clear_array` does with the sample lists.  An old record stays away from the new events as long
as every record in the list has its event on the way when a session begins.
-/

namespace RejectProcess.Position

open Lib Publish

/-- The event for which the position task has not yet taken a record. -/
def DisPc.waiting : DisPc → Option Event
  | .pended e => some e
  | .notEmpty e => some e
  | .plist e _ => some e
  | .computed e _ => some e
  | _ => none

namespace Line

/-- No report pairs an event with a record from an earlier session. -/
def Isolated (L : Line) : Prop :=
  ∀ rep ∈ L.reports, ∀ r, rep.record = some r → rep.event.session ≤ r.session

/-- The events that are still to take a record, in the order in which they will. -/
def waiting (L : Line) : List Event := L.pc.waiting.toList ++ L.mbx ++ L.coming.toList

/-- The session of the event that comes i-th to the list: of an event that is on its way, or of
one that is yet to occur. -/
def due (L : Line) (i : ℕ) : ℕ := (L.waiting[i]?.map Event.session).getD L.session

/-- What keeps the reports isolated. -/
structure SessionInv (L : Line) : Prop extends Inv L where
  isolated : L.Isolated
  past : ∀ e ∈ L.waiting, e.session ≤ L.session
  /-- The i-th record of the list is not older than the i-th event that comes to it. -/
  matched : ∀ (i : ℕ) p, L.list[i]? = some p → L.due i ≤ (L.record p).session
  inHand : ∀ e p r, L.pc = .deleted e p r → e.session ≤ r.session
  reporting : ∀ e r, L.pc = .report e (some r) → e.session ≤ r.session

variable {L L' : Line} {l : PosList} {a : Label}

lemma due_of_waiting (hw : L'.waiting = L.waiting) (hs : L'.session = L.session) (i : ℕ) :
    L'.due i = L.due i := by
  simp only [due, hw, hs]

namespace SessionInv

lemma init (l : PosList) (memory : Buffer → PositionArray) : (Line.init l memory).SessionInv where
  toInv := .init l memory
  isolated := by simp [Isolated, Line.init]
  past := by simp [waiting, Line.init, DisPc.waiting]
  matched := by simp [Line.init]
  inHand := by simp [Line.init]
  reporting := by simp [Line.init]

/-- Whatever comes to the list is of this session or an earlier one. -/
lemma due_le (h : L.SessionInv) (i : ℕ) : L.due i ≤ L.session := by
  unfold due
  cases hi : L.waiting[i]? with
  | none => simp
  | some e => simpa using h.past e (List.mem_of_getElem? hi)

/-- A step that leaves the list, its records and the waiting events as they are. -/
lemma frame (h : L.SessionInv) (hinv : L'.Inv) (hlist : L'.list = L.list)
    (hrec : L'.record = L.record) (hw : L'.waiting = L.waiting) (hs : L'.session = L.session)
    (hreports : L'.reports = L.reports)
    (hhand : ∀ e p r, L'.pc = .deleted e p r → e.session ≤ r.session)
    (hreporting : ∀ e r, L'.pc = .report e (some r) → e.session ≤ r.session) : L'.SessionInv where
  toInv := hinv
  isolated := by
    unfold Isolated
    rw [hreports]
    exact h.isolated
  past := by
    rw [hw, hs]
    exact h.past
  matched := by
    intro i p hi
    rw [hlist] at hi
    rw [due_of_waiting hw hs, hrec]
    exact h.matched i p hi
  inHand := hhand
  reporting := hreporting

/-- A record that is stored now is not older than any event. -/
lemma linked (h : L.SessionInv) {r : Reference} {b : Buffer} (hp : L.prod = .link r b)
    (hinv : (L.linked r b).Inv) : (L.linked r b).SessionInv where
  toInv := hinv
  isolated := h.isolated
  past := h.past
  matched := by
    have hlist := (h.hand_not_mem hp).1
    intro i p hi
    have hdue : (L.linked r b).due i = L.due i := due_of_waiting rfl rfl i
    rw [hdue]
    simp only [Line.linked, record] at hi ⊢
    rcases Nat.lt_or_ge i L.list.length with hlt | hge
    · rw [List.getElem?_append_left hlt] at hi
      have hne : p ≠ b := fun hpb => hlist (hpb ▸ List.mem_of_getElem? hi)
      rw [Function.update_of_ne hne]
      exact h.matched i p hi
    · obtain rfl : p = b := by
        rw [List.getElem?_append_right hge, List.getElem?_singleton] at hi
        grind
      rw [Function.update_self]
      exact h.due_le i
  inHand := h.inHand
  reporting := h.reporting

/-- An event of the session is not ahead of it. -/
lemma event (h : L.SessionInv) {st : Stamp} (hc : L.coming = none) (hinv : (L.event st).Inv) :
    (L.event st).SessionInv where
  toInv := hinv
  isolated := h.isolated
  past := by
    intro e he
    simp only [waiting, Line.event, Option.toList_some, List.mem_append, List.mem_singleton] at he
    rcases he with he | rfl
    · exact h.past e (by simpa [waiting, hc] using he)
    · exact Nat.le_refl _
  matched := by
    intro i p hi
    refine Nat.le_trans ?_ (h.matched i p hi)
    have hw : (L.event st).waiting = L.waiting ++ [{ stamp := st, session := L.session }] := by
      simp [waiting, Line.event, hc]
    unfold due
    rw [hw]
    rcases Nat.lt_trichotomy i L.waiting.length with hlt | rfl | hgt
    · rw [List.getElem?_append_left hlt]
      rfl
    · simp
    · rw [List.getElem?_eq_none (by simp; omega), List.getElem?_eq_none hgt.le]
      rfl
  inHand := h.inHand
  reporting := h.reporting

/-- A new session begins with an event on the way for every record in the list. -/
lemma command (h : L.SessionInv) (hlen : L.list.length ≤ L.waiting.length)
    (hinv : L.command.Inv) : L.command.SessionInv where
  toInv := hinv
  isolated := h.isolated
  past := fun e he => Nat.le_succ_of_le (h.past e he)
  matched := by
    intro i p hi
    have hlt : i < L.waiting.length :=
      Nat.lt_of_lt_of_le (List.getElem?_eq_some_iff.1 hi).1 hlen
    have hdue : L.command.due i = L.due i := by
      have hw : L.command.waiting = L.waiting := rfl
      simp [due, hw, hlt]
    rw [hdue]
    exact h.matched i p hi
  inHand := h.inHand
  reporting := h.reporting

/-- The first of the waiting events takes the first record. -/
lemma delete (h : L.SessionInv) {e : Event} {p : Buffer} (hp : L.pc = .computed e p)
    (hinv : (L.delete e p).Inv) : (L.delete e p).SessionInv := by
  obtain ⟨rest, hl⟩ := h.list_eq (p := p) (by rw [hp]; rfl)
  have hw : L.waiting = e :: (L.delete e p).waiting := by
    simp [waiting, Line.delete, hp, DisPc.waiting]
  refine ⟨hinv, h.isolated, ?_, ?_, ?_, ?_⟩
  · intro e' he'
    exact h.past e' (by rw [hw]; exact List.mem_cons_of_mem _ he')
  · intro i q hi
    have hdue : (L.delete e p).due i = L.due (i + 1) := by
      rw [due, due, hw, List.getElem?_cons_succ]
      rfl
    rw [hdue]
    refine h.matched (i + 1) q ?_
    rw [hl, List.getElem?_cons_succ]
    simpa [Line.delete, hl] using hi
  · intro e' p' r he
    obtain ⟨rfl, rfl, rfl⟩ : e = e' ∧ p = p' ∧ L.record p = r := by simpa [Line.delete] using he
    have hfirst := h.matched 0 p (by simp [hl])
    simpa [due, hw] using hfirst
  · simp [Line.delete]

/-- The report that is posted is for the event and the record at hand. -/
lemma report (h : L.SessionInv) {k : UInt32} {e : Event} {r : Option Stored}
    (hp : L.pc = .report e r) (hinv : (L.postReport k e r).Inv) :
    (L.postReport k e r).SessionInv := by
  have hw : (L.postReport k e r).waiting = L.waiting := by
    simp [waiting, postReport, hp, DisPc.waiting]
  refine ⟨hinv, ?_, ?_, ?_, by simp [postReport], by simp [postReport]⟩
  · intro rep hrep r' hr'
    rcases List.mem_append.1 hrep with hrep | hrep
    · exact h.isolated rep hrep r' hr'
    · obtain rfl := List.mem_singleton.1 hrep
      obtain rfl : r = some r' := hr'
      exact h.reporting e r' hp
  · rw [hw]
    exact h.past
  · intro i p hi
    rw [due_of_waiting hw rfl]
    exact h.matched i p hi

/-- A step keeps the reports isolated, unless a session begins with more records in the list than
events on the way. -/
theorem step (h : L.SessionInv) (hs : Step l L a L')
    (hok : a = .reset ∨ a = .posTest (item l) → L.list.length ≤ L.waiting.length) :
    L'.SessionInv := by
  have hinv := h.toInv.step hs
  cases hs with
  | store => exact h.frame hinv rfl rfl rfl rfl rfl h.inHand h.reporting
  | produce _ r b f hp hf =>
    have hrec : (L.produced r b f).record = L.record := by
      funext b'
      simp only [record, produced, (BufferFactory.produce_eq_some.1 hf).2]
    exact h.frame hinv rfl hrec rfl rfl rfl h.inHand h.reporting
  | fill => exact h.frame hinv rfl rfl rfl rfl rfl h.inHand h.reporting
  | link _ r b hp => exact h.linked hp hinv
  | event _ st hc => exact h.event hc hinv
  | post _ e hc =>
    exact h.frame hinv rfl rfl (by simp [waiting, post, hc]) rfl rfl h.inHand h.reporting
  | command _ ha => exact h.command (hok ha) hinv
  | pend e rest hp hm =>
    exact h.frame hinv rfl rfl (by simp [waiting, pend, hp, hm, DisPc.waiting]) rfl rfl
      (by simp [pend]) (by simp [pend])
  | empty e hp hl =>
    -- no record is left to be matched
    refine ⟨hinv, h.isolated, ?_, ?_, by simp [goto], by simp [goto]⟩
    · intro e' he'
      refine h.past e' ?_
      simp only [waiting, goto, hp, DisPc.waiting, List.mem_append] at he' ⊢
      grind
    · simp [goto, hl]
  | notEmpty e hp hl =>
    exact h.frame hinv rfl rfl (by simp [waiting, goto, hp, DisPc.waiting]) rfl rfl
      (by simp [goto]) (by simp [goto])
  | plist e p rest hp hl =>
    exact h.frame hinv rfl rfl (by simp [waiting, goto, hp, DisPc.waiting]) rfl rfl
      (by simp [goto]) (by simp [goto])
  | compute e p hp =>
    exact h.frame hinv rfl rfl (by simp [waiting, compute, hp, DisPc.waiting]) rfl rfl
      (by simp [compute]) (by simp [compute])
  | delete e p hp => exact h.delete hp hinv
  | recycle e p r hp =>
    refine h.frame hinv rfl rfl (by simp [waiting, recycle, hp, DisPc.waiting]) rfl rfl
      (by simp [recycle]) ?_
    rintro e' r' ⟨⟩
    exact h.inHand e p r hp
  | report e r hp => exact h.report hp hinv

end SessionInv

end Line

/-- A new session of test `l` begins only when every record in its list has its event on the
way. -/
def Settled (l : PosList) (s : State) (a : Label) : Prop :=
  a = .reset ∨ a = .posTest (item l) → (s.line l).list.length ≤ (s.line l).waiting.length

instance (l : PosList) (s : State) (a : Label) : Decidable (Settled l s a) :=
  inferInstanceAs (Decidable (_ → _))

/-- In a run in which every session of a test begins so, no report of it pairs an event with a
record from an earlier session. -/
theorem sessions_isolated (memory : PosList → Buffer → PositionArray) (l : PosList) (s : State)
    (h : Reach State.step (Settled l) (init memory) s) : (s.line l).Isolated := by
  have hinv : (s.line l).SessionInv :=
    line_invariant h (.init l (memory l)) fun _ _ _ hok hI hs => hI.step hs hok
  exact hinv.isolated

/-- Test 2 is selected again while the event of the only record is about to be posted. -/
def selectedAgain : List Label :=
  [.posTest 2, .sample 1 100, .recv .one, .recv .one, .kick .one 250, .posTest 2, .isr .one]
    ++ List.replicate 7 (.dis (.c1Kt .one))
    ++ [.sample 2 300, .recv .one, .recv .one, .kick .one 450, .isr .one]
    ++ List.replicate 7 (.dis (.c1Kt .one))

def afterSelectedAgain : State :=
  (exec State.step (init zeroMemory) selectedAgain).getD (init zeroMemory)

theorem sessions_isolated_selectedAgain : (afterSelectedAgain.line (.c1Kt .one)).Isolated :=
  sessions_isolated zeroMemory (.c1Kt .one) afterSelectedAgain
    (reach_of_exec selectedAgain (by decide +kernel) (exec_getD (by decide +kernel) _))

/-- A sample is stored, and the process is reset before its product passes. -/
def resetBetween : List Label :=
  [.posTest 2, .sample 1 100, .recv .one, .recv .one, .reset, .sample 2 5000, .recv .one,
    .recv .one, .kick .one 5150, .isr .one] ++ List.replicate 7 (.dis (.c1Kt .one))

def afterResetBetween : State :=
  (exec State.step (init zeroMemory) resetBetween).getD (init zeroMemory)

/-- Sessions are not isolated: the product that passes after the reset is reported with the sample
from before it. -/
theorem record_outlives_reset : ¬ ∀ (memory : PosList → Buffer → PositionArray) (s : State),
    Reach State.step AnyStep (init memory) s → ∀ l, (s.line l).Isolated := by
  intro h
  have hiso := h zeroMemory afterResetBetween
    (reach_any resetBetween (exec_getD (by decide +kernel) _)) (.c1Kt .one)
  have hold : ∃ rep ∈ (afterResetBetween.line (.c1Kt .one)).reports,
      rep.event.session = 2 ∧ rep.record.map Stored.session = some 1 := by
    decide +kernel
  obtain ⟨rep, hrep, hevent, hrecord⟩ := hold
  obtain ⟨r, hr, hsession⟩ := Option.map_eq_some_iff.1 hrecord
  have hle := hiso rep hrep r hr
  omega

end RejectProcess.Position
