import RejectProcess.Sample.PositionReport

/-!
# The pairing of kick commands and feedbacks

A kick command and its feedback reach their test through two mailboxes and two tasks: the command
becomes a record of the list, and the feedback takes the first record.  When the interrupt task
posts them in turn and both tasks read them as they were posted, the n-th report should tell the
time between the n-th command and the n-th feedback.  It does as long as the position task finds a
record for every feedback.  When it overtakes the task that stores the commands, the record it did not find is left for the next
feedback.
-/

namespace RejectProcess.Position

open Lib Publish

/-! ## The way of a command to its report -/

/-- A feedback at `f` comes after its command at `c`, by less than 2^31 microseconds. -/
def Follows (c f : Timeval) : Prop :=
  0 ≤ f.micros - c.micros ∧ f.micros - c.micros < 2 ^ 31

instance (c f : Timeval) : Decidable (Follows c f) := inferInstanceAs (Decidable (_ ∧ _))

/-- Such a time is reported in units of 50 microseconds. -/
lemma toNat_calcDis_time {f : Timeval} {x : SamplePosition} (h : Follows x.cTime f) :
    ((calcDis (.time f) x).toNat : ℤ) = (f.micros - x.cTime.micros) / 50 := by
  obtain ⟨h0, h1⟩ := h
  have hdiff : 1000000 * (f.tvSec - x.cTime.tvSec) + (f.tvUsec - x.cTime.tvUsec) =
      f.micros - x.cTime.micros := by
    unfold Timeval.micros
    omega
  have hconv : ((convertCalcTime f x.cTime).toNat : ℤ) = f.micros - x.cTime.micros := by
    rw [convertCalcTime, hdiff, UInt32.ofInt, UInt32.toNat_ofNat']
    omega
  rw [calcDis, UInt32.toNat_div]
  push_cast
  rw [hconv]

/-- The record a producer is at. -/
def ProdPc.ref : ProdPc → Option Reference
  | .idle => none
  | .produce r => some r
  | .fill r _ => some r
  | .link r _ => some r

@[simp] lemma ref_held (r : Reference) (b : Buffer) : (r.held b).ref = some r := by
  cases r <;> rfl

/-- The record that a producer fills in its next step, with what its message was posted with. -/
def ProdPc.filling : ProdPc → Option Reference
  | .fill r _ => some r
  | _ => none

/-- The time of a kick command. -/
def Reference.time : Reference → Option Timeval
  | .sample _ _ => none
  | .kick _ t => some t

/-- The part of the state that the kick commands of a station pass through, and the history of
their feedbacks. -/
structure Kp where
  time : Timeval
  coming : Option Timeval
  mbx : List Timeval
  cmds : List Timeval
  prod : ProdPc
  stored : List Stored
  feedbacks : List Stamp

namespace Kp

/-- What can happen to the commands and feedbacks of station `n`, while `pos_test_item` is `k`. -/
inductive Step (n : Station) (k : UInt32) (v : Kp) : Label → Kp → Prop
  | command (t : Timeval) : k = item (.kpKft n) → v.coming = none →
      Step n k v (.cmd n t) { v with time := t, coming := some t, cmds := v.cmds ++ [t] }
  | feedback (t : Timeval) : k = item (.kpKft n) →
      Step n k v (.feedback n t) { v with feedbacks := v.feedbacks ++ [.time t] }
  | post (t : Timeval) : v.coming = some t →
      Step n k v (.isr n) { v with coming := none, mbx := v.mbx ++ [t] }
  | store (count : UInt32) (t : Timeval) (rest : List Timeval) : v.prod = .idle →
      v.mbx = t :: rest →
      Step n k v (.writeKp n) { v with prod := .produce (.kick count t), mbx := rest }
  | produce (r : Reference) (b : Buffer) : v.prod = .produce r →
      Step n k v (.writeKp n) { v with prod := r.held b }
  | fill (r r' : Reference) (b : Buffer) : v.prod = .fill r b →
      (∀ count t, r = .kick count t → r' = .kick count v.time) →
      Step n k v (.writeKp n) { v with prod := .link r' b }
  | link (r : Reference) (b : Buffer) (x : SamplePosition) (session : ℕ) : v.prod = .link r b →
      Step n k v (.writeKp n) { v with
        prod := .idle
        stored := v.stored ++ [{ buf := b, sample := r.fill x, session := session }] }

/-- The commands in order: those stored, the one the write task is at, those in its mailbox and
the one that is about to be posted. -/
structure InOrder (v : Kp) : Prop where
  kick : ∀ r ∈ v.prod.ref, ∃ count t, r = .kick count t
  order : v.cmds = v.stored.map (fun r => r.sample.cTime) ++ (v.prod.ref.bind Reference.time).toList
    ++ v.mbx ++ v.coming.toList

/-- What the task that stores the commands reads in its next step, if it reads a message, is what
that message was posted with. -/
def ReadsIntact (v : Kp) : Prop := ∀ r ∈ v.prod.filling, ∀ t ∈ r.time, v.time = t

instance (v : Kp) : Decidable v.ReadsIntact :=
  inferInstanceAs (Decidable (∀ r ∈ v.prod.filling, ∀ t ∈ r.time, v.time = t))

variable {n : Station} {k : UInt32} {v v' : Kp} {a : Label}

lemma InOrder.step (h : v.InOrder) (hs : Step n k v a v')
    (hread : a = .writeKp n → v.ReadsIntact) : v'.InOrder := by
  obtain ⟨hkick, horder⟩ := h
  cases hs with
  | command t _ hc => exact ⟨hkick, by simp [horder, hc]⟩
  | feedback => exact ⟨hkick, horder⟩
  | post t hc => exact ⟨hkick, by simp [horder, hc]⟩
  | store count t rest hp hm =>
    refine ⟨?_, by simp [horder, hp, hm, ProdPc.ref, Reference.time]⟩
    rintro r ⟨⟩
    exact ⟨count, t, rfl⟩
  | produce r b hp =>
    have hsame : (r.held b).ref = v.prod.ref := by rw [ref_held, hp, ProdPc.ref]
    refine ⟨?_, ?_⟩
    · change ∀ r' ∈ (r.held b).ref, _
      rwa [hsame]
    · change v.cmds = _ ++ ((r.held b).ref.bind _).toList ++ v.mbx ++ v.coming.toList
      rwa [hsame]
  | fill r r' b hp hr =>
    obtain ⟨count, t, rfl⟩ := hkick r (by simp [hp, ProdPc.ref])
    have htime : v.time = t :=
      hread rfl (.kick count t) (by simp [hp, ProdPc.filling]) t (by simp [Reference.time])
    obtain rfl := hr count t rfl
    exact ⟨by simp [ProdPc.ref], by simp [horder, hp, ProdPc.ref, Reference.time, htime]⟩
  | link r b x session hp =>
    obtain ⟨count, t, rfl⟩ := hkick r (by simp [hp, ProdPc.ref])
    refine ⟨by simp [ProdPc.ref], ?_⟩
    simp [horder, hp, ProdPc.ref, Reference.time, Reference.fill]

/-- Every feedback has its command, the one that was given as many commands before it as there
were feedbacks. -/
def Timed (v : Kp) : Prop :=
  ∀ (i : ℕ) st, v.feedbacks[i]? = some st →
    ∃ c f, v.cmds[i]? = some c ∧ st = .time f ∧ Follows c f

lemma Timed.step (h : v.Timed) (hs : Step n k v a v')
    (hok : ∀ f, a = .feedback n f → k = item (.kpKft n) →
      v.cmds.length = v.feedbacks.length + 1 ∧ ∀ c ∈ v.cmds.getLast?, Follows c f) :
    v'.Timed := by
  cases hs with
  | command t =>
    intro i st hi
    obtain ⟨c, f, hc, rfl, hf⟩ := h i st hi
    refine ⟨c, f, ?_, rfl, hf⟩
    rw [List.getElem?_append_left (List.getElem?_eq_some_iff.1 hc).1]
    exact hc
  | feedback t hk =>
    obtain ⟨hlen, hlast⟩ := hok t rfl hk
    intro i st hi
    rcases Nat.lt_or_ge i v.feedbacks.length with hlt | hge
    · rw [List.getElem?_append_left hlt] at hi
      exact h i st hi
    · obtain ⟨rfl, rfl⟩ : i = v.feedbacks.length ∧ st = .time t := by
        rw [List.getElem?_append_right hge, List.getElem?_singleton] at hi
        grind
      obtain ⟨c, hc⟩ : ∃ c, v.cmds.getLast? = some c :=
        Option.isSome_iff_exists.1 (by simp [← List.length_pos_iff, hlen])
      refine ⟨c, t, ?_, rfl, hlast c hc⟩
      rw [List.getLast?_eq_getElem?, hlen] at hc
      exact hc
  | post => exact h
  | store => exact h
  | produce => exact h
  | fill => exact h
  | link => exact h

end Kp

namespace Line

variable {L L' : Line}

/-- The position task does not touch the producer, what it has stored and the events. -/
lemma stepDis_prod {k : UInt32} (h : L.stepDis k = some L') :
    L'.prod = L.prod ∧ L'.stored = L.stored ∧ L'.events = L.events := by
  rw [stepDis] at h
  repeat' split at h
  all_goals cases h <;> exact ⟨rfl, rfl, rfl⟩

end Line

namespace State

variable {s s' : State} {a : Label} {n : Station}

/-- The commands of a station. -/
def kp (s : State) (n : Station) : Kp where
  time := s.kpTime n
  coming := s.kpComing n
  mbx := s.kpMbx n
  cmds := s.cmds n
  prod := (s.line (.kpKft n)).prod
  stored := (s.line (.kpKft n)).stored
  feedbacks := (s.line (.kpKft n)).events.map Event.stamp

/-- A change of a test that keeps its producer, what it has stored and its events. -/
lemma kp_setLine {l : PosList} {L : Line} (hp : L.prod = (s.line l).prod)
    (hst : L.stored = (s.line l).stored) (he : L.events = (s.line l).events) :
    (s.setLine l L).kp n = s.kp n := by
  by_cases hl : .kpKft n = l
  · subst hl
    simp [kp, hp, hst, he, setLine]
  · simp [kp, setLine, Function.update_of_ne hl]

lemma kp_setLine_c1Kt {n' : Station} {L : Line} : (s.setLine (.c1Kt n') L).kp n = s.kp n := by
  simp [kp, setLine]

lemma kp_setLine_kpKft {n' : Station} {L : Line} (h : n ≠ n') :
    (s.setLine (.kpKft n') L).kp n = s.kp n := by
  have hne : PosList.kpKft n ≠ .kpKft n' := by simpa using h
  simp [kp, setLine, Function.update_of_ne hne]

/-- A kick command, while its test is selected. -/
lemma kp_command (t : Timeval) {n' : Station} (hidle : s.IsrIdle n') :
    (s.command n' t).kp n = s.kp n ∨
      Kp.Step n s.posTestItem (s.kp n) (.cmd n' t) ((s.command n' t).kp n) := by
  rw [command]
  split
  case isFalse => exact .inl rfl
  case isTrue hk =>
    by_cases hn : n = n'
    · subst hn
      right
      have hcmd := Kp.Step.command (v := s.kp n) t hk hidle.2.2
      simpa [kp] using hcmd
    · simp [kp, Function.update_of_ne hn]

/-- A feedback, while its test is selected. -/
lemma kp_feedback (t : Timeval) (n' : Station) :
    (s.event (.kpKft n') (.time t)).kp n = s.kp n ∨
      Kp.Step n s.posTestItem (s.kp n) (.feedback n' t)
        ((s.event (.kpKft n') (.time t)).kp n) := by
  rw [event]
  split
  case isFalse => exact .inl rfl
  case isTrue hk =>
    by_cases hn : n = n'
    · subst hn
      right
      have hfb := Kp.Step.feedback (v := s.kp n) t hk
      simpa [kp, setLine, Line.event] using hfb
    · exact .inl (kp_setLine_kpKft hn)

/-- The interrupt task posts what it has found. -/
lemma kp_stepIsr {n' : Station} (h : s.stepIsr n' = some s') :
    s'.kp n = s.kp n ∨ Kp.Step n s.posTestItem (s.kp n) (.isr n') (s'.kp n) := by
  rw [stepIsr] at h
  split at h
  case h_1 _ _ t hc =>
    cases h
    by_cases hn : n = n'
    · subst hn
      right
      have hpost := Kp.Step.post (n := n) (k := s.posTestItem) (v := s.kp n) t hc
      simpa [kp] using hpost
    · simp [kp, Function.update_of_ne hn]
  case h_2 =>
    cases h
    exact .inl kp_setLine_c1Kt
  case h_3 =>
    cases h
    exact .inl (kp_setLine rfl rfl rfl)
  case h_4 => cases h

/-- The write task stores the record it is at. -/
lemma kp_stepProd {L : Line} (h : (s.line (.kpKft n)).stepProd = some L)
    (hkick : ∀ count t b, (s.line (.kpKft n)).prod ≠ .fill (.kick count t) b) :
    Kp.Step n s.posTestItem (s.kp n) (.writeKp n) ((s.setLine (.kpKft n) L).kp n) := by
  rw [Line.stepProd] at h
  split at h
  case h_1 => cases h
  case h_2 r hp =>
    obtain ⟨⟨b, f⟩, -, rfl⟩ := Option.map_eq_some_iff.1 h
    have hprod := Kp.Step.produce (n := n) (k := s.posTestItem) (v := s.kp n) r b hp
    simpa [kp, setLine, Line.produced] using hprod
  case h_3 r b hp =>
    cases h
    have hfill := Kp.Step.fill (n := n) (k := s.posTestItem) (v := s.kp n) r r b hp
      fun count t hr => absurd hp (hr ▸ hkick count t b)
    simpa [kp, setLine, Line.fillWith] using hfill
  case h_4 r b hp =>
    cases h
    have hlink := Kp.Step.link (n := n) (k := s.posTestItem) (v := s.kp n) r b
      ((s.line (.kpKft n)).buf.memory b).sample (s.line (.kpKft n)).session hp
    simpa [kp, setLine, Line.linked] using hlink

/-- The write task takes a command from its mailbox, or stores one. -/
lemma kp_stepWriteKp {n' : Station} (h : s.stepWriteKp n' = some s') :
    s'.kp n = s.kp n ∨ Kp.Step n s.posTestItem (s.kp n) (.writeKp n') (s'.kp n) := by
  rw [stepWriteKp] at h
  split at h
  case h_1 => cases h
  case h_2 t rest hp hm =>
    cases h
    by_cases hn : n = n'
    · subst hn
      right
      have hstore := Kp.Step.store (n := n) (k := s.posTestItem) (v := s.kp n)
        (s.kpSampleCount n + 1) t rest hp hm
      simpa [kp, setLine, Line.store] using hstore
    · left
      have hne : PosList.kpKft n ≠ .kpKft n' := by simpa using hn
      simp [kp, setLine, Function.update_of_ne hne, Function.update_of_ne hn]
  case h_3 count t b hp =>
    cases h
    by_cases hn : n = n'
    · subst hn
      right
      have hfill := Kp.Step.fill (n := n) (k := s.posTestItem) (v := s.kp n) (.kick count t)
        (.kick count (s.kpTime n)) b hp (by rintro _ _ ⟨⟩; rfl)
      simpa [kp, setLine, Line.fillWith] using hfill
    · exact .inl (kp_setLine_kpKft hn)
  case h_4 hkick _ _ =>
    obtain ⟨L, hL, rfl⟩ := Option.map_eq_some_iff.1 h
    by_cases hn : n = n'
    · subst hn
      exact .inr (kp_stepProd hL hkick)
    · exact .inl (kp_setLine_kpKft hn)

/-- Inversion of a step for the commands of a station. -/
lemma kp_step (h : s.step a = some s') :
    s'.kp n = s.kp n ∨ Kp.Step n s.posTestItem (s.kp n) a (s'.kp n) := by
  cases a with
  | sample count w =>
    obtain ⟨-, ⟨⟩⟩ := Option.ite_none_right_eq_some.1 h
    rw [recvSampleResult]
    split
    case isTrue => exact .inl kp_setLine_c1Kt
    case isFalse => split <;> first | exact .inl kp_setLine_c1Kt | exact .inl rfl
  | posTest k' =>
    obtain ⟨-, ⟨⟩⟩ := Option.ite_none_right_eq_some.1 h
    left
    by_cases hk : item (.kpKft n) = k' <;> simp [kp, recvPosTestCmd, Line.command, hk]
  | reset =>
    obtain ⟨-, ⟨⟩⟩ := Option.ite_none_right_eq_some.1 h
    exact .inl rfl
  | recv n' =>
    obtain ⟨L, -, rfl⟩ := Option.map_eq_some_iff.1 h
    exact .inl kp_setLine_c1Kt
  | kick n' w =>
    obtain ⟨-, ⟨⟩⟩ := Option.ite_none_right_eq_some.1 h
    rw [event]
    split <;> first | exact .inl kp_setLine_c1Kt | exact .inl rfl
  | cmd n' t =>
    obtain ⟨hidle, ⟨⟩⟩ := Option.ite_none_right_eq_some.1 h
    exact kp_command t hidle
  | feedback n' t =>
    obtain ⟨-, ⟨⟩⟩ := Option.ite_none_right_eq_some.1 h
    exact kp_feedback t n'
  | isr n' => exact kp_stepIsr h
  | writeKp n' => exact kp_stepWriteKp h
  | dis l =>
    obtain ⟨L, hL, rfl⟩ := Option.map_eq_some_iff.1 h
    obtain ⟨hp, hst, he⟩ := Line.stepDis_prod hL
    exact .inl (kp_setLine hp hst he)

end State

/-- The task that stores the kick commands of station `n` reads its messages as they were posted. -/
def KpIntact (n : Station) (s : State) (a : Label) : Prop := a = .writeKp n → (s.kp n).ReadsIntact

instance (n : Station) (s : State) (a : Label) : Decidable (KpIntact n s a) :=
  inferInstanceAs (Decidable (_ → _))

/-! ## Commands and feedbacks in turn -/

/-- The interrupt task of a station posts its kick commands and feedbacks in turn, each feedback
less than 2^31 microseconds behind its command. -/
def Alternates (n : Station) (s : State) : Label → Prop
  | .cmd n' _ => n' = n → s.posTestItem = item (.kpKft n) →
    (s.cmds n).length = (s.line (.kpKft n)).events.length
  | .feedback n' f => n' = n → s.posTestItem = item (.kpKft n) →
    (s.cmds n).length = (s.line (.kpKft n)).events.length + 1 ∧
      ∀ c ∈ (s.cmds n).getLast?, Follows c f
  | _ => True

instance (n : Station) (s : State) : (a : Label) → Decidable (Alternates n s a)
  | .cmd _ _ => inferInstanceAs (Decidable (_ → _ → _))
  | .feedback _ _ => inferInstanceAs (Decidable (_ → _ → _ ∧ _))
  | .sample .. | .posTest _ | .reset | .recv _ | .kick .. | .isr _ | .writeKp _ | .dis _ =>
    .isTrue trivial

namespace State

/-- A run of the kick test of a station starts here: its list and its mailboxes are empty, its
tasks idle and its buffers free, and the histories begin. -/
structure Fresh (n : Station) (s : State) : Prop where
  places : (s.line (.kpKft n)).buf.list.Perm (List.range 128)
  list : (s.line (.kpKft n)).list = []
  prod : (s.line (.kpKft n)).prod = .idle
  pc : (s.line (.kpKft n)).pc = .idle
  mbx : (s.line (.kpKft n)).mbx = []
  coming : (s.line (.kpKft n)).coming = none
  kpMbx : s.kpMbx n = []
  kpComing : s.kpComing n = none
  cmds : s.cmds n = []
  events : (s.line (.kpKft n)).events = []
  stored : (s.line (.kpKft n)).stored = []
  taken : (s.line (.kpKft n)).taken = []
  reports : (s.line (.kpKft n)).reports = []

/-- The i-th report of a station tells the time from the i-th command to the i-th feedback. -/
def Paired (n : Station) (s : State) : Prop :=
  ∀ (i : ℕ) rep, (s.line (.kpKft n)).reports[i]? = some rep →
    ∃ c f session, (s.cmds n)[i]? = some c ∧
      (s.line (.kpKft n)).events[i]? = some { stamp := .time f, session := session } ∧
      (rep.dis.toNat : ℤ) = (f.micros - c.micros) / 50

namespace Fresh

variable {n : Station} {s : State}

/-- The state after start-up is such a state. -/
lemma init (memory : PosList → Buffer → PositionArray) : (init memory).Fresh n where
  places := List.Perm.refl _
  list := rfl
  prod := rfl
  pc := rfl
  mbx := rfl
  coming := rfl
  kpMbx := rfl
  kpComing := rfl
  cmds := rfl
  events := rfl
  stored := rfl
  taken := rfl
  reports := rfl

lemma reportInv (h : s.Fresh n) : (s.line (.kpKft n)).ReportInv where
  places := by simpa [h.list, h.prod, h.pc, ProdPc.hand, DisPc.hand] using h.places
  order := by simp [h.stored, h.taken, h.list]
  head := by simp [h.pc, DisPc.node]
  own := by simp [h.list, h.pc, DisPc.hand]
  notEmpty := by simp [h.pc]
  computed := by simp [h.pc]
  events := by simp [Line.EventsInOrder, h.events, h.reports, h.pc, h.mbx, h.coming, DisPc.event]
  read := by simp [h.pc]
  records := ⟨[], by simp [h.taken, h.pc, DisPc.record], by simp [h.reports]⟩
  dis := by simp [h.pc, DisPc.event]
  found := by simp [h.pc]

lemma inOrder (h : s.Fresh n) : (s.kp n).InOrder where
  kick := by simp [kp, h.prod, ProdPc.ref]
  order := by simp [kp, h.cmds, h.stored, h.prod, h.kpMbx, h.kpComing, ProdPc.ref]

lemma timed (h : s.Fresh n) : (s.kp n).Timed := by
  intro i st hi
  simp [kp, h.events] at hi

end Fresh

/-- The commands keep their order on the way to the list. -/
lemma inOrder {ok : State → Label → Prop} {s₀ s : State} {n : Station} (h : Reach step ok s₀ s)
    (hok : ∀ s a, ok s a → KpIntact n s a) (h0 : (s₀.kp n).InOrder) : (s.kp n).InOrder := by
  refine h.invariant (I := fun s => (s.kp n).InOrder) h0 fun s a s' hI ho hs => ?_
  rcases kp_step (n := n) hs with hkp | hkp
  · rw [hkp]
    exact hI
  · exact hI.step hkp (hok s a ho)

/-- When commands and feedbacks alternate, every feedback follows its command. -/
lemma timed {ok : State → Label → Prop} {s₀ s : State} {n : Station} (h : Reach step ok s₀ s)
    (hok : ∀ s a, ok s a → Alternates n s a) (h0 : (s₀.kp n).Timed) : (s.kp n).Timed := by
  refine h.invariant (I := fun s => (s.kp n).Timed) h0 fun s a s' hI ho hs => ?_
  rcases kp_step (n := n) hs with hkp | hkp
  · rw [hkp]
    exact hI
  · refine hI.step hkp ?_
    rintro f rfl hk
    simpa [kp] using hok s _ ho rfl hk

/-- The reports are backed by the records in the order of the commands, and every feedback follows
its command: so the reports are paired. -/
lemma paired_of_inv {s : State} {n : Station} (hrep : (s.line (.kpKft n)).ReportInv)
    (hord : (s.kp n).InOrder) (htimed : (s.kp n).Timed) : s.Paired n := by
  intro i rep hi
  obtain ⟨hlt, rfl⟩ := List.getElem?_eq_some_iff.1 hi
  set L := s.line (.kpKft n) with hL
  -- the event of the report and the command that belongs to it
  have hevent : L.events[i]? = some L.reports[i].event := by
    obtain ⟨rest, hrest⟩ := hrep.backed.events
    rw [← hrest, List.getElem?_append_left (by simpa using hlt)]
    simp [hlt]
  obtain ⟨c, f, hc, hf, hfollows⟩ := htimed i L.reports[i].event.stamp (by
    simp [kp, ← hL, hevent])
  -- the record of the report and its time
  obtain ⟨recs, hrecs, hall⟩ := hrep.backed.records
  have hlen : i < recs.length := hall.length_eq ▸ hlt
  obtain ⟨-, hdis⟩ := (List.forall₂_iff_get.1 hall).2 i hlt hlen
  have hstored : L.stored[i]? = some recs[i] := by
    obtain ⟨rest, hrest⟩ := hrecs.trans hrep.backed.stored
    rw [← hrest, List.getElem?_append_left hlen]
    simp [hlen]
  have htime : c = recs[i].sample.cTime := by
    have hcmd : (s.cmds n)[i]? = some recs[i].sample.cTime := by
      have horder := hord.order
      simp only [kp, ← hL] at horder
      rw [horder, List.append_assoc, List.append_assoc, List.getElem?_append_left,
        List.getElem?_map, hstored]
      · rfl
      · simpa using (List.getElem?_eq_some_iff.1 hstored).1
    exact Option.some.inj (hc.symm.trans hcmd)
  subst htime
  refine ⟨_, f, L.reports[i].event.session, hc, ?_, ?_⟩
  · rw [hevent, ← hf]
  · rw [← toNat_calcDis_time hfollows, ← hf]
    exact congrArg (fun d => (d.toNat : ℤ)) hdis

end State

/-- In a run in which commands and feedbacks alternate, both tasks read them as they were posted and
the position task finds a record for every feedback, the reports tell the times between them. -/
theorem reports_paired (n : Station) (s₀ s : State) (h0 : s₀.Fresh n)
    (h : Reach State.step (fun s a => (Alternates n s a ∧ Intact (.kpKft n) s a ∧ KpIntact n s a) ∧
      FindsRecord (.kpKft n) s a) s₀ s) : s.Paired n := by
  have hrep : (s.line (.kpKft n)).ReportInv :=
    line_invariant h h0.reportInv fun _ _ _ hok hI hs => hI.step hs hok.2 hok.1.2.1
  exact State.paired_of_inv hrep (State.inOrder h (fun _ _ hok => hok.1.2.2) h0.inOrder)
    (State.timed h (fun _ _ hok => hok.1.1) h0.timed)

/-- Test 3: a kick command and, five milliseconds later, its feedback. -/
def oneKick : List Label :=
  [.posTest 3, .cmd .one { tvSec := 0, tvUsec := 0 }, .isr .one,
    .feedback .one { tvSec := 0, tvUsec := 5000 }, .isr .one]

/-- The command is stored before the feedback is taken. -/
def storedFirst : List Label :=
  oneKick ++ List.replicate 4 (.writeKp .one) ++ List.replicate 7 (.dis (.kpKft .one))

def afterStoredFirst : State :=
  (exec State.step (init zeroMemory) storedFirst).getD (init zeroMemory)

theorem reports_paired_storedFirst : afterStoredFirst.Paired .one :=
  reports_paired .one (init zeroMemory) afterStoredFirst (.init zeroMemory)
    (reach_of_exec storedFirst (by decide +kernel) (exec_getD (by decide +kernel) _))

/-- The feedback is taken before the command is stored, and after another second the next kick is
handled in order. -/
def takenFirst : List Label :=
  oneKick ++ List.replicate 3 (.dis (.kpKft .one)) ++ List.replicate 4 (.writeKp .one)
    ++ [.cmd .one { tvSec := 1, tvUsec := 0 }, .isr .one]
    ++ List.replicate 4 (.writeKp .one)
    ++ [.feedback .one { tvSec := 1, tvUsec := 5000 }, .isr .one]
    ++ List.replicate 7 (.dis (.kpKft .one))

def afterTakenFirst : State :=
  (exec State.step (init zeroMemory) takenFirst).getD (init zeroMemory)

/-- Alternating commands and feedbacks are not always paired: here the second report is made with
the first command. -/
theorem feedback_overtakes : ¬ ∀ (n : Station) (s₀ s : State), s₀.Fresh n →
    Reach State.step (fun s a => Alternates n s a ∧ Intact (.kpKft n) s a ∧ KpIntact n s a) s₀ s →
      s.Paired n := by
  intro h
  have hp := h .one (init zeroMemory) afterTakenFirst (.init zeroMemory)
    (reach_of_exec takenFirst (by decide +kernel) (exec_getD (by decide +kernel) _))
  have hrep : ((afterTakenFirst.line (.kpKft .one)).reports[1]?).map Report.dis = some 20100 := by
    decide +kernel
  obtain ⟨rep, hrep, hdis⟩ := Option.map_eq_some_iff.1 hrep
  obtain ⟨c, f, session, hc, hf, hval⟩ := hp 1 rep hrep
  have hcmd : (afterTakenFirst.cmds .one)[1]? = some { tvSec := 1, tvUsec := 0 } := by
    decide +kernel
  have hfb : (afterTakenFirst.line (.kpKft .one)).events[1]? =
      some { stamp := .time { tvSec := 1, tvUsec := 5000 }, session := 1 } := by
    decide +kernel
  obtain rfl := Option.some.inj (hcmd.symm.trans hc)
  obtain ⟨rfl, -⟩ : f = { tvSec := 1, tvUsec := 5000 } ∧ session = 1 := by
    simpa using hf.symm.trans hfb
  rw [hdis] at hval
  revert hval
  decide

end RejectProcess.Position
