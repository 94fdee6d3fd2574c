import RejectProcess.App.Program

/-!
# The receive task in a handler

Where the receive task stands in `local_cmd_analyze`, and where it stands in the part that the
handler belongs to, fit together in every state.
-/

namespace RejectProcess

open Lib Position
open Publish (PosList)

/-! ## The parts -/

/-- A step of the receive task calls `local_cmd_analyze` once at most. -/
lemma RecvTsk.step_analyzed {s s' : RecvTsk} {l : RecvLabel} (h : s.step l = some s') :
    s'.analyzed = s.analyzed ∨ ∃ c, s'.analyzed = s.analyzed ++ [c] := by
  have hparam : ∀ t : RecvTsk, t.paramLoop.analyzed = t.analyzed ∨
      ∃ c, t.paramLoop.analyzed = t.analyzed ++ [c] := by
    intro t
    rcases analyzed_paramLoop t with ht | ht
    · exact .inl ht
    · exact .inr ⟨_, by rw [ht]; rfl⟩
  have hheader : ∀ t : RecvTsk, t.headerLoop.analyzed = t.analyzed ∨
      ∃ c, t.headerLoop.analyzed = t.analyzed ++ [c] := by
    intro t
    rw [headerLoop]
    split
    · exact .inl rfl
    · exact hparam t.gotHeader
  cases l with
  | link =>
    obtain ⟨hl, -⟩ := step_link h
    rw [step, hl] at h
    obtain rfl := Option.some.inj h
    exact .inl rfl
  | read bs =>
    rcases step_read h with ⟨-, -, rfl⟩ | ⟨-, -, rfl⟩
    · exact hheader (s.readHeader bs)
    · exact hparam (s.readParam bs)
  | fail => exact .inl (recv_fail h (step_fail h).1).2.1

/-- The messages that an interrupt task has posted to the position tests. -/
def Isr.Side.sent (d : Isr.Side) : List Stamp × List Timeval × List Stamp :=
  (d.kt.map .wheelCode, d.kp, d.kft.map .time)

/-- The events of a station that the position tests have seen. -/
def Position.State.seen (t : Position.State) (n : Station) :
    List Stamp × List Timeval × List Stamp :=
  ((t.line (.c1Kt n)).events.map Event.stamp, t.cmds n,
    (t.line (.kpKft n)).events.map Event.stamp)

namespace Isr

variable {s s' : State}

lemma sent_setSide {n : Station} {d : Side} (h : d.sent = (s.side n).sent) (k : Station) :
    ((s.setSide n d).side k).sent = (s.side k).sent := by
  by_cases hk : k = n
  · subst hk
    rw [State.side_setSide_self, h]
  · rw [State.side_setSide_of_ne hk]

end Isr

namespace Machine

variable {cfg : SysConfig} {m m' : Machine}

/-- What the receive task and the position tests have to do with the machine stays. -/
structure Frame (m m' : Machine) : Prop where
  sys : m'.sys.recv = m.sys.recv
  isr : m'.isr.recv = m.isr.recv
  item : m'.isr.posTestItem = m.isr.posTestItem
  sent : ∀ n, (m'.isr.side n).sent = (m.isr.side n).sent

/-- The tasks besides the receive task and the interrupt tasks. -/
lemma frame_step {b : Label} (hb : b.besideRecv = true) (hisr : ∀ n clock, b ≠ .isr n clock)
    (hs : m.step cfg b = some m') : m.Frame m' := by
  unfold step at hs
  split at hs
  · cases hs
  cases b with
  | arrive n bits =>
    obtain ⟨i, hi, rfl⟩ := Option.map_eq_some_iff.1 hs
    cases Isr.State.step_inv hi with
    | arrive => exact ⟨rfl, rfl, rfl, Isr.sent_setSide rfl⟩
  | crash n =>
    obtain ⟨i, hi, rfl⟩ := Option.map_eq_some_iff.1 hs
    cases Isr.State.step_inv hi with
    | crash => exact ⟨rfl, rfl, rfl, fun _ => rfl⟩
  | trig n =>
    obtain ⟨s, hs', rfl⟩ := Option.map_eq_some_iff.1 hs
    have hrecv : s.recv = m.sys.recv := by
      cases Sys.step_inv hs' <;> rfl
    exact ⟨hrecv, rfl, rfl, fun _ => rfl⟩
  | isr n clock => exact absurd rfl (hisr n clock)
  | sample r | reset | command item | recv => cases hb

/-- The receive task in `write_array` or `clear_array`. -/
lemma step_recv_sys (hidle : m.isr.recv = .idle) (hs : m.step cfg .recv = some m') :
    m.sys.step cfg .recv = some m'.sys ∧ m'.isr = m.isr := by
  unfold step at hs
  split at hs
  · cases hs
  obtain ⟨s, hs', rfl⟩ := Option.map_eq_some_iff.1 hs
  exact ⟨hs', rfl⟩

/-- The receive task at the clear registers. -/
lemma step_recv_isr (hidle : m.isr.recv ≠ .idle) (hs : m.step cfg .recv = some m') :
    m.isr.step .recv = some m'.isr ∧ m'.sys = m.sys := by
  unfold step at hs
  split at hs
  · cases hs
  obtain ⟨i, hi, rfl⟩ := Option.map_eq_some_iff.1 hs
  exact ⟨hi, rfl⟩

lemma step_sample {r : SampleResult} (hs : m.step cfg (.sample r) = some m') :
    m'.isr = m.isr ∧ (m'.sys.recv = .idle ∨ m'.sys.recv = .produce r) := by
  unfold step at hs
  split at hs
  · cases hs
  simp only [Option.ite_none_right_eq_some] at hs
  obtain ⟨s, hs', rfl⟩ := Option.map_eq_some_iff.1 hs.2
  cases Sys.step_inv hs' with
  | skip _ hidle => exact ⟨rfl, .inl hidle⟩
  | sample => exact ⟨rfl, .inr rfl⟩

lemma step_reset (hs : m.step cfg .reset = some m') :
    m'.sys.recv = .zero ∧ m'.isr = m.isr := by
  unfold step at hs
  split at hs
  · cases hs
  simp only [Option.ite_none_right_eq_some] at hs
  obtain ⟨s, hs', rfl⟩ := Option.map_eq_some_iff.1 hs.2
  cases Sys.step_inv hs' with
  | reset => exact ⟨rfl, rfl⟩

lemma step_command {item : UInt32} (hs : m.step cfg (.command item) = some m') :
    m'.sys = m.sys ∧ m'.isr.recv = .read (Mask.recvPosTestCmd item) ∧ m'.isr.posTestItem = item ∧
      ∀ n, (m'.isr.side n).sent = (m.isr.side n).sent := by
  unfold step at hs
  split at hs
  · cases hs
  simp only [Option.ite_none_right_eq_some] at hs
  obtain ⟨i, hi, rfl⟩ := Option.map_eq_some_iff.1 hs.2
  cases Isr.State.step_inv hi with
  | command => exact ⟨rfl, rfl, rfl, fun _ => rfl⟩

end Machine

namespace Position

namespace Line

variable {L L' : Line}

/-- The events and their messages stay. -/
structure Frame (L L' : Line) : Prop where
  coming : L'.coming = L.coming
  events : L'.events = L.events

/-- What a position task reports in its next step. -/
def reporting (L : Line) (k : UInt32) : List (UInt32 × UInt32) :=
  match L.pc with
  | .report _ _ => [(k, L.dis)]
  | _ => []

/-- The reports as they are sent. -/
def sent (L : Line) : List (UInt32 × UInt32) := L.reports.map fun r => (r.item, r.dis)

lemma stepProd_frame (h : L.stepProd = some L') :
    L.Frame L' ∧ L'.reports = L.reports := by
  rw [stepProd] at h
  cases hp : L.prod with
  | idle => simp [hp] at h
  | produce r =>
    rw [hp] at h
    obtain ⟨x, -, rfl⟩ := Option.map_eq_some_iff.1 h
    exact ⟨⟨rfl, rfl⟩, rfl⟩
  | fill r b =>
    rw [hp] at h
    obtain rfl := Option.some.inj h
    exact ⟨⟨rfl, rfl⟩, rfl⟩
  | link r b =>
    rw [hp] at h
    obtain rfl := Option.some.inj h
    exact ⟨⟨rfl, rfl⟩, rfl⟩

lemma stepDis_frame {k : UInt32} (h : L.stepDis k = some L') :
    L.Frame L' ∧ L'.prod = L.prod ∧ L'.sent = L.sent ++ L.reporting k := by
  rw [stepDis] at h
  cases hp : L.pc with
  | idle =>
    cases hm : L.mbx with
    | nil => simp [hp, hm] at h
    | cons e rest =>
      obtain rfl : L.pend e rest = L' := by simpa [hp, hm] using h
      exact ⟨⟨rfl, rfl⟩, rfl, by simp [sent, reporting, hp, pend]⟩
  | pended e =>
    cases hl : L.list with
    | nil =>
      obtain rfl : L.goto (.report e none) = L' := by simpa [hp, hl] using h
      exact ⟨⟨rfl, rfl⟩, rfl, by simp [sent, reporting, hp, goto]⟩
    | cons p rest =>
      obtain rfl : L.goto (.notEmpty e) = L' := by simpa [hp, hl] using h
      exact ⟨⟨rfl, rfl⟩, rfl, by simp [sent, reporting, hp, goto]⟩
  | notEmpty e =>
    cases hl : L.list with
    | nil => simp [hp, hl] at h
    | cons p rest =>
      obtain rfl : L.goto (.plist e p) = L' := by simpa [hp, hl] using h
      exact ⟨⟨rfl, rfl⟩, rfl, by simp [sent, reporting, hp, goto]⟩
  | plist e p =>
    obtain rfl : L.compute e p = L' := by simpa [hp] using h
    exact ⟨⟨rfl, rfl⟩, rfl, by simp [sent, reporting, hp, compute]⟩
  | computed e p =>
    obtain rfl : L.delete e p = L' := by simpa [hp] using h
    exact ⟨⟨rfl, rfl⟩, rfl, by simp [sent, reporting, hp, delete]⟩
  | deleted e p r =>
    obtain rfl : L.recycle e p r = L' := by simpa [hp] using h
    exact ⟨⟨rfl, rfl⟩, rfl, by simp [sent, reporting, hp, recycle]⟩
  | report e r =>
    obtain rfl : L.postReport k e r = L' := by simpa [hp] using h
    exact ⟨⟨rfl, rfl⟩, rfl, by simp [sent, reporting, hp, postReport]⟩

end Line

namespace State

variable {s s' : State}

/-- What the interrupt tasks have to do with the tests stays. -/
structure Frame (s s' : State) : Prop where
  line : ∀ l, (s.line l).Frame (s'.line l)
  kpComing : s'.kpComing = s.kpComing
  cmds : s'.cmds = s.cmds

namespace Frame

lemma seen (h : s.Frame s') (n : Station) : s'.seen n = s.seen n := by
  rw [State.seen, State.seen, (h.line _).events, (h.line _).events, h.cmds]

lemma isrIdle (h : s.Frame s') {n : Station} (hidle : s.IsrIdle n) : s'.IsrIdle n := by
  rw [IsrIdle, (h.line _).coming, (h.line _).coming, h.kpComing]
  exact hidle

end Frame

/-- The receive task stays where it is. -/
def SameRecv (s s' : State) : Prop := ∀ n, (s'.line (.c1Kt n)).prod = (s.line (.c1Kt n)).prod

lemma SameRecv.recvIdle (h : s.SameRecv s') (hidle : s.RecvIdle) : s'.RecvIdle :=
  fun n => (h n).trans (hidle n)

lemma sameRecv_setLine {l : PosList} {L : Line} (hprod : L.prod = (s.line l).prod) :
    s.SameRecv (s.setLine l L) := by
  intro n
  by_cases hl : .c1Kt n = l
  · subst hl
    rw [line_setLine_self, hprod]
  · rw [line_setLine_of_ne hl]

lemma frame_setLine {l : PosList} {L : Line} (h : (s.line l).Frame L) :
    s.Frame (s.setLine l L) where
  line l' := by
    by_cases hl : l' = l
    · subst hl
      rw [line_setLine_self]
      exact h
    · rw [line_setLine_of_ne hl]
      exact ⟨rfl, rfl⟩
  kpComing := rfl
  cmds := rfl

/-- A position task takes a step. -/
lemma frame_dis {l : PosList} (hs : s.step (.dis l) = some s') :
    s.Frame s' ∧ s'.posTestItem = s.posTestItem ∧ s.SameRecv s' ∧
      (∀ l', l' ≠ l → (s'.line l').sent = (s.line l').sent) ∧
        (s'.line l).sent = (s.line l).sent ++ (s.line l).reporting (item l) := by
  obtain ⟨L, hL, rfl⟩ := Option.map_eq_some_iff.1 hs
  obtain ⟨hframe, hprod, hsent⟩ := Line.stepDis_frame hL
  refine ⟨frame_setLine hframe, rfl, sameRecv_setLine hprod, fun l' hl => ?_, ?_⟩
  · rw [line_setLine_of_ne hl]
  · rw [line_setLine_self, hsent]

/-- A task that stores a record takes a step. -/
lemma frame_setProd {l : PosList} {L : Line}
    (h : (s.line l).Frame L ∧ L.reports = (s.line l).reports) :
    s.Frame (s.setLine l L) ∧ ∀ l', ((s.setLine l L).line l').sent = (s.line l').sent := by
  obtain ⟨hframe, hreports⟩ := h
  refine ⟨frame_setLine hframe, fun l' => ?_⟩
  by_cases hl : l' = l
  · subst hl
    rw [line_setLine_self, Line.sent, hreports, Line.sent]
  · rw [line_setLine_of_ne hl]

lemma frame_recv {n : Station} (hs : s.step (.recv n) = some s') :
    s.Frame s' ∧ s'.posTestItem = s.posTestItem ∧ ∀ l, (s'.line l).sent = (s.line l).sent := by
  obtain ⟨L, hL, rfl⟩ := Option.map_eq_some_iff.1 hs
  obtain ⟨hframe, hsent⟩ := frame_setProd (Line.stepProd_frame hL)
  exact ⟨hframe, rfl, hsent⟩

lemma frame_writeKp {n : Station} (hs : s.step (.writeKp n) = some s') :
    s.Frame s' ∧ s'.posTestItem = s.posTestItem ∧ s.SameRecv s' ∧
      ∀ l, (s'.line l).sent = (s.line l).sent := by
  have hsame : ∀ L : Line, s.SameRecv (s.setLine (.kpKft n) L) := by
    intro L k
    rw [line_setLine_of_ne (by simp)]
  change s.stepWriteKp n = some s' at hs
  rw [stepWriteKp] at hs
  split at hs
  · cases hs
  · next t rest hprod hmbx =>
    obtain rfl := Option.some.inj hs
    obtain ⟨hframe, hsent⟩ := frame_setProd (s := s) (l := .kpKft n)
      (L := (s.line (.kpKft n)).store (.kick (s.kpSampleCount n + 1) t)) ⟨⟨rfl, rfl⟩, rfl⟩
    exact ⟨⟨hframe.line, rfl, rfl⟩, rfl,
      hsame ((s.line (.kpKft n)).store (.kick (s.kpSampleCount n + 1) t)), hsent⟩
  · obtain rfl := Option.some.inj hs
    obtain ⟨hframe, hsent⟩ := frame_setProd (s := s) (l := .kpKft n)
      (L := (s.line (.kpKft n)).fillWith _ _) ⟨⟨rfl, rfl⟩, rfl⟩
    exact ⟨hframe, rfl, hsame ((s.line (.kpKft n)).fillWith _ _), hsent⟩
  · obtain ⟨L, hL, rfl⟩ := Option.map_eq_some_iff.1 hs
    obtain ⟨hframe, hsent⟩ := frame_setProd (Line.stepProd_frame hL)
    exact ⟨hframe, rfl, hsame L, hsent⟩

lemma frame_sample {count : UInt32} {wheelCode : UInt64}
    (hs : s.step (.sample count wheelCode) = some s') :
    s.Frame s' ∧ s'.posTestItem = s.posTestItem ∧ ∀ l, (s'.line l).sent = (s.line l).sent := by
  have hstore : ∀ l r, s.Frame (s.setLine l ((s.line l).store r)) ∧
      ∀ l', ((s.setLine l ((s.line l).store r)).line l').sent = (s.line l').sent :=
    fun _ _ => frame_setProd ⟨⟨rfl, rfl⟩, rfl⟩
  obtain ⟨-, rfl⟩ : s.RecvIdle ∧ s.recvSampleResult count wheelCode = s' := by
    simpa [step] using hs
  rw [recvSampleResult]
  split_ifs
  · exact ⟨(hstore _ _).1, rfl, (hstore _ _).2⟩
  · exact ⟨(hstore _ _).1, rfl, (hstore _ _).2⟩
  · exact ⟨⟨fun _ => ⟨rfl, rfl⟩, rfl, rfl⟩, rfl, fun _ => rfl⟩

lemma frame_posTest {k : UInt32} (hs : s.step (.posTest k) = some s') :
    s.Frame s' ∧ s'.posTestItem = k ∧ s.SameRecv s' ∧
      ∀ l, (s'.line l).sent = (s.line l).sent := by
  obtain ⟨-, rfl⟩ : s.RecvIdle ∧ s.recvPosTestCmd k = s' := by simpa [step] using hs
  have hline : ∀ l, (s.recvPosTestCmd k).line l =
      if item l = k then (s.line l).command else s.line l := fun _ => rfl
  refine ⟨⟨fun l => ?_, rfl, rfl⟩, rfl, fun n => ?_, fun l => ?_⟩
  · rw [hline]
    split_ifs <;> exact ⟨rfl, rfl⟩
  · rw [hline]
    split_ifs <;> rfl
  · rw [hline]
    split_ifs <;> rfl

lemma frame_reset (hs : s.step .reset = some s') :
    s.Frame s' ∧ s'.posTestItem = s.posTestItem ∧ s.SameRecv s' ∧
      ∀ l, (s'.line l).sent = (s.line l).sent := by
  obtain ⟨-, rfl⟩ : s.RecvIdle ∧ s.recvResetCmd = s' := by simpa [step] using hs
  exact ⟨⟨fun _ => ⟨rfl, rfl⟩, rfl, rfl⟩, rfl, fun _ => rfl, fun _ => rfl⟩

/-! ### Events -/

/-- An event of test `l` occurs and its message is posted, if the test is selected. -/
def occur (s : State) (l : PosList) (st : Stamp) : State :=
  if s.posTestItem = item l then
    s.setLine l (((s.line l).event st).post { stamp := st, session := (s.line l).session })
  else s

/-- A kick command is issued and its message is posted, if the test of its time is selected. -/
def occurCmd (s : State) (n : Station) (t : Timeval) : State :=
  if s.posTestItem = item (.kpKft n) then
    { s with
      kpTime := Function.update s.kpTime n t
      kpComing := Function.update s.kpComing n none
      kpMbx := Function.update s.kpMbx n (s.kpMbx n ++ [t])
      cmds := Function.update s.cmds n (s.cmds n ++ [t]) }
  else s

lemma setLine_setLine (s : State) (l : PosList) (L L' : Line) :
    (s.setLine l L).setLine l L' = s.setLine l L' := by
  simp [setLine, Function.update_idem]

/-- Without a message at hand an interrupt task posts none. -/
lemma stepIsr_of_idle {n : Station} (h : s.IsrIdle n) : s.stepIsr n = none := by
  obtain ⟨h1, h2, h3⟩ := h
  simp [stepIsr, h1, h2, h3]

lemma isr_kick {n : Station} (h : s.IsrIdle n) (st : Stamp) :
    ((s.event (.c1Kt n) st).stepIsr n).getD (s.event (.c1Kt n) st) = s.occur (.c1Kt n) st := by
  rw [event, occur]
  split_ifs
  · have hkp : (s.setLine (.c1Kt n) ((s.line (.c1Kt n)).event st)).kpComing n = none := h.2.2
    rw [stepIsr, hkp, line_setLine_self]
    simp only [Line.event, setLine_setLine, Option.getD_some]
  · rw [stepIsr_of_idle h]
    rfl

lemma isr_feedback {n : Station} (h : s.IsrIdle n) (st : Stamp) :
    ((s.event (.kpKft n) st).stepIsr n).getD (s.event (.kpKft n) st) = s.occur (.kpKft n) st := by
  rw [event, occur]
  split_ifs
  · have hkp : (s.setLine (.kpKft n) ((s.line (.kpKft n)).event st)).kpComing n = none := h.2.2
    have hkt : ((s.setLine (.kpKft n) ((s.line (.kpKft n)).event st)).line (.c1Kt n)).coming =
        none := by
      rw [line_setLine_of_ne (by simp)]
      exact h.1
    rw [stepIsr, hkp, hkt, line_setLine_self]
    simp only [Line.event, setLine_setLine, Option.getD_some]
  · rw [stepIsr_of_idle h]
    rfl

lemma isr_cmd {n : Station} (h : s.IsrIdle n) (t : Timeval) :
    ((s.command n t).stepIsr n).getD (s.command n t) = s.occurCmd n t := by
  rw [command, occurCmd]
  split_ifs
  · simp [stepIsr, Function.update_idem]
  · rw [stepIsr_of_idle h]
    rfl

/-- The receive task, the interrupt tasks at rest and the reports have nothing to do with an
event. -/
structure Aside (s s' : State) : Prop where
  item : s'.posTestItem = s.posTestItem
  recv : s.SameRecv s'
  isr : (∀ n, s.IsrIdle n) → ∀ n, s'.IsrIdle n
  sent : ∀ l, (s'.line l).sent = (s.line l).sent

lemma aside_setLine {l : PosList} {L : Line} (hprod : L.prod = (s.line l).prod)
    (hcoming : L.coming = none) (hsent : L.sent = (s.line l).sent) : s.Aside (s.setLine l L) where
  item := rfl
  recv := sameRecv_setLine hprod
  isr hidle n := by
    have hc : ∀ l', (s.line l').coming = none → ((s.setLine l L).line l').coming = none := by
      intro l' h
      by_cases hl : l' = l
      · subst hl
        rw [line_setLine_self, hcoming]
      · rw [line_setLine_of_ne hl, h]
    exact ⟨hc _ (hidle n).1, hc _ (hidle n).2.1, (hidle n).2.2⟩
  sent l' := by
    by_cases hl : l' = l
    · subst hl
      rw [line_setLine_self, hsent]
    · rw [line_setLine_of_ne hl]

lemma Aside.refl (s : State) : s.Aside s := ⟨rfl, fun _ => rfl, id, fun _ => rfl⟩

lemma aside_occur (s : State) (l : PosList) (st : Stamp) : s.Aside (s.occur l st) := by
  rw [occur]
  split_ifs
  · exact aside_setLine rfl rfl rfl
  · exact .refl s

lemma aside_occurCmd (s : State) (n : Station) (t : Timeval) : s.Aside (s.occurCmd n t) := by
  rw [occurCmd]
  split_ifs
  · refine ⟨rfl, fun _ => rfl, fun hidle k => ⟨(hidle k).1, (hidle k).2.1, ?_⟩, fun _ => rfl⟩
    by_cases hk : k = n
    · subst hk
      exact Function.update_self ..
    · exact (Function.update_of_ne hk ..).trans (hidle k).2.2
  · exact .refl s

end State

end Position

namespace Program

variable {cfg : SysConfig} {version : Vector UInt8 32} {p p' : Program} {a : Label}

/-- The interrupt tasks and the position tests have the same events, and the same test is
selected. -/
structure Agree (m : Machine) (t : Position.State) : Prop where
  item : m.isr.posTestItem = t.posTestItem
  seen : ∀ n, t.seen n = (m.isr.side n).sent

/-- What a station has seen after an event of its own test. -/
lemma seen_occur (t : Position.State) (n : Station) (st : Stamp) :
    (t.occur (.c1Kt n) st).seen n =
        (if t.posTestItem = item (.c1Kt n) then (t.seen n).1 ++ [st] else (t.seen n).1,
          (t.seen n).2) ∧
      (t.occur (.kpKft n) st).seen n =
        ((t.seen n).1, (t.seen n).2.1,
          if t.posTestItem = item (.kpKft n) then (t.seen n).2.2 ++ [st]
          else (t.seen n).2.2) := by
  constructor
  · rw [Position.State.occur]
    split_ifs
    · simp [Position.State.seen, Position.State.setLine, Line.event, Line.post]
    · rfl
  · rw [Position.State.occur]
    split_ifs
    · simp [Position.State.seen, Position.State.setLine, Line.event, Line.post]
    · rfl

lemma seen_occurCmd (s : Position.State) (n : Station) (t : Timeval) :
    (s.occurCmd n t).seen n =
      ((s.seen n).1,
        if s.posTestItem = item (.kpKft n) then (s.seen n).2.1 ++ [t] else (s.seen n).2.1,
        (s.seen n).2.2) := by
  rw [Position.State.occurCmd]
  split_ifs
  · simp [Position.State.seen]
  · rfl

/-- Another station sees nothing of an event. -/
lemma seen_of_ne (t : Position.State) {n k : Station} (hk : k ≠ n) :
    (∀ st, (t.occur (.c1Kt n) st).seen k = t.seen k) ∧
      (∀ st, (t.occur (.kpKft n) st).seen k = t.seen k) ∧
        ∀ time, (t.occurCmd n time).seen k = t.seen k := by
  have h1 : PosList.c1Kt k ≠ .c1Kt n := by simpa using hk
  have h2 : PosList.kpKft k ≠ .kpKft n := by simpa using hk
  refine ⟨fun st => ?_, fun st => ?_, fun time => ?_⟩
  · rw [Position.State.occur]
    split_ifs
    · simp [Position.State.seen, Position.State.setLine, h1]
    · rfl
  · rw [Position.State.occur]
    split_ifs
    · simp [Position.State.seen, Position.State.setLine, h2]
    · rfl
  · rw [Position.State.occurCmd]
    split_ifs
    · simp [Position.State.seen, hk]
    · rfl

/-- A step of an interrupt task leaves the receive task alone, and the position tests see what it
sends. -/
lemma step_isr {n : Station} {clock : Isr.Clock} {m : Machine} {t : Position.State}
    (hidle : ∀ k, p.tests.IsrIdle k) (hagree : Agree p.machine p.tests)
    (hm : p.machine.step cfg (.isr n clock) = some m) (ht : p.isrTests n clock = some t) :
    m.sys.recv = p.machine.sys.recv ∧ m.isr.recv = p.machine.isr.recv ∧ p.tests.Aside t ∧
      Agree m t := by
  unfold Machine.step at hm
  split at hm
  · cases hm
  obtain ⟨i, hi, rfl⟩ := Option.map_eq_some_iff.1 hm
  have hsys : ∀ i, (p.machine.isrMoved n clock i).sys.recv = p.machine.sys.recv := by
    intro i
    rw [Machine.isrMoved]
    dsimp only
    split_ifs <;> rfl
  cases Isr.State.step_inv hi with
  | isr _ _ d hd =>
    refine ⟨hsys _, rfl, ?_⟩
    -- the other station has its messages, and this one those of the step
    have hagreed : ∀ t, p.tests.Aside t → (∀ k, k ≠ n → t.seen k = p.tests.seen k) →
        t.seen n = d.sent →
        p.tests.Aside t ∧ Agree (p.machine.isrMoved n clock (p.machine.isr.setSide n d)) t := by
      intro t hside hother hself
      refine ⟨hside, hagree.item.trans hside.item.symm, fun k => ?_⟩
      by_cases hk : k = n
      · subst hk
        exact hself.trans (congrArg _ (Isr.State.side_setSide_self ..).symm)
      · rw [hother k hk, hagree.seen k]
        exact congrArg _ (Isr.State.side_setSide_of_ne hk ..).symm
    have hquiet : isrEvent n clock (p.machine.isr.side n).pc = none →
        d.sent = (p.machine.isr.side n).sent →
        p.tests.Aside t ∧ Agree (p.machine.isrMoved n clock (p.machine.isr.setSide n d)) t := by
      intro he hsent
      obtain rfl : p.tests = t := by simpa [isrTests, he] using ht
      exact hagreed _ (.refl _) (fun _ _ => rfl) ((hagree.seen n).trans hsent.symm)
    have hseen := hagree.seen n
    have hitem := hagree.item
    cases hd with
    | wake hpc | sleep hpc | round hpc | again _ hpc | skip _ _ _ hpc | take _ _ _ hpc
    | set _ _ _ _ hpc | clear _ _ _ _ hpc | trigger _ _ hpc =>
      exact hquiet (by rw [hpc]; rfl) rfl
    | also status code todo hpc =>
      obtain rfl : p.tests.occur (.c1Kt n) (.wheelCode code) = t := by
        rw [← Position.State.isr_kick (hidle n)]
        simpa [isrTests, hpc, isrEvent, Position.State.step, hidle n] using ht
      refine hagreed _ (Position.State.aside_occur ..) (fun k hk => (seen_of_ne _ hk).1 _) ?_
      rw [(seen_occur _ n _).1, hseen, ← hitem]
      simp only [Isr.Side.sent]
      split_ifs <;> simp
    | cmd status todo hpc =>
      obtain rfl : p.tests.occurCmd n clock.time = t := by
        rw [← Position.State.isr_cmd (hidle n)]
        simpa [isrTests, hpc, isrEvent, Position.State.step, hidle n] using ht
      refine hagreed _ (Position.State.aside_occurCmd ..) (fun k hk => (seen_of_ne _ hk).2.2 _) ?_
      rw [seen_occurCmd, hseen, ← hitem]
      rfl
    | feedback status todo hpc =>
      obtain rfl : p.tests.occur (.kpKft n) (.time clock.time) = t := by
        rw [← Position.State.isr_feedback (hidle n)]
        simpa [isrTests, hpc, isrEvent, Position.State.step, hidle n] using ht
      refine hagreed _ (Position.State.aside_occur ..) (fun k hk => (seen_of_ne _ hk).2.1 _) ?_
      rw [(seen_occur _ n _).2, hseen, ← hitem]
      simp only [Isr.Side.sent]
      split_ifs <;> simp

/-! ## The handler -/

/-- The handler has been called for the order. -/
def Handler.Serves : Handler → Order → Prop
  | .idle, _ => False
  | .sample r, o => o = .sample r
  | .store, o => ∃ r, o = .sample r
  | .reset, o => o = .reset
  | .posTest, o => ∃ item, o = .posTest item

/-- The handler calls `write_array` or `clear_array`. -/
def Handler.atLists : Handler → Bool
  | .sample _ => true
  | .reset => true
  | _ => false

/-- The receive task is not in `write_array`. -/
def outsideWrite : RecvPc → Bool
  | .produce _ => false
  | .link _ _ => false
  | _ => true

/-- Where the receive task stands in the parts. -/
structure Inv (p : Program) : Prop where
  handled : p.handled ≤ p.link.recv.analyzed.length
  prompt : p.link.recv.analyzed.length ≤ p.handled + 1
  serves : p.handler ≠ .idle →
    ∃ c, p.link.recv.analyzed[p.handled]? = some c ∧ p.handler.Serves c.order
  sys : p.handler.atLists = false → p.machine.sys.recv = .idle
  reset : p.handler = .reset → outsideWrite p.machine.sys.recv = true
  isr : p.handler ≠ .posTest → p.machine.isr.recv = .idle
  store : p.handler ≠ .store → p.tests.RecvIdle
  events : ∀ n, p.tests.IsrIdle n
  agree : Agree p.machine p.tests

/-- A step meets the link as it is, but for what the send task reads. -/
lemma meets_frame (p : Program) (a : Label) :
    ∃ pc, p.meets a = { p.link with send := pc } := by
  rw [meets.eq_def]
  split
  · exact ⟨p.reading, rfl⟩
  · exact ⟨p.link.send, rfl⟩

lemma recv_meets : (p.meets a).recv = p.link.recv := by
  obtain ⟨pc, hpc⟩ := p.meets_frame a
  rw [hpc]

lemma posted_meets : (p.meets a).posted = p.link.posted := by
  obtain ⟨pc, hpc⟩ := p.meets_frame a
  rw [hpc]

lemma besideRecv_of_machine {b : Machine.Label} (hb : a.machine = some b) :
    b.besideRecv = true := by
  cases a <;> cases hb <;> rfl

lemma inv_init (param : Mem) (isrClr : Station → UInt16) (memory : Buffer → SampleArray)
    (posMemory : PosList → Buffer → PositionArray) : (init param isrClr memory posMemory).Inv where
  handled := Nat.le_refl _
  prompt := Nat.zero_le _
  serves h := absurd rfl h
  sys _ := rfl
  reset h := by cases h
  isr _ := rfl
  store _ _ := rfl
  events _ := ⟨rfl, rfl, rfl⟩
  agree := ⟨rfl, fun _ => rfl⟩

namespace Inv

lemma idle (h : p.Inv) (hno : ¬ p.Handling) : p.handler = .idle := by
  by_contra hne
  obtain ⟨c, hc, -⟩ := h.serves hne
  exact hno (List.getElem?_eq_some_iff.1 hc).1

/-- A task of the link takes a step. -/
lemma link (h : p.Inv) {l : LinkLabel} {k : Link} (hl : a.link = some l)
    (hrecv : a.recvLabel.isSome → ¬ p.Handling) (hk : (p.meets a).step l = some k) :
    Inv { p with link := k } := by
  -- the calls stay, or there is one more and none before it is left
  have hcalls : k.recv.analyzed = p.link.recv.analyzed ∨
      p.handler = .idle ∧ p.link.recv.analyzed.length = p.handled ∧
        ∃ c, k.recv.analyzed = p.link.recv.analyzed ++ [c] := by
    rcases Link.step_recv hk with he | ⟨r, rfl, hr⟩
    · exact .inl (by rw [he, recv_meets])
    · have ha : a.recvLabel.isSome := by
        cases a with
        | recv l => rfl
        | _ => simp [Label.link] at hl
      have hno := hrecv ha
      rw [recv_meets] at hr
      rcases RecvTsk.step_analyzed hr with han | han
      · exact .inl han
      · exact .inr ⟨h.idle hno, Nat.le_antisymm (Nat.not_lt.1 hno) h.handled, han⟩
  rcases hcalls with hsame | ⟨hidle, hlen, c, han⟩
  · refine { h with handled := ?_, prompt := ?_, serves := ?_ }
    · rw [hsame]
      exact h.handled
    · rw [hsame]
      exact h.prompt
    · rw [hsame]
      exact h.serves
  · refine { h with handled := ?_, prompt := ?_, serves := fun hne => absurd hidle hne }
    · rw [han, List.length_append, hlen]
      exact Nat.le_add_right _ _
    · rw [han, List.length_append, hlen]
      exact Nat.le_refl _

/-- `local_cmd_analyze` returns. -/
lemma returned (h : p.Inv) (hh : p.Handling) (hsys : p.machine.sys.recv = .idle)
    (hisr : p.machine.isr.recv = .idle) (hstore : p.tests.RecvIdle) : p.returned.Inv where
  handled := hh
  prompt := Nat.le_succ_of_le h.prompt
  serves hne := absurd rfl hne
  sys _ := hsys
  reset hr := by cases hr
  isr _ := hisr
  store _ := hstore
  events := h.events
  agree := h.agree

lemma post (h : p.Inv) (ms : List LocalMsg) : Inv { p with link := p.link.postAll ms } :=
  { h with }

lemma agree_tests (h : p.Inv) {t : Position.State} (hframe : p.tests.Frame t)
    (hitem : t.posTestItem = p.tests.posTestItem) : Agree p.machine t :=
  ⟨h.agree.item.trans hitem.symm, fun n => (hframe.seen n).trans (h.agree.seen n)⟩

lemma agree_machine (h : p.Inv) {m : Machine}
    (hitem : m.isr.posTestItem = p.machine.isr.posTestItem)
    (hsent : ∀ n, (m.isr.side n).sent = (p.machine.isr.side n).sent) : Agree m p.tests :=
  ⟨hitem.trans h.agree.item, fun n => (h.agree.seen n).trans (hsent n).symm⟩

/-- `local_cmd_analyze` is called. -/
lemma call (h : p.Inv) (hh : p.handler = .idle) {c : SrvCmd}
    (hc : p.link.recv.analyzed[p.handled]? = some c)
    (hp : p.call cfg version c.order = some p') : p'.Inv := by
  have hlt : p.Handling := (List.getElem?_eq_some_iff.1 hc).1
  have hsys := h.sys (by rw [hh]; rfl)
  have hisr := h.isr (by rw [hh]; rintro ⟨⟩)
  have hstore := h.store (by rw [hh]; rintro ⟨⟩)
  cases ho : c.order with
  | handshake =>
    rw [ho] at hp
    obtain rfl := Option.some.inj hp
    exact (h.post [.handshake version]).returned hlt hsys hisr hstore
  | other =>
    rw [ho] at hp
    obtain rfl := Option.some.inj hp
    exact h.returned hlt hsys hisr hstore
  | reset =>
    rw [ho] at hp
    obtain ⟨m, hm, hp⟩ := Option.bind_eq_some_iff.1 hp
    obtain ⟨t, ht, rfl⟩ := Option.map_eq_some_iff.1 hp
    obtain ⟨hzero, hsame⟩ := Machine.step_reset hm
    obtain ⟨hframe, hitem, hkeep, -⟩ := Position.State.frame_reset ht
    refine ⟨h.handled, h.prompt, fun _ => ⟨c, hc, ho⟩, fun hw => (by cases hw), fun _ => ?_,
      fun _ => ?_, fun _ => hkeep.recvIdle hstore, fun n => hframe.isrIdle (h.events n), ?_⟩
    · change outsideWrite m.sys.recv = true
      rw [hzero]
      rfl
    · change m.isr.recv = .idle
      rw [hsame, hisr]
    · have hagree := h.agree_tests hframe hitem
      exact ⟨by change m.isr.posTestItem = _; rw [hsame]; exact hagree.item,
        fun n => by change _ = (m.isr.side n).sent; rw [hsame]; exact hagree.seen n⟩
  | sample r =>
    rw [ho] at hp
    obtain ⟨m, hm, rfl⟩ := Option.map_eq_some_iff.1 hp
    obtain ⟨hsame, -⟩ := Machine.step_sample hm
    refine ⟨h.handled, h.prompt, fun _ => ⟨c, hc, ho⟩, fun hw => (by cases hw),
      fun hr => (by cases hr), fun _ => ?_, fun _ => hstore, h.events,
      h.agree_machine (m := m) (by rw [hsame]) fun n => by rw [hsame]⟩
    change m.isr.recv = .idle
    rw [hsame, hisr]
  | posTest item =>
    rw [ho] at hp
    obtain ⟨m, hm, hp⟩ := Option.bind_eq_some_iff.1 hp
    obtain ⟨t, ht, rfl⟩ := Option.map_eq_some_iff.1 hp
    obtain ⟨hsame, -, hitem, hsent⟩ := Machine.step_command hm
    obtain ⟨hframe, hitem', hkeep, -⟩ := Position.State.frame_posTest ht
    refine ⟨h.handled, h.prompt, fun _ => ⟨c, hc, item, ho⟩, fun _ => ?_, fun hr => (by cases hr),
      fun hne => absurd rfl hne, fun _ => hkeep.recvIdle hstore,
      fun n => hframe.isrIdle (h.events n), hitem.trans hitem'.symm,
      fun n => (hframe.seen n).trans ((h.agree.seen n).trans (hsent n).symm)⟩
    change m.sys.recv = .idle
    rw [hsame, hsys]

/-- A step in `clear_array` does not lead into `write_array`. -/
lemma outsideWrite_step {s s' : Sys} (h : outsideWrite s.recv = true)
    (hs : s.step cfg .recv = some s') : outsideWrite s'.recv = true := by
  cases Sys.step_inv hs with
  | crash r hrecv | produce r buf f hrecv | link r buf hrecv =>
    rw [hrecv] at h
    cases h
  | zero | clear1 | clear2 | reply | finish => rfl

/-- The handler goes on in the machine. -/
lemma run (h : p.Inv) {m : Machine} (hh : p.InMachine) (hm : p.machine.step cfg .recv = some m) :
    (p.withMachine m).Inv := by
  rcases hh with ⟨hlists, -⟩ | ⟨hpos, hbusy⟩
  · have hne : p.handler ≠ .posTest := by
      rintro he
      rcases hlists with ⟨r, hr⟩ | hr
      · cases he.symm.trans hr
      · cases he.symm.trans hr
    have hat : p.handler.atLists = true := by
      rcases hlists with ⟨r, hr⟩ | hr
      · rw [hr]
        rfl
      · rw [hr]
        rfl
    obtain ⟨hs, hsame⟩ := Machine.step_recv_sys (h.isr hne) hm
    refine { h with
      sys := fun hw => absurd hat (Bool.eq_false_iff.1 hw)
      reset := fun hr => outsideWrite_step (h.reset hr) hs
      isr := fun _ => ?_
      agree := h.agree_machine (m := m) (by rw [hsame]) fun n => by rw [hsame] }
    change m.isr.recv = .idle
    rw [hsame, h.isr hne]
  · obtain ⟨hs, hsame⟩ := Machine.step_recv_isr hbusy hm
    have hframe : m.isr.posTestItem = p.machine.isr.posTestItem ∧
        ∀ n, (m.isr.side n).sent = (p.machine.isr.side n).sent := by
      generalize m.isr = i at hs
      cases Isr.State.step_inv hs with
      | done | read => exact ⟨rfl, fun _ => rfl⟩
      | write n u isrVal todo => exact ⟨rfl, Isr.sent_setSide rfl⟩
    refine { h with
      sys := fun hw => ?_
      reset := fun hr => ?_
      isr := fun hne => absurd hpos hne
      agree := h.agree_machine hframe.1 hframe.2 }
    · change m.sys.recv = .idle
      rw [hsame]
      exact h.sys hw
    · change outsideWrite m.sys.recv = true
      rw [hsame]
      exact h.reset hr

/-- What the handler has behind it when it is done. -/
lemma done (h : p.Inv) (hd : p.Done) : p.returned.Inv := by
  have hne : p.handler ≠ .idle := by
    rintro he
    rcases hd with ⟨hh, -⟩ | ⟨hh, -⟩ | ⟨hh, -⟩ <;> cases he.symm.trans hh
  obtain ⟨c, hc, -⟩ := h.serves hne
  refine h.returned (List.getElem?_eq_some_iff.1 hc).1 ?_ ?_ ?_
  · rcases hd with ⟨hh, -⟩ | ⟨-, hidle⟩ | ⟨hh, -⟩
    · exact h.sys (by rw [hh]; rfl)
    · exact hidle
    · exact h.sys (by rw [hh]; rfl)
  · rcases hd with ⟨hh, -⟩ | ⟨hh, -⟩ | ⟨-, hidle⟩
    · exact h.isr (by rw [hh]; rintro ⟨⟩)
    · exact h.isr (by rw [hh]; rintro ⟨⟩)
    · exact hidle
  · rcases hd with ⟨hh, hn⟩ | ⟨hh, -⟩ | ⟨hh, -⟩
    · intro n
      by_contra hprod
      rw [storing] at hn
      split_ifs at hn with h1 h2
      cases n with
      | one => exact h1 hprod
      | two => exact h2 hprod
    · exact h.store (by rw [hh]; rintro ⟨⟩)
    · exact h.store (by rw [hh]; rintro ⟨⟩)

/-- Every step keeps the parts together. -/
lemma step (h : p.Inv) (hs : Step cfg version p a p') : p'.Inv := by
  cases hs with
  | link _ l k hl hrecv hk => exact h.link hl hrecv hk
  | call c _ hh hc hp => exact h.call hh hc hp
  | written r t hh hidle ht =>
    obtain ⟨hframe, hitem, -⟩ := Position.State.frame_sample ht
    obtain ⟨c, hc, ho⟩ := h.serves (by rw [hh]; rintro ⟨⟩)
    rw [hh] at ho
    exact ⟨h.handled, h.prompt, fun _ => ⟨c, hc, r, ho⟩, fun _ => hidle, fun hr => (by cases hr),
      fun _ => h.isr (by rw [hh]; rintro ⟨⟩), fun hne => absurd rfl hne,
      fun n => hframe.isrIdle (h.events n), h.agree_tests hframe hitem⟩
  | run m hh hm => exact (h.run hh hm).post p.replies
  | store n t hh hn ht =>
    obtain ⟨hframe, hitem, -⟩ := Position.State.frame_recv ht
    exact { h with
      store := fun hne => absurd hh hne
      events := fun n => hframe.isrIdle (h.events n)
      agree := h.agree_tests hframe hitem }
  | full n hh hn ht => exact { h with }
  | done hd => exact h.done hd
  | machine _ b m hb hisr htests hm =>
    have hframe := Machine.frame_step (besideRecv_of_machine hb) hisr hm
    refine { h with
      sys := fun hw => hframe.sys.trans (h.sys hw)
      reset := fun hr => ?_
      isr := fun hne => hframe.isr.trans (h.isr hne)
      agree := h.agree_machine hframe.item hframe.sent }
    change outsideWrite m.sys.recv = true
    rw [hframe.sys]
    exact h.reset hr
  | isr n clock m t hm ht =>
    obtain ⟨hsys, hisr, haside, hagree⟩ := step_isr h.events h.agree hm ht
    refine { h with
      sys := fun hw => hsys.trans (h.sys hw)
      reset := fun hr => ?_
      isr := fun hne => hisr.trans (h.isr hne)
      store := fun hne => haside.recv.recvIdle (h.store hne)
      events := haside.isr h.events
      agree := hagree }
    change outsideWrite m.sys.recv = true
    rw [hsys]
    exact h.reset hr
  | writeKp n t ht =>
    obtain ⟨hframe, hitem, hkeep, -⟩ := Position.State.frame_writeKp ht
    exact { h with
      store := fun hne => hkeep.recvIdle (h.store hne)
      events := fun n => hframe.isrIdle (h.events n)
      agree := h.agree_tests hframe hitem }
  | crashKp | crashReply | crashDis => exact { h with }
  | dis l t ht =>
    obtain ⟨hframe, hitem, hkeep, -⟩ := Position.State.frame_dis ht
    exact { h with
      store := fun hne => hkeep.recvIdle (h.store hne)
      events := fun n => hframe.isrIdle (h.events n)
      agree := h.agree_tests hframe hitem }

end Inv

end Program

end RejectProcess
