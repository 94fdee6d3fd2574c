import RejectProcess.App.Commands
import RejectProcess.Sample.PositionValues

/-!
# From the interrupts to the position reports

What the position tests post for the client, traced back to the interrupts of the stations and to
the samples that it has sent.  A position task reads its message through a pointer to a variable
that the next interrupt assigns, so this holds of runs in which it reads it in time.
-/

namespace RejectProcess

open Lib Position
open Publish (PosList)

/-- What a request brings to the distance tests. -/
def Request.key : Request → Option (UInt32 × UInt64)
  | .sample r => some (r.count, r.wheelCode)
  | _ => none

namespace Position

/-- A handler is called for every sample that a frame brings. -/
lemma sampled_ofOrder (ts : List Label) :
    (ts.filter Label.ofOrder).filterMap Label.sampled = ts.filterMap Label.sampled := by
  induction ts with
  | nil => rfl
  | cons b ts ih =>
    cases b with
    | sample _ _ | posTest _ | reset =>
      rw [List.filter_cons_of_pos rfl, List.filterMap_cons, List.filterMap_cons, ih]
    | recv _ | kick _ _ | cmd _ _ | feedback _ _ | isr _ | writeKp _ | dis _ =>
      rw [List.filter_cons_of_neg Bool.false_ne_true, List.filterMap_cons_none rfl, ih]

end Position

namespace Machine

variable {cfg : SysConfig} {m m' : Machine} {l : Label}

lemma tests_step (h : ∀ n, (m.isr.side n).Tests) (hs : Step cfg m l m') :
    ∀ n, (m'.isr.side n).Tests := by
  have hisr : ∀ (i : Isr.State) (a : Isr.Label), m.isr.step a = some i → ∀ n, (i.side n).Tests :=
    fun i a hi => Isr.State.forall_side_step h (Isr.State.step_inv hi) (fun _ _ _ _ hd => hd)
      (fun _ _ _ _ _ hd hstep => hd.stepIsr hstep) fun n _ _ _ _ _ => h n
  cases hs with
  | isr n clock i _ hi => exact hisr i _ hi
  | other a i _ _ _ hi => exact hisr i _ hi
  | sys => exact h

/-- The test messages of the wheel codes are among the triggers. -/
lemma kt_sublist {isrClr : Station → UInt16} {memory : Buffer → SampleArray} {ls : List Label}
    (h : exec (step cfg) (init isrClr memory) ls = some m) (n : Station) :
    (m.isr.side n).kt.Sublist (m.isr.side n).kick := by
  have htests : ∀ n, (m.isr.side n).Tests :=
    (reach_any ls h).invariant (I := fun m => ∀ n, (m.isr.side n).Tests)
      (fun _ => ⟨[], rfl, .refl _⟩) fun _ _ _ hI _ hs => tests_step hI (step_inv hs).2
  obtain ⟨ks, hkick, hsub⟩ := htests n
  rw [hkick]
  exact hsub.trans (List.sublist_append_left _ _)

end Machine

namespace Program

variable {cfg : SysConfig} {version : Vector UInt8 32} {p : Program}

lemma keys_of_orders (requests : List Request) :
    ((requests.map Request.order).filterMap Order.tests).filterMap Position.Label.sampled =
      requests.filterMap Request.key := by
  rw [List.filterMap_map, List.filterMap_filterMap]
  refine List.filterMap_congr fun q _ => ?_
  cases q <;> rfl

/-- A message that reports test `l` has its item. -/
lemma item_of_reportOf {ms : List LocalMsg} {l : PosList} {x : UInt32 × UInt32}
    (hx : x ∈ ms.filterMap (LocalMsg.reportOf l)) : x.1 = item l := by
  obtain ⟨m, -, hm⟩ := List.mem_filterMap.1 hx
  cases m with
  | posReport i dis =>
    simp only [LocalMsg.reportOf, Option.ite_none_right_eq_some, Option.some.injEq] at hm
    rw [← hm.2]
    exact hm.1
  | handshake _ | reset => simp [LocalMsg.reportOf] at hm

/-! ### Messages that are read as they were posted -/

/-- A task of the position tests that moves reads its message as it was posted. -/
def TestsIntact (p : Program) : Label → Prop
  | .dis l => AllIntact p.tests (.dis l)
  | .writeKp n => AllIntact p.tests (.writeKp n)
  | _ => True

instance (p : Program) : DecidablePred p.TestsIntact
  | .dis l => inferInstanceAs (Decidable (p.tests.line l).ReadsIntact)
  | .writeKp n => inferInstanceAs (Decidable (p.tests.kp n).ReadsIntact)
  | .connect _ | .recv _ | .close | .send _ | .handle | .arrive .. | .isr .. | .crash _ | .trig _
  | .crashKp _ | .crashReply | .crashDis _ => .isTrue trivial

/-- The events of an interrupt task read no message. -/
lemma asPosted_isrTests (h : p.tests.AsPosted) {n : Station} {clock : Isr.Clock}
    {t : Position.State} (ht : p.isrTests n clock = some t) : t.AsPosted := by
  rw [isrTests] at ht
  cases he : isrEvent n clock (p.machine.isr.side n).pc with
  | none =>
    obtain rfl : p.tests = t := by simpa [he] using ht
    exact h
  | some a =>
    rw [he] at ht
    obtain ⟨t₁, ht₁, rfl⟩ := Option.map_eq_some_iff.1 ht
    have h₁ : t₁.AsPosted := by
      refine h.step ?_ ht₁
      generalize (p.machine.isr.side n).pc = pc at he
      rw [isrEvent.eq_def] at he
      split at he
      all_goals cases he
      all_goals trivial
    cases hpost : t₁.stepIsr n with
    | none => exact h₁
    | some t₂ => exact h₁.step (a := .isr n) trivial hpost

/-- A call of `local_cmd_analyze` reads none either. -/
lemma asPosted_call (h : p.tests.AsPosted) {o : Order} {p' : Program}
    (hp : p.call cfg version o = some p') : p'.tests.AsPosted := by
  cases o with
  | handshake | other =>
    obtain rfl := Option.some.inj hp
    exact h
  | sample r =>
    obtain ⟨m, -, rfl⟩ := Option.map_eq_some_iff.1 hp
    exact h
  | reset =>
    obtain ⟨m, -, hp⟩ := Option.bind_eq_some_iff.1 hp
    obtain ⟨t, ht, rfl⟩ := Option.map_eq_some_iff.1 hp
    exact h.step (a := .reset) trivial ht
  | posTest item =>
    obtain ⟨m, -, hp⟩ := Option.bind_eq_some_iff.1 hp
    obtain ⟨t, ht, rfl⟩ := Option.map_eq_some_iff.1 hp
    exact h.step (a := .posTest item) trivial ht

lemma asPosted_step (h : p.tests.AsPosted) {a : Label} {p' : Program} (hok : p.TestsIntact a)
    (hs : Step cfg version p a p') : p'.tests.AsPosted := by
  cases hs with
  | call c _ hh hc hp => exact asPosted_call h hp
  | written r t hh hidle ht => exact h.step (a := .sample r.count r.wheelCode) trivial ht
  | store n t hh hn ht => exact h.step (a := .recv n) trivial ht
  | isr n clock m t hm ht => exact asPosted_isrTests h ht
  | writeKp n t ht => exact h.step (a := .writeKp n) hok ht
  | dis l t ht => exact h.step (a := .dis l) hok ht
  | link | run | full | done | machine | crashKp | crashReply | crashDis => exact h

/-! ### What the reports say -/

/-- The position reports of the process are explained by the interrupts and the requests. -/
structure ReportsExplained (requests : List Request) (p : Program) : Prop where
  /-- The messages about a test: each says what was read for its event measures against its record,
  or what the one before it has said. -/
  values : ∀ l, p.link.posted.filterMap (LocalMsg.reportOf l) =
    (heldAll 0 ((p.tests.line l).reports.map Report.measure)).map fun dis => (item l, dis)
  /-- What was read is what the event was posted with. -/
  read : ∀ l, ∀ rep ∈ (p.tests.line l).reports, rep.record.isSome → rep.cur = rep.event.stamp
  /-- There is one for each event, in their order. -/
  events : ∀ l, (p.tests.line l).EventsInOrder
  /-- The records are taken in the order in which they were stored, each for one report. -/
  records : ∀ l, (p.tests.line l).stored =
    (p.tests.line l).reports.filterMap Report.record ++ (p.tests.line l).pc.record.toList ++
      (p.tests.line l).list.map (p.tests.line l).record
  /-- The records of a distance test are, in their order, some of the samples that the client has
  sent. -/
  samples : ∀ n, ((p.tests.line (.c1Kt n)).stored.map Stored.key).Sublist
    ((requests.take p.tested).filterMap Request.key)
  /-- Its events are some of the position interrupts of the station. -/
  passes : ∀ n, (p.tests.line (.c1Kt n)).events.map Event.stamp =
      (p.machine.isr.side n).kt.map .wheelCode ∧
    (p.machine.isr.side n).kt.Sublist (p.machine.isr.side n).kick
  /-- The records of a time test are the kick commands that its station has told, up to those on the
  way. -/
  kicks : ∀ n, ((p.tests.line (.kpKft n)).stored.map fun r => r.sample.cTime) <+:
    (p.machine.isr.side n).kp
  /-- Its events are the feedbacks that its station has told. -/
  feedbacks : ∀ n, (p.tests.line (.kpKft n)).events.map Event.stamp =
    (p.machine.isr.side n).kft.map .time

/-- A connection on which test 2 is selected and the first product's sample frame comes. -/
def testAndSample : Incoming where
  frames := [RecvTsk.posTestFrame, (Request.sample (Sys.frame 1)).frame]
  torn := RecvTsk.resetFrame
  received := 0
  chunks := [RecvTsk.posTestFrame.header, [2, 0, 0, 0],
    (Request.sample (Sys.frame 1)).frame.header, (Request.sample (Sys.frame 1)).frame.body]

/-- The sample is stored, and its product passes station 1 at the wheel code 250. -/
def onePass : List Label :=
  List.replicate 5 (.connect true) ++ (testAndSample.labels.take 3).map .recv ++
    List.replicate 7 .handle ++ (testAndSample.labels.drop 3).map .recv ++
    List.replicate 7 .handle ++ passes 250 ++ List.replicate 7 (.dis (.c1Kt .one))

/-- The report tells the way from the sample to the kick tube. -/
example : (exec (step SysConfig.default (Vector.replicate 32 0)) start onePass).map
    (fun p => p.link.posted.filterMap (LocalMsg.reportOf (.c1Kt .one))) =
      some [(2, 250)] := by decide +kernel

end Program

end RejectProcess
