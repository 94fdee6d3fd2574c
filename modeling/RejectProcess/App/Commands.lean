import RejectProcess.App.ProgramRefines
import RejectProcess.Sample.Provenance

/-!
# From the requests to the commands

What the process writes to the command registers, traced back to the requests that the client has
sent and to the position interrupts of the stations.
-/

namespace RejectProcess

open Lib Position
open Publish (PosList)

namespace Machine

variable {cfg : SysConfig} {m m' : Machine} {l : Label}

/-- The sample that `write_array` is called for and does not skip. -/
def Label.asked : Label → Option SampleResult
  | .sample r => if r.pos ≠ 0 then some r else none
  | _ => none

/-- A step is a run of the tasks around the sample lists, with the sample that it brings and the
trigger that it posts. -/
def SysRun (cfg : SysConfig) (m : Machine) (asked : List SampleResult) (m' : Machine) : Prop :=
  ∃ as, exec (Sys.step cfg) m.sys as = some m'.sys ∧
    as.filterMap RejectProcess.Label.asked = asked ∧
      ∀ n, (m'.isr.side n).kick =
        (m.isr.side n).kick ++ as.filterMap (RejectProcess.Label.kickAt n)

/-- The interrupt registers move. -/
lemma sysRun_isr {i : Isr.State} {a : Isr.Label} (hs : m.isr.step a = some i)
    (ha : ∀ n clock, a ≠ .isr n clock) : SysRun cfg m [] (m.withIsr i) := by
  refine ⟨[], rfl, rfl, fun n => ?_⟩
  change (i.side n).kick = _
  rw [kick_step (Isr.State.step_inv hs) ha, List.filterMap_nil, List.append_nil]

/-- A task around the sample lists moves. -/
lemma sysRun_sys {s : Sys} {a : RejectProcess.Label} (hs : m.sys.step cfg a = some s)
    (ha : ∀ n code, a ≠ .kick n code) : SysRun cfg m a.asked.toList (m.withSys s) := by
  refine ⟨[a], by rw [exec_cons, hs]; rfl, ?_, fun n => ?_⟩
  · cases h : a.asked <;> simp [h]
  · have hno : a.kickAt n = none := by
      cases a with
      | kick n' code => exact absurd rfl (ha n' code)
      | _ => rfl
    rw [List.filterMap_cons_none hno, List.filterMap_nil, List.append_nil]
    rfl

/-- An interrupt task moves, and posts its trigger on the way. -/
lemma sysRun_isrMoved {n : Station} {clock : Isr.Clock} {i : Isr.State}
    (halive : m.sys.exited = false) (hs : m.isr.step (.isr n clock) = some i) :
    SysRun cfg m [] (m.isrMoved n clock i) := by
  cases Isr.State.step_inv hs with
  | isr _ _ d hd =>
    have hkick := kick_stepIsr hd
    have hside : ∀ k, k ≠ n → ((m.isr.setSide n d).side k).kick = (m.isr.side k).kick := by
      intro k hk
      rw [Isr.State.side_setSide_of_ne hk]
    by_cases hpost : postsTrigger (m.isr.side n).pc = true
    · rw [if_pos hpost] at hkick
      refine ⟨[.kick n clock.wheelCode], ?_, rfl, fun k => ?_⟩
      · rw [exec_cons, isrMoved, if_pos hpost]
        simp [Sys.step, halive]
      · change ((m.isr.setSide n d).side k).kick = _
        by_cases hk : k = n
        · subst hk
          rw [Isr.State.side_setSide_self, hkick]
          simp [RejectProcess.Label.kickAt]
        · rw [hside k hk]
          simp [RejectProcess.Label.kickAt, Ne.symm hk]
    · rw [if_neg hpost] at hkick
      refine ⟨[], ?_, rfl, fun k => ?_⟩
      · rw [isrMoved, if_neg hpost, exec_nil]
      · change ((m.isr.setSide n d).side k).kick = _
        rw [List.filterMap_nil, List.append_nil]
        by_cases hk : k = n
        · subst hk
          rw [Isr.State.side_setSide_self, hkick]
        · exact hside k hk

lemma sysRun_step (hs : m.step cfg l = some m') : SysRun cfg m l.asked.toList m' := by
  unfold step at hs
  split at hs
  · cases hs
  next hexited =>
  have halive : m.sys.exited = false := (Bool.or_eq_false_iff.1 (Bool.eq_false_iff.2 hexited)).2
  cases l with
  | arrive n bits =>
    obtain ⟨i, hi, rfl⟩ := Option.map_eq_some_iff.1 hs
    exact sysRun_isr hi (by rintro _ _ ⟨⟩)
  | crash n =>
    obtain ⟨i, hi, rfl⟩ := Option.map_eq_some_iff.1 hs
    exact sysRun_isr hi (by rintro _ _ ⟨⟩)
  | command item =>
    simp only [Option.ite_none_right_eq_some] at hs
    obtain ⟨i, hi, rfl⟩ := Option.map_eq_some_iff.1 hs.2
    exact sysRun_isr hi (by rintro _ _ ⟨⟩)
  | isr n clock =>
    obtain ⟨i, hi, rfl⟩ := Option.map_eq_some_iff.1 hs
    exact sysRun_isrMoved halive hi
  | sample r =>
    simp only [Option.ite_none_right_eq_some] at hs
    obtain ⟨s, hs', rfl⟩ := Option.map_eq_some_iff.1 hs.2
    exact sysRun_sys hs' (by rintro _ _ ⟨⟩)
  | reset =>
    simp only [Option.ite_none_right_eq_some] at hs
    obtain ⟨s, hs', rfl⟩ := Option.map_eq_some_iff.1 hs.2
    exact sysRun_sys hs' (by rintro _ _ ⟨⟩)
  | trig n =>
    obtain ⟨s, hs', rfl⟩ := Option.map_eq_some_iff.1 hs
    exact sysRun_sys hs' (by rintro _ _ ⟨⟩)
  | recv =>
    dsimp only at hs
    split at hs
    · obtain ⟨s, hs', rfl⟩ := Option.map_eq_some_iff.1 hs
      exact sysRun_sys hs' (by rintro _ _ ⟨⟩)
    · obtain ⟨i, hi, rfl⟩ := Option.map_eq_some_iff.1 hs
      exact sysRun_isr hi (by rintro _ _ ⟨⟩)

/-- A run of the machine is a run of the tasks around the sample lists, with the same samples and
the triggers of the interrupt tasks. -/
lemma sys_exec {isrClr : Station → UInt16} {memory : Buffer → SampleArray} {ls : List Label}
    (h : exec (step cfg) (init isrClr memory) ls = some m) :
    ∃ as, exec (Sys.step cfg) (Sys.init memory) as = some m.sys ∧
      as.filterMap RejectProcess.Label.asked = ls.filterMap Label.asked ∧
        ∀ n, as.filterMap (RejectProcess.Label.kickAt n) = (m.isr.side n).kick := by
  let I : List Label → Machine → Prop := fun ls m =>
    ∃ as, exec (Sys.step cfg) (Sys.init memory) as = some m.sys ∧
      as.filterMap RejectProcess.Label.asked = ls.filterMap Label.asked ∧
        ∀ n, as.filterMap (RejectProcess.Label.kickAt n) = (m.isr.side n).kick
  have h0 : I [] (init isrClr memory) := ⟨[], rfl, rfl, fun _ => rfl⟩
  refine exec_history (I := I) (fun ls m l m' hI hs => ?_) h0 h
  obtain ⟨as, has, hasked, hkick⟩ := hI
  obtain ⟨bs, hbs, hasked', hkick'⟩ := sysRun_step hs
  refine ⟨as ++ bs, ?_, ?_, fun n => ?_⟩
  · rw [exec_append, has]
    exact hbs
  · rw [List.filterMap_append, List.filterMap_append, hasked, hasked']
    cases hl : l.asked <;> simp [hl]
  · rw [List.filterMap_append, hkick n, hkick' n]

/-- Where a search task reads the wheel code that its trigger was posted with, every search is made
for its trigger. -/
lemma ownCodes_step (h : m.sys.OwnCodes cfg)
    (hok : ∀ n, l = .trig n → m.sys.ReadsIntact cfg (.trig n)) (hs : m.step cfg l = some m') :
    m'.sys.OwnCodes cfg := by
  cases (step_inv hs).2 with
  | isr n clock i hl hi =>
    rw [isrMoved]
    split_ifs
    · have hkick : m.sys.ReadsIntact cfg (.kick n clock.wheelCode) := trivial
      exact h.step hkick (.kick n clock.wheelCode)
    · exact h
  | other a i => exact h
  | sys a s _ _ htrig hs' =>
    refine h.step ?_ (Sys.step_inv hs')
    cases a with
    | trig n => exact hok n (htrig n rfl)
    | sample | reset | recv | kick => trivial

/-- A handler is called for every sample that is asked for. -/
lemma asked_ofOrder (ms : List Label) :
    (ms.filter Label.ofOrder).filterMap Label.asked = ms.filterMap Label.asked := by
  induction ms with
  | nil => rfl
  | cons b ms ih =>
    cases b with
    | sample r | reset | command _ =>
      rw [List.filter_cons_of_pos rfl, List.filterMap_cons, List.filterMap_cons, ih]
    | arrive _ _ | isr _ _ | crash _ | recv | trig _ =>
      rw [List.filter_cons_of_neg Bool.false_ne_true, List.filterMap_cons_none rfl, ih]

end Machine

/-- The sample that a request asks to be ejected. -/
def Request.asked : Request → Option SampleResult
  | .sample r => if r.pos ≠ 0 then some r else none
  | _ => none

namespace Program

variable {cfg : SysConfig} {version : Vector UInt8 32} {p p' : Program} {a : Label}

lemma asked_of_orders (requests : List Request) :
    ((requests.map Request.order).filterMap Order.machine).filterMap Machine.Label.asked =
      requests.filterMap Request.asked := by
  rw [List.filterMap_map, List.filterMap_filterMap]
  refine List.filterMap_congr fun q _ => ?_
  cases q <;> rfl

/-- A search task that reads the wheel code of its trigger reads the one that the trigger was posted
with. -/
def TriggersIntact (cfg : SysConfig) (p : Program) : Label → Prop
  | .trig n => p.machine.sys.ReadsIntact cfg (.trig n)
  | _ => True

instance decidableTriggersIntact : Decidable (TriggersIntact cfg p a) :=
  match a with
  | .trig n => inferInstanceAs (Decidable (p.machine.sys.ReadsIntact cfg (.trig n)))
  | .connect _ | .recv _ | .close | .send _ | .handle | .arrive _ _ | .isr _ _ | .crash _
  | .writeKp _ | .crashKp _ | .crashReply | .crashDis _ | .dis _ => isTrue trivial

lemma ownCodes_step (h : p.machine.sys.OwnCodes cfg) (hok : p.TriggersIntact cfg a)
    (hs : Step cfg version p a p') : p'.machine.sys.OwnCodes cfg := by
  have hother : ∀ {l m}, (∀ n, l ≠ .trig n) → p.machine.step cfg l = some m →
      m.sys.OwnCodes cfg := fun hl hm =>
    Machine.ownCodes_step h (fun n heq => absurd heq (hl n)) hm
  cases hs with
  | link | written | store | full | done | writeKp | crashKp | crashReply | crashDis | dis =>
    exact h
  | call c _ hh hc hp =>
    cases ho : c.order with
    | handshake | other =>
      rw [ho] at hp
      obtain rfl := Option.some.inj hp
      exact h
    | reset | posTest item =>
      rw [ho] at hp
      obtain ⟨m, hm, hp⟩ := Option.bind_eq_some_iff.1 hp
      obtain ⟨t, ht, rfl⟩ := Option.map_eq_some_iff.1 hp
      exact hother (by rintro n ⟨⟩) hm
    | sample r =>
      rw [ho] at hp
      obtain ⟨m, hm, rfl⟩ := Option.map_eq_some_iff.1 hp
      exact hother (by rintro n ⟨⟩) hm
  | run m hh hm => exact hother (by rintro n ⟨⟩) hm
  | machine _ b m hb hisr htests hm =>
    refine Machine.ownCodes_step h (fun n heq => ?_) hm
    subst heq
    cases a with
    | trig n' =>
      obtain rfl : n' = n := by simpa [Label.machine] using hb
      exact hok
    | _ => cases hb
  | isr n clock m t hm ht => exact hother (by rintro n ⟨⟩) hm

/-- The commands of the process are explained by the requests and the position interrupts. -/
structure CommandsExplained (cfg : SysConfig) (requests : List Request) (p : Program) : Prop where
  /-- A position interrupt that has set its bit has been answered by one command, is on its way, or
  was cleared by a write for another interrupt. -/
  interrupts : ∀ n, (p.machine.isr.side n).rises =
    (p.machine.commandsTo n).length + p.machine.underway n + (p.machine.isr.side n).lost
  /-- The commands answer the interrupts in their order, and what they eject was asked for. -/
  commands : p.machine.sys.Explained cfg ((requests.take p.entered).filterMap Request.asked)
    fun n => (p.machine.isr.side n).kick

/-- A connection on which the first product's sample frame comes. -/
def sampleSent : Incoming where
  frames := [(Request.sample (Sys.frame 1)).frame]
  torn := RecvTsk.resetFrame
  received := 0
  chunks := [(Request.sample (Sys.frame 1)).frame.header, (Request.sample (Sys.frame 1)).frame.body]

/-- The sample is written, and the product passes station 1. -/
def oneProduct : List Label :=
  List.replicate 5 (.connect true) ++ sampleSent.labels.map .recv ++ List.replicate 5 .handle ++
    passes 100 ++ List.replicate 7 (.trig .one)

/-- The product is ejected. -/
example : (exec (step SysConfig.default (Vector.replicate 32 0)) start oneProduct).map
    (fun p => (p.machine.commandsTo .one).map fun c => (c.val, c.search.found)) =
      some [(1, some 0)] := by decide +kernel

end Program

end RejectProcess
