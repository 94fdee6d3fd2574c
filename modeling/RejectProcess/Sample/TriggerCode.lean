import RejectProcess.Sample.Ejection

/-!
# The wheel code of a trigger

A trigger message carries the address of a variable that the next position interrupt of its station
sets anew, so a search task that is late reads the wheel code of another product.  In runs in which
it reads the one that the trigger was posted with, every search is made for its trigger.
-/

namespace RejectProcess

open Lib

/-- The search is one by count. -/
def Query.isCount : Query → Bool
  | .count _ => true
  | .wheelCode _ => false

/-- The station searches by count: only station 1 does, in counting mode. -/
def countsAt (cfg : SysConfig) (n : Station) : Bool := n = .one ∧ cfg.kickMode = 0

/-- What station `n` searches for when it handles a trigger. -/
def Query.For (cfg : SysConfig) (n : Station) (k : Kick) (q : Query) : Prop :=
  if countsAt cfg n then q.isCount = true else q = .wheelCode k.code

/-- The search that a task has in hand is made for its trigger. -/
def TrigPc.For (cfg : SysConfig) (n : Station) : TrigPc → Prop
  | .counting _ _ => n = .one
  | .counted _ => n = .one
  | .searching k q _ => q.For cfg n k
  | .searched r => r.query.For cfg n r.kick
  | _ => True

namespace Sys

variable {cfg : SysConfig} {s s' : Sys} {l : Label}

/-- A search task that reads the wheel code of its trigger reads the one that the trigger was posted
with: no later interrupt of the station has set the variable. -/
def ReadsIntact (cfg : SysConfig) (s : Sys) : Label → Prop
  | .trig n =>
    match s.trig n with
    | .pended k => n = .two → s.wheelCode n k = k.code
    | .counted k => cfg.kickMode ≠ 0 → s.wheelCode n k = k.code
    | _ => True
  | _ => True

instance decidableReadsIntact : Decidable (ReadsIntact cfg s l) :=
  match l with
  | .trig n =>
    match h : s.trig n with
    | .pended k =>
      decidable_of_iff (n = .two → s.wheelCode n k = k.code) (by rw [ReadsIntact, h])
    | .counted k =>
      decidable_of_iff (cfg.kickMode ≠ 0 → s.wheelCode n k = k.code) (by rw [ReadsIntact, h])
    | .idle | .counting _ _ | .searching _ _ _ | .searched _ | .written _ =>
      isTrue (by rw [ReadsIntact, h]; trivial)
  | .sample _ | .reset | .recv | .kick _ _ => isTrue trivial

/-- Every search is made for the trigger that it answers. -/
structure OwnCodes (cfg : SysConfig) (s : Sys) : Prop where
  trig : ∀ n, (s.trig n).For cfg n
  fifo : ∀ c ∈ s.fifo, c.search.query.For cfg c.station c.search.kick

namespace OwnCodes

lemma init (memory : Buffer → SampleArray) : OwnCodes cfg (init memory) :=
  ⟨fun _ => trivial, by rintro c ⟨⟩⟩

/-- A search task moves on. -/
lemma goto (h : OwnCodes cfg s) (n : Station) (pc : TrigPc) (hpc : pc.For cfg n)
    (htrig : s'.trig = (s.setTrig n pc).trig) (hfifo : s'.fifo = s.fifo) : OwnCodes cfg s' := by
  refine ⟨fun n' => ?_, by rw [hfifo]; exact h.fifo⟩
  rw [htrig]
  by_cases hn : n' = n
  · subst hn
    rw [setTrig_trig_self]
    exact hpc
  · rw [setTrig_trig_of_ne _ hn]
    exact h.trig n'

lemma step (h : OwnCodes cfg s) (hok : ReadsIntact cfg s l) (hs : Step cfg s l s') :
    OwnCodes cfg s' := by
  have hpc : ∀ {n pc}, s.trig n = pc → pc.For cfg n := by
    rintro n pc rfl
    exact h.trig n
  cases hs with
  | skip | sample | reset | crash | produce | link | zero | clear1 | clear2 | reply | finish
  | kick => exact ⟨h.trig, h.fifo⟩
  | pend n k rest => exact h.goto n (.pended k) trivial rfl rfl
  | readCount k => exact h.goto .one (.counting k s.curCountKt1) rfl rfl rfl
  | call2 k hk =>
    rw [ReadsIntact, hk] at hok
    refine h.goto .two (.searching k (.wheelCode _) 0) ?_ rfl rfl
    simp [TrigPc.For, Query.For, countsAt, hok rfl]
  | countUp n k cur hk =>
    have hone : n = .one := hpc hk
    exact h.goto n (.counted k) hone rfl rfl
  | callCount n k hk hm =>
    obtain rfl : n = .one := hpc hk
    refine h.goto .one (.searching k (.count _) s.hist.era) ?_ rfl rfl
    simp [TrigPc.For, Query.For, countsAt, hm, Query.isCount]
  | callWheelCode n k hk hm =>
    rw [ReadsIntact, hk] at hok
    refine h.goto n (.searching k (.wheelCode _) 0) ?_ rfl rfl
    simp [TrigPc.For, Query.For, countsAt, hm, hok hm]
  | search n k q era hk =>
    have hfor : q.For cfg n k := hpc hk
    let found : Search :=
      { kick := k, query := q, era := era, listed := s.listed n, cleared := s.hist.cleared n,
        found := (searchLocked (q.test cfg n) n s.mem).1.map s.hist.number }
    exact h.goto n (.searched found) hfor rfl rfl
  | command n r hk =>
    have hfor : r.query.For cfg n r.kick := hpc hk
    have hgoto : OwnCodes cfg (s.setTrig n (.written r.kick)) :=
      h.goto n (.written r.kick) trivial rfl rfl
    refine ⟨hgoto.trig, fun c hc => ?_⟩
    rcases List.mem_append.1 hc with hc | hc
    · exact h.fifo c hc
    · obtain rfl := List.mem_singleton.1 hc
      exact hfor
  | done n k => exact h.goto n .idle trivial rfl rfl

end OwnCodes

end Sys

end RejectProcess
