import Mathlib.Data.Fintype.Basic
import RejectProcess.Tool.MsgPool

/-!
# Messages and process lifetimes

`mailbox_create` opens a named queue, and what is in such a queue stays there when the process
ends.  A message is a copy of a `struct message`, whose pointers go into the `msg_array` of the
process that posted it, and the next process allocates a new one.
-/

namespace RejectProcess

open Lib

/-- The `msg_array` that the pointers of a copy go into, by its address.  History: the lifetime
that allocated it. -/
structure Origin (A : Type*) where
  base : A
  life : ℕ
deriving DecidableEq, Repr

/-- History: a message that `mailbox_pend` has returned.  `node` is the slot in the array that it
comes from, and `now` the array of the process at that moment. -/
structure Pended (A : Type*) where
  origin : Origin A
  now : Origin A
  node : ℕ
deriving DecidableEq, Repr

/-- A process and the message queues.  The queues `sys.mbx`, with the origins of what is in them,
outlive the process. -/
structure Lifetime (A ι β π ρ : Type*) where
  running : Bool
  now : Origin A
  sys : MsgSys ι β π ρ
  origins : β → List (Origin A)
  /-- Where the copy that a task has taken comes from. -/
  copy : ι → Origin A
  pended : List (Pended A)

/-- What can happen: a process starts, with its `msg_array` at `base`, or ends, or a task makes
a call. -/
inductive LifeLabel (A ι β π ρ : Type*)
  | start (base : A)
  | stop
  | call (i : ι) (c : MsgCall β π ρ)

namespace Lifetime

variable {A ι β π ρ : Type*}

/-- Before the first process there are no messages. -/
def init (base : A) (payload : ℕ → ℕ → MsgPayload π ρ) (cast : ι → Option β) :
    Lifetime A ι β π ρ where
  running := false
  now := { base := base, life := 0 }
  sys := .init payload cast
  origins := fun _ => []
  copy := fun _ => { base := base, life := 0 }
  pended := []

variable (s : Lifetime A ι β π ρ)

/-- `main`: a new message factory, and `mq_open` without `O_EXCL` on the queues as they are. -/
def start (payload : ℕ → ℕ → MsgPayload π ρ) (cast : ι → Option β) (base : A) :
    Lifetime A ι β π ρ :=
  let now := { base := base, life := s.now.life + 1 }
  { s with
    running := true
    now := now
    sys := { MsgSys.init payload cast with mbx := s.sys.mbx }
    copy := fun _ => now }

/-- The process ends. -/
def stop : Lifetime A ι β π ρ := { s with running := false }

variable [DecidableEq A] [DecidableEq ι] [DecidableEq β]

/-- `msg_factory_produce` by task `i`. -/
def produce (i : ι) (b : β) : Option (Lifetime A ι β π ρ) :=
  match s.sys.hold i, s.sys.factory.list with
  -- `ERROR("msg factory crash !")`
  | .none, [] => some s.stop
  | _, _ => (s.sys.produce i b).map fun y => { s with sys := y }

/-- `mailbox_post` by task `i`. -/
def post (i : ι) : Option (Lifetime A ι β π ρ) :=
  match s.sys.hold i with
  | .producing k _ =>
    match (s.sys.factory.msgArray k).id with
    | some b =>
      (s.sys.post i).map fun y =>
        { s with sys := y, origins := Function.update s.origins b (s.origins b ++ [s.now]) }
    | none => none
  | _ => none

/-- `mailbox_pend` by task `i`. -/
def pend (i : ι) : Option (Lifetime A ι β π ρ) :=
  match s.sys.own i with
  | some b =>
    match s.sys.mbx b, s.origins b with
    | x :: _, o :: os =>
      (s.sys.pend i).map fun y =>
        { s with
          sys := y
          origins := Function.update s.origins b os
          copy := Function.update s.copy i o
          pended := { origin := o, now := s.now, node := x.1.node } :: s.pended }
    | _, _ => none
  | none => none

/-- A call by task `i`.  The pointers of its copy can be followed if they go into the array of
this process. -/
def call (i : ι) (c : MsgCall β π ρ) : Option (Lifetime A ι β π ρ) :=
  match c with
  | .produce b => s.produce i b
  | .setData p => (s.sys.step i (.setData p)).map fun y => { s with sys := y }
  | .post => s.post i
  | .pend => s.pend i
  | c =>
    if (s.copy i).base = s.now.base then (s.sys.step i c).map fun y => { s with sys := y } else none

/-- One step. -/
def step (payload : ℕ → ℕ → MsgPayload π ρ) (cast : ι → Option β) (s : Lifetime A ι β π ρ) :
    LifeLabel A ι β π ρ → Option (Lifetime A ι β π ρ)
  | .start base => if s.running then none else some (s.start payload cast base)
  | .stop => if s.running then some s.stop else none
  | .call i c => if s.running then s.call i c else none

/-- What a call does to the messages: nothing, if the process ends, or what the call does, and
to the history: nothing, or what `mailbox_post` or `mailbox_pend` do. -/
inductive Call (s : Lifetime A ι β π ρ) : Lifetime A ι β π ρ → Prop
  | crash : Call s s.stop
  | other (i : ι) (c : MsgCall β π ρ) (y : MsgSys ι β π ρ) : s.sys.step i c = some y →
      y.mbx = s.sys.mbx → Call s { s with sys := y }
  | post (i : ι) (y : MsgSys ι β π ρ) (b : β) (x : Message β × List (MsgPayload π ρ)) :
      s.sys.step i .post = some y → y.mbx = Function.update s.sys.mbx b (s.sys.mbx b ++ [x]) →
      Call s { s with sys := y, origins := Function.update s.origins b (s.origins b ++ [s.now]) }
  | pend (i : ι) (y : MsgSys ι β π ρ) (b : β) (x : Message β × List (MsgPayload π ρ))
      (rest : List (Message β × List (MsgPayload π ρ))) (o : Origin A) (os : List (Origin A)) :
      s.sys.step i .pend = some y → s.sys.mbx b = x :: rest → s.origins b = o :: os →
      y.mbx = Function.update s.sys.mbx b rest →
      Call s { s with
        sys := y
        origins := Function.update s.origins b os
        copy := Function.update s.copy i o
        pended := { origin := o, now := s.now, node := x.1.node } :: s.pended }

variable {s} {s' : Lifetime A ι β π ρ} {i : ι}

omit [DecidableEq A] in
lemma call_produce {b : β} (hs : s.produce i b = some s') : Call s s' := by
  unfold produce at hs
  split at hs
  case h_1 =>
    cases hs
    exact .crash
  case h_2 =>
    obtain ⟨y, hy, rfl⟩ := Option.map_eq_some_iff.1 hs
    refine .other i (.produce b) y hy ?_
    obtain ⟨-, k, rest, -, rfl⟩ := MsgSys.produce_eq_some.1 hy
    rfl

omit [DecidableEq A] in
lemma call_post (hs : s.post i = some s') : Call s s' := by
  obtain ⟨k, sent, b, hi, hid, rfl⟩ := MsgSys.map_post_eq_some.1 hs
  refine .post i (s.sys.posted i k sent b) b (s.sys.factory.msgArray k, sent) ?_ rfl
  exact MsgSys.post_eq_some.2 ⟨k, sent, b, hi, hid, rfl⟩

omit [DecidableEq A] in
lemma call_pend (hs : s.pend i = some s') : Call s s' := by
  unfold pend at hs
  cases ho : s.sys.own i with
  | none => simp [ho] at hs
  | some b =>
    cases hb : s.sys.mbx b with
    | nil => simp [ho, hb] at hs
    | cons x rest =>
      cases hos : s.origins b with
      | nil => simp [ho, hb, hos] at hs
      | cons o os =>
        simp only [ho, hb, hos] at hs
        obtain ⟨y, hy, rfl⟩ := Option.map_eq_some_iff.1 hs
        refine .pend i y b x rest o os hy hb hos ?_
        obtain ⟨-, b', x', rest', ho', hb', rfl⟩ := MsgSys.pend_eq_some.1 hy
        obtain rfl : b = b' := by simpa [ho] using ho'
        obtain ⟨-, rfl⟩ : x = x' ∧ rest = rest' := by simpa [hb] using hb'
        rfl

lemma call_inv {c : MsgCall β π ρ} (hs : s.call i c = some s') : Call s s' := by
  have hguard : ∀ {c : MsgCall β π ρ}, (∀ y, s.sys.step i c = some y → y.mbx = s.sys.mbx) →
      (if (s.copy i).base = s.now.base then
        (s.sys.step i c).map fun y => { s with sys := y } else none) = some s' → Call s s' := by
    intro c hmbx hs
    split at hs
    case isTrue =>
      obtain ⟨y, hy, rfl⟩ := Option.map_eq_some_iff.1 hs
      exact .other i c y hy (hmbx y hy)
    case isFalse => cases hs
  cases c with
  | produce b => exact call_produce hs
  | post => exact call_post hs
  | pend => exact call_pend hs
  | setData p =>
    obtain ⟨y, hy, rfl⟩ := Option.map_eq_some_iff.1 hs
    refine .other i _ y hy ?_
    obtain ⟨k, sent, -, rfl⟩ := MsgSys.setData_eq_some.1 hy
    rfl
  | getData =>
    refine hguard (fun y hy => ?_) hs
    obtain ⟨⟨p, q, z⟩, hz, rfl⟩ := Option.map_eq_some_iff.1 hy
    obtain ⟨m, sent, -, -, -, rfl⟩ := MsgSys.getData_eq_some.1 hz
    rfl
  | getDataNum =>
    refine hguard (fun y hy => ?_) hs
    obtain ⟨n, -, rfl⟩ := Option.map_eq_some_iff.1 hy
    rfl
  | recycle =>
    refine hguard (fun y hy => ?_) hs
    obtain ⟨⟨ran, z⟩, hz, rfl⟩ := Option.map_eq_some_iff.1 hy
    obtain ⟨m, sent, -, -, rfl⟩ := MsgSys.recycle_eq_some.1 hz
    rfl

/-! ## The messages of one lifetime -/

/-- Every message that `mailbox_pend` has returned was posted by the process that took it and is a
slot of its array, and the free list of a running process is made of different slots of it. -/
def AllCurrent (s : Lifetime A ι β π ρ) : Prop :=
  (∀ x ∈ s.pended, x.origin = x.now ∧ x.node < msgNumMax) ∧
    (s.running → s.sys.factory.list.Nodup ∧ ∀ k ∈ s.sys.factory.list, k < msgNumMax)

/-- A process starts only when its queues are empty. -/
def StartsEmpty (s : Lifetime A ι β π ρ) : LifeLabel A ι β π ρ → Prop
  | .start _ => ∀ b, s.sys.mbx b = []
  | _ => True

instance [Fintype β] (s : Lifetime A ι β π ρ) : ∀ a, Decidable (s.StartsEmpty a)
  | .start _ => inferInstanceAs (Decidable (∀ b, s.sys.mbx b = []))
  | .stop => isTrue trivial
  | .call _ _ => isTrue trivial

/-- All that is in the queues comes from this lifetime. -/
structure Current (s : Lifetime A ι β π ρ) : Prop where
  sys : s.sys.Inv
  origins : ∀ b, s.origins b = List.replicate (s.sys.mbx b).length s.now
  pended : ∀ x ∈ s.pended, x.origin = x.now ∧ x.node < msgNumMax

namespace Current

omit [DecidableEq A] [DecidableEq ι] [DecidableEq β] in
lemma init (base : A) (payload : ℕ → ℕ → MsgPayload π ρ) (cast : ι → Option β) :
    Current (Lifetime.init base payload cast) where
  sys := .init payload cast
  origins := fun _ => rfl
  pended := fun _ hx => absurd hx List.not_mem_nil

omit [DecidableEq A] in
lemma call (h : s.Current) (hs : Call s s') : s'.Current := by
  cases hs with
  | crash => exact ⟨h.sys, h.origins, h.pended⟩
  | other i c y hy hmbx =>
    refine ⟨h.sys.step hy, fun b => ?_, h.pended⟩
    rw [h.origins b, hmbx]
  | post i y b x hy hmbx =>
    refine ⟨h.sys.step hy, fun c => ?_, h.pended⟩
    rw [hmbx]
    by_cases hcb : c = b
    · subst hcb
      simp only [Function.update_self, h.origins c, List.length_append, List.length_singleton]
      exact List.replicate_succ'.symm
    · simp only [Function.update_of_ne hcb]
      exact h.origins c
  | pend i y b x rest o os hy hb hos hmbx =>
    have hrep := h.origins b
    rw [hb, hos, List.length_cons, List.replicate_succ, List.cons.injEq] at hrep
    obtain ⟨rfl, hos'⟩ := hrep
    refine ⟨h.sys.step hy, fun c => ?_, fun z hz => ?_⟩
    · rw [hmbx]
      by_cases hcb : c = b
      · subst hcb
        simp only [Function.update_self]
        exact hos'
      · simp only [Function.update_of_ne hcb]
        exact h.origins c
    · rcases List.mem_cons.1 hz with rfl | hz
      · obtain ⟨⟨place, hp⟩, -⟩ := h.sys
        have hx : s.sys.At (.box b) x.1.node := by
          simp [MsgSys.At, MsgSys.nodes, hb]
        exact ⟨rfl, hp.lt_of_at hx⟩
      · exact h.pended z hz

omit [DecidableEq A] [DecidableEq ι] [DecidableEq β] in
lemma start (h : s.Current) {payload : ℕ → ℕ → MsgPayload π ρ} {cast : ι → Option β} {base : A}
    (hempty : ∀ b, s.sys.mbx b = []) : (s.start payload cast base).Current where
  sys := by
    have hmbx : s.sys.mbx = fun _ => [] := funext hempty
    rw [Lifetime.start, hmbx]
    exact .init payload cast
  origins := by
    intro b
    have := h.origins b
    rw [hempty b] at this
    simpa [Lifetime.start, hempty b] using this
  pended := h.pended

lemma step (h : s.Current) {payload : ℕ → ℕ → MsgPayload π ρ} {cast : ι → Option β}
    {a : LifeLabel A ι β π ρ} (hok : s.StartsEmpty a) (hs : s.step payload cast a = some s') :
    s'.Current := by
  cases a with
  | start base =>
    simp only [Lifetime.step] at hs
    split at hs
    case isTrue => cases hs
    case isFalse =>
      cases hs
      exact h.start hok
  | stop =>
    simp only [Lifetime.step] at hs
    split at hs
    case isTrue =>
      cases hs
      exact ⟨h.sys, h.origins, h.pended⟩
    case isFalse => cases hs
  | call i c =>
    simp only [Lifetime.step] at hs
    split at hs
    case isTrue => exact h.call (call_inv hs)
    case isFalse => cases hs

omit [DecidableEq A] [DecidableEq ι] [DecidableEq β] in
lemma allCurrent (h : s.Current) : s.AllCurrent := by
  obtain ⟨⟨place, hp⟩, -⟩ := h.sys
  exact ⟨h.pended, fun _ => ⟨hp.list_nodup, fun k hk => hp.lt_of_at (q := .factory) hk⟩⟩

end Current

/-- **No message crosses a lifetime** in a run in which every process finds its queues empty when
it starts, whenever and however the one before ended. -/
theorem lifetimes_separate {payload : ℕ → ℕ → MsgPayload π ρ} {cast : ι → Option β} {base : A}
    (h : Reach (step payload cast) StartsEmpty (init base payload cast) s) : s.AllCurrent := by
  have hcur : s.Current :=
    h.invariant (.init base payload cast) fun _ _ _ hi hok hs => hi.step hok hs
  exact hcur.allCurrent

/-! ## What is left in a queue -/

/-- Every message in a queue has an origin, in this lifetime or an earlier one. -/
structure Traced (s : Lifetime A ι β π ρ) : Prop where
  length : ∀ b, (s.origins b).length = (s.sys.mbx b).length
  life : ∀ b, ∀ o ∈ s.origins b, o.life ≤ s.now.life

omit [DecidableEq A] in
lemma Traced.call (h : s.Traced) (hs : Call s s') : s'.Traced := by
  cases hs with
  | crash => exact ⟨h.length, h.life⟩
  | other i c y hy hmbx =>
    refine ⟨fun b => ?_, h.life⟩
    rw [hmbx]
    exact h.length b
  | post i y b x hy hmbx =>
    refine ⟨fun c => ?_, fun c o ho => ?_⟩
    · rw [hmbx]
      by_cases hcb : c = b
      · subst hcb
        simp only [Function.update_self, List.length_append, h.length c, List.length_singleton]
      · simpa only [Function.update_of_ne hcb] using h.length c
    · by_cases hcb : c = b
      · subst hcb
        simp only [Function.update_self, List.mem_append, List.mem_singleton] at ho
        rcases ho with ho | rfl
        · exact h.life c o ho
        · exact le_rfl
      · simp only [Function.update_of_ne hcb] at ho
        exact h.life c o ho
  | pend i y b x rest o os hy hb hos hmbx =>
    refine ⟨fun c => ?_, fun c o' ho => ?_⟩
    · rw [hmbx]
      by_cases hcb : c = b
      · subst hcb
        have := h.length c
        rw [hb, hos, List.length_cons, List.length_cons] at this
        simpa only [Function.update_self] using Nat.succ.inj this
      · simpa only [Function.update_of_ne hcb] using h.length c
    · by_cases hcb : c = b
      · subst hcb
        simp only [Function.update_self] at ho
        exact h.life c o' (by rw [hos]; exact List.mem_cons_of_mem o ho)
      · simp only [Function.update_of_ne hcb] at ho
        exact h.life c o' ho

lemma traced_reach {payload : ℕ → ℕ → MsgPayload π ρ} {cast : ι → Option β} {base : A}
    (h : Reach (step payload cast) AnyStep (init base payload cast) s) : s.Traced := by
  refine h.invariant ⟨fun _ => rfl, fun _ _ ho => absurd ho List.not_mem_nil⟩ ?_
  intro s a s' hi _ hs
  cases a with
  | start base =>
    simp only [step] at hs
    split at hs
    case isTrue => cases hs
    case isFalse =>
      cases hs
      exact ⟨hi.length, fun b o ho => Nat.le_succ_of_le (hi.life b o ho)⟩
  | stop =>
    simp only [step] at hs
    split at hs
    case isTrue =>
      cases hs
      exact ⟨hi.length, hi.life⟩
    case isFalse => cases hs
  | call i c =>
    simp only [step] at hs
    split at hs
    case isTrue => exact hi.call (call_inv hs)
    case isFalse => cases hs

/-- Wherever a process starts on a queue that is not empty, the task that is cast to the queue can
take a message of an earlier lifetime: no weaker condition on the start will do. -/
theorem leftover_taken {payload : ℕ → ℕ → MsgPayload π ρ} {cast : ι → Option β} {base : A}
    (h : Reach (step payload cast) AnyStep (init base payload cast) s) (hr : s.running = false)
    {b : β} (hb : s.sys.mbx b ≠ []) {i : ι} (hi : cast i = some b) (base' : A) :
    ∃ s', exec (step payload cast) s [.start base', .call i .pend] = some s' ∧
      ∃ x ∈ s'.pended, x.origin.life < x.now.life := by
  have htr := traced_reach h
  obtain ⟨x, rest, hx⟩ := List.exists_cons_of_ne_nil hb
  obtain ⟨o, os, ho⟩ : ∃ o os, s.origins b = o :: os := by
    refine List.exists_cons_of_ne_nil fun hnil => hb ?_
    have := htr.length b
    rwa [hnil, List.length_nil, eq_comm, List.length_eq_zero_iff] at this
  have hlife := htr.life b o (by simp [ho])
  have hpend : (s.start payload cast base').sys.pend i
      = some ((s.start payload cast base').sys.pended i b x rest) :=
    MsgSys.pend_eq_some.2 ⟨rfl, b, x, rest, hi, hx, rfl⟩
  have hstart : s.step payload cast (.start base') = some (s.start payload cast base') := by
    simp [step, hr]
  have hcall : ∃ s', (s.start payload cast base').step payload cast (.call i .pend) = some s' ∧
      ⟨o, (s.start payload cast base').now, x.1.node⟩ ∈ s'.pended := by
    have hown : (s.start payload cast base').sys.own i = some b := hi
    have hmbx : (s.start payload cast base').sys.mbx b = x :: rest := hx
    have horg : (s.start payload cast base').origins b = o :: os := ho
    have hrun : (s.start payload cast base').running = true := rfl
    simp only [step, hrun, if_true, call, pend, hown, hmbx, horg, hpend, Option.map_some]
    exact ⟨_, rfl, List.mem_cons_self⟩
  obtain ⟨s', hs', hmem⟩ := hcall
  refine ⟨s', ?_, _, hmem, Nat.lt_succ_of_le hlife⟩
  rw [exec_cons, hstart, Option.bind_some, exec_cons, hs', Option.bind_some, exec_nil]

/-- Task `false` posts a message and task `true` takes it. -/
def postCalls : List (LifeLabel ℕ Bool Unit ℕ Empty) :=
  [.call false (.produce ()), .call false (.setData { data := 7, release := none }),
    .call false .post]

/-- The process ends before the message is taken, and the next one takes it. -/
def endedEarly : List (LifeLabel ℕ Bool Unit ℕ Empty) :=
  .start 0 :: postCalls ++ [.stop, .start 1, .call true .pend]

/-- The message is taken before the process ends. -/
def endedLate : List (LifeLabel ℕ Bool Unit ℕ Empty) :=
  .start 0 :: postCalls ++ [.call true .pend, .call true .recycle, .stop, .start 1]

/-- No payload, and the second task is cast to the one mailbox. -/
def noPayload (_ _ : ℕ) : MsgPayload ℕ Empty := { data := 0, release := none }

def castTrue (i : Bool) : Option Unit := if i then some () else none

/-- The state after a list of labels. -/
def afterLabels (labels : List (LifeLabel ℕ Bool Unit ℕ Empty)) : Lifetime ℕ Bool Unit ℕ Empty :=
  (exec (step noPayload castTrue) (init 0 noPayload castTrue) labels).getD
    (init 0 noPayload castTrue)

/-- The second process takes the message of the first. -/
theorem message_outlives_process : ¬ ∀ (payload : ℕ → ℕ → MsgPayload ℕ Empty)
    (cast : Bool → Option Unit) (s : Lifetime ℕ Bool Unit ℕ Empty),
    Reach (step payload cast) AnyStep (init 0 payload cast) s → s.AllCurrent := by
  intro h
  have hreach : Reach (step noPayload castTrue) AnyStep (init 0 noPayload castTrue)
      (afterLabels endedEarly) := reach_any endedEarly (exec_getD (by decide +kernel) _)
  have hcur := (h _ _ _ hreach).1 { origin := { base := 0, life := 1 },
                                    now := { base := 1, life := 2 }, node := 0 }
    (by decide +kernel)
  exact absurd hcur.1 (by decide)

theorem lifetimes_separate_endedLate : (afterLabels endedLate).pended.length = 1 ∧
    (afterLabels endedLate).AllCurrent :=
  ⟨by decide +kernel, lifetimes_separate (show Reach (step noPayload castTrue) StartsEmpty
    (init 0 noPayload castTrue) _ from reach_of_exec endedLate (by decide +kernel)
      (exec_getD (by decide +kernel) _))⟩

end Lifetime

end RejectProcess
