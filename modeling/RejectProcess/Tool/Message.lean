import Mathlib.Data.Int.Notation
import Mathlib.Data.List.Basic
import Mathlib.Data.List.Nodup
import Mathlib.Data.List.Range
import Mathlib.Logic.Function.Basic

/-!
# Messages, their factory and the mailboxes

`tool/message.c`, `tool/msg_factory.c` and `tool/mailbox.c`.  A message is a slot of the
factory, named by its index in `msg_array`, and what is passed on through a mailbox is a copy of
its `struct message`: the numbers are copied, the payload array is shared.  No caller sets a
priority, so a mailbox is a queue, and none sets `finish` or `resource`.
-/

namespace RejectProcess

/-- `PAYLOAD_NUM_MAX`. -/
def payloadNumMax : ℕ := 16

/-- `MSG_NUM_MAX`. -/
def msgNumMax : ℕ := 128

/-- `struct msg_payload`: the data pointer with its length, and the callback with its argument. -/
structure MsgPayload (π ρ : Type*) where
  data : π
  release : Option ρ
deriving DecidableEq, Repr

/-- `struct message`.  Its pointers `payload` and `node` belong to the slot `node`, and `id` is
a mailbox or, after `msg_clear`, none. -/
structure Message (β : Type*) where
  id : Option β
  payloadNum : ℕ
  curPayloadIdx : ℕ
  node : ℕ
deriving DecidableEq, Repr

/-- `struct message_factory`: the free slots, the record of each slot and its payload array. -/
structure MsgFactory (β π ρ : Type*) where
  list : List ℕ
  msgArray : ℕ → Message β
  payload : ℕ → ℕ → MsgPayload π ρ

namespace MsgFactory

variable {β π ρ : Type*}

/-- `create_msg_factory`: all slots are free, in index order. -/
def create (payload : ℕ → ℕ → MsgPayload π ρ) : MsgFactory β π ρ where
  list := List.range msgNumMax
  msgArray := fun k => { id := none, payloadNum := 0, curPayloadIdx := 0, node := k }
  payload := payload

variable (f : MsgFactory β π ρ)

/-- What `msg_factory_produce` leaves when it takes the slot `k` and `rest` remains. -/
def took (k : ℕ) (rest : List ℕ) (b : β) : MsgFactory β π ρ where
  list := rest
  msgArray := Function.update f.msgArray k { f.msgArray k with id := some b }
  payload := Function.update f.payload k fun n => { f.payload k n with release := none }

/-- `msg_factory_produce`.  `none` is `ERROR("msg factory crash !")`. -/
def produce (b : β) : Option (ℕ × MsgFactory β π ρ) :=
  match f.list with
  | [] => none
  | k :: rest => some (k, f.took k rest b)

/-- What `msg_set_data` leaves when there is room in the slot `k`. -/
def put (k : ℕ) (p : MsgPayload π ρ) : MsgFactory β π ρ :=
  let n := (f.msgArray k).payloadNum
  { f with
    msgArray := Function.update f.msgArray k { f.msgArray k with payloadNum := n + 1 }
    payload := Function.update f.payload k (Function.update (f.payload k) n p) }

/-- `msg_set_data` on a slot: its return value and what it leaves. -/
def setData (k : ℕ) (p : MsgPayload π ρ) : ℤ × MsgFactory β π ρ :=
  if (f.msgArray k).payloadNum = payloadNumMax then (-1, f) else (0, f.put k p)

/-- `msg_get_data` on a copy: the payload it returns, if any, and the copy it leaves. -/
def getData (m : Message β) : Option (MsgPayload π ρ) × Message β :=
  if m.curPayloadIdx = m.payloadNum then (none, m)
  else (some (f.payload m.node m.curPayloadIdx), { m with curPayloadIdx := m.curPayloadIdx + 1 })

/-- `msg_clear` of the slot of the copy, which goes to the tail of the list. -/
def recycle (m : Message β) : MsgFactory β π ρ :=
  { f with
    list := f.list ++ [m.node]
    msgArray := Function.update f.msgArray m.node
      { f.msgArray m.node with id := none, payloadNum := 0, curPayloadIdx := 0 } }

/-- The callbacks that `msg_factory_recycle` runs, each with the data of its payload. -/
def released (m : Message β) : List (ρ × π) :=
  (List.range payloadNumMax).filterMap fun n =>
    (f.payload m.node n).release.map fun r => (r, (f.payload m.node n).data)

end MsgFactory

/-! ## Tasks and mailboxes -/

/-- What a task has in hand.  History: `sent` are the payloads that were set on the message. -/
inductive Hold (β π ρ : Type*)
  | none
  /-- A slot it has produced and not yet posted. -/
  | producing (node : ℕ) (sent : List (MsgPayload π ρ))
  /-- A copy it has taken and whose slot it has not yet recycled. -/
  | consuming (m : Message β) (sent : List (MsgPayload π ρ))

/-- The slot a task has in hand. -/
def Hold.node {β π ρ : Type*} : Hold β π ρ → Option ℕ
  | .none => Option.none
  | .producing k _ => some k
  | .consuming m _ => some m.node

/-- The factory, the mailboxes, what the tasks have in hand, and the `id` in the local copy of
each task, which outlives the message it was received with. -/
structure MsgSys (ι β π ρ : Type*) where
  factory : MsgFactory β π ρ
  mbx : β → List (Message β × List (MsgPayload π ρ))
  hold : ι → Hold β π ρ
  own : ι → Option β

namespace MsgSys

variable {ι β π ρ : Type*}

/-- The state after start-up: every consumer has done `msg_factory_cast`. -/
def init (payload : ℕ → ℕ → MsgPayload π ρ) (cast : ι → Option β) : MsgSys ι β π ρ where
  factory := .create payload
  mbx := fun _ => []
  hold := fun _ => .none
  own := cast

variable [DecidableEq ι] (s : MsgSys ι β π ρ)

/-- Task `i` has produced the slot `k` and left the factory `f`. -/
def produced (i : ι) (k : ℕ) (f : MsgFactory β π ρ) : MsgSys ι β π ρ :=
  { s with factory := f, hold := Function.update s.hold i (.producing k []) }

/-- `msg_factory_produce(b)` by task `i`. -/
def produce (i : ι) (b : β) : Option (MsgSys ι β π ρ) :=
  match s.hold i, s.factory.produce b with
  | .none, some r => some (s.produced i r.1 r.2)
  | _, _ => none

/-- Task `i` has set payload `p` on its slot `k`. -/
def dataSet (i : ι) (k : ℕ) (sent : List (MsgPayload π ρ)) (p : MsgPayload π ρ) :
    MsgSys ι β π ρ :=
  let r := s.factory.setData k p
  { s with
    factory := r.2
    hold := Function.update s.hold i (.producing k (if r.1 = 0 then sent ++ [p] else sent)) }

/-- `msg_set_data(p)` by task `i` on the message it has produced. -/
def setData (i : ι) (p : MsgPayload π ρ) : Option (MsgSys ι β π ρ) :=
  match s.hold i with
  | .producing k sent => some (s.dataSet i k sent p)
  | _ => none

/-- Task `i` has taken `x` from mailbox `b`. -/
def pended [DecidableEq β] (i : ι) (b : β) (x : Message β × List (MsgPayload π ρ))
    (rest : List (Message β × List (MsgPayload π ρ))) : MsgSys ι β π ρ :=
  { s with
    mbx := Function.update s.mbx b rest
    hold := Function.update s.hold i (.consuming x.1 x.2)
    own := Function.update s.own i x.1.id }

/-- `mailbox_pend` by task `i`, on the mailbox that its local copy names. -/
def pend [DecidableEq β] (i : ι) : Option (MsgSys ι β π ρ) :=
  match s.hold i, s.own i with
  | .none, some b =>
    match s.mbx b with
    | x :: rest => some (s.pended i b x rest)
    | [] => none
  | _, _ => none

/-- Task `i` has posted its slot `k` to mailbox `b`. -/
def posted [DecidableEq β] (i : ι) (k : ℕ) (sent : List (MsgPayload π ρ)) (b : β) :
    MsgSys ι β π ρ :=
  { s with
    mbx := Function.update s.mbx b (s.mbx b ++ [(s.factory.msgArray k, sent)])
    hold := Function.update s.hold i .none }

/-- `mailbox_post` by task `i`. -/
def post [DecidableEq β] (i : ι) : Option (MsgSys ι β π ρ) :=
  match s.hold i with
  | .producing k sent => (s.factory.msgArray k).id.map fun b => s.posted i k sent b
  | _ => none

/-- Task `i` has replaced its copy. -/
def copied (i : ι) (m : Message β) (sent : List (MsgPayload π ρ)) : MsgSys ι β π ρ :=
  { s with hold := Function.update s.hold i (.consuming m sent) }

/-- `msg_get_data` by task `i`: the payload it returns, with the one that was set in its place,
and the state it leaves. -/
def getData (i : ι) :
    Option (Option (MsgPayload π ρ) × Option (MsgPayload π ρ) × MsgSys ι β π ρ) :=
  match s.hold i with
  | .consuming m sent =>
    let r := s.factory.getData m
    some (r.1, sent[m.curPayloadIdx]?, s.copied i r.2 sent)
  | _ => none

/-- Task `i` has recycled its copy `m`. -/
def recycled (i : ι) (m : Message β) : MsgSys ι β π ρ :=
  { s with factory := s.factory.recycle m, hold := Function.update s.hold i .none }

/-- `msg_factory_recycle` by task `i`: the callbacks it runs and the state it leaves. -/
def recycle (i : ι) : Option (List (ρ × π) × MsgSys ι β π ρ) :=
  match s.hold i with
  | .consuming m _ => some (s.factory.released m, s.recycled i m)
  | _ => none

section Spec

variable {s} {s' : MsgSys ι β π ρ} {i : ι}

lemma produce_eq_some {b : β} : s.produce i b = some s' ↔ s.hold i = .none ∧
    ∃ k rest, s.factory.list = k :: rest ∧ s' = s.produced i k (s.factory.took k rest b) := by
  unfold produce MsgFactory.produce
  cases hh : s.hold i <;> cases hl : s.factory.list <;> simp [eq_comm]

lemma setData_eq_some {p : MsgPayload π ρ} : s.setData i p = some s' ↔
    ∃ k sent, s.hold i = .producing k sent ∧ s' = s.dataSet i k sent p := by
  rw [setData]
  cases hh : s.hold i <;> simp [eq_comm]

lemma post_eq_some [DecidableEq β] : s.post i = some s' ↔ ∃ k sent b,
    s.hold i = .producing k sent ∧ (s.factory.msgArray k).id = some b ∧
      s' = s.posted i k sent b := by
  rw [post]
  cases hh : s.hold i <;> simp [Option.map_eq_some_iff, eq_comm (a := s')]

/-- A post that also does `f` to what is kept for the mailbox. -/
lemma map_post_eq_some [DecidableEq β] {τ : Type*} {f : β → MsgSys ι β π ρ → τ} {t : τ} :
    (match s.hold i with
      | .producing k _ =>
        match (s.factory.msgArray k).id with
        | some b => (s.post i).map (f b)
        | none => none
      | _ => none) = some t ↔
    ∃ k sent b, s.hold i = .producing k sent ∧ (s.factory.msgArray k).id = some b ∧
      t = f b (s.posted i k sent b) := by
  rw [post]
  cases hh : s.hold i with
  | none | consuming m sent => simp
  | producing k sent =>
    cases hid : (s.factory.msgArray k).id with
    | none => simp [hid]
    | some b => simp [hid, eq_comm (a := t)]

lemma pend_eq_some [DecidableEq β] : s.pend i = some s' ↔ s.hold i = .none ∧ ∃ b x rest,
    s.own i = some b ∧ s.mbx b = x :: rest ∧ s' = s.pended i b x rest := by
  rw [pend]
  cases hh : s.hold i <;> cases ho : s.own i with
  | none => simp
  | some b =>
    cases hb : s.mbx b with
    | nil => simp [hb]
    | cons x rest =>
      obtain ⟨m, sent⟩ := x
      simp [hb, eq_comm (a := s')]

lemma getData_eq_some {p q : Option (MsgPayload π ρ)} : s.getData i = some (p, q, s') ↔
    ∃ m sent, s.hold i = .consuming m sent ∧ p = (s.factory.getData m).1 ∧
      q = sent[m.curPayloadIdx]? ∧ s' = s.copied i (s.factory.getData m).2 sent := by
  rw [getData]
  cases hh : s.hold i <;> simp [eq_comm]

lemma recycle_eq_some {calls : List (ρ × π)} : s.recycle i = some (calls, s') ↔
    ∃ m sent, s.hold i = .consuming m sent ∧ calls = s.factory.released m ∧
      s' = s.recycled i m := by
  rw [recycle]
  cases hh : s.hold i <;> simp [eq_comm]

end Spec

end MsgSys

/-! ## Where the slots are -/

/-- A place a slot can be in. -/
inductive Place (ι β : Type*)
  | factory
  | hand (i : ι)
  | box (b : β)

namespace MsgSys

variable {ι β π ρ : Type*}

/-- The slots of the messages in a mailbox. -/
def nodes (s : MsgSys ι β π ρ) (b : β) : List ℕ := (s.mbx b).map fun x => x.1.node

/-- The slot `k` is in this place. -/
def At (s : MsgSys ι β π ρ) : Place ι β → ℕ → Prop
  | .factory, k => k ∈ s.factory.list
  | .hand i, k => (s.hold i).node = some k
  | .box b, k => k ∈ s.nodes b

end MsgSys

/-- Every slot of the factory is in the place that `place` says, and nowhere else. -/
structure Placed {ι β π ρ : Type*} (s : MsgSys ι β π ρ) (place : ℕ → Option (Place ι β)) :
    Prop where
  all : ∀ k, (place k).isSome ↔ k < msgNumMax
  at_iff : ∀ q k, s.At q k ↔ place k = some q
  list_nodup : s.factory.list.Nodup
  box_nodup : ∀ b, (s.nodes b).Nodup

namespace Placed

variable {ι β π ρ : Type*} {s s' : MsgSys ι β π ρ} {place : ℕ → Option (Place ι β)}

lemma init (payload : ℕ → ℕ → MsgPayload π ρ) (cast : ι → Option β) :
    Placed (MsgSys.init payload cast) fun k => if k < msgNumMax then some .factory else none where
  all := by
    intro k
    split <;> simp [*]
  at_iff := by
    intro q k
    cases q <;> simp [MsgSys.At, MsgSys.init, MsgFactory.create, Hold.node, MsgSys.nodes]
  list_nodup := List.nodup_range
  box_nodup := fun _ => .nil

/-- A slot is in one place only. -/
lemma place_unique (h : Placed s place) {q q' : Place ι β} {k : ℕ} (hq : s.At q k)
    (hq' : s.At q' k) : q = q' := by
  have := (h.at_iff q k).1 hq
  rw [(h.at_iff q' k).1 hq'] at this
  exact (Option.some.inj this).symm

/-- One slot moves from a place to another. -/
lemma move (h : Placed s place) {k : ℕ} {q₀ q : Place ι β} (hk : s.At q₀ k) (hne : q₀ ≠ q)
    (hfrom : ∀ k', s'.At q₀ k' ↔ k' ≠ k ∧ s.At q₀ k')
    (hto : ∀ k', s'.At q k' ↔ k' = k ∨ s.At q k')
    (hother : ∀ q', q' ≠ q₀ → q' ≠ q → ∀ k', s'.At q' k' ↔ s.At q' k')
    (hlist : s'.factory.list.Nodup) (hbox : ∀ b, (s'.nodes b).Nodup) :
    Placed s' (Function.update place k (some q)) where
  all := by
    intro k'
    by_cases hk' : k' = k
    · subst hk'
      have := (h.all k').1 (by rw [(h.at_iff q₀ k').1 hk]; rfl)
      simpa using this
    · simpa [hk'] using h.all k'
  at_iff := by
    intro q' k'
    have hold : s.At q' k → q' = q₀ := fun hq' => h.place_unique hq' hk
    by_cases hk' : k' = k
    · subst hk'
      rw [Function.update_self, Option.some.injEq, eq_comm]
      by_cases hq : q' = q
      · subst hq
        simp [hto]
      · refine iff_of_false ?_ (fun hc => hq hc)
        by_cases hq₀ : q' = q₀
        · subst hq₀
          simp [hfrom]
        · rw [hother q' hq₀ hq]
          exact fun hc => hq₀ (hold hc)
    · rw [Function.update_of_ne hk', ← h.at_iff]
      by_cases hq : q' = q
      · subst hq
        simp [hto, hk']
      · by_cases hq₀ : q' = q₀
        · subst hq₀
          simp [hfrom, hk']
        · exact hother q' hq₀ hq k'
  list_nodup := hlist
  box_nodup := hbox

/-- No slot moves. -/
lemma stay (h : Placed s place) (hlist : s'.factory.list = s.factory.list) (hmbx : s'.mbx = s.mbx)
    (hhold : ∀ i, (s'.hold i).node = (s.hold i).node) : Placed s' place where
  all := h.all
  at_iff := by
    intro q k
    rw [← h.at_iff]
    cases q with
    | factory => rw [MsgSys.At, hlist, MsgSys.At]
    | hand i => rw [MsgSys.At, hhold, MsgSys.At]
    | box b => rw [MsgSys.At, MsgSys.nodes, hmbx, MsgSys.At, MsgSys.nodes]
  list_nodup := hlist ▸ h.list_nodup
  box_nodup := by
    intro b
    rw [MsgSys.nodes, hmbx]
    exact h.box_nodup b

/-- The mailboxes that are not touched. -/
lemma nodes_update [DecidableEq β] {b b' : β} (l : List (Message β × List (MsgPayload π ρ)))
    (hb : b' ≠ b) (hmbx : s'.mbx = Function.update s.mbx b l) : s'.nodes b' = s.nodes b' := by
  rw [MsgSys.nodes, hmbx, Function.update_of_ne hb, MsgSys.nodes]

section Steps

variable [DecidableEq ι] {i : ι} {b : β} {k : ℕ}

/-- The hand of another task is left alone. -/
lemma at_hand_of_ne (x : Hold β π ρ) {j : ι} (hj : j ≠ i) (k' : ℕ) :
    (Function.update s.hold i x j).node = some k' ↔ s.At (.hand j) k' := by
  simp [hj, MsgSys.At]

/-- The first free slot comes into the hand of a task. -/
lemma produced (h : Placed s place) (hi : (s.hold i).node = none) {rest : List ℕ}
    (hlist : s.factory.list = k :: rest) {f : MsgFactory β π ρ} (hf : f.list = rest) :
    Placed (s.produced i k f) (Function.update place k (some (.hand i))) := by
  have hnd := h.list_nodup
  rw [hlist, List.nodup_cons] at hnd
  refine h.move (show s.At .factory k by simp [MsgSys.At, hlist]) (by simp) ?_ ?_ ?_
    (by rw [MsgSys.produced, hf]; exact hnd.2) h.box_nodup
  · intro k'
    show k' ∈ f.list ↔ k' ≠ k ∧ k' ∈ s.factory.list
    rw [hf, hlist, List.mem_cons]
    constructor
    · intro hk'
      exact ⟨fun he => hnd.1 (he ▸ hk'), .inr hk'⟩
    · rintro ⟨hne, rfl | hk'⟩
      · exact absurd rfl hne
      · exact hk'
  · intro k'
    show (Function.update s.hold i (.producing k []) i).node = some k' ↔ _
    rw [Function.update_self, MsgSys.At, hi]
    simp [Hold.node, eq_comm]
  · intro q' hq₀ hq k'
    cases q' with
    | factory => exact absurd rfl hq₀
    | hand j => exact at_hand_of_ne _ (fun he => hq (by rw [he])) k'
    | box b => exact Iff.rfl

/-- A task changes its message and keeps the slot. -/
lemma kept (h : Placed s place) {x : Hold β π ρ} (hx : x.node = (s.hold i).node)
    {f : MsgFactory β π ρ} (hf : f.list = s.factory.list) :
    Placed { s with factory := f, hold := Function.update s.hold i x } place := by
  refine h.stay hf rfl ?_
  intro j
  by_cases hj : j = i
  · subst hj
    simpa using hx
  · simp [hj]

/-- The slot in hand goes to the tail of a mailbox. -/
lemma posted [DecidableEq β] (h : Placed s place) (hi : (s.hold i).node = some k)
    (hnode : (s.factory.msgArray k).node = k) (sent : List (MsgPayload π ρ)) :
    Placed (s.posted i k sent b) (Function.update place k (some (.box b))) := by
  have hself : (s.posted i k sent b).nodes b = s.nodes b ++ [k] := by
    simp [MsgSys.nodes, MsgSys.posted, hnode]
  have hother : ∀ b', b' ≠ b → (s.posted i k sent b).nodes b' = s.nodes b' :=
    fun b' hb => nodes_update _ hb rfl
  have hnot : k ∉ s.nodes b := fun hc => by
    have := h.place_unique (show s.At (.box b) k from hc) (show s.At (.hand i) k from hi)
    simp at this
  refine h.move (show s.At (.hand i) k from hi) (by simp) ?_ ?_ ?_ h.list_nodup ?_
  · intro k'
    show (Function.update s.hold i .none i).node = some k' ↔ k' ≠ k ∧ (s.hold i).node = some k'
    rw [Function.update_self, hi]
    simp [Hold.node, eq_comm]
  · intro k'
    show k' ∈ (s.posted i k sent b).nodes b ↔ k' = k ∨ k' ∈ s.nodes b
    simp [hself, or_comm]
  · intro q' hq₀ hq k'
    cases q' with
    | factory => exact Iff.rfl
    | hand j => exact at_hand_of_ne _ (fun he => hq₀ (by rw [he])) k'
    | box b' =>
      rw [MsgSys.At, MsgSys.At, hother b' fun he => hq (by rw [he])]
  · intro b'
    by_cases hb : b' = b
    · subst hb
      rw [hself, List.nodup_append]
      refine ⟨h.box_nodup b', List.nodup_singleton k, ?_⟩
      intro x hx y hy
      obtain rfl := List.mem_singleton.1 hy
      exact fun he => hnot (he ▸ hx)
    · rw [hother b' hb]
      exact h.box_nodup b'

/-- The slot at the head of a mailbox comes into a hand. -/
lemma pended [DecidableEq β] (h : Placed s place) (hi : (s.hold i).node = none)
    {x : Message β × List (MsgPayload π ρ)} {rest : List (Message β × List (MsgPayload π ρ))}
    (hb : s.mbx b = x :: rest) :
    Placed (s.pended i b x rest) (Function.update place x.1.node (some (.hand i))) := by
  have hnodes : s.nodes b = x.1.node :: rest.map fun y => y.1.node := by
    rw [MsgSys.nodes, hb, List.map_cons]
  have hself : (s.pended i b x rest).nodes b = rest.map fun y => y.1.node := by
    simp [MsgSys.nodes, MsgSys.pended]
  have hother : ∀ b', b' ≠ b → (s.pended i b x rest).nodes b' = s.nodes b' :=
    fun b' hb => nodes_update _ hb rfl
  have hnd := h.box_nodup b
  rw [hnodes, List.nodup_cons] at hnd
  refine h.move (show s.At (.box b) x.1.node by simp [MsgSys.At, hnodes]) (by simp) ?_ ?_ ?_
    h.list_nodup ?_
  · intro k'
    show k' ∈ (s.pended i b x rest).nodes b ↔ k' ≠ x.1.node ∧ k' ∈ s.nodes b
    rw [hself, hnodes, List.mem_cons]
    constructor
    · intro hk'
      exact ⟨fun he => hnd.1 (he ▸ hk'), .inr hk'⟩
    · rintro ⟨hne, rfl | hk'⟩
      · exact absurd rfl hne
      · exact hk'
  · intro k'
    show (Function.update s.hold i (.consuming x.1 x.2) i).node = some k' ↔ _
    rw [Function.update_self, MsgSys.At, hi]
    simp [Hold.node, eq_comm]
  · intro q' hq₀ hq k'
    cases q' with
    | factory => exact Iff.rfl
    | hand j => exact at_hand_of_ne _ (fun he => hq (by rw [he])) k'
    | box b' => rw [MsgSys.At, MsgSys.At, hother b' fun he => hq₀ (by rw [he])]
  · intro b'
    by_cases hb' : b' = b
    · subst hb'
      rw [hself]
      exact hnd.2
    · rw [hother b' hb']
      exact h.box_nodup b'

/-- The slot in hand goes to the tail of the free list. -/
lemma recycled (h : Placed s place) {m : Message β} (hi : (s.hold i).node = some m.node) :
    Placed (s.recycled i m) (Function.update place m.node (some .factory)) := by
  have hnot : m.node ∉ s.factory.list := fun hc => by
    have := h.place_unique (show s.At .factory m.node from hc)
      (show s.At (.hand i) m.node from hi)
    simp at this
  refine h.move (show s.At (.hand i) m.node from hi) (by simp) ?_ ?_ ?_ ?_ h.box_nodup
  · intro k'
    show (Function.update s.hold i .none i).node = some k' ↔
      k' ≠ m.node ∧ (s.hold i).node = some k'
    rw [Function.update_self, hi]
    simp [Hold.node, eq_comm]
  · intro k'
    show k' ∈ s.factory.list ++ [m.node] ↔ k' = m.node ∨ k' ∈ s.factory.list
    simp [or_comm]
  · intro q' hq₀ hq k'
    cases q' with
    | factory => exact absurd rfl hq
    | hand j => exact at_hand_of_ne _ (fun he => hq₀ (by rw [he])) k'
    | box b => exact Iff.rfl
  · show (s.factory.list ++ [m.node]).Nodup
    rw [List.nodup_append]
    refine ⟨h.list_nodup, List.nodup_singleton _, ?_⟩
    intro x hx y hy
    obtain rfl := List.mem_singleton.1 hy
    exact fun he => hnot (he ▸ hx)

end Steps

end Placed

/-! ## What the slots carry -/

namespace MsgFactory

variable {β π ρ : Type*}

/-- The payload array of the slot `k` begins with the payloads `sent`. -/
def Carries (f : MsgFactory β π ρ) (k : ℕ) (sent : List (MsgPayload π ρ)) : Prop :=
  ∀ n (hn : n < sent.length), f.payload k n = sent[n]

/-- Two factories agree on every slot but `k`. -/
def AgreeOff (f f' : MsgFactory β π ρ) (k : ℕ) : Prop :=
  ∀ k', k' ≠ k → f'.msgArray k' = f.msgArray k' ∧ f'.payload k' = f.payload k'

/-- A free slot is cleared. -/
def FreeOk (f : MsgFactory β π ρ) (k : ℕ) : Prop :=
  (f.msgArray k).payloadNum = 0 ∧ (f.msgArray k).curPayloadIdx = 0

/-- A message in mailbox `b` is for that mailbox, unread, and carries what was set on it. -/
def BoxOk (f : MsgFactory β π ρ) (b : β) (x : Message β × List (MsgPayload π ρ)) : Prop :=
  x.1.id = some b ∧ x.1.payloadNum = x.2.length ∧ x.1.curPayloadIdx = 0 ∧ f.Carries x.1.node x.2

/-- What a task has in hand carries what was set on it. -/
def HoldOk (f : MsgFactory β π ρ) : Hold β π ρ → Prop
  | .none => True
  | .producing k sent => (f.msgArray k).id.isSome ∧ (f.msgArray k).payloadNum = sent.length ∧
      (f.msgArray k).curPayloadIdx = 0 ∧ f.Carries k sent
  | .consuming m sent => m.payloadNum = sent.length ∧ m.curPayloadIdx ≤ sent.length ∧
      f.Carries m.node sent

variable {f f' : MsgFactory β π ρ} {k : ℕ}

lemma carries_nil : f.Carries k [] := by
  intro n hn
  exact absurd hn (Nat.not_lt_zero n)

lemma Carries.frame {k' : ℕ} {sent : List (MsgPayload π ρ)} (h : f.Carries k' sent)
    (hoff : f.AgreeOff f' k) (hk : k' ≠ k) : f'.Carries k' sent := by
  intro n hn
  rw [(hoff k' hk).2]
  exact h n hn

/-- A payload that is put behind the ones that a slot carries. -/
lemma Carries.put {sent : List (MsgPayload π ρ)} (h : f.Carries k sent)
    (hlen : (f.msgArray k).payloadNum = sent.length) (p : MsgPayload π ρ) :
    (f.put k p).Carries k (sent ++ [p]) := by
  intro n hn
  show Function.update f.payload k (Function.update (f.payload k) _ p) k n = (sent ++ [p])[n]
  rw [Function.update_self, hlen]
  by_cases hlt : n < sent.length
  · rw [Function.update_of_ne hlt.ne, List.getElem_append_left hlt]
    exact h n hlt
  · obtain rfl : n = sent.length := by
      rw [List.length_append, List.length_singleton] at hn
      omega
    simp

lemma FreeOk.frame {k' : ℕ} (h : f.FreeOk k') (hoff : f.AgreeOff f' k) (hk : k' ≠ k) :
    f'.FreeOk k' := by
  rw [FreeOk, (hoff k' hk).1]
  exact h

lemma BoxOk.frame {b : β} {x : Message β × List (MsgPayload π ρ)} (h : f.BoxOk b x)
    (hoff : f.AgreeOff f' k) (hk : x.1.node ≠ k) : f'.BoxOk b x :=
  ⟨h.1, h.2.1, h.2.2.1, h.2.2.2.frame hoff hk⟩

lemma HoldOk.frame {x : Hold β π ρ} (h : f.HoldOk x) (hoff : f.AgreeOff f' k)
    (hk : x.node ≠ some k) : f'.HoldOk x := by
  cases x with
  | none => trivial
  | producing k' sent =>
    have hk' : k' ≠ k := fun he => hk (by rw [he]; rfl)
    simp only [HoldOk] at h ⊢
    rw [(hoff k' hk').1]
    exact ⟨h.1, h.2.1, h.2.2.1, h.2.2.2.frame hoff hk'⟩
  | consuming m sent =>
    exact ⟨h.1, h.2.1, h.2.2.frame hoff fun he => hk (by rw [← he]; rfl)⟩

lemma agreeOff_took (rest : List ℕ) (b : β) : f.AgreeOff (f.took k rest b) k := by
  intro k' hk
  simp [took, hk]

lemma agreeOff_put (p : MsgPayload π ρ) : f.AgreeOff (f.put k p) k := by
  intro k' hk
  simp [put, hk]

lemma agreeOff_recycle (m : Message β) : f.AgreeOff (f.recycle m) m.node := by
  intro k' hk
  simp [recycle, hk]

end MsgFactory

/-- Every slot carries what its place says. -/
structure Filled {ι β π ρ : Type*} (s : MsgSys ι β π ρ) : Prop where
  node : ∀ k, (s.factory.msgArray k).node = k
  free : ∀ k ∈ s.factory.list, s.factory.FreeOk k
  boxed : ∀ b, ∀ x ∈ s.mbx b, s.factory.BoxOk b x
  held : ∀ i, s.factory.HoldOk (s.hold i)

namespace Filled

variable {ι β π ρ : Type*} {s : MsgSys ι β π ρ}

lemma init (payload : ℕ → ℕ → MsgPayload π ρ) (cast : ι → Option β) :
    Filled (MsgSys.init payload cast) where
  node := fun _ => rfl
  free := fun _ _ => ⟨rfl, rfl⟩
  boxed := fun _ _ hx => absurd hx List.not_mem_nil
  held := fun _ => trivial

variable [DecidableEq ι] {i : ι} {k : ℕ}

/-- A task touches the one slot `k`, which no other task and no mailbox has. -/
lemma touch (h : Filled s) (hhand : ∀ j, j ≠ i → (s.hold j).node ≠ some k)
    (hbox : ∀ b, k ∉ s.nodes b) {f : MsgFactory β π ρ} (hoff : s.factory.AgreeOff f k)
    (hnode : (f.msgArray k).node = k) {x : Hold β π ρ} (hx : f.HoldOk x)
    (hfree : ∀ k' ∈ f.list, f.FreeOk k') :
    Filled { s with factory := f, hold := Function.update s.hold i x } where
  node := by
    intro k'
    by_cases hk : k' = k
    · rw [hk]
      exact hnode
    · show (f.msgArray k').node = k'
      rw [(hoff k' hk).1]
      exact h.node k'
  free := hfree
  boxed := by
    intro b y hy
    exact (h.boxed b y hy).frame hoff fun he => hbox b (he ▸ List.mem_map_of_mem hy)
  held := by
    intro j
    show f.HoldOk (Function.update s.hold i x j)
    by_cases hj : j = i
    · rw [hj, Function.update_self]
      exact hx
    · rw [Function.update_of_ne hj]
      exact (h.held j).frame hoff (hhand j hj)

/-- A task changes what it has in hand and a mailbox, and no slot is touched. -/
lemma pass [DecidableEq β] (h : Filled s) {x : Hold β π ρ} (hx : s.factory.HoldOk x) {b : β}
    {l : List (Message β × List (MsgPayload π ρ))} (hl : ∀ y ∈ l, s.factory.BoxOk b y)
    (own : ι → Option β) :
    Filled { s with
      mbx := Function.update s.mbx b l, hold := Function.update s.hold i x, own := own } where
  node := h.node
  free := h.free
  boxed := by
    intro b' y hy
    by_cases hb : b' = b
    · subst hb
      exact hl y (by simpa using hy)
    · exact h.boxed b' y (by simpa [hb] using hy)
  held := by
    intro j
    show s.factory.HoldOk (Function.update s.hold i x j)
    by_cases hj : j = i
    · rw [hj, Function.update_self]
      exact hx
    · rw [Function.update_of_ne hj]
      exact h.held j

end Filled

/-! ## The invariant of the message system -/

/-- Every slot is in one place and carries what that place says. -/
def MsgSys.Inv {ι β π ρ : Type*} (s : MsgSys ι β π ρ) : Prop :=
  (∃ place, Placed s place) ∧ Filled s

namespace MsgSys.Inv

variable {ι β π ρ : Type*} {s s' : MsgSys ι β π ρ}

lemma init (payload : ℕ → ℕ → MsgPayload π ρ) (cast : ι → Option β) :
    (MsgSys.init payload cast).Inv :=
  ⟨⟨_, .init payload cast⟩, .init payload cast⟩

variable {i : ι} {k : ℕ}

/-- A slot in a hand is in no other hand. -/
lemma hand_ne (h : s.Inv) (hi : (s.hold i).node = some k) {j : ι} (hj : j ≠ i) :
    (s.hold j).node ≠ some k := by
  obtain ⟨⟨place, hp⟩, -⟩ := h
  intro hc
  have := hp.place_unique (show s.At (.hand j) k from hc) (show s.At (.hand i) k from hi)
  exact hj (Place.hand.inj this)

/-- A slot in a hand is in no mailbox. -/
lemma hand_not_box (h : s.Inv) (hi : (s.hold i).node = some k) (b : β) : k ∉ s.nodes b := by
  obtain ⟨⟨place, hp⟩, -⟩ := h
  intro hc
  have := hp.place_unique (show s.At (.box b) k from hc) (show s.At (.hand i) k from hi)
  simp at this

/-- A slot in a hand is not free. -/
lemma hand_not_free (h : s.Inv) (hi : (s.hold i).node = some k) : k ∉ s.factory.list := by
  obtain ⟨⟨place, hp⟩, -⟩ := h
  intro hc
  have := hp.place_unique (show s.At .factory k from hc) (show s.At (.hand i) k from hi)
  simp at this

/-- A free slot is in no hand. -/
lemma free_not_hand (h : s.Inv) (hk : k ∈ s.factory.list) (j : ι) : (s.hold j).node ≠ some k :=
  fun hc => h.hand_not_free hc hk

/-- A free slot is in no mailbox. -/
lemma free_not_box (h : s.Inv) (hk : k ∈ s.factory.list) (b : β) : k ∉ s.nodes b := by
  obtain ⟨⟨place, hp⟩, -⟩ := h
  intro hc
  have := hp.place_unique (show s.At (.box b) k from hc) (show s.At .factory k from hk)
  simp at this

variable [DecidableEq ι]

lemma produce {b : β} (h : s.Inv) (hs : s.produce i b = some s') : s'.Inv := by
  obtain ⟨hi, k, rest, hlist, rfl⟩ := MsgSys.produce_eq_some.1 hs
  have hk : k ∈ s.factory.list := by simp [hlist]
  have hnode : (s.hold i).node = none := by
    rw [hi]
    rfl
  obtain ⟨⟨place, hp⟩, hf⟩ := id h
  have hnd := hp.list_nodup
  rw [hlist, List.nodup_cons] at hnd
  have hfree := hf.free k hk
  refine ⟨⟨_, hp.produced hnode hlist rfl⟩, hf.touch (fun j _ => h.free_not_hand hk j)
    (h.free_not_box hk) (MsgFactory.agreeOff_took rest b) ?_ ?_ ?_⟩
  · simpa [MsgFactory.took] using hf.node k
  · show (s.factory.took k rest b).HoldOk (.producing k [])
    simpa [MsgFactory.HoldOk, MsgFactory.took, MsgFactory.carries_nil, MsgFactory.FreeOk]
      using hfree
  · intro k' hk'
    have hk' : k' ∈ rest := hk'
    exact (hf.free k' (by simp [hlist, hk'])).frame (MsgFactory.agreeOff_took rest b)
      fun he => hnd.1 (he ▸ hk')

lemma setData {p : MsgPayload π ρ} (h : s.Inv) (hs : s.setData i p = some s') : s'.Inv := by
  obtain ⟨k, sent, hi, rfl⟩ := MsgSys.setData_eq_some.1 hs
  have hnode : (s.hold i).node = some k := by
    rw [hi]
    rfl
  obtain ⟨⟨place, hp⟩, hf⟩ := id h
  have hheld : s.factory.HoldOk (.producing k sent) := hi ▸ hf.held i
  unfold MsgSys.dataSet MsgFactory.setData
  by_cases hfull : (s.factory.msgArray k).payloadNum = payloadNumMax
  · simp only [hfull, if_true]
    -- the return value is -1 and the message is as it was
    rw [show (if (-1 : ℤ) = 0 then sent ++ [p] else sent) = sent from rfl]
    refine ⟨⟨_, hp.kept (by rw [hnode]; rfl) rfl⟩, ?_⟩
    exact hf.touch (fun j hj => h.hand_ne hnode hj) (h.hand_not_box hnode)
      (fun _ _ => ⟨rfl, rfl⟩) (hf.node k) hheld hf.free
  · simp only [hfull, if_false, if_true]
    refine ⟨⟨_, hp.kept (by rw [hnode]; rfl) rfl⟩, ?_⟩
    refine hf.touch (fun j hj => h.hand_ne hnode hj) (h.hand_not_box hnode)
      (MsgFactory.agreeOff_put p) ?_ ?_ ?_
    · simpa [MsgFactory.put] using hf.node k
    · refine ⟨?_, ?_, ?_, hheld.2.2.2.put hheld.2.1 p⟩
      · simpa [MsgFactory.put] using hheld.1
      · simpa [MsgFactory.put] using hheld.2.1
      · simpa [MsgFactory.put] using hheld.2.2.1
    · intro k' hk'
      have hk' : k' ∈ s.factory.list := hk'
      exact (hf.free k' hk').frame (MsgFactory.agreeOff_put p)
        fun he => h.hand_not_free hnode (he ▸ hk')

lemma post [DecidableEq β] (h : s.Inv) (hs : s.post i = some s') : s'.Inv := by
  obtain ⟨k, sent, b, hi, hb, rfl⟩ := MsgSys.post_eq_some.1 hs
  have hnode : (s.hold i).node = some k := by
    rw [hi]
    rfl
  obtain ⟨⟨place, hp⟩, hf⟩ := id h
  have hheld : s.factory.HoldOk (.producing k sent) := hi ▸ hf.held i
  refine ⟨⟨_, hp.posted hnode (hf.node k) sent⟩, hf.pass (x := .none) trivial ?_ s.own⟩
  intro y hy
  rcases List.mem_append.1 hy with hy | hy
  · exact hf.boxed b y hy
  · obtain rfl := List.mem_singleton.1 hy
    refine ⟨hb, hheld.2.1, hheld.2.2.1, ?_⟩
    show s.factory.Carries (s.factory.msgArray k).node sent
    rw [hf.node k]
    exact hheld.2.2.2

lemma pend [DecidableEq β] (h : s.Inv) (hs : s.pend i = some s') : s'.Inv := by
  obtain ⟨hi, b, x, rest, -, hb, rfl⟩ := MsgSys.pend_eq_some.1 hs
  have hnode : (s.hold i).node = none := by
    rw [hi]
    rfl
  obtain ⟨⟨place, hp⟩, hf⟩ := id h
  have hx := hf.boxed b x (by simp [hb])
  refine ⟨⟨_, hp.pended hnode hb⟩, hf.pass ?_ ?_ _⟩
  · show s.factory.HoldOk (.consuming x.1 x.2)
    refine ⟨hx.2.1, ?_, hx.2.2.2⟩
    rw [hx.2.2.1]
    exact Nat.zero_le _
  · intro y hy
    exact hf.boxed b y (by simp [hb, hy])

/-- A task keeps pending on the same mailbox. -/
lemma pend_own [DecidableEq β] (h : s.Inv) (hs : s.pend i = some s') : s'.own = s.own := by
  obtain ⟨-, b, x, rest, ho, hb, rfl⟩ := MsgSys.pend_eq_some.1 hs
  have hx := h.2.boxed b x (by simp [hb])
  show Function.update s.own i x.1.id = s.own
  rw [hx.1, ← ho, Function.update_eq_self]

/-- `msg_get_data` returns the payload that was set in its place. -/
lemma getData_eq (h : s.Inv) {p q : Option (MsgPayload π ρ)}
    (hs : s.getData i = some (p, q, s')) : p = q := by
  obtain ⟨m, sent, hi, rfl, rfl, rfl⟩ := MsgSys.getData_eq_some.1 hs
  have hheld : s.factory.HoldOk (.consuming m sent) := hi ▸ h.2.held i
  obtain ⟨hnum, hle, hc⟩ := hheld
  rw [MsgFactory.getData]
  split
  case isTrue he => simp [he, hnum]
  case isFalse hne =>
    have hlt : m.curPayloadIdx < sent.length := by omega
    rw [hc _ hlt, List.getElem?_eq_getElem hlt]

lemma getData (h : s.Inv) {p q : Option (MsgPayload π ρ)}
    (hs : s.getData i = some (p, q, s')) : s'.Inv := by
  obtain ⟨m, sent, hi, -, -, rfl⟩ := MsgSys.getData_eq_some.1 hs
  have hnode : (s.hold i).node = some m.node := by
    rw [hi]
    rfl
  obtain ⟨⟨place, hp⟩, hf⟩ := id h
  have hheld : s.factory.HoldOk (.consuming m sent) := hi ▸ hf.held i
  have hm : (s.factory.getData m).2.node = m.node := by
    rw [MsgFactory.getData]
    split <;> rfl
  refine ⟨⟨_, hp.kept (x := .consuming (s.factory.getData m).2 sent) ?_ rfl⟩, ?_⟩
  · rw [hnode, ← hm]
    rfl
  · refine hf.touch (fun j hj => h.hand_ne hnode hj) (h.hand_not_box hnode)
      (fun _ _ => ⟨rfl, rfl⟩) (hf.node _) ?_ hf.free
    obtain ⟨hnum, hle, hc⟩ := hheld
    rw [MsgFactory.getData]
    split
    case isTrue => exact ⟨hnum, hle, hc⟩
    case isFalse hne =>
      refine ⟨hnum, ?_, hc⟩
      show m.curPayloadIdx + 1 ≤ sent.length
      omega

lemma recycle (h : s.Inv) {calls : List (ρ × π)} (hs : s.recycle i = some (calls, s')) :
    s'.Inv := by
  obtain ⟨m, sent, hi, -, rfl⟩ := MsgSys.recycle_eq_some.1 hs
  have hnode : (s.hold i).node = some m.node := by
    rw [hi]
    rfl
  obtain ⟨⟨place, hp⟩, hf⟩ := id h
  refine ⟨⟨_, hp.recycled hnode⟩, hf.touch (fun j hj => h.hand_ne hnode hj)
    (h.hand_not_box hnode) (MsgFactory.agreeOff_recycle m) ?_ trivial ?_⟩
  · simpa [MsgFactory.recycle] using hf.node m.node
  · intro k' hk'
    rcases List.mem_append.1 hk' with hk' | hk'
    · exact (hf.free k' hk').frame (MsgFactory.agreeOff_recycle m)
        fun he => h.hand_not_free hnode (he ▸ hk')
    · obtain rfl := List.mem_singleton.1 hk'
      simp [MsgFactory.FreeOk, MsgFactory.recycle]

end MsgSys.Inv

end RejectProcess
