import RejectProcess.Tool.MsgPool

/-!
# What is put into a message comes out of it

The calls of `tool/message.c`, `tool/msg_factory.c` and `tool/mailbox.c` with a history of what
they were given and what they returned.  The slots of the factory are used again and again, the
payload array of a slot is reset in part when it is produced and in part when it is recycled, and
the consumer works on a copy.
-/

namespace RejectProcess

open Lib

/-- The `set_data` calls made on a message, each with its return value. -/
abbrev SetCalls (π ρ : Type*) := List (MsgPayload π ρ × ℤ)

/-- History: what a task got out of a message it has taken from a mailbox. -/
structure Taken (ι π ρ : Type*) where
  task : ι
  /-- What the `get_data` calls returned, `none` for `NULL`. -/
  data : List (Option (MsgPayload π ρ))
  /-- What the `get_data_num` calls returned. -/
  nums : List ℕ
  /-- The callbacks that each recycling ran. -/
  released : List (List (ρ × π))

/-- The messages, and their history: the calls on a message in the making, on the messages that
were posted to each mailbox, what was taken from each mailbox, and the taking a task is at. -/
structure Delivery (ι β π ρ : Type*) where
  sys : MsgSys ι β π ρ
  making : ι → SetCalls π ρ
  posted : β → List (SetCalls π ρ)
  taken : β → List (Taken ι π ρ)
  turn : ι → Option (β × ℕ)

namespace Delivery

variable {ι β π ρ : Type*}

/-- The state after start-up: every consumer has done `msg_factory_cast`. -/
def init (payload : ℕ → ℕ → MsgPayload π ρ) (cast : ι → Option β) : Delivery ι β π ρ where
  sys := .init payload cast
  making := fun _ => []
  posted := fun _ => []
  taken := fun _ => []
  turn := fun _ => none

variable [DecidableEq ι] [DecidableEq β] (s : Delivery ι β π ρ)

/-- `msg_factory_produce(b)` by task `i`. -/
def produce (i : ι) (b : β) : Option (Delivery ι β π ρ) :=
  (s.sys.produce i b).map fun y => { s with sys := y, making := Function.update s.making i [] }

/-- `msg_set_data` by task `i`. -/
def setData (i : ι) (p : MsgPayload π ρ) : Option (Delivery ι β π ρ) :=
  match s.sys.hold i with
  | .producing k _ =>
    (s.sys.setData i p).map fun y =>
      { s with
        sys := y
        making := Function.update s.making i
          (s.making i ++ [(p, (s.sys.factory.setData k p).1)]) }
  | _ => none

/-- `mailbox_post` by task `i`, to the mailbox that the message names. -/
def post (i : ι) : Option (Delivery ι β π ρ) :=
  match s.sys.hold i with
  | .producing k _ =>
    match (s.sys.factory.msgArray k).id with
    | some b =>
      (s.sys.post i).map fun y =>
        { s with
          sys := y
          posted := Function.update s.posted b (s.posted b ++ [s.making i]) }
    | none => none
  | _ => none

/-- `mailbox_pend` by task `i`, on the mailbox that its local copy names. -/
def pend (i : ι) : Option (Delivery ι β π ρ) :=
  match s.sys.own i with
  | some b =>
    (s.sys.pend i).map fun y =>
      { s with
        sys := y
        taken := Function.update s.taken b
          (s.taken b ++ [{ task := i, data := [], nums := [], released := [] }])
        turn := Function.update s.turn i (some (b, (s.taken b).length)) }
  | none => none

/-- A task that leaves the messages as `y` adds to what it got out of its message. -/
def note (i : ι) (y : MsgSys ι β π ρ) (f : Taken ι π ρ → Taken ι π ρ) : Delivery ι β π ρ :=
  match s.turn i with
  | some (b, n) =>
    { s with sys := y, taken := Function.update s.taken b ((s.taken b).modify n f) }
  | none => { s with sys := y }

/-- A call by a task. -/
def step (s : Delivery ι β π ρ) (a : ι × MsgCall β π ρ) : Option (Delivery ι β π ρ) :=
  match a.2 with
  | .produce b => s.produce a.1 b
  | .setData p => s.setData a.1 p
  | .post => s.post a.1
  | .pend => s.pend a.1
  | .getData =>
    (s.sys.getData a.1).map fun r =>
      s.note a.1 r.2.2 fun e => { e with data := e.data ++ [r.1] }
  | .getDataNum =>
    (s.sys.getDataNum a.1).map fun n =>
      s.note a.1 s.sys fun e => { e with nums := e.nums ++ [n] }
  | .recycle =>
    (s.sys.recycle a.1).map fun r =>
      s.note a.1 r.2 fun e => { e with released := e.released ++ [r.1] }

end Delivery

/-! ## What the calls set -/

section Calls

variable {π ρ : Type*}

/-- The payloads that the calls have set: those of the first 16. -/
def setBy (calls : SetCalls π ρ) : List (MsgPayload π ρ) :=
  (calls.map Prod.fst).take payloadNumMax

/-- The callbacks of payloads that have one, each with its argument and the data. -/
def callbacks (sent : List (MsgPayload π ρ)) : List (ρ × π) :=
  sent.filterMap fun p => p.release.map fun r => (r, p.data)

/-- The first 16 calls have returned 0 and the others -1. -/
def Returned (calls : SetCalls π ρ) : Prop :=
  ∀ n (hn : n < calls.length), calls[n].2 = if n < payloadNumMax then 0 else -1

variable {calls : SetCalls π ρ} {p : MsgPayload π ρ}

lemma length_setBy (calls : SetCalls π ρ) :
    (setBy calls).length = min calls.length payloadNumMax := by
  rw [setBy, List.length_take, List.length_map, Nat.min_comm]

/-- One more call. -/
lemma setBy_append (calls : SetCalls π ρ) (p : MsgPayload π ρ) (r : ℤ) :
    setBy (calls ++ [(p, r)]) =
      if calls.length < payloadNumMax then setBy calls ++ [p] else setBy calls := by
  rw [setBy, List.map_append, List.take_append, List.length_map, ← setBy]
  split
  case isTrue h =>
    rw [List.take_of_length_le (by simp; omega)]
    rfl
  case isFalse h =>
    rw [Nat.sub_eq_zero_of_le (Nat.not_lt.1 h), List.take_zero, List.append_nil]

lemma Returned.append (h : Returned calls) {r : ℤ}
    (hr : r = if calls.length < payloadNumMax then 0 else -1) (p : MsgPayload π ρ) :
    Returned (calls ++ [(p, r)]) := by
  intro n hn
  by_cases hlt : n < calls.length
  · rw [List.getElem_append_left hlt]
    exact h n hlt
  · obtain rfl : n = calls.length := by
      rw [List.length_append, List.length_singleton] at hn
      omega
    simpa using hr

end Calls

/-! ## No callback is left over -/

namespace MsgFactory

variable {β π ρ : Type*}

/-- From place `n` on, no payload of the slot `k` has a callback. -/
def Clean (f : MsgFactory β π ρ) (k n : ℕ) : Prop := ∀ j, n ≤ j → (f.payload k j).release = none

/-- What a task has in hand is clean behind what was set on it. -/
def HoldClean (f : MsgFactory β π ρ) : Hold β π ρ → Prop
  | .none => True
  | .producing k sent => f.Clean k sent.length
  | .consuming m sent => f.Clean m.node sent.length

variable {f f' : MsgFactory β π ρ} {k n : ℕ}

lemma Clean.frame {k' : ℕ} (h : f.Clean k' n) (hoff : f.AgreeOff f' k) (hk : k' ≠ k) :
    f'.Clean k' n := by
  intro j hj
  rw [(hoff k' hk).2]
  exact h j hj

lemma HoldClean.frame {x : Hold β π ρ} (h : f.HoldClean x) (hoff : f.AgreeOff f' k)
    (hk : x.node ≠ some k) : f'.HoldClean x := by
  cases x with
  | none => trivial
  | producing k' sent => exact Clean.frame h hoff fun he => hk (by rw [he]; rfl)
  | consuming m sent => exact Clean.frame h hoff fun he => hk (by rw [← he]; rfl)

/-- `msg_factory_produce` takes all callbacks off the slot. -/
lemma clean_took (rest : List ℕ) (b : β) : (f.took k rest b).Clean k 0 := by
  intro j _
  simp [took]

/-- `msg_set_data` sets one place. -/
lemma Clean.put (h : f.Clean k n) (hn : (f.msgArray k).payloadNum = n) (p : MsgPayload π ρ) :
    (f.put k p).Clean k (n + 1) := by
  intro j hj
  have hne : j ≠ n := by omega
  simpa [MsgFactory.put, hn, hne] using h j (by omega)

/-- A slot that carries `sent` and nothing else runs the callbacks of `sent`. -/
lemma released_eq {m : Message β} {sent : List (MsgPayload π ρ)} (hc : f.Carries m.node sent)
    (hclean : f.Clean m.node sent.length) (hlen : sent.length ≤ payloadNumMax) :
    f.released m = callbacks sent := by
  have hsent : sent = (List.range sent.length).map (f.payload m.node) := by
    refine List.ext_getElem (by simp) fun n hn _ => ?_
    simp [hc n hn]
  obtain ⟨extra, hextra⟩ := Nat.exists_eq_add_of_le hlen
  have hrest : ∀ n ∈ (List.range extra).map (sent.length + ·),
      ((f.payload m.node n).release.map fun r => (r, (f.payload m.node n).data)) = none := by
    intro n hn
    obtain ⟨j, -, rfl⟩ := List.mem_map.1 hn
    rw [hclean _ (Nat.le_add_right _ _)]
    rfl
  rw [released, hextra, List.range_add, List.filterMap_append, List.filterMap_eq_nil_iff.2 hrest,
    List.append_nil]
  conv_rhs => rw [hsent, callbacks, List.filterMap_map]
  rfl

end MsgFactory

/-- No slot in use has a callback behind what was set on it. -/
structure Swept {ι β π ρ : Type*} (s : MsgSys ι β π ρ) : Prop where
  boxed : ∀ b, ∀ x ∈ s.mbx b, s.factory.Clean x.1.node x.2.length
  held : ∀ i, s.factory.HoldClean (s.hold i)

namespace Swept

variable {ι β π ρ : Type*} {s s' : MsgSys ι β π ρ}

lemma init (payload : ℕ → ℕ → MsgPayload π ρ) (cast : ι → Option β) :
    Swept (MsgSys.init payload cast) where
  boxed := fun _ _ hx => absurd hx List.not_mem_nil
  held := fun _ => trivial

variable [DecidableEq ι] {i : ι} {k : ℕ}

/-- A task touches the one slot `k`, which no other task and no mailbox has. -/
lemma touch (h : Swept s) (hhand : ∀ j, j ≠ i → (s.hold j).node ≠ some k)
    (hbox : ∀ b, k ∉ s.nodes b) {f : MsgFactory β π ρ} (hoff : s.factory.AgreeOff f k)
    {x : Hold β π ρ} (hx : f.HoldClean x) :
    Swept { s with factory := f, hold := Function.update s.hold i x } where
  boxed := by
    intro b y hy
    exact (h.boxed b y hy).frame hoff fun he => hbox b (he ▸ List.mem_map_of_mem hy)
  held := by
    intro j
    show f.HoldClean (Function.update s.hold i x j)
    by_cases hj : j = i
    · rw [hj, Function.update_self]
      exact hx
    · rw [Function.update_of_ne hj]
      exact (h.held j).frame hoff (hhand j hj)

/-- A task changes what it has in hand and a mailbox, and no slot is touched. -/
lemma pass [DecidableEq β] (h : Swept s) {x : Hold β π ρ} (hx : s.factory.HoldClean x) {b : β}
    {l : List (Message β × List (MsgPayload π ρ))}
    (hl : ∀ y ∈ l, s.factory.Clean y.1.node y.2.length) (own : ι → Option β) :
    Swept { s with
      mbx := Function.update s.mbx b l, hold := Function.update s.hold i x, own := own } where
  boxed := by
    intro b' y hy
    by_cases hb : b' = b
    · subst hb
      exact hl y (by simpa using hy)
    · exact h.boxed b' y (by simpa [hb] using hy)
  held := by
    intro j
    show s.factory.HoldClean (Function.update s.hold i x j)
    by_cases hj : j = i
    · rw [hj, Function.update_self]
      exact hx
    · rw [Function.update_of_ne hj]
      exact h.held j

lemma produce (h : Swept s) (hinv : s.Inv) {b : β} (hs : s.produce i b = some s') : Swept s' := by
  obtain ⟨hi, k, rest, hlist, rfl⟩ := MsgSys.produce_eq_some.1 hs
  have hk : k ∈ s.factory.list := by simp [hlist]
  exact h.touch (fun j _ => hinv.free_not_hand hk j) (hinv.free_not_box hk)
    (MsgFactory.agreeOff_took rest b) (x := .producing k []) (MsgFactory.clean_took rest b)

lemma setData (h : Swept s) (hinv : s.Inv) {p : MsgPayload π ρ} (hs : s.setData i p = some s') :
    Swept s' := by
  obtain ⟨k, sent, hi, rfl⟩ := MsgSys.setData_eq_some.1 hs
  have hnode : (s.hold i).node = some k := by
    rw [hi]
    rfl
  have hclean : s.factory.Clean k sent.length := by
    have := h.held i
    rwa [hi] at this
  have hheld : s.factory.HoldOk (.producing k sent) := hi ▸ hinv.2.held i
  unfold MsgSys.dataSet MsgFactory.setData
  by_cases hfull : (s.factory.msgArray k).payloadNum = payloadNumMax
  · simp only [hfull, if_true]
    exact h.touch (fun j hj => hinv.hand_ne hnode hj) (hinv.hand_not_box hnode)
      (fun _ _ => ⟨rfl, rfl⟩) (x := .producing k sent) hclean
  · simp only [hfull, if_false, if_true]
    refine h.touch (fun j hj => hinv.hand_ne hnode hj) (hinv.hand_not_box hnode)
      (MsgFactory.agreeOff_put p) (x := .producing k (sent ++ [p])) ?_
    show (s.factory.put k p).Clean k (sent ++ [p]).length
    rw [List.length_append]
    exact hclean.put hheld.2.1 p

lemma post [DecidableEq β] (h : Swept s) (hinv : s.Inv) (hs : s.post i = some s') : Swept s' := by
  obtain ⟨k, sent, b, hi, hb, rfl⟩ := MsgSys.post_eq_some.1 hs
  have hclean := h.held i
  rw [hi] at hclean
  refine h.pass (x := .none) trivial ?_ s.own
  intro y hy
  rcases List.mem_append.1 hy with hy | hy
  · exact h.boxed b y hy
  · obtain rfl := List.mem_singleton.1 hy
    show s.factory.Clean (s.factory.msgArray k).node sent.length
    rw [hinv.2.node k]
    exact hclean

lemma pend [DecidableEq β] (h : Swept s) (hs : s.pend i = some s') : Swept s' := by
  obtain ⟨hi, b, x, rest, -, hb, rfl⟩ := MsgSys.pend_eq_some.1 hs
  refine h.pass (x := .consuming x.1 x.2) (h.boxed b x (by simp [hb])) ?_ _
  intro y hy
  exact h.boxed b y (by simp [hb, hy])

lemma getData (h : Swept s) (hinv : s.Inv) {p q : Option (MsgPayload π ρ)}
    (hs : s.getData i = some (p, q, s')) : Swept s' := by
  obtain ⟨m, sent, hi, -, -, rfl⟩ := MsgSys.getData_eq_some.1 hs
  have hnode : (s.hold i).node = some m.node := by
    rw [hi]
    rfl
  have hclean := h.held i
  rw [hi] at hclean
  have hm : (s.factory.getData m).2.node = m.node := by
    rw [MsgFactory.getData]
    split <;> rfl
  refine h.touch (fun j hj => hinv.hand_ne hnode hj) (hinv.hand_not_box hnode)
    (fun _ _ => ⟨rfl, rfl⟩) (x := .consuming (s.factory.getData m).2 sent) ?_
  show s.factory.Clean (s.factory.getData m).2.node sent.length
  rw [hm]
  exact hclean

lemma recycle (h : Swept s) (hinv : s.Inv) {calls : List (ρ × π)}
    (hs : s.recycle i = some (calls, s')) : Swept s' := by
  obtain ⟨m, sent, hi, -, rfl⟩ := MsgSys.recycle_eq_some.1 hs
  have hnode : (s.hold i).node = some m.node := by
    rw [hi]
    rfl
  exact h.touch (fun j hj => hinv.hand_ne hnode hj) (hinv.hand_not_box hnode)
    (MsgFactory.agreeOff_recycle m) (x := .none) trivial

end Swept

/-! ## The history of the calls -/

/-- What a task got is what the calls on the message set. -/
structure Got {ι π ρ : Type*} (e : Taken ι π ρ) (calls : SetCalls π ρ) : Prop where
  data : ∀ n (hn : n < e.data.length), e.data[n] = (setBy calls)[n]?
  nums : ∀ x ∈ e.nums, x = min calls.length payloadNumMax
  released : e.released = [] ∨ e.released = [callbacks (setBy calls)]

namespace Delivery

variable {ι β π ρ : Type*}

/-- Task `i` is at entry `n` of mailbox `b`, and what it has taken is as far read as its copy
`m` says. -/
def AtTurn (s : Delivery ι β π ρ) (i : ι) (m : Message β) (sent : List (MsgPayload π ρ)) : Prop :=
  ∃ b n e calls, s.turn i = some (b, n) ∧ (s.taken b)[n]? = some e ∧ e.task = i ∧
    (s.posted b)[n]? = some calls ∧ sent = setBy calls ∧
    m.curPayloadIdx = min e.data.length sent.length ∧ e.released = []

/-- The messages in the mailboxes are the posted ones that were not taken, and everything got
out of a message is what was set on the one posted in its place. -/
structure Inv (cast : ι → Option β) (s : Delivery ι β π ρ) : Prop where
  sys : s.sys.Inv
  swept : Swept s.sys
  own : s.sys.own = cast
  making : ∀ i k sent, s.sys.hold i = .producing k sent →
    sent = setBy (s.making i) ∧ Returned (s.making i)
  returned : ∀ b, ∀ calls ∈ s.posted b, Returned calls
  le : ∀ b, (s.taken b).length ≤ (s.posted b).length
  waiting : ∀ b, List.Forall₂ (fun calls x => x.2 = setBy calls)
    ((s.posted b).drop (s.taken b).length) (s.sys.mbx b)
  taken : ∀ (b : β) (n : ℕ) (e : Taken ι π ρ), (s.taken b)[n]? = some e → cast e.task = some b ∧
    ∃ calls, (s.posted b)[n]? = some calls ∧ Got e calls
  turn : ∀ i m sent, s.sys.hold i = .consuming m sent → s.AtTurn i m sent

namespace Inv

variable {cast : ι → Option β} {s s' : Delivery ι β π ρ}

lemma init (payload : ℕ → ℕ → MsgPayload π ρ) (cast : ι → Option β) :
    Inv cast (Delivery.init payload cast) where
  sys := .init payload cast
  swept := .init payload cast
  own := rfl
  making := fun _ _ _ hi => by cases hi
  returned := fun _ _ hc => absurd hc List.not_mem_nil
  le := fun _ => le_rfl
  waiting := fun _ => .nil
  taken := fun _ _ _ he => by cases he
  turn := fun _ _ _ hi => by cases hi

/-- What is set on a message is no more than a slot has room for. -/
lemma length_le (h : Inv cast s) {i : ι} {m : Message β} {sent : List (MsgPayload π ρ)}
    (hi : s.sys.hold i = .consuming m sent) : sent.length ≤ payloadNumMax := by
  obtain ⟨b, n, e, calls, -, -, -, -, rfl, -⟩ := h.turn i m sent hi
  rw [length_setBy]
  exact Nat.min_le_right _ _

variable [DecidableEq ι] [DecidableEq β] {i : ι}

omit [DecidableEq β] in
/-- The messages in the making, when task `i` now has something else in hand. -/
lemma making_of_update (h : Inv cast s) {y : MsgSys ι β π ρ} {x : Hold β π ρ}
    (hhold : y.hold = Function.update s.sys.hold i x) (hx : ∀ k sent, x ≠ .producing k sent) :
    ∀ j k sent, y.hold j = .producing k sent →
      sent = setBy (s.making j) ∧ Returned (s.making j) := by
  intro j k sent hj
  rw [hhold] at hj
  by_cases hji : j = i
  · subst hji
    rw [Function.update_self] at hj
    exact absurd hj (hx k sent)
  · rw [Function.update_of_ne hji] at hj
    exact h.making j k sent hj

omit [DecidableEq β] in
/-- The messages that are taken, when task `i` now has something else in hand. -/
lemma turn_of_update (h : Inv cast s) {y : MsgSys ι β π ρ} {x : Hold β π ρ}
    (hhold : y.hold = Function.update s.sys.hold i x) (hx : ∀ m sent, x ≠ .consuming m sent) :
    ∀ j m sent, y.hold j = .consuming m sent → s.AtTurn j m sent := by
  intro j m sent hj
  rw [hhold] at hj
  by_cases hji : j = i
  · subst hji
    rw [Function.update_self] at hj
    exact absurd hj (hx m sent)
  · rw [Function.update_of_ne hji] at hj
    exact h.turn j m sent hj

omit [DecidableEq β] in
lemma produce {b : β} (h : Inv cast s) (hs : s.produce i b = some s') : Inv cast s' := by
  obtain ⟨y, hy, rfl⟩ := Option.map_eq_some_iff.1 hs
  obtain ⟨hi, k, rest, hlist, rfl⟩ := MsgSys.produce_eq_some.1 hy
  refine ⟨h.sys.produce hy, h.swept.produce h.sys hy, h.own, ?_, h.returned, h.le, h.waiting,
    h.taken, h.turn_of_update (x := .producing k []) rfl (by simp)⟩
  intro j k' sent hj
  by_cases hji : j = i
  · subst hji
    obtain ⟨-, rfl⟩ : k = k' ∧ [] = sent := by simpa [MsgSys.produced] using hj
    simp only [Function.update_self]
    exact ⟨rfl, fun n hn => absurd hn (Nat.not_lt_zero n)⟩
  · simp only [Function.update_of_ne hji]
    exact h.making j k' sent (by simpa [MsgSys.produced, hji] using hj)

omit [DecidableEq β] in
lemma setData {p : MsgPayload π ρ} (h : Inv cast s) (hs : s.setData i p = some s') :
    Inv cast s' := by
  rw [Delivery.setData] at hs
  cases hi : s.sys.hold i with
  | none => simp [hi] at hs
  | consuming m sent => simp [hi] at hs
  | producing k sent =>
    rw [hi] at hs
    obtain ⟨y, hy, rfl⟩ := Option.map_eq_some_iff.1 hs
    obtain ⟨k', sent', hi', rfl⟩ := MsgSys.setData_eq_some.1 hy
    obtain ⟨rfl, rfl⟩ : k = k' ∧ sent = sent' := by simpa [hi] using hi'
    obtain ⟨hsent, hret⟩ := h.making i k sent hi
    have hheld : s.sys.factory.HoldOk (.producing k sent) := hi ▸ h.sys.2.held i
    -- the slot is full when 16 calls have been made
    have hfull : (s.sys.factory.msgArray k).payloadNum = payloadNumMax ↔
        ¬ (s.making i).length < payloadNumMax := by
      rw [hheld.2.1, hsent, length_setBy]
      omega
    have hr : (s.sys.factory.setData k p).1
        = if (s.making i).length < payloadNumMax then 0 else -1 := by
      rw [MsgFactory.setData]
      by_cases hlt : (s.making i).length < payloadNumMax <;> simp [hfull, hlt]
    have hnew : (if (s.sys.factory.setData k p).1 = 0 then sent ++ [p] else sent)
        = setBy (s.making i ++ [(p, (s.sys.factory.setData k p).1)]) := by
      rw [setBy_append, hr, hsent]
      by_cases hlt : (s.making i).length < payloadNumMax <;> simp [hlt]
    refine ⟨h.sys.setData hy, h.swept.setData h.sys hy, h.own, ?_, h.returned, h.le, h.waiting,
      h.taken, h.turn_of_update (x := .producing k _) rfl (by simp)⟩
    intro j k' sent' hj
    by_cases hji : j = i
    · subst hji
      obtain ⟨-, rfl⟩ : k = k' ∧
          (if (s.sys.factory.setData k p).1 = 0 then sent ++ [p] else sent) = sent' := by
        simpa [MsgSys.dataSet] using hj
      simp only [Function.update_self]
      exact ⟨hnew, hret.append hr p⟩
    · simp only [Function.update_of_ne hji]
      exact h.making j k' sent' (by simpa [MsgSys.dataSet, hji] using hj)

omit [DecidableEq ι] in
/-- An entry stays in its place when another one is appended. -/
lemma entry_update_append {γ : Type*} {f : β → List γ} {b c : β} {n : ℕ} {x y : γ}
    (hx : (f c)[n]? = some x) : (Function.update f b (f b ++ [y]) c)[n]? = some x := by
  by_cases hcb : c = b
  · subst hcb
    rw [Function.update_self, List.getElem?_append_left (List.getElem?_eq_some_iff.1 hx).1]
    exact hx
  · rw [Function.update_of_ne hcb]
    exact hx

/-- A message that is posted comes behind those that wait. -/
lemma post (h : Inv cast s) (hs : s.post i = some s') : Inv cast s' := by
  obtain ⟨k, sent, b, hi, hid, rfl⟩ := MsgSys.map_post_eq_some.1 hs
  have hy : s.sys.post i = some (s.sys.posted i k sent b) :=
    MsgSys.post_eq_some.2 ⟨k, sent, b, hi, hid, rfl⟩
  obtain ⟨hsent, hret⟩ := h.making i k sent hi
  refine ⟨h.sys.post hy, h.swept.post h.sys hy, h.own,
    h.making_of_update (x := .none) rfl (by simp), ?_, ?_, ?_, ?_, ?_⟩
  · intro c calls hc
    by_cases hcb : c = b
    · subst hcb
      simp only [Function.update_self, List.mem_append, List.mem_singleton] at hc
      rcases hc with hc | rfl
      · exact h.returned c calls hc
      · exact hret
    · simp only [Function.update_of_ne hcb] at hc
      exact h.returned c calls hc
  · intro c
    have hle := h.le c
    by_cases hcb : c = b
    · subst hcb
      simp only [Function.update_self, List.length_append, List.length_singleton]
      omega
    · simpa only [Function.update_of_ne hcb] using hle
  · intro c
    by_cases hcb : c = b
    · subst hcb
      have hwait := h.waiting c
      simp only [Function.update_self, MsgSys.posted, List.drop_append_of_le_length (h.le c)]
      exact List.rel_append hwait (.cons hsent .nil)
    · simpa only [Function.update_of_ne hcb, MsgSys.posted] using h.waiting c
  · intro c n e he
    obtain ⟨hcast, calls, hc, hgot⟩ := h.taken c n e he
    exact ⟨hcast, calls, entry_update_append hc, hgot⟩
  · intro j m sent' hj
    obtain ⟨c, n, e, calls, h1, h2, h3, h4, h5⟩ :=
      h.turn_of_update (x := .none) rfl (by simp) j m sent' hj
    exact ⟨c, n, e, calls, h1, h2, h3, entry_update_append h4, h5⟩

/-- The message that is taken is the first one posted and not yet taken. -/
lemma pend (h : Inv cast s) (hs : s.pend i = some s') : Inv cast s' := by
  rw [Delivery.pend] at hs
  cases ho : s.sys.own i with
  | none => simp [ho] at hs
  | some b =>
    simp only [ho] at hs
    obtain ⟨y, hy, rfl⟩ := Option.map_eq_some_iff.1 hs
    have hown := h.sys.pend_own hy
    have hsys := h.sys.pend hy
    have hswept := h.swept.pend hy
    obtain ⟨hi, b', x, rest, ho', hb, rfl⟩ := MsgSys.pend_eq_some.1 hy
    obtain rfl : b = b' := by simpa [ho] using ho'
    have hwait := h.waiting b
    rw [hb] at hwait
    obtain ⟨calls, more, hx, hrest, hdrop⟩ := List.forall₂_cons_right_iff.1 hwait
    have hnth : (s.posted b)[(s.taken b).length]? = some calls := by
      rw [← List.head?_drop, hdrop]
      rfl
    have hmore : (s.posted b).drop ((s.taken b).length + 1) = more := by
      rw [← List.tail_drop, hdrop]
      rfl
    have hlt : (s.taken b).length < (s.posted b).length := (List.getElem?_eq_some_iff.1 hnth).1
    refine ⟨hsys, hswept, hown.trans h.own,
      h.making_of_update (x := .consuming x.1 x.2) rfl (by simp), h.returned, ?_, ?_, ?_, ?_⟩
    · intro c
      by_cases hcb : c = b
      · subst hcb
        simp only [Function.update_self, List.length_append, List.length_singleton]
        exact hlt
      · simpa only [Function.update_of_ne hcb] using h.le c
    · intro c
      by_cases hcb : c = b
      · subst hcb
        simp only [Function.update_self, MsgSys.pended, List.length_append, List.length_singleton,
          hmore]
        exact hrest
      · simpa only [Function.update_of_ne hcb, MsgSys.pended] using h.waiting c
    · intro c n e he
      by_cases hcb : c = b
      · subst hcb
        simp only [Function.update_self, List.getElem?_append] at he
        split at he
        · exact h.taken c n e he
        · obtain ⟨hn, rfl⟩ : n = (s.taken c).length ∧
              ({ task := i, data := [], nums := [], released := [] } : Taken ι π ρ) = e := by
            rw [List.getElem?_singleton] at he
            split at he
            · exact ⟨by omega, Option.some.inj he⟩
            · cases he
          subst hn
          refine ⟨?_, calls, hnth, ?_, ?_, .inl rfl⟩
          · rw [← h.own]
            exact ho
          · exact fun n hn => absurd hn (Nat.not_lt_zero n)
          · exact fun x hx => absurd hx List.not_mem_nil
      · simp only [Function.update_of_ne hcb] at he
        exact h.taken c n e he
    · intro j m sent hj
      by_cases hji : j = i
      · subst hji
        obtain ⟨rfl, rfl⟩ : x.1 = m ∧ x.2 = sent := by simpa [MsgSys.pended] using hj
        have hidx := (h.sys.2.boxed b x (by simp [hb])).2.2.1
        refine ⟨b, (s.taken b).length, { task := j, data := [], nums := [], released := [] },
          calls, Function.update_self .., ?_, rfl, hnth, hx, ?_, rfl⟩
        · simp
        · simpa using hidx
      · obtain ⟨c, n, e, calls', h1, h2, h3⟩ :=
          h.turn j m sent (by simpa [MsgSys.pended, hji] using hj)
        exact ⟨c, n, e, calls', by simpa [hji] using h1, entry_update_append h2, h3⟩

/-- A task that has taken a message adds to what it got out of it. -/
lemma note (h : Inv cast s) {m : Message β} {sent : List (MsgPayload π ρ)}
    (hi : s.sys.hold i = .consuming m sent) {y : MsgSys ι β π ρ} (hy : y.Inv) (hswept : Swept y)
    (hown : y.own = s.sys.own) (hmbx : y.mbx = s.sys.mbx) {x : Hold β π ρ}
    (hhold : y.hold = Function.update s.sys.hold i x) (hx : ∀ k sent', x ≠ .producing k sent')
    {f : Taken ι π ρ → Taken ι π ρ} (htask : ∀ e, (f e).task = e.task)
    (hgot : ∀ e, e.data.length ⊓ sent.length = m.curPayloadIdx → e.released = [] →
      ∀ calls, sent = setBy calls → Got e calls → Got (f e) calls ∧
        ∀ m' sent', x = .consuming m' sent' → sent' = sent ∧
          m'.curPayloadIdx = min (f e).data.length sent.length ∧ (f e).released = []) :
    Inv cast (s.note i y f) := by
  obtain ⟨b, n, e, calls, hturn, he, hei, hcalls, hsent, hidx, hrel⟩ := h.turn i m sent hi
  have hnote : s.note i y f =
      { s with sys := y, taken := Function.update s.taken b ((s.taken b).modify n f) } := by
    rw [Delivery.note, hturn]
  obtain ⟨hcast, calls', hcalls', hg⟩ := h.taken b n e he
  obtain rfl : calls = calls' := by
    rw [hcalls] at hcalls'
    exact Option.some.inj hcalls'
  obtain ⟨hfe, hnew⟩ := hgot e hidx.symm hrel calls hsent hg
  have hentry : ((s.taken b).modify n f)[n]? = some (f e) := by
    rw [List.getElem?_modify_eq, he]
    rfl
  have hlen : ∀ c, (Function.update s.taken b ((s.taken b).modify n f) c).length
      = (s.taken c).length := by
    intro c
    by_cases hcb : c = b
    · subst hcb
      rw [Function.update_self, List.length_modify]
    · rw [Function.update_of_ne hcb]
  rw [hnote]
  refine ⟨hy, hswept, hown.trans h.own, h.making_of_update hhold hx, h.returned, ?_, ?_, ?_, ?_⟩
  · intro c
    rw [hlen]
    exact h.le c
  · intro c
    rw [hlen, hmbx]
    exact h.waiting c
  · intro c n' e' he'
    by_cases hcb : c = b
    · subst hcb
      simp only [Function.update_self] at he'
      by_cases hn : n' = n
      · subst hn
        rw [hentry] at he'
        obtain rfl := Option.some.inj he'
        rw [htask]
        exact ⟨hcast, calls, hcalls, hfe⟩
      · rw [List.getElem?_modify_ne _ _ (Ne.symm hn)] at he'
        exact h.taken c n' e' he'
    · simp only [Function.update_of_ne hcb] at he'
      exact h.taken c n' e' he'
  · intro j m' sent' hj
    rw [hhold] at hj
    by_cases hji : j = i
    · subst hji
      rw [Function.update_self] at hj
      obtain ⟨rfl, hidx', hrel'⟩ := hnew m' sent' hj
      refine ⟨b, n, f e, calls, hturn, ?_, (htask e).trans hei, hcalls, hsent, hidx', hrel'⟩
      simpa only [Function.update_self] using hentry
    · rw [Function.update_of_ne hji] at hj
      obtain ⟨c, n', e', calls', h1, h2, h3, h4⟩ := h.turn j m' sent' hj
      refine ⟨c, n', e', calls', h1, ?_, h3, h4⟩
      -- the entry of another task is another entry
      by_cases hcb : c = b
      · subst hcb
        have hn : n ≠ n' := by
          rintro rfl
          rw [he] at h2
          obtain rfl := Option.some.inj h2
          exact hji (h3.symm.trans hei)
        simp only [Function.update_self]
        rw [List.getElem?_modify_ne _ _ hn]
        exact h2
      · simpa only [Function.update_of_ne hcb] using h2

lemma getData (h : Inv cast s) (hs : s.step (i, .getData) = some s') : Inv cast s' := by
  obtain ⟨⟨p, q, y⟩, hy, rfl⟩ := Option.map_eq_some_iff.1 hs
  have hpq := h.sys.getData_eq hy
  have hsys := h.sys.getData hy
  have hswept := h.swept.getData h.sys hy
  obtain ⟨m, sent, hi, hp, hq, rfl⟩ := MsgSys.getData_eq_some.1 hy
  have hnum : m.payloadNum = sent.length := by
    have hheld := h.sys.2.held i
    rw [hi] at hheld
    exact hheld.1
  refine h.note hi hsys hswept rfl rfl (x := .consuming (s.sys.factory.getData m).2 sent) rfl
    (by simp) (fun _ => rfl) ?_
  intro e hidx hrel calls hsent hg
  refine ⟨⟨?_, hg.nums, hg.released⟩, ?_⟩
  · intro n hn
    by_cases hlt : n < e.data.length
    · simp only [List.getElem_append_left hlt]
      exact hg.data n hlt
    · obtain rfl : n = e.data.length := by
        simp only [List.length_append, List.length_singleton] at hn
        omega
      have hp : p = sent[min e.data.length sent.length]? := by
        rw [hidx, ← hq]
        exact hpq
      simp only [List.getElem_concat_length, ← hsent, hp]
      -- behind the last payload the call returns `NULL` again and again
      by_cases hlen : e.data.length < sent.length
      · rw [Nat.min_eq_left hlen.le]
      · rw [Nat.min_eq_right (Nat.not_lt.1 hlen), List.getElem?_eq_none le_rfl,
          List.getElem?_eq_none (Nat.not_lt.1 hlen)]
  · intro m' sent' hx
    obtain ⟨rfl, rfl⟩ := Hold.consuming.inj hx
    refine ⟨rfl, ?_, hrel⟩
    rw [List.length_append, List.length_singleton]
    rw [MsgFactory.getData]
    split
    case isTrue he =>
      show m.curPayloadIdx = _
      omega
    case isFalse hne =>
      show m.curPayloadIdx + 1 = _
      omega

lemma getDataNum (h : Inv cast s) (hs : s.step (i, .getDataNum) = some s') : Inv cast s' := by
  obtain ⟨k, hk, rfl⟩ := Option.map_eq_some_iff.1 hs
  cases hi : s.sys.hold i with
  | none => simp [MsgSys.getDataNum, hi] at hk
  | producing k sent => simp [MsgSys.getDataNum, hi] at hk
  | consuming m sent =>
    obtain rfl : m.payloadNum = k := by simpa [MsgSys.getDataNum, hi] using hk
    have hnum : m.payloadNum = sent.length := by
      have hheld := h.sys.2.held i
      rw [hi] at hheld
      exact hheld.1
    refine h.note hi h.sys h.swept rfl rfl (x := .consuming m sent)
      (by rw [← hi, Function.update_eq_self]) (by simp) (fun _ => rfl) ?_
    intro e hidx hrel calls hsent hg
    refine ⟨⟨hg.data, ?_, hg.released⟩, ?_⟩
    · intro x hx
      rcases List.mem_append.1 hx with hx | hx
      · exact hg.nums x hx
      · obtain rfl := List.mem_singleton.1 hx
        rw [hnum, hsent, length_setBy]
    · intro m' sent' hx
      obtain ⟨rfl, rfl⟩ := Hold.consuming.inj hx
      exact ⟨rfl, hidx.symm, hrel⟩

lemma recycle (h : Inv cast s) (hs : s.step (i, .recycle) = some s') : Inv cast s' := by
  obtain ⟨⟨ran, y⟩, hy, rfl⟩ := Option.map_eq_some_iff.1 hs
  have hsys := h.sys.recycle hy
  have hswept := h.swept.recycle h.sys hy
  obtain ⟨m, sent, hi, hran, rfl⟩ := MsgSys.recycle_eq_some.1 hy
  have hheld := h.sys.2.held i
  have hclean := h.swept.held i
  rw [hi] at hheld hclean
  have hcalls : ran = callbacks sent := by
    rw [hran]
    exact MsgFactory.released_eq hheld.2.2 hclean (h.length_le hi)
  refine h.note hi hsys hswept rfl rfl (x := .none) rfl (by simp) (fun _ => rfl) ?_
  intro e hidx hrel calls hsent hg
  refine ⟨⟨hg.data, hg.nums, .inr ?_⟩, by simp⟩
  show e.released ++ [ran] = _
  rw [hrel, hcalls, hsent]
  rfl

lemma step (h : Inv cast s) {a : ι × MsgCall β π ρ} (hs : s.step a = some s') :
    Inv cast s' := by
  obtain ⟨i, c⟩ := a
  cases c with
  | produce b => exact h.produce hs
  | setData p => exact h.setData hs
  | post => exact h.post hs
  | pend => exact h.pend hs
  | getData => exact h.getData hs
  | getDataNum => exact h.getDataNum hs
  | recycle => exact h.recycle hs

end Inv

/-! ## Runs -/

section Runs

variable {cast : ι → Option β} {s : Delivery ι β π ρ}

/-- The messages taken from mailbox `b` are the first ones posted to it, in order, each taken by a
task that was cast to `b`, and those that are still there are the others. -/
def Routed (cast : ι → Option β) (s : Delivery ι β π ρ) (b : β) : Prop :=
  ∃ done rest, s.posted b = done ++ rest ∧
    List.Forall₂ (fun e calls => cast e.task = some b ∧ Got e calls) (s.taken b) done ∧
    List.Forall₂ (fun calls x => x.2 = setBy calls) rest (s.sys.mbx b)

/-- The calls on a message in the making have returned what they should, and after 16 of them a
call is refused and leaves the message as it is. -/
def FullRefuses (s : Delivery ι β π ρ) : Prop :=
  ∀ i k sent, s.sys.hold i = .producing k sent → Returned (s.making i) ∧
    (payloadNumMax ≤ (s.making i).length →
      ∀ p, s.sys.factory.setData k p = (-1, s.sys.factory))

lemma Inv.routed (h : Inv cast s) (b : β) : s.Routed cast b := by
  refine ⟨(s.posted b).take (s.taken b).length, (s.posted b).drop (s.taken b).length,
    (List.take_append_drop _ _).symm, List.forall₂_iff_get.2 ⟨?_, ?_⟩, h.waiting b⟩
  · rw [List.length_take, Nat.min_eq_left (h.le b)]
  · intro n hn hn'
    obtain ⟨hcast, calls, hcalls, hgot⟩ := h.taken b n _ (List.getElem?_eq_getElem hn)
    obtain ⟨hlt, rfl⟩ := List.getElem?_eq_some_iff.1 hcalls
    simp only [List.get_eq_getElem, List.getElem_take]
    exact ⟨hcast, hgot⟩

lemma Inv.fullRefuses (h : Inv cast s) : s.FullRefuses := by
  intro i k sent hi
  obtain ⟨hsent, hret⟩ := h.making i k sent hi
  refine ⟨hret, fun hfull p => ?_⟩
  have hheld : s.sys.factory.HoldOk (.producing k sent) := hi ▸ h.sys.2.held i
  have hnum : (s.sys.factory.msgArray k).payloadNum = payloadNumMax := by
    rw [hheld.2.1, hsent, length_setBy, Nat.min_eq_right hfull]
  rw [MsgFactory.setData, if_pos hnum]

variable [DecidableEq ι] [DecidableEq β]

lemma inv_reach {payload : ℕ → ℕ → MsgPayload π ρ}
    (h : Reach step AnyStep (Delivery.init payload cast) s) : Inv cast s :=
  h.invariant (.init payload cast) fun _ _ _ hi _ hs => hi.step hs

/-- **Delivery.**  In every run of any tasks on any mailboxes, every task goes on to pend on the
mailbox it was cast to, what the consumers of a mailbox get out of their messages is what was set
on the messages posted to it, one after the other, each recycling runs the callbacks that were
set on the message and no others, and the calls of `set_data` after the 16th do nothing. -/
theorem messages_delivered {payload : ℕ → ℕ → MsgPayload π ρ}
    (h : Reach step AnyStep (Delivery.init payload cast) s) :
    s.sys.own = cast ∧ (∀ b, s.Routed cast b) ∧ (∀ b, ∀ calls ∈ s.posted b, Returned calls) ∧
      s.FullRefuses := by
  have hi := inv_reach h
  exact ⟨hi.own, hi.routed, hi.returned, hi.fullRefuses⟩

end Runs

/-- Task `false` calls `set_data` 17 times on a message, and task `true` takes it. -/
def seventeenCalls : List (Bool × MsgCall Unit ℕ ℕ) :=
  (false, .produce ()) ::
    (List.replicate 17 (false, .setData { data := 7, release := some 1 }) ++
      [(false, .post), (true, .pend), (true, .getDataNum), (true, .getData), (true, .recycle)])

/-- The state before and after these calls. -/
def beforeCalls : Delivery Bool Unit ℕ ℕ :=
  init (fun _ _ => { data := 0, release := none }) fun i => if i then some () else none

def afterCalls : Delivery Bool Unit ℕ ℕ := (exec step beforeCalls seventeenCalls).getD beforeCalls

theorem messages_delivered_seventeenCalls :
    (afterCalls.taken ()).map Taken.nums = [[16]] ∧
    afterCalls.sys.own = (fun i => if i then some () else none) ∧
      (∀ b, afterCalls.Routed (fun i => if i then some () else none) b) ∧
      (∀ b, ∀ calls ∈ afterCalls.posted b, Returned calls) ∧ afterCalls.FullRefuses :=
  ⟨by decide +kernel, messages_delivered (show Reach step AnyStep beforeCalls afterCalls from
    reach_any seventeenCalls (exec_getD (by decide +kernel) _))⟩

end Delivery

end RejectProcess
