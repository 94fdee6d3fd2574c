import Mathlib.Data.List.Perm.Subperm
import RejectProcess.Lib.Run
import RejectProcess.Tool.ListHead
import RejectProcess.Tool.Message

/-!
# The message pool

`tool/msg_factory.c` and `tool/mailbox.c` with any number of tasks and mailboxes, whatever calls
the tasks make.  The free list of the factory is first a sequence of slots and then, over it, the
ring of their nodes in memory that `tool/list.c` works on.
-/

namespace RejectProcess

open Lib

/-- The calls by which a task makes and uses a message. -/
inductive MsgCall (β π ρ : Type*)
  | produce (b : β)
  | setData (p : MsgPayload π ρ)
  | post
  | pend
  | getData
  | getDataNum
  | recycle

namespace MsgSys

variable {ι β π ρ : Type*}

/-- `msg_get_data_num` by task `i`. -/
def getDataNum (s : MsgSys ι β π ρ) (i : ι) : Option ℕ :=
  match s.hold i with
  | .consuming m _ => some m.payloadNum
  | _ => none

variable [DecidableEq ι] [DecidableEq β]

/-- A call by a task. -/
def step (s : MsgSys ι β π ρ) (i : ι) : MsgCall β π ρ → Option (MsgSys ι β π ρ)
  | .produce b => s.produce i b
  | .setData p => s.setData i p
  | .post => s.post i
  | .pend => s.pend i
  | .getData => (s.getData i).map fun r => r.2.2
  | .getDataNum => (s.getDataNum i).map fun _ => s
  | .recycle => (s.recycle i).map fun r => r.2

variable {s s' : MsgSys ι β π ρ} {i : ι}

lemma Inv.step (h : s.Inv) {c : MsgCall β π ρ} (hs : s.step i c = some s') : s'.Inv := by
  cases c with
  | produce b => exact h.produce hs
  | setData p => exact h.setData hs
  | post => exact h.post hs
  | pend => exact h.pend hs
  | getData =>
    obtain ⟨⟨p, q, y⟩, hy, rfl⟩ := Option.map_eq_some_iff.1 hs
    exact h.getData hy
  | getDataNum =>
    obtain ⟨n, -, rfl⟩ := Option.map_eq_some_iff.1 hs
    exact h
  | recycle =>
    obtain ⟨⟨calls, y⟩, hy, rfl⟩ := Option.map_eq_some_iff.1 hs
    exact h.recycle hy

end MsgSys

/-! ## Room in the mailboxes -/

namespace Placed

variable {ι β π ρ : Type*} {s : MsgSys ι β π ρ} {place : ℕ → Option (Place ι β)}

lemma lt_of_at (h : Placed s place) {q : Place ι β} {k : ℕ} (hk : s.At q k) : k < msgNumMax :=
  (h.all k).1 (by rw [(h.at_iff q k).1 hk]; rfl)

/-- Different slots are no more than the factory has. -/
lemma length_le (h : Placed s place) {l : List ℕ} (hl : l.Nodup) (hp : ∀ k ∈ l, ∃ q, s.At q k) :
    l.length ≤ msgNumMax := by
  have hsub : l ⊆ List.range msgNumMax := by
    intro k hk
    obtain ⟨q, hq⟩ := hp k hk
    exact List.mem_range.2 (h.lt_of_at hq)
  have hlen := (hl.subperm hsub).length_le
  rwa [List.length_range] at hlen

lemma length_mbx_le (h : Placed s place) (b : β) : (s.mbx b).length ≤ msgNumMax := by
  have hlen := h.length_le (h.box_nodup b) fun k hk => ⟨.box b, hk⟩
  rwa [MsgSys.nodes, List.length_map] at hlen

/-- While a task has a slot in hand, every mailbox has room. -/
lemma length_mbx_lt (h : Placed s place) {i : ι} {k : ℕ} (hk : s.At (.hand i) k) (b : β) :
    (s.mbx b).length < msgNumMax := by
  have hnot : k ∉ s.nodes b := fun hc => by
    have := h.place_unique (show s.At (.box b) k from hc) hk
    simp at this
  have hlen := h.length_le (List.nodup_cons.2 ⟨hnot, h.box_nodup b⟩) fun k' hk' => by
    rcases List.mem_cons.1 hk' with rfl | hk'
    · exact ⟨_, hk⟩
    · exact ⟨.box b, hk'⟩
  rwa [MsgSys.nodes, List.length_cons, List.length_map] at hlen

end Placed

/-! ## The free list in memory -/

/-- A pointer of the message factory. -/
inductive MsgPtr
  | null
  /-- `&g_msg_factory->list`. -/
  | head
  /-- `msg_array[k].node`. -/
  | node (k : ℕ)
  /-- `&msg_array[k]`. -/
  | msg (k : ℕ)
deriving DecidableEq, Repr

/-- `create_msg_factory` on slot `i`. -/
def addSlot (m : ListMem MsgPtr) (i : ℕ) : ListMem MsgPtr :=
  let m := m.store ⟨.owner, .node i, .msg i⟩
  m.flush (m.listAddTail (.node i) .head)

/-- The list that `create_msg_factory` builds. -/
def createList (m : ListMem MsgPtr) : ListMem MsgPtr :=
  (List.range msgNumMax).foldl addSlot (m.flush (initListHead .head))

/-- The messages with the free list in memory.  The sequence `sys.factory.list` is history here:
the slots that own the nodes of the list.  No step reads it. -/
structure MsgPool (ι β π ρ : Type*) where
  mem : ListMem MsgPtr
  sys : MsgSys ι β π ρ

namespace MsgPool

variable {ι β π ρ : Type*}

/-- The state after start-up, with any content of the memory before. -/
def init (mem : ListMem MsgPtr) (payload : ℕ → ℕ → MsgPayload π ρ) (cast : ι → Option β) :
    MsgPool ι β π ρ where
  mem := createList mem
  sys := .init payload cast

variable [DecidableEq ι] (s : MsgPool ι β π ρ)

/-- Task `i` takes the first node of the list, which slot `k` owns. -/
def produced (i : ι) (b : β) (k : ℕ) : MsgPool ι β π ρ where
  mem := s.mem.flush (s.mem.listDel .null (s.mem.next .head))
  sys := s.sys.produced i k (s.sys.factory.took k (s.sys.factory.list.erase k) b)

/-- `msg_factory_produce(b)` by task `i`.  `none` on an empty list is `ERROR`. -/
def produce (i : ι) (b : β) : Option (MsgPool ι β π ρ) :=
  match s.sys.hold i with
  | .none =>
    if s.mem.next .head = .head then none
    else
      match s.mem.owner (s.mem.next .head) with
      | .msg k => some (s.produced i b k)
      | _ => none
  | _ => none

/-- Task `i` clears the slot `k` that owns the node of its copy `m`, and links the node. -/
def recycled (i : ι) (m : Message β) (k : ℕ) : MsgPool ι β π ρ where
  mem := s.mem.flush (s.mem.listAddTail (.node m.node) .head)
  sys := s.sys.recycled i { m with node := k }

/-- `msg_factory_recycle` by task `i`. -/
def recycle (i : ι) : Option (MsgPool ι β π ρ) :=
  match s.sys.hold i with
  | .consuming m _ =>
    match s.mem.owner (.node m.node) with
    | .msg k => some (s.recycled i m k)
    | _ => none
  | _ => none

/-- A call by a task. -/
def step [DecidableEq β] (s : MsgPool ι β π ρ) (a : ι × MsgCall β π ρ) :
    Option (MsgPool ι β π ρ) :=
  match a.2 with
  | .produce b => s.produce a.1 b
  | .recycle => s.recycle a.1
  | c => (s.sys.step a.1 c).map fun y => { s with sys := y }

/-- The memory holds the ring of the nodes of the free slots, and every node knows its slot. -/
structure Linked (s : MsgPool ι β π ρ) : Prop where
  ring : s.mem.Represents .head (s.sys.factory.list.map .node)
  owner : ∀ k < msgNumMax, s.mem.owner (.node k) = .msg k

/-! ### The list that is built -/

/-- One more slot is linked behind the first `n`. -/
lemma addSlot_represents {m : ListMem MsgPtr} {n : ℕ}
    (h : m.Represents .head ((List.range n).map .node)) :
    (addSlot m n).Represents .head ((List.range (n + 1)).map .node) := by
  have hnew : MsgPtr.node n ∉ MsgPtr.head :: (List.range n).map .node := by
    simp
  have h' : (m.store ⟨.owner, .node n, .msg n⟩).Represents .head ((List.range n).map .node) :=
    h.congr fun _ _ => ⟨rfl, rfl⟩
  have hadd := h'.addTail hnew
  rw [List.range_succ, List.map_append]
  exact hadd

lemma owner_addSlot (m : ListMem MsgPtr) (n k : ℕ) :
    (addSlot m n).owner (.node k) = if k = n then .msg n else m.owner (.node k) := by
  show Function.update m.owner (.node n) (.msg n) (.node k) = _
  rw [Function.update_apply]
  simp

/-- After `n` turns of the loop of `create_msg_factory`. -/
lemma foldl_addSlot (m : ListMem MsgPtr) (n : ℕ) :
    ((List.range n).foldl addSlot (m.flush (initListHead .head))).Represents .head
        ((List.range n).map .node) ∧
      ∀ k < n, ((List.range n).foldl addSlot (m.flush (initListHead .head))).owner (.node k)
        = .msg k := by
  induction n with
  | zero => exact ⟨ListMem.Represents.init MsgPtr.head, fun k hk => absurd hk (Nat.not_lt_zero k)⟩
  | succ n ih =>
    rw [List.range_succ, List.foldl_append]
    obtain ⟨hring, howner⟩ := ih
    refine ⟨?_, fun k hk => ?_⟩
    · rw [← List.range_succ]
      exact addSlot_represents hring
    · show (addSlot _ n).owner (.node k) = .msg k
      rw [owner_addSlot]
      split
      case isTrue he => rw [he]
      case isFalse hne => exact howner k (by omega)

variable {s}

omit [DecidableEq ι] in
lemma Linked.init (mem : ListMem MsgPtr) (payload : ℕ → ℕ → MsgPayload π ρ)
    (cast : ι → Option β) : Linked (MsgPool.init mem payload cast) where
  ring := (foldl_addSlot mem msgNumMax).1
  owner := (foldl_addSlot mem msgNumMax).2

/-! ### The steps -/

variable {i : ι} {s' : MsgPool ι β π ρ}

omit [DecidableEq ι] in
/-- The list is found empty exactly when no slot is free, and its first node is owned by the
first free slot. -/
lemma Linked.next_head (h : s.Linked) (hinv : s.sys.Inv) :
    (s.sys.factory.list = [] ∧ s.mem.next .head = .head) ∨
      ∃ k rest, s.sys.factory.list = k :: rest ∧ s.mem.next .head = .node k ∧
        s.mem.owner (.node k) = .msg k := by
  have hring := Ring.next_head h.ring
  obtain ⟨⟨place, hp⟩, -⟩ := hinv
  cases hl : s.sys.factory.list with
  | nil =>
    rw [hl] at hring
    exact .inl ⟨rfl, hring⟩
  | cons k rest =>
    rw [hl] at hring
    have hk : s.sys.At .factory k := by
      show k ∈ s.sys.factory.list
      simp [hl]
    exact .inr ⟨k, rest, rfl, hring, h.owner k (hp.lt_of_at hk)⟩

/-- The calls do on the sequence of free slots what they do on the ring of their nodes. -/
lemma Linked.map_produce (h : s.Linked) (hinv : s.sys.Inv) (b : β) :
    (s.produce i b).map MsgPool.sys = s.sys.produce i b := by
  unfold produce MsgSys.produce MsgFactory.produce
  cases hh : s.sys.hold i with
  | none =>
    rcases h.next_head hinv with ⟨hl, hn⟩ | ⟨k, rest, hl, hn, ho⟩
    · simp [hl, hn]
    · simp [hl, hn, ho, produced]
  | producing k sent => rfl
  | consuming m sent => rfl

lemma Linked.map_recycle (h : s.Linked) (hinv : s.sys.Inv) :
    (s.recycle i).map MsgPool.sys = (s.sys.recycle i).map fun r => r.2 := by
  unfold recycle MsgSys.recycle
  cases hh : s.sys.hold i with
  | consuming m sent =>
    obtain ⟨⟨place, hp⟩, -⟩ := hinv
    have hk : s.sys.At (.hand i) m.node := by
      show (s.sys.hold i).node = some m.node
      rw [hh]
      rfl
    simp [h.owner m.node (hp.lt_of_at hk), recycled]
  | none => rfl
  | producing k sent => rfl

variable [DecidableEq β]

/-- A step on the ring is the step on the sequence. -/
lemma Linked.map_step (h : s.Linked) (hinv : s.sys.Inv) (c : MsgCall β π ρ) :
    (s.step (i, c)).map MsgPool.sys = s.sys.step i c := by
  cases c with
  | produce b => exact h.map_produce hinv b
  | recycle => exact h.map_recycle hinv
  | setData p => simp [step, Function.comp_def]
  | post => simp [step, Function.comp_def]
  | pend => simp [step, Function.comp_def]
  | getData => simp [step, Function.comp_def]
  | getDataNum => simp [step, Function.comp_def]

omit [DecidableEq β] in
lemma Linked.produce (h : s.Linked) (hinv : s.sys.Inv) {b : β} (hs : s.produce i b = some s') :
    s'.Linked := by
  have hsys : s.sys.produce i b = some s'.sys := by
    rw [← h.map_produce hinv b, hs]
    rfl
  obtain ⟨-, k, rest, hl, hs'⟩ := MsgSys.produce_eq_some.1 hsys
  have hlist : s'.sys.factory.list = rest := by
    rw [hs']
    rfl
  have hmem : s'.mem = s.mem.flush (s.mem.listDel .null (.node k)) := by
    rcases h.next_head hinv with ⟨hl', -⟩ | ⟨k', rest', hl', hn, ho⟩
    · rw [hl] at hl'
      cases hl'
    · obtain rfl : k = k' := by
        rw [hl] at hl'
        exact (List.cons.inj hl').1
      obtain rfl : s.produced i b k = s' := by
        have hhold := (MsgSys.produce_eq_some.1 hsys).1
        simpa [MsgPool.produce, hhold, hn, ho] using hs
      rw [produced, hn]
  have hring := h.ring
  rw [hl] at hring
  have hdel := @ListMem.Represents.del _ _ _ _ _ [] _ hring .null
  refine ⟨?_, ?_⟩
  · rw [hlist, hmem]
    exact hdel
  · rw [hmem, ListMem.owner_flush_listDel]
    exact h.owner

omit [DecidableEq β] in
lemma Linked.recycle (h : s.Linked) (hinv : s.sys.Inv) (hs : s.recycle i = some s') :
    s'.Linked := by
  unfold MsgPool.recycle at hs
  cases hh : s.sys.hold i with
  | none => simp [hh] at hs
  | producing k sent => simp [hh] at hs
  | consuming m sent =>
    have hnode : (s.sys.hold i).node = some m.node := by
      rw [hh]
      rfl
    obtain ⟨⟨place, hp⟩, -⟩ := id hinv
    have hlt := hp.lt_of_at (show s.sys.At (.hand i) m.node from hnode)
    obtain rfl : s.recycled i m m.node = s' := by
      simpa [hh, h.owner m.node hlt] using hs
    have hnew : MsgPtr.node m.node ∉ MsgPtr.head :: s.sys.factory.list.map .node := by
      have hfree := hinv.hand_not_free hnode
      simpa using hfree
    have hadd := h.ring.addTail hnew
    refine ⟨?_, ?_⟩
    · show (s.mem.flush _).Represents .head ((s.sys.factory.list ++ [m.node]).map .node)
      rw [List.map_append]
      exact hadd
    · show ∀ k < msgNumMax, (s.mem.flush _).owner (.node k) = .msg k
      rw [ListMem.owner_flush_listAddTail]
      exact h.owner

/-- The other calls leave the list alone. -/
lemma list_step {y y' : MsgSys ι β π ρ} {c : MsgCall β π ρ} (hs : y.step i c = some y')
    (hp : ∀ b, c ≠ .produce b) (hr : c ≠ .recycle) : y'.factory.list = y.factory.list := by
  cases c with
  | produce b => exact absurd rfl (hp b)
  | recycle => exact absurd rfl hr
  | setData p =>
    obtain ⟨k, sent, -, rfl⟩ := MsgSys.setData_eq_some.1 hs
    unfold MsgSys.dataSet MsgFactory.setData
    split <;> rfl
  | post =>
    obtain ⟨k, sent, b, -, -, rfl⟩ := MsgSys.post_eq_some.1 hs
    rfl
  | pend =>
    obtain ⟨-, b, x, rest, -, -, rfl⟩ := MsgSys.pend_eq_some.1 hs
    rfl
  | getData =>
    obtain ⟨⟨p, q, z⟩, hz, rfl⟩ := Option.map_eq_some_iff.1 hs
    obtain ⟨m, sent, -, -, -, rfl⟩ := MsgSys.getData_eq_some.1 hz
    rfl
  | getDataNum =>
    obtain ⟨n, -, rfl⟩ := Option.map_eq_some_iff.1 hs
    rfl

lemma Linked.step (h : s.Linked) (hinv : s.sys.Inv) {a : ι × MsgCall β π ρ}
    (hs : s.step a = some s') : s'.Linked := by
  obtain ⟨i, c⟩ := a
  have hother : (∀ b, c ≠ .produce b) → c ≠ .recycle → ∀ y, s.sys.step i c = some y →
      Linked ⟨s.mem, y⟩ := by
    intro hp hr y hy
    refine ⟨?_, h.owner⟩
    rw [show y.factory.list = s.sys.factory.list from list_step hy hp hr]
    exact h.ring
  cases c with
  | produce b => exact h.produce hinv hs
  | recycle => exact h.recycle hinv hs
  | setData p =>
    obtain ⟨y, hy, rfl⟩ := Option.map_eq_some_iff.1 hs
    exact hother (by simp) (by simp) y hy
  | post =>
    obtain ⟨y, hy, rfl⟩ := Option.map_eq_some_iff.1 hs
    exact hother (by simp) (by simp) y hy
  | pend =>
    obtain ⟨y, hy, rfl⟩ := Option.map_eq_some_iff.1 hs
    exact hother (by simp) (by simp) y hy
  | getData =>
    obtain ⟨y, hy, rfl⟩ := Option.map_eq_some_iff.1 hs
    exact hother (by simp) (by simp) y hy
  | getDataNum =>
    obtain ⟨y, hy, rfl⟩ := Option.map_eq_some_iff.1 hs
    exact hother (by simp) (by simp) y hy

/-! ### Runs -/

lemma linked_reach {mem : ListMem MsgPtr} {payload : ℕ → ℕ → MsgPayload π ρ} {cast : ι → Option β}
    (h : Reach step AnyStep (MsgPool.init mem payload cast) s) : s.Linked ∧ s.sys.Inv := by
  refine h.invariant (I := fun s => s.Linked ∧ s.sys.Inv)
    ⟨.init mem payload cast, .init payload cast⟩ ?_
  rintro s ⟨i, c⟩ s' ⟨hl, hinv⟩ - hs
  refine ⟨hl.step hinv hs, hinv.step (i := i) (c := c) ?_⟩
  rw [← hl.map_step hinv c, hs]
  rfl

/-- Every slot of the factory is in one place: in the free list, which is in memory, in a hand,
or in a mailbox. -/
def Partitioned (s : MsgPool ι β π ρ) : Prop :=
  s.mem.Represents .head (s.sys.factory.list.map .node) ∧ ∃ place, Placed s.sys place

/-- The free messages are cleared. -/
def FreeCleared (s : MsgPool ι β π ρ) : Prop :=
  ∀ k ∈ s.sys.factory.list,
    (s.sys.factory.msgArray k).payloadNum = 0 ∧ (s.sys.factory.msgArray k).curPayloadIdx = 0

/-- `mailbox_post` by task `i` would wait: the mailbox of its message is full. -/
def PostWaits (s : MsgPool ι β π ρ) (i : ι) : Prop :=
  ∃ k sent b, s.sys.hold i = .producing k sent ∧ (s.sys.factory.msgArray k).id = some b ∧
    msgNumMax ≤ (s.sys.mbx b).length

/-- **The message pool.**  In every run of any tasks on any mailboxes the 128 messages are
partitioned among the free list, the tasks and the mailboxes, the free ones are cleared, no
mailbox holds more than 128, and no post ever waits. -/
theorem pool_partitioned {mem : ListMem MsgPtr} {payload : ℕ → ℕ → MsgPayload π ρ}
    {cast : ι → Option β} (h : Reach step AnyStep (MsgPool.init mem payload cast) s) :
    s.Partitioned ∧ s.FreeCleared ∧ (∀ b, (s.sys.mbx b).length ≤ msgNumMax) ∧
      ∀ i, ¬ s.PostWaits i := by
  obtain ⟨hl, hinv⟩ := linked_reach h
  obtain ⟨⟨place, hp⟩, hf⟩ := id hinv
  refine ⟨⟨hl.ring, place, hp⟩, hf.free, hp.length_mbx_le, ?_⟩
  rintro i ⟨k, sent, b, hi, -, hfull⟩
  have hk : s.sys.At (.hand i) k := by
    show (s.sys.hold i).node = some k
    rw [hi]
    rfl
  exact absurd (hp.length_mbx_lt hk b) (Nat.not_lt.2 hfull)

/-- Task `false` posts a message, and task `true` takes and recycles it. -/
def onePost : List (Bool × MsgCall Unit ℕ Empty) :=
  [(false, .produce ()), (false, .setData { data := 7, release := none }), (false, .post),
    (true, .pend), (true, .getData), (true, .recycle)]

/-- The state before, and the one after the first `n` calls. -/
def beforePost : MsgPool Bool Unit ℕ Empty :=
  init { next := fun _ => .null, prev := fun _ => .null, owner := fun _ => .null }
    (fun _ _ => { data := 0, release := none }) fun i => if i then some () else none

def afterPost (n : ℕ) : MsgPool Bool Unit ℕ Empty :=
  (exec step beforePost (onePost.take n)).getD beforePost

/-- The message is in the mailbox after three calls. -/
theorem pool_partitioned_onePost : ((afterPost 3).sys.mbx ()).length = 1 ∧
    (afterPost 3).Partitioned ∧ (afterPost 3).FreeCleared ∧
      (∀ b, ((afterPost 3).sys.mbx b).length ≤ msgNumMax) ∧ ∀ i, ¬ (afterPost 3).PostWaits i :=
  ⟨by decide +kernel, pool_partitioned (show Reach step AnyStep beforePost (afterPost 3) from
    reach_any (onePost.take 3) (exec_getD (by decide +kernel) _))⟩

end MsgPool

end RejectProcess
