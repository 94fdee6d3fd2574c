import RejectProcess.Lib.Alloc
import RejectProcess.Tool.ListHead
import RejectProcess.Tool.Message

/-!
# How the factories are built

`create_buf_factory` and `create_msg_factory` with every request to the allocator and every call
of `free`.  Both build an array of slots, each with a node and one more block, and link the nodes.
They differ in what they free when a request fails.
-/

namespace RejectProcess.Factory

open Lib

/-- A pointer.  A block is named by the number of the request that it answers. -/
inductive Ptr
  | null
  /-- Element `i` of the array in block `b`, which is `b` itself for `i = 0`. -/
  | elem (b i : ℕ)
  /-- The member `list` of the factory in block `b`. -/
  | list (b : ℕ)
  /-- `&g_msg_ops`. -/
  | msgOps
deriving DecidableEq, Repr

namespace Ptr

/-- `&p[i]`. -/
def index : Ptr → ℕ → Ptr
  | elem b k, i => elem b (k + i)
  | p, _ => p

/-- `&p->list`. -/
def listOf : Ptr → Ptr
  | elem b _ => list b
  | p => p

end Ptr

/-- The fields that are read and written: `array` is `buf_array` or `msg_array`, and `data` is
`memory` of a `struct Buffer` or `payload` of a `struct message`. -/
structure Mem where
  list : ListMem Ptr
  array : Ptr → Ptr
  data : Ptr → Ptr
  node : Ptr → Ptr
  ops : Ptr → Ptr

/-- The memory with the calls of the allocator so far.  A request that fails leaves no event. -/
structure Heap extends Mem where
  requests : ℕ
  trace : List (AllocEvent Ptr)

namespace Heap

/-- A block is given out. -/
def granted (h : Heap) : Heap :=
  { h with
    requests := h.requests + 1
    trace := h.trace ++ [.alloc (.elem h.requests 0)] }

/-- No block is given out. -/
def refused (h : Heap) : Heap := { h with requests := h.requests + 1 }

/-- `malloc` or `calloc`.  Which requests are granted is up to `grant`, and what is in the block
is not read before it is written. -/
def request (grant : ℕ → Bool) (h : Heap) : Ptr × Heap :=
  if grant h.requests then (.elem h.requests 0, h.granted) else (.null, h.refused)

/-- `free`, which does nothing on the null pointer. -/
def free (p : Ptr) (h : Heap) : Heap :=
  if p = .null then h else { h with trace := h.trace ++ [.free p] }

/-- `&factory->array[i]`. -/
def slot (h : Heap) (factory : Ptr) (i : ℕ) : Ptr := (h.array factory).index i

/-- `array[i].data = p`. -/
def setData (factory : Ptr) (i : ℕ) (p : Ptr) (h : Heap) : Heap :=
  { h with data := Function.update h.data (h.slot factory i) p }

/-- `array[i].node = p`. -/
def setNode (factory : Ptr) (i : ℕ) (p : Ptr) (h : Heap) : Heap :=
  { h with node := Function.update h.node (h.slot factory i) p }

/-- `array[i].node->owner = &array[i]`. -/
def setOwner (factory : Ptr) (i : ℕ) (h : Heap) : Heap :=
  { h with list := h.list.store ⟨.owner, h.node (h.slot factory i), h.slot factory i⟩ }

/-- `array[i].ops = p`, where the slots have this field. -/
def setOps (factory : Ptr) (i : ℕ) (p : Option Ptr) (h : Heap) : Heap :=
  match p with
  | some p => { h with ops := Function.update h.ops (h.slot factory i) p }
  | none => h

/-- `list_add_tail(array[i].node, &factory->list)`. -/
def addTail (factory : Ptr) (i : ℕ) (h : Heap) : Heap :=
  { h with
    list := h.list.flush (h.list.listAddTail (h.node (h.slot factory i)) factory.listOf) }

/-- `for (j = n - 1; j >= 0; j--)`. -/
def countDown (n : ℕ) (body : ℕ → Heap → Heap) (h : Heap) : Heap :=
  (List.range n).reverse.foldl (fun h j => body j h) h

/-- `for (p = 0; p < n; p++)`. -/
def countUp (n : ℕ) (body : ℕ → Heap → Heap) (h : Heap) : Heap :=
  (List.range n).foldl (fun h p => body p h) h

end Heap

/-- How a call ends. -/
inductive Outcome
  | done (factory : Ptr) (h : Heap)
  /-- `ERROR(msg)`, which ends the process. -/
  | error (msg : String) (h : Heap)
  /-- `i++` goes beyond the range of an `int`. -/
  | undefined

/-- Where the two functions differ. -/
structure Kind where
  /-- The message when there is no block for the `data` of a slot. -/
  dataError : String
  /-- The loops that free blocks of slots when there is no block for the `data` of slot `i`. -/
  undoData (factory : Ptr) (i : ℕ) (h : Heap) : Heap
  /-- The same when there is none for the `node` of slot `i`. -/
  undoNode (factory : Ptr) (i : ℕ) (h : Heap) : Heap
  /-- What is stored in the `ops` of a slot. -/
  ops : Option Ptr

/-- `free(array); free(factory);`. -/
def giveUp (factory : Ptr) (h : Heap) : Heap := (h.free (h.array factory)).free factory

/-- One turn of the loop over the slots. -/
def createSlot (c : Kind) (grant : ℕ → Bool) (factory : Ptr) (i : ℕ) (h : Heap) :
    Except (String × Heap) Heap :=
  let r := h.request grant
  let h := r.2.setData factory i r.1
  if r.1 = .null then .error (c.dataError, giveUp factory (c.undoData factory i h))
  else
    let r := h.request grant
    let h := r.2.setNode factory i r.1
    if r.1 = .null then .error ("malloc", giveUp factory (c.undoNode factory i h))
    else .ok (((h.setOwner factory i).setOps factory i c.ops).addTail factory i)

/-- The loop from slot `i` on, with `rest` more slots.  The index is an `int`. -/
def createSlots (c : Kind) (grant : ℕ → Bool) (factory : Ptr) : ℕ → ℕ → Heap → Outcome
  | 0, _, h => .done factory h
  | rest + 1, i, h =>
    match createSlot c grant factory i h with
    | .error e => .error e.1 e.2
    | .ok h => if i + 1 = 2 ^ 31 then .undefined else createSlots c grant factory rest (i + 1) h

/-- The heap when a call begins, which counts its own requests. -/
def Heap.start (mem : Mem) : Heap := { mem with requests := 0, trace := [] }

/-- The function that builds a factory with `num` slots. -/
def createFactory (c : Kind) (grant : ℕ → Bool) (num : ℕ) (mem : Mem) : Outcome :=
  let r := (Heap.start mem).request grant
  let factory := r.1
  if factory = .null then .error "malloc" r.2
  else
    let h : Heap := { r.2 with list := r.2.list.flush (initListHead factory.listOf) }
    let r := h.request grant
    let h : Heap := { r.2 with array := Function.update r.2.array factory r.1 }
    if r.1 = .null then .error "calloc" (h.free factory)
    else createSlots c grant factory num 0 h

/-- The part of `create_buf_factory` that `create_msg_factory` has otherwise.  All its loops go
over `j` and free the block of slot `i`. -/
def bufKind : Kind where
  dataError := "malloc"
  undoData factory i := Heap.countDown i fun _ h => h.free (h.data (h.slot factory i))
  undoNode factory i h :=
    let h := h.countDown i fun _ h => h.free (h.node (h.slot factory i))
    h.countDown (i + 1) fun _ h => h.free (h.data (h.slot factory i))
  ops := none

/-- `create_buf_factory`.  Its `size` goes into the requests for `memory` only. -/
def createBufFactory (grant : ℕ → Bool) (num : UInt32) (mem : Mem) : Outcome :=
  createFactory bufKind grant num.toNat mem

/-- The part of `create_msg_factory` that `create_buf_factory` has otherwise.  Its loops go over
`j` and free the blocks of slot `j`, but one goes over the payloads and frees the block of slot
`i`, which has all of them. -/
def msgKind : Kind where
  dataError := "calloc"
  undoData factory i := Heap.countDown i fun j h => h.free (h.data (h.slot factory j))
  undoNode factory i h :=
    let h := h.countDown i fun j h => h.free (h.node (h.slot factory j))
    h.countUp payloadNumMax fun _ h => h.free (h.data (h.slot factory i))
  ops := some .msgOps

/-- `create_msg_factory`. -/
def createMsgFactory (grant : ℕ → Bool) (mem : Mem) : Outcome :=
  createFactory msgKind grant msgNumMax mem

/-! ## What the loop has built -/

/-- The blocks that answer the first `b` requests. -/
def blocks (b : ℕ) : List Ptr := (List.range b).map fun k => .elem k 0

lemma blocks_succ (b : ℕ) : blocks (b + 1) = blocks b ++ [.elem b 0] := by
  rw [blocks, List.range_succ, List.map_append]
  rfl

/-- The factory with its array, `d` slots with `data`, and `n` slots with nodes that are linked.
The first `b` requests were granted, and nothing was freed. -/
structure Built (b d n : ℕ) (h : Heap) : Prop where
  trace : h.trace = (blocks b).map .alloc
  array : h.array (.elem 0 0) = .elem 1 0
  data : ∀ j < d, h.data (.elem 1 j) = .elem (2 + 2 * j) 0
  node : ∀ j < n, h.node (.elem 1 j) = .elem (3 + 2 * j) 0
  ring : h.list.Represents (.list 0) ((List.range n).map fun j => .elem (3 + 2 * j) 0)
  owner : ∀ j < n, h.list.owner (.elem (3 + 2 * j) 0) = .elem 1 j

namespace Built

variable {b d n : ℕ} {h : Heap} {p : Ptr}

lemma slot_eq (hb : Built b d n h) (j : ℕ) : h.slot (.elem 0 0) j = .elem 1 j := by
  simp [Heap.slot, hb.array, Ptr.index]

lemma refused (hb : Built b d n h) : Built b d n h.refused :=
  ⟨hb.trace, hb.array, hb.data, hb.node, hb.ring, hb.owner⟩

lemma granted (hb : Built b d n h) (hr : h.requests = b) : Built (b + 1) d n h.granted where
  trace := by
    rw [blocks_succ, List.map_append, ← hb.trace, ← hr]
    rfl
  array := hb.array
  data := hb.data
  node := hb.node
  ring := hb.ring
  owner := hb.owner

lemma data_setData (hb : Built b d n h) (i j : ℕ) :
    (h.setData (.elem 0 0) i p).data (.elem 1 j) = if j = i then p else h.data (.elem 1 j) := by
  show Function.update h.data (h.slot (.elem 0 0) i) p (.elem 1 j) = _
  rw [hb.slot_eq, Function.update_apply]
  simp

lemma node_setNode (hb : Built b d n h) (i j : ℕ) :
    (h.setNode (.elem 0 0) i p).node (.elem 1 j) = if j = i then p else h.node (.elem 1 j) := by
  show Function.update h.node (h.slot (.elem 0 0) i) p (.elem 1 j) = _
  rw [hb.slot_eq, Function.update_apply]
  simp

/-- A store to the `data` of the next slot. -/
lemma setData (hb : Built b d n h) (p : Ptr) : Built b d n (h.setData (.elem 0 0) d p) where
  trace := hb.trace
  array := hb.array
  data := by
    intro j hj
    rw [hb.data_setData, if_neg (by omega)]
    exact hb.data j hj
  node := hb.node
  ring := hb.ring
  owner := hb.owner

/-- A store to the `node` of the next slot. -/
lemma setNode (hb : Built b d n h) (p : Ptr) : Built b d n (h.setNode (.elem 0 0) n p) where
  trace := hb.trace
  array := hb.array
  data := hb.data
  node := by
    intro j hj
    rw [hb.node_setNode, if_neg (by omega)]
    exact hb.node j hj
  ring := hb.ring
  owner := hb.owner

/-- The next slot has its `data`. -/
lemma succ_data (hb : Built b d n h) (hd : h.data (.elem 1 d) = .elem (2 + 2 * d) 0) :
    Built b (d + 1) n h where
  trace := hb.trace
  array := hb.array
  data := by
    intro j hj
    rcases Nat.lt_succ_iff_lt_or_eq.1 hj with hlt | rfl
    · exact hb.data j hlt
    · exact hd
  node := hb.node
  ring := hb.ring
  owner := hb.owner

lemma setOps (hb : Built b d n h) (f : Ptr) (i : ℕ) (q : Option Ptr) :
    Built b d n (h.setOps f i q) := by
  cases q with
  | none => exact hb
  | some q => exact ⟨hb.trace, hb.array, hb.data, hb.node, hb.ring, hb.owner⟩

lemma owner_setOwner (hb : Built b d n h) (hn : h.node (.elem 1 n) = .elem (3 + 2 * n) 0) :
    (h.setOwner (.elem 0 0) n).list.owner =
      Function.update h.list.owner (.elem (3 + 2 * n) 0) (.elem 1 n) := by
  rw [← hn, ← hb.slot_eq]
  rfl

/-- The node of the next slot is told its owner. -/
lemma setOwner (hb : Built b d n h) (hn : h.node (.elem 1 n) = .elem (3 + 2 * n) 0) :
    Built b d n (h.setOwner (.elem 0 0) n) where
  trace := hb.trace
  array := hb.array
  data := hb.data
  node := hb.node
  ring := ListMem.Represents.congr hb.ring fun _ _ => ⟨rfl, rfl⟩
  owner := by
    intro j hj
    rw [hb.owner_setOwner hn, Function.update_of_ne (by simp; omega)]
    exact hb.owner j hj

lemma list_addTail (hb : Built b d n h) (hn : h.node (.elem 1 n) = .elem (3 + 2 * n) 0) :
    (h.addTail (.elem 0 0) n).list =
      h.list.flush (h.list.listAddTail (.elem (3 + 2 * n) 0) (.list 0)) := by
  rw [← hn, ← hb.slot_eq]
  rfl

/-- The node of the next slot is linked. -/
lemma addTail (hb : Built b d n h) (hn : h.node (.elem 1 n) = .elem (3 + 2 * n) 0)
    (ho : h.list.owner (.elem (3 + 2 * n) 0) = .elem 1 n) :
    Built b d (n + 1) (h.addTail (.elem 0 0) n) where
  trace := hb.trace
  array := hb.array
  data := hb.data
  node := by
    intro j hj
    rcases Nat.lt_succ_iff_lt_or_eq.1 hj with hlt | rfl
    · exact hb.node j hlt
    · exact hn
  ring := by
    have hnew : Ptr.elem (3 + 2 * n) 0 ∉
        Ptr.list 0 :: (List.range n).map fun j => .elem (3 + 2 * j) 0 := by
      simp only [List.mem_cons, List.mem_map, List.mem_range, reduceCtorEq, Ptr.elem.injEq,
        false_or, not_exists]
      omega
    rw [List.range_succ, List.map_append, hb.list_addTail hn]
    exact hb.ring.addTail hnew
  owner := by
    intro j hj
    rcases Nat.lt_succ_iff_lt_or_eq.1 hj with hlt | rfl
    · exact hb.owner j hlt
    · exact ho

end Built

/-! ## The turns of the loop -/

section Turn

variable {c : Kind} {grant : ℕ → Bool} {i : ℕ} {h : Heap}

lemma request_granted (hg : grant h.requests = true) :
    h.request grant = (.elem h.requests 0, h.granted) := if_pos hg

lemma request_refused (hg : grant h.requests = false) :
    h.request grant = (.null, h.refused) := if_neg (by simp [hg])

/-- At the head of the loop: all requests were granted. -/
structure AtSlot (i : ℕ) (h : Heap) : Prop extends Built (2 + 2 * i) i i h where
  requests : h.requests = 2 + 2 * i

/-- There is no block for the `data` of the slot. -/
lemma createSlot_noData (ha : AtSlot i h) (hg : grant (2 + 2 * i) = false) :
    ∃ h', Built (2 + 2 * i) i i h' ∧ h'.data (.elem 1 i) = .null ∧
      createSlot c grant (.elem 0 0) i h =
        .error (c.dataError, giveUp (.elem 0 0) (c.undoData (.elem 0 0) i h')) := by
  have hreq : h.request grant = (.null, h.refused) := request_refused (by rwa [ha.requests])
  refine ⟨h.refused.setData (.elem 0 0) i .null, ha.refused.setData .null, ?_, ?_⟩
  · simp [ha.refused.data_setData]
  · simp [createSlot, hreq]

/-- The heap once there is a block for the `data` of the slot. -/
def withData (i : ℕ) (h : Heap) : Heap :=
  h.granted.setData (.elem 0 0) i (.elem (2 + 2 * i) 0)

lemma AtSlot.withData (ha : AtSlot i h) : Built (3 + 2 * i) (i + 1) i (withData i h) := by
  have hb : Built (3 + 2 * i) i i h.granted := by
    rw [show 3 + 2 * i = 2 + 2 * i + 1 by omega]
    exact ha.granted ha.requests
  refine (hb.setData _).succ_data ?_
  rw [hb.data_setData, if_pos rfl]

lemma AtSlot.requests_withData (ha : AtSlot i h) : (Factory.withData i h).requests = 3 + 2 * i := by
  show h.requests + 1 = 3 + 2 * i
  rw [ha.requests]
  omega

/-- A turn that gets as far as the `node` of the slot. -/
lemma createSlot_withData (ha : AtSlot i h) (hg : grant (2 + 2 * i) = true) :
    createSlot c grant (.elem 0 0) i h =
      let r := (withData i h).request grant
      let h := r.2.setNode (.elem 0 0) i r.1
      if r.1 = .null then .error ("malloc", giveUp (.elem 0 0) (c.undoNode (.elem 0 0) i h))
      else .ok (((h.setOwner (.elem 0 0) i).setOps (.elem 0 0) i c.ops).addTail (.elem 0 0) i) := by
  have hreq : h.request grant = (.elem (2 + 2 * i) 0, h.granted) := by
    rw [← ha.requests] at hg ⊢
    exact request_granted hg
  simp only [createSlot, hreq]
  rfl

/-- There is no block for the `node` of the slot. -/
lemma createSlot_noNode (ha : AtSlot i h) (hd : grant (2 + 2 * i) = true)
    (hg : grant (3 + 2 * i) = false) :
    ∃ h', Built (3 + 2 * i) (i + 1) i h' ∧ h'.node (.elem 1 i) = .null ∧
      createSlot c grant (.elem 0 0) i h =
        .error ("malloc", giveUp (.elem 0 0) (c.undoNode (.elem 0 0) i h')) := by
  have hreq : (withData i h).request grant = (.null, (withData i h).refused) :=
    request_refused (by rwa [ha.requests_withData])
  have hb := ha.withData.refused
  refine ⟨(withData i h).refused.setNode (.elem 0 0) i .null, hb.setNode .null, ?_, ?_⟩
  · simp [hb.node_setNode]
  · simp [createSlot_withData ha hd, hreq]

/-- There are both, and the slot is linked. -/
lemma createSlot_ok (ha : AtSlot i h) (hd : grant (2 + 2 * i) = true)
    (hg : grant (3 + 2 * i) = true) :
    ∃ h', AtSlot (i + 1) h' ∧ createSlot c grant (.elem 0 0) i h = .ok h' := by
  have hr := ha.requests_withData
  have hreq : (withData i h).request grant = (.elem (3 + 2 * i) 0, (withData i h).granted) := by
    rw [← hr] at hg ⊢
    exact request_granted hg
  have hb : Built (2 + 2 * (i + 1)) (i + 1) i (withData i h).granted := by
    rw [show 2 + 2 * (i + 1) = 3 + 2 * i + 1 by omega]
    exact ha.withData.granted hr
  let h₁ := (withData i h).granted.setNode (.elem 0 0) i (.elem (3 + 2 * i) 0)
  have h₁b : Built (2 + 2 * (i + 1)) (i + 1) i h₁ := hb.setNode _
  have h₁n : h₁.node (.elem 1 i) = .elem (3 + 2 * i) 0 := by
    rw [hb.node_setNode, if_pos rfl]
  have howner : (h₁.setOwner (.elem 0 0) i).list.owner (.elem (3 + 2 * i) 0) = .elem 1 i := by
    rw [h₁b.owner_setOwner h₁n, Function.update_self]
  refine ⟨_, ⟨((h₁b.setOwner h₁n).setOps (.elem 0 0) i c.ops).addTail ?_ ?_, ?_⟩, ?_⟩
  · cases c.ops <;> exact h₁n
  · cases c.ops <;> exact howner
  · cases c.ops <;> exact (congrArg (· + 1) hr).trans (by omega)
  · simp only [createSlot_withData ha hd, hreq, reduceCtorEq, if_false]
    rfl

/-- `n` turns, whose requests are all granted. -/
lemma createSlots_turns (ha : AtSlot i h) {n : ℕ} (rest : ℕ)
    (hg : ∀ k < 2 + 2 * (i + n), grant k = true) (hlt : i + n < 2 ^ 31) :
    ∃ h', AtSlot (i + n) h' ∧ createSlots c grant (.elem 0 0) (n + rest) i h =
      createSlots c grant (.elem 0 0) rest (i + n) h' := by
  induction n generalizing i h with
  | zero => exact ⟨h, ha, by rw [Nat.zero_add, Nat.add_zero]⟩
  | succ n ih =>
    obtain ⟨h₁, h₁a, hstep⟩ :=
      createSlot_ok (c := c) ha (hg _ (by omega)) (hg (3 + 2 * i) (by omega))
    have hsum : i + (n + 1) = i + 1 + n := by omega
    obtain ⟨h', ha', hrun⟩ := ih h₁a (fun k hk => hg k (by omega)) (by omega)
    refine ⟨h', by rwa [hsum], ?_⟩
    rw [Nat.succ_add, createSlots, hstep, hsum, ← hrun]
    exact if_neg (by omega)

end Turn

/-! ## How a call ends -/

section Ends

variable (c : Kind) (mem : Mem) {grant : ℕ → Bool} {num i : ℕ}

/-- Request `k` is the first one that fails. -/
def FirstFail (grant : ℕ → Bool) (k : ℕ) : Prop := grant k = false ∧ ∀ j < k, grant j = true

/-- There is no block for the factory. -/
theorem createFactory_noFactory (h₀ : grant 0 = false) :
    createFactory c grant num mem = .error "malloc" (Heap.start mem).refused := by
  have hreq : (Heap.start mem).request grant = (.null, (Heap.start mem).refused) :=
    request_refused h₀
  simp [createFactory, hreq]

/-- The heap with the factory, whose list is empty. -/
def withFactory (mem : Mem) : Heap :=
  { (Heap.start mem).granted with
    list := mem.list.flush (initListHead (.list 0)) }

lemma createFactory_withFactory (h₀ : grant 0 = true) : createFactory c grant num mem =
    let r := (withFactory mem).request grant
    let h : Heap := { r.2 with array := Function.update r.2.array (.elem 0 0) r.1 }
    if r.1 = .null then .error "calloc" (h.free (.elem 0 0))
    else createSlots c grant (.elem 0 0) num 0 h := by
  have hreq : (Heap.start mem).request grant = (.elem 0 0, (Heap.start mem).granted) :=
    request_granted h₀
  simp only [createFactory, hreq, reduceCtorEq, if_false]
  rfl

/-- There is no block for the array. -/
theorem createFactory_noArray (h₀ : grant 0 = true) (h₁ : grant 1 = false) :
    ∃ h, h.trace = [.alloc (.elem 0 0), .free (.elem 0 0)] ∧
      createFactory c grant num mem = .error "calloc" h := by
  have hreq : (withFactory mem).request grant = (.null, (withFactory mem).refused) :=
    request_refused h₁
  refine ⟨_, ?_, by rw [createFactory_withFactory c mem h₀, hreq]; rfl⟩
  rfl

/-- The heap at the start of the loop. -/
def withArray (mem : Mem) : Heap :=
  { (withFactory mem).granted with
    array := Function.update mem.array (.elem 0 0) (.elem 1 0) }

lemma atSlot_withArray : AtSlot 0 (withArray mem) where
  trace := rfl
  array := Function.update_self (Ptr.elem 0 0) _ mem.array
  data := fun _ hj => absurd hj (Nat.not_lt_zero _)
  node := fun _ hj => absurd hj (Nat.not_lt_zero _)
  ring := ListMem.Represents.init (m := mem.list) (Ptr.list 0)
  owner := fun _ hj => absurd hj (Nat.not_lt_zero _)
  requests := rfl

lemma createFactory_withArray (h₀ : grant 0 = true) (h₁ : grant 1 = true) :
    createFactory c grant num mem = createSlots c grant (.elem 0 0) num 0 (withArray mem) := by
  have hreq : (withFactory mem).request grant = (.elem 1 0, (withFactory mem).granted) :=
    request_granted h₁
  rw [createFactory_withFactory c mem h₀, hreq]
  rfl

/-- The loop with `i` turns done, whose requests were granted. -/
lemma createFactory_turns (rest : ℕ) (hg : ∀ k < 2 + 2 * i, grant k = true) (hlt : i < 2 ^ 31) :
    ∃ h, AtSlot i h ∧ createFactory c grant (i + rest) mem =
      createSlots c grant (.elem 0 0) rest i h := by
  have hsum : 0 + i = i := Nat.zero_add i
  obtain ⟨h, ha, hrun⟩ := createSlots_turns (c := c) (n := i) (atSlot_withArray mem) rest
    (by rwa [hsum]) (by rwa [hsum])
  rw [hsum] at ha hrun
  exact ⟨h, ha, (createFactory_withArray c mem (hg 0 (by omega)) (hg 1 (by omega))).trans hrun⟩

/-- There is no block for the `data` of slot `i`. -/
theorem createFactory_noData (hi : i < num) (hlt : i < 2 ^ 31)
    (hf : FirstFail grant (2 + 2 * i)) :
    ∃ h, Built (2 + 2 * i) i i h ∧ h.data (.elem 1 i) = .null ∧ createFactory c grant num mem =
      .error c.dataError (giveUp (.elem 0 0) (c.undoData (.elem 0 0) i h)) := by
  obtain ⟨rest, rfl⟩ : ∃ rest, num = i + (rest + 1) := ⟨num - i - 1, by omega⟩
  obtain ⟨h, ha, hrun⟩ := createFactory_turns c mem (rest + 1) hf.2 hlt
  obtain ⟨h', hb, hnull, hturn⟩ := createSlot_noData (c := c) ha hf.1
  refine ⟨h', hb, hnull, ?_⟩
  rw [hrun, createSlots, hturn]

/-- There is no block for the `node` of slot `i`. -/
theorem createFactory_noNode (hi : i < num) (hlt : i < 2 ^ 31)
    (hf : FirstFail grant (3 + 2 * i)) :
    ∃ h, Built (3 + 2 * i) (i + 1) i h ∧ h.node (.elem 1 i) = .null ∧
      createFactory c grant num mem =
        .error "malloc" (giveUp (.elem 0 0) (c.undoNode (.elem 0 0) i h)) := by
  obtain ⟨rest, rfl⟩ : ∃ rest, num = i + (rest + 1) := ⟨num - i - 1, by omega⟩
  obtain ⟨h, ha, hrun⟩ := createFactory_turns c mem (rest + 1)
    (fun k hk => hf.2 k (by omega)) hlt
  obtain ⟨h', hb, hnull, hturn⟩ :=
    createSlot_noNode (c := c) ha (hf.2 _ (by omega)) hf.1
  refine ⟨h', hb, hnull, ?_⟩
  rw [hrun, createSlots, hturn]

/-- All requests are granted. -/
theorem createFactory_done (hlt : num < 2 ^ 31) (hg : ∀ k < 2 + 2 * num, grant k = true) :
    ∃ h, Built (2 + 2 * num) num num h ∧ createFactory c grant num mem = .done (.elem 0 0) h := by
  obtain ⟨h, ha, hrun⟩ := createFactory_turns c mem 0 hg hlt
  exact ⟨h, ha.toBuilt, hrun⟩

/-- As many requests are granted as it takes to bring the index out of its range. -/
theorem createFactory_overflow (hle : 2 ^ 31 ≤ num)
    (hg : ∀ k < 2 + 2 * 2 ^ 31, grant k = true) :
    createFactory c grant num mem = .undefined := by
  obtain ⟨rest, rfl⟩ : ∃ rest, num = (2 ^ 31 - 1) + (rest + 1) := ⟨num - 2 ^ 31, by omega⟩
  obtain ⟨h, ha, hrun⟩ := createFactory_turns c mem (rest + 1)
    (i := 2 ^ 31 - 1) (fun k hk => hg k (by omega)) (by omega)
  obtain ⟨h', -, hturn⟩ := createSlot_ok (c := c) ha (hg _ (by omega)) (hg _ (by omega))
  rw [hrun, createSlots, hturn]
  exact if_pos (by omega)

end Ends

end RejectProcess.Factory
