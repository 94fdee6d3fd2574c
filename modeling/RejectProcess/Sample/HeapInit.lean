import RejectProcess.Sample.HeapRun
import RejectProcess.Tool.AllOrNothing

/-!
# From the first request to the last command

`array_buf_init` builds the pool with `create_buf_factory` and initialises the two list heads.
What it leaves in memory is what the runs on sequences start from, so from there on every run on
the pointers is a run on the sequences, and no walk along a list takes more than 129 rounds.
-/

namespace RejectProcess.ArrayHeap

open Lib

/-- The addresses of `array.c`: the pointers that the allocator and the factory know, the two list
heads, and the nodes inside the records. -/
inductive Addr
  | ptr (p : Factory.Ptr)
  /-- `&g_k1_sample_list` and `&g_k2_sample_list`. -/
  | head (n : Station)
  /-- `&parray->node` of the record in block `p`. -/
  | nodeIn (p : Factory.Ptr)
deriving DecidableEq, Repr

namespace Addr

/-- `&parray->node`. -/
def nodeOf : Addr → Addr
  | ptr p => nodeIn p
  | a => a

/-- The address of a buffer in the array of the factory. -/
def ofBuffer (b : Buffer) : Addr := .ptr (.elem 1 b)

/-- A function on pointers, and another one elsewhere. -/
def lift (f : Factory.Ptr → Factory.Ptr) (rest : Addr → Addr) : Addr → Addr
  | ptr p => ptr (f p)
  | a => rest a

end Addr

/-- The variables of `array.c`, where `g_c1_sample_buf` points to `factory`. -/
def arrayGlobals (factory : Factory.Ptr) : Globals Addr where
  head := .head
  pool := .ptr factory.listOf
  null := .ptr .null
  nodeOf := Addr.nodeOf

/-- What is in memory besides the blocks of the factory: anything. -/
structure Outside where
  list : ListMem Addr
  sample : Addr → SampleResult
  buf : Addr → Addr

/-- The memory that the factory leaves, with what is outside of it. -/
def afterCreate (o : Factory.Heap) (out : Outside) : Heap Addr where
  list :=
    { next := Addr.lift o.list.next out.list.next
      prev := Addr.lift o.list.prev out.list.prev
      owner := Addr.lift o.list.owner out.list.owner }
  sample := out.sample
  buf := out.buf
  memory := Addr.lift o.data id
  node := Addr.lift o.node id

/-- Both lists are initialised. -/
def initLists (factory : Factory.Ptr) (h : Heap Addr) : Heap Addr :=
  (h.initList (arrayGlobals factory) .one).initList (arrayGlobals factory) .two

/-- `array_buf_init`, which returns when the pool has been built. -/
def arrayBufInit (grant : ℕ → Bool) (mem : Factory.Mem) (out : Outside) :
    Option (Globals Addr × Heap Addr) :=
  match Factory.createBufFactory grant 128 mem with
  | .done factory o => some (arrayGlobals factory, initLists factory (afterCreate o out))
  | _ => none

/-! ## What the factory leaves -/

section Created

open Factory

variable {grant : ℕ → Bool} {num : ℕ} {c : Kind} {mem : Factory.Mem}

/-- A factory that is returned has got all its blocks. -/
lemma granted_of_done {factory : Ptr} {o : Factory.Heap} (hlt : num < 2 ^ 31)
    (h : createFactory c grant num mem = .done factory o) : ∀ k < 2 + 2 * num, grant k = true := by
  rcases exists_firstFail grant (2 + 2 * num) with ⟨k, hk, hf⟩ | hg
  · obtain rfl | rfl | ⟨i, rfl | rfl⟩ : k = 0 ∨ k = 1 ∨ ∃ i, k = 2 + 2 * i ∨ k = 3 + 2 * i := by
      have hk : k = 0 ∨ k = 1 ∨ k = 2 + 2 * ((k - 2) / 2) ∨ k = 3 + 2 * ((k - 2) / 2) := by omega
      exact hk.imp_right (Or.imp_right fun h => ⟨_, h⟩)
    · rw [createFactory_noFactory c mem hf.1] at h
      exact nomatch h
    · obtain ⟨h', -, ho⟩ : ∃ h' : Factory.Heap, h'.trace = [.alloc (.elem 0 0), .free (.elem 0 0)] ∧
          createFactory c grant num mem = .error "calloc" h' :=
        createFactory_noArray c mem (hf.2 0 (by omega)) hf.1
      exact nomatch h.symm.trans ho
    · obtain ⟨h', -, -, ho⟩ := createFactory_noData c mem (show i < num by omega) (by omega) hf
      exact nomatch h.symm.trans ho
    · obtain ⟨h', -, -, ho⟩ := createFactory_noNode c mem (show i < num by omega) (by omega) hf
      exact nomatch h.symm.trans ho
  · exact hg

/-- The memory of a factory that is returned. -/
lemma built_of_done {factory : Ptr} {o : Factory.Heap} (hlt : num < 2 ^ 31)
    (h : createFactory c grant num mem = .done factory o) :
    Built (2 + 2 * num) num num o ∧ factory = .elem 0 0 := by
  obtain ⟨o', hb, ho⟩ := createFactory_done c mem hlt (granted_of_done hlt h)
  obtain ⟨rfl, rfl⟩ : Ptr.elem 0 0 = factory ∧ o' = o := by
    simpa using ho.symm.trans h
  exact ⟨hb, rfl⟩

end Created

variable {o : Factory.Heap} {out : Outside} {b num : ℕ}

/-- The memory with the factory in the first block. -/
abbrev started (o : Factory.Heap) (out : Outside) : Heap Addr :=
  initLists (.elem 0 0) (afterCreate o out)

/-- A ring of pointers is a ring of addresses. -/
lemma represents_lift {head : Factory.Ptr} {xs : List Factory.Ptr}
    (h : o.list.Represents head xs) :
    (afterCreate o out).list.Represents (.ptr head) (xs.map .ptr) where
  links := by
    have hmap := List.isChain_map_of_isChain (S := Linked (afterCreate o out).list.next
      (afterCreate o out).list.prev) Addr.ptr
        (fun x y hxy => ⟨congrArg Addr.ptr hxy.1, congrArg Addr.ptr hxy.2⟩) h.links
    simpa using hmap
  nodup := by
    rw [← List.map_cons]
    exact h.nodup.map fun _ _ heq => Addr.ptr.inj heq

/-- Initialising the heads of the stations leaves the rest. -/
lemma initLists_frame {x : Addr} (hx : ∀ n, x ≠ .head n) :
    (started o out).list.next x = (afterCreate o out).list.next x ∧
      (started o out).list.prev x = (afterCreate o out).list.prev x ∧
      (started o out).list.owner x = (afterCreate o out).list.owner x := by
  have h₁ := ListMem.Represents.init_frame (m := (afterCreate o out).list) (hx .one)
  have h₂ := ListMem.Represents.init_frame
    (m := (afterCreate o out).list.flush (initListHead (.head .one))) (hx .two)
  exact ⟨h₂.1.trans h₁.1, h₂.2.1.trans h₁.2.1, h₂.2.2.trans h₁.2.2⟩

/-- Both heads are empty. -/
lemma represents_head (n : Station) : (started o out).list.Represents (.head n) [] := by
  cases n with
  | one =>
    have hfirst : ((afterCreate o out).list.flush (initListHead (.head .one))).Represents
        (.head .one) [] := ListMem.Represents.init _
    refine hfirst.congr fun x hx => ?_
    obtain rfl := List.mem_singleton.1 hx
    have hne : Addr.head .one ≠ .head .two := by decide
    have hframe := ListMem.Represents.init_frame
      (m := (afterCreate o out).list.flush (initListHead (.head .one))) hne
    exact ⟨hframe.1, hframe.2.1⟩
  | two => exact ListMem.Represents.init _

/-- The sequences at the start. -/
abbrev createdMem (num : ℕ) (memory : Buffer → SampleArray) : ArrayMem :=
  { sampleBuf := BufferFactory.create num memory, k1SampleList := [], k2SampleList := [] }

section Start

variable (hb : Factory.Built b num num o)
include hb

lemma node_ofBuffer {j : ℕ} (hj : j < num) :
    (started o out).node (Addr.ofBuffer j) = .ptr (.elem (3 + 2 * j) 0) :=
  congrArg Addr.ptr (hb.node j hj)

lemma item_ofBuffer {j : ℕ} (hj : j < num) :
    (started o out).item (arrayGlobals (.elem 0 0)) (Addr.ofBuffer j) =
      .nodeIn (.elem (2 + 2 * j) 0) :=
  congrArg Addr.nodeIn (hb.data j hj)

lemma map_node : ((List.range num).map Addr.ofBuffer).map (started o out).node =
    (List.range num).map fun j => .ptr (.elem (3 + 2 * j) 0) := by
  rw [List.map_map]
  exact List.map_congr_left fun j hj => node_ofBuffer hb (List.mem_range.1 hj)

lemma map_item : ((List.range num).map Addr.ofBuffer).map
      ((started o out).item (arrayGlobals (.elem 0 0))) =
    (List.range num).map fun j => .nodeIn (.elem (2 + 2 * j) 0) := by
  rw [List.map_map]
  exact List.map_congr_left fun j hj => item_ofBuffer hb (List.mem_range.1 hj)

/-- No two nodes are at one address. -/
lemma apart_init :
    Apart (arrayGlobals (.elem 0 0)) (started o out) ((List.range num).map Addr.ofBuffer) := by
  rw [Apart, map_node hb, map_item hb]
  have hitems : ((List.range num).map fun j => Addr.nodeIn (.elem (2 + 2 * j) 0)).Nodup :=
    List.nodup_range.map fun i j h => by simpa using h
  have hnodes : ((List.range num).map fun j => Addr.ptr (.elem (3 + 2 * j) 0)).Nodup :=
    List.nodup_range.map fun i j h => by simpa using h
  simp only [arrayGlobals, List.nodup_cons, List.nodup_append, hitems, hnodes, true_and]
  simp [Factory.Ptr.listOf]

end Start

/-- What `array_buf_init` leaves holds an empty list at each station and all the buffers in the
pool. -/
lemma stateRefines_init (hb : Factory.Built b num num o) (memory : Buffer → SampleArray) :
    StateRefines (arrayGlobals (.elem 0 0)) Addr.ofBuffer (num + 1) ⟨started o out, 0⟩
      ⟨createdMem num memory, 0⟩ := by
  have hall : (seqsOf Addr.ofBuffer (createdMem num memory)).all =
      (List.range num).map Addr.ofBuffer := List.append_nil _
  have hempty : ∀ n, (createdMem num memory).list n = [] := by
    rintro (_ | _) <;> rfl
  have hlist : ∀ n, (seqsOf Addr.ofBuffer (createdMem num memory)).list n = [] := by
    rintro (_ | _) <;> rfl
  have hapart : Apart (arrayGlobals (.elem 0 0)) (started o out)
      ((List.range num).map Addr.ofBuffer) := apart_init hb
  have hring : (started o out).list.Represents (arrayGlobals (.elem 0 0)).pool
      (((List.range num).map Addr.ofBuffer).map (started o out).node) := by
    rw [map_node hb]
    have hlift := @represents_lift o out _ _ hb.ring
    rw [List.map_map] at hlift
    refine ListMem.Represents.congr hlift fun x hx => ?_
    have hx' : ∀ n, x ≠ .head n := by
      rintro n rfl
      simp [arrayGlobals] at hx
    exact ⟨(initLists_frame hx').1, (initLists_frame hx').2.1⟩
  have howner : ∀ x ∈ (List.range num).map Addr.ofBuffer,
      (started o out).list.owner ((started o out).node x) = x := by
    intro x hx
    obtain ⟨j, hj, rfl⟩ := List.mem_map.1 hx
    have hj := List.mem_range.1 hj
    rw [node_ofBuffer hb hj, (initLists_frame (by simp)).2.2]
    exact congrArg Addr.ptr (hb.owner j hj)
  refine ⟨⟨⟨⟨?_, fun n b hb => ?_, fun n b hb => ?_⟩, ?_⟩, ?_⟩, rfl⟩
  · refine ⟨⟨?_, ?_, ?_, ?_⟩, fun n => ?_, hring, ?_, ?_, ?_⟩
    · refine List.Nodup.sublist ?_ hapart
      refine ((List.Sublist.append (List.nil_sublist _) ?_).cons_cons _ |>.cons_cons _).cons_cons _
      rw [← hall]
      exact List.Sublist.refl _
    · exact fun b hb => absurd hb List.not_mem_nil
    · exact fun b hb => absurd hb List.not_mem_nil
    · rw [← Seqs.all, hall]
      exact howner
    · rw [hlist]
      exact represents_head n
    · intro n b hb
      rw [hlist] at hb
      exact absurd hb List.not_mem_nil
    · exact fun b hb => List.mem_append_left _ hb
    · exact fun b hb => absurd hb List.not_mem_nil
  · rw [hempty] at hb
    exact absurd hb List.not_mem_nil
  · rw [hempty] at hb
    exact absurd hb List.not_mem_nil
  · rw [hall]
    exact apart_init hb
  · rw [hall, List.length_map, List.length_range]
    exact Nat.lt_succ_self num

/-- From the start of the program on, the calls of `array.c` on the pointers write the commands that
the sequences say, leave a memory that holds these sequences, and exit where the pool of the
sequences is empty.  No walk along a list takes more than 129 rounds. -/
theorem started_runs_refine (grant : ℕ → Bool) (mem : Factory.Mem) (out : Outside)
    (g : Globals Addr) (h : Heap Addr) (hstart : arrayBufInit grant mem out = some (g, h))
    (memory : Buffer → SampleArray) (cfg : SysConfig) (es : List ArrayEvent) :
    Option.Rel (fun q r => q.1 = r.1 ∧ StateRefines g Addr.ofBuffer 129 q.2 r.2)
      (runHeap g cfg 129 ⟨h, 0⟩ es)
      (runArray cfg ⟨RejectProcess.arrayBufInit memory, 0⟩ es) := by
  rw [arrayBufInit] at hstart
  split at hstart
  case h_1 factory o hdone =>
    obtain ⟨hb, rfl⟩ := built_of_done (by decide) hdone
    obtain ⟨rfl, rfl⟩ := Prod.mk.inj (Option.some.inj hstart)
    exact runs_refine _ _ _ _ _ _ (stateRefines_init hb memory) es
  case h_2 => exact nomatch hstart

/-- A memory with nothing in it. -/
def nullMem : Factory.Mem where
  list := { next := fun _ => .null, prev := fun _ => .null, owner := fun _ => .null }
  array := fun _ => .null
  data := fun _ => .null
  node := fun _ => .null
  ops := fun _ => .null

def nullOutside : Outside where
  list := { next := id, prev := id, owner := id }
  sample := fun _ => (recordAt 0 0).sample
  buf := id

/-- Two samples come, a trigger takes one of them, and a reset clears the other one. -/
def startEvents : List ArrayEvent :=
  [.sample (recordAt 0 500).sample, .sample (recordAt 0 900).sample, .trigger1 500, .reset,
    .trigger1 900]

theorem started_runs_refine_granted :
    ∃ g h, arrayBufInit (fun _ => true) nullMem nullOutside = some (g, h) ∧
      Option.Rel (fun q r => q.1 = r.1 ∧ StateRefines g Addr.ofBuffer 129 q.2 r.2)
        (runHeap g SysConfig.default 129 ⟨h, 0⟩ startEvents)
        (runArray SysConfig.default
          ⟨RejectProcess.arrayBufInit fun b => { sample := (recordAt 0 0).sample, buf := b }, 0⟩
          startEvents) := by
  obtain ⟨o, -, ho⟩ : ∃ o, Factory.Built (2 + 2 * 128) 128 128 o ∧
      Factory.createFactory Factory.bufKind (fun _ => true) 128 nullMem =
        .done (.elem 0 0) o :=
    Factory.createFactory_done Factory.bufKind nullMem (by decide) fun _ _ => rfl
  have hstart : arrayBufInit (fun _ => true) nullMem nullOutside =
      some (arrayGlobals (.elem 0 0), started o nullOutside) := by
    rw [arrayBufInit, Factory.createBufFactory, show (128 : UInt32).toNat = 128 from rfl, ho]
  exact ⟨_, _, hstart, started_runs_refine _ _ _ _ _ hstart _ _ _⟩

end RejectProcess.ArrayHeap
