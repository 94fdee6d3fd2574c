import Mathlib.Data.List.Perm.Basic
import Mathlib.Data.List.Range
import RejectProcess.Sample.Position

/-!
# The buffers and the order of a position test

What every state of a test has, whatever the producer, the interrupt task and the position task
do in between.  A buffer is free, listed, or with the one task that has it in hand.  Records leave
the list in the order in which they were stored: the position task looks at the head without the
lock, and nobody else removes a record, so the head it has seen is the head it takes.
-/

namespace RejectProcess.Position

open Lib Publish

/-- The buffer the producer has in hand. -/
def ProdPc.hand : ProdPc → List Buffer
  | .fill _ buf => [buf]
  | .link _ buf => [buf]
  | _ => []

@[simp] lemma hand_held (r : Reference) (b : Buffer) : (r.held b).hand = [b] := by
  cases r <;> rfl

/-- The buffer the position task has in hand: it has left the list and is not yet recycled. -/
def DisPc.hand : DisPc → List Buffer
  | .deleted _ p _ => [p]
  | _ => []

/-- The `plist` of the position task, up to its call of `list_del`. -/
def DisPc.node : DisPc → Option Buffer
  | .plist _ p => some p
  | .computed _ p => some p
  | _ => none

namespace Line

/-- The buffers of a test and the order of its records. -/
structure Conserved (L : Line) : Prop where
  /-- Each of the 128 buffers is in one place. -/
  places : (L.buf.list ++ L.list ++ L.prod.hand ++ L.pc.hand).Perm (List.range 128)
  /-- The records that were taken are the first that were stored, and the list has the others. -/
  order : L.stored = L.taken ++ L.list.map L.record
  /-- A node the position task has read is still the head of the list. -/
  head : ∀ p ∈ L.pc.node, L.list.head? = some p

/-- The invariant of a test. -/
structure Inv (L : Line) : Prop extends Conserved L where
  /-- A record knows its buffer. -/
  own : ∀ p ∈ L.list ++ L.pc.hand, (L.buf.memory p).buf = p
  /-- A list that was not empty stays so until the position task takes from it. -/
  notEmpty : ∀ e, L.pc = .notEmpty e → L.list ≠ []
  /-- What the position task computes is from the head. -/
  computed : ∀ e p, L.pc = .computed e p → L.dis = calcDis L.cur (L.record p).sample

variable {L L' : Line} {l : PosList} {a : Label}

namespace Inv

lemma init (l : PosList) (memory : Buffer → PositionArray) : (Line.init l memory).Inv where
  places := by simp [Line.init, ProdPc.hand, DisPc.hand]
  order := rfl
  head := by simp [Line.init, DisPc.node]
  own := by simp [Line.init, DisPc.hand]
  notEmpty := by simp [Line.init]
  computed := by simp [Line.init]

lemma nodup (h : L.Inv) : (L.buf.list ++ L.list ++ L.prod.hand ++ L.pc.hand).Nodup :=
  h.places.nodup_iff.2 List.nodup_range

/-- The buffer in the producer's hands is not listed, and the position task does not have it. -/
lemma hand_not_mem (h : L.Inv) {r : Reference} {b : Buffer} (hp : L.prod = .link r b) :
    b ∉ L.list ∧ b ∉ L.pc.hand := by
  have hnd := h.nodup
  simp only [hp, ProdPc.hand, List.nodup_append, List.mem_append, List.mem_singleton] at hnd
  obtain ⟨⟨-, -, h1⟩, -, h2⟩ := hnd
  exact ⟨fun hl => h1 b (.inr hl) b rfl rfl, fun hh => h2 b (.inr rfl) b hh rfl⟩

/-- The node that the position task has read starts the list. -/
lemma list_eq (h : L.Inv) {p : Buffer} (hp : p ∈ L.pc.node) : ∃ rest, L.list = p :: rest := by
  obtain ⟨rest, hl⟩ := List.head?_eq_some_iff.1 (h.head p hp)
  exact ⟨rest, hl⟩

/-- A step that changes neither the list, the factory nor the hands. -/
lemma frame (h : L.Inv) (hbuf : L'.buf = L.buf) (hlist : L'.list = L.list)
    (hprod : L'.prod.hand = L.prod.hand) (hhand : L'.pc.hand = L.pc.hand)
    (hfilled : L'.filled = L.filled) (hstored : L'.stored = L.stored)
    (htaken : L'.taken = L.taken) (hhead : ∀ p ∈ L'.pc.node, L'.list.head? = some p)
    (hne : ∀ e, L'.pc = .notEmpty e → L'.list ≠ [])
    (hdis : ∀ e p, L'.pc = .computed e p → L'.dis = calcDis L'.cur (L'.record p).sample) :
    L'.Inv where
  places := by
    rw [hbuf, hlist, hprod, hhand]
    exact h.places
  order := by
    have hrec : L'.record = L.record := by
      funext b
      simp only [record, hbuf, hfilled]
    rw [hstored, htaken, hlist, hrec]
    exact h.order
  head := hhead
  own := by
    rw [hlist, hhand, hbuf]
    exact h.own
  notEmpty := hne
  computed := hdis

/-- A step that leaves the position task where it is. -/
lemma frame_pc (h : L.Inv) (hbuf : L'.buf = L.buf) (hlist : L'.list = L.list)
    (hprod : L'.prod.hand = L.prod.hand) (hpc : L'.pc = L.pc) (hcur : L'.cur = L.cur)
    (hdis : L'.dis = L.dis) (hfilled : L'.filled = L.filled) (hstored : L'.stored = L.stored)
    (htaken : L'.taken = L.taken) : L'.Inv := by
  refine h.frame hbuf hlist hprod (by rw [hpc]) hfilled hstored htaken ?_ ?_ ?_
  · rw [hpc, hlist]
    exact h.head
  · rw [hpc, hlist]
    exact h.notEmpty
  · intro e p he
    rw [hpc] at he
    simpa only [record, hcur, hdis, hbuf, hfilled] using h.computed e p he

/-- `buf_factory_produce` moves the head of the free list into the producer's hands. -/
lemma produced (h : L.Inv) {r : Reference} {b : Buffer} {f : BufferFactory PositionArray}
    (hp : L.prod = .produce r) (hf : L.buf.produce = some (b, f)) : (L.produced r b f).Inv := by
  obtain ⟨hfree, hmem⟩ := BufferFactory.produce_eq_some.1 hf
  have hrec : (L.produced r b f).record = L.record := by
    funext b'
    simp only [record, Line.produced, hmem]
  refine ⟨⟨?_, ?_, h.head⟩, ?_, h.notEmpty, ?_⟩
  · refine List.Perm.trans ?_ h.places
    have hidle : L.prod.hand = [] := by simp [hp, ProdPc.hand]
    simp only [Line.produced, hand_held, hfree, hidle, List.append_nil, List.cons_append]
    rw [List.perm_iff_count]
    intro x
    simp only [List.count_append, List.count_cons, List.count_nil]
    omega
  · rw [hrec]
    exact h.order
  · intro p hpm
    simpa only [Line.produced, hmem] using h.own p hpm
  · intro e p he
    rw [hrec]
    exact h.computed e p he

/-- The new record is behind the others, and theirs are as they were. -/
lemma linked (h : L.Inv) {r : Reference} {b : Buffer} (hp : L.prod = .link r b) :
    (L.linked r b).Inv := by
  obtain ⟨hlist, hhand⟩ := h.hand_not_mem hp
  have hrec : ∀ p, p ≠ b → (L.linked r b).record p = L.record p := by
    intro p hne
    simp only [record, Line.linked, BufferFactory.store_memory_of_ne _ _ hne,
      Function.update_of_ne hne]
  have hnew : (L.linked r b).record b =
      { buf := b, sample := r.fill (L.buf.memory b).sample, session := L.session } := by
    simp only [record, Line.linked, BufferFactory.store_memory_self, Function.update_self]
  refine ⟨⟨?_, ?_, ?_⟩, ?_, ?_, ?_⟩
  · refine List.Perm.trans ?_ h.places
    simp only [Line.linked, ProdPc.hand, hp, BufferFactory.store_list]
    rw [List.perm_iff_count]
    intro x
    simp only [List.count_append, List.count_nil]
    omega
  · have hmap : L.list.map (L.linked r b).record = L.list.map L.record :=
      List.map_congr_left fun p hpl => hrec p (fun hb => hlist (hb ▸ hpl))
    show L.stored ++ [_] = L.taken ++ (L.list ++ [b]).map (L.linked r b).record
    rw [List.map_append, hmap, ← List.append_assoc, ← h.order, List.map_singleton, hnew]
  · intro p hpn
    obtain ⟨rest, hl⟩ := h.list_eq hpn
    simp [Line.linked, hl]
  · intro p hpm
    by_cases hb : p = b
    · subst hb
      simp [Line.linked]
    · have hpm' : p ∈ L.list ++ L.pc.hand := by
        simp only [Line.linked, List.mem_append, List.mem_singleton, hb, or_false] at hpm ⊢
        exact hpm
      simpa only [Line.linked, BufferFactory.store_memory_of_ne _ _ hb] using h.own p hpm'
  · intro e he
    simp [Line.linked]
  · intro e p he
    have hnode : p ∈ L.pc.node := by
      rw [show L.pc = .computed e p from he]
      rfl
    obtain ⟨rest, hl⟩ := h.list_eq hnode
    rw [hrec p (fun hb => hlist (hb ▸ hl ▸ List.mem_cons_self))]
    exact h.computed e p he

/-- The record that the position task takes is the oldest in the list. -/
lemma delete (h : L.Inv) {e : Event} {p : Buffer} (hp : L.pc = .computed e p) :
    (L.delete e p).Inv := by
  obtain ⟨rest, hl⟩ := h.list_eq (p := p) (by rw [hp]; rfl)
  refine ⟨⟨?_, ?_, ?_⟩, ?_, ?_, ?_⟩
  · refine List.Perm.trans ?_ h.places
    simp only [Line.delete, DisPc.hand, hp, hl, List.erase_cons_head]
    rw [List.perm_iff_count]
    intro x
    simp only [List.count_append, List.count_cons, List.count_nil]
    omega
  · have horder := h.order
    rw [hl, List.map_cons] at horder
    show L.stored = (L.taken ++ [L.record p]) ++ (L.list.erase p).map L.record
    rw [hl, List.erase_cons_head, List.append_assoc, List.singleton_append]
    exact horder
  · simp [Line.delete, DisPc.node]
  · intro q hq
    refine h.own q ?_
    simp only [Line.delete, DisPc.hand, hl, List.erase_cons_head, List.mem_append,
      List.mem_singleton] at hq
    simp only [hl, List.mem_append, List.mem_cons]
    rcases hq with hq | rfl
    · exact .inl (.inr hq)
    · exact .inl (.inl rfl)
  · simp [Line.delete]
  · simp [Line.delete]

/-- The buffer that the position task has in hand goes back. -/
lemma recycle (h : L.Inv) {e : Event} {p : Buffer} {r : Stored} (hp : L.pc = .deleted e p r) :
    (L.recycle e p r).Inv := by
  have hown : (L.buf.memory p).buf = p := h.own p (by simp [hp, DisPc.hand])
  refine ⟨⟨?_, h.order, ?_⟩, ?_, ?_, ?_⟩
  · refine List.Perm.trans ?_ h.places
    simp only [Line.recycle, DisPc.hand, hp, hown, BufferFactory.recycle_list]
    rw [List.perm_iff_count]
    intro x
    simp only [List.count_append, List.count_nil]
    omega
  · simp [Line.recycle, DisPc.node]
  · intro q hq
    simp only [Line.recycle, DisPc.hand, List.append_nil] at hq
    exact h.own q (List.mem_append_left _ hq)
  · simp [Line.recycle]
  · simp [Line.recycle]

/-- Every step of a test keeps the invariant. -/
theorem step (h : L.Inv) (hs : Step l L a L') : L'.Inv := by
  cases hs with
  | store _ r hp =>
    exact h.frame_pc rfl rfl (by simp [Line.store, hp, ProdPc.hand]) rfl rfl rfl rfl rfl rfl
  | produce _ r b f hp hf => exact h.produced hp hf
  | fill _ r r' b hp =>
    exact h.frame_pc rfl rfl (by simp [Line.fillWith, hp, ProdPc.hand]) rfl rfl rfl rfl rfl rfl
  | link _ r b hp => exact h.linked hp
  | event => exact h.frame_pc rfl rfl rfl rfl rfl rfl rfl rfl rfl
  | post => exact h.frame_pc rfl rfl rfl rfl rfl rfl rfl rfl rfl
  | command => exact h.frame_pc rfl rfl rfl rfl rfl rfl rfl rfl rfl
  | pend e rest hp =>
    exact h.frame rfl rfl rfl (by simp [pend, hp, DisPc.hand]) rfl rfl rfl
      (by simp [pend, DisPc.node]) (by simp [pend]) (by simp [pend])
  | empty e hp hl =>
    exact h.frame rfl rfl rfl (by simp [goto, hp, DisPc.hand]) rfl rfl rfl
      (by simp [goto, DisPc.node]) (by simp [goto]) (by simp [goto])
  | notEmpty e hp hl =>
    exact h.frame rfl rfl rfl (by simp [goto, hp, DisPc.hand]) rfl rfl rfl
      (by simp [goto, DisPc.node]) (fun _ _ => hl) (by simp [goto])
  | plist e p rest hp hl =>
    exact h.frame rfl rfl rfl (by simp [goto, hp, DisPc.hand]) rfl rfl rfl
      (by simp [goto, DisPc.node, hl]) (by simp [goto]) (by simp [goto])
  | compute e p hp =>
    refine h.frame rfl rfl rfl (by simp [compute, hp, DisPc.hand]) rfl rfl rfl ?_
      (by simp [compute]) ?_
    · intro q hq
      exact h.head q (by simpa [compute, hp, DisPc.node] using hq)
    · rintro e' p' ⟨⟩
      rfl
  | delete e p hp => exact h.delete hp
  | recycle e p r hp => exact h.recycle hp
  | report e r hp =>
    exact h.frame rfl rfl rfl (by simp [postReport, hp, DisPc.hand]) rfl rfl rfl
      (by simp [postReport, DisPc.node]) (by simp [postReport]) (by simp [postReport])

end Inv

end Line

/-- An invariant of one test, from what the steps of the test do to it. -/
theorem line_invariant {ok : State → Label → Prop} {s₀ s : State} {l : PosList} {I : Line → Prop}
    (h : Reach State.step ok s₀ s) (h0 : I (s₀.line l))
    (hstep : ∀ s a L', ok s a → I (s.line l) → Line.Step l (s.line l) a L' → I L') :
    I (s.line l) := by
  refine h.invariant (I := fun s => I (s.line l)) h0 fun s a s' hI hok hs => ?_
  rcases State.line_step hs l with hl | hl
  · rw [hl]
    exact hI
  · exact hstep s a _ hok hI hl

/-- The invariant of a test holds in every reachable state. -/
lemma line_inv {ok : State → Label → Prop} {s₀ s : State} {l : PosList}
    (h : Reach State.step ok s₀ s) (h0 : (s₀.line l).Inv) : (s.line l).Inv :=
  line_invariant h h0 fun _ _ _ _ hI hs => hI.step hs

/-- Buffer memory with every byte zero, as a fresh page has it. -/
def zeroMemory : PosList → Buffer → PositionArray := fun _ _ =>
  { sample := { count := 0, wheelCode := 0, cTime := { tvSec := 0, tvUsec := 0 } }, buf := 0 }

end RejectProcess.Position
