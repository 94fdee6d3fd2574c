import RejectProcess.Sample.PositionPool
import RejectProcess.Tool.ListHead

/-!
# The position lists in memory

The list of a test is a ring of nodes that lie in the buffers.  The producer links the node of its
record with `list_add_tail`; the position task tests `list.next`, reads it, follows `plist->owner`
and calls `list_del`.  Here the four tests run over that memory, and the sequence of the records is
history.  Every step on the ring is the step on the sequence, so what was shown of the sequences
holds of the rings.
-/

namespace RejectProcess.Position

open Lib Publish

/-- A pointer into the list of a test. -/
inductive NodePtr
  | null
  /-- The head of the list. -/
  | head
  /-- The `node` of the record in a buffer. -/
  | node (b : Buffer)
  /-- The record in a buffer. -/
  | record (b : Buffer)
deriving DecidableEq, Repr

/-- A test with its list in memory, and the local variable `parray` of its position task.  The
sequence `line.list` is history here: no step reads it. -/
structure RingLine where
  mem : ListMem NodePtr
  parray : Buffer
  line : Line

namespace RingLine

variable (R : RingLine)

/-- `list_add_tail(&(parray->node), ..)` and `parray->node.owner = parray`. -/
def linkNode (b : Buffer) : ListMem NodePtr :=
  (R.mem.flush (R.mem.listAddTail (.node b) .head)).store ⟨.owner, .node b, .record b⟩

/-- The memory after the next step of the producer. -/
def prodMem : ListMem NodePtr :=
  match R.line.prod with
  | .link _ b => R.linkNode b
  | _ => R.mem

/-- The producer goes on. -/
def stepProd : Option RingLine :=
  R.line.stepProd.map fun L => { R with mem := R.prodMem, line := L }

/-- The position task goes on. -/
def stepDis (item : UInt32) : Option RingLine :=
  match R.line.pc with
  | .pended e =>
    -- `list_empty`
    if R.mem.next .head = .head then some { R with line := R.line.goto (.report e none) }
    else some { R with line := R.line.goto (.notEmpty e) }
  | .notEmpty e =>
    match R.mem.next .head with
    | .node p => some { R with line := R.line.goto (.plist e p) }
    | _ => none
  | .plist e p =>
    match R.mem.owner (.node p) with
    | .record q =>
      some { R with
        parray := q
        line := { R.line with
          pc := .computed e p, cur := R.line.payload
          dis := calcDis R.line.payload (R.line.buf.memory q).sample } }
    | _ => none
  | .computed e p =>
    some { R with
      mem := R.mem.flush (R.mem.listDel .null (.node p))
      line := R.line.delete e p }
  | .deleted e _ r =>
    some { R with
      line := { R.line with
        buf := R.line.buf.recycle (R.line.buf.memory R.parray).buf, pc := .report e (some r) } }
  | _ => (R.line.stepDis item).map fun L => { R with line := L }

end RingLine

/-- The `parray` of the position task, once it is assigned. -/
def DisPc.parray : DisPc → Option Buffer
  | .computed _ p => some p
  | .deleted _ p _ => some p
  | _ => none

namespace RingLine

/-- The memory holds the ring of the nodes of the listed records, and every node knows its
record. -/
structure Linked (R : RingLine) : Prop where
  ring : R.mem.Represents .head (R.line.list.map .node)
  owner : ∀ b ∈ R.line.list, R.mem.owner (.node b) = .record b
  parray : ∀ p ∈ R.line.pc.parray, R.parray = p

namespace Linked

variable {R R' : RingLine}

/-- The list is found empty exactly when it has no record, and its first node is that of the
first record. -/
lemma next_head (h : R.Linked) :
    (R.line.list = [] ∧ R.mem.next .head = .head) ∨
      ∃ p rest, R.line.list = p :: rest ∧ R.mem.next .head = .node p := by
  have hring := Ring.next_head h.ring
  cases hl : R.line.list with
  | nil =>
    rw [hl] at hring
    exact .inl ⟨rfl, hring⟩
  | cons p rest =>
    rw [hl] at hring
    exact .inr ⟨p, rest, rfl, hring⟩

/-- The position task does on the sequence what it does on the ring. -/
lemma map_stepDis (h : R.Linked) (hinv : R.line.Inv) (k : UInt32) :
    (R.stepDis k).map RingLine.line = R.line.stepDis k := by
  unfold stepDis Line.stepDis
  cases hp : R.line.pc with
  | idle => cases R.line.mbx <;> simp
  | pended e =>
    rcases h.next_head with ⟨hl, hn⟩ | ⟨p, rest, hl, hn⟩
    · simp [hl, hn]
    · simp [hl, hn]
  | notEmpty e =>
    rcases h.next_head with ⟨hl, hn⟩ | ⟨p, rest, hl, hn⟩
    · simp [hl, hn]
    · simp [hl, hn]
  | plist e p =>
    obtain ⟨rest, hl⟩ := hinv.list_eq (p := p) (by rw [hp]; rfl)
    have howner := h.owner p (by simp [hl])
    simp [howner, Line.compute]
  | computed e p => rfl
  | deleted e p r =>
    have hparray : R.parray = p := h.parray p (by rw [hp]; rfl)
    simp [hparray, Line.recycle]
  | report e r => rfl

/-- A step that leaves the list in memory and the sequence alone. -/
lemma frame (h : R.Linked) (hmem : R'.mem = R.mem) (hlist : R'.line.list = R.line.list)
    (hparray : ∀ p ∈ R'.line.pc.parray, R'.parray = p) : R'.Linked where
  ring := by
    rw [hmem, hlist]
    exact h.ring
  owner := by
    rw [hmem, hlist]
    exact h.owner
  parray := hparray

/-- A new node is linked at the end. -/
lemma linkNode (h : R.Linked) (hinv : R.line.Inv) {r : Reference} {b : Buffer}
    (hp : R.line.prod = .link r b) :
    RingLine.Linked { R with mem := R.linkNode b, line := R.line.linked r b } := by
  have hnew : NodePtr.node b ∉ NodePtr.head :: R.line.list.map .node := by
    simpa using (hinv.hand_not_mem hp).1
  refine ⟨?_, ?_, h.parray⟩
  · show ((R.mem.flush _).store _).Represents .head ((R.line.list ++ [b]).map .node)
    rw [List.map_append]
    exact (h.ring.addTail hnew).congr fun _ _ => ⟨rfl, rfl⟩
  · intro b' hb'
    show Function.update R.mem.owner (.node b) (.record b) (.node b') = .record b'
    by_cases hb : b' = b
    · rw [hb, Function.update_self]
    · rw [Function.update_of_ne (by simpa using hb)]
      refine h.owner b' ?_
      simpa [Line.linked, hb] using hb'

/-- The first node is taken out. -/
lemma delete (h : R.Linked) (hinv : R.line.Inv) {e : Event} {p : Buffer}
    (hp : R.line.pc = .computed e p) :
    RingLine.Linked { R with
      mem := R.mem.flush (R.mem.listDel .null (.node p)), line := R.line.delete e p } := by
  obtain ⟨rest, hl⟩ := hinv.list_eq (p := p) (by rw [hp]; rfl)
  have herase : (R.line.delete e p).list = rest := by
    simp [Line.delete, hl]
  have hring := h.ring
  rw [hl, List.map_cons] at hring
  refine ⟨?_, ?_, ?_⟩
  · show (R.mem.flush _).Represents .head ((R.line.delete e p).list.map .node)
    rw [herase]
    exact @ListMem.Represents.del _ _ _ _ _ [] _ hring .null
  · intro b hb
    show (R.mem.flush _).owner _ = _
    rw [ListMem.owner_flush_listDel]
    refine h.owner b ?_
    rw [hl]
    exact List.mem_cons_of_mem _ (by simpa only [herase] using hb)
  · intro q hq
    obtain rfl : p = q := by simpa [Line.delete, DisPc.parray] using hq
    exact h.parray p (by rw [hp]; rfl)

lemma stepProd (h : R.Linked) (hinv : R.line.Inv) {L : Line} (hs : R.line.stepProd = some L) :
    RingLine.Linked { R with mem := R.prodMem, line := L } := by
  rw [Line.stepProd] at hs
  rw [prodMem]
  cases hp : R.line.prod with
  | idle => simp [hp] at hs
  | produce r =>
    rw [hp] at hs
    obtain ⟨⟨b, f⟩, -, rfl⟩ := Option.map_eq_some_iff.1 hs
    exact h.frame rfl rfl h.parray
  | fill r b =>
    rw [hp] at hs
    cases hs
    exact h.frame rfl rfl h.parray
  | link r b =>
    rw [hp] at hs
    cases hs
    exact h.linkNode hinv hp

lemma stepDis (h : R.Linked) (hinv : R.line.Inv) {k : UInt32} (hs : R.stepDis k = some R') :
    R'.Linked := by
  rw [RingLine.stepDis] at hs
  cases hp : R.line.pc with
  | idle =>
    simp only [hp] at hs
    obtain ⟨L, hL, rfl⟩ := Option.map_eq_some_iff.1 hs
    simp only [Line.stepDis, hp] at hL
    split at hL
    case h_1 => cases hL
    case h_2 e rest hm =>
      cases hL
      exact h.frame rfl rfl (by simp [Line.pend, DisPc.parray])
  | pended e =>
    simp only [hp] at hs
    split at hs <;> cases hs <;> exact h.frame rfl rfl (by simp [Line.goto, DisPc.parray])
  | notEmpty e =>
    simp only [hp] at hs
    split at hs
    case h_1 =>
      cases hs
      exact h.frame rfl rfl (by simp [Line.goto, DisPc.parray])
    case h_2 => cases hs
  | plist e p =>
    obtain ⟨rest, hl⟩ := hinv.list_eq (p := p) (by rw [hp]; rfl)
    have howner := h.owner p (by simp [hl])
    simp only [hp, howner, Option.some.injEq] at hs
    subst hs
    exact h.frame rfl rfl (by simp [DisPc.parray])
  | computed e p =>
    simp only [hp] at hs
    cases hs
    exact h.delete hinv hp
  | deleted e p r =>
    simp only [hp] at hs
    cases hs
    exact h.frame rfl rfl (by simp [DisPc.parray])
  | report e r =>
    simp only [hp] at hs
    obtain ⟨L, hL, rfl⟩ := Option.map_eq_some_iff.1 hs
    simp only [Line.stepDis, hp, Option.some.injEq] at hL
    subst hL
    exact h.frame rfl rfl (by simp [Line.postReport, DisPc.parray])

end Linked

end RingLine

/-! ## The four tests -/

namespace State

variable {s s' : State} {a : Label} {l : PosList}

/-- A change of one test that leaves its list and its position task alone. -/
lemma list_pc_setLine {l₀ : PosList} {L : Line} (hlist : L.list = (s.line l₀).list)
    (hpc : L.pc = (s.line l₀).pc) :
    ((s.setLine l₀ L).line l).list = (s.line l).list ∧
      ((s.setLine l₀ L).line l).pc = (s.line l).pc := by
  by_cases hl : l = l₀
  · subst hl
    rw [line_setLine_self]
    exact ⟨hlist, hpc⟩
  · rw [line_setLine_of_ne hl]
    exact ⟨rfl, rfl⟩

lemma list_pc_event {l₀ : PosList} {st : Stamp} :
    ((s.event l₀ st).line l).list = (s.line l).list ∧
      ((s.event l₀ st).line l).pc = (s.line l).pc := by
  rw [event]
  split
  case isTrue => exact list_pc_setLine rfl rfl
  case isFalse => exact ⟨rfl, rfl⟩

/-- The lists are changed by the producers and the position tasks alone. -/
lemma list_pc_step (h : s.step a = some s') (hrecv : ∀ n, a ≠ .recv n)
    (hwrite : ∀ n, a ≠ .writeKp n) (hdis : ∀ l, a ≠ .dis l) :
    (s'.line l).list = (s.line l).list ∧ (s'.line l).pc = (s.line l).pc := by
  cases a with
  | sample count w =>
    obtain ⟨-, ⟨⟩⟩ := Option.ite_none_right_eq_some.1 h
    rw [recvSampleResult]
    split
    case isTrue => exact list_pc_setLine rfl rfl
    case isFalse =>
      split
      case isTrue => exact list_pc_setLine rfl rfl
      case isFalse => exact ⟨rfl, rfl⟩
  | posTest k =>
    obtain ⟨-, ⟨⟩⟩ := Option.ite_none_right_eq_some.1 h
    by_cases hk : item l = k <;> simp [recvPosTestCmd, hk, Line.command]
  | reset =>
    obtain ⟨-, ⟨⟩⟩ := Option.ite_none_right_eq_some.1 h
    exact ⟨rfl, rfl⟩
  | recv n => exact absurd rfl (hrecv n)
  | kick n w =>
    obtain ⟨-, ⟨⟩⟩ := Option.ite_none_right_eq_some.1 h
    exact list_pc_event
  | cmd n t =>
    obtain ⟨-, ⟨⟩⟩ := Option.ite_none_right_eq_some.1 h
    rw [command]
    split <;> exact ⟨rfl, rfl⟩
  | feedback n t =>
    obtain ⟨-, ⟨⟩⟩ := Option.ite_none_right_eq_some.1 h
    exact list_pc_event
  | isr n =>
    simp only [step, stepIsr] at h
    split at h
    case h_1 =>
      cases h
      exact ⟨rfl, rfl⟩
    case h_2 =>
      cases h
      exact list_pc_setLine rfl rfl
    case h_3 =>
      cases h
      exact list_pc_setLine rfl rfl
    case h_4 => cases h
  | writeKp n => exact absurd rfl (hwrite n)
  | dis l => exact absurd rfl (hdis l)

end State

/-- The tests with their lists in memory. -/
structure RingState where
  mem : PosList → ListMem NodePtr
  parray : PosList → Buffer
  sys : State

namespace RingState

/-- The state after start-up, with any content of the memory before. -/
def init (mem : PosList → ListMem NodePtr) (parray : PosList → Buffer)
    (memory : PosList → Buffer → PositionArray) : RingState where
  mem := fun l => (mem l).flush (initListHead .head)
  parray := parray
  sys := Position.init memory

variable (s : RingState)

/-- One test. -/
def ring (l : PosList) : RingLine where
  mem := s.mem l
  parray := s.parray l
  line := s.sys.line l

/-- Change one test. -/
def setRing (l : PosList) (R : RingLine) : RingState where
  mem := Function.update s.mem l R.mem
  parray := Function.update s.parray l R.parray
  sys := s.sys.setLine l R.line

/-- One step. -/
def step (s : RingState) : Label → Option RingState
  | .recv n => (s.ring (.c1Kt n)).stepProd.map (s.setRing (.c1Kt n))
  | .writeKp n =>
    (s.sys.stepWriteKp n).map fun y =>
      { s with mem := Function.update s.mem (.kpKft n) (s.ring (.kpKft n)).prodMem, sys := y }
  | .dis l => ((s.ring l).stepDis (item l)).map (s.setRing l)
  | a => (s.sys.step a).map fun y => { s with sys := y }

/-- Every list is in memory. -/
def Linked : Prop := ∀ l, (s.ring l).Linked

variable {s} {s' : RingState} {a : Label}

lemma Linked.init (mem : PosList → ListMem NodePtr) (parray : PosList → Buffer)
    (memory : PosList → Buffer → PositionArray) : (init mem parray memory).Linked := fun l =>
  { ring := ListMem.Represents.init NodePtr.head
    owner := by simp [RingState.ring, RingState.init, Position.init, Line.init]
    parray := by simp [RingState.ring, RingState.init, Position.init, Line.init, DisPc.parray] }

/-- A step on the rings is the step on the sequences. -/
lemma Linked.map_step (h : s.Linked) (hinv : ∀ l, (s.sys.line l).Inv) (a : Label) :
    (s.step a).map RingState.sys = s.sys.step a := by
  cases a with
  | recv n =>
    show (((s.sys.line (.c1Kt n)).stepProd.map _).map _).map RingState.sys = _
    rw [Option.map_map, Option.map_map]
    rfl
  | writeKp n =>
    show ((s.sys.stepWriteKp n).map _).map RingState.sys = s.sys.stepWriteKp n
    rw [Option.map_map]
    exact Option.map_id'
  | dis l =>
    show (((s.ring l).stepDis (item l)).map _).map RingState.sys = ((s.ring l).line.stepDis _).map _
    rw [← (h l).map_stepDis (hinv l), Option.map_map, Option.map_map]
    rfl
  | _ =>
    show ((s.sys.step _).map _).map RingState.sys = _
    rw [Option.map_map]
    exact Option.map_id'

/-- A change of one test. -/
lemma Linked.setRing (h : s.Linked) {l : PosList} {R : RingLine} (hR : R.Linked) :
    (s.setRing l R).Linked := by
  intro l'
  by_cases hl : l' = l
  · subst hl
    simpa [ring, RingState.setRing] using hR
  · have hother := h l'
    simpa [ring, RingState.setRing, hl, State.line_setLine_of_ne hl] using hother

/-- The task that stores the kick commands takes a message, or goes on with its record. -/
lemma Linked.writeKp (h : s.Linked) (hinv : ∀ l, (s.sys.line l).Inv) {n : Station} {y : State}
    (hs : s.sys.stepWriteKp n = some y) :
    Linked { s with
      mem := Function.update s.mem (.kpKft n) (s.ring (.kpKft n)).prodMem, sys := y } := by
  rw [State.stepWriteKp] at hs
  split at hs
  case h_1 => cases hs
  case h_2 t rest hp hm =>
    cases hs
    have hmem : (s.ring (.kpKft n)).prodMem = s.mem (.kpKft n) := by
      simp [RingLine.prodMem, ring, hp]
    intro l
    obtain ⟨hlist, hpc⟩ := @State.list_pc_setLine s.sys l (.kpKft n)
      ((s.sys.line (.kpKft n)).store (.kick (s.sys.kpSampleCount n + 1) t)) rfl rfl
    refine (h l).frame ?_ hlist ?_
    · show Function.update s.mem (.kpKft n) _ l = s.mem l
      rw [hmem, Function.update_eq_self]
    · intro p hpm
      refine (h l).parray p ?_
      show p ∈ (s.sys.line l).pc.parray
      rw [← hpc]
      exact hpm
  case h_3 count t b hp =>
    cases hs
    have hmem : (s.ring (.kpKft n)).prodMem = s.mem (.kpKft n) := by
      simp [RingLine.prodMem, ring, hp]
    intro l
    obtain ⟨hlist, hpc⟩ := @State.list_pc_setLine s.sys l (.kpKft n)
      ((s.sys.line (.kpKft n)).fillWith (.kick count (s.sys.kpTime n)) b) rfl rfl
    refine (h l).frame ?_ hlist ?_
    · show Function.update s.mem (.kpKft n) _ l = s.mem l
      rw [hmem, Function.update_eq_self]
    · intro p hpm
      refine (h l).parray p ?_
      show p ∈ (s.sys.line l).pc.parray
      rw [← hpc]
      exact hpm
  case h_4 =>
    obtain ⟨L, hL, rfl⟩ := Option.map_eq_some_iff.1 hs
    have hset := h.setRing (l := .kpKft n) ((h (.kpKft n)).stepProd (hinv _) hL)
    have hparray : Function.update s.parray (.kpKft n) (s.ring (.kpKft n)).parray = s.parray :=
      Function.update_eq_self ..
    simpa only [RingState.setRing, hparray] using hset

lemma Linked.step (h : s.Linked) (hinv : ∀ l, (s.sys.line l).Inv) (hs : s.step a = some s') :
    s'.Linked := by
  have hother : (∀ n, a ≠ .recv n) → (∀ n, a ≠ .writeKp n) → (∀ l, a ≠ .dis l) →
      (s.sys.step a).map (fun y => { s with sys := y }) = some s' → s'.Linked := by
    intro hrecv hwrite hdis hs
    obtain ⟨y, hy, rfl⟩ := Option.map_eq_some_iff.1 hs
    intro l
    obtain ⟨hlist, hpc⟩ := State.list_pc_step (l := l) hy hrecv hwrite hdis
    refine (h l).frame rfl hlist fun p hp => (h l).parray p ?_
    show p ∈ (s.sys.line l).pc.parray
    rw [← hpc]
    exact hp
  cases a with
  | recv n =>
    obtain ⟨R, hR, rfl⟩ := Option.map_eq_some_iff.1 hs
    obtain ⟨L, hL, rfl⟩ := Option.map_eq_some_iff.1 hR
    exact h.setRing ((h (.c1Kt n)).stepProd (hinv _) hL)
  | writeKp n =>
    obtain ⟨y, hy, rfl⟩ := Option.map_eq_some_iff.1 hs
    exact h.writeKp hinv hy
  | dis l =>
    obtain ⟨R, hR, rfl⟩ := Option.map_eq_some_iff.1 hs
    exact h.setRing ((h l).stepDis (hinv l) hR)
  | _ => exact hother (by simp) (by simp) (by simp) hs

end RingState

/-- **The rings refine the sequences**: what the tests do with their lists in memory is a run of
the tests with sequences. -/
theorem ring_refines {ok : State → Label → Prop} {mem : PosList → ListMem NodePtr}
    {parray : PosList → Buffer} {memory : PosList → Buffer → PositionArray} {s : RingState}
    (h : Reach RingState.step (fun s a => ok s.sys a) (RingState.init mem parray memory) s) :
    s.Linked ∧ Reach State.step ok (init memory) s.sys := by
  refine h.refines RingState.sys (.init mem parray memory) ?_
  intro s a s' hreach hlinked hok hs
  have hinv : ∀ l, (s.sys.line l).Inv := fun l => line_inv hreach (.init l (memory l))
  refine ⟨hlinked.step hinv hs, hok, ?_⟩
  rw [← hlinked.map_step hinv a, hs]
  rfl

/-- In every state of the four tests, the list of each is a ring in memory, its buffers are in one
place each, and its records are taken in the order in which they were stored. -/
theorem pools_conserved (mem : PosList → ListMem NodePtr) (parray : PosList → Buffer)
    (memory : PosList → Buffer → PositionArray) (s : RingState)
    (h : Reach RingState.step AnyStep (RingState.init mem parray memory) s) (l : PosList) :
    (s.mem l).Represents .head ((s.sys.line l).list.map .node) ∧ (s.sys.line l).Conserved := by
  have href : s.Linked ∧ Reach State.step AnyStep (init memory) s.sys := ring_refines h
  exact ⟨(href.1 l).ring, (line_inv href.2 (.init l (memory l))).toConserved⟩

/-- Test 2 is selected; two samples are stored, and a product passes before the second. -/
def twoSamples : List Label :=
  [.posTest 2, .sample 1 100, .recv .one, .recv .one, .kick .one 250, .isr .one, .dis (.c1Kt .one),
    .dis (.c1Kt .one), .dis (.c1Kt .one), .sample 2 200, .recv .one, .recv .one,
    .dis (.c1Kt .one), .dis (.c1Kt .one)]

/-- The state after start-up, in memory with every byte zero. -/
def zeroRings : RingState :=
  .init (fun _ => { next := fun _ => .null, prev := fun _ => .null, owner := fun _ => .null })
    (fun _ => 0) zeroMemory

def afterTwoSamples : RingState := (exec RingState.step zeroRings twoSamples).getD zeroRings

theorem pools_conserved_twoSamples :
    (afterTwoSamples.mem (.c1Kt .one)).Represents .head
        ((afterTwoSamples.sys.line (.c1Kt .one)).list.map .node) ∧
      (afterTwoSamples.sys.line (.c1Kt .one)).Conserved :=
  pools_conserved _ _ zeroMemory afterTwoSamples
    (show Reach RingState.step AnyStep zeroRings afterTwoSamples from
      reach_any twoSamples (exec_getD (by decide +kernel) _)) (.c1Kt .one)

end RejectProcess.Position
