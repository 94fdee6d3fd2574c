import RejectProcess.Lib.Run
import RejectProcess.Sample.Pool
import RejectProcess.Tool.ListHead

/-!
# The sample lists, store by store

The tasks that put records into the six sample lists and take them out, with every load and
store of a `struct list_head` a step of its own.  A locked region is bounded by its two mutex
operations, and the buffer factories, which have a mutex of their own, hand out and take back
in one step.

Some components of the state are a history that the program does not have: the records of each
list in order, and what the consumers have read.  No step reads them to decide what to do.
-/

namespace RejectProcess.Publish

open Lib

/-- The lists of the position tests, by the task that consumes them. -/
inductive PosList
  /-- `g_c1_kt1_list` and `g_c1_kt2_list`. -/
  | c1Kt (n : Station)
  /-- `g_kp1_kft1_list` and `g_kp2_kft2_list`. -/
  | kpKft (n : Station)
deriving DecidableEq, Repr

/-- The six sample lists. -/
inductive SList
  /-- `g_k1_sample_list` and `g_k2_sample_list`. -/
  | sample (n : Station)
  | pos (l : PosList)
deriving DecidableEq, Repr

/-- The buffer factories of the lists: the two `SampleArray` lists share one. -/
inductive Pool
  | c1Sample
  | pos (l : PosList)
deriving DecidableEq, Repr

/-- The factory of a list. -/
def SList.pool : SList → Pool
  | .sample _ => .c1Sample
  | .pos l => .pos l

/-- A buffer, by its factory and its index in `buf_array`, and the `SampleArray` or
`PositionArray` in its memory. -/
structure Rec where
  pool : Pool
  idx : ℕ
deriving DecidableEq, Repr

/-- A pointer. -/
inductive Ptr
  | null
  /-- The head of a list. -/
  | head (l : SList)
  /-- The `node` of a record. -/
  | node (r : Rec)
  | record (r : Rec)
  | wild (x : ℕ)
deriving DecidableEq, Repr

/-- The tasks. -/
inductive Task
  /-- `local_recv_tsk`, in `recv_sample_result` or `clear_array`. -/
  | recv
  /-- `write_kp1_array_tsk` and `write_kp2_array_tsk`. -/
  | writeKp (n : Station)
  /-- `trig1_search_tsk` and `trig2_search_tsk`, in a search function. -/
  | trig (n : Station)
  /-- The position task of a list. -/
  | dis (l : PosList)
deriving DecidableEq, Repr

/-- The stores of a list operation that are still to be made. -/
abbrev Stores := List (ListStore Ptr)

/-- Where a task stands, with its local variables: `r` is the buffer in hand, `p` the node a
consumer looks at and `q` its `parray`. -/
inductive Pc
  | idle
  -- a producer; `write_array` has no list for an unknown `pos`
  | produce (l : Option SList)
  /-- Before `parray->buf = buf`. -/
  | fill (l : Option SList) (r : Rec)
  | lockAdd (l : SList) (r : Rec)
  | add (l : SList) (r : Rec)
  | link (l : SList) (r : Rec) (sts : Stores)
  /-- In `write_array`, before `parray->node.owner = parray`. -/
  | own (r : Rec)
  | unlockAdd (l : SList)
  /-- In `recv_sample_result`, before the test of `pos_test_item`. -/
  | posPart
  -- `clear_array`
  | lockClear (n : Station)
  | firstClear (n : Station)
  | atClear (n : Station) (p : Ptr)
  | gotClear (n : Station) (p q : Ptr)
  | nextClear (n : Station) (p : Ptr)
  | initClear (n : Station) (sts : Stores)
  -- `search_count_array` and `search_wheelcode_array`
  | first (n : Station)
  | look (n : Station) (p : Ptr)
  | got (n : Station) (p q : Ptr)
  | del (n : Station) (q : Ptr) (sts : Stores)
  | unlock (n : Station)
  -- a position task
  | notEmpty (l : PosList)
  | plist (l : PosList) (p : Ptr)
  | gotDis (l : PosList) (p q : Ptr)
  | lockedDis (l : PosList) (p q : Ptr)
  | delDis (l : PosList) (q : Ptr) (sts : Stores)
  | recycleDis (l : PosList) (q : Ptr)
deriving DecidableEq, Repr

/-- History: a consumer has read the value `q` of `p->owner`. -/
structure OwnerRead where
  p : Ptr
  q : Ptr
deriving DecidableEq, Repr

/-- The owner is the record that contains the node. -/
def OwnerRead.Complete (x : OwnerRead) : Prop := ∃ r, x.p = .node r ∧ x.q = .record r

/-- The state of the tasks and of what they share.  History: `seq l` are the records in list
`l`, behind the ones that `clear_array` has already returned to the factory, `cleared l`. -/
structure State where
  mem : ListMem Ptr
  buf : Ptr → Option Rec
  free : Pool → List Rec
  lock : SList → Option Task
  pc : Task → Pc
  seq : SList → List Rec
  cleared : SList → List Rec
  reads : List OwnerRead

/-- What a step gets from outside. -/
structure Env where
  /-- A reset frame, and not a sample frame, reaches the receive task. -/
  reset : Bool
  /-- `pos` of the sample frame. -/
  pos : ℕ
  /-- `pos_test_item` when it is read. -/
  item : ℕ
  /-- The sample at hand is the one a search looks for. -/
  hit : Bool

/-- A task takes its next step. -/
structure Label where
  task : Task
  env : Env

/-- The state after start-up, when the memory is as `malloc` has left it. -/
def init (mem : ListMem Ptr) (buf : Ptr → Option Rec) : State where
  mem :=
    { next := fun p => match p with | .head l => .head l | p => mem.next p
      prev := fun p => match p with | .head l => .head l | p => mem.prev p
      owner := fun p => match p with | .head l => .head l | p => mem.owner p }
  buf := buf
  free := fun P => (List.range 128).map fun k => ⟨P, k⟩
  lock := fun _ => none
  pc := fun _ => .idle
  seq := fun _ => []
  cleared := fun _ => []
  reads := []

namespace State

variable (s : State)

/-- Task `t` goes on. -/
def goto (t : Task) (pc : Pc) : State := { s with pc := Function.update s.pc t pc }

/-- `pthread_mutex_lock`. -/
def lockBy (l : SList) (t : Task) (pc : Pc) : Option State :=
  match s.lock l with
  | none => some { s.goto t pc with lock := Function.update s.lock l (some t) }
  | some _ => none

/-- `pthread_mutex_unlock`. -/
def unlockBy (l : SList) (t : Task) (pc : Pc) : State :=
  { s.goto t pc with lock := Function.update s.lock l none }

/-- A store by task `t`. -/
def storeBy (st : ListStore Ptr) (t : Task) (pc : Pc) : State :=
  { s.goto t pc with mem := s.mem.store st }

/-- `parray->node.owner = parray`. -/
def setOwner (r : Rec) (t : Task) (pc : Pc) : State :=
  s.storeBy ⟨.owner, .node r, .record r⟩ t pc

/-- A consumer reads `p->owner`. -/
def readOwner (p : Ptr) (t : Task) (pc : Pc) : State :=
  { s.goto t pc with reads := ⟨p, s.mem.owner p⟩ :: s.reads }

/-- `buf_factory_produce`.  `none` is `ERROR("buf factory crash !")`. -/
def produce (P : Pool) (t : Task) (pc : Rec → Pc) : Option State :=
  match s.free P with
  | [] => none
  | r :: rest => some { s.goto t (pc r) with free := Function.update s.free P rest }

/-- `buf_factory_recycle(0, parray->buf, ..)`. -/
def recycle (P : Pool) (q : Ptr) (t : Task) (pc : Pc) : Option State :=
  (s.buf q).map fun r =>
    { s.goto t pc with free := Function.update s.free P (s.free P ++ [r]) }

/-- `parray->buf = buf`. -/
def setBuf (r : Rec) (t : Task) (pc : Pc) : State :=
  { s.goto t pc with buf := Function.update s.buf (.record r) (some r) }

/-- The call of `list_add_tail`. -/
def callAddTail (l : SList) (r : Rec) (t : Task) : State :=
  { s.goto t (.link l r (s.mem.listAddTail (.node r) (.head l))) with
    seq := Function.update s.seq l (s.seq l ++ [r]) }

/-- The call of `list_del`. -/
def callDel (l : SList) (p : Ptr) (t : Task) (pc : Stores → Pc) : State :=
  { s.goto t (pc (s.mem.listDel .null p)) with
    seq := Function.update s.seq l ((s.seq l).filter fun r => Ptr.node r != p) }

/-- The call of `init_list_head`. -/
def callInit (n : Station) (t : Task) : State :=
  { s.goto t (.initClear n (initListHead (.head (.sample n)))) with
    seq := Function.update s.seq (.sample n) []
    cleared := Function.update s.cleared (.sample n) [] }

/-- `clear_array` is about to return the first record. -/
def markCleared (n : Station) : State :=
  { s with
    seq := Function.update s.seq (.sample n) ((s.seq (.sample n)).drop 1)
    cleared := Function.update s.cleared (.sample n)
      (s.cleared (.sample n) ++ (s.seq (.sample n)).take 1) }

/-- A task is called: a frame has been received, or a message taken from its mailbox. -/
def call (t : Task) (e : Env) : Option State :=
  match t with
  | .recv =>
    if e.reset then some (s.goto t (.lockClear .one))
    else
      match e.pos with
      | 0 => some (s.goto t .posPart)
      | 1 => some (s.goto t (.produce (some (.sample .one))))
      | 2 => some (s.goto t (.produce (some (.sample .two))))
      | _ => some (s.goto t (.produce none))
  | .writeKp n => some (s.goto t (.produce (some (.pos (.kpKft n)))))
  | .trig n => s.lockBy (.sample n) t (.first n)
  | .dis l =>
    -- `list_empty`
    if s.mem.next (.head (.pos l)) = .head (.pos l) then some s
    else some (s.goto t (.notEmpty l))

/-- One step of a producer. -/
def stepProducer (t : Task) (e : Env) : Pc → Option State
  | .produce none => s.produce .c1Sample t (.fill none)
  | .produce (some l) => s.produce l.pool t (.fill (some l))
  | .fill none r => some (s.setBuf r t (.own r))
  | .fill (some l) r => some (s.setBuf r t (.lockAdd l r))
  | .lockAdd l r => s.lockBy l t (.add l r)
  | .add l r => some (s.callAddTail l r t)
  | .link l r (st :: sts) => some (s.storeBy st t (.link l r sts))
  -- `write_array` unlocks before it assigns the owner, the others after
  | .link (.sample n) r [] => some (s.unlockBy (.sample n) t (.own r))
  | .link (.pos l) r [] => some (s.setOwner r t (.unlockAdd (.pos l)))
  | .own r => some (s.setOwner r t .posPart)
  | .unlockAdd l => some (s.unlockBy l t .idle)
  | .posPart =>
    match e.item with
    | 2 => some (s.goto t (.produce (some (.pos (.c1Kt .one)))))
    | 4 => some (s.goto t (.produce (some (.pos (.c1Kt .two)))))
    | _ => some (s.goto t .idle)
  | _ => none

/-- One step of `clear_array`. -/
def stepClear (t : Task) : Pc → Option State
  | .lockClear n => s.lockBy (.sample n) t (.firstClear n)
  | .firstClear n => some (s.goto t (.atClear n (s.mem.next (.head (.sample n)))))
  | .atClear n p =>
    if p = .head (.sample n) then some (s.callInit n t)
    else some (s.readOwner p t (.gotClear n p (s.mem.owner p)))
  | .gotClear n p q => (s.markCleared n).recycle .c1Sample q t (.nextClear n p)
  | .nextClear n p => some (s.goto t (.atClear n (s.mem.next p)))
  | .initClear n (st :: sts) => some (s.storeBy st t (.initClear n sts))
  | .initClear .one [] => some (s.unlockBy (.sample .one) t (.lockClear .two))
  | .initClear .two [] => some (s.unlockBy (.sample .two) t .idle)
  | _ => none

/-- One step of a search function. -/
def stepSearch (t : Task) (e : Env) : Pc → Option State
  | .first n => some (s.goto t (.look n (s.mem.next (.head (.sample n)))))
  | .look n p =>
    if p = .head (.sample n) then some (s.unlockBy (.sample n) t .idle)
    else some (s.readOwner p t (.got n p (s.mem.owner p)))
  | .got n p q =>
    if e.hit then some (s.callDel (.sample n) p t (.del n q))
    else some (s.goto t (.look n (s.mem.next p)))
  | .del n q (st :: sts) => some (s.storeBy st t (.del n q sts))
  | .del n q [] => s.recycle .c1Sample q t (.unlock n)
  | .unlock n => some (s.unlockBy (.sample n) t .idle)
  | _ => none

/-- One step of a position task. -/
def stepDis (t : Task) : Pc → Option State
  | .notEmpty l => some (s.goto t (.plist l (s.mem.next (.head (.pos l)))))
  | .plist l p => some (s.readOwner p t (.gotDis l p (s.mem.owner p)))
  | .gotDis l p q => s.lockBy (.pos l) t (.lockedDis l p q)
  | .lockedDis l p q => some (s.callDel (.pos l) p t (.delDis l q))
  | .delDis l q (st :: sts) => some (s.storeBy st t (.delDis l q sts))
  | .delDis l q [] => some (s.unlockBy (.pos l) t (.recycleDis l q))
  | .recycleDis l q => s.recycle (.pos l) q t .idle
  | _ => none

/-- One step. -/
def step (s : State) (a : Label) : Option State :=
  match s.pc a.task with
  | .idle => s.call a.task a.env
  | pc =>
    s.stepProducer a.task a.env pc <|> s.stepClear a.task pc <|> s.stepSearch a.task a.env pc <|>
      s.stepDis a.task pc

end State

end RejectProcess.Publish
