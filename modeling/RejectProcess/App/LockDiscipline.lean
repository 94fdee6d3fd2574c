import RejectProcess.App.Threads

/-!
# The lock discipline of the program

A task locks a list before a factory, and nothing after a factory.
-/

namespace RejectProcess.Threads

open Lib Publish

/-- The order in which a task locks. -/
def rank : Mutex → ℕ
  | .list _ => 0
  | .factory _ => 1
  | .msgFactory => 1

/-- The mutexes that a function may be called with: only `buf_factory_recycle` is called with one,
by the functions that walk a list of samples. -/
def entry : Fn → Set Mutex → Prop
  | .bufFactoryRecycle p, H => H = ∅ ∨ p = .c1Sample ∧ ∃ n, H = {.list (.sample n)}
  | _, H => H = ∅

/-- A statement keeps the discipline. -/
abbrev Keeps (p : Code) : (Set Mutex → Prop) → (Jump → Set Mutex → Prop) → Set Mutex → Prop :=
  p.wp rank entry

variable {N : Set Mutex → Prop} {K : Jump → Set Mutex → Prop} {H : Set Mutex}

/-! ## The statements -/

lemma keeps_cons {p : Code} {ps : List Code} (h : Keeps p (Keeps (.block ps) N K) K H) :
    Keeps (.block (p :: ps)) N K H := h

lemma keeps_ite {p q : Code} (hp : Keeps p N K H) (hq : Keeps q N K H) :
    Keeps (.ite p q) N K H := ⟨hp, hq⟩

lemma keeps_wait {w : Blocking} (hN : N ∅) : Keeps (.wait w) N K ∅ := ⟨rfl, hN⟩

lemma keeps_lock {m : Mutex} (hN : N {m}) : Keeps (.lock m) N K ∅ := by
  refine ⟨by simp, ?_⟩
  rwa [insert_empty_eq]

lemma keeps_unlock {m : Mutex} (hN : N ∅) : Keeps (.unlock m) N K {m} := by
  refine ⟨Set.mem_singleton m, ?_⟩
  rwa [Set.sdiff_self]

lemma keeps_target {j : Jump} {p : Code} (h : Keeps p N (Function.update K j N) H) :
    Keeps (.target j p) N K H := h

lemma keeps_forever {p : Code} (h : Keeps p (· = H) K H) : Keeps (.forever p) N K H := h

lemma keeps_jump {j : Jump} (h : K j H) : Keeps (.jump j) N K H := h

lemma keeps_fn {f : Fn} {body : List Code} (he : entry f H)
    (h : Keeps (.block body) (fun H' => H' = H ∧ N H')
      (Function.update (fun _ _ => False) .ret fun H' => H' = H ∧ N H') H) :
    Keeps (fn f body) N K H := ⟨he, h⟩

lemma keeps_ifThen {body : List Code} (h : Keeps (.block body) N K H) (hN : N H) :
    Keeps (ifThen body) N K H := ⟨h, hN⟩

lemma keeps_error (hN : N H) : Keeps (ifThen [.exit]) N K H := ⟨trivial, hN⟩

lemma keeps_whileTest {body : List Code} (hN : N H)
    (h : Keeps (.block body) (· = H)
      (Function.update (Function.update K .brk N) .cont (· = H)) H) :
    Keeps (whileTest body) N K H := ⟨hN, h⟩

lemma keeps_whileOne {body : List Code}
    (h : Keeps (.block body) (· = H)
      (Function.update (Function.update K .brk N) .cont (· = H)) H) :
    Keeps (whileOne body) N K H := h

lemma keeps_bufFactoryRecycle {p : Publish.Pool} (he : entry (.bufFactoryRecycle p) H) (hN : N H) :
    Keeps (bufFactoryRecycle p) N K H := by
  refine keeps_fn he ?_
  -- the factory ranks above a list, and is not held
  have hr : ∀ m ∈ H, rank m < rank (.factory p) := by
    rcases he with rfl | ⟨rfl, n, rfl⟩ <;> simp [rank]
  have hfree : .factory p ∉ H := fun hm => lt_irrefl _ (hr _ hm)
  refine ⟨hr, Set.mem_insert _ _, ?_⟩
  rw [Set.insert_sdiff_self_of_notMem hfree]
  exact ⟨rfl, hN⟩

lemma keeps_bufFactoryProduce {p : Publish.Pool} (hN : N ∅) :
    Keeps (bufFactoryProduce p) N K ∅ := by
  refine keeps_fn rfl (keeps_cons (keeps_lock (keeps_cons (keeps_error ?_))))
  refine keeps_cons (keeps_unlock (keeps_cons (keeps_jump ?_)))
  rw [Function.update_self]
  exact ⟨rfl, hN⟩

lemma keeps_msgFactoryProduce (hN : N ∅) : Keeps msgFactoryProduce N K ∅ := by
  refine keeps_fn rfl (keeps_cons (keeps_lock (keeps_cons (keeps_error ?_))))
  refine keeps_cons (keeps_unlock (keeps_cons (keeps_jump ?_)))
  rw [Function.update_self]
  exact ⟨rfl, hN⟩

/-- With no callback there is nothing between lock and unlock. -/
lemma keeps_msgFactoryRecycle (hN : N ∅) : Keeps (msgFactoryRecycle .null) N K ∅ := by
  refine keeps_fn rfl (keeps_cons (keeps_lock (keeps_cons ?_)))
  have hunlock : Keeps (.block [.unlock .msgFactory]) (fun H' => H' = ∅ ∧ N H')
      (Function.update (fun _ _ => False) .ret fun H' => H' = ∅ ∧ N H') {.msgFactory} :=
    keeps_cons (keeps_unlock ⟨rfl, hN⟩)
  simpa [Callbacks.null, payloadNumMax, ifThen, Stmt.wp] using hunlock

lemma keeps_mailboxPend {b : Mailbox} (hN : N ∅) : Keeps (mailboxPend b) N K ∅ :=
  keeps_cons (keeps_wait (keeps_cons (keeps_error hN)))

lemma keeps_mailboxPost {b : Mailbox} (hN : N ∅) : Keeps (mailboxPost b) N K ∅ :=
  keeps_cons (keeps_wait (keeps_cons (keeps_error hN)))

lemma keeps_send {b : Mailbox} (hN : N ∅) : Keeps (send b) N K ∅ :=
  keeps_cons (keeps_msgFactoryProduce (keeps_cons (keeps_mailboxPost hN)))

/-- A search leaves its loop with the list still locked, and unlocks it on both ways out. -/
lemma keeps_searchList {f : Fn} {n : Station} (he : entry f ∅) (hN : N ∅) :
    Keeps (fn f (searchList n)) N K ∅ := by
  refine keeps_fn he (keeps_cons (keeps_lock (keeps_cons (keeps_whileTest ?_ ?_))))
  · refine keeps_cons (keeps_unlock (keeps_cons (keeps_jump ?_)))
    rw [Function.update_self]
    exact ⟨rfl, hN⟩
  · refine keeps_cons (keeps_ifThen ?_ rfl)
    refine keeps_cons (keeps_bufFactoryRecycle (.inr ⟨rfl, n, rfl⟩) (keeps_cons ?_))
    refine keeps_unlock (keeps_cons (keeps_jump ?_))
    simpa using hN

lemma keeps_searchCountArray (hN : N ∅) : Keeps searchCountArray N K ∅ := keeps_searchList rfl hN

lemma keeps_searchWheelcodeArray {pos : UInt32} (hN : N ∅) :
    Keeps (searchWheelcodeArray pos) N K ∅ := keeps_searchList rfl hN

lemma keeps_addTail {l : SList} (hN : N ∅) : Keeps (addTail l) N K ∅ :=
  keeps_cons (keeps_lock (keeps_cons (keeps_unlock hN)))

lemma keeps_writeArray (hN : N ∅) : Keeps writeArray N K ∅ := by
  have hret : (fun H' => H' = ∅ ∧ N H') ∅ := ⟨rfl, hN⟩
  refine keeps_fn rfl (keeps_cons (keeps_ifThen ?_ hret))
  refine keeps_cons (keeps_bufFactoryProduce (keeps_cons (keeps_ite (keeps_addTail hret) ?_)))
  exact keeps_ifThen (keeps_cons (keeps_addTail hret)) hret

/-- `clear_array` gives buffers back with one list locked. -/
lemma keeps_clearList {n : Station} (hN : N ∅) : Keeps (clearList n) N K ∅ := by
  refine keeps_cons (keeps_lock (keeps_cons (keeps_whileTest ?_ ?_)))
  · exact keeps_cons (keeps_unlock hN)
  · exact keeps_cons (keeps_bufFactoryRecycle (.inr ⟨rfl, n, rfl⟩) rfl)

lemma keeps_clearArray (hN : N ∅) : Keeps clearArray N K ∅ :=
  keeps_fn rfl (keeps_cons (keeps_clearList (keeps_cons (keeps_clearList ⟨rfl, hN⟩))))

/-! ## The tasks -/

lemma keeps_trig1SearchTsk : Keeps trig1SearchTsk N K ∅ := by
  have hrest : Keeps (.block [msgFactoryRecycle .null]) (· = ∅)
      (Function.update (Function.update K .brk N) .cont (· = ∅)) ∅ :=
    keeps_cons (keeps_msgFactoryRecycle rfl)
  refine keeps_whileOne (keeps_cons (keeps_mailboxPend (keeps_cons ?_)))
  exact keeps_ite (keeps_searchCountArray hrest) (keeps_searchWheelcodeArray hrest)

lemma keeps_trig2SearchTsk : Keeps trig2SearchTsk N K ∅ := by
  refine keeps_whileOne (keeps_cons (keeps_mailboxPend (keeps_cons ?_)))
  exact keeps_searchWheelcodeArray (keeps_cons (keeps_msgFactoryRecycle rfl))

lemma keeps_disTsk {b : Mailbox} {l : PosList} : Keeps (disTsk b l) N K ∅ := by
  have hrest : Keeps (.block [msgFactoryRecycle .null, send .localMbx]) (· = ∅)
      (Function.update (Function.update K .brk N) .cont (· = ∅)) ∅ :=
    keeps_cons (keeps_msgFactoryRecycle (keeps_cons (keeps_send rfl)))
  refine keeps_whileOne (keeps_cons (keeps_mailboxPend (keeps_cons (keeps_ite hrest ?_))))
  refine keeps_cons (keeps_lock (keeps_cons (keeps_unlock (keeps_cons ?_))))
  exact keeps_bufFactoryRecycle (.inl rfl) hrest

lemma keeps_writeKpArrayTsk {n : Station} : Keeps (writeKpArrayTsk n) N K ∅ := by
  refine keeps_whileOne (keeps_cons (keeps_mailboxPend (keeps_cons ?_)))
  refine keeps_bufFactoryProduce (keeps_cons (keeps_addTail (keeps_cons ?_)))
  exact keeps_msgFactoryRecycle rfl

lemma keeps_isrLoop {n : Station} (hN : N ∅) : Keeps (isrLoop n) N K ∅ := by
  set K' := Function.update (Function.update K .brk N) .cont (· = (∅ : Set Mutex))
  have hfeedback : Keeps (.block [ifThen [ifThen [send (.posKft n)]]]) (· = ∅) K' ∅ :=
    keeps_cons (keeps_ifThen (keeps_cons (keeps_ifThen (keeps_cons (keeps_send rfl)) rfl)) rfl)
  have hcmd : Keeps (.block [ifThen [ifThen [send (.posKp n)]],
      ifThen [ifThen [send (.posKft n)]]]) (· = ∅) K' ∅ :=
    keeps_cons (keeps_ifThen (keeps_cons (keeps_ifThen (keeps_cons (keeps_send hfeedback))
      hfeedback)) hfeedback)
  refine keeps_whileTest hN (keeps_cons (keeps_ifThen (keeps_cons (keeps_send ?_)) hcmd))
  exact keeps_cons (keeps_ifThen (keeps_cons (keeps_send hcmd)) hcmd)

lemma keeps_kick1IsrTsk : Keeps kick1IsrTsk N K ∅ := by
  refine keeps_whileOne (keeps_cons (keeps_wait (keeps_cons (keeps_ifThen (keeps_cons ?_) rfl))))
  exact keeps_ifThen (keeps_cons (keeps_isrLoop rfl)) rfl

lemma keeps_kick2IsrTsk : Keeps kick2IsrTsk N K ∅ := by
  refine keeps_whileOne (keeps_cons (keeps_wait (keeps_cons (keeps_ifThen (keeps_cons ?_) rfl))))
  exact keeps_isrLoop rfl

lemma keeps_recvHandshakeCmd (hN : N ∅) : Keeps recvHandshakeCmd N K ∅ :=
  keeps_fn rfl (keeps_cons (keeps_send ⟨rfl, hN⟩))

lemma keeps_recvResetCmd (hN : N ∅) : Keeps recvResetCmd N K ∅ :=
  keeps_fn rfl (keeps_cons (keeps_clearArray (keeps_cons (keeps_send ⟨rfl, hN⟩))))

lemma keeps_recvPosition {n : Station} (hN : N ∅) : Keeps (recvPosition n) N K ∅ :=
  keeps_cons (keeps_bufFactoryProduce (keeps_cons (keeps_addTail hN)))

lemma keeps_recvSampleResult (hN : N ∅) : Keeps recvSampleResult N K ∅ := by
  have hret : (fun H' => H' = ∅ ∧ N H') ∅ := ⟨rfl, hN⟩
  refine keeps_fn rfl (keeps_cons (keeps_writeArray (keeps_cons ?_)))
  refine keeps_ite (keeps_recvPosition hret) ?_
  exact keeps_ifThen (keeps_cons (keeps_recvPosition hret)) hret

lemma keeps_localCmdAnalyze (hN : N ∅) : Keeps localCmdAnalyze N K ∅ := by
  have hret : (fun H' => H' = ∅ ∧ N H') ∅ := ⟨rfl, hN⟩
  have hpos : Keeps recvPosTestCmd (fun H' => H' = ∅ ∧ N H')
      (Function.update (fun _ _ => False) .ret fun H' => H' = ∅ ∧ N H') ∅ :=
    keeps_fn rfl ⟨rfl, hret⟩
  refine keeps_fn rfl (keeps_cons (keeps_ite (keeps_recvHandshakeCmd hret) ?_))
  refine keeps_ite (keeps_recvResetCmd hret) (keeps_ite (keeps_recvSampleResult hret) ?_)
  exact keeps_ifThen (keeps_cons hpos) hret

lemma keeps_localConnectTsk : Keeps localConnectTsk N K ∅ := by
  refine keeps_whileOne (keeps_cons (keeps_wait (keeps_cons (keeps_ifThen ?_ ?_))))
  · refine keeps_cons (keeps_jump ?_)
    rw [Function.update_self]
  · refine keeps_cons (keeps_whileOne (keeps_cons (keeps_wait (keeps_cons ?_))))
    refine keeps_ite (keeps_wait rfl) (keeps_jump ?_)
    simp

lemma keeps_localSendTsk : Keeps localSendTsk N K ∅ := by
  refine keeps_whileOne (keeps_cons (keeps_mailboxPend (keeps_cons (keeps_ifThen ?_ ?_))))
  · refine keeps_cons (keeps_msgFactoryRecycle (keeps_cons (keeps_jump ?_)))
    rw [Function.update_self]
  · have hrecycle : Keeps (.block [msgFactoryRecycle .null]) (· = ∅)
        (Function.update (Function.update K .brk N) .cont (· = ∅)) ∅ :=
      keeps_cons (keeps_msgFactoryRecycle rfl)
    refine keeps_cons (keeps_target (keeps_whileTest hrecycle (keeps_cons ?_)))
    refine keeps_whileTest rfl (keeps_cons (keeps_wait (keeps_cons (keeps_ifThen ?_ rfl))))
    refine keeps_cons (keeps_jump ?_)
    simpa using hrecycle

/-- Both loops may end with a jump to `revReconnect`, from where it starts again. -/
lemma keeps_recvLoop (hN : N ∅) (hK : K .revReconnect ∅) : Keeps recvLoop N K ∅ := by
  refine keeps_whileTest hN (keeps_cons (keeps_wait (keeps_cons (keeps_ifThen ?_ rfl))))
  refine keeps_cons (keeps_jump ?_)
  simpa using hK

lemma keeps_localRecvTsk : Keeps localRecvTsk N K ∅ := by
  refine keeps_forever (keeps_target (keeps_cons (keeps_wait (keeps_cons (keeps_whileOne ?_)))))
  refine keeps_cons (keeps_recvLoop (keeps_cons (keeps_recvLoop (keeps_cons ?_) ?_)) ?_)
  · exact keeps_localCmdAnalyze rfl
  · simp
  · simp

/-! ## The program -/

lemma keeps_program (t : Task) : Keeps (program t) (· = ∅) (fun _ _ => False) ∅ := by
  cases t with
  | localConnect => exact keeps_localConnectTsk
  | localSend => exact keeps_localSendTsk
  | localRecv => exact keeps_localRecvTsk
  | kickIsr n =>
    cases n
    · exact keeps_kick1IsrTsk
    · exact keeps_kick2IsrTsk
  | trigSearch n =>
    cases n
    · exact keeps_trig1SearchTsk
    · exact keeps_trig2SearchTsk
  | disC1Kt n => cases n <;> exact keeps_disTsk
  | disKpKft n => cases n <;> exact keeps_disTsk
  | writeKpArray n => exact keeps_writeKpArrayTsk

/-- The functions that the discipline names. -/
def Fn.Listed : Fn → Prop
  | .searchCountArray | .searchWheelcodeArray | .writeArray | .clearArray => True
  | .bufFactoryProduce _ | .bufFactoryRecycle _ | .msgFactoryProduce | .msgFactoryRecycle => True
  | _ => False

/-- The lock discipline, where `left f H` says what a function called with the mutexes `H` held
leaves its task with. -/
structure Disciplined (left : Fn → Set Mutex → Set Mutex) (s : State) : Prop where
  /-- No task waits for a mutex it holds. -/
  noSelfWait : ∀ t m, s.Wants t m → s.owner m ≠ some t
  /-- No mutexes, and no tasks, wait for each other in a cycle. -/
  noMutexCycle : ∀ m, ¬ Relation.TransGen s.WaitsBehind m m
  noTaskCycle : ∀ t, ¬ Relation.TransGen s.WaitsFor t t
  /-- No task waits for anything else with a mutex held. -/
  noBlock : ∀ t w, (s.task t).stmt = .wait w → s.held t = ∅
  /-- Where a function returns, its task holds the mutexes it has to. -/
  returns : ∀ t f H k, f.Listed → s.task t = ⟨.skip, .call f H k⟩ → s.held t = left f H

/-- Every function leaves its task with no mutex held, but `buf_factory_recycle`, which leaves
those its caller had. -/
def left : Fn → Set Mutex → Set Mutex
  | .bufFactoryRecycle _, H => H
  | _, _ => ∅

/-- The tasks keep the lock discipline, in every state of every interleaving. -/
theorem lock_discipline (s : State) (hr : Reach LockState.step AnyStep (.init program) s) :
    Disciplined left s := by
  have hok : s.Ok rank entry := (LockState.ok_init keeps_program).reach hr
  refine ⟨fun t m => hok.not_owner, hok.not_behind, hok.not_waitsFor, fun t w => hok.held_of_wait,
    ?_⟩
  intro t f H k _ hret
  obtain ⟨hheld, hentry⟩ := hok.held_of_return hret
  cases f with
  | bufFactoryRecycle p => exact hheld
  | _ => exact hheld.trans hentry

/-- `trig1_search_tsk` gets a message and searches the first list by count: its first record
matches, and `buf_factory_recycle` is about to return. -/
def matchRun : List (Task × Bool) :=
  (List.replicate 8 true ++ false :: List.replicate 25 true).map fun b => (.trigSearch .one, b)

def matchState : State := (exec LockState.step (.init program) matchRun).getD (.init program)

lemma matchState_reach : Reach LockState.step AnyStep (.init program) matchState :=
  reach_any matchRun (exec_getD rfl _)

theorem lock_discipline_match :
    Disciplined left matchState ∧
      matchState.owner (.list (.sample .one)) = some (.trigSearch .one) :=
  ⟨lock_discipline matchState matchState_reach, rfl⟩

/-- `buf_factory_recycle` returns into a search with the mutex of the list held. -/
theorem recycle_returns_locked : ¬ ∀ s : State, Reach LockState.step AnyStep (.init program) s →
    Disciplined (fun _ _ => ∅) s := by
  intro h
  obtain ⟨H, k, hret⟩ : ∃ H k, matchState.task (.trigSearch .one) =
      ⟨.skip, .call (.bufFactoryRecycle .c1Sample) H k⟩ := ⟨_, _, rfl⟩
  have hheld := (h matchState matchState_reach).returns
    (.trigSearch .one) (.bufFactoryRecycle .c1Sample) H k trivial hret
  have howner : .list (.sample .one) ∈ matchState.held (.trigSearch .one) :=
    show matchState.owner _ = _ from rfl
  rw [hheld] at howner
  exact howner

end RejectProcess.Threads
