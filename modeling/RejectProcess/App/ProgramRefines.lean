import RejectProcess.App.Handlers
import RejectProcess.Sample.PositionPool

/-!
# The parts of the process

Every run of the process is, seen at one of its parts, a run of that part.  The tasks around the
sample lists and the position tests are given the requests in the order in which the client has sent
them, and what is posted to the send task are the replies and the reports.
-/

namespace RejectProcess

open Lib Position
open Publish (PosList)

namespace Order

/-- What the client is answered. -/
def reply (version : Vector UInt8 32) : Order → Option LocalMsg
  | .handshake => some (.handshake version)
  | .reset => some .reset
  | _ => none

end Order

/-- The report of a test in a message. -/
def LocalMsg.reportOf (l : PosList) : LocalMsg → Option (UInt32 × UInt32)
  | .posReport i dis => if i = item l then some (i, dis) else none
  | _ => none

namespace Program

variable {cfg : SysConfig} {version : Vector UInt8 32} {p p' : Program} {a : Label}

/-- What the calls of `local_cmd_analyze` are for. -/
def orders (p : Program) : List Order := p.link.recv.analyzed.map SrvCmd.order

/-- The number of calls that have been entered. -/
def entered (p : Program) : ℕ := p.handled + if p.handler = .idle then 0 else 1

/-- The number of calls that the position tests have had. -/
def tested (p : Program) : ℕ :=
  p.handled +
    match p.handler with
    | .idle => 0
    | .sample _ => 0
    | _ => 1

/-- The handlers that the machine has seen. -/
def machineOrders (p : Program) : List Machine.Label :=
  (p.orders.take p.entered).filterMap Order.machine

/-- The handlers that the position tests have seen. -/
def testOrders (p : Program) : List Position.Label :=
  (p.orders.take p.tested).filterMap Order.tests

/-- The reply of a handler that has posted it and not yet returned. -/
def unreturned (p : Program) : List LocalMsg :=
  if p.handler = .reset ∧ (p.machine.sys.recv = .finish ∨ p.machine.sys.recv = .idle) then [.reset]
  else []

/-! ## The calls -/

lemma orders_getElem {c : SrvCmd} (hc : p.link.recv.analyzed[p.handled]? = some c) :
    p.orders.take (p.handled + 1) = p.orders.take p.handled ++ [c.order] := by
  have ho : p.orders[p.handled]? = some c.order := by
    rw [orders, List.getElem?_map, hc]
    rfl
  rw [List.take_add_one, ho]
  rfl

/-- More calls at the end leave those before. -/
lemma take_orders {k : Link} {n : ℕ} (hn : n ≤ p.link.recv.analyzed.length)
    (hk : p.link.recv.analyzed <+: k.recv.analyzed) :
    (orders { p with link := k }).take n = p.orders.take n := by
  obtain ⟨cs, hcs⟩ := hk
  have horders : orders { p with link := k } = p.orders ++ cs.map SrvCmd.order := by
    rw [orders, orders, ← hcs, List.map_append]
  rw [horders, List.take_append_of_le_length]
  rwa [orders, List.length_map]

lemma Inv.entered_le (h : p.Inv) : p.entered ≤ p.link.recv.analyzed.length := by
  rw [entered]
  split_ifs with hidle
  · exact h.handled
  · obtain ⟨c, hc, -⟩ := h.serves hidle
    exact (List.getElem?_eq_some_iff.1 hc).1

lemma tested_le_entered (p : Program) : p.tested ≤ p.entered := by
  rw [tested, entered]
  cases p.handler <;> simp

/-- The receive task calls `local_cmd_analyze` at the end of the other calls. -/
lemma analyzed_grows {l : LinkLabel} {k : Link} (hk : (p.meets a).step l = some k) :
    p.link.recv.analyzed <+: k.recv.analyzed := by
  rcases Link.step_recv hk with he | ⟨r, -, hr⟩
  · rw [he, recv_meets]
  · rw [recv_meets] at hr
    rcases RecvTsk.step_analyzed hr with han | ⟨c, han⟩
    · rw [han]
    · rw [han]
      exact List.prefix_append _ _

/-- A run of the machine that a step of the process is: the handlers in it are those that are
called, and the steps of the other tasks are the step itself. -/
def MachineRun (cfg : SysConfig) (p : Program) (own : List Machine.Label) (p' : Program) : Prop :=
  ∃ bs, exec (Machine.step cfg) p.machine bs = some p'.machine ∧
    p'.machineOrders = p.machineOrders ++ bs.filter Machine.Label.ofOrder ∧
      bs.filter Machine.Label.besideRecv = own

/-- A run of the position tests that a step of the process is. -/
def TestsRun (p : Program) (own : List Position.Label) (p' : Program) : Prop :=
  ∃ ts, exec Position.State.step p.tests ts = some p'.tests ∧
    p'.testOrders = p.testOrders ++ ts.filter Position.Label.ofOrder ∧
      ts.filter Position.Label.besideRecv = own

lemma machineOrders_congr (horders : p'.orders = p.orders) (hentered : p'.entered = p.entered) :
    p'.machineOrders = p.machineOrders := by
  rw [machineOrders, horders, hentered, machineOrders]

lemma testOrders_congr (horders : p'.orders = p.orders) (htested : p'.tested = p.tested) :
    p'.testOrders = p.testOrders := by
  rw [testOrders, horders, htested, testOrders]

lemma machineRun_nil (hm : p'.machine = p.machine) (horders : p'.machineOrders = p.machineOrders) :
    MachineRun cfg p [] p' :=
  ⟨[], by rw [hm]; rfl, by simp [horders], rfl⟩

lemma machineRun_one {b : Machine.Label} (hm : p.machine.step cfg b = some p'.machine)
    (horders : p'.machineOrders = p.machineOrders ++ [b].filter Machine.Label.ofOrder) :
    MachineRun cfg p ([b].filter Machine.Label.besideRecv) p' :=
  ⟨[b], by rw [exec_cons, hm]; rfl, horders, rfl⟩

lemma testsRun_nil (ht : p'.tests = p.tests) (horders : p'.testOrders = p.testOrders) :
    TestsRun p [] p' :=
  ⟨[], by rw [ht]; rfl, by simp [horders], rfl⟩

lemma testsRun_one {b : Position.Label} (ht : p.tests.step b = some p'.tests)
    (horders : p'.testOrders = p.testOrders ++ [b].filter Position.Label.ofOrder) :
    TestsRun p ([b].filter Position.Label.besideRecv) p' :=
  ⟨[b], by rw [exec_cons, ht]; rfl, horders, rfl⟩

/-- The machine is told of a call when it is entered. -/
lemma machineOrders_succ {c : SrvCmd} (hc : p.link.recv.analyzed[p.handled]? = some c)
    (hentered : p.entered = p.handled) (horders : p'.orders = p.orders)
    (hentered' : p'.entered = p.handled + 1) :
    p'.machineOrders = p.machineOrders ++ c.order.machine.toList := by
  rw [machineOrders, machineOrders, horders, hentered', hentered, orders_getElem hc,
    List.filterMap_append]
  cases ho : c.order.machine <;> simp [ho]

/-- The position tests are told of a call when it is entered, or when `write_array` has returned. -/
lemma testOrders_succ {c : SrvCmd} (hc : p.link.recv.analyzed[p.handled]? = some c)
    (htested : p.tested = p.handled) (horders : p'.orders = p.orders)
    (htested' : p'.tested = p.handled + 1) :
    p'.testOrders = p.testOrders ++ c.order.tests.toList := by
  rw [testOrders, testOrders, horders, htested', htested, orders_getElem hc, List.filterMap_append]
  cases ho : c.order.tests <;> simp [ho]

/-- A call of `local_cmd_analyze`. -/
lemma call_parts (hh : p.handler = .idle) {c : SrvCmd}
    (hc : p.link.recv.analyzed[p.handled]? = some c)
    (hp : p.call cfg version c.order = some p') : MachineRun cfg p [] p' ∧ TestsRun p [] p' := by
  have hentered : p.entered = p.handled := by simp [entered, hh]
  have htested : p.tested = p.handled := by simp [tested, hh]
  have hmachine : p'.orders = p.orders → p'.entered = p.handled + 1 →
      p'.machineOrders = p.machineOrders ++ c.order.machine.toList :=
    machineOrders_succ hc hentered
  have htests : p'.orders = p.orders → p'.tested = p.handled + 1 →
      p'.testOrders = p.testOrders ++ c.order.tests.toList :=
    testOrders_succ hc htested
  cases ho : c.order with
  | handshake | other =>
    rw [ho] at hp hmachine htests
    obtain rfl := Option.some.inj hp
    refine ⟨machineRun_nil rfl ?_, testsRun_nil rfl ?_⟩
    · rw [hmachine rfl rfl]
      exact List.append_nil _
    · rw [htests rfl rfl]
      exact List.append_nil _
  | reset =>
    rw [ho] at hp hmachine htests
    obtain ⟨m, hm, hp⟩ := Option.bind_eq_some_iff.1 hp
    obtain ⟨t, ht, rfl⟩ := Option.map_eq_some_iff.1 hp
    exact ⟨machineRun_one (b := .reset) hm (hmachine rfl rfl),
      testsRun_one (b := .reset) ht (htests rfl rfl)⟩
  | sample r =>
    rw [ho] at hp hmachine
    obtain ⟨m, hm, rfl⟩ := Option.map_eq_some_iff.1 hp
    exact ⟨machineRun_one (b := .sample r) hm (hmachine rfl rfl),
      testsRun_nil rfl (testOrders_congr rfl htested.symm)⟩
  | posTest item =>
    rw [ho] at hp hmachine htests
    obtain ⟨m, hm, hp⟩ := Option.bind_eq_some_iff.1 hp
    obtain ⟨t, ht, rfl⟩ := Option.map_eq_some_iff.1 hp
    exact ⟨machineRun_one (b := .command item) hm (hmachine rfl rfl),
      testsRun_one (b := .posTest item) ht (htests rfl rfl)⟩

lemma Done.ne_idle (h : p.Done) : p.handler ≠ .idle := by
  rintro he
  rcases h with ⟨hh, -⟩ | ⟨hh, -⟩ | ⟨hh, -⟩ <;> cases he.symm.trans hh

lemma Label.machine_of_link {l : LinkLabel} (hl : a.link = some l) :
    a.machine = none ∧ a.tests = none := by
  cases a <;> first | exact ⟨rfl, rfl⟩ | cases hl

lemma Label.filter_machine {b : Machine.Label} (hb : a.machine = some b) :
    [b].filter Machine.Label.ofOrder = [] ∧ [b].filter Machine.Label.besideRecv = [b] := by
  cases a <;> cases hb <;> exact ⟨rfl, rfl⟩

/-- A step of the process is a step of the machine or leaves it, and a handler is called in the
machine when it is called. -/
lemma machine_part (h : p.Inv) (hs : Step cfg version p a p') :
    MachineRun cfg p a.machine.toList p' := by
  cases hs with
  | link _ l k hl hrecv hk =>
    rw [(Label.machine_of_link hl).1]
    refine machineRun_nil rfl ?_
    have htake := take_orders h.entered_le (analyzed_grows hk)
    rw [machineOrders, machineOrders, ← htake]
    rfl
  | call c _ hh hc hp => exact (call_parts hh hc hp).1
  | written r t hh =>
    refine machineRun_nil rfl (machineOrders_congr rfl ?_)
    simp [entered, enter, withTests, hh]
  | run m hh hm => exact machineRun_one (b := .recv) hm (List.append_nil _).symm
  | store | full | dis => exact machineRun_nil rfl rfl
  | writeKp | crashKp | crashReply | crashDis => exact machineRun_nil rfl rfl
  | done hd =>
    refine machineRun_nil rfl (machineOrders_congr rfl ?_)
    have hbefore : p.entered = p.handled + 1 := by rw [entered, if_neg hd.ne_idle]
    rw [hbefore]
    rfl
  | machine _ b m hb hisr htests hm =>
    obtain ⟨horder, hbeside⟩ := Label.filter_machine hb
    have hrun : MachineRun cfg p ([b].filter Machine.Label.besideRecv) (p.withMachine m) := by
      refine machineRun_one hm ?_
      rw [horder, List.append_nil]
      rfl
    rwa [hb, Option.toList_some, ← hbeside]
  | isr n clock m t hm => exact machineRun_one (b := .isr n clock) hm (List.append_nil _).symm

/-- The events of an interrupt task are steps of the position tests. -/
lemma isrTests_exec {n : Station} {clock : Isr.Clock} {t : Position.State}
    (ht : p.isrTests n clock = some t) :
    ∃ ts, exec Position.State.step p.tests ts = some t ∧
      ts.filter Position.Label.ofOrder = [] ∧ ts.filter Position.Label.besideRecv = [] := by
  rw [isrTests] at ht
  cases he : isrEvent n clock (p.machine.isr.side n).pc with
  | none =>
    obtain rfl : p.tests = t := by simpa [he] using ht
    exact ⟨[], rfl, rfl, rfl⟩
  | some a =>
    rw [he] at ht
    obtain ⟨t₁, ht₁, rfl⟩ := Option.map_eq_some_iff.1 ht
    have ha : a.ofOrder = false ∧ a.besideRecv = false := by
      generalize (p.machine.isr.side n).pc = pc at he
      rw [isrEvent.eq_def] at he
      split at he
      all_goals cases he
      all_goals exact ⟨rfl, rfl⟩
    cases hpost : t₁.stepIsr n with
    | none =>
      refine ⟨[a], ?_, by simp [ha.1], by simp [ha.2]⟩
      rw [exec_cons, ht₁]
      rfl
    | some t₂ =>
      refine ⟨[a, .isr n], ?_, ?_, ?_⟩
      · rw [exec_cons, ht₁, Option.bind_some, exec_cons]
        change (t₁.stepIsr n).bind _ = _
        rw [hpost]
        rfl
      · rw [List.filter_cons_of_neg (by simp [ha.1])]
        rfl
      · rw [List.filter_cons_of_neg (by simp [ha.2])]
        rfl

/-- A step of the process is a run of the position tests of two steps at most. -/
lemma tests_part (h : p.Inv) (hs : Step cfg version p a p') :
    TestsRun p a.tests.toList p' := by
  cases hs with
  | link _ l k hl hrecv hk =>
    rw [(Label.machine_of_link hl).2]
    refine testsRun_nil rfl ?_
    have htake := take_orders ((tested_le_entered p).trans h.entered_le) (analyzed_grows hk)
    rw [testOrders, testOrders, ← htake]
    rfl
  | call c _ hh hc hp => exact (call_parts hh hc hp).2
  | written r t hh hidle ht =>
    obtain ⟨c, hc, ho⟩ := h.serves (by rw [hh]; rintro ⟨⟩)
    rw [hh] at ho
    have hafter : ((p.withTests t).enter .store).tested = p.handled + 1 := rfl
    have horders : ((p.withTests t).enter .store).orders = p.orders := rfl
    have hsucc := testOrders_succ hc (by simp [tested, hh]) horders hafter
    rw [ho] at hsucc
    exact testsRun_one (b := .sample r.count r.wheelCode) ht hsucc
  | run | full => exact testsRun_nil rfl rfl
  | crashKp | crashReply | crashDis => exact testsRun_nil rfl rfl
  | store n t hh hn ht => exact testsRun_one (b := .recv n) ht (List.append_nil _).symm
  | done hd =>
    refine testsRun_nil rfl (testOrders_congr rfl ?_)
    rcases hd with ⟨hh, -⟩ | ⟨hh, -⟩ | ⟨hh, -⟩ <;> simp [tested, returned, hh]
  | machine _ b m hb hisr htests hm =>
    rw [htests]
    exact testsRun_nil rfl rfl
  | isr n clock m t hm ht =>
    obtain ⟨ts, hts, horder, hbeside⟩ := isrTests_exec ht
    refine ⟨ts, hts, ?_, hbeside⟩
    rw [horder, List.append_nil]
    rfl
  | writeKp n t ht => exact testsRun_one (b := .writeKp n) ht (List.append_nil _).symm
  | dis l t ht => exact testsRun_one (b := .dis l) ht (List.append_nil _).symm

/-! ## What is posted to the send task -/

/-- The messages posted to the send task are the replies of the handlers and the reports of the
position tasks. -/
structure Posted (version : Vector UInt8 32) (p : Program) : Prop where
  replies : p.link.posted.filter LocalMsg.isReply =
    (p.orders.take p.handled).filterMap (Order.reply version) ++ p.unreturned
  reports : ∀ l, p.link.posted.filterMap (LocalMsg.reportOf l) = (p.tests.line l).sent

lemma item_injective {l l' : PosList} (h : item l = item l') : l = l' := by
  rcases l with n | n <;> rcases l' with n' | n' <;> cases n <;> cases n' <;>
    first | rfl | exact absurd h (by decide)

lemma Label.link_ne_post {l : LinkLabel} (hl : a.link = some l) (m : LocalMsg) : l ≠ .post m := by
  rintro rfl
  cases a <;> cases hl

lemma unreturned_of_ne (hne : p.handler ≠ .reset) : p.unreturned = [] := by
  simp [unreturned, hne]

lemma unreturned_congr (hh : p'.handler = p.handler)
    (hrecv : p'.machine.sys.recv = p.machine.sys.recv) : p'.unreturned = p.unreturned := by
  rw [unreturned, hh, hrecv, unreturned]

/-- What the client is answered by a handler that returns. -/
lemma reply_of_serves {o : Order} (h : p.handler.Serves o) :
    (o.reply version).toList = if p.handler = .reset then [.reset] else [] := by
  cases hh : p.handler with
  | idle =>
    rw [hh] at h
    exact h.elim
  | sample r =>
    rw [hh] at h
    obtain rfl : o = .sample r := h
    rfl
  | store =>
    rw [hh] at h
    obtain ⟨r, rfl⟩ := h
    rfl
  | reset =>
    rw [hh] at h
    obtain rfl : o = .reset := h
    rfl
  | posTest =>
    rw [hh] at h
    obtain ⟨item, rfl⟩ := h
    rfl

lemma replied_succ {c : SrvCmd} (hc : p.link.recv.analyzed[p.handled]? = some c) :
    (p.orders.take (p.handled + 1)).filterMap (Order.reply version) =
      (p.orders.take p.handled).filterMap (Order.reply version) ++
        (c.order.reply version).toList := by
  rw [orders_getElem hc, List.filterMap_append]
  cases ho : c.order.reply version <;> simp [ho]

namespace Posted

lemma init (version : Vector UInt8 32) (param : Mem) (isrClr : Station → UInt16)
    (memory : Buffer → SampleArray) (posMemory : PosList → Buffer → PositionArray) :
    (init param isrClr memory posMemory).Posted version where
  replies := rfl
  reports _ := rfl

/-- A step that posts nothing. -/
lemma quiet (h : p.Posted version) (hposted : p'.link.posted = p.link.posted)
    (horders : p'.orders = p.orders) (hhandled : p'.handled = p.handled)
    (hunreturned : p'.unreturned = p.unreturned)
    (hsent : ∀ l, (p'.tests.line l).sent = (p.tests.line l).sent) : p'.Posted version where
  replies := by rw [hposted, horders, hhandled, hunreturned, h.replies]
  reports l := by rw [hposted, hsent l, h.reports l]

lemma link (h : p.Posted version) (hinv : p.Inv) {l : LinkLabel} {k : Link}
    (hl : a.link = some l) (hk : (p.meets a).step l = some k) :
    Posted version { p with link := k } := by
  have hposted : k.posted = p.link.posted := by
    rcases Link.step_posted hk with ⟨m, hm, -⟩ | ⟨-, hposted⟩
    · exact absurd hm (Label.link_ne_post hl m)
    · rwa [posted_meets] at hposted
  refine ⟨?_, fun l' => ?_⟩
  · have htake := take_orders hinv.handled (analyzed_grows hk)
    change k.posted.filter _ =
      ((orders { p with link := k }).take p.handled).filterMap _ ++ p.unreturned
    rw [hposted, htake]
    exact h.replies
  · change k.posted.filterMap _ = _
    rw [hposted]
    exact h.reports l'

lemma call (h : p.Posted version) (hh : p.handler = .idle) {c : SrvCmd}
    (hc : p.link.recv.analyzed[p.handled]? = some c)
    (hp : p.call cfg version c.order = some p') : p'.Posted version := by
  have hnone : p.unreturned = [] := unreturned_of_ne (by rw [hh]; rintro ⟨⟩)
  have hreplies := h.replies
  rw [hnone, List.append_nil] at hreplies
  have hsucc : (p.orders.take (p.handled + 1)).filterMap (Order.reply version) =
      (p.orders.take p.handled).filterMap (Order.reply version) ++
        (c.order.reply version).toList := replied_succ hc
  cases ho : c.order with
  | handshake =>
    rw [ho] at hp hsucc
    obtain rfl := Option.some.inj hp
    refine ⟨?_, fun l => ?_⟩
    · change (p.link.posted ++ [LocalMsg.handshake version]).filter _ =
        (p.orders.take (p.handled + 1)).filterMap _ ++ []
      rw [hsucc, List.filter_append, hreplies, List.append_nil]
      rfl
    · change (p.link.posted ++ [LocalMsg.handshake version]).filterMap _ = _
      rw [List.filterMap_append, h.reports l]
      exact List.append_nil _
  | other =>
    rw [ho] at hp hsucc
    obtain rfl := Option.some.inj hp
    refine ⟨?_, h.reports⟩
    change p.link.posted.filter _ = (p.orders.take (p.handled + 1)).filterMap _ ++ []
    rw [hsucc, hreplies, List.append_nil]
    exact (List.append_nil _).symm
  | reset =>
    rw [ho] at hp
    obtain ⟨m, hm, hp⟩ := Option.bind_eq_some_iff.1 hp
    obtain ⟨t, ht, rfl⟩ := Option.map_eq_some_iff.1 hp
    obtain ⟨hzero, -⟩ := Machine.step_reset hm
    refine h.quiet rfl rfl rfl ?_ (Position.State.frame_reset ht).2.2.2
    rw [hnone, unreturned]
    exact if_neg (by simp [withTests, withMachine, enter, hzero])
  | sample r =>
    rw [ho] at hp
    obtain ⟨m, hm, rfl⟩ := Option.map_eq_some_iff.1 hp
    exact h.quiet rfl rfl rfl ((unreturned_of_ne (by rintro ⟨⟩)).trans hnone.symm) fun _ => rfl
  | posTest item =>
    rw [ho] at hp
    obtain ⟨m, hm, hp⟩ := Option.bind_eq_some_iff.1 hp
    obtain ⟨t, ht, rfl⟩ := Option.map_eq_some_iff.1 hp
    exact h.quiet rfl rfl rfl ((unreturned_of_ne (by rintro ⟨⟩)).trans hnone.symm)
      (Position.State.frame_posTest ht).2.2.2

/-- The handler goes on in the machine, and posts the reply to a reset on the way. -/
lemma run (h : p.Posted version) (hinv : p.Inv) {m : Machine}
    (hm : p.machine.step cfg .recv = some m) :
    Posted version { p with machine := m, link := p.link.postAll p.replies } := by
  have hunreturned : unreturned { p with machine := m, link := p.link.postAll p.replies } =
      p.unreturned ++ p.replies := by
    by_cases hreset : p.handler = .reset
    · have hs := (Machine.step_recv_sys (hinv.isr (by rw [hreset]; rintro ⟨⟩)) hm).1
      have hout := hinv.reset hreset
      rw [unreturned, unreturned, Program.replies]
      generalize m.sys = s at hs
      cases Sys.step_inv hs with
      | crash r hrecv | produce r buf f hrecv | link r buf hrecv =>
        rw [hrecv] at hout
        cases hout
      | zero hrecv | clear1 hrecv | clear2 hrecv | reply hrecv | finish hrecv =>
        simp [hreset, hrecv, Sys.zeroCount, Sys.clear, Sys.finishReset]
    · simp [unreturned, Program.replies, hreset]
  have hreply : p.replies.filter LocalMsg.isReply = p.replies := by
    rw [Program.replies]
    split_ifs <;> rfl
  refine ⟨?_, fun l => ?_⟩
  · rw [hunreturned]
    change (p.link.posted ++ p.replies).filter _ =
      (p.orders.take p.handled).filterMap _ ++ (p.unreturned ++ p.replies)
    rw [List.filter_append, h.replies, hreply, List.append_assoc]
  · change (p.link.posted ++ p.replies).filterMap _ = _
    have hnone : p.replies.filterMap (LocalMsg.reportOf l) = [] := by
      rw [Program.replies]
      split_ifs <;> rfl
    rw [List.filterMap_append, h.reports l, hnone, List.append_nil]

/-- The handler returns. -/
lemma done (h : p.Posted version) (hinv : p.Inv) (hd : p.Done) : p.returned.Posted version := by
  obtain ⟨c, hc, ho⟩ := hinv.serves hd.ne_idle
  have hunreturned : p.unreturned = (c.order.reply version).toList := by
    rw [reply_of_serves ho, unreturned]
    rcases hd with ⟨hh, -⟩ | ⟨hh, hidle⟩ | ⟨hh, -⟩ <;> simp [*]
  refine ⟨?_, h.reports⟩
  change p.link.posted.filter _ = (p.orders.take (p.handled + 1)).filterMap _ ++ []
  rw [replied_succ hc, h.replies, hunreturned, List.append_nil]

/-- A position task goes on, and posts its report on the way. -/
lemma dis (h : p.Posted version) {l : PosList} {t : Position.State}
    (ht : p.tests.step (.dis l) = some t) :
    Posted version { p with tests := t, link := p.link.postAll (p.report l).toList } := by
  obtain ⟨-, -, -, hother, hself⟩ := Position.State.frame_dis ht
  have hreply : (p.report l).toList.filter LocalMsg.isReply = [] := by
    rw [report]
    split <;> rfl
  refine ⟨?_, fun l' => ?_⟩
  · change (p.link.posted ++ (p.report l).toList).filter _ =
      (p.orders.take p.handled).filterMap _ ++ p.unreturned
    rw [List.filter_append, h.replies, hreply, List.append_nil]
  · change (p.link.posted ++ (p.report l).toList).filterMap _ = (t.line l').sent
    rw [List.filterMap_append, h.reports l']
    by_cases hl : l' = l
    · subst hl
      rw [hself, report, Line.reporting]
      cases (p.tests.line l').pc <;> simp [LocalMsg.reportOf]
    · have hitem : item l ≠ item l' := fun he => hl (item_injective he).symm
      rw [hother l' hl, report]
      split <;> simp [LocalMsg.reportOf, hitem]

lemma step (h : p.Posted version) (hinv : p.Inv) (hs : Step cfg version p a p') :
    p'.Posted version := by
  cases hs with
  | link _ l k hl hrecv hk => exact h.link hinv hl hk
  | call c _ hh hc hp => exact h.call hh hc hp
  | written r t hh hidle ht =>
    refine h.quiet rfl rfl rfl ?_ (Position.State.frame_sample ht).2.2
    rw [unreturned_of_ne (by rintro ⟨⟩), unreturned_of_ne (by rw [hh]; rintro ⟨⟩)]
  | run m hh hm => exact h.run hinv hm
  | store n t hh hn ht => exact h.quiet rfl rfl rfl rfl (Position.State.frame_recv ht).2.2
  | full | crashKp | crashReply | crashDis => exact h.quiet rfl rfl rfl rfl fun _ => rfl
  | done hd => exact h.done hinv hd
  | machine _ b m hb hisr htests hm =>
    have hframe := Machine.frame_step (besideRecv_of_machine hb) hisr hm
    exact h.quiet rfl rfl rfl (unreturned_congr rfl hframe.sys) fun _ => rfl
  | isr n clock m t hm ht =>
    obtain ⟨hsys, -, haside, -⟩ := step_isr hinv.events hinv.agree hm ht
    exact h.quiet rfl rfl rfl (unreturned_congr rfl hsys) haside.sent
  | writeKp n t ht => exact h.quiet rfl rfl rfl rfl (Position.State.frame_writeKp ht).2.2.2
  | dis l t ht => exact h.dis ht

end Posted

/-! ## Runs -/

lemma Label.recvLabel_of_link {r : RecvLabel} (hl : a.link = some (.recv r)) :
    a.recvLabel = some r := by
  cases a with
  | recv r' =>
    obtain rfl : r' = r := by simpa [Label.link] using hl
    rfl
  | _ => simp [Label.link] at hl

lemma Label.recvLabel_of_machine {b : Machine.Label} (hb : a.machine = some b) :
    a.recvLabel = none := by
  cases a with
  | recv r => cases hb
  | _ => rfl

lemma recv_call {o : Order} (hp : p.call cfg version o = some p') :
    p'.link.recv = p.link.recv := by
  cases o with
  | handshake | other =>
    obtain rfl := Option.some.inj hp
    rfl
  | reset | posTest =>
    obtain ⟨m, hm, hp⟩ := Option.bind_eq_some_iff.1 hp
    obtain ⟨t, ht, rfl⟩ := Option.map_eq_some_iff.1 hp
    rfl
  | sample r =>
    obtain ⟨m, hm, rfl⟩ := Option.map_eq_some_iff.1 hp
    rfl

/-- The link of the receive task takes its own steps only. -/
lemma recv_part (hs : Step cfg version p a p') :
    (∃ r, a.recvLabel = some r ∧ p.link.recv.step r = some p'.link.recv) ∨
      a.recvLabel = none ∧ p'.link.recv = p.link.recv := by
  cases hs with
  | link _ l k hl hrecv hk =>
    rcases Link.step_recv hk with he | ⟨r, rfl, hr⟩
    · rw [recv_meets] at he
      cases hr : a.recvLabel with
      | none => exact .inr ⟨rfl, he⟩
      | some r =>
        obtain rfl : a = .recv r := by
          cases a <;> simp_all [Label.recvLabel]
        obtain rfl := Option.some.inj hl
        obtain ⟨t, n, cl, ht, rfl⟩ := Link.stepRecv_cases hk
        exact .inl ⟨r, rfl, ht⟩
    · rw [recv_meets] at hr
      exact .inl ⟨r, Label.recvLabel_of_link hl, hr⟩
  | call c _ hh hc hp => exact .inr ⟨rfl, recv_call hp⟩
  | machine _ b m hb => exact .inr ⟨Label.recvLabel_of_machine hb, rfl⟩
  | written | run | store | full | done | isr | writeKp | dis => exact .inr ⟨rfl, rfl⟩
  | crashKp | crashReply | crashDis => exact .inr ⟨rfl, rfl⟩

/-- The receive task meets in a run what its labels say. -/
lemma exec_recv {ls : List Label} (h : exec (step cfg version) p ls = some p') :
    exec RecvTsk.step p.link.recv (ls.filterMap Label.recvLabel) = some p'.link.recv := by
  refine exec_filterMap (fun p => p.link.recv) Label.recvLabel ?_ ?_ h
  · intro p a p' r hs hr
    rcases recv_part (step_inv hs).2 with ⟨r', hr', hstep⟩ | ⟨hnone, -⟩
    · obtain rfl : r' = r := by simpa [hr'] using hr
      exact hstep
    · cases hr.symm.trans hnone
  · intro p a p' hs hnone
    rcases recv_part (step_inv hs).2 with ⟨r, hr, -⟩ | ⟨-, hsame⟩
    · cases hr.symm.trans hnone
    · exact hsame

/-- A call with the frame of a request gives the order of the request. -/
lemma order_of_carries {c : SrvCmd} {q : Request} (h : c.Carries q.frame) : c.order = q.order := by
  obtain ⟨hword, -, hload⟩ := h
  cases q with
  | handshake => simp [SrvCmd.order, hword, Request.frame, Request.order]
  | reset => simp [SrvCmd.order, hword, Request.frame, Request.order]
  | sample r =>
    have hbytes : load c.param 0 28 = r.bytes := by simpa [Request.frame] using hload
    simp [SrvCmd.order, hword, Request.frame, Request.order, sampleResult_bytes hbytes]
  | posTest item =>
    have hitem : load c.param 0 4 = le32 item := by simpa [Request.frame] using hload
    simp [SrvCmd.order, hword, Request.frame, Request.order, hitem]
  | other f hno hsize =>
    simp only [commandWords, List.mem_cons, List.not_mem_nil, or_false, not_or] at hno
    obtain ⟨h0, h1, h2, h3⟩ := hno
    have hf : c.cmdword = f.word := hword
    simp [SrvCmd.order, hf, h0, h1, h2, h3, Request.order]

lemma orders_of_carries {calls : List SrvCmd} {requests : List Request}
    (h : List.Forall₂ SrvCmd.Carries calls (requests.map Request.frame)) :
    calls.map SrvCmd.order = requests.map Request.order := by
  induction requests generalizing calls with
  | nil =>
    obtain rfl := List.forall₂_nil_right_iff.1 h
    rfl
  | cons q requests ih =>
    rw [List.map_cons] at h
    cases h with
    | cons hcar hrest => rw [List.map_cons, List.map_cons, order_of_carries hcar, ih hrest]

/-- What the receive task has called `local_cmd_analyze` for are the requests. -/
lemma orders_eq {param : Mem} {isrClr : Station → UInt16} {memory : Buffer → SampleArray}
    {posMemory : PosList → Buffer → PositionArray} {closed : List Incoming}
    {current : Option Incoming} {requests : List Request} {ls : List Label}
    (hasked : Asked closed current requests)
    (hrecv : ls.filterMap Label.recvLabel =
      closed.flatMap Incoming.closedLabels ++ current.toList.flatMap Incoming.labels)
    (h : exec (step cfg version) (init param isrClr memory posMemory) ls = some p) :
    p.orders = requests.map Request.order := by
  have hrun := exec_recv h
  rw [hrecv] at hrun
  obtain ⟨⟨calls, hcalls, hall⟩, -⟩ := RecvTsk.recv_connections hasked.sent rfl hrun
  rw [hasked.frames] at hall
  have hanalyzed : p.link.recv.analyzed = calls := hcalls
  rw [orders, hanalyzed]
  exact orders_of_carries hall

section Start

variable {param : Mem} {isrClr : Station → UInt16} {memory : Buffer → SampleArray}
  {posMemory : PosList → Buffer → PositionArray} {ls : List Label}

lemma inv_exec (h : exec (step cfg version) (init param isrClr memory posMemory) ls = some p) :
    p.Inv ∧ p.Posted version := by
  have h0 : (init param isrClr memory posMemory).Inv ∧
      (init param isrClr memory posMemory).Posted version := ⟨inv_init .., .init ..⟩
  have hstep : ∀ p a p', (p.Inv ∧ p.Posted version) → step cfg version p a = some p' →
      p'.Inv ∧ p'.Posted version := fun p a p' hp hs =>
    ⟨hp.1.step (step_inv hs).2, hp.2.step hp.1 (step_inv hs).2⟩
  exact (reach_any ls h).invariant h0 fun p a p' hp _ hs => hstep p a p' hp hs

/-- A run of the process is a run of the machine, in which the handlers are called and the other
tasks take their steps. -/
lemma exec_machine
    (h : exec (step cfg version) (init param isrClr memory posMemory) ls = some p) :
    ∃ ms, exec (Machine.step cfg) (Machine.init isrClr memory) ms = some p.machine ∧
      p.machineOrders = ms.filter Machine.Label.ofOrder ∧
        ms.filter Machine.Label.besideRecv = ls.filterMap Label.machine :=
  exec_part Program.machine Machine.Label.ofOrder Machine.Label.besideRecv machineOrders
    Label.machine (fun _ _ _ hp hs => ⟨hp.step (step_inv hs).2, machine_part hp (step_inv hs).2⟩)
    (inv_init param isrClr memory posMemory) h

/-- It is a run of the position tests. -/
lemma exec_tests
    (h : exec (step cfg version) (init param isrClr memory posMemory) ls = some p) :
    ∃ ts, exec Position.State.step (Position.init posMemory) ts = some p.tests ∧
      p.testOrders = ts.filter Position.Label.ofOrder ∧
        ts.filter Position.Label.besideRecv = ls.filterMap Label.tests :=
  exec_part Program.tests Position.Label.ofOrder Position.Label.besideRecv testOrders
    Label.tests (fun _ _ _ hp hs => ⟨hp.step (step_inv hs).2, tests_part hp (step_inv hs).2⟩)
    (inv_init param isrClr memory posMemory) h

end Start

/-- The process seen at its parts, when a client has sent some requests and the labels were `ls`. -/
structure Parts (cfg : SysConfig) (version : Vector UInt8 32) (isrClr : Station → UInt16)
    (memory : Buffer → SampleArray) (posMemory : PosList → Buffer → PositionArray)
    (requests : List Request) (ls : List Label) (p : Program) : Prop where
  /-- All requests have been handled, or all but the last. -/
  handled : p.handled ≤ requests.length ∧ requests.length ≤ p.handled + 1
  /-- The tasks around the sample lists have done what a machine does that is given the requests. -/
  machine : ∃ ms, exec (Machine.step cfg) (Machine.init isrClr memory) ms = some p.machine ∧
    ms.filter Machine.Label.ofOrder =
      ((requests.take p.entered).map Request.order).filterMap Order.machine ∧
    ms.filter Machine.Label.besideRecv = ls.filterMap Label.machine
  /-- So have the tasks of the position tests. -/
  tests : ∃ ts, exec Position.State.step (Position.init posMemory) ts = some p.tests ∧
    ts.filter Position.Label.ofOrder =
      ((requests.take p.tested).map Request.order).filterMap Order.tests ∧
    ts.filter Position.Label.besideRecv = ls.filterMap Label.tests
  /-- The interrupt tasks have sent the events that the position tests have seen. -/
  agree : Agree p.machine p.tests
  /-- For each request that has an answer one was posted. -/
  replies : p.link.posted.filter LocalMsg.isReply =
    ((requests.take p.handled).map Request.order).filterMap (Order.reply version) ++ p.unreturned
  /-- The reports of each test were posted in their order. -/
  reports : ∀ l, p.link.posted.filterMap (LocalMsg.reportOf l) = (p.tests.line l).sent

/-- **The parts of the process.**  Where the header of each frame comes in one read, whatever
connections a client makes and loses and however all tasks interleave inside the handlers of its
requests, until the process ends: the process is, seen at the sample lists, a run of that machine to
which the requests are given in the order in which they were sent, and so it is at the position
tests; to the send task are posted one reply for each request that has one, and the reports of each
position test in their order. -/
theorem parts_of_process (cfg : SysConfig) (version : Vector UInt8 32) (param : Mem)
    (isrClr : Station → UInt16) (memory : Buffer → SampleArray)
    (posMemory : PosList → Buffer → PositionArray) (closed : List Incoming)
    (current : Option Incoming) (requests : List Request) (ls : List Label) (p : Program)
    (hasked : Asked closed current requests)
    (hrecv : ls.filterMap Label.recvLabel =
      closed.flatMap Incoming.closedLabels ++ current.toList.flatMap Incoming.labels)
    (h : exec (step cfg version) (init param isrClr memory posMemory) ls = some p) :
    p.Parts cfg version isrClr memory posMemory requests ls := by
  have horders := orders_eq hasked hrecv h
  obtain ⟨hinv, hposted⟩ := inv_exec h
  obtain ⟨ms, hms, hmorders, hmown⟩ := exec_machine h
  obtain ⟨ts, hts, htorders, htown⟩ := exec_tests h
  have htake : ∀ n, p.orders.take n = (requests.take n).map Request.order := by
    intro n
    rw [horders, List.map_take]
  constructor
  case handled =>
    have hlen : p.link.recv.analyzed.length = requests.length := by
      simpa [orders] using congrArg List.length horders
    rw [← hlen]
    exact ⟨hinv.handled, hinv.prompt⟩
  case machine =>
    refine ⟨ms, hms, ?_, hmown⟩
    rw [← htake]
    exact hmorders.symm
  case tests =>
    refine ⟨ts, hts, ?_, htown⟩
    rw [← htake]
    exact htorders.symm
  case agree => exact hinv.agree
  case replies =>
    rw [← htake]
    exact hposted.replies
  case reports => exact hposted.reports

/-- What the interrupt task of station 1 does about a sample at its kick tube. -/
def passes (code : UInt64) : List Label :=
  .arrive .one 1 :: List.replicate 11 (.isr .one { wheelCode := code, time := ⟨0, 0⟩ })

/-- A reset and a position test on two connections, of which the first is lost in a frame.  A sample
passes station 1 while the reset is handled, and another one when the test is selected. -/
def resetAndTest : List Label :=
  List.replicate 5 (.connect true) ++
    [.recv .link, .recv (.read RecvTsk.resetFrame.encode), .handle, .handle] ++ passes 100 ++
    List.replicate 5 .handle ++ (RecvTsk.lostInParams.closedLabels.drop 2).map .recv ++
    [.close, .close, .close] ++ List.replicate 5 (.connect true) ++
    RecvTsk.inUse.labels.map .recv ++ [.handle, .handle] ++ passes 200 ++
    List.replicate 3 (.dis (.c1Kt .one)) ++ List.replicate 5 .handle

/-- The process at its start, with all memory zero. -/
def start : Program := init (fun _ => 0) (fun _ => 0) zeroMemory Position.zeroMemory

theorem parts_of_process_resetAndTest : ∃ p,
    exec (step SysConfig.default (Vector.replicate 32 0)) start resetAndTest = some p ∧
      p.Parts SysConfig.default (Vector.replicate 32 0) (fun _ => 0) zeroMemory
        Position.zeroMemory [.reset, .posTest 2] resetAndTest := by
  obtain ⟨p, hp⟩ := Option.isSome_iff_exists.1 (show (exec
    (step SysConfig.default (Vector.replicate 32 0)) start resetAndTest).isSome = true by
      decide +kernel)
  refine ⟨p, hp, parts_of_process _ _ _ _ _ _ [RecvTsk.lostInParams] (some RecvTsk.inUse) _ _ p
    ⟨?_, rfl⟩ rfl hp⟩
  intro c hc
  simp only [Option.toList_some, List.cons_append, List.nil_append, List.mem_cons,
    List.not_mem_nil, or_false] at hc
  rcases hc with rfl | rfl
  all_goals exact ⟨by decide, by decide, by decide, by decide, by decide, by decide⟩

end Program

end RejectProcess
