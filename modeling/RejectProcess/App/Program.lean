import RejectProcess.App.Machine
import RejectProcess.Communication.Posting
import RejectProcess.Communication.Request

/-!
# All tasks of the process

The tasks of the link, the interrupt and search tasks and the tasks of the position tests run
together.  The receive task is the one that all parts share: in its loops it moves the link, and in
`local_cmd_analyze` the part that its handler belongs to.  What goes from one part to another are
the calls of the handlers, the triggers, the events of the position tests, the reports and the
replies.  A write transfers a whole payload or fails, as in `Communication/Link`, and the process
ends when a pool is empty.
-/

namespace RejectProcess

open Lib Position
open Publish (PosList)

/-- What a frame orders. -/
inductive Order
  | handshake
  | reset
  | sample (r : SampleResult)
  | posTest (item : UInt32)
  /-- Nothing: no handler has the command word. -/
  | other
deriving DecidableEq, Repr

/-- The handler that `local_cmd_analyze` calls, with what it reads from the parameter block. -/
def SrvCmd.order (c : SrvCmd) : Order :=
  if c.cmdword = 0xAACC0100 then .handshake
  else if c.cmdword = 0xAACC0101 then .reset
  else if c.cmdword = 0xAACC0102 then .sample (sampleResult c.param)
  else if c.cmdword = 0xAACC0103 then .posTest (ofLe32 (load c.param 0 4))
  else .other

/-- What a request orders. -/
def Request.order : Request → Order
  | .handshake => .handshake
  | .reset => .reset
  | .sample r => .sample r
  | .posTest item => .posTest item
  | .other _ _ _ => .other

namespace Order

/-- The order to the tasks around the sample lists and the interrupt registers. -/
def machine : Order → Option Machine.Label
  | .reset => some .reset
  | .sample r => some (.sample r)
  | .posTest item => some (.command item)
  | .handshake => none
  | .other => none

/-- The order to the tasks of the position tests. -/
def tests : Order → Option Position.Label
  | .reset => some .reset
  | .sample r => some (.sample r.count r.wheelCode)
  | .posTest item => some (.posTest item)
  | .handshake => none
  | .other => none

end Order

/-- A handler has been called. -/
def Machine.Label.ofOrder : Machine.Label → Bool
  | .sample _ => true
  | .reset => true
  | .command _ => true
  | _ => false

/-- A step of another task than the receive task, or an interrupt. -/
def Machine.Label.besideRecv : Machine.Label → Bool
  | .arrive _ _ => true
  | .isr _ _ => true
  | .crash _ => true
  | .trig _ => true
  | _ => false

/-- A handler has been called, or has returned from `write_array`. -/
def Position.Label.ofOrder : Position.Label → Bool
  | .sample _ _ => true
  | .posTest _ => true
  | .reset => true
  | _ => false

/-- A step of another task than the receive task and the interrupt tasks. -/
def Position.Label.besideRecv : Position.Label → Bool
  | .writeKp _ => true
  | .dis _ => true
  | _ => false

namespace Program

/-- Where the receive task stands in `local_cmd_analyze`. -/
inductive Handler
  /-- In no handler. -/
  | idle
  /-- In `recv_sample_result`, up to the return of `write_array`. -/
  | sample (r : SampleResult)
  /-- In `recv_sample_result`, behind the test of `pos_test_item`. -/
  | store
  /-- In `recv_reset_cmd`. -/
  | reset
  /-- In `recv_pos_test_cmd`. -/
  | posTest
deriving DecidableEq, Repr

end Program

/-- The link, the interrupt tasks with the sample lists, and the position tests.  `handled` counts
the calls of `local_cmd_analyze` that have returned. -/
structure Program where
  link : Link
  machine : Machine
  tests : Position.State
  handler : Program.Handler
  handled : ℕ
  exited : Bool

namespace Program

/-- Who moves, and what comes from outside. -/
inductive Label
  | connect (ok : Bool)
  | recv (l : RecvLabel)
  | close
  | send (ok : Bool)
  /-- `local_cmd_analyze` goes on. -/
  | handle
  /-- An interrupt of a station arrives, with the status bits it sets. -/
  | arrive (n : Station) (bits : UInt16)
  /-- The interrupt task of a station goes on. -/
  | isr (n : Station) (clock : Isr.Clock)
  /-- The interrupt task of a station finds the message pool empty. -/
  | crash (n : Station)
  /-- The search task of a station goes on. -/
  | trig (n : Station)
  /-- `write_kp1_array_tsk` or `write_kp2_array_tsk` goes on. -/
  | writeKp (n : Station)
  /-- It finds no buffer. -/
  | crashKp (n : Station)
  /-- A handler finds the message pool empty. -/
  | crashReply
  /-- A position task finds the message pool empty. -/
  | crashDis (l : PosList)
  /-- A position task goes on. -/
  | dis (l : PosList)

namespace Label

/-- The step as one of a task of the link. -/
def link : Label → Option LinkLabel
  | .connect ok => some (.connect ok)
  | .recv l => some (.recv l)
  | .close => some .close
  | .send ok => some (.send ok)
  | _ => none

/-- The step as one of the receive task in its loops. -/
def recvLabel : Label → Option RecvLabel
  | .recv l => some l
  | _ => none

/-- The step as one of another task of the machine. -/
def machine : Label → Option Machine.Label
  | .arrive n bits => some (.arrive n bits)
  | .isr n clock => some (.isr n clock)
  | .crash n => some (.crash n)
  | .trig n => some (.trig n)
  | _ => none

/-- The step as one of a task of the position tests. -/
def tests : Label → Option Position.Label
  | .writeKp n => some (.writeKp n)
  | .dis l => some (.dis l)
  | _ => none

end Label

/-- The state after start-up. -/
def init (param : Mem) (isrClr : Station → UInt16) (memory : Buffer → SampleArray)
    (posMemory : PosList → Buffer → PositionArray) : Program where
  link := .init param
  machine := .init isrClr memory
  tests := Position.init posMemory
  handler := .idle
  handled := 0
  exited := false

variable (cfg : SysConfig) (version : Vector UInt8 32) (p : Program)

/-- The process has ended. -/
def ended : Bool := p.exited || p.machine.exited

/-- The receive task is in `local_cmd_analyze`. -/
def Handling : Prop := p.handled < p.link.recv.analyzed.length

instance : Decidable p.Handling := inferInstanceAs (Decidable (_ < _))

def withMachine (m : Machine) : Program := { p with machine := m }

def withTests (t : Position.State) : Program := { p with tests := t }

/-- The receive task enters a handler. -/
def enter (h : Handler) : Program := { p with handler := h }

/-- A message is posted to the send task. -/
def post (m : LocalMsg) : Program := { p with link := p.link.postAll [m] }

/-- `local_cmd_analyze` has returned. -/
def returned : Program := { p with handler := .idle, handled := p.handled + 1 }

/-- `ERROR`. -/
def exit : Program := { p with exited := true }

/-- `local_cmd_analyze` is called. -/
def call : Order → Option Program
  | .handshake => some (p.post (.handshake version)).returned
  | .reset =>
    (p.machine.step cfg .reset).bind fun m =>
      (p.tests.step .reset).map fun t => ((p.withMachine m).withTests t).enter .reset
  | .sample r => (p.machine.step cfg (.sample r)).map fun m => (p.withMachine m).enter (.sample r)
  | .posTest item =>
    (p.machine.step cfg (.command item)).bind fun m =>
      (p.tests.step (.posTest item)).map fun t => ((p.withMachine m).withTests t).enter .posTest
  | .other => some p.returned

/-- The station of the test that `recv_sample_result` stores a record for. -/
def storing : Option Station :=
  if (p.tests.line (.c1Kt .one)).prod ≠ .idle then some .one
  else if (p.tests.line (.c1Kt .two)).prod ≠ .idle then some .two
  else none

/-- `local_cmd_analyze` goes on. -/
def stepHandler : Option Program :=
  match p.handler with
  | .idle => p.link.recv.analyzed[p.handled]?.bind fun c => p.call cfg version c.order
  | .sample r =>
    if p.machine.sys.recv = .idle then
      (p.tests.step (.sample r.count r.wheelCode)).map fun t => (p.withTests t).enter .store
    else (p.machine.step cfg .recv).map p.withMachine
  | .store =>
    match p.storing with
    | none => some p.returned
    | some n =>
      match p.tests.step (.recv n) with
      -- `buf_factory_produce` finds no buffer
      | none => some p.exit
      | some t => some (p.withTests t)
  | .reset =>
    if p.machine.sys.recv = .idle then some p.returned
    else
      (p.machine.step cfg .recv).map fun m =>
        if p.machine.sys.recv = .reply then (p.withMachine m).post .reset else p.withMachine m
  | .posTest =>
    if p.machine.isr.recv = .idle then some p.returned
    else (p.machine.step cfg .recv).map p.withMachine

/-- What the next step of an interrupt task is to the position tests. -/
def isrEvent (n : Station) (clock : Isr.Clock) : Isr.Pc → Option Position.Label
  | .also _ code _ => some (.kick n code)
  | .report _ .cmd _ => some (.cmd n clock.time)
  | .report _ .feedback _ => some (.feedback n clock.time)
  | _ => none

/-- The position tests after the next step of an interrupt task: the event occurs, and its message
is posted if its test is selected. -/
def isrTests (n : Station) (clock : Isr.Clock) : Option Position.State :=
  match isrEvent n clock (p.machine.isr.side n).pc with
  | none => some p.tests
  | some a => (p.tests.step a).map fun t => (t.stepIsr n).getD t

/-- `write_kp1_array_tsk` or `write_kp2_array_tsk` asks `buf_factory_produce` for a buffer, and
there is none. -/
def fullKp (n : Station) : Prop :=
  (p.tests.line (.kpKft n)).prod ≠ .idle ∧ p.tests.step (.writeKp n) = none

instance (n : Station) : Decidable (p.fullKp n) :=
  decidable_of_iff
    ((p.tests.line (.kpKft n)).prod ≠ .idle ∧ (p.tests.step (.writeKp n)).isNone = true)
    (by rw [Option.isNone_iff_eq_none, fullKp])

/-- A handler asks `msg_factory_produce` for the message of its reply. -/
def replying : Prop :=
  (p.handler = .idle ∧ p.link.recv.analyzed[p.handled]?.map SrvCmd.order = some .handshake) ∨
    (p.handler = .reset ∧ p.machine.sys.recv = .reply)

instance : Decidable p.replying := inferInstanceAs (Decidable (_ ∨ _))

/-- The message that a position task posts in its next step. -/
def report (l : PosList) : Option LocalMsg :=
  match (p.tests.line l).pc with
  | .report _ _ => some (.posReport (item l) (p.tests.line l).dis)
  | _ => none

/-- The variable `dis` of the position task that reports under an item. -/
def disOf (i : UInt32) : UInt32 :=
  if i = item (.c1Kt .one) then (p.tests.line (.c1Kt .one)).dis
  else if i = item (.kpKft .one) then (p.tests.line (.kpKft .one)).dis
  else if i = item (.c1Kt .two) then (p.tests.line (.c1Kt .two)).dis
  else (p.tests.line (.kpKft .two)).dis

/-- Where the send task stands before it writes.  A report carries the address of the variable `dis`
of its task, which is read when its third payload is written. -/
def reading : SendPc :=
  match p.link.send with
  | .write num (.posReport i _) 2 => .write num (.posReport i (p.disOf i)) 2
  | pc => pc

/-- The link as a step meets it. -/
def meets : Label → Link
  | .send true => { p.link with send := p.reading }
  | _ => p.link

/-- A step of a position task. -/
def stepDis (l : PosList) : Option Program :=
  (p.tests.step (.dis l)).map fun t =>
    { p with tests := t, link := p.link.postAll (p.report l).toList }

/-- One step. -/
def step (p : Program) (a : Label) : Option Program :=
  if p.ended then none
  else
    match a with
    | .handle => p.stepHandler cfg version
    | .arrive n bits => (p.machine.step cfg (.arrive n bits)).map p.withMachine
    | .isr n clock =>
      (p.machine.step cfg (.isr n clock)).bind fun m =>
        (p.isrTests n clock).map fun t => (p.withMachine m).withTests t
    | .crash n => (p.machine.step cfg (.crash n)).map p.withMachine
    | .trig n => (p.machine.step cfg (.trig n)).map p.withMachine
    | .writeKp n => (p.tests.step (.writeKp n)).map p.withTests
    | .crashKp n => if p.fullKp n then some p.exit else none
    | .crashReply => if p.replying then some p.exit else none
    | .crashDis l => if (p.report l).isSome then some p.exit else none
    | .dis l => p.stepDis l
    | .recv l =>
      if p.Handling then none else (p.link.step (.recv l)).map fun k => { p with link := k }
    | .connect ok => (p.link.step (.connect ok)).map fun k => { p with link := k }
    | .close => (p.link.step .close).map fun k => { p with link := k }
    | .send ok => ((p.meets (.send ok)).step (.send ok)).map fun k => { p with link := k }

/-! ## What a step does -/

/-- The handler has nothing left to do. -/
def Done : Prop :=
  (p.handler = .store ∧ p.storing = none) ∨ (p.handler = .reset ∧ p.machine.sys.recv = .idle) ∨
    (p.handler = .posTest ∧ p.machine.isr.recv = .idle)

/-- The handler goes on in the part of the sample lists and interrupt registers. -/
def InMachine : Prop :=
  ((∃ r, p.handler = .sample r) ∨ p.handler = .reset) ∧ p.machine.sys.recv ≠ .idle ∨
    p.handler = .posTest ∧ p.machine.isr.recv ≠ .idle

/-- The reply to a reset is posted in the next step. -/
def replies : List LocalMsg :=
  if p.handler = .reset ∧ p.machine.sys.recv = .reply then [.reset] else []

/-- The steps, one case for each thing that can happen. -/
inductive Step : Label → Program → Prop
  | link (a : Label) (l : LinkLabel) (k : Link) (hl : a.link = some l)
      (hrecv : a.recvLabel.isSome → ¬ p.Handling) (hk : (p.meets a).step l = some k) :
      Step a { p with link := k }
  | call (c : SrvCmd) (p' : Program) (hh : p.handler = .idle)
      (hc : p.link.recv.analyzed[p.handled]? = some c)
      (hp : p.call cfg version c.order = some p') : Step .handle p'
  | written (r : SampleResult) (t : Position.State) (hh : p.handler = .sample r)
      (hidle : p.machine.sys.recv = .idle)
      (ht : p.tests.step (.sample r.count r.wheelCode) = some t) :
      Step .handle ((p.withTests t).enter .store)
  | run (m : Machine) (hh : p.InMachine) (hm : p.machine.step cfg .recv = some m) :
      Step .handle { p with machine := m, link := p.link.postAll p.replies }
  | store (n : Station) (t : Position.State) (hh : p.handler = .store) (hn : p.storing = some n)
      (ht : p.tests.step (.recv n) = some t) : Step .handle (p.withTests t)
  | full (n : Station) (hh : p.handler = .store) (hn : p.storing = some n)
      (ht : p.tests.step (.recv n) = none) : Step .handle p.exit
  | done (hh : p.Done) : Step .handle p.returned
  | machine (a : Label) (b : Machine.Label) (m : Machine) (hb : a.machine = some b)
      (hisr : ∀ n clock, b ≠ .isr n clock) (htests : a.tests = none)
      (hm : p.machine.step cfg b = some m) : Step a (p.withMachine m)
  | isr (n : Station) (clock : Isr.Clock) (m : Machine) (t : Position.State)
      (hm : p.machine.step cfg (.isr n clock) = some m) (ht : p.isrTests n clock = some t) :
      Step (.isr n clock) ((p.withMachine m).withTests t)
  | writeKp (n : Station) (t : Position.State) (ht : p.tests.step (.writeKp n) = some t) :
      Step (.writeKp n) (p.withTests t)
  | crashKp (n : Station) (ht : p.fullKp n) : Step (.crashKp n) p.exit
  | crashReply (hr : p.replying) : Step .crashReply p.exit
  | crashDis (l : PosList) (hr : (p.report l).isSome) : Step (.crashDis l) p.exit
  | dis (l : PosList) (t : Position.State) (ht : p.tests.step (.dis l) = some t) :
      Step (.dis l) { p with tests := t, link := p.link.postAll (p.report l).toList }

variable {cfg version p} {p' : Program} {a : Label}

lemma stepHandler_inv (hs : p.stepHandler cfg version = some p') :
    Step cfg version p .handle p' := by
  have hnil : p.link.postAll [] = p.link := by simp [Link.postAll]
  rw [stepHandler] at hs
  cases hh : p.handler with
  | idle =>
    rw [hh] at hs
    obtain ⟨c, hc, hp⟩ := Option.bind_eq_some_iff.1 hs
    exact .call c p' hh hc hp
  | sample r =>
    rw [hh] at hs
    dsimp only at hs
    split at hs
    · next hidle =>
      obtain ⟨t, ht, rfl⟩ := Option.map_eq_some_iff.1 hs
      exact .written r t hh hidle ht
    · next hidle =>
      obtain ⟨m, hm, rfl⟩ := Option.map_eq_some_iff.1 hs
      have hstep : Step cfg version p .handle
          { p with machine := m, link := p.link.postAll p.replies } :=
        .run m (.inl ⟨.inl ⟨r, hh⟩, hidle⟩) hm
      simpa [replies, hh, hnil, withMachine] using hstep
  | store =>
    rw [hh] at hs
    dsimp only at hs
    cases hn : p.storing with
    | none =>
      obtain rfl : p.returned = p' := by simpa [hn] using hs
      exact .done (.inl ⟨hh, hn⟩)
    | some n =>
      rw [hn] at hs
      dsimp only at hs
      cases ht : p.tests.step (.recv n) with
      | none =>
        obtain rfl : p.exit = p' := by simpa [ht] using hs
        exact .full n hh hn ht
      | some t =>
        obtain rfl : p.withTests t = p' := by simpa [ht] using hs
        exact .store n t hh hn ht
  | reset =>
    rw [hh] at hs
    dsimp only at hs
    split at hs
    · next hidle =>
      obtain rfl := Option.some.inj hs
      exact .done (.inr (.inl ⟨hh, hidle⟩))
    · next hidle =>
      obtain ⟨m, hm, rfl⟩ := Option.map_eq_some_iff.1 hs
      have hstep : Step cfg version p .handle
          { p with machine := m, link := p.link.postAll p.replies } :=
        .run m (.inl ⟨.inr hh, hidle⟩) hm
      by_cases hr : p.machine.sys.recv = .reply
      · simpa [replies, hh, hr, post, withMachine] using hstep
      · simpa [replies, hh, hr, hnil, withMachine] using hstep
  | posTest =>
    rw [hh] at hs
    dsimp only at hs
    split at hs
    · next hidle =>
      obtain rfl := Option.some.inj hs
      exact .done (.inr (.inr ⟨hh, hidle⟩))
    · next hidle =>
      obtain ⟨m, hm, rfl⟩ := Option.map_eq_some_iff.1 hs
      have hstep : Step cfg version p .handle
          { p with machine := m, link := p.link.postAll p.replies } :=
        .run m (.inr ⟨hh, hidle⟩) hm
      simpa [replies, hh, hnil, withMachine] using hstep

lemma step_inv (hs : p.step cfg version a = some p') :
    p.ended = false ∧ Step cfg version p a p' := by
  unfold step at hs
  split at hs
  · cases hs
  next hover =>
  refine ⟨Bool.eq_false_iff.2 hover, ?_⟩
  cases a with
  | handle => exact stepHandler_inv hs
  | arrive n bits =>
    obtain ⟨m, hm, rfl⟩ := Option.map_eq_some_iff.1 hs
    exact .machine _ (.arrive n bits) m rfl (by rintro _ _ ⟨⟩) rfl hm
  | isr n clock =>
    obtain ⟨m, hm, hs⟩ := Option.bind_eq_some_iff.1 hs
    obtain ⟨t, ht, rfl⟩ := Option.map_eq_some_iff.1 hs
    exact .isr n clock m t hm ht
  | crash n =>
    obtain ⟨m, hm, rfl⟩ := Option.map_eq_some_iff.1 hs
    exact .machine _ (.crash n) m rfl (by rintro _ _ ⟨⟩) rfl hm
  | trig n =>
    obtain ⟨m, hm, rfl⟩ := Option.map_eq_some_iff.1 hs
    exact .machine _ (.trig n) m rfl (by rintro _ _ ⟨⟩) rfl hm
  | writeKp n =>
    obtain ⟨t, ht, rfl⟩ := Option.map_eq_some_iff.1 hs
    exact .writeKp n t ht
  | crashKp n =>
    simp only [Option.ite_none_right_eq_some, Option.some.injEq] at hs
    obtain ⟨ht, rfl⟩ := hs
    exact .crashKp n ht
  | crashReply =>
    simp only [Option.ite_none_right_eq_some, Option.some.injEq] at hs
    obtain ⟨hr, rfl⟩ := hs
    exact .crashReply hr
  | crashDis l =>
    simp only [Option.ite_none_right_eq_some, Option.some.injEq] at hs
    obtain ⟨hr, rfl⟩ := hs
    exact .crashDis l hr
  | dis l =>
    obtain ⟨t, ht, rfl⟩ := Option.map_eq_some_iff.1 hs
    exact .dis l t ht
  | recv l =>
    simp only [Option.ite_none_left_eq_some] at hs
    obtain ⟨hno, hs⟩ := hs
    obtain ⟨k, hk, rfl⟩ := Option.map_eq_some_iff.1 hs
    exact .link _ _ k rfl (fun _ => hno) hk
  | connect ok =>
    obtain ⟨k, hk, rfl⟩ := Option.map_eq_some_iff.1 hs
    exact .link _ _ k rfl (by simp [Label.recvLabel]) hk
  | close =>
    obtain ⟨k, hk, rfl⟩ := Option.map_eq_some_iff.1 hs
    exact .link _ _ k rfl (by simp [Label.recvLabel]) hk
  | send ok =>
    obtain ⟨k, hk, rfl⟩ := Option.map_eq_some_iff.1 hs
    exact .link _ _ k rfl (by simp [Label.recvLabel]) hk

end Program

end RejectProcess
