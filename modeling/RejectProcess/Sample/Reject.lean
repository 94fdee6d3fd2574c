import RejectProcess.Lib.Run
import RejectProcess.Sample.Tasks

/-!
# The reject process without its buffers

What the tasks around the sample lists are for, in terms of samples: at each station samples wait
in the order of their arrival, a trigger takes the first one that passes its test, and a command
says whether there was one.  There are neither buffers nor records here, only the number of samples
that still have room, and no history.
-/

namespace RejectProcess

namespace Reject

/-- Where a search task stands. -/
inductive Trig
  | idle
  | pended (code : UInt64)
  | counting (code : UInt64) (cur : UInt32)
  | counted (code : UInt64)
  | searching (q : Query)
  | searched (found : Bool)
  | written
deriving DecidableEq, Repr

/-- Where the receive task stands. -/
inductive Recv
  | idle
  | produce (r : SampleResult)
  | link (r : SampleResult)
  | zero
  | clear1
  | clear2
  | reply
  | finish
deriving DecidableEq, Repr

end Reject

/-- The samples that wait at the stations, the room for further ones, the trigger counter, the
triggers that wait, where the tasks stand, and the commands so far, as registers and values. -/
@[ext]
structure Reject where
  waiting : Station → List SampleResult
  room : ℕ
  count : UInt32
  mbx : Station → List UInt64
  recv : Reject.Recv
  trig : Station → Reject.Trig
  fifo : List (ℕ × UInt16)
  exited : Bool

namespace Reject

/-- Nobody has done anything yet. -/
def init : Reject where
  waiting := fun _ => []
  room := 128
  count := 0
  mbx := fun _ => []
  recv := .idle
  trig := fun _ => .idle
  fifo := []
  exited := false

variable (v : Reject)

/-- Move a search task. -/
def setTrig (n : Station) (pc : Trig) : Reject :=
  { v with trig := Function.update v.trig n pc }

/-- A trigger is posted. -/
def post (n : Station) (code : UInt64) : Reject :=
  { v with mbx := Function.update v.mbx n (v.mbx n ++ [code]) }

/-- A trigger is taken. -/
def pend (n : Station) (code : UInt64) (rest : List UInt64) : Reject :=
  { v.setTrig n (.pended code) with mbx := Function.update v.mbx n rest }

/-- The wheel code of the last trigger, which is what the search task reads. -/
def wheelCode (n : Station) (code : UInt64) : UInt64 := (v.mbx n).getLast?.getD code

/-- The first waiting sample that passes the test leaves, and its room is free again. -/
def search (cfg : SysConfig) (n : Station) (q : Query) : Reject :=
  if (v.waiting n).any (q.test cfg n) then
    { v.setTrig n (.searched true) with
      waiting := Function.update v.waiting n ((v.waiting n).eraseP (q.test cfg n))
      room := v.room + 1 }
  else v.setTrig n (.searched false)

/-- The command that follows a search. -/
def command (n : Station) (found : Bool) : Reject :=
  { v.setTrig n .written with fifo := v.fifo ++ [(n.comFifoReg, if found then 1 else 0)] }

/-- One step of the search task of station `n`. -/
def stepTrig (cfg : SysConfig) (n : Station) : Option Reject :=
  match v.trig n with
  | .idle =>
    match v.mbx n with
    | [] => none
    | code :: rest => some (v.pend n code rest)
  | .pended code =>
    match n with
    | .one => some (v.setTrig .one (.counting code v.count))
    | .two => some (v.setTrig .two (.searching (.wheelCode (v.wheelCode .two code))))
  | .counting code cur => some { v.setTrig n (.counted code) with count := cur + 1 }
  | .counted code =>
    if cfg.kickMode = 0 then some (v.setTrig n (.searching (.count v.count)))
    else some (v.setTrig n (.searching (.wheelCode (v.wheelCode n code))))
  | .searching q => some (v.search cfg n q)
  | .searched found => some (v.command n found)
  | .written => some (v.setTrig n .idle)

/-- A sample takes its place at the end of the line of its station.  One that names no station
waits nowhere, and its room is not free again. -/
def link (r : SampleResult) : Reject :=
  { v with
    recv := .idle
    waiting := match stationOf r.pos with
      | some n => Function.update v.waiting n (v.waiting n ++ [r])
      | none => v.waiting }

/-- All samples at a station leave. -/
def clear (n : Station) (pc : Recv) : Reject :=
  { v with
    recv := pc
    waiting := Function.update v.waiting n []
    room := v.room + (v.waiting n).length }

/-- One step of the receive task inside a command. -/
def stepRecv : Option Reject :=
  match v.recv with
  | .idle => none
  | .produce r =>
    match v.room with
    | 0 => some { v with exited := true }
    | room + 1 => some { v with room := room, recv := .link r }
  | .link r => some (v.link r)
  | .zero => some { v with count := 0, recv := .clear1 }
  | .clear1 => some (v.clear .one .clear2)
  | .clear2 => some (v.clear .two .reply)
  | .reply => some { v with recv := .finish }
  | .finish => some { v with recv := .idle }

/-- One step. -/
def step (cfg : SysConfig) (v : Reject) (l : Label) : Option Reject :=
  if v.exited then none else
  match l with
  | .sample r =>
    if v.recv = .idle then
      some { v with recv := if r.pos ≠ 0 then .produce r else .idle }
    else none
  | .reset => if v.recv = .idle then some { v with recv := .zero } else none
  | .recv => v.stepRecv
  | .kick n code => some (v.post n code)
  | .trig n => v.stepTrig cfg n

end Reject

/-! ## What is seen of the tasks -/

/-- The position of a search task without its history. -/
def TrigPc.view : TrigPc → Reject.Trig
  | .idle => .idle
  | .pended k => .pended k.code
  | .counting k cur => .counting k.code cur
  | .counted k => .counted k.code
  | .searching _ q _ => .searching q
  | .searched r => .searched r.found.isSome
  | .written _ => .written

/-- The position of the receive task without the buffer in its hands. -/
def RecvPc.view : RecvPc → Reject.Recv
  | .idle => .idle
  | .produce r => .produce r
  | .link r _ => .link r
  | .zero => .zero
  | .clear1 => .clear1
  | .clear2 => .clear2
  | .reply => .reply
  | .finish => .finish

namespace Sys

/-- The samples behind the buffers. -/
def view (s : Sys) : Reject where
  waiting := fun n => (s.mem.list n).map s.mem.sample
  room := s.mem.sampleBuf.list.length
  count := s.curCountKt1
  mbx := fun n => (s.mbx n).map Kick.code
  recv := s.recv.view
  trig := fun n => (s.trig n).view
  fifo := s.fifo.map fun c => (c.reg, c.val)
  exited := s.exited

end Sys

end RejectProcess
