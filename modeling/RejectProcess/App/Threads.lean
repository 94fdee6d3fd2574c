import RejectProcess.Lib.Locks
import RejectProcess.Sample.Publish
import RejectProcess.Sample.Window
import RejectProcess.Tool.Message

/-!
# The tasks and their mutexes

The control flow of every task of the program: what it locks and unlocks, and where else it may
block.  A test on data is left open, since the data is of no concern to the mutexes; `ERROR` ends
the process.
-/

namespace RejectProcess.Threads

open Lib Publish

/-- The mutexes. -/
inductive Mutex
  /-- `mutex_k1_list`, `mutex_c1_kt1_list` and so on: of the six sample lists. -/
  | list (l : SList)
  /-- `list_mutex` of a buffer factory. -/
  | factory (p : Publish.Pool)
  /-- `list_mutex` of `g_msg_factory`. -/
  | msgFactory
deriving DecidableEq, Repr

/-- The mailboxes. -/
inductive Mailbox
  /-- `g_local_mbx_id`. -/
  | localMbx
  /-- `g_pos_kick1_mbx_id` and `g_pos_kick2_mbx_id`. -/
  | posKick (n : Station)
  | posKt (n : Station)
  | posKp (n : Station)
  | posKft (n : Station)
deriving DecidableEq, Repr

/-- What else a task may wait for. -/
inductive Blocking
  | mailboxPend (b : Mailbox)
  /-- The mailbox may be full. -/
  | mailboxPost (b : Mailbox)
  /-- `sem_wait(&gsem_link)`. -/
  | semWait
  | connect
  | read
  | write
  /-- `read` of `kick_fd`. -/
  | readKick
  | sigwaitinfo
  | usleep
deriving DecidableEq, Repr

/-- Where a jump goes. -/
inductive Jump
  | ret
  | brk
  | cont
  /-- `recycle` of `local_send_tsk`. -/
  | recycle
  /-- `revReconnect` of `local_recv_tsk`. -/
  | revReconnect
deriving DecidableEq, Repr

/-- The functions. -/
inductive Fn
  | bufFactoryProduce (p : Publish.Pool)
  | bufFactoryRecycle (p : Publish.Pool)
  | msgFactoryProduce
  | msgFactoryRecycle
  | searchCountArray
  | searchWheelcodeArray
  | writeArray
  | clearArray
  | recvHandshakeCmd
  | recvResetCmd
  | recvPosTestCmd
  | recvSampleResult
  | localCmdAnalyze
deriving DecidableEq, Repr

/-- A piece of the program. -/
abbrev Code := Stmt Mutex Blocking Jump Fn

/-- A function with its body. -/
def fn (f : Fn) (body : List Code) : Code := .call f (.target .ret (.block body))

/-- `if` without `else`. -/
def ifThen (body : List Code) : Code := .ite (.block body) .skip

/-- `while` with a test on data. -/
def whileTest (body : List Code) : Code := .target .brk (.loop (.target .cont (.block body)))

/-- `while(1)`. -/
def whileOne (body : List Code) : Code := .target .brk (.forever (.target .cont (.block body)))

/-- `mailbox_pend`. -/
def mailboxPend (b : Mailbox) : Code := .block [.wait (.mailboxPend b), ifThen [.exit]]

/-- `mailbox_post`. -/
def mailboxPost (b : Mailbox) : Code := .block [.wait (.mailboxPost b), ifThen [.exit]]

/-! ## The factories -/

/-- `buf_factory_produce`. -/
def bufFactoryProduce (p : Publish.Pool) : Code :=
  fn (.bufFactoryProduce p) [
    .lock (.factory p),
    -- `list_empty`
    ifThen [.exit],
    .unlock (.factory p),
    .jump .ret]

/-- `buf_factory_recycle`. -/
def bufFactoryRecycle (p : Publish.Pool) : Code :=
  fn (.bufFactoryRecycle p) [.lock (.factory p), .unlock (.factory p)]

/-- `msg_factory_produce`. -/
def msgFactoryProduce : Code :=
  fn .msgFactoryProduce [
    .lock .msgFactory,
    -- `list_empty`
    ifThen [.exit],
    .unlock .msgFactory,
    .jump .ret]

/-- The callbacks of a message; `none` is `NULL`. -/
structure Callbacks where
  /-- `payload[i].release`. -/
  payload : List (Option Code)
  /-- `release`, which is called if there is a `resource`. -/
  release : Option Code
  finish : Option Code

/-- The callbacks of a message of this program: `msg_factory_produce` clears all of them, and every
`set_data` is given `NULL`. -/
def Callbacks.null : Callbacks where
  payload := .replicate payloadNumMax none
  release := none
  finish := none

/-- `msg_factory_recycle`. -/
def msgFactoryRecycle (cb : Callbacks) : Code :=
  fn .msgFactoryRecycle [
    .lock .msgFactory,
    .block (cb.payload.map fun release => release.getD .skip),
    -- `msg->resource`
    ifThen [cb.release.getD .skip],
    cb.finish.getD .skip,
    .unlock .msgFactory]

/-- A message is produced, filled and sent. -/
def send (b : Mailbox) : Code := .block [msgFactoryProduce, mailboxPost b]

/-! ## The sample lists -/

/-- The locked part of the search functions. -/
def searchList (n : Station) : List Code := [
  .lock (.list (.sample n)),
  whileTest [
    -- the test of the sample
    ifThen [
      bufFactoryRecycle .c1Sample,
      .unlock (.list (.sample n)),
      .jump .ret]],
  .unlock (.list (.sample n)),
  .jump .ret]

/-- `search_count_array`. -/
def searchCountArray : Code := fn .searchCountArray (searchList .one)

/-- `search_wheelcode_array`. -/
def searchWheelcodeArray (pos : UInt32) : Code :=
  fn .searchWheelcodeArray (searchList (searchStation pos))

/-- A record is linked under the mutex of its list. -/
def addTail (l : SList) : Code := .block [.lock (.list l), .unlock (.list l)]

/-- `write_array`. -/
def writeArray : Code :=
  fn .writeArray [
    -- `sample.pos != 0`
    ifThen [
      bufFactoryProduce .c1Sample,
      .ite (addTail (.sample .one)) (ifThen [addTail (.sample .two)])]]

/-- The part of `clear_array` for one list. -/
def clearList (n : Station) : Code :=
  .block [
    .lock (.list (.sample n)),
    whileTest [bufFactoryRecycle .c1Sample],
    .unlock (.list (.sample n))]

/-- `clear_array`. -/
def clearArray : Code := fn .clearArray [clearList .one, clearList .two]

/-- `trig1_search_tsk`. -/
def trig1SearchTsk : Code :=
  whileOne [
    mailboxPend (.posKick .one),
    -- `kick_mode`
    .ite searchCountArray (searchWheelcodeArray 1),
    msgFactoryRecycle .null]

/-- `trig2_search_tsk`. -/
def trig2SearchTsk : Code :=
  whileOne [
    mailboxPend (.posKick .two),
    searchWheelcodeArray 2,
    msgFactoryRecycle .null]

/-! ## The position tests -/

/-- The position task of a list, with the mailbox it reads. -/
def disTsk (b : Mailbox) (l : PosList) : Code :=
  whileOne [
    mailboxPend b,
    -- `list_empty`
    .ite .skip (.block [
      .lock (.list (.pos l)),
      .unlock (.list (.pos l)),
      bufFactoryRecycle (.pos l)]),
    msgFactoryRecycle .null,
    send .localMbx]

/-- `dis_c1_kt1_tsk`. -/
def disC1Kt1Tsk : Code := disTsk (.posKt .one) (.c1Kt .one)

/-- `dis_kp1_kft1_tsk`. -/
def disKp1Kft1Tsk : Code := disTsk (.posKft .one) (.kpKft .one)

/-- `dis_c1_kt2_tsk`. -/
def disC1Kt2Tsk : Code := disTsk (.posKt .two) (.c1Kt .two)

/-- `dis_kp2_kft2_tsk`. -/
def disKp2Kft2Tsk : Code := disTsk (.posKft .two) (.kpKft .two)

/-- `write_kp1_array_tsk` and `write_kp2_array_tsk`. -/
def writeKpArrayTsk (n : Station) : Code :=
  whileOne [
    mailboxPend (.posKp n),
    bufFactoryProduce (.pos (.kpKft n)),
    addTail (.pos (.kpKft n)),
    msgFactoryRecycle .null]

/-! ## The interrupts -/

/-- The inner loop of the interrupt tasks. -/
def isrLoop (n : Station) : Code :=
  whileTest [
    -- `status & 0x01`, and in it `pos_test_item`
    ifThen [send (.posKick n), ifThen [send (.posKt n)]],
    -- `status & 0x0002`
    ifThen [ifThen [send (.posKp n)]],
    -- `status & 0x0004`
    ifThen [ifThen [send (.posKft n)]]]

/-- `kick1_isr_tsk`. -/
def kick1IsrTsk : Code :=
  whileOne [
    .wait .sigwaitinfo,
    -- `rc != -1`, and `info.si_signo == SIGIO`
    ifThen [ifThen [isrLoop .one]]]

/-- `kick2_isr_tsk`. -/
def kick2IsrTsk : Code :=
  whileOne [
    .wait .readKick,
    -- `err != -1`
    ifThen [isrLoop .two]]

/-! ## The connection -/

/-- `recv_handshake_cmd`. -/
def recvHandshakeCmd : Code := fn .recvHandshakeCmd [send .localMbx]

/-- `recv_reset_cmd`. -/
def recvResetCmd : Code := fn .recvResetCmd [clearArray, send .localMbx]

/-- `recv_pos_test_cmd`, which only writes registers. -/
def recvPosTestCmd : Code := fn .recvPosTestCmd []

/-- The part of `recv_sample_result` for a position test. -/
def recvPosition (n : Station) : Code :=
  .block [bufFactoryProduce (.pos (.c1Kt n)), addTail (.pos (.c1Kt n))]

/-- `recv_sample_result`. -/
def recvSampleResult : Code :=
  fn .recvSampleResult [
    writeArray,
    -- `pos_test_item`
    .ite (recvPosition .one) (ifThen [recvPosition .two])]

/-- `local_cmd_analyze`. -/
def localCmdAnalyze : Code :=
  fn .localCmdAnalyze [
    .ite recvHandshakeCmd <| .ite recvResetCmd <| .ite recvSampleResult <| ifThen [recvPosTestCmd]]

/-- `local_connect_tsk`. -/
def localConnectTsk : Code :=
  whileOne [
    .wait .usleep,
    -- `connect_status`
    ifThen [.jump .cont],
    whileOne [
      .wait .connect,
      .ite (.wait .usleep) (.jump .brk)]]

/-- `local_send_tsk`. -/
def localSendTsk : Code :=
  whileOne [
    mailboxPend .localMbx,
    -- `connect_status == 0`
    ifThen [msgFactoryRecycle .null, .jump .cont],
    .target .recycle (whileTest [
      whileTest [
        .wait .write,
        -- `nsend <= 0`
        ifThen [.jump .recycle]]]),
    msgFactoryRecycle .null]

/-- One of the loops of `local_recv_tsk` that read a command; `shutdown` and `close` do not wait
for the peer. -/
def recvLoop : Code :=
  whileTest [
    .wait .read,
    -- `nrecv <= 0`
    ifThen [.jump .revReconnect]]

/-- `local_recv_tsk`: `revReconnect` is in front of all of it. -/
def localRecvTsk : Code :=
  .forever <| .target .revReconnect <| .block [
    .wait .semWait,
    whileOne [recvLoop, recvLoop, localCmdAnalyze]]

/-! ## The program -/

/-- The tasks. -/
inductive Task
  | localConnect
  | localSend
  | localRecv
  | kickIsr (n : Station)
  | trigSearch (n : Station)
  /-- `dis_c1_kt1_tsk` and `dis_c1_kt2_tsk`. -/
  | disC1Kt (n : Station)
  /-- `dis_kp1_kft1_tsk` and `dis_kp2_kft2_tsk`. -/
  | disKpKft (n : Station)
  | writeKpArray (n : Station)
deriving DecidableEq, Repr

/-- What each task runs. -/
def program : Task → Code
  | .localConnect => localConnectTsk
  | .localSend => localSendTsk
  | .localRecv => localRecvTsk
  | .kickIsr .one => kick1IsrTsk
  | .kickIsr .two => kick2IsrTsk
  | .trigSearch .one => trig1SearchTsk
  | .trigSearch .two => trig2SearchTsk
  | .disC1Kt .one => disC1Kt1Tsk
  | .disC1Kt .two => disC1Kt2Tsk
  | .disKpKft .one => disKp1Kft1Tsk
  | .disKpKft .two => disKp2Kft2Tsk
  | .writeKpArray n => writeKpArrayTsk n

/-- The threads with their mutexes. -/
abbrev State := LockState Task Mutex Blocking Jump Fn

end RejectProcess.Threads
