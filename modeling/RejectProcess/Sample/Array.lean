import Mathlib.Data.UInt
import RejectProcess.App.SysConf
import RejectProcess.Tool.BufFactory

/-!
# The reject samples waiting at the two stations

`sample/array.c`: samples to be rejected wait in one list for each station, and a trigger of
a station searches its list for the sample of the product that is passing.  The records live
in the buffers of `g_c1_sample_buf`; a list of records is the sequence of their buffers.
-/

namespace RejectProcess

/-- `SampleResult`, the record a sample frame carries. -/
structure SampleResult where
  result : Vector UInt8 8
  count : UInt32
  wheelCode : UInt64
  pos : UInt32
  alarm : UInt32
deriving DecidableEq, Repr

/-- `SampleArray`, what `write_array` keeps in a buffer: the sample and the buffer itself. -/
structure SampleArray where
  sample : SampleResult
  buf : Buffer
deriving DecidableEq, Repr

/-- The two reject stations. -/
inductive Station
  | one
  | two
deriving DecidableEq, Repr

/-- `FPGA_COM1FIFO_REG`. -/
def fpgaCom1FifoReg : ℕ := 0x280

/-- `FPGA_COM2FIFO_REG`. -/
def fpgaCom2FifoReg : ℕ := 0x288

/-- The command register of a station. -/
def Station.comFifoReg : Station → ℕ
  | .one => fpgaCom1FifoReg
  | .two => fpgaCom2FifoReg

/-- The `pos` value by which a sample names a station. -/
def Station.pos : Station → UInt32
  | .one => 1
  | .two => 2

/-- The sample buffers and the two lists: `g_c1_sample_buf`, `g_k1_sample_list` and
`g_k2_sample_list`. -/
structure ArrayMem where
  sampleBuf : BufferFactory SampleArray
  k1SampleList : List Buffer
  k2SampleList : List Buffer

namespace ArrayMem

/-- The list of a station. -/
def list (m : ArrayMem) : Station → List Buffer
  | .one => m.k1SampleList
  | .two => m.k2SampleList

/-- Replace the list of a station. -/
def setList (m : ArrayMem) (n : Station) (l : List Buffer) : ArrayMem :=
  match n with
  | .one => { m with k1SampleList := l }
  | .two => { m with k2SampleList := l }

/-- Replace the factory: its free list and the memory of its buffers. -/
def setBuf (m : ArrayMem) (f : BufferFactory SampleArray) : ArrayMem :=
  { m with sampleBuf := f }

/-- The sample a buffer holds. -/
def sample (m : ArrayMem) (b : Buffer) : SampleResult := (m.sampleBuf.memory b).sample

end ArrayMem

/-- `buf_factory_recycle(0, parray->buf, g_c1_sample_buf)`. -/
def recycleRecord (m : ArrayMem) (parray : SampleArray) : ArrayMem :=
  m.setBuf (m.sampleBuf.recycle parray.buf)

/-! ## Comparing wheel codes -/

/-- `abs` applied to a `__u64`: the argument is converted to a 32-bit `int`, and the result
back to `__u64`.  `abs(INT_MIN)` is `INT_MIN`, as `Int32.abs` has it. -/
def absInt (x : UInt64) : UInt64 := x.toInt64.toInt32.abs.toInt64.toUInt64

/-- The distance from the camera to kick tube 1 that both stations start from. -/
def c1Kt1Distance (cfg : SysConfig) : UInt32 :=
  if cfg.video2Valid ≠ 0 then cfg.c1Kt1Delay - cfg.c1C2Delay else cfg.c1Kt1Delay

/-- `wheel_code_abs` as `search_wheelcode_array` computes it for a station. -/
def wheelCodeAbs (cfg : SysConfig) (n : Station) (wheelCode : UInt64) (sample : SampleResult) :
    UInt64 :=
  match n with
  | .one => absInt (wheelCode - sample.wheelCode - (c1Kt1Distance cfg).toUInt64)
  | .two =>
    absInt (wheelCode - sample.wheelCode - (c1Kt1Distance cfg).toUInt64
      - cfg.kt1Kp1Delay.toUInt64 - cfg.kp1Kt2Delay.toUInt64)

/-- The test of `search_wheelcode_array`. -/
def wheelCodeTest (cfg : SysConfig) (n : Station) (wheelCode : UInt64) (sample : SampleResult) :
    Bool :=
  wheelCodeAbs cfg n wheelCode sample ≤ (cfg.sampleLength / 2).toUInt64

/-- The test of `search_count_array`. -/
def countTest (count : UInt32) (sample : SampleResult) : Bool :=
  sample.count == count

/-! ## Searching a list -/

/-- The loop of the two searches: the first record from the head that passes the test. -/
def searchLoop (test : SampleResult → Bool) (m : ArrayMem) : List Buffer → Option Buffer
  | [] => none
  | p :: next => if test (m.sample p) then some p else searchLoop test m next

/-- What a search does while it holds the list mutex of station `n`: the first record that
passes the test leaves the list and its buffer goes back to the factory. -/
def searchLocked (test : SampleResult → Bool) (n : Station) (m : ArrayMem) :
    Option Buffer × ArrayMem :=
  match searchLoop test m (m.list n) with
  | some p => (some p, recycleRecord (m.setList n ((m.list n).erase p)) (m.sampleBuf.memory p))
  | none => (none, m)

/-- What a search returns and leaves behind: its return value, the register it writes and
the value, and the memory. -/
structure SearchResult where
  ret : ℤ
  reg : ℕ
  val : UInt16
  mem : ArrayMem

/-- The return value and the command that follow a search of station `n`. -/
def kickCommand (n : Station) (r : Option Buffer × ArrayMem) : SearchResult :=
  match r.1 with
  | some _ => { ret := 1, reg := n.comFifoReg, val := 1, mem := r.2 }
  | none => { ret := -1, reg := n.comFifoReg, val := 0, mem := r.2 }

/-- `search_count_array`.  The parameter `pos` is not read: this search only knows station 1. -/
def searchCountArray (count _pos : UInt32) (m : ArrayMem) : SearchResult :=
  kickCommand .one (searchLocked (countTest count) .one m)

/-- `search_wheelcode_array`.  Every `pos` other than 1 means station 2. -/
def searchWheelcodeArray (cfg : SysConfig) (wheelCode : UInt64) (pos : UInt32) (m : ArrayMem) :
    SearchResult :=
  if pos = 1 then
    kickCommand .one (searchLocked (wheelCodeTest cfg .one wheelCode) .one m)
  else
    kickCommand .two (searchLocked (wheelCodeTest cfg .two wheelCode) .two m)

/-! ## Storing and clearing samples -/

/-- The second half of `write_array`: the record is filled and linked at the tail of the list
that `pos` names.  A `pos` other than 1 and 2 names none, and the record is linked nowhere. -/
def linkSample (sample : SampleResult) (buf : Buffer) (m : ArrayMem) : ArrayMem :=
  let m := m.setBuf (m.sampleBuf.store buf { sample := sample, buf := buf })
  if sample.pos = 1 then
    m.setList .one (m.list .one ++ [buf])
  else if sample.pos = 2 then
    m.setList .two (m.list .two ++ [buf])
  else
    m

/-- `write_array`.  `none` is the exit of `buf_factory_produce` on an empty pool. -/
def writeArray (sample : SampleResult) (m : ArrayMem) : Option ArrayMem :=
  if sample.pos ≠ 0 then
    m.sampleBuf.produce.map fun r => linkSample sample r.1 (m.setBuf r.2)
  else
    some m

/-- The loop of `clear_array` over one list: every record's buffer goes back. -/
def clearLoop (m : ArrayMem) : List Buffer → ArrayMem
  | [] => m
  | p :: next => clearLoop (recycleRecord m (m.sampleBuf.memory p)) next

/-- What `clear_array` does while it holds the list mutex of station `n`. -/
def clearLocked (n : Station) (m : ArrayMem) : ArrayMem :=
  (clearLoop m (m.list n)).setList n []

/-- `clear_array`. -/
def clearArray (m : ArrayMem) : ArrayMem :=
  clearLocked .two (clearLocked .one m)

/-- What `array.c` keeps between calls: the memory above and the trigger counter. -/
structure ArrayState where
  mem : ArrayMem
  curCountKt1 : UInt32

/-- One turn of `trig1_search_tsk` on a trigger message that delivers `wheelCode`. -/
def trig1SearchTsk (cfg : SysConfig) (wheelCode : UInt64) (s : ArrayState) :
    SearchResult × ArrayState :=
  let curCountKt1 := s.curCountKt1 + 1
  let r :=
    if cfg.kickMode = 0 then searchCountArray curCountKt1 1 s.mem
    else searchWheelcodeArray cfg wheelCode 1 s.mem
  (r, { mem := r.mem, curCountKt1 := curCountKt1 })

/-- One turn of `trig2_search_tsk`: station 2 always searches by wheel code. -/
def trig2SearchTsk (cfg : SysConfig) (wheelCode : UInt64) (s : ArrayState) :
    SearchResult × ArrayState :=
  let r := searchWheelcodeArray cfg wheelCode 2 s.mem
  (r, { s with mem := r.mem })

/-- What `recv_reset_cmd` does to the samples: the counter restarts and both lists are
cleared. -/
def resetSamples (s : ArrayState) : ArrayState where
  mem := clearArray s.mem
  curCountKt1 := 0

/-- `array_buf_init`: a factory of 128 buffers and two empty lists. -/
def arrayBufInit (memory : Buffer → SampleArray) : ArrayMem where
  sampleBuf := BufferFactory.create 128 memory
  k1SampleList := []
  k2SampleList := []

end RejectProcess
