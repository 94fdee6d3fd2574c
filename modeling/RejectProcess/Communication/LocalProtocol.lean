import RejectProcess.Communication.Recv
import RejectProcess.Communication.Send
import RejectProcess.Fpga.Mask
import RejectProcess.Sample.Position

/-!
# The commands

`communication/local_protocol.c`: what `local_cmd_analyze` does with a frame.  The handlers of a
sample frame and of a position test command read the parameter block as a structure of 28 bytes
and a word of 4; how much of the block the frame has filled they do not ask.

The handlers are taken as a whole here, as the receive task runs them while no other task moves.
-/

namespace RejectProcess

open Lib Publish Position

/-- The list of a position test and its buffers. -/
structure PosMem where
  buf : BufferFactory PositionArray
  list : List Buffer

/-- What the handlers read and write: `g_sys_config`, the samples, the position lists, the two
interrupt clear registers, the `version` of the build and the messages to the send task. -/
structure Prog where
  cfg : SysConfig
  samples : ArrayState
  pos : PosList → PosMem
  isrClr : Station → UInt16
  version : Vector UInt8 32
  replies : List LocalMsg

/-- The `SampleResult` at the beginning of the parameter block.  The structure is packed, and the
words have their lowest byte first. -/
def sampleResult (param : Mem) : SampleResult where
  result := Vector.ofFn fun i => param i
  count := ofLe32 (load param 8 4)
  wheelCode := UInt64.ofNat (ofLE (load param 12 8))
  pos := ofLe32 (load param 20 4)
  alarm := ofLe32 (load param 24 4)

/-- A record is stored in the list of a position test.  `none` is the exit of
`buf_factory_produce`. -/
def PosMem.add (m : PosMem) (r : Reference) : Option PosMem :=
  m.buf.produce.map fun x =>
    { buf := x.2.store x.1 { sample := r.fill (x.2.memory x.1).sample, buf := x.1 }
      list := m.list ++ [x.1] }

namespace Prog

variable (p : Prog)

/-- `recv_handshake_cmd`. -/
def recvHandshakeCmd : Prog := { p with replies := p.replies ++ [.handshake p.version] }

/-- `recv_reset_cmd`. -/
def recvResetCmd : Prog :=
  { p with
    samples := resetSamples p.samples
    replies := p.replies ++ [.reset] }

/-- One update of an interrupt clear register. -/
def updateIsrClr (reg : Station → UInt16) (x : Station × Mask.Update) : Station → UInt16 :=
  Function.update reg x.1 (x.2.apply (reg x.1))

/-- `recv_pos_test_cmd`. -/
def recvPosTestCmd (item : UInt32) : Prog :=
  { p with
    cfg := { p.cfg with posTestItem := item }
    isrClr := (Mask.recvPosTestCmd item).foldl updateIsrClr p.isrClr }

/-- A record is stored in one of the lists. -/
def addPos (l : PosList) (r : Reference) : Option Prog :=
  ((p.pos l).add r).map fun m => { p with pos := Function.update p.pos l m }

/-- `recv_sample_result`, behind its call of `write_array`. -/
def addReference (r : SampleResult) : Option Prog :=
  if p.cfg.posTestItem = 2 then p.addPos (.c1Kt .one) (.sample r.count r.wheelCode)
  else if p.cfg.posTestItem = 4 then p.addPos (.c1Kt .two) (.sample r.count r.wheelCode)
  else some p

/-- `recv_sample_result`. -/
def recvSampleResult (r : SampleResult) : Option Prog :=
  (writeArray r p.samples.mem).bind fun mem =>
    { p with samples := { p.samples with mem := mem } }.addReference r

end Prog

/-- `local_cmd_analyze`.  `none` is an exit of the process. -/
def localCmdAnalyze (srvCmd : SrvCmd) (p : Prog) : Option Prog :=
  if srvCmd.cmdword = 0xAACC0100 then some p.recvHandshakeCmd
  else if srvCmd.cmdword = 0xAACC0101 then some p.recvResetCmd
  else if srvCmd.cmdword = 0xAACC0102 then p.recvSampleResult (sampleResult srvCmd.param)
  else if srvCmd.cmdword = 0xAACC0103 then
    some (p.recvPosTestCmd (ofLe32 (load srvCmd.param 0 4)))
  else some p

/-! ## The bytes that are read -/

lemma load_congr {m m' : Mem} {off n : ℕ} (h : ∀ i < off + n, m i = m' i) :
    load m off n = load m' off n := by
  refine List.map_congr_left fun i hi => h _ ?_
  have := List.mem_range.1 hi
  omega

/-- A sample is determined by 28 bytes. -/
lemma sampleResult_congr {m m' : Mem} (h : ∀ i < 28, m i = m' i) :
    sampleResult m = sampleResult m' := by
  have hload : ∀ off n, off + n ≤ 28 → load m off n = load m' off n :=
    fun off n hle => load_congr fun i hi => h i (by omega)
  have hresult : (Vector.ofFn fun i : Fin 8 => m i) = Vector.ofFn fun i : Fin 8 => m' i := by
    congr 1
    funext i
    exact h i (by omega)
  simp only [sampleResult, hresult, hload 8 4 (by omega), hload 12 8 (by omega),
    hload 20 4 (by omega), hload 24 4 (by omega)]

/-- The count and the wheel code of a sample are determined by 20 bytes. -/
lemma count_wheelCode_congr {m m' : Mem} (h : ∀ i < 20, m i = m' i) :
    (sampleResult m).count = (sampleResult m').count ∧
      (sampleResult m).wheelCode = (sampleResult m').wheelCode := by
  have hcount : load m 8 4 = load m' 8 4 := load_congr fun i hi => h i (by omega)
  have hcode : load m 12 8 = load m' 12 8 := load_congr h
  simp only [sampleResult, hcount, hcode, and_self]

/-- Four bytes are the number 0 exactly if they are all zero. -/
lemma ofLe32_eq_zero {bs : List UInt8} (h : bs.length = 4) :
    ofLe32 bs = 0 ↔ ∀ b ∈ bs, b = 0 := by
  constructor
  · intro h0 b hb
    have hzero : le32 0 = List.replicate 4 0 := rfl
    rw [← le32_ofLe32 h, h0, hzero] at hb
    exact List.eq_of_mem_replicate hb
  · intro hz
    obtain rfl : bs = List.replicate 4 0 := List.eq_replicate_iff.2 ⟨h, hz⟩
    rfl

/-- Words of different bytes are different. -/
lemma ofLe32_load_ne {m m' : Mem} {off i : ℕ} (hi : i < 4) (h : m (off + i) ≠ m' (off + i)) :
    ofLe32 (load m off 4) ≠ ofLe32 (load m' off 4) := by
  intro heq
  have hload : load m off 4 = load m' off 4 := by
    rw [← le32_ofLe32 (length_load m off 4), heq, le32_ofLe32 (length_load m' off 4)]
  refine h ?_
  have hget := congrArg (fun l : List UInt8 => l[i]?) hload
  simpa [load, hi] using hget

end RejectProcess
