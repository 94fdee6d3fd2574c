import RejectProcess.Lib.Framing
import RejectProcess.Lib.Run

/-!
# The receive task

`local_recv_tsk` of `communication/local_socket.c`: it reads the two words of a frame into
`SrvCmd_str`, takes 4 off the length, reads that many parameter bytes and calls
`local_cmd_analyze`.  A read may return any part of what it asks for.

The parameter bytes go to the block that `SrvCmd_str.param` points to.  The words go to
`&SrvCmd_str + nhas_recv`, and since `&SrvCmd_str` points to a structure, the address moves by
a whole structure for every byte already received.  A read that continues a header so overwrites
other variables of the program, the sample lists among them; `strays` keeps the places.
-/

namespace RejectProcess

open Lib

/-- `sizeof(SRV_CMD_STR)`: two words and a pointer. -/
def sizeofSrvCmdStr : ℕ := 12

/-- The bytes that `local_socket_init` allocates for the parameters. -/
def paramSize : ℕ := 1024

/-- What `local_cmd_analyze` is called with: the fields of `SrvCmd_str`, and the memory that
`param` points to. -/
structure SrvCmd where
  length : UInt32
  cmdword : UInt32
  param : Mem

/-- Where the receive task stands. -/
inductive RecvLoop
  /-- At `sem_wait(&gsem_link)`. -/
  | link
  /-- In the loop that reads the length and the command word. -/
  | header
  /-- In the loop that reads the parameters. -/
  | param
deriving DecidableEq, Repr

/-- A header after which the task has gone on to the parameters.  History: the eight bytes that
were received, and the value of `SrvCmd_str.length` then. -/
structure HeaderRead where
  received : List UInt8
  waits : UInt32
deriving DecidableEq, Repr

/-- The state of the receive task.  `srvCmdStr` is the memory from `&SrvCmd_str` on and `param`
that from `SrvCmd_str.param` on.  Only the first `sizeofSrvCmdStr` bytes of `srvCmdStr` are the
task's own, so what is claimed of a run is claimed of one without `strays`. -/
structure RecvTsk where
  srvCmdStr : Mem
  param : Mem
  nhasRecv : UInt32
  loop : RecvLoop
  /-- History: the calls of `local_cmd_analyze`. -/
  analyzed : List SrvCmd
  /-- History: the bytes of the current header that were received. -/
  got : List UInt8
  /-- History: the headers after which the task went on to the parameters. -/
  headers : List HeaderRead
  /-- History: the offsets in the parameter block that were written. -/
  offsets : List ℕ
  /-- History: the offsets from `&SrvCmd_str` outside of it at which header bytes were written. -/
  strays : List ℕ

/-- What the receive task meets from outside. -/
inductive RecvLabel
  /-- The connect task has posted `gsem_link`. -/
  | link
  /-- `read` returns these bytes. -/
  | read (bs : List UInt8)
  /-- `read` returns 0 or an error. -/
  | fail
deriving DecidableEq, Repr

namespace RecvTsk

/-- The state before the first connection, with any content of the parameter block.  A static
variable starts as zero. -/
def init (param : Mem) : RecvTsk where
  srvCmdStr := fun _ => 0
  param := param
  nhasRecv := 0
  loop := .link
  analyzed := []
  got := []
  headers := []
  offsets := []
  strays := []

variable (s : RecvTsk)

/-- `SrvCmd_str.length`. -/
def length : UInt32 := ofLe32 (load s.srvCmdStr 0 4)

/-- `SrvCmd_str.cmdword`. -/
def cmdword : UInt32 := ofLe32 (load s.srvCmdStr 4 4)

/-- The beginning of the endless loop. -/
def startFrame : RecvTsk := { s with nhasRecv := 0, loop := .header, got := [] }

/-- `local_cmd_analyze(&SrvCmd_str)`. -/
def analyze : RecvTsk :=
  { s with analyzed := s.analyzed ++ [{ length := s.length, cmdword := s.cmdword,
                                        param := s.param }] }

/-- The test of the parameter loop, and what follows the loop. -/
def paramLoop : RecvTsk :=
  if s.nhasRecv < s.length then { s with loop := .param } else s.analyze.startFrame

/-- `SrvCmd_str.length -= 4; nhas_recv = 0`. -/
def gotHeader : RecvTsk :=
  { s with
    srvCmdStr := store s.srvCmdStr 0 (le32 (s.length - 4))
    nhasRecv := 0
    headers := s.headers ++ [{ received := s.got, waits := s.length - 4 }] }

/-- The test of the header loop, and what follows the loop. -/
def headerLoop : RecvTsk :=
  if s.nhasRecv < 8 then { s with loop := .header } else s.gotHeader.paramLoop

/-- The header bytes that a read has returned. -/
def readHeader (bs : List UInt8) : RecvTsk :=
  { s with
    srvCmdStr := store s.srvCmdStr (sizeofSrvCmdStr * s.nhasRecv.toNat) bs
    nhasRecv := s.nhasRecv + UInt32.ofNat bs.length
    got := s.got ++ bs
    strays := s.strays ++ (List.range' (sizeofSrvCmdStr * s.nhasRecv.toNat) bs.length).filter
      (sizeofSrvCmdStr ≤ ·) }

/-- The parameter bytes that a read has returned. -/
def readParam (bs : List UInt8) : RecvTsk :=
  { s with
    param := store s.param s.nhasRecv.toNat bs
    nhasRecv := s.nhasRecv + UInt32.ofNat bs.length
    offsets := s.offsets ++ List.range' s.nhasRecv.toNat bs.length }

/-- A read of `n` bytes can return these: at least one, at most `n`, and their number is not
negative as an `__s32`. -/
def CanRead (n : UInt32) (bs : List UInt8) : Prop :=
  0 < bs.length ∧ bs.length ≤ n.toNat ∧ bs.length < 2 ^ 31

instance (n : UInt32) (bs : List UInt8) : Decidable (CanRead n bs) :=
  inferInstanceAs (Decidable (_ ∧ _ ∧ _))

/-- One step of the receive task. -/
def step (s : RecvTsk) : RecvLabel → Option RecvTsk
  | .link =>
    match s.loop with
    | .link => some s.startFrame
    | _ => none
  | .read bs =>
    match s.loop with
    | .link => none
    | .header =>
      if CanRead (8 - s.nhasRecv) bs then some (s.readHeader bs).headerLoop else none
    | .param =>
      if CanRead (s.length - s.nhasRecv) bs then some (s.readParam bs).paramLoop else none
  | .fail =>
    match s.loop with
    | .link => none
    | _ => some { s with loop := .link }

/-- The task is about to read a header. -/
def AtFrame : Prop := s.loop = .header ∧ s.nhasRecv = 0

variable {s} {s' : RecvTsk}


@[simp] lemma length_gotHeader : s.gotHeader.length = s.length - 4 := by
  have hload := load_store_self s.srvCmdStr 0 (le32 (s.length - 4))
  rw [length_le32] at hload
  rw [length, gotHeader, hload, ofLe32_le32]

@[simp] lemma cmdword_gotHeader : s.gotHeader.cmdword = s.cmdword := by
  rw [cmdword, gotHeader, load_store_of_ge _ _ (by simp), cmdword]

lemma atFrame_startFrame : s.startFrame.AtFrame := ⟨rfl, rfl⟩

/-- The first piece of a header lies in `SrvCmd_str`. -/
lemma strays_readHeader_first {bs : List UInt8} (hn : s.nhasRecv = 0) (hbs : bs.length ≤ 8) :
    (s.readHeader bs).strays = s.strays := by
  have hnone : (List.range' (sizeofSrvCmdStr * s.nhasRecv.toNat) bs.length).filter
      (sizeofSrvCmdStr ≤ ·) = [] := by
    rw [List.filter_eq_nil_iff, hn]
    intro i hi
    have hlt : i < 0 + bs.length := (List.mem_range'_1.1 hi).2
    have hin : i < sizeofSrvCmdStr := by
      unfold sizeofSrvCmdStr
      omega
    simpa using hin
  rw [readHeader, hnone, List.append_nil]

/-- A further piece lies behind it. -/
lemma strays_readHeader_further {bs : List UInt8} (hn : 0 < s.nhasRecv.toNat)
    (hbs : 0 < bs.length) : (s.readHeader bs).strays ≠ s.strays := by
  intro hsame
  have hnone := List.append_right_eq_self.1 hsame
  rw [List.filter_eq_nil_iff] at hnone
  refine hnone (sizeofSrvCmdStr * s.nhasRecv.toNat)
    (List.mem_range'_1.2 ⟨Nat.le_refl _, by omega⟩) ?_
  simpa using Nat.le_mul_of_pos_right sizeofSrvCmdStr hn

/-- A step that reads bytes reads them in one of the two loops. -/
lemma step_read {bs : List UInt8} (h : s.step (.read bs) = some s') :
    (s.loop = .header ∧ CanRead (8 - s.nhasRecv) bs ∧ s' = (s.readHeader bs).headerLoop) ∨
    (s.loop = .param ∧ CanRead (s.length - s.nhasRecv) bs ∧ s' = (s.readParam bs).paramLoop) := by
  rw [step] at h
  cases hl : s.loop with
  | link => simp [hl] at h
  | header =>
    by_cases hc : CanRead (8 - s.nhasRecv) bs
    · exact .inl ⟨rfl, hc, by simpa [hl, hc, eq_comm] using h⟩
    · simp [hl, hc] at h
  | param =>
    by_cases hc : CanRead (s.length - s.nhasRecv) bs
    · exact .inr ⟨rfl, hc, by simpa [hl, hc, eq_comm] using h⟩
    · simp [hl, hc] at h

/-- The bytes received and those of a read, counted as the task counts them. -/
lemma toNat_add_length {n m : UInt32} {bs : List UInt8} (hn : n ≤ m) (h : CanRead (m - n) bs) :
    (n + UInt32.ofNat bs.length).toNat = n.toNat + bs.length ∧
      n.toNat + bs.length ≤ m.toNat := by
  have hm := m.toNat_lt
  have hsub : (m - n).toNat = m.toNat - n.toNat := UInt32.toNat_sub_of_le _ _ hn
  have hle : n.toNat ≤ m.toNat := UInt32.le_iff_toNat_le.1 hn
  obtain ⟨-, hbs, -⟩ := h
  rw [hsub] at hbs
  rw [UInt32.toNat_add, UInt32.toNat_ofNat']
  omega

end RecvTsk

end RejectProcess
