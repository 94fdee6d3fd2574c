import RejectProcess.Communication.Recv

/-!
# Bounds of the parameter block

`local_recv_tsk` trusts the length it has received: nothing compares it with the 4 that it
takes off or with the 1024 bytes it has.  This file shows what a peer has to keep to for the
parameter bytes to stay in their block: its headers come in one read each, as the rest of one that
is continued is written behind `SrvCmd_str`, and its lengths lie between 4 and 1028.
-/

namespace RejectProcess

open Lib

/-- The length field of the header that was received. -/
def HeaderRead.receivedLength (r : HeaderRead) : ℕ := ofLE (r.received.take 4)

/-- After this header the task rightly goes on to the parameters: it waits for 4 bytes less than
the length received, as integers, and these fit the block. -/
def HeaderRead.Accepted (r : HeaderRead) : Prop :=
  (r.waits.toNat : ℤ) = r.receivedLength - 4 ∧ r.receivedLength - 4 ≤ paramSize

namespace RecvTsk

/-- No parameter byte has been stored outside the block and no header byte outside `SrvCmd_str`, and
the task has gone on to the parameters only after headers for which that is right. -/
structure ParamSafe (s : RecvTsk) : Prop where
  inside : ∀ i ∈ s.offsets, i < paramSize
  waits : ∀ r ∈ s.headers, r.Accepted
  inPlace : s.strays = []

/-- No read continues a header, and one that brings a whole header brings a length from 4 to
1028. -/
def LengthGood (s : RecvTsk) : RecvLabel → Prop
  | .read bs => s.loop = .header → s.nhasRecv = 0 ∧
      (bs.length = 8 → 4 ≤ ofLE (bs.take 4) ∧ ofLE (bs.take 4) ≤ 4 + paramSize)
  | _ => True

instance (s : RecvTsk) : ∀ l, Decidable (LengthGood s l)
  | .read _ => inferInstanceAs (Decidable (_ → _ ∧ (_ → _ ∧ _)))
  | .link => isTrue trivial
  | .fail => isTrue trivial

/-- The invariant: a header starts with nothing received, and in the parameter loop the length fits
the block. -/
structure ParamInv (s : RecvTsk) : Prop where
  safe : s.ParamSafe
  header : s.loop = .header → s.nhasRecv = 0 → s.got = []
  param : s.loop = .param → s.nhasRecv < s.length ∧ s.length.toNat ≤ paramSize

variable {s s' : RecvTsk} {l : RecvLabel}

lemma paramInv_startFrame (h : s.ParamSafe) : s.startFrame.ParamInv where
  safe := ⟨h.inside, h.waits, h.inPlace⟩
  header := fun _ _ => rfl
  param := by simp [startFrame]

/-- The parameter loop goes on within the length, or a new frame starts. -/
lemma paramInv_paramLoop (h : s.ParamSafe) (hlen : s.length.toNat ≤ paramSize) :
    s.paramLoop.ParamInv := by
  unfold paramLoop
  split
  · rename_i hlt
    exact ⟨⟨h.inside, h.waits, h.inPlace⟩, by simp, fun _ => ⟨hlt, hlen⟩⟩
  · exact paramInv_startFrame ⟨h.inside, h.waits, h.inPlace⟩

/-- After a whole header the task waits for 4 bytes less than the length received. -/
lemma paramInv_gotHeader (h : s.ParamSafe) {bs : List UInt8} (hbs : bs.length = 8)
    (hgot : s.got = bs) (hload : load s.srvCmdStr 0 4 = bs.take 4)
    (h4 : 4 ≤ ofLE (bs.take 4)) (hmax : ofLE (bs.take 4) ≤ 4 + paramSize) :
    s.gotHeader.paramLoop.ParamInv := by
  have hlength : s.length.toNat = ofLE (bs.take 4) := by
    have hlt := ofLE_lt (bs.take 4)
    rw [List.length_take, hbs] at hlt
    rw [length, hload, ofLe32, UInt32.toNat_ofNat', Nat.mod_eq_of_lt (by simpa using hlt)]
  have hsub : (s.length - 4).toNat = ofLE (bs.take 4) - 4 := by
    rw [UInt32.toNat_sub_of_le _ _ (UInt32.le_iff_toNat_le.2 (by simpa [hlength] using h4)),
      hlength]
    rfl
  refine paramInv_paramLoop ⟨h.inside, ?_, h.inPlace⟩ (by rw [length_gotHeader, hsub]; omega)
  intro r hr
  rcases List.mem_append.1 hr with hr | hr
  · exact h.waits r hr
  · obtain rfl : r = _ := List.mem_singleton.1 hr
    simp only [HeaderRead.Accepted, HeaderRead.receivedLength, hsub, hgot]
    omega

/-- A read of header bytes, which are the first of their header. -/
lemma paramInv_readHeader (h : s.ParamInv) {bs : List UInt8} (hl : s.loop = .header)
    (hc : CanRead (8 - s.nhasRecv) bs) (hok : LengthGood s (.read bs)) :
    (s.readHeader bs).headerLoop.ParamInv := by
  obtain ⟨hn, hgood⟩ := hok hl
  obtain ⟨hpos, hmax, -⟩ := hc
  have hmax8 : bs.length ≤ 8 := by
    rw [hn] at hmax
    exact hmax
  have hsafe : (s.readHeader bs).ParamSafe :=
    ⟨h.safe.inside, h.safe.waits, (strays_readHeader_first hn hmax8).trans h.safe.inPlace⟩
  have hnhas : (s.readHeader bs).nhasRecv.toNat = bs.length := by
    show (s.nhasRecv + UInt32.ofNat bs.length).toNat = bs.length
    rw [hn, UInt32.zero_add, UInt32.toNat_ofNat']
    omega
  unfold headerLoop
  split
  · -- the header is not whole, so something of it has been received
    refine ⟨⟨hsafe.inside, hsafe.waits, hsafe.inPlace⟩, fun _ hz => ?_, by simp⟩
    have hzero : (s.readHeader bs).nhasRecv = 0 := hz
    rw [hzero] at hnhas
    have : bs.length = 0 := hnhas.symm
    omega
  · rename_i hge
    have h8 : bs.length = 8 := by
      rw [UInt32.lt_iff_toNat_lt, hnhas] at hge
      have : ¬ bs.length < 8 := hge
      omega
    obtain ⟨h4, hlen⟩ := hgood h8
    refine paramInv_gotHeader hsafe h8 ?_ ?_ h4 hlen
    · show s.got ++ bs = bs
      rw [h.header hl hn, List.nil_append]
    · have hself := load_store_self s.srvCmdStr 0 bs
      have hload : load (s.readHeader bs).srvCmdStr 0 8 = bs := by
        rw [h8] at hself
        simpa [readHeader, hn] using hself
      have htake := congrArg (List.take 4) hload
      rwa [load_add _ 0 4 4, List.take_left' (by simp)] at htake

/-- A read of parameter bytes stays within the length. -/
lemma paramInv_readParam (h : s.ParamInv) {bs : List UInt8} (hl : s.loop = .param)
    (hc : CanRead (s.length - s.nhasRecv) bs) : (s.readParam bs).paramLoop.ParamInv := by
  obtain ⟨hlt, hlen⟩ := h.param hl
  obtain ⟨-, hmax⟩ := toNat_add_length (UInt32.le_of_lt hlt) hc
  refine paramInv_paramLoop ⟨?_, h.safe.waits, h.safe.inPlace⟩ hlen
  intro i hi
  rcases List.mem_append.1 hi with hi | hi
  · exact h.safe.inside i hi
  · have := (List.mem_range'_1.1 hi).2
    omega

lemma paramInv_step (h : s.ParamInv) (hok : LengthGood s l) (hs : s.step l = some s') :
    s'.ParamInv := by
  cases l with
  | link =>
    obtain rfl : s.startFrame = s' := by
      cases hl : s.loop <;> simp [step, hl] at hs
      exact hs
    exact paramInv_startFrame h.safe
  | fail =>
    obtain rfl : { s with loop := .link } = s' := by
      cases hl : s.loop <;> simp [step, hl] at hs <;> exact hs
    exact ⟨⟨h.safe.inside, h.safe.waits, h.safe.inPlace⟩, by simp, by simp⟩
  | read bs =>
    rcases step_read hs with ⟨hl, hc, rfl⟩ | ⟨hl, hc, rfl⟩
    · exact paramInv_readHeader h hl hc hok
    · exact paramInv_readParam h hl hc

lemma paramInv_init (param : Mem) : (init param).ParamInv where
  safe := ⟨by simp [init], by simp [init], rfl⟩
  header := by simp [init]
  param := by simp [init]

/-- **Parameter bytes stay in their block.**  In every run, over any number of connections,
whose headers come in one read each and carry good lengths. -/
theorem params_in_bounds {param : Mem} (h : Reach step LengthGood (init param) s) : s.ParamSafe :=
  (h.invariant (paramInv_init param) fun _ _ _ hi hok hs => paramInv_step hi hok hs).safe

/-- The state after a connection has brought the given reads. -/
def afterReads (reads : List (List UInt8)) : RecvTsk :=
  (exec step (init fun _ => 0) (.link :: reads.map .read)).getD (init fun _ => 0)

/-- A header whose length field is 0: the task waits for `2 ^ 32 - 4` bytes. -/
theorem short_length_accepted : ¬ ∀ (param : Mem) (s : RecvTsk),
    Reach step AnyStep (init param) s → s.ParamSafe := by
  intro h
  have hreach : Reach step AnyStep (init fun _ => 0)
      (afterReads [[0, 0, 0, 0, 1, 1, 0xCC, 0xAA]]) :=
    reach_any [.link, .read [0, 0, 0, 0, 1, 1, 0xCC, 0xAA]] rfl
  have hheader :
      ({ received := [0, 0, 0, 0, 1, 1, 0xCC, 0xAA], waits := 4294967292 } : HeaderRead) ∈
      (afterReads [[0, 0, 0, 0, 1, 1, 0xCC, 0xAA]]).headers := by decide +kernel
  exact absurd ((h _ _ hreach).waits _ hheader).1 (by decide)

/-- A reset frame in one read, then a frame with one parameter byte. -/
theorem params_in_bounds_reset :
    (afterReads [[4, 0, 0, 0, 1, 1, 0xCC, 0xAA], [5, 0, 0, 0, 0, 1, 0xCC, 0xAA], [7]]).ParamSafe :=
  params_in_bounds <| show Reach step LengthGood (init fun _ => 0) _ from
    reach_of_exec
      [.link, .read [4, 0, 0, 0, 1, 1, 0xCC, 0xAA], .read [5, 0, 0, 0, 0, 1, 0xCC, 0xAA], .read [7]]
      (by decide +kernel) rfl

end RecvTsk

end RejectProcess
