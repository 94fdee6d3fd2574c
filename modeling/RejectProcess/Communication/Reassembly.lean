import RejectProcess.Communication.Recv

/-!
# Reassembling frames

A header that comes in one read is put together right, and so are parameters however they are
cut.  Of a header that comes in several reads only the first piece reaches its place.  The others
are written behind `SrvCmd_str`, over other variables of the program, so the frames are received
right exactly if no read ends inside a header.
-/

namespace RejectProcess

open Lib

/-- `local_cmd_analyze` was called with this frame. -/
def SrvCmd.Carries (c : SrvCmd) (f : Frame) : Prop :=
  c.cmdword = f.word ∧ c.length.toNat = f.body.length ∧ load c.param 0 f.body.length = f.body

/-- The chunks are cut after `n` bytes. -/
def IsCut (chunks : List (List UInt8)) (n : ℕ) : Prop :=
  ∃ pre, pre <+: chunks ∧ pre.flatten.length = n

/-- The header of each of these frames comes in one read. -/
def HeadersWhole (frames : List Frame) (chunks : List (List UInt8)) : Prop :=
  ∀ i < frames.length, ∀ n < 8, 0 < n → ¬ IsCut chunks ((encodeFrames (frames.take i)).length + n)

instance (chunks : List (List UInt8)) (n : ℕ) : Decidable (IsCut chunks n) :=
  decidable_of_iff (∃ pre ∈ chunks.inits, pre.flatten.length = n) (by simp [IsCut])

instance (frames : List Frame) (chunks : List (List UInt8)) :
    Decidable (HeadersWhole frames chunks) :=
  inferInstanceAs (Decidable (∀ i < frames.length, ∀ n < 8, 0 < n → ¬ _))

/-! ## Cuts -/

/-- The cuts behind the first chunks are those of the other chunks. -/
lemma isCut_append {cs cs' : List (List UInt8)} {n : ℕ} :
    IsCut (cs ++ cs') (cs.flatten.length + n) ↔ IsCut cs' n := by
  constructor
  · rintro ⟨pre, hpre, hlen⟩
    rcases List.prefix_or_prefix_of_prefix hpre (List.prefix_append cs cs') with h | h
    · obtain ⟨post, rfl⟩ := h
      have hn : n = 0 := by
        simp only [List.flatten_append, List.length_append] at hlen
        omega
      exact ⟨[], List.nil_prefix, hn.symm⟩
    · obtain ⟨q, rfl⟩ := h
      refine ⟨q, (List.prefix_append_right_inj cs).1 hpre, ?_⟩
      simpa using hlen
  · rintro ⟨pre, hpre, rfl⟩
    exact ⟨cs ++ pre, (List.prefix_append_right_inj cs).2 hpre, by simp⟩

/-- The first cut is behind the first chunk. -/
lemma isCut_cons_le {b : List UInt8} {bs : List (List UInt8)} {n : ℕ} (hn : 0 < n)
    (h : IsCut (b :: bs) n) : b.length ≤ n := by
  obtain ⟨pre, hpre, rfl⟩ := h
  cases pre with
  | nil => simp at hn
  | cons b' pre =>
    obtain rfl : b' = b := (List.cons_prefix_cons.1 hpre).1
    simp

lemma isCut_head (b : List UInt8) (bs : List (List UInt8)) : IsCut (b :: bs) b.length :=
  ⟨[b], by simp, by simp⟩

/-- The frames behind the first ones come in the other chunks. -/
lemma HeadersWhole.append {fs gs : List Frame} {cs cs' : List (List UInt8)}
    (h : HeadersWhole (fs ++ gs) (cs ++ cs')) (hcs : cs.flatten = encodeFrames fs) :
    HeadersWhole gs cs' := by
  intro i hi n hn8 hn hcut
  have hlt : fs.length + i < (fs ++ gs).length := by simpa using hi
  refine h (fs.length + i) hlt n hn8 hn ?_
  have hsum : (encodeFrames ((fs ++ gs).take (fs.length + i))).length + n =
      cs.flatten.length + ((encodeFrames (gs.take i)).length + n) := by
    rw [List.take_length_add_append, encodeFrames, List.flatMap_append, List.length_append, hcs,
      Nat.add_assoc]
    rfl
  rw [hsum]
  exact isCut_append.2 hcut

lemma HeadersWhole.head {f : Frame} {fs : List Frame} {cs : List (List UInt8)}
    (h : HeadersWhole (f :: fs) cs) {k : ℕ} (hk : 0 < k) (hcut : IsCut cs k) : 8 ≤ k := by
  by_contra hlt
  exact h 0 (by simp) k (by omega) hk (by simpa using hcut)

/-- The first header comes in one read if it is the beginning of the first chunk, and the others
do if they come so in the chunks behind the first frame. -/
lemma headersWhole_cons {f : Frame} {fs : List Frame} {b : List UInt8} {cs cs' : List (List UInt8)}
    (hb : b = f.header) (hcs : (b :: cs).flatten = f.encode) :
    HeadersWhole (f :: fs) (b :: cs ++ cs') ↔ HeadersWhole fs cs' := by
  constructor
  · intro h
    exact @HeadersWhole.append [f] fs (b :: cs) cs' h (by simpa using hcs)
  · intro h i hi n hn8 hn hcut
    cases i with
    | zero =>
      have hle := isCut_cons_le hn (by simpa using hcut)
      rw [hb, Frame.length_header] at hle
      omega
    | succ i =>
      refine h i (by simpa using hi) n hn8 hn ((@isCut_append (b :: cs) _ _).1 ?_)
      rw [hcs, ← Nat.add_assoc, ← List.length_append]
      simpa using hcut

namespace RecvTsk

/-- The state after reading chunks. -/
def recvAll (s : RecvTsk) (chunks : List (List UInt8)) : Option RecvTsk :=
  exec step s (chunks.map .read)

/-- From `s` to `s'`, `local_cmd_analyze` was called once for each of the frames, in order. -/
def Reassembles (s s' : RecvTsk) (frames : List Frame) : Prop :=
  ∃ calls, s'.analyzed = s.analyzed ++ calls ∧ List.Forall₂ SrvCmd.Carries calls frames

/-- From `s` to `s'` the frames were received: the right calls were made, and no header byte was
written over another variable. -/
structure Received (s s' : RecvTsk) (frames : List Frame) : Prop where
  calls : Reassembles s s' frames
  inPlace : s'.strays = s.strays

variable {s s' : RecvTsk} {chunks : List (List UInt8)}

@[simp] lemma recvAll_nil : recvAll s [] = some s := rfl

lemma recvAll_cons {b : List UInt8} {bs : List (List UInt8)} :
    recvAll s (b :: bs) = some s' ↔ ∃ s₁, s.step (.read b) = some s₁ ∧ recvAll s₁ bs = some s' := by
  rw [recvAll, List.map_cons, exec_cons, Option.bind_eq_some_iff]
  rfl

/-! ## Calls -/

lemma analyzed_paramLoop (s : RecvTsk) :
    s.paramLoop.analyzed = s.analyzed ∨ s.paramLoop = s.analyze.startFrame := by
  unfold paramLoop
  split
  · exact .inl rfl
  · exact .inr rfl

lemma prefix_paramLoop (s : RecvTsk) : s.analyzed <+: s.paramLoop.analyzed := by
  rcases analyzed_paramLoop s with h | h
  · rw [h]
  · rw [h]
    exact List.prefix_append _ _

lemma prefix_headerLoop (s : RecvTsk) : s.analyzed <+: s.headerLoop.analyzed := by
  unfold headerLoop
  split
  · exact List.prefix_refl _
  · exact s.gotHeader.prefix_paramLoop

/-- Calls are never taken back. -/
lemma prefix_recvAll (h : recvAll s chunks = some s') : s.analyzed <+: s'.analyzed := by
  induction chunks generalizing s with
  | nil =>
    obtain rfl : s = s' := by simpa using h
    exact List.prefix_refl _
  | cons b bs ih =>
    obtain ⟨s₁, hs, h⟩ := recvAll_cons.1 h
    refine List.IsPrefix.trans ?_ (ih h)
    rcases step_read hs with ⟨-, -, rfl⟩ | ⟨-, -, rfl⟩
    · exact (s.readHeader b).prefix_headerLoop
    · exact (s.readParam b).prefix_paramLoop

@[simp] lemma strays_paramLoop (s : RecvTsk) : s.paramLoop.strays = s.strays := by
  unfold paramLoop
  split <;> rfl

@[simp] lemma strays_headerLoop (s : RecvTsk) : s.headerLoop.strays = s.strays := by
  unfold headerLoop
  split
  · rfl
  · exact strays_paramLoop s.gotHeader

/-- What was overwritten stays so. -/
lemma strays_recvAll (h : recvAll s chunks = some s') : s.strays <+: s'.strays := by
  induction chunks generalizing s with
  | nil =>
    obtain rfl : s = s' := by simpa using h
    exact List.prefix_refl _
  | cons b bs ih =>
    obtain ⟨s₁, hs, h⟩ := recvAll_cons.1 h
    refine List.IsPrefix.trans ?_ (ih h)
    rcases step_read hs with ⟨-, -, rfl⟩ | ⟨-, -, rfl⟩
    · rw [strays_headerLoop]
      exact List.prefix_append _ _
    · rw [strays_paramLoop]
      exact List.prefix_refl _

/-! ## One frame -/

/-- Chunks that start with `bytes` bring a task in the parameter loop, as `t` enters its test, to
the next frame, with a call for the frame `f`, and those that remain bring it to `s'`. -/
def ParamEnds (t : RecvTsk) (f : Frame) (bytes rest : List UInt8) (chunks : List (List UInt8))
    (s' : RecvTsk) : Prop :=
  ∃ (cs cs' : List (List UInt8)) (c : SrvCmd) (s₁ : RecvTsk), chunks = cs ++ cs' ∧
    cs.flatten = bytes ∧ cs'.flatten = rest ∧ recvAll s₁ cs' = some s' ∧ s₁.AtFrame ∧
    s₁.analyzed = t.analyzed ++ [c] ∧ c.Carries f ∧ s₁.strays = t.strays

/-- A chunk no longer than what is left of a block is the next part of the block. -/
lemma chunk_of_flatten {block rest b : List UInt8} {bs : List (List UInt8)} {n : ℕ}
    (hflat : (b :: bs).flatten = block.drop n ++ rest) (hb : n + b.length ≤ block.length) :
    block.take (n + b.length) = block.take n ++ b ∧
      block.drop n = b ++ block.drop (n + b.length) ∧
      bs.flatten = block.drop (n + b.length) ++ rest := by
  have hlen : b.length ≤ (block.drop n).length := by
    rw [List.length_drop]
    omega
  have hsplit : b ++ bs.flatten =
      (block.drop n).take b.length ++ (block.drop (n + b.length) ++ rest) := by
    rw [← List.append_assoc, ← List.drop_drop, List.take_append_drop]
    simpa using hflat
  obtain ⟨hbeq, hrest⟩ := List.append_inj hsplit (by rw [List.length_take, Nat.min_eq_left hlen])
  refine ⟨?_, ?_, hrest⟩
  · rw [List.take_add, ← hbeq]
  · conv_rhs => rw [hbeq]
    rw [List.length_take, Nat.min_eq_left hlen, ← List.drop_drop, List.take_append_drop]

/-- With all parameters received, `local_cmd_analyze` is called with the frame. -/
lemma recv_params_done {t : RecvTsk} {f : Frame} {rest : List UInt8}
    (hlen : t.length.toNat = f.body.length) (hcmd : t.cmdword = f.word)
    (hdone : t.nhasRecv.toNat = f.body.length)
    (hparam : load t.param 0 t.nhasRecv.toNat = f.body.take t.nhasRecv.toNat)
    (hflat : chunks.flatten = f.body.drop t.nhasRecv.toNat ++ rest)
    (h : recvAll t.paramLoop chunks = some s') :
    ParamEnds t f (f.body.drop t.nhasRecv.toNat) rest chunks s' := by
  have hge : ¬ t.nhasRecv < t.length := by
    rw [UInt32.lt_iff_toNat_lt]
    omega
  rw [hdone, List.drop_length, List.nil_append] at hflat
  rw [hdone, List.take_length] at hparam
  rw [paramLoop, if_neg hge] at h
  exact ⟨[], chunks, _, _, rfl, by simp [hdone], hflat, h, t.analyze.atFrame_startFrame, rfl,
    ⟨hcmd, hlen, hparam⟩, rfl⟩

/-- Parameters are put together however they are cut. -/
lemma recv_params {t : RecvTsk} {f : Frame} {rest : List UInt8}
    (hlen : t.length.toNat = f.body.length) (hcmd : t.cmdword = f.word)
    (hn : t.nhasRecv.toNat ≤ f.body.length)
    (hparam : load t.param 0 t.nhasRecv.toNat = f.body.take t.nhasRecv.toNat)
    (hflat : chunks.flatten = f.body.drop t.nhasRecv.toNat ++ rest)
    (h : recvAll t.paramLoop chunks = some s') :
    ParamEnds t f (f.body.drop t.nhasRecv.toNat) rest chunks s' := by
  induction chunks generalizing t with
  | nil =>
    -- the bytes that remain are those of the frame, so none is missing
    have hdone : t.nhasRecv.toNat = f.body.length := by
      have := congrArg List.length hflat
      simp only [List.flatten_nil, List.length_nil, List.length_append, List.length_drop] at this
      omega
    exact recv_params_done hlen hcmd hdone hparam hflat h
  | cons b bs ih =>
    by_cases hlt : t.nhasRecv < t.length
    · -- the loop goes on with the next part of the parameters
      have hloop : t.paramLoop = { t with loop := .param } := by rw [paramLoop, if_pos hlt]
      rw [hloop] at h
      obtain ⟨s₁, hs, h⟩ := recvAll_cons.1 h
      rcases step_read hs with ⟨hl, -, -⟩ | ⟨-, hc, rfl⟩
      · simp at hl
      · obtain ⟨hadd, hmax⟩ := toNat_add_length (UInt32.le_of_lt hlt) hc
        rw [hlen] at hmax
        obtain ⟨htake, hdrop, hrest⟩ := chunk_of_flatten hflat hmax
        obtain ⟨t', ht'⟩ : ∃ t', t' = { t with loop := .param }.readParam b := ⟨_, rfl⟩
        have hnhas : t'.nhasRecv.toNat = t.nhasRecv.toNat + b.length := by rw [ht']; exact hadd
        have hmem : load t'.param 0 (t.nhasRecv.toNat + b.length) =
            f.body.take (t.nhasRecv.toNat + b.length) := by
          have := load_store_append t.param 0 t.nhasRecv.toNat b
          rw [Nat.zero_add] at this
          rw [ht', readParam, this, hparam, htake]
        have hsame : t'.srvCmdStr = t.srvCmdStr ∧ t'.analyzed = t.analyzed ∧
            t'.strays = t.strays := by
          rw [ht']
          exact ⟨rfl, rfl, rfl⟩
        rw [← ht'] at h
        obtain ⟨cs, cs', c, s₂, rfl, hcs, hcs', hrun, hat, han, hcar, hstrays⟩ :=
          ih (by rw [length, hsame.1]; exact hlen) (by rw [cmdword, hsame.1]; exact hcmd)
            (by rw [hnhas]; exact hmax) (by rw [hnhas]; exact hmem) (by rw [hnhas]; exact hrest) h
        rw [hsame.2.1] at han
        rw [hsame.2.2] at hstrays
        refine ⟨b :: cs, cs', c, s₂, rfl, ?_, hcs', hrun, hat, han, hcar, hstrays⟩
        rw [List.flatten_cons, hcs, hnhas, hdrop]
    · have hdone : t.nhasRecv.toNat = f.body.length := by
        rw [UInt32.lt_iff_toNat_lt] at hlt
        omega
      exact recv_params_done hlen hcmd hdone hparam hflat h

/-- A header comes in one read, or another piece of it is written over other variables. -/
lemma recv_header {header rest : List UInt8} (hs : s.AtFrame) (hheader : header.length = 8)
    (hflat : chunks.flatten = header ++ rest) (h : recvAll s chunks = some s') :
    ∃ b bs, chunks = b :: bs ∧ 0 < b.length ∧ b.length ≤ 8 ∧
      (b.length = 8 → b = header ∧ bs.flatten = rest ∧
        recvAll (s.readHeader b).gotHeader.paramLoop bs = some s') ∧
      (b.length < 8 → s'.strays ≠ s.strays) := by
  cases chunks with
  | nil =>
    have := congrArg List.length hflat
    rw [List.flatten_nil, List.length_nil, List.length_append] at this
    omega
  | cons b bs =>
    obtain ⟨hl, hn⟩ := hs
    obtain ⟨s₁, hstep, h⟩ := recvAll_cons.1 h
    rcases step_read hstep with ⟨-, hc, rfl⟩ | ⟨hl', -, -⟩
    · rw [hn] at hc
      obtain ⟨hpos, hmax, -⟩ := hc
      have hmax8 : b.length ≤ 8 := hmax
      have hnhas : (s.readHeader b).nhasRecv.toNat = b.length := by
        show (s.nhasRecv + UInt32.ofNat b.length).toNat = b.length
        rw [hn, UInt32.zero_add, UInt32.toNat_ofNat']
        omega
      refine ⟨b, bs, rfl, hpos, hmax8, fun h8 => ?_, fun hlt hsame => ?_⟩
      · have hge : ¬ (s.readHeader b).nhasRecv < 8 := by
          rw [UInt32.lt_iff_toNat_lt, hnhas, h8]
          exact Nat.lt_irrefl _
        rw [headerLoop, if_neg hge] at h
        obtain ⟨hb, hrest⟩ := List.append_inj (by simpa using hflat) (h8.trans hheader.symm)
        exact ⟨hb, hrest, h⟩
      · -- the next read continues the header
        have hlt8 : (s.readHeader b).nhasRecv < 8 := by
          rw [UInt32.lt_iff_toNat_lt, hnhas]
          exact hlt
        rw [headerLoop, if_pos hlt8] at h
        cases bs with
        | nil =>
          have := congrArg List.length hflat
          rw [List.flatten_cons, List.flatten_nil, List.append_nil, List.length_append] at this
          omega
        | cons b' bs =>
          obtain ⟨s₂, hstep', h⟩ := recvAll_cons.1 h
          rcases step_read hstep' with ⟨-, hc', rfl⟩ | ⟨hl', -, -⟩
          · obtain ⟨t, ht⟩ : ∃ t : RecvTsk, t = { s.readHeader b with loop := .header } := ⟨_, rfl⟩
            rw [← ht] at h
            have htn : 0 < t.nhasRecv.toNat := by
              rw [ht]
              exact hnhas ▸ hpos
            have hts : t.strays = s.strays := by
              rw [ht]
              exact strays_readHeader_first hn hmax8
            have hpre := strays_recvAll h
            rw [strays_headerLoop, hsame, ← hts] at hpre
            refine strays_readHeader_further htn hc'.1 (hpre.eq_of_length_le ?_)
            rw [readHeader, List.length_append]
            exact Nat.le_add_right _ _
          · simp at hl'
    · rw [hl] at hl'
      exact absurd hl' (by simp)

/-! ## All frames -/

/-- The words in `SrvCmd_str`, read from its first eight bytes. -/
lemma length_eq_take (t : RecvTsk) : t.length = ofLe32 ((load t.srvCmdStr 0 8).take 4) := by
  rw [load_add _ 0 4 4, List.take_left' (by simp), length]

lemma cmdword_eq_drop (t : RecvTsk) : t.cmdword = ofLe32 ((load t.srvCmdStr 0 8).drop 4) := by
  rw [load_add _ 0 4 4, List.drop_left' (by simp), cmdword]

/-- `SrvCmd_str` holds the header of a frame exactly if, with 4 taken off its length, it is
right for the frame. -/
lemma header_iff {t : RecvTsk} {f : Frame} (hf : f.Fits) :
    load t.srvCmdStr 0 8 = f.header ↔
      (t.length - 4).toNat = f.body.length ∧ t.cmdword = f.word := by
  have hfits : 4 + f.body.length < 2 ^ 32 := hf
  have hword : UInt32.ofNat f.length - 4 = UInt32.ofNat f.body.length := by
    rw [Frame.length, UInt32.ofNat_add, UInt32.add_comm]
    exact UInt32.add_sub_cancel _ _
  have hbody : (UInt32.ofNat f.body.length).toNat = f.body.length := by
    rw [UInt32.toNat_ofNat']
    omega
  constructor
  · intro h
    rw [length_eq_take, cmdword_eq_drop, h, Frame.header, List.take_left' (by simp),
      List.drop_left' (by simp), ofLe32_le32, ofLe32_le32, hword]
    exact ⟨hbody, rfl⟩
  · rintro ⟨hlen, hcmd⟩
    have hlength : t.length = UInt32.ofNat f.length := by
      have hsub : t.length - 4 = UInt32.ofNat f.length - 4 := by
        rw [hword, ← UInt32.toNat_inj, hlen, hbody]
      have := congrArg (· + 4) hsub
      rwa [UInt32.sub_add_cancel, UInt32.sub_add_cancel] at this
    rw [← List.take_append_drop 4 (load t.srvCmdStr 0 8), Frame.header, ← hlength, ← hcmd,
      length_eq_take, cmdword_eq_drop, le32_ofLe32 (by simp), le32_ofLe32 (by simp)]

/-- The calls for the frames after the first are the ones made after its call. -/
lemma calls_cons {s₁ : RecvTsk} {c : SrvCmd} {f : Frame} {fs : List Frame}
    (hcall : s₁.analyzed = s.analyzed ++ [c]) (hpre : s₁.analyzed <+: s'.analyzed)
    (hcar : c.Carries f) :
    Reassembles s s' (f :: fs) ↔ Reassembles s₁ s' fs := by
  obtain ⟨r, hr⟩ := hpre
  constructor
  · rintro ⟨calls, hcalls, hall⟩
    cases hall with
    | cons hcar' hrest =>
      rename_i c' calls
      rw [← hr, hcall, List.append_assoc] at hcalls
      obtain ⟨-, rfl⟩ : c = c' ∧ r = calls := by simpa using hcalls
      exact ⟨r, hr.symm, hrest⟩
  · rintro ⟨calls, hcalls, hall⟩
    exact ⟨c :: calls, by rw [hcalls, hcall]; simp, .cons hcar hall⟩

lemma fits_of_length_le {f : Frame} (h : f.length ≤ 4 + paramSize) : f.Fits := by
  unfold Frame.Fits paramSize at *
  omega

/-- After a header that comes in one read, the task waits for the parameters of its frame. -/
lemma recv_whole_header {f : Frame} {rest : List UInt8} (hs : s.AtFrame) (hf : f.Fits)
    (hwhole : ∀ k, 0 < k → IsCut chunks k → 8 ≤ k) (hflat : chunks.flatten = f.header ++ rest)
    (h : recvAll s chunks = some s') :
    ∃ (bs : List (List UInt8)) (t : RecvTsk), chunks = f.header :: bs ∧ bs.flatten = rest ∧
      recvAll t.paramLoop bs = some s' ∧ t.analyzed = s.analyzed ∧ t.strays = s.strays ∧
      t.length.toNat = f.body.length ∧ t.cmdword = f.word ∧ t.nhasRecv = 0 := by
  obtain ⟨b, bs, rfl, hpos, hmax, hdone, -⟩ := recv_header hs f.length_header hflat h
  obtain ⟨rfl, hrest, hrun⟩ := hdone (Nat.le_antisymm hmax (hwhole _ hpos (isCut_head _ _)))
  have hload : load (s.readHeader f.header).srvCmdStr 0 8 = f.header := by
    have hself := load_store_self s.srvCmdStr 0 f.header
    rw [Frame.length_header] at hself
    simpa [readHeader, hs.2] using hself
  obtain ⟨hlen, hcmd⟩ := (header_iff hf).1 hload
  exact ⟨bs, (s.readHeader f.header).gotHeader, rfl, hrest, hrun, rfl,
    strays_readHeader_first hs.2 hmax, by rw [length_gotHeader]; exact hlen,
    by rw [cmdword_gotHeader]; exact hcmd, rfl⟩

/-- Reading the chunks of some frames receives them exactly if no header is cut. -/
lemma recvAll_iff {frames : List Frame} (hs : s.AtFrame) (hf : ∀ f ∈ frames, f.Fits)
    (hflat : chunks.flatten = encodeFrames frames) (h : recvAll s chunks = some s') :
    Received s s' frames ↔ HeadersWhole frames chunks := by
  induction frames generalizing s chunks with
  | nil =>
    have hno : chunks = [] := by
      cases chunks with
      | nil => rfl
      | cons b bs =>
        obtain ⟨s₁, hstep, -⟩ := recvAll_cons.1 h
        have hb : b = [] := by simp at hflat; exact hflat.1
        rcases step_read hstep with ⟨-, hc, -⟩ | ⟨-, hc, -⟩ <;> simp [hb, CanRead] at hc
    subst hno
    obtain rfl : s = s' := by simpa using h
    exact ⟨fun _ i hi => absurd hi (by simp), fun _ => ⟨⟨[], by simp⟩, rfl⟩⟩
  | cons f fs ih =>
    have hff := hf f (by simp)
    rw [encodeFrames_cons, Frame.encode, List.append_assoc] at hflat
    obtain ⟨b, bs, hchunks, hpos, hmax, -, hcut⟩ := recv_header hs f.length_header hflat h
    by_cases h8 : b.length < 8
    · -- the header is cut, and its rest is written over other variables
      refine iff_of_false (fun hr => hcut h8 hr.inPlace) fun hwhole => ?_
      have hle := hwhole.head hpos (hchunks ▸ isCut_head b bs)
      omega
    · -- the header is right: one call for the frame, and the others as before
      obtain ⟨bs, t, rfl, hrest, hrun, han, hstrays, hlen, hcmd, hn⟩ := recv_whole_header hs hff
        (fun k hk hkcut => (Nat.not_lt.1 h8).trans (isCut_cons_le hk (hchunks ▸ hkcut))) hflat h
      obtain ⟨cs₁, cs₂, c, s₁, rfl, hcs₁, hcs₂, hrun₂, hat, hcall, hcar, hstrays₁⟩ :=
        @recv_params s' _ t f (encodeFrames fs) hlen hcmd (by rw [hn]; exact Nat.zero_le _)
          (by rw [hn]; rfl) (by rw [hn]; exact hrest) hrun
      rw [han] at hcall
      rw [hn] at hcs₁
      have hencode : (f.header :: cs₁).flatten = f.encode := by
        rw [List.flatten_cons, hcs₁]
        rfl
      have hrec := ih hat (fun g hg => hf g (List.mem_cons_of_mem _ hg)) hcs₂ hrun₂
      rw [← List.cons_append, headersWhole_cons rfl hencode, ← hrec]
      constructor
      · rintro ⟨hcalls, hplace⟩
        refine ⟨(calls_cons hcall (prefix_recvAll hrun₂) hcar).1 hcalls, ?_⟩
        rw [hplace, hstrays₁, hstrays]
      · rintro ⟨hcalls, hplace⟩
        refine ⟨(calls_cons hcall (prefix_recvAll hrun₂) hcar).2 hcalls, ?_⟩
        rw [hplace, hstrays₁, hstrays]

/-- **Reassembly.**  Whatever frames arrive and however their bytes are cut into reads, the task
receives them exactly if every header comes in one read. -/
theorem frames_reassembled {frames : List Frame} (hs : s.AtFrame)
    (hf : ∀ f ∈ frames, f.length ≤ 4 + paramSize) (hflat : chunks.flatten = encodeFrames frames)
    (h : recvAll s chunks = some s') :
    Received s s' frames ↔ HeadersWhole frames chunks :=
  recvAll_iff hs (fun f hmem => fits_of_length_le (hf f hmem)) hflat h

/-- The task after its first connection. -/
def connected : RecvTsk := (init fun _ => 0).startFrame

/-- A reset frame. -/
def resetFrame : Frame := { word := 0xAACC0101, body := [] }

/-- A reset frame whose header is cut in the middle: `local_cmd_analyze` is called with command
word 0. -/
theorem cut_header_misread : ¬ ∀ (s s' : RecvTsk) (frames : List Frame)
    (chunks : List (List UInt8)), s.AtFrame → (∀ f ∈ frames, f.length ≤ 4 + paramSize) →
    chunks.flatten = encodeFrames frames → recvAll s chunks = some s' →
    Reassembles s s' frames := by
  intro h
  obtain ⟨s', hs', hcmd⟩ : ∃ s', recvAll connected [[4, 0, 0, 0], [1, 1, 0xCC, 0xAA]] = some s' ∧
      s'.analyzed.map SrvCmd.cmdword = [0] := ⟨_, rfl, by decide +kernel⟩
  obtain ⟨calls, hcalls, hall⟩ :=
    h connected s' [resetFrame] _ ⟨rfl, rfl⟩ (by decide) (by decide) hs'
  rw [hcalls] at hcmd
  cases hall with
  | cons hcar hrest =>
    rename_i c _
    have hzero : c.cmdword = 0 := (List.cons.inj hcmd).1
    exact absurd (hzero.symm.trans hcar.1) (by decide)

/-- A position test frame whose parameters come in three reads. -/
theorem frames_reassembled_posTest :
    Received connected
        ((recvAll connected [[8, 0, 0, 0, 3, 1, 0xCC, 0xAA], [2], [0, 0], [0]]).getD connected)
        [{ word := 0xAACC0103, body := [2, 0, 0, 0] }] ↔
      HeadersWhole [{ word := 0xAACC0103, body := [2, 0, 0, 0] }]
        [[8, 0, 0, 0, 3, 1, 0xCC, 0xAA], [2], [0, 0], [0]] :=
  frames_reassembled ⟨rfl, rfl⟩ (by decide) (by decide) rfl

end RecvTsk

end RejectProcess
