import RejectProcess.Communication.LocalProtocol
import RejectProcess.Communication.Reassembly

/-!
# The bytes that a command uses

The parameter block is used for one frame after another, and a frame fills only its beginning.
This file shows for which frames the effect of `local_cmd_analyze` is the same whatever the
earlier frames have left behind: those that fill what their handler reads, and a few others whose
missing bytes make no difference.
-/

namespace RejectProcess

open Lib Publish Position

/-- A receive history, of any frames over any connections, ends in this call of
`local_cmd_analyze`, and the call carries the frame. -/
def Receives (param : Mem) (f : Frame) (c : SrvCmd) : Prop :=
  ∃ s, Reach RecvTsk.step AnyStep (RecvTsk.init param) s ∧ s.analyzed.getLast? = some c ∧
    c.Carries f

/-- The effect of a frame is the same after all histories. -/
def OwnEffect (param : Mem) (f : Frame) (p : Prog) : Prop :=
  ∀ c c', Receives param f c → Receives param f c' → localCmdAnalyze c p = localCmdAnalyze c' p

/-- The position test that is selected would take a record, and has none. -/
def Prog.Exhausted (p : Prog) : Prop :=
  (p.cfg.posTestItem = 2 ∧ (p.pos (.c1Kt .one)).buf.list = []) ∨
    (p.cfg.posTestItem = 4 ∧ (p.pos (.c1Kt .two)).buf.list = [])

/-- One of the bytes of `pos` that a sample frame brings is not zero. -/
def NamesPos (body : List UInt8) : Prop := ∃ b ∈ (body.take 24).drop 20, b ≠ 0

/-- The bytes of the frame settle what its handler does: the handler reads no others, or it stops
the process for want of a buffer whatever the others are, or those it lacks are of no use to it. -/
def BytesSuffice (f : Frame) (p : Prog) : Prop :=
  (f.word = 0xAACC0103 → 4 ≤ f.body.length) ∧
  (f.word = 0xAACC0102 → 28 ≤ f.body.length ∨ p.Exhausted ∨
    (NamesPos f.body ∧ p.samples.mem.sampleBuf.list = []) ∨
    (24 ≤ f.body.length ∧ ¬ NamesPos f.body))

/-! ## The calls -/

/-- The parameter block begins with the bytes of the frame. -/
lemma SrvCmd.Carries.param_eq {c : SrvCmd} {f : Frame} (h : c.Carries f) {i : ℕ}
    (hi : i < f.body.length) : c.param i = f.body[i] := by
  have hget := congrArg (fun l : List UInt8 => l[i]?) h.2.2
  simpa [load, hi] using hget

lemma SrvCmd.Carries.congr {c c' : SrvCmd} {f : Frame} (h : c.Carries f) (h' : c'.Carries f)
    {n : ℕ} (hn : n ≤ f.body.length) : ∀ i < n, c.param i = c'.param i := by
  intro i hi
  rw [h.param_eq (by omega), h'.param_eq (by omega)]

/-- Whether a frame names a station is seen in the four bytes of `pos`, as far as it brings them. -/
lemma namesPos_iff {c : SrvCmd} {f : Frame} (h : c.Carries f) :
    NamesPos f.body ↔ ∃ i < 4, 20 + i < f.body.length ∧ c.param (20 + i) ≠ 0 := by
  constructor
  · rintro ⟨b, hb, hne⟩
    obtain ⟨i, hi, rfl⟩ := List.getElem_of_mem hb
    simp only [List.length_drop, List.length_take] at hi
    refine ⟨i, by omega, by omega, ?_⟩
    rw [h.param_eq (by omega)]
    simpa using hne
  · rintro ⟨i, hi, hlt, hne⟩
    rw [h.param_eq hlt] at hne
    refine ⟨f.body[20 + i], ?_, hne⟩
    refine List.mem_of_getElem? (i := i) ?_
    rw [List.getElem?_drop, List.getElem?_take_of_lt (by omega), List.getElem?_eq_getElem hlt]

lemma pos_ne_zero {c : SrvCmd} {i : ℕ} (hi : i < 4) (hne : c.param (20 + i) ≠ 0) :
    (sampleResult c.param).pos ≠ 0 := by
  intro h0
  refine hne ((ofLe32_eq_zero (length_load c.param 20 4)).1 h0 _ ?_)
  exact List.mem_map.2 ⟨i, List.mem_range.2 hi, rfl⟩

lemma pos_eq_zero {c : SrvCmd} (h : ∀ i < 4, c.param (20 + i) = 0) :
    (sampleResult c.param).pos = 0 := by
  refine (ofLe32_eq_zero (length_load c.param 20 4)).2 fun b hb => ?_
  obtain ⟨i, hi, rfl⟩ := List.mem_map.1 hb
  exact h i (List.mem_range.1 hi)

/-! ## The handlers -/

namespace Prog

variable {p p' : Prog} {r r' : SampleResult}

lemma addPos_eq_none {l : PosList} {x : Reference} :
    p.addPos l x = none ↔ (p.pos l).buf.list = [] := by
  simp [addPos, PosMem.add, BufferFactory.produce_eq_none]

/-- The reference is not stored exactly when the test has no buffer for it. -/
lemma addReference_eq_none : p.addReference r = none ↔ p.Exhausted := by
  unfold addReference Exhausted
  split
  case isTrue h2 => simp [h2, addPos_eq_none]
  case isFalse h2 =>
    split
    case isTrue h4 => simp [h4, addPos_eq_none]
    case isFalse h4 => simp [h2, h4]

/-- The position tests leave the samples alone. -/
lemma samples_addReference (h : p.addReference r = some p') : p'.samples = p.samples := by
  have hadd : ∀ l x, p.addPos l x = some p' → p'.samples = p.samples := by
    intro l x hx
    obtain ⟨m, -, rfl⟩ := Option.map_eq_some_iff.1 hx
    rfl
  rw [addReference] at h
  split at h
  · exact hadd _ _ h
  · split at h
    · exact hadd _ _ h
    · cases h
      rfl

lemma addReference_congr (hc : r.count = r'.count) (hw : r.wheelCode = r'.wheelCode) :
    p.addReference r = p.addReference r' := by
  simp only [addReference, hc, hw]

/-- A sample frame ends in an exit when one of its two pools has no buffer. -/
lemma recvSampleResult_eq_none (h : p.Exhausted ∨ writeArray r p.samples.mem = none) :
    p.recvSampleResult r = none := by
  rw [recvSampleResult]
  cases hw : writeArray r p.samples.mem with
  | none => rfl
  | some mem =>
    rcases h with h | h
    · exact addReference_eq_none.2 h
    · simp [hw] at h

/-- What a sample frame leaves of the samples is what `write_array` leaves. -/
lemma recvSampleResult_samples (h : ¬ p.Exhausted) {mem : ArrayMem}
    (hw : writeArray r p.samples.mem = some mem) :
    ∃ p', p.recvSampleResult r = some p' ∧ p'.samples.mem = mem := by
  rw [recvSampleResult]
  rw [hw]
  set p₁ : Prog := { p with samples := { p.samples with mem := mem } } with hp₁
  cases hadd : p₁.addReference r with
  | none => exact absurd (addReference_eq_none.1 hadd) h
  | some p' => exact ⟨p', hadd, by rw [samples_addReference hadd, hp₁]⟩

end Prog

/-- A sample without a station is not stored. -/
lemma writeArray_of_zero {r : SampleResult} (h : r.pos = 0) (m : ArrayMem) :
    writeArray r m = some m := by
  simp [writeArray, h]

lemma writeArray_eq_none {r : SampleResult} (h : r.pos ≠ 0) {m : ArrayMem}
    (hm : m.sampleBuf.list = []) : writeArray r m = none := by
  simp [writeArray, h, BufferFactory.produce_eq_none.2 hm]

/-- A sample with a `pos` is stored in the first free buffer. -/
lemma writeArray_of_ne {r : SampleResult} (h : r.pos ≠ 0) {m : ArrayMem} {b : Buffer}
    {rest : List Buffer} (hm : m.sampleBuf.list = b :: rest) :
    ∃ m', writeArray r m = some m' ∧ m'.sample b = r ∧ m'.sampleBuf.list = rest := by
  obtain ⟨f, hf⟩ : ∃ f, m.sampleBuf.produce = some (b, f) :=
    ⟨{ m.sampleBuf with list := rest }, BufferFactory.produce_eq_some.2 ⟨hm, rfl⟩⟩
  have hrest : f.list = rest := by
    have hl := (BufferFactory.produce_eq_some.1 hf).1
    rw [hm] at hl
    exact (List.cons.inj hl).2.symm
  refine ⟨linkSample r b (m.setBuf f), ?_, ?_, ?_⟩
  · simp [writeArray, h, hf]
  · rw [linkSample]
    split
    · simp [ArrayMem.sample]
    · split <;> simp [ArrayMem.sample]
  · rw [linkSample]
    split
    · simp [hrest]
    · split <;> simp [hrest]

/-! ## Histories -/

namespace RecvTsk

variable {s : RecvTsk}

/-- A frame that comes in one read for its header and one for its body. -/
def wholeReads (f : Frame) : List RecvLabel :=
  .read f.header :: if f.body = [] then [] else [.read f.body]

/-- A header in one read is in its place. -/
lemma header_whole (h : s.AtFrame) {f : Frame} (hf : f.Fits) :
    s.step (.read f.header) = some (s.readHeader f.header).gotHeader.paramLoop ∧
      (s.readHeader f.header).gotHeader.length.toNat = f.body.length ∧
      (s.readHeader f.header).gotHeader.cmdword = f.word := by
  obtain ⟨hl, hn⟩ := h
  have hcan : CanRead (8 - s.nhasRecv) f.header := by
    rw [hn]
    exact ⟨by simp, by simp, by simp⟩
  have hnhas : ¬ (s.readHeader f.header).nhasRecv < 8 := by
    simp [readHeader, hn]
  have hload : load (s.readHeader f.header).srvCmdStr 0 8 = f.header := by
    have hself := load_store_self s.srvCmdStr 0 f.header
    rw [Frame.length_header] at hself
    simpa [readHeader, hn] using hself
  obtain ⟨hlen, hcmd⟩ := (header_iff hf).1 hload
  refine ⟨?_, by rw [length_gotHeader]; exact hlen, by rw [cmdword_gotHeader]; exact hcmd⟩
  simp [step, hl, hcan, headerLoop, hnhas]

/-- Between `t` and `s` the frame `f` was handed over as `c`, at the beginning of what the parameter
block held. -/
structure HandsOver (t s : RecvTsk) (f : Frame) (c : SrvCmd) : Prop where
  atFrame : s.AtFrame
  param : s.param = c.param
  analyzed : s.analyzed = t.analyzed ++ [c]
  carries : c.Carries f
  stored : c.param = store t.param 0 f.body

/-- A frame without parameters is complete with its header. -/
lemma param_none {t : RecvTsk} {f : Frame} (hlen : t.length.toNat = f.body.length)
    (hcmd : t.cmdword = f.word) (hbody : f.body = []) :
    ∃ s c, t.paramLoop = s ∧ t.HandsOver s f c := by
  have hdone : ¬ t.nhasRecv < t.length := by
    rw [UInt32.lt_iff_toNat_lt, hlen, hbody]
    simp
  refine ⟨t.analyze.startFrame, ⟨t.length, t.cmdword, t.param⟩, by rw [paramLoop, if_neg hdone],
    t.analyze.atFrame_startFrame, rfl, rfl, ⟨hcmd, hlen, ?_⟩, ?_⟩
  · simp [hbody, load]
  · rw [hbody]
    funext i
    simp [store]

/-- The parameters in one read are at the beginning of the parameter block. -/
lemma param_whole {t : RecvTsk} {f : Frame} (hlen : t.length.toNat = f.body.length)
    (hcmd : t.cmdword = f.word) (hnhas : t.nhasRecv = 0) (hbody : f.body ≠ [])
    (hf : f.body.length ≤ paramSize) :
    ∃ s c, t.paramLoop.step (.read f.body) = some s ∧ t.HandsOver s f c := by
  have hlt : t.nhasRecv < t.length := by
    rw [UInt32.lt_iff_toNat_lt, hlen, hnhas]
    exact List.length_pos_iff.2 hbody
  have hcan : CanRead (t.length - t.nhasRecv) f.body := by
    rw [paramSize] at hf
    refine ⟨List.length_pos_iff.2 hbody, ?_, by omega⟩
    rw [hnhas, UInt32.sub_zero, hlen]
  obtain ⟨u, hu⟩ : ∃ u, u = ({ t with loop := .param }).readParam f.body := ⟨_, rfl⟩
  have hdone : ¬ u.nhasRecv < u.length := by
    have hulen : u.length = t.length := by rw [hu]; rfl
    have hunhas : u.nhasRecv.toNat = f.body.length := by
      rw [hu]
      show (t.nhasRecv + UInt32.ofNat f.body.length).toNat = f.body.length
      rw [(toNat_add_length (UInt32.le_of_lt hlt) hcan).1, hnhas]
      simp
    rw [UInt32.lt_iff_toNat_lt, hulen, hunhas, hlen]
    exact Nat.lt_irrefl _
  have hupar : u.param = store t.param 0 f.body := by
    rw [hu]
    show store t.param t.nhasRecv.toNat f.body = _
    rw [hnhas]
    rfl
  refine ⟨u.analyze.startFrame, ⟨u.length, u.cmdword, u.param⟩, ?_, u.analyze.atFrame_startFrame,
    rfl, ?_, ⟨?_, ?_, ?_⟩, hupar⟩
  · have hcan' : CanRead (({ t with loop := .param } : RecvTsk).length - t.nhasRecv) f.body := hcan
    rw [paramLoop, if_pos hlt, step]
    simp only [hcan', if_true, ← hu, paramLoop, if_neg hdone]
  · rw [hu]
    rfl
  · rw [hu]
    exact hcmd
  · rw [hu]
    exact hlen
  · show load u.param 0 f.body.length = f.body
    rw [hupar, load_store_self]

/-- Such a frame overwrites the beginning of the parameter block, and is handed over. -/
lemma recv_whole (h : s.AtFrame) {f : Frame} (hf : f.body.length ≤ paramSize) :
    ∃ s' c, exec step s (wholeReads f) = some s' ∧ s.HandsOver s' f c := by
  have hfits : f.Fits := by
    unfold Frame.Fits Frame.length
    rw [paramSize] at hf
    omega
  obtain ⟨hstep, hlen, hcmd⟩ := header_whole h hfits
  obtain ⟨t, ht⟩ : ∃ t, t = (s.readHeader f.header).gotHeader := ⟨_, rfl⟩
  have hparam : t.param = s.param := by rw [ht]; rfl
  have hanalyzed : t.analyzed = s.analyzed := by rw [ht]; rfl
  have hnhas : t.nhasRecv = 0 := by rw [ht]; rfl
  rw [← ht] at hstep hlen hcmd
  obtain ⟨s', c, hrun, hover⟩ : ∃ s' c, exec step s (wholeReads f) = some s' ∧
      t.HandsOver s' f c := by
    by_cases hbody : f.body = []
    · obtain ⟨s', c, hs, hover⟩ := param_none hlen hcmd hbody
      exact ⟨s', c, by simp [wholeReads, hbody, exec_cons, hstep, hs], hover⟩
    · obtain ⟨s', c, hs, hover⟩ := param_whole hlen hcmd hnhas hbody hf
      exact ⟨s', c, by simp [wholeReads, hbody, exec_cons, hstep, hs], hover⟩
  refine ⟨s', c, hrun, hover.atFrame, hover.param, ?_, hover.carries, ?_⟩
  · rw [hover.analyzed, hanalyzed]
  · rw [hover.stored, hparam]

end RecvTsk

/-- A frame with a command word that no handler has, which fills the parameter block. -/
def filler (x : UInt8) : Frame := { word := 0, body := List.replicate paramSize x }

/-- After a filler frame, the bytes that the next one lacks are those of the filler. -/
lemma receives_filler (param : Mem) {f : Frame} (hf : f.body.length ≤ paramSize) (x : UInt8) :
    ∃ c, Receives param f c ∧ ∀ i, f.body.length ≤ i → i < paramSize → c.param i = x := by
  have hlink : (RecvTsk.init param).step .link = some (RecvTsk.init param).startFrame := rfl
  obtain ⟨s₁, c₁, hrun₁, h₁⟩ :=
    RecvTsk.recv_whole (RecvTsk.init param).atFrame_startFrame (f := filler x) (by simp [filler])
  obtain ⟨s₂, c₂, hrun₂, h₂⟩ := RecvTsk.recv_whole h₁.atFrame hf
  refine ⟨c₂, ⟨s₂, ?_, ?_, h₂.carries⟩, ?_⟩
  · have hstart : Reach RecvTsk.step AnyStep (RecvTsk.init param)
        (RecvTsk.init param).startFrame := Reach.init.step trivial hlink
    exact (hstart.trans (reach_any _ hrun₁)).trans (reach_any _ hrun₂)
  · rw [h₂.analyzed]
    simp
  · intro i hge hlt
    rw [h₂.stored, h₁.param, h₁.stored]
    have hnew : f.body.getD i (store (RecvTsk.init param).startFrame.param 0 (filler x).body i) =
        store (RecvTsk.init param).startFrame.param 0 (filler x).body i :=
      List.getD_eq_default _ _ hge
    simp only [store, Nat.zero_le, if_true, Nat.sub_zero] at hnew ⊢
    rw [hnew]
    simp [filler, hlt]

/-! ## The effect of a frame -/

section Effect

variable {param : Mem} {f : Frame} {p : Prog}

/-- A position test command with all its bytes. -/
lemma posTest_congr {c c' : SrvCmd} (h : c.Carries f) (h' : c'.Carries f)
    (hlen : 4 ≤ f.body.length) :
    ofLe32 (load c.param 0 4) = ofLe32 (load c'.param 0 4) := by
  rw [load_congr fun i hi => h.congr h' hlen i (by omega)]

/-- A sample frame whose bytes suffice. -/
lemma sample_congr {c c' : SrvCmd} (h : c.Carries f) (h' : c'.Carries f)
    (hs : 28 ≤ f.body.length ∨ p.Exhausted ∨
      (NamesPos f.body ∧ p.samples.mem.sampleBuf.list = []) ∨
      (24 ≤ f.body.length ∧ ¬ NamesPos f.body)) :
    p.recvSampleResult (sampleResult c.param) = p.recvSampleResult (sampleResult c'.param) := by
  rcases hs with hlen | hex | ⟨hpos, hempty⟩ | ⟨hlen, hpos⟩
  · rw [sampleResult_congr fun i hi => h.congr h' hlen i hi]
  · rw [Prog.recvSampleResult_eq_none (.inl hex), Prog.recvSampleResult_eq_none (.inl hex)]
  · -- the sample has a station, and there is no buffer for it
    have hnone : ∀ {c : SrvCmd}, c.Carries f →
        p.recvSampleResult (sampleResult c.param) = none := by
      intro c hc
      obtain ⟨i, hi, -, hne⟩ := (namesPos_iff hc).1 hpos
      exact Prog.recvSampleResult_eq_none (.inr (writeArray_eq_none (pos_ne_zero hi hne) hempty))
    rw [hnone h, hnone h']
  · -- the sample has no station, and only its count and wheel code are used
    have hzero : ∀ {c : SrvCmd}, c.Carries f → (sampleResult c.param).pos = 0 := by
      intro c hc
      refine pos_eq_zero fun i hi => ?_
      by_contra hne
      exact hpos ((namesPos_iff hc).2 ⟨i, hi, by omega, hne⟩)
    obtain ⟨hcount, hcode⟩ := count_wheelCode_congr fun i hi => h.congr h' hlen i (by omega)
    rw [Prog.recvSampleResult, Prog.recvSampleResult, writeArray_of_zero (hzero h),
      writeArray_of_zero (hzero h')]
    exact Prog.addReference_congr hcount hcode

/-- When its bytes suffice, a frame has the same effect after all histories. -/
lemma ownEffect_of_suffice (h : BytesSuffice f p) : OwnEffect param f p := by
  rintro c c' ⟨_, _, _, hc⟩ ⟨_, _, _, hc'⟩
  unfold localCmdAnalyze
  rw [hc.1, hc'.1]
  by_cases h2 : f.word = 0xAACC0102
  · simp [h2, sample_congr hc hc' (h.2 h2)]
  · by_cases h3 : f.word = 0xAACC0103
    · simp [h3, posTest_congr hc hc' (h.1 h3)]
    · simp [h2, h3]

/-- Two histories with the same effect, that differ in every byte the frame lacks. -/
lemma exists_fillers (hf : f.body.length ≤ paramSize) (h : OwnEffect param f p) :
    ∃ c c', c.Carries f ∧ c'.Carries f ∧ localCmdAnalyze c p = localCmdAnalyze c' p ∧
      ∀ i, f.body.length ≤ i → i < paramSize → c.param i = 0 ∧ c'.param i = 1 := by
  obtain ⟨c, hc, hbytes⟩ := receives_filler param hf 0
  obtain ⟨c', hc', hbytes'⟩ := receives_filler param hf 1
  have heq := h c c' hc hc'
  obtain ⟨-, -, -, hcar⟩ := hc
  obtain ⟨-, -, -, hcar'⟩ := hc'
  exact ⟨c, c', hcar, hcar', heq, fun i hge hlt => ⟨hbytes i hge hlt, hbytes' i hge hlt⟩⟩

/-- Then no word that reaches beyond the frame is the same in both. -/
lemma load_ne_of_fillers {c c' : SrvCmd} {off : ℕ}
    (h : ∀ i, f.body.length ≤ i → i < paramSize → c.param i = 0 ∧ c'.param i = 1)
    (hlt : f.body.length < off + 4) (hoff : off + 4 ≤ paramSize) :
    ofLe32 (load c.param off 4) ≠ ofLe32 (load c'.param off 4) := by
  refine ofLe32_load_ne (i := 3) (by omega) ?_
  obtain ⟨h0, h1⟩ := h (off + 3) (by omega) (by omega)
  rw [h0, h1]
  decide

/-- A position test command without all its bytes selects what was left behind. -/
lemma posTest_needs (hf : f.body.length ≤ paramSize) (hword : f.word = 0xAACC0103)
    (h : OwnEffect param f p) : 4 ≤ f.body.length := by
  by_contra hlt
  obtain ⟨c, c', hcar, hcar', heq, hbytes⟩ := exists_fillers hf h
  have hitem : ofLe32 (load c.param 0 4) = ofLe32 (load c'.param 0 4) := by
    have hitems := congrArg (Option.map fun p' : Prog => p'.cfg.posTestItem) heq
    simpa [localCmdAnalyze, hcar.1, hcar'.1, hword, Prog.recvPosTestCmd] using hitems
  exact load_ne_of_fillers hbytes (by omega) (by simp [paramSize]) hitem

/-- Two samples with the same effect on the samples are stored alike: both not at all, or both in
the same buffer. -/
lemma sample_eq_of_effect {r r' : SampleResult} (hex : ¬ p.Exhausted) (hpos' : r'.pos ≠ 0)
    (hfree : r.pos ≠ 0 → p.samples.mem.sampleBuf.list ≠ [])
    (h : p.recvSampleResult r = p.recvSampleResult r') : r = r' := by
  cases hlist : p.samples.mem.sampleBuf.list with
  | nil =>
    -- the second sample ends the process, and the first does not
    have hzero : r.pos = 0 := by
      by_contra hpos
      exact hfree hpos hlist
    obtain ⟨p₁, hp₁, -⟩ := Prog.recvSampleResult_samples hex (writeArray_of_zero hzero _)
    rw [hp₁, Prog.recvSampleResult_eq_none (.inr (writeArray_eq_none hpos' hlist))] at h
    cases h
  | cons b rest =>
    obtain ⟨mem', hw', hsample', hlist'⟩ := writeArray_of_ne hpos' hlist
    obtain ⟨p₂, hp₂, hmem₂⟩ := Prog.recvSampleResult_samples hex hw'
    by_cases hpos : r.pos = 0
    · -- only the second sample takes a buffer
      obtain ⟨p₁, hp₁, hmem₁⟩ := Prog.recvSampleResult_samples hex (writeArray_of_zero hpos _)
      rw [hp₁, hp₂] at h
      obtain rfl := Option.some.inj h
      rw [← hmem₂, hmem₁, hlist] at hlist'
      simp at hlist'
    · obtain ⟨mem, hw, hsample, -⟩ := writeArray_of_ne hpos hlist
      obtain ⟨p₁, hp₁, hmem₁⟩ := Prog.recvSampleResult_samples hex hw
      rw [hp₁, hp₂] at h
      obtain rfl := Option.some.inj h
      rw [← hsample, ← hsample', ← hmem₁, hmem₂]

/-- A sample frame whose bytes do not suffice stores what was left behind. -/
lemma sample_needs (hf : f.body.length ≤ paramSize) (hword : f.word = 0xAACC0102)
    (h : OwnEffect param f p) : 28 ≤ f.body.length ∨ p.Exhausted ∨
      (NamesPos f.body ∧ p.samples.mem.sampleBuf.list = []) ∨
      (24 ≤ f.body.length ∧ ¬ NamesPos f.body) := by
  by_contra hnot
  simp only [not_or, not_and, not_not, not_le] at hnot
  obtain ⟨hlt, hex, hfree, hnames⟩ := hnot
  obtain ⟨c, c', hcar, hcar', heq, hbytes⟩ := exists_fillers hf h
  simp only [localCmdAnalyze, hcar.1, hcar'.1, hword] at heq
  have hpos' : (sampleResult c'.param).pos ≠ 0 := by
    by_cases hn : NamesPos f.body
    · obtain ⟨i, hi, -, hne⟩ := (namesPos_iff hcar').1 hn
      exact pos_ne_zero hi hne
    · -- the last byte of `pos` is one of the second filler
      have hlt24 : f.body.length < 24 := by
        by_contra hge
        exact hn (hnames (by omega))
      refine pos_ne_zero (i := 3) (by omega) ?_
      rw [(hbytes _ (by omega) (by simp [paramSize])).2]
      decide
  have hfree' : (sampleResult c.param).pos ≠ 0 → p.samples.mem.sampleBuf.list ≠ [] := by
    intro hpos
    by_contra hempty
    -- what is not brought by the frame is zero
    refine hpos (pos_eq_zero fun i hi => ?_)
    rcases Nat.lt_or_ge (20 + i) f.body.length with hi' | hi'
    · by_contra hne
      exact hfree ((namesPos_iff hcar).2 ⟨i, hi, hi', hne⟩) hempty
    · exact (hbytes _ hi' (by rw [paramSize]; omega)).1
  have hsame := sample_eq_of_effect hex hpos' hfree' heq
  -- the last byte of `alarm` is one of the filler
  exact load_ne_of_fillers hbytes (by omega) (by simp [paramSize])
    (congrArg SampleResult.alarm hsame)

end Effect

/-- **The effect of a command depends only on its own bytes** exactly when they suffice. -/
theorem own_effect_iff (param : Mem) (f : Frame) (p : Prog) (hf : f.body.length ≤ paramSize) :
    OwnEffect param f p ↔ BytesSuffice f p :=
  ⟨fun h => ⟨fun hword => posTest_needs hf hword h, fun hword => sample_needs hf hword h⟩,
    ownEffect_of_suffice⟩

/-- The program after start-up, with its buffer memory and its registers zero. -/
def startProg : Prog where
  cfg := .default
  samples := { mem := arrayBufInit zeroMemory, curCountKt1 := 0 }
  pos := fun _ =>
    { buf := .create 128 fun _ =>
        { sample := { count := 0, wheelCode := 0, cTime := { tvSec := 0, tvUsec := 0 } }, buf := 0 }
      list := [] }
  isrClr := fun _ => 0
  version := Vector.replicate 32 0
  replies := []

/-- A sample frame without parameters. -/
def bareSample : Frame := { word := 0xAACC0102, body := [] }

theorem own_effect_iff_bareSample :
    OwnEffect (fun _ => 0) bareSample startProg ↔ BytesSuffice bareSample startProg :=
  own_effect_iff (fun _ => 0) bareSample startProg (by decide)

/-- The effect of a command does not depend only on its own bytes: a sample frame without
parameters stores the sample that an earlier frame has left. -/
theorem bareSample_uses_leftover : ¬ ∀ (param : Mem) (f : Frame) (p : Prog),
    f.body.length ≤ paramSize → OwnEffect param f p := by
  intro h
  have hown := h (fun _ => 0) bareSample startProg (by decide)
  have hmissing : ¬ NamesPos bareSample.body := by simp [NamesPos, bareSample]
  rcases sample_needs (by decide) rfl hown with hlen | hex | ⟨hpos, -⟩ | ⟨hlen, -⟩
  · revert hlen
    decide
  · rcases hex with ⟨hitem, -⟩ | ⟨hitem, -⟩ <;> exact absurd hitem (by decide)
  · exact hmissing hpos
  · revert hlen
    decide

end RejectProcess
