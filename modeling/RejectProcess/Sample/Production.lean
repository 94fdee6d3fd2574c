import Mathlib.Data.List.Forall2
import Mathlib.Data.List.Nodup
import RejectProcess.Sample.Pool
import RejectProcess.Sample.WheelCode

/-!
# Production runs at station 1

Station 1 finds the sample of the product that is passing in one of two ways: it counts the
triggers since the reset and looks for a sample with that count, or it looks for a sample
whose wheel code lies where the product was photographed.  On a production run, in which
every product passes the camera and the kick tube in turn, both find the same sample, and
they find it exactly when the product was reported.
-/

namespace RejectProcess

open Lib

/-! ## Calls of the array module in sequence -/

/-- What happens to the array module: a sample frame, or a trigger of a station. -/
inductive ArrayEvent
  | sample (r : SampleResult)
  | trigger1 (wheelCode : UInt64)
  | trigger2 (wheelCode : UInt64)
  | reset
deriving DecidableEq, Repr

/-- The register writes of a sequence of events, and the state after it.  `none` is the exit
of `write_array` on an empty pool. -/
def runArray (cfg : SysConfig) : ArrayState → List ArrayEvent →
    Option (List (ℕ × UInt16) × ArrayState)
  | s, [] => some ([], s)
  | s, .sample r :: es =>
    (writeArray r s.mem).bind fun m => runArray cfg { s with mem := m } es
  | s, .trigger1 code :: es =>
    let r := trig1SearchTsk cfg code s
    (runArray cfg r.2 es).map fun q => ((r.1.reg, r.1.val) :: q.1, q.2)
  | s, .trigger2 code :: es =>
    let r := trig2SearchTsk cfg code s
    (runArray cfg r.2 es).map fun q => ((r.1.reg, r.1.val) :: q.1, q.2)
  | s, .reset :: es => runArray cfg (resetSamples s) es

/-! ## Production runs -/

/-- What happens in a production run: product `j` is reported, or the next product crosses
the kick tube. -/
inductive ProductEvent
  | report (j : ℕ) (result : Vector UInt8 8) (alarm : UInt32)
  | trigger

namespace ProductEvent

/-- The products reported so far, in order of arrival. -/
def reported : List ProductEvent → List ℕ
  | [] => []
  | report j _ _ :: es => j :: reported es
  | trigger :: es => reported es

/-- The number of triggers so far. -/
def triggers : List ProductEvent → ℕ
  | [] => 0
  | report _ _ _ :: es => triggers es
  | trigger :: es => triggers es + 1

/-- The products reported whose trigger is still to come. -/
def pending (es : List ProductEvent) : List ℕ :=
  (reported es).filter (triggers es < ·)

lemma reported_append (es es' : List ProductEvent) :
    reported (es ++ es') = reported es ++ reported es' := by
  induction es with
  | nil => rfl
  | cons e es ih => cases e <;> simp [reported, ih]

lemma triggers_append (es es' : List ProductEvent) :
    triggers (es ++ es') = triggers es + triggers es' := by
  induction es with
  | nil => simp [triggers]
  | cons e es ih => cases e <;> simp [triggers, ih]; omega

end ProductEvent

open ProductEvent

/-- A production run at station 1 under the configuration `cfg`.  Products `1, …, n` are
photographed at the wheel codes `w j` and cross the kick tube in turn, product `j` at the
distance of the tube and off by `e j`; `events` is the order in which reports and triggers
reach the program. -/
structure ProductionRun (cfg : SysConfig) where
  n : ℕ
  n_lt : n < 2 ^ 32
  w : ℕ → UInt64
  gap : ∀ j, 1 ≤ j → j < n → (w j).toNat + cfg.sampleLength.toNat < (w (j + 1)).toNat
  span : 1 ≤ n → (w n).toNat - (w 1).toNat + cfg.sampleLength.toNat < 2 ^ 31
  e : ℕ → ℤ
  e_le : ∀ j, 1 ≤ j → j ≤ n → (e j).natAbs ≤ cfg.sampleLength.toNat / 2
  events : List ProductEvent
  triggers_eq : triggers events = n
  /-- A product is reported at most once, and before its trigger is processed. -/
  report_ok : ∀ past j res al rest, events = past ++ .report j res al :: rest →
    1 ≤ j ∧ j ≤ n ∧ j ∉ reported past ∧ triggers past < j
  pending_le : ∀ past, past <+: events → (pending past).length ≤ 128

namespace ProductionRun

variable {cfg : SysConfig} (run : ProductionRun cfg)

/-- The sample frame that reports product `j` for station 1. -/
def sampleOf (j : ℕ) (res : Vector UInt8 8) (al : UInt32) : SampleResult where
  result := res
  count := UInt32.ofNat j
  wheelCode := run.w j
  pos := 1
  alarm := al

/-- The wheel code at which product `j` crosses kick tube 1, in the 64-bit wheel counter. -/
def crossing (j : ℕ) : UInt64 :=
  UInt64.ofInt ((run.w j).toNat + kickDistance cfg .one + run.e j)

/-- The events of the run as the array module sees them, after `k` triggers. -/
def arrayEvents : ℕ → List ProductEvent → List ArrayEvent
  | _, [] => []
  | k, .report j res al :: es => .sample (run.sampleOf j res al) :: arrayEvents k es
  | k, .trigger :: es => .trigger1 (run.crossing (k + 1)) :: arrayEvents (k + 1) es

/-- The command for product `j`: eject it exactly when it is reported in the run. -/
def command (j : ℕ) : ℕ × UInt16 :=
  (fpgaCom1FifoReg, if j ∈ reported run.events then 1 else 0)

/-! ### The two tests agree on the products of a run -/

lemma gap_lt {i j : ℕ} (hi : 1 ≤ i) (hij : i < j) (hj : j ≤ run.n) :
    (run.w i).toNat + cfg.sampleLength.toNat < (run.w j).toNat := by
  induction j, hij using Nat.le_induction with
  | base => exact run.gap i hi hj
  | succ j hij ih =>
    have h1 := ih (by omega)
    have h2 := run.gap j (by omega) hj
    omega

lemma toNat_crossing (j : ℕ) :
    ((run.crossing j).toNat : ℤ) ≡ (run.w j).toNat + kickDistance cfg .one + run.e j
      [ZMOD 2 ^ 32] := by
  rw [crossing, UInt64.ofInt, Int.ModEq]
  have h0 := Int.emod_nonneg ((run.w j).toNat + kickDistance cfg .one + run.e j : ℤ)
    (show (2 ^ 64 : ℤ) ≠ 0 by norm_num)
  simp only [UInt64.toNat_ofNat']
  omega

/-- The windows of the products are disjoint: at the crossing of product `j` the wheel code
test of station 1 accepts the sample of product `j` and no other. -/
lemma wheelCodeTest_sampleOf {i j : ℕ} (hi : 1 ≤ i ∧ i ≤ run.n) (hj : 1 ≤ j ∧ j ≤ run.n)
    (res : Vector UInt8 8) (al : UInt32) :
    wheelCodeTest cfg .one (run.crossing j) (run.sampleOf i res al) = true ↔ i = j := by
  have hmod : ((run.crossing j).toNat - (run.w i).toNat - kickDistance cfg .one : ℤ)
      ≡ (run.w j).toNat - (run.w i).toNat + run.e j [ZMOD 2 ^ 32] := by
    have h := (run.toNat_crossing j).sub (Int.ModEq.refl ((run.w i).toNat + kickDistance cfg .one))
    have e1 : ((run.crossing j).toNat - (run.w i).toNat - kickDistance cfg .one : ℤ)
        = (run.crossing j).toNat - ((run.w i).toNat + kickDistance cfg .one) := by omega
    have e2 : ((run.w j).toNat - (run.w i).toNat + run.e j : ℤ)
        = (run.w j).toNat + kickDistance cfg .one + run.e j
          - ((run.w i).toNat + kickDistance cfg .one) := by omega
    rw [e1, e2]
    exact h
  have hspan := run.span (by omega)
  have he := run.e_le j hj.1 hj.2
  have hfirst : ∀ k, 1 ≤ k → k ≤ run.n →
      (run.w 1).toNat ≤ (run.w k).toNat ∧ (run.w k).toNat ≤ (run.w run.n).toNat := by
    intro k h1 hn
    constructor
    · rcases h1.eq_or_lt with rfl | h1
      · exact le_rfl
      · have := run.gap_lt le_rfl h1 hn
        omega
    · rcases hn.eq_or_lt with rfl | hn
      · exact le_rfl
      · have := run.gap_lt h1 hn le_rfl
        omega
  have hwi := hfirst i hi.1 hi.2
  have hwj := hfirst j hj.1 hj.2
  rw [wheelCodeTest_iff]
  change ((_ - (run.w i).toNat - _ : ℤ).bmod _).natAbs ≤ _ ↔ _
  rw [bmod_eq_of_modEq hmod, bmod_eq_self (by omega) (by omega), halfLength]
  rcases lt_trichotomy i j with h | rfl | h
  · have := run.gap_lt hi.1 h hj.2
    omega
  · simp only [iff_true]
    omega
  · have := run.gap_lt hj.1 h hi.2
    omega

/-- The counter test accepts the sample of product `j` and no other: the counts do not wrap. -/
lemma countTest_sampleOf {i j : ℕ} (hi : i ≤ run.n) (hj : j ≤ run.n) (res : Vector UInt8 8)
    (al : UInt32) : countTest (UInt32.ofNat j) (run.sampleOf i res al) = true ↔ i = j := by
  have hn := run.n_lt
  simp only [countTest, sampleOf, beq_iff_eq, ← UInt32.toNat_inj, UInt32.toNat_ofNat']
  omega

/-! ### The invariant of a run -/

/-- A sample is the report of product `j` of the run. -/
def Reports (r : SampleResult) (j : ℕ) : Prop :=
  (1 ≤ j ∧ j ≤ run.n) ∧ ∃ res al, r = run.sampleOf j res al

/-- What is true after the events `past`: the list of station 1 holds the reports of the
pending products, in order of arrival, and the counter is the number of triggers. -/
structure Matches (past : List ProductEvent) (s : ArrayState) : Prop where
  pool : PoolInv s.mem []
  count : s.curCountKt1 = UInt32.ofNat (triggers past)
  two : s.mem.list .two = []
  one : List.Forall₂ run.Reports ((s.mem.list .one).map s.mem.sample) (pending past)

lemma reported_nodup {past rest : List ProductEvent} (h : past ++ rest = run.events) :
    (reported past).Nodup := by
  induction past using List.reverseRecOn generalizing rest with
  | nil => simp [reported]
  | append_singleton past ev ih =>
    have hsplit : past ++ ev :: rest = run.events := by simpa using h
    have hpast := ih hsplit
    rw [reported_append]
    cases ev with
    | trigger => simpa [reported] using hpast
    | report j res al =>
      have hj := (run.report_ok past j res al rest (by simpa using h.symm)).2.2.1
      simpa [reported, List.nodup_append] using ⟨hpast, fun a ha hja => hj (hja ▸ ha)⟩

/-- A report that reaches the program leaves the invariant: the pool has a free buffer,
since the pending products are all that is in use. -/
lemma matches_report {past rest : List ProductEvent} {s : ArrayState} {j : ℕ}
    {res : Vector UInt8 8} {al : UInt32} (h : run.Matches past s)
    (hev : past ++ .report j res al :: rest = run.events) :
    ∃ m, writeArray (run.sampleOf j res al) s.mem = some m ∧
      run.Matches (past ++ [.report j res al]) { s with mem := m } := by
  obtain ⟨h1, hn, -, ht⟩ := run.report_ok past j res al rest hev.symm
  have hpend : pending (past ++ [.report j res al]) = pending past ++ [j] := by
    simp [pending, reported_append, triggers_append, reported, triggers, ht]
  have hlen := run.pending_le (past ++ [.report j res al]) ⟨rest, by simpa using hev⟩
  have hpool := h.pool.length_eq
  have hone := h.one.length_eq
  simp only [hpend, List.length_append, List.length_singleton, h.two, List.length_nil,
    List.length_map] at hlen hpool hone
  -- at most 128 products are pending with this one, so a buffer is free
  cases hp : s.mem.sampleBuf.produce with
  | none =>
    rw [BufferFactory.produce_eq_none] at hp
    simp only [hp, List.length_nil] at hpool
    omega
  | some r =>
    obtain ⟨buf, f⟩ := r
    have hinv := h.pool.produce hp
    have hpos : (run.sampleOf j res al).pos = Station.pos .one := rfl
    refine ⟨linkSample (run.sampleOf j res al) buf (s.mem.setBuf f), ?_, ?_, ?_, ?_, ?_⟩
    · simp [writeArray, hp, sampleOf]
    · exact hinv.linkSample hpos
    · simpa [triggers_append, triggers] using h.count
    · rw [linkSample_of_pos hpos, ArrayMem.list_setList_of_ne _ _ (by decide)]
      simpa using h.two
    · rw [hpend, linkSample_of_pos hpos]
      have hold : (s.mem.list .one).map
            (ArrayMem.sample ((((s.mem.setBuf f).setBuf (f.store buf
              { sample := run.sampleOf j res al, buf := buf })).setList .one
              (s.mem.list .one ++ [buf]))))
          = (s.mem.list .one).map s.mem.sample := by
        refine List.map_congr_left fun b hb => ?_
        have hne : b ≠ buf := by
          rintro rfl
          exact (h.pool.not_mem_of_mem_list hb).1
            ((BufferFactory.produce_eq_some.1 hp).1 ▸ List.mem_cons_self)
        simp [ArrayMem.sample, BufferFactory.store_memory_of_ne _ _ hne,
          (BufferFactory.produce_eq_some.1 hp).2]
      have hnew : run.Reports (run.sampleOf j res al) j := ⟨⟨h1, hn⟩, res, al, rfl⟩
      simp only [ArrayMem.list_setList_self, ArrayMem.list_setBuf, ArrayMem.sampleBuf_setBuf,
        List.map_append, List.map_cons, List.map_nil, hold]
      exact List.rel_append h.one (by simpa [ArrayMem.sample] using hnew)

/-- Taking the first record that passes a test which only product `j` passes takes product
`j` out of the pending ones, and fails exactly when it is not pending. -/
lemma forall₂_erase {m : ArrayMem} {test : SampleResult → Bool} {j : ℕ}
    (htest : ∀ r i, run.Reports r i → (test r = true ↔ i = j)) {l : List Buffer} {is : List ℕ}
    (h : List.Forall₂ run.Reports (l.map m.sample) is) :
    (l.find? (fun b => test (m.sample b)) = none → j ∉ is) ∧
      ∀ p, l.find? (fun b => test (m.sample b)) = some p →
        j ∈ is ∧ List.Forall₂ run.Reports ((l.erase p).map m.sample) (is.erase j) := by
  induction l generalizing is with
  | nil =>
    obtain rfl : is = [] := by simpa using h
    simp
  | cons b l ih =>
    obtain ⟨i, is, hb, hl, rfl⟩ : ∃ i is', run.Reports (m.sample b) i ∧
        List.Forall₂ run.Reports (l.map m.sample) is' ∧ is = i :: is' := by
      rcases h with _ | ⟨hb, hl⟩
      exact ⟨_, _, hb, hl, rfl⟩
    obtain ⟨ih1, ih2⟩ := ih hl
    -- the first record with the test is the one of product `j`, if that is here
    by_cases hij : i = j
    · have ht : test (m.sample b) = true := (htest _ _ hb).2 hij
      subst hij
      refine ⟨fun hn => by simp [ht] at hn, fun p hp => ?_⟩
      obtain rfl : b = p := by simpa [ht] using hp
      simpa using hl
    · have ht : test (m.sample b) = false := by
        simpa [hij] using mt (htest _ _ hb).1 hij
      refine ⟨fun hn => ?_, fun p hp => ?_⟩
      · simpa [Ne.symm hij] using ih1 (by simpa [ht] using hn)
      · have hp' : l.find? (fun b => test (m.sample b)) = some p := by simpa [ht] using hp
        obtain ⟨hj, hrest⟩ := ih2 p hp'
        have hne : b ≠ p := by
          rintro rfl
          have := List.find?_some hp'
          simp [ht] at this
        refine ⟨by simp [hj], ?_⟩
        rw [List.erase_cons_tail (by simpa using hne), List.erase_cons_tail (by simpa using hij)]
        exact List.Forall₂.cons hb hrest

/-- The pending products after one more trigger. -/
lemma pending_trigger {past rest : List ProductEvent}
    (hev : past ++ .trigger :: rest = run.events) :
    pending (past ++ [.trigger]) = (pending past).erase (triggers past + 1) := by
  have hnd : (pending past).Nodup := (run.reported_nodup hev).filter _
  rw [hnd.erase_eq_filter]
  simp only [pending, reported_append, triggers_append, reported, triggers, List.append_nil,
    List.filter_filter]
  refine List.filter_congr fun i _ => ?_
  grind

lemma mem_reported_split {es : List ProductEvent} {j : ℕ} (h : j ∈ reported es) :
    ∃ past res al rest, es = past ++ .report j res al :: rest := by
  induction es with
  | nil => simp [reported] at h
  | cons e es ih =>
    cases e with
    | trigger =>
      obtain ⟨past, res, al, rest, rfl⟩ := ih h
      exact ⟨.trigger :: past, res, al, rest, rfl⟩
    | report i res al =>
      rcases List.mem_cons.1 h with rfl | h
      · exact ⟨[], res, al, es, rfl⟩
      · obtain ⟨past, res', al', rest, rfl⟩ := ih h
        exact ⟨.report i res al :: past, res', al', rest, rfl⟩

/-- The product whose trigger comes next is reported in the run just when it is pending: no
report comes after the trigger. -/
lemma mem_reported_iff {past rest : List ProductEvent}
    (hev : past ++ .trigger :: rest = run.events) :
    triggers past + 1 ∈ reported run.events ↔ triggers past + 1 ∈ pending past := by
  rw [← hev, reported_append, List.mem_append, pending, List.mem_filter]
  constructor
  · rintro (h | h)
    · exact ⟨h, by simp⟩
    · obtain ⟨mid, res, al, rest', hrest⟩ := mem_reported_split h
      have hok := run.report_ok (past ++ mid) (triggers past + 1) res al rest'
        (by rw [← hev, hrest, List.append_assoc])
      rw [triggers_append] at hok
      cases mid with
      | nil => simp at hrest
      | cons e mid =>
        obtain ⟨rfl, -⟩ := List.cons.inj hrest
        simp only [triggers] at hok
        omega
  · exact fun h => .inl h.1

/-- A trigger gets its command and leaves the invariant, in either mode. -/
lemma matches_trigger {past rest : List ProductEvent} {s : ArrayState}
    (h : run.Matches past s) (hev : past ++ .trigger :: rest = run.events) (mode : UInt32) :
    let r := trig1SearchTsk { cfg with kickMode := mode } (run.crossing (triggers past + 1)) s
    (r.1.reg, r.1.val) = run.command (triggers past + 1) ∧
      run.Matches (past ++ [.trigger]) r.2 := by
  have hj : triggers past + 1 ≤ run.n := by
    rw [← run.triggers_eq, ← hev, triggers_append]
    simp only [triggers]
    omega
  have hcount : s.curCountKt1 + 1 = UInt32.ofNat (triggers past + 1) := by
    rw [h.count, UInt32.ofNat_add]
    rfl
  -- in either mode the locked part is one search whose test only the next product passes
  obtain ⟨test, htest, hr⟩ : ∃ test, (∀ r i, run.Reports r i →
      (test r = true ↔ i = triggers past + 1)) ∧
      trig1SearchTsk { cfg with kickMode := mode } (run.crossing (triggers past + 1)) s =
        (kickCommand .one (searchLocked test .one s.mem),
          ⟨(kickCommand .one (searchLocked test .one s.mem)).mem, s.curCountKt1 + 1⟩) := by
    by_cases hm : mode = 0
    · refine ⟨countTest (s.curCountKt1 + 1), ?_, by simp [trig1SearchTsk, hm, searchCountArray]⟩
      rintro r i ⟨hi, res, al, rfl⟩
      rw [hcount]
      exact run.countTest_sampleOf hi.2 hj res al
    · refine ⟨wheelCodeTest cfg .one (run.crossing (triggers past + 1)), ?_, ?_⟩
      · rintro r i ⟨hi, res, al, rfl⟩
        exact run.wheelCodeTest_sampleOf hi ⟨by omega, hj⟩ res al
      · simp only [trig1SearchTsk, hm, if_false, searchWheelcodeArray, if_true]
        rfl
  -- found or not, the pending products lose at most the one that is passing
  obtain ⟨hnone, hsome⟩ := run.forall₂_erase htest h.one
  have hpend := run.pending_trigger hev
  have hcnt : s.curCountKt1 + 1 = UInt32.ofNat (triggers (past ++ [.trigger])) := by
    simpa [triggers_append, triggers] using hcount
  simp only [hr]
  cases hs : searchLocked test .one s.mem with
  | mk found m =>
    have hinv := h.pool.search hs
    cases found with
    | none =>
      obtain ⟨hfind, rfl⟩ := searchLocked_none hs
      have hmem : triggers past + 1 ∉ pending past := hnone hfind
      refine ⟨?_, hinv, hcnt, h.two, ?_⟩
      · simp [kickCommand, command, run.mem_reported_iff hev, hmem, Station.comFifoReg]
      · rw [hpend, List.erase_of_not_mem hmem]
        exact h.one
    | some p =>
      obtain ⟨hfind, hm⟩ := searchLocked_some hs
      obtain ⟨hmem, hrest⟩ := hsome p hfind
      refine ⟨?_, hinv, hcnt, ?_, ?_⟩
      · simp [kickCommand, command, run.mem_reported_iff hev, hmem, Station.comFifoReg]
      · change m.list .two = []
        rw [hm, list_recycleRecord, ArrayMem.list_setList_of_ne _ _ (by decide)]
        exact h.two
      · change List.Forall₂ run.Reports ((m.list .one).map m.sample) _
        rw [hpend, hm, list_recycleRecord, ArrayMem.list_setList_self]
        have hsame : (recycleRecord (s.mem.setList .one ((s.mem.list .one).erase p))
            (s.mem.sampleBuf.memory p)).sample = s.mem.sample := by
          funext b
          simp [ArrayMem.sample]
        rw [hsame]
        exact hrest

/-- From a state that matches the events so far, the rest of the run goes through and gives
each remaining trigger its command. -/
lemma runArray_rest {past rest : List ProductEvent} {s : ArrayState} (h : run.Matches past s)
    (hev : past ++ rest = run.events) (mode : UInt32) :
    ∃ s', runArray { cfg with kickMode := mode } s (run.arrayEvents (triggers past) rest) =
      some ((List.range' (triggers past + 1) (triggers rest)).map run.command, s') := by
  induction rest generalizing past s with
  | nil => exact ⟨s, rfl⟩
  | cons ev rest ih =>
    cases ev with
    | report j res al =>
      obtain ⟨m, hw, hm⟩ := run.matches_report h hev
      obtain ⟨s', hs'⟩ := ih hm (by simpa using hev)
      refine ⟨s', ?_⟩
      simpa [arrayEvents, runArray, hw, triggers_append, triggers] using hs'
    | trigger =>
      obtain ⟨hcmd, hm⟩ := run.matches_trigger h hev mode
      obtain ⟨s', hs'⟩ := ih hm (by simpa using hev)
      refine ⟨s', ?_⟩
      simp only [triggers_append, triggers, Nat.zero_add] at hs'
      simp only [arrayEvents, runArray, triggers, List.range'_succ, List.map_cons, hs',
        Option.map_some, hcmd]

/-- A reset leaves both lists empty and the counter at zero. -/
lemma matches_reset {s : ArrayState} (h : PoolInv s.mem []) : run.Matches [] (resetSamples s) where
  pool := h.clearArray
  count := rfl
  two := list_clearArray h .two
  one := by simp [resetSamples, list_clearArray h, pending, reported]

/-- **Both modes of station 1 are right.**  After a reset, a production run gives the same
commands in counting mode and in wheel code mode: product `j` is ejected exactly when it was
reported. -/
theorem kick_modes_agree (s : ArrayState) (h : PoolInv s.mem []) :
    ∃ commands : List (ℕ × UInt16),
      commands.length = run.n ∧
      (∀ j, 1 ≤ j → j ≤ run.n → commands[j - 1]? =
        some (fpgaCom1FifoReg, if j ∈ reported run.events then 1 else 0)) ∧
      ∀ mode : UInt32, ∃ s',
        runArray { cfg with kickMode := mode } (resetSamples s)
          (run.arrayEvents 0 run.events) = some (commands, s') := by
  refine ⟨(List.range' 1 run.n).map run.command, by simp, fun j h1 hn => ?_, fun mode => ?_⟩
  · have hlt : j - 1 < run.n := by omega
    have hj : 1 + (j - 1) = j := by omega
    simp [hlt, hj, command]
  · have := run.runArray_rest (run.matches_reset h) (List.nil_append _) mode
    simpa [triggers, run.triggers_eq] using this

end ProductionRun

/-- Two products under the default configuration, of which the second is reported. -/
def twoProducts : ProductionRun SysConfig.default where
  n := 2
  n_lt := by norm_num
  w := fun j => if j = 1 then 5000 else 7000
  gap := by
    intro j h1 hn
    obtain rfl : j = 1 := by omega
    decide
  span := by decide
  e := fun j => if j = 1 then -500 else 500
  e_le := by
    intro j h1 hn
    obtain rfl | rfl : j = 1 ∨ j = 2 := by omega
    · decide
    · decide
  events := [.trigger, .report 2 (Vector.replicate 8 0) 0, .trigger]
  triggers_eq := rfl
  report_ok := by
    intro past j res al rest h
    rcases past with _ | ⟨a, _ | ⟨b, _ | ⟨c, past⟩⟩⟩
    · simp at h
    · simp only [List.cons_append, List.nil_append, List.cons.injEq,
        ProductEvent.report.injEq] at h
      obtain ⟨rfl, ⟨rfl, -, -⟩, -⟩ := h
      simp [reported, triggers]
    · simp at h
    · simp at h
  pending_le := by
    intro past h
    have hlen : (pending past).length ≤ past.length := by
      refine (List.length_filter_le _ _).trans ?_
      clear h
      induction past with
      | nil => simp [reported]
      | cons e past ih => cases e <;> simp [reported] <;> omega
    have := h.length_le
    simp only [List.length_cons, List.length_nil] at this
    omega

/-- In both modes the first of the two products passes and the second is ejected. -/
theorem kick_modes_agree_twoProducts :
    ∃ commands : List (ℕ × UInt16),
      commands.length = 2 ∧
      (∀ j, 1 ≤ j → j ≤ 2 → commands[j - 1]? =
        some (fpgaCom1FifoReg, if j ∈ [2] then 1 else 0)) ∧
      ∀ mode : UInt32, ∃ s',
        runArray { SysConfig.default with kickMode := mode }
          (resetSamples ⟨arrayBufInit zeroMemory, 7⟩)
          (twoProducts.arrayEvents 0 twoProducts.events) = some (commands, s') :=
  twoProducts.kick_modes_agree ⟨arrayBufInit zeroMemory, 7⟩ (PoolInv.init zeroMemory)

end RejectProcess
