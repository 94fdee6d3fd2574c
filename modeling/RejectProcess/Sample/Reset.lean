import RejectProcess.Sample.Ejection

/-!
# Resets against triggers

`recv_reset_cmd` zeroes the trigger counter, clears the lists, posts its reply and returns.
Nothing keeps the interrupt task from posting, or the search task from counting, in between:
`g_sys_reset_flag` is raised and lowered around the reset, but nobody reads it.  A reset that
no trigger overlaps is one atomic event; a trigger that overlaps one shifts the count of every
later trigger.
-/

namespace RejectProcess

open Lib

/-- Has the receive task zeroed the counter in a reset that has not returned? -/
def RecvPc.zeroed : RecvPc → Bool
  | .clear1 => true
  | .clear2 => true
  | .reply => true
  | .finish => true
  | _ => false

/-- The counter resets after which list 1 has not been cleared yet: none, or the last one. -/
def RecvPc.beforeClear : RecvPc → ℕ
  | .clear1 => 1
  | _ => 0

/-- The turn of the trigger that a search task has taken and not yet counted. -/
def TrigPc.uncounted : TrigPc → List ℕ
  | .pended k => [k.turn]
  | .counting k _ => [k.turn]
  | _ => []

/-- The number of resets that had returned when the trigger was posted that a search task has
just counted; 0 where it has just counted none. -/
def TrigPc.countedAfter : TrigPc → ℕ
  | .counted k => k.returned
  | _ => 0

/-- Is the search task inside, or right after, `cur_count_kt1++`? -/
def TrigPc.counts : TrigPc → Bool
  | .counting _ _ => true
  | .counted _ => true
  | _ => false

/-- What a search task in this place looks for, or has looked for. -/
def TrigPc.query : TrigPc → Option Query
  | .searching _ q _ => some q
  | .searched r => some r.query
  | _ => none

namespace Sys

/-- What the property of resets needs: a search in counting mode for a trigger posted after a
reset has returned looks for the turn of that trigger, and no search takes a sample accepted
before a counter reset that preceded the assignment of the counter value it uses. -/
def SearchFresh (accepted : List Accepted) (r : Search) : Prop :=
  ∀ c, r.query = .count c →
    (0 < r.kick.returned → c = UInt32.ofNat r.kick.turn) ∧
    ∀ i, r.found = some i → ∃ a, accepted[i]? = some a ∧ r.era ≤ a.era

/-- The search that task 1 has just made, if any, is fresh. -/
def ResetAtomic (s : Sys) : Prop :=
  ∀ r, s.trig .one = .searched r → SearchFresh s.hist.accepted r

/-- In counting mode, no kick 1 trigger overlaps a reset.  When the counter is zeroed, none
waits, none is being counted and none that was posted after an earlier reset is about to use
the counter; and none is posted from then until the reset returns. -/
def ResetAlone (cfg : SysConfig) (s : Sys) : Label → Prop
  | .recv => cfg.kickMode = 0 → s.recv = .zero →
      s.mbx .one = [] ∧ (s.trig .one).uncounted = [] ∧ (s.trig .one).countedAfter = 0
  | .kick .one _ => cfg.kickMode = 0 → s.recv.zeroed = false
  | _ => True

instance (cfg : SysConfig) (s : Sys) : ∀ l, Decidable (ResetAlone cfg s l)
  | .recv => inferInstanceAs (Decidable (_ → _ → _ ∧ _ ∧ _))
  | .kick .one _ => inferInstanceAs (Decidable (_ → _))
  | .kick .two _ => isTrue trivial
  | .sample _ => isTrue trivial
  | .reset => isTrue trivial
  | .trig _ => isTrue trivial

/-! ## The part of the state that counting depends on -/

/-- The counter, the triggers of station 1 on their way to it, and the samples of list 1. -/
structure CountView where
  cur : UInt32
  zeroed : Bool
  floor : ℕ
  waiting : List Kick
  trig : TrigPc
  sinceReturn : ℕ
  era : ℕ
  resets : ℕ
  accepted : List Accepted
  listed : List ℕ

/-- The view of a state.  Its `floor` is the number of counter resets that the samples in list
1 are known to have followed: the last one counts once the list has been cleared. -/
def countView (s : Sys) : CountView where
  cur := s.curCountKt1
  zeroed := s.recv.zeroed
  floor := s.hist.zeroed - s.recv.beforeClear
  waiting := s.mbx .one
  trig := s.trig .one
  sinceReturn := s.hist.sinceReturn
  era := s.hist.era
  resets := s.hist.zeroed
  accepted := s.hist.accepted
  listed := s.listed .one

/-- The invariant of counting.  `done` triggers have been counted since the last return. -/
structure Counting (v : CountView) : Prop where
  turns : v.zeroed = false → ∃ done, v.cur = UInt32.ofNat done ∧
    v.trig.uncounted ++ v.waiting.map Kick.turn =
      List.range' (done + 1) (v.trig.uncounted.length + v.waiting.length) ∧
    v.sinceReturn = done + (v.trig.uncounted.length + v.waiting.length)
  alone : v.zeroed = true → v.cur = 0 ∧ v.trig.uncounted = [] ∧ v.waiting = []
  read : ∀ k cur, v.trig = .counting k cur → cur = v.cur
  counted : ∀ k, v.trig = .counted k → 0 < k.returned → v.cur = UInt32.ofNat k.turn
  searching : ∀ k c era, v.trig = .searching k (.count c) era →
    (0 < k.returned → c = UInt32.ofNat k.turn) ∧ era ≤ v.floor
  searched : ∀ r, v.trig = .searched r → SearchFresh v.accepted r
  era : v.era ≤ v.floor
  floor : v.floor ≤ v.resets
  outside : v.zeroed = false → v.floor = v.resets
  listed : ∀ i ∈ v.listed, ∃ a, v.accepted[i]? = some a ∧ v.floor ≤ a.era

/-- Station 2 does not count. -/
def OnlyOneCounts (s : Sys) : Prop := (s.trig .two).counts = false

variable {cfg : SysConfig} {s s' : Sys} {l : Label}

lemma counting_init (memory : Buffer → SampleArray) :
    Counting (init memory).countView where
  turns := by
    intro _
    exact ⟨0, rfl, rfl, rfl⟩
  alone := by
    intro h
    simp [countView, init, RecvPc.zeroed] at h
  read := by simp [countView, init]
  counted := by simp [countView, init]
  searching := by simp [countView, init]
  searched := by simp [countView, init]
  era := Nat.zero_le _
  floor := by simp [countView, init, RecvPc.beforeClear]
  outside := by simp [countView, init, RecvPc.beforeClear]
  listed := by simp [countView, listed, init, arrayBufInit, ArrayMem.list]

lemma onlyOneCounts_step (h : OnlyOneCounts s) (hs : Step cfg s l s') : OnlyOneCounts s' := by
  have hmove : ∀ n pc, pc.counts = false → ((s.setTrig n pc).trig .two).counts = false := by
    intro n pc hpc
    by_cases hn : Station.two = n
    · subst hn
      simpa using hpc
    · rw [setTrig_trig_of_ne _ hn]
      exact h
  unfold OnlyOneCounts at h ⊢
  cases hs with
  | pend n k rest hpc hm => exact hmove n _ rfl
  | readCount k hpc => simpa [setTrig] using h
  | call2 k hpc => exact hmove .two _ rfl
  | countUp n k cur hpc =>
    cases n with
    | one => simpa [countUp, setTrig] using h
    | two => simp [hpc, TrigPc.counts] at h
  | callCount n k hpc hm => exact hmove n _ rfl
  | callWheelCode n k hpc hm => exact hmove n _ rfl
  | search n k q era hpc => exact hmove n _ rfl
  | command n r hpc => exact hmove n _ rfl
  | done n k hpc => exact hmove n _ rfl
  | _ => exact h

/-! ## What a step does to the view -/

namespace Counting

variable {v : CountView}

/-- A trigger is posted. -/
lemma post (h : Counting v) (hz : v.zeroed = false) {k : Kick} (hk : k.turn = v.sinceReturn + 1) :
    Counting { v with waiting := v.waiting ++ [k], sinceReturn := v.sinceReturn + 1 } where
  turns := by
    intro _
    obtain ⟨done, hcur, hturns, hsince⟩ := h.turns hz
    refine ⟨done, hcur, ?_, ?_⟩
    · show v.trig.uncounted ++ (v.waiting ++ [k]).map Kick.turn =
        List.range' (done + 1) (v.trig.uncounted.length + (v.waiting ++ [k]).length)
      rw [List.map_append, ← List.append_assoc, hturns, List.length_append, List.length_singleton,
        ← Nat.add_assoc, List.range'_concat, List.map_singleton, hk, hsince]
      congr 2
      omega
    · show v.sinceReturn + 1 = done + (v.trig.uncounted.length + (v.waiting ++ [k]).length)
      rw [hsince, List.length_append, List.length_singleton, Nat.add_assoc, Nat.add_assoc]
  alone := by
    intro hz'
    simp [hz] at hz'
  read := h.read
  counted := h.counted
  searching := h.searching
  searched := h.searched
  era := h.era
  floor := h.floor
  outside := h.outside
  listed := h.listed

/-- A trigger is taken from the mailbox. -/
lemma pend (h : Counting v) (hpc : v.trig = .idle) {k : Kick} {rest : List Kick}
    (hm : v.waiting = k :: rest) : Counting { v with waiting := rest, trig := .pended k } where
  turns := by
    intro hz
    obtain ⟨done, hcur, hturns, hsince⟩ := h.turns hz
    refine ⟨done, hcur, ?_, ?_⟩
    · simpa [hpc, hm, TrigPc.uncounted, Nat.add_comm] using hturns
    · simp only [hpc, hm, TrigPc.uncounted, List.length_nil, List.length_cons] at hsince
      simp only [TrigPc.uncounted, List.length_singleton]
      omega
  alone := by
    intro hz
    exact absurd (h.alone hz).2.2 (by simp [hm])
  read := by simp
  counted := by simp
  searching := by simp
  searched := by simp
  era := h.era
  floor := h.floor
  outside := h.outside
  listed := h.listed

/-- `cur_count_kt1++` reads the counter. -/
lemma readCount (h : Counting v) {k : Kick} (hpc : v.trig = .pended k) :
    Counting { v with trig := .counting k v.cur } where
  turns := by
    intro hz
    simpa [hpc, TrigPc.uncounted] using h.turns hz
  alone := by
    intro hz
    simpa [hpc, TrigPc.uncounted] using h.alone hz
  read := by
    intro k' cur hk
    simp only [TrigPc.counting.injEq] at hk
    exact hk.2.symm
  counted := by simp
  searching := by simp
  searched := by simp
  era := h.era
  floor := h.floor
  outside := h.outside
  listed := h.listed

/-- `cur_count_kt1++` writes the counter back. -/
lemma countUp (h : Counting v) {k : Kick} {cur : UInt32} (hpc : v.trig = .counting k cur) :
    Counting { v with cur := cur + 1, trig := .counted k, era := v.resets } := by
  -- a trigger is being counted, so no reset is between its zeroing and its return
  have hz : v.zeroed = false := by
    by_contra hz
    have := (h.alone (by simpa using hz)).2.1
    simp [hpc, TrigPc.uncounted] at this
  obtain ⟨done, hcur, hturns, hsince⟩ := h.turns hz
  rw [hpc] at hturns hsince
  simp only [TrigPc.uncounted, List.singleton_append, List.length_singleton] at hturns hsince
  rw [Nat.add_comm 1, List.range'_succ, List.cons.injEq] at hturns
  -- the value read is still the value of the counter, so the trigger gets its own turn
  have hnext : cur + 1 = UInt32.ofNat (done + 1) := by
    rw [h.read k cur hpc, hcur, UInt32.ofNat_add]
    rfl
  refine ⟨?_, ?_, by simp, ?_, by simp, by simp, (h.outside hz).ge, h.floor, h.outside, h.listed⟩
  · intro _
    refine ⟨done + 1, hnext, ?_, ?_⟩
    · simpa [TrigPc.uncounted] using hturns.2
    · simp only [TrigPc.uncounted, List.length_nil]
      omega
  · intro hz'
    simp [hz] at hz'
  · intro k' hk _
    obtain rfl : k = k' := by simpa using hk
    show cur + 1 = _
    rw [hnext, hturns.1]

/-- The search task moves on after counting: to its search, or to its end. -/
lemma move (h : Counting v) {pc : TrigPc} (hold : v.trig.uncounted = []) (hnew : pc.uncounted = [])
    (hcounts : pc.counts = false)
    (hsearching : ∀ k c era, pc = .searching k (.count c) era →
      (0 < k.returned → c = UInt32.ofNat k.turn) ∧ era ≤ v.floor)
    (hsearched : ∀ r, pc = .searched r → SearchFresh v.accepted r) :
    Counting { v with trig := pc } where
  turns := by
    intro hz
    simpa [hold, hnew] using h.turns hz
  alone := by
    intro hz
    simpa [hold, hnew] using h.alone hz
  read := by
    rintro k cur rfl
    simp [TrigPc.counts] at hcounts
  counted := by
    rintro k rfl
    simp [TrigPc.counts] at hcounts
  searching := hsearching
  searched := hsearched
  era := h.era
  floor := h.floor
  outside := h.outside
  listed := h.listed

/-- A sample leaves list 1. -/
lemma unlist (h : Counting v) {listed : List ℕ} (hlisted : ∀ i ∈ listed, i ∈ v.listed) :
    Counting { v with listed := listed } where
  turns := h.turns
  alone := h.alone
  read := h.read
  counted := h.counted
  searching := h.searching
  searched := h.searched
  era := h.era
  floor := h.floor
  outside := h.outside
  listed := fun i hi => h.listed i (hlisted i hi)

/-- A sample is accepted, into list 1 or elsewhere. -/
lemma accept (h : Counting v) {a : Accepted} (ha : a.era = v.resets) {listed : List ℕ}
    (hlisted : ∀ i ∈ listed, i ∈ v.listed ∨ i = v.accepted.length) :
    Counting { v with accepted := v.accepted ++ [a], listed := listed } := by
  have hkeep : ∀ (i : ℕ) (b : Accepted), v.accepted[i]? = some b →
      (v.accepted ++ [a])[i]? = some b := by
    intro i b hb
    rw [List.getElem?_append_left (List.getElem?_eq_some_iff.1 hb).1, hb]
  refine ⟨h.turns, h.alone, h.read, h.counted, h.searching, ?_, h.era, h.floor, h.outside, ?_⟩
  · intro r hr c hc
    obtain ⟨hturn, hfound⟩ := h.searched r hr c hc
    refine ⟨hturn, fun i hi => ?_⟩
    obtain ⟨b, hb, hera⟩ := hfound i hi
    exact ⟨b, hkeep i b hb, hera⟩
  · intro i hi
    rcases hlisted i hi with hi | rfl
    · obtain ⟨b, hb, hera⟩ := h.listed i hi
      exact ⟨b, hkeep i b hb, hera⟩
    · exact ⟨a, by simp, by rw [ha]; exact h.floor⟩

/-- The counter is zeroed while no trigger is on its way to it. -/
lemma zero (h : Counting v) (hz : v.zeroed = false) (hw : v.waiting = [])
    (hu : v.trig.uncounted = []) (hc : v.trig.countedAfter = 0) :
    Counting { v with cur := 0, zeroed := true, era := v.resets, resets := v.resets + 1 } where
  turns := by simp
  alone := fun _ => ⟨rfl, hu, hw⟩
  read := by
    intro k cur hk
    simp [show v.trig = _ from hk, TrigPc.uncounted] at hu
  counted := by
    intro k hk hpos
    rw [show v.trig = _ from hk] at hc
    exact absurd hc hpos.ne'
  searching := h.searching
  searched := h.searched
  era := (h.outside hz).ge
  floor := h.floor.trans (Nat.le_succ _)
  outside := by simp
  listed := h.listed

/-- List 1 is cleared: from here on its samples follow the reset. -/
lemma clear (h : Counting v) (hz : v.zeroed = true) :
    Counting { v with floor := v.resets, listed := [] } where
  turns := h.turns
  alone := h.alone
  read := h.read
  counted := h.counted
  searching := by
    intro k c era hk
    obtain ⟨hturn, hera⟩ := h.searching k c era hk
    exact ⟨hturn, hera.trans h.floor⟩
  searched := h.searched
  era := h.era.trans h.floor
  floor := Nat.le_refl _
  outside := by
    intro hz'
    simp [hz] at hz'
  listed := by simp

/-- The reset returns: the turns start again. -/
lemma finish (h : Counting v) (hz : v.zeroed = true) (hf : v.floor = v.resets) :
    Counting { v with zeroed := false, sinceReturn := 0 } where
  turns := by
    intro _
    obtain ⟨hcur, hu, hw⟩ := h.alone hz
    exact ⟨0, hcur, by simp [hu, hw], by simp [hu, hw]⟩
  alone := by simp
  read := h.read
  counted := h.counted
  searching := h.searching
  searched := h.searched
  era := h.era
  floor := h.floor
  outside := fun _ => hf
  listed := h.listed

end Counting

/-! ## Runs in which no trigger overlaps a reset -/

/-! ### The view after each step -/

lemma countView_setTrig_one (pc : TrigPc) :
    (s.setTrig .one pc).countView = { s.countView with trig := pc } := by
  simp [countView, setTrig, listed]

lemma countView_setTrig_two (pc : TrigPc) : (s.setTrig .two pc).countView = s.countView := by
  simp [countView, setTrig, listed]

/-- The receive task goes on, not yet or no longer in the zeroed part of a reset. -/
lemma countView_setRecv {pc : RecvPc} (hz : pc.zeroed = s.recv.zeroed)
    (hb : pc.beforeClear = s.recv.beforeClear) (flag : UInt32) :
    countView { s with gSysResetFlag := flag, recv := pc } = s.countView := by
  simp [countView, hz, hb, listed]

lemma countView_produced {r : SampleResult} {buf : Buffer} {f : BufferFactory SampleArray}
    (hr : s.recv = .produce r) : (s.produced r buf f).countView = s.countView := by
  simp [countView, produced, hr, RecvPc.zeroed, RecvPc.beforeClear, listed]

lemma countView_link {r : SampleResult} {buf : Buffer} (hr : s.recv = .link r buf) :
    (s.link r buf).countView =
      { s.countView with
        accepted := s.hist.accepted ++ [{ sample := r, era := s.hist.zeroed }]
        listed := (s.link r buf).listed .one } := by
  simp [countView, Sys.link, hr, RecvPc.zeroed, RecvPc.beforeClear]

lemma countView_zeroCount (hr : s.recv = .zero) :
    s.zeroCount.countView =
      { s.countView with
        cur := 0, zeroed := true, era := s.hist.zeroed, resets := s.hist.zeroed + 1 } := by
  simp [countView, zeroCount, hr, RecvPc.zeroed, RecvPc.beforeClear, listed]

lemma countView_clear_one (hl : Ledger s) (hr : s.recv = .clear1) :
    (s.clear .one .clear2).countView =
      { s.countView with floor := s.hist.zeroed, listed := [] } := by
  have hlist := hl.listed_clear .one .one .clear2
  simp only [countView, hlist]
  simp [clear, hr, RecvPc.zeroed, RecvPc.beforeClear]

lemma countView_clear_two (hl : Ledger s) (hr : s.recv = .clear2) :
    (s.clear .two .reply).countView = s.countView := by
  have hlist := hl.listed_clear .two .one .reply
  simp only [countView, hlist]
  simp [clear, hr, RecvPc.zeroed, RecvPc.beforeClear]

lemma countView_finishReset (hr : s.recv = .finish) :
    s.finishReset.countView = { s.countView with zeroed := false, sinceReturn := 0 } := by
  simp [countView, finishReset, hr, RecvPc.zeroed, RecvPc.beforeClear, listed]

lemma countView_post_two (code : UInt64) : (s.post .two code).countView = s.countView := by
  simp [countView, post, listed]

lemma countView_pend_one (k : Kick) (rest : List Kick) :
    (s.pend .one k rest).countView =
      { s.countView with waiting := rest, trig := .pended k } := by
  simp [countView, pend, setTrig, listed]

lemma countView_pend_two (k : Kick) (rest : List Kick) :
    (s.pend .two k rest).countView = s.countView := by
  simp [countView, pend, setTrig, listed]

lemma countView_countUp_one (k : Kick) (cur : UInt32) :
    (s.countUp .one k cur).countView =
      { s.countView with cur := cur + 1, trig := .counted k, era := s.hist.zeroed } := by
  simp [countView, countUp, setTrig, listed]

lemma countView_search_one (k : Kick) (q : Query) (era : ℕ) :
    (s.search cfg .one k q era).countView =
      { s.countView with
        listed := (s.search cfg .one k q era).listed .one
        trig := .searched
          { kick := k, query := q, era := era, listed := s.listed .one,
            cleared := s.hist.cleared .one,
            found := (searchLocked (q.test cfg .one) .one s.mem).1.map s.hist.number } } := by
  simp [countView, search, setTrig, listed]

lemma countView_search_two (k : Kick) (q : Query) (era : ℕ) :
    (s.search cfg .two k q era).countView = s.countView := by
  have hlist : (s.search cfg .two k q era).listed .one = s.listed .one := by
    rw [listed, listed]
    exact congrArg _ ((listed_search cfg s .two q).1 .one (by simp))
  simp only [countView, hlist]
  simp [search, setTrig]

lemma countView_command_one (r : Search) :
    (s.command .one r).countView = { s.countView with trig := .written r.kick } := by
  simp [countView, command, setTrig, listed]

lemma countView_command_two (r : Search) : (s.command .two r).countView = s.countView := by
  simp [countView, command, setTrig, listed]

/-- The locked region of a search by count: what it takes was listed, and every listed sample
follows the floor. -/
lemma counting_search (h : Counting s.countView) {k : Kick} {q : Query} {era : ℕ}
    (hpc : s.trig .one = .searching k q era) : Counting (s.search cfg .one k q era).countView := by
  have hthis := (listed_search cfg s .one q).2
  have hsub : ∀ i ∈ (s.search cfg .one k q era).listed .one, i ∈ s.listed .one := by
    intro i hi
    exact hthis.mem_iff.2 (List.mem_append_right _ hi)
  rw [countView_search_one]
  refine (h.unlist hsub).move (by simp [countView, hpc, TrigPc.uncounted]) rfl rfl (by simp) ?_
  intro r hr c hc
  obtain rfl : _ = r := by simpa using hr
  obtain rfl : q = .count c := hc
  obtain ⟨hturn, hera⟩ := h.searching k c era hpc
  refine ⟨hturn, ?_⟩
  intro i hi
  have hmem : i ∈ s.listed .one := by
    refine hthis.mem_iff.2 (List.mem_append_left _ ?_)
    simpa using hi
  obtain ⟨a, ha, hfloor⟩ := h.listed i hmem
  exact ⟨a, ha, hera.trans hfloor⟩

/-- A sample is linked. -/
lemma counting_link (hl : Ledger s) (h : Counting s.countView) {r : SampleResult} {buf : Buffer}
    (hr : s.recv = .link r buf) : Counting (s.link r buf).countView := by
  rw [countView_link hr]
  refine h.accept rfl ?_
  intro i hi
  rw [listed_link (hl.hand_not_mem hr), List.mem_append] at hi
  rcases hi with hi | hi
  · exact .inl hi
  · split at hi
    · exact .inr (List.mem_singleton.1 hi)
    · simp at hi

/-- A step in counting mode that no reset overlaps keeps the invariant. -/
lemma counting_step (hl : Ledger s) (htwo : OnlyOneCounts s) (h : Counting s.countView)
    (hmode : cfg.kickMode = 0) (hok : ResetAlone cfg s l) (hs : Step cfg s l s') :
    Counting s'.countView := by
  have keep : s'.countView = s.countView → Counting s'.countView := fun hv => hv ▸ h
  cases hs with
  | skip r hr hp => exact h
  | sample r hr hp => exact keep (countView_setRecv (by rw [hr]; rfl) (by rw [hr]; rfl) _)
  | reset hr => exact keep (countView_setRecv (by rw [hr]; rfl) (by rw [hr]; rfl) _)
  | crash r hr hp => exact h
  | produce r buf f hr hp => exact keep (countView_produced hr)
  | link r buf hr => exact counting_link hl h hr
  | zero hr =>
    -- the condition on the run is used here and where a trigger is posted
    obtain ⟨hw, hu, hc⟩ := hok hmode hr
    rw [countView_zeroCount hr]
    exact h.zero (by simp [countView, hr, RecvPc.zeroed]) hw hu hc
  | clear1 hr =>
    rw [countView_clear_one hl hr]
    exact h.clear (by simp [countView, hr, RecvPc.zeroed])
  | clear2 hr => exact keep (countView_clear_two hl hr)
  | reply hr => exact keep (countView_setRecv (by rw [hr]; rfl) (by rw [hr]; rfl) _)
  | finish hr =>
    rw [countView_finishReset hr]
    refine h.finish ?_ ?_
    · simp [countView, hr, RecvPc.zeroed]
    · simp [countView, hr, RecvPc.beforeClear]
  | kick n code =>
    cases n with
    | one => exact h.post (hok hmode) rfl
    | two => exact keep (countView_post_two code)
  | pend n k rest hpc hm =>
    cases n with
    | one =>
      rw [countView_pend_one]
      exact h.pend hpc hm
    | two => exact keep (countView_pend_two k rest)
  | readCount k hpc =>
    rw [countView_setTrig_one]
    exact h.readCount hpc
  | call2 k hpc => exact keep (countView_setTrig_two _)
  | countUp n k cur hpc =>
    cases n with
    | one =>
      rw [countView_countUp_one]
      exact h.countUp hpc
    | two => simp [OnlyOneCounts, hpc, TrigPc.counts] at htwo
  | callCount n k hpc hm =>
    cases n with
    | one =>
      rw [countView_setTrig_one]
      refine h.move (by simp [countView, hpc, TrigPc.uncounted]) rfl rfl ?_ (by simp)
      intro k' c era hk
      simp only [TrigPc.searching.injEq, Query.count.injEq] at hk
      obtain ⟨rfl, rfl, rfl⟩ := hk
      exact ⟨h.counted k hpc, h.era⟩
    | two => simp [OnlyOneCounts, hpc, TrigPc.counts] at htwo
  | callWheelCode n k hpc hm => exact absurd hmode hm
  | search n k q era hpc =>
    cases n with
    | one => exact counting_search h hpc
    | two => exact keep (countView_search_two k q era)
  | command n r hpc =>
    cases n with
    | one =>
      rw [countView_command_one]
      exact h.move (by simp [countView, hpc, TrigPc.uncounted]) rfl rfl (by simp) (by simp)
    | two => exact keep (countView_command_two r)
  | done n k hpc =>
    cases n with
    | one =>
      rw [countView_setTrig_one]
      exact h.move (by simp [countView, hpc, TrigPc.uncounted]) rfl rfl (by simp) (by simp)
    | two => exact keep (countView_setTrig_two _)

/-- Outside counting mode no search is made by count. -/
lemma noCount_step (hmode : cfg.kickMode ≠ 0) (h : ∀ n c, (s.trig n).query ≠ some (.count c))
    (hs : Step cfg s l s') : ∀ n c, (s'.trig n).query ≠ some (.count c) := by
  have hmove : ∀ n pc, (∀ c, pc.query ≠ some (.count c)) →
      ∀ n' c, ((s.setTrig n pc).trig n').query ≠ some (.count c) := by
    intro n pc hpc n' c
    by_cases hn : n' = n
    · subst hn
      simpa using hpc c
    · rw [setTrig_trig_of_ne _ hn]
      exact h n' c
  cases hs with
  | pend n k rest hpc hm => exact hmove n _ (by simp [TrigPc.query])
  | readCount k hpc => exact hmove .one _ (by simp [TrigPc.query])
  | call2 k hpc => exact hmove .two _ (by simp [TrigPc.query])
  | countUp n k cur hpc => exact hmove n _ (by simp [TrigPc.query])
  | callCount n k hpc hm => exact absurd hm hmode
  | callWheelCode n k hpc hm => exact hmove n _ (by simp [TrigPc.query])
  | search n k q era hpc =>
    refine hmove n _ fun c => ?_
    have := h n c
    simpa [hpc, TrigPc.query] using this
  | command n r hpc => exact hmove n _ (by simp [TrigPc.query])
  | done n k hpc => exact hmove n _ (by simp [TrigPc.query])
  | _ => exact h

lemma counting_reach {memory : Buffer → SampleArray} (hmode : cfg.kickMode = 0)
    (h : Reach (step cfg) (ResetAlone cfg) (init memory) s) : Counting s.countView := by
  have hinv : Ledger s ∧ OnlyOneCounts s ∧ Counting s.countView := by
    refine h.invariant (I := fun s => Ledger s ∧ OnlyOneCounts s ∧ Counting s.countView)
      ⟨ledger_init memory, rfl, counting_init memory⟩ ?_
    rintro s a s' ⟨hl, htwo, hc⟩ hok hs
    have hs := step_inv hs
    exact ⟨ledger_step hl hs, onlyOneCounts_step htwo hs, counting_step hl htwo hc hmode hok hs⟩
  exact hinv.2.2

/-- **A reset is one event.**  In every run in which no kick 1 trigger overlaps a reset, the
`k`-th trigger posted after a reset has returned is searched with count `k`, and no sample
accepted before the reset is taken by a search that counts from it. -/
theorem reset_atomic {memory : Buffer → SampleArray}
    (h : Reach (step cfg) (ResetAlone cfg) (init memory) s) : s.ResetAtomic := by
  intro r hr
  by_cases hmode : cfg.kickMode = 0
  · exact (counting_reach hmode h).searched r hr
  · have hno : ∀ n c, (s.trig n).query ≠ some (.count c) :=
      h.invariant (I := fun s => ∀ n c, (s.trig n).query ≠ some (.count c))
        (by simp [init, TrigPc.query]) fun _ _ _ hi _ hs => noCount_step hmode hi (step_inv hs)
    intro c hc
    exact absurd (by rw [hr, TrigPc.query, hc]) (hno .one c)

/-- A reset with nothing around it, then a trigger, up to its search. -/
def resetThenKick : List Label :=
  .reset :: List.replicate 5 .recv ++ [.kick .one 0] ++ List.replicate 5 (.trig .one)

/-- The same with one more trigger, posted before the reset and taken up after it. -/
def kickThenReset : List Label := .kick .one 0 :: resetThenKick ++ List.replicate 7 (.trig .one)

/-- The state after a list of labels in counting mode. -/
def afterLabels (labels : List Label) : Sys :=
  (exec (step SysConfig.default) (init zeroMemory) labels).getD (init zeroMemory)

/-- A trigger that waits in the mailbox during a reset is counted after it, and the first
trigger posted after the reset has returned is searched with count 2. -/
theorem waiting_trigger_shifts_counts :
    ¬ ∀ (cfg : SysConfig) (memory : Buffer → SampleArray) (s : Sys),
      Reach (step cfg) AnyStep (init memory) s → s.ResetAtomic := by
  intro h
  have hreach : Reach (step SysConfig.default) AnyStep (init zeroMemory)
      (afterLabels kickThenReset) := reach_any kickThenReset rfl
  obtain ⟨r, hr, hq, hpos, hturn⟩ : ∃ r, (afterLabels kickThenReset).trig .one = .searched r ∧
      r.query = .count 2 ∧ 0 < r.kick.returned ∧ r.kick.turn = 1 :=
    ⟨_, rfl, rfl, by decide +kernel, by decide +kernel⟩
  have hcount := (h _ _ _ hreach r hr 2 hq).1 hpos
  rw [hturn] at hcount
  exact absurd hcount (by decide)

/-- The trigger after a reset that it does not overlap is searched with count 1. -/
theorem reset_atomic_resetThenKick : (afterLabels resetThenKick).ResetAtomic :=
  reset_atomic <| show Reach (step SysConfig.default) (ResetAlone SysConfig.default)
      (init zeroMemory) _ from
    reach_of_exec resetThenKick (by decide +kernel) rfl

end Sys

end RejectProcess
