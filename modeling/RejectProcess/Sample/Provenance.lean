import RejectProcess.Sample.Capacity
import RejectProcess.Sample.Ejection
import RejectProcess.Sample.Products

/-!
# Where a command comes from

A command is traced back to what came from outside: to the trigger that it answers, which is the one
that its number says, and to the sample that it ejects, which is one that a frame has asked for and
that passes the search of the trigger.
-/

namespace RejectProcess

open Lib

namespace Label

/-- The sample that `write_array` is called for and does not skip. -/
def asked : Label → Option SampleResult
  | .sample r => if r.pos ≠ 0 then some r else none
  | _ => none

/-- The wheel code of a trigger that is posted to station `n`. -/
def kickAt (n : Station) : Label → Option UInt64
  | .kick n' code => if n' = n then some code else none
  | _ => none

end Label

/-! ## Searches -/

/-- A trigger is the one that its number says. -/
def Kick.From (codes : List UInt64) (k : Kick) : Prop := codes[k.num]? = some k.code

/-- A search was made for a trigger, and the sample it found passes. -/
structure Search.From (cfg : SysConfig) (n : Station) (codes : List UInt64)
    (samples : List SampleResult) (r : Search) : Prop where
  kick : r.kick.From codes
  found : ∀ i, r.found = some i → ∃ a, samples[i]? = some a ∧ r.query.test cfg n a = true

/-- A search task is at work on a trigger of its station. -/
def TrigPc.From (cfg : SysConfig) (n : Station) (codes : List UInt64)
    (samples : List SampleResult) : TrigPc → Prop
  | .idle => True
  | .pended k => k.From codes
  | .counting k _ => k.From codes
  | .counted k => k.From codes
  | .searching k _ _ => k.From codes
  | .searched r => r.From cfg n codes samples
  | .written _ => True

section Grow

variable {cfg : SysConfig} {n : Station} {codes codes' : List UInt64}
  {samples samples' : List SampleResult}

lemma getElem?_grows {α : Type*} {l l' : List α} (h : l <+: l') {i : ℕ} {a : α}
    (ha : l[i]? = some a) : l'[i]? = some a := by
  obtain ⟨t, rfl⟩ := h
  rw [List.getElem?_append_left (List.getElem?_eq_some_iff.1 ha).1, ha]

lemma Kick.From.grows {k : Kick} (h : k.From codes) (hcodes : codes <+: codes') :
    k.From codes' := getElem?_grows hcodes h

/-- More triggers and more samples leave a search as it was. -/
lemma Search.From.grows {r : Search} (h : r.From cfg n codes samples) (hcodes : codes <+: codes')
    (hsamples : samples <+: samples') : r.From cfg n codes' samples' where
  kick := h.kick.grows hcodes
  found i hi := by
    obtain ⟨a, ha, htest⟩ := h.found i hi
    exact ⟨a, getElem?_grows hsamples ha, htest⟩

lemma TrigPc.From.grows {pc : TrigPc} (h : pc.From cfg n codes samples)
    (hcodes : codes <+: codes') (hsamples : samples <+: samples') :
    pc.From cfg n codes' samples' := by
  cases pc with
  | idle | written _ => trivial
  | pended k | counting k _ | counted k | searching k _ _ => exact Kick.From.grows h hcodes
  | searched r => exact Search.From.grows h hcodes hsamples

end Grow

/-! ## What is written to the buffers -/

/-- The buffer in hand gets the sample, whatever list it joins. -/
lemma sample_linkSample (r : SampleResult) (buf : Buffer) (m : ArrayMem) :
    (linkSample r buf m).sample = Function.update m.sample buf r := by
  have hstore : (m.setBuf (m.sampleBuf.store buf { sample := r, buf := buf })).sample =
      Function.update m.sample buf r := by
    funext b
    by_cases hb : b = buf
    · subst hb
      rw [Function.update_self, ArrayMem.sample, ArrayMem.sampleBuf_setBuf,
        BufferFactory.store_memory_self]
    · rw [Function.update_of_ne hb, ArrayMem.sample, ArrayMem.sampleBuf_setBuf,
        BufferFactory.store_memory_of_ne _ _ hb]
      rfl
  cases hn : stationOf r.pos with
  | none => rw [linkSample_of_none hn, hstore]
  | some n => rw [linkSample_of_pos (stationOf_eq_some.1 hn), ArrayMem.sample_setList, hstore]

lemma mem_linkSample {r : SampleResult} {buf b : Buffer} {m : ArrayMem} {n : Station}
    (hb : b ∈ (linkSample r buf m).list n) : b ∈ m.list n ∨ b = buf := by
  cases hst : stationOf r.pos with
  | none =>
    rw [linkSample_of_none hst, ArrayMem.list_setBuf] at hb
    exact .inl hb
  | some n' =>
    rw [linkSample_of_pos (stationOf_eq_some.1 hst)] at hb
    by_cases hn : n = n'
    · subst hn
      rw [ArrayMem.list_setList_self] at hb
      simpa using hb
    · rw [ArrayMem.list_setList_of_ne _ _ hn, ArrayMem.list_setBuf] at hb
      exact .inl hb

/-- A search takes samples off a list and puts none on it. -/
lemma mem_searchLocked {test : SampleResult → Bool} {n n' : Station} {m : ArrayMem} {b : Buffer}
    (hb : b ∈ (searchLocked test n m).2.list n') : b ∈ m.list n' := by
  cases hs : searchLocked test n m with
  | mk found m' =>
    rw [hs] at hb
    cases found with
    | none =>
      obtain ⟨-, rfl⟩ := searchLocked_none hs
      exact hb
    | some p =>
      obtain ⟨-, rfl⟩ := searchLocked_some hs
      rw [list_recycleRecord] at hb
      by_cases hn : n' = n
      · subst hn
        rw [ArrayMem.list_setList_self] at hb
        exact List.mem_of_mem_erase hb
      · rwa [ArrayMem.list_setList_of_ne _ _ hn] at hb

lemma sample_searchLocked {test : SampleResult → Bool} {n : Station} {m : ArrayMem} :
    (searchLocked test n m).2.sample = m.sample := by
  cases hs : searchLocked test n m with
  | mk found m' =>
    cases found with
    | none =>
      obtain ⟨-, rfl⟩ := searchLocked_none hs
      rfl
    | some p =>
      obtain ⟨-, rfl⟩ := searchLocked_some hs
      exact ArrayMem.sample_setList m n _

/-- Clearing a list leaves the samples of the other and the content of all buffers. -/
lemma mem_clearLocked {n n' : Station} {m : ArrayMem} {b : Buffer}
    (hb : b ∈ (clearLocked n m).list n') : b ∈ m.list n' := by
  rw [clearLocked] at hb
  by_cases hn : n' = n
  · subst hn
    simp [ArrayMem.list_setList_self] at hb
  · rwa [ArrayMem.list_setList_of_ne _ _ hn, list_clearLoop] at hb

lemma sample_clearLocked (n : Station) (m : ArrayMem) : (clearLocked n m).sample = m.sample := by
  rw [clearLocked, ArrayMem.sample_setList, sample_clearLoop]

namespace Sys

variable {cfg : SysConfig} {s s' : Sys} {l : Label} {asked : List SampleResult}
  {codes : Station → List UInt64}

/-- The samples that `write_array` has linked, in the order of their numbers. -/
def samples (s : Sys) : List SampleResult := s.hist.accepted.map Accepted.sample

/-- What the tasks have and have done comes from the samples asked for and the triggers posted. -/
structure Traced (cfg : SysConfig) (asked : List SampleResult) (codes : Station → List UInt64)
    (s : Sys) : Prop where
  accepted : s.samples ++ s.writing.toList = asked
  posted : ∀ n, s.hist.posted n = (codes n).length
  listed : ∀ n, ∀ b ∈ s.mem.list n, s.samples[s.hist.number b]? = some (s.mem.sample b)
  mbx : ∀ n, ∀ k ∈ s.mbx n, k.From (codes n)
  trig : ∀ n, (s.trig n).From cfg n (codes n) s.samples
  commands : ∀ c ∈ s.fifo, c.search.From cfg c.station (codes c.station) s.samples

namespace Traced

lemma init (memory : Buffer → SampleArray) : Traced cfg [] (fun _ => []) (init memory) where
  accepted := rfl
  posted _ := rfl
  listed n b hb := by
    cases n <;> simp [Sys.init, arrayBufInit, ArrayMem.list] at hb
  mbx n k hk := by simp [Sys.init] at hk
  trig _ := trivial
  commands c hc := by simp [Sys.init] at hc

/-- A step that links no sample and has nothing to do with triggers. -/
lemma keep (h : Traced cfg asked codes s) (hlist : ∀ n, ∀ b ∈ s'.mem.list n, b ∈ s.mem.list n)
    (hsample : s'.mem.sample = s.mem.sample) (hacc : s'.hist.accepted = s.hist.accepted)
    (hnum : s'.hist.number = s.hist.number) (hpost : s'.hist.posted = s.hist.posted)
    (hwriting : s'.writing = s.writing) (hmbx : s'.mbx = s.mbx) (htrig : s'.trig = s.trig)
    (hfifo : s'.fifo = s.fifo) : Traced cfg asked codes s' where
  accepted := by rw [samples, hacc, hwriting]; exact h.accepted
  posted := by rw [hpost]; exact h.posted
  listed n b hb := by
    rw [samples, hacc, hnum, hsample]
    exact h.listed n b (hlist n b hb)
  mbx := by rw [hmbx]; exact h.mbx
  trig := by rw [htrig, samples, hacc]; exact h.trig
  commands := by rw [hfifo, samples, hacc]; exact h.commands

/-- `write_array` is called for a sample. -/
lemma ask (h : Traced cfg asked codes s) (hidle : s.recv = .idle) (r : SampleResult) :
    Traced cfg (asked ++ [r]) codes { s with recv := .produce r } where
  accepted := by
    have hno : s.writing = none := by rw [writing, hidle]
    have hacc := h.accepted
    rw [hno, Option.toList_none, List.append_nil] at hacc
    rw [← hacc]
    rfl
  posted := h.posted
  listed := h.listed
  mbx := h.mbx
  trig := h.trig
  commands := h.commands

/-- The sample in hand gets its number. -/
lemma link (h : Traced cfg asked codes s) {r : SampleResult} {buf : Buffer}
    (hr : s.recv = .link r buf) : Traced cfg asked codes (s.link r buf) := by
  have hsamples : (s.link r buf).samples = s.samples ++ [r] := List.map_append
  have hgrows : s.samples <+: (s.link r buf).samples := by
    rw [hsamples]
    exact List.prefix_append _ _
  refine ⟨?_, h.posted, fun n b hb => ?_, h.mbx, fun n => (h.trig n).grows List.prefix_rfl hgrows,
    fun c hc => (h.commands c hc).grows List.prefix_rfl hgrows⟩
  · have hwriting : s.writing = some r := by rw [writing, hr]
    have hacc := h.accepted
    rw [hwriting] at hacc
    rw [hsamples, ← hacc]
    exact List.append_nil _
  · change (s.link r buf).samples[Function.update s.hist.number buf s.hist.accepted.length b]? =
      some ((linkSample r buf s.mem).sample b)
    rw [sample_linkSample, hsamples]
    by_cases hbuf : b = buf
    · subst hbuf
      have hlen : s.hist.accepted.length = s.samples.length := (List.length_map _).symm
      rw [Function.update_self, Function.update_self, hlen, List.getElem?_concat_length]
    · have hold : b ∈ s.mem.list n := (mem_linkSample hb).resolve_right hbuf
      rw [Function.update_of_ne hbuf, Function.update_of_ne hbuf]
      exact getElem?_grows (List.prefix_append _ _) (h.listed n b hold)

/-- A trigger gets its number. -/
lemma post (h : Traced cfg asked codes s) (n : Station) (code : UInt64) :
    Traced cfg asked (fun n' => codes n' ++ (Label.kickAt n' (.kick n code)).toList)
      (s.post n code) := by
  have hgrows : ∀ n', codes n' <+: codes n' ++ (Label.kickAt n' (.kick n code)).toList :=
    fun _ => List.prefix_append _ _
  refine ⟨h.accepted, fun n' => ?_, h.listed, fun n' k hk => ?_,
    fun n' => (h.trig n').grows (hgrows n') List.prefix_rfl,
    fun c hc => (h.commands c hc).grows (hgrows _) List.prefix_rfl⟩
  · change Function.update s.hist.posted n (s.hist.posted n + 1) n' = _
    by_cases hn : n = n'
    · subst hn
      simp [Label.kickAt, h.posted]
    · simp [Label.kickAt, hn, Ne.symm hn, h.posted]
  · by_cases hn : n = n'
    · subst hn
      simp only [Sys.post, Function.update_self, List.mem_append, List.mem_singleton] at hk
      rcases hk with hk | rfl
      · exact (h.mbx n k hk).grows (hgrows n)
      · -- the new trigger is the last
        rw [Kick.From, h.posted]
        simp [Label.kickAt]
    · have hold : k ∈ s.mbx n' := by simpa [Sys.post, Ne.symm hn] using hk
      exact (h.mbx n' k hold).grows (hgrows n')

/-- A search task moves on. -/
lemma goto (h : Traced cfg asked codes s) {n : Station} {pc : TrigPc}
    (hpc : pc.From cfg n (codes n) s.samples) : Traced cfg asked codes (s.setTrig n pc) := by
  refine { h with trig := fun n' => ?_ }
  by_cases hn : n' = n
  · subst hn
    rw [setTrig_trig_self]
    exact hpc
  · rw [setTrig_trig_of_ne _ hn]
    exact h.trig n'

/-- A search task takes the first trigger. -/
lemma pend (h : Traced cfg asked codes s) {n : Station} {k : Kick} {rest : List Kick}
    (hm : s.mbx n = k :: rest) : Traced cfg asked codes (s.pend n k rest) := by
  have hk : k.From (codes n) := h.mbx n k (by rw [hm]; exact List.mem_cons_self)
  have hgoto : Traced cfg asked codes (s.setTrig n (.pended k)) := h.goto hk
  refine { hgoto with mbx := fun n' k' hk' => ?_ }
  by_cases hn : n' = n
  · subst hn
    have hrest : k' ∈ rest := by simpa [Sys.pend] using hk'
    exact h.mbx n' k' (by rw [hm]; exact List.mem_cons_of_mem _ hrest)
  · exact h.mbx n' k' (by simpa [Sys.pend, hn] using hk')

/-- A search finds a sample that passes, under the number that it was linked with. -/
lemma search (h : Traced cfg asked codes s) {n : Station} {k : Kick} {q : Query} {era : ℕ}
    (hpc : s.trig n = .searching k q era) :
    Traced cfg asked codes (s.search cfg n k q era) := by
  have hfrom := h.trig n
  rw [hpc] at hfrom
  have hfound : ∀ i, (searchLocked (q.test cfg n) n s.mem).1.map s.hist.number = some i →
      ∃ a, s.samples[i]? = some a ∧ q.test cfg n a = true := by
    intro i hi
    obtain ⟨b, hb, rfl⟩ := Option.map_eq_some_iff.1 hi
    obtain ⟨hfind, -⟩ := searchLocked_some (Prod.ext hb rfl)
    have htest : q.test cfg n (s.mem.sample b) = true := by simpa using List.find?_some hfind
    exact ⟨s.mem.sample b, h.listed n b (List.mem_of_find?_eq_some hfind), htest⟩
  let found : Search :=
    { kick := k, query := q, era := era, listed := s.listed n, cleared := s.hist.cleared n,
      found := (searchLocked (q.test cfg n) n s.mem).1.map s.hist.number }
  have hgoto : Traced cfg asked codes (s.setTrig n (.searched found)) :=
    h.goto ⟨hfrom, hfound⟩
  exact hgoto.keep (fun _ _ hb => mem_searchLocked hb) sample_searchLocked rfl rfl rfl rfl rfl rfl
    rfl

/-- A command says what the search has found. -/
lemma command (h : Traced cfg asked codes s) {n : Station} {r : Search}
    (hpc : s.trig n = .searched r) : Traced cfg asked codes (s.command n r) := by
  have hfrom := h.trig n
  rw [hpc] at hfrom
  have hgoto : Traced cfg asked codes (s.setTrig n (.written r.kick)) := h.goto trivial
  refine { hgoto with commands := fun c hc => ?_ }
  rcases List.mem_append.1 hc with hc | hc
  · exact h.commands c hc
  · obtain rfl := List.mem_singleton.1 hc
    exact hfrom

/-- Every step keeps the trace, with what its label brings. -/
lemma step (h : Traced cfg asked codes s) (hs : Step cfg s l s') :
    Traced cfg (asked ++ l.asked.toList) (fun n => codes n ++ (l.kickAt n).toList) s' := by
  -- a step of a task brings nothing from outside
  have hinside : l.asked = none → (∀ n, l.kickAt n = none) → Traced cfg asked codes s' →
      Traced cfg (asked ++ l.asked.toList) (fun n => codes n ++ (l.kickAt n).toList) s' := by
    intro hasked hkick h'
    simpa [hasked, hkick] using h'
  -- and a step of the receive task that does not link is seen in the lists only
  have hrecv : ∀ s₁ : Sys, (∀ n, ∀ b ∈ s₁.mem.list n, b ∈ s.mem.list n) →
      s₁.mem.sample = s.mem.sample → s₁.hist.accepted = s.hist.accepted →
      s₁.hist.number = s.hist.number → s₁.hist.posted = s.hist.posted →
      s₁.writing = s.writing → s₁.mbx = s.mbx → s₁.trig = s.trig → s₁.fifo = s.fifo →
      Traced cfg asked codes s₁ := fun s₁ => h.keep
  cases hs with
  | skip r hidle hpos =>
    have hasked : (Label.sample r).asked = none := by simp [Label.asked, hpos]
    exact hinside hasked (fun _ => rfl) h
  | sample r hidle hpos =>
    have hasked : (Label.sample r).asked = some r := by simp [Label.asked, hpos]
    rw [hasked]
    simpa [Label.kickAt] using h.ask hidle r
  | reset hidle =>
    exact hinside rfl (fun _ => rfl) (hrecv _ (fun _ _ hb => hb) rfl rfl rfl rfl
      (by simp [writing, hidle]) rfl rfl rfl)
  | crash r hpc hp =>
    exact hinside rfl (fun _ => rfl) (hrecv _ (fun _ _ hb => hb) rfl rfl rfl rfl rfl rfl rfl rfl)
  | produce r buf f hpc hp =>
    exact hinside rfl (fun _ => rfl) (hrecv _ (fun n b hb => by simpa [produced] using hb)
      (sample_produced hp r) rfl rfl rfl (by simp [writing, produced, hpc]) rfl rfl rfl)
  | link r buf hpc => exact hinside rfl (fun _ => rfl) (h.link hpc)
  | zero hpc =>
    exact hinside rfl (fun _ => rfl) (hrecv _ (fun _ _ hb => hb) rfl rfl rfl rfl
      (by simp [writing, zeroCount, hpc]) rfl rfl rfl)
  | clear1 hpc | clear2 hpc =>
    exact hinside rfl (fun _ => rfl) (hrecv _ (fun _ _ hb => mem_clearLocked hb)
      (sample_clearLocked _ _) rfl rfl rfl (by simp [writing, Sys.clear, hpc]) rfl rfl rfl)
  | reply hpc =>
    exact hinside rfl (fun _ => rfl) (hrecv _ (fun _ _ hb => hb) rfl rfl rfl rfl
      (by simp [writing, hpc]) rfl rfl rfl)
  | finish hpc =>
    exact hinside rfl (fun _ => rfl) (hrecv _ (fun _ _ hb => hb) rfl rfl rfl rfl
      (by simp [writing, finishReset, hpc]) rfl rfl rfl)
  | kick n code => simpa [Label.asked] using h.post n code
  | pend n k rest hpc hm => exact hinside rfl (fun _ => rfl) (h.pend hm)
  | readCount k hpc =>
    have hfrom := h.trig .one
    rw [hpc] at hfrom
    exact hinside rfl (fun _ => rfl) (h.goto hfrom)
  | call2 k hpc =>
    have hfrom := h.trig .two
    rw [hpc] at hfrom
    exact hinside rfl (fun _ => rfl) (h.goto hfrom)
  | countUp n k cur hpc =>
    have hfrom := h.trig n
    rw [hpc] at hfrom
    have hgoto : Traced cfg asked codes (s.setTrig n (.counted k)) := h.goto hfrom
    exact hinside rfl (fun _ => rfl) { hgoto with }
  | callCount n k hpc hmode | callWheelCode n k hpc hmode =>
    have hfrom := h.trig n
    rw [hpc] at hfrom
    exact hinside rfl (fun _ => rfl) (h.goto hfrom)
  | search n k q era hpc => exact hinside rfl (fun _ => rfl) (h.search hpc)
  | command n r hpc => exact hinside rfl (fun _ => rfl) (h.command hpc)
  | done n k hpc => exact hinside rfl (fun _ => rfl) (h.goto trivial)

end Traced

/-- A run is traced by its labels. -/
lemma traced_exec {memory : Buffer → SampleArray} {ls : List Label}
    (h : exec (step cfg) (init memory) ls = some s) :
    s.Traced cfg (ls.filterMap Label.asked) fun n => ls.filterMap (Label.kickAt n) := by
  let I : List Label → Sys → Prop := fun ls s =>
    s.Traced cfg (ls.filterMap Label.asked) fun n => ls.filterMap (Label.kickAt n)
  have h0 : I [] (init memory) := .init memory
  refine exec_history (I := I) (fun as s a s' hI hs => ?_) h0 h
  have hstep := hI.step (step_inv hs)
  have happend : ∀ {β : Type} (f : Label → Option β),
      (as ++ [a]).filterMap f = as.filterMap f ++ (f a).toList := by
    intro β f
    rw [List.filterMap_append]
    cases hf : f a <;> simp [hf]
  change Traced cfg _ _ s'
  simpa only [happend] using hstep

/-! ## What the trace says -/

/-- Where things are numbered as they come, what belongs to the numbers comes in their order. -/
lemma map_prefix_of_numbered {α β : Type*} {l : List α} {bs : List β} {num : α → ℕ} {f : α → β}
    (hnum : l.map num = List.range l.length) (hf : ∀ a ∈ l, bs[num a]? = some (f a)) :
    l.map f <+: bs := by
  rw [List.prefix_iff_getElem?]
  intro i hi
  have hlt : i < l.length := by simpa using hi
  have hi' : num l[i] = i := by
    have hget : (l.map num)[i]? = some i := by rw [hnum, List.getElem?_range hlt]
    simpa [hlt] using hget
  have hat := hf l[i] (List.getElem_mem hlt)
  rw [hi'] at hat
  simpa using hat

lemma length_acceptedAt (s : Sys) (n : Station) :
    (s.acceptedAt n).length = s.samples.countP fun r => r.pos = n.pos := by
  rw [acceptedAt, samples]
  induction s.hist.accepted using List.reverseRecOn with
  | nil => rfl
  | append_singleton as a ih =>
    have hold : ((List.range as.length).filter fun i =>
        ((as ++ [a])[i]?).any fun a => a.sample.pos == n.pos) =
          (List.range as.length).filter fun i => (as[i]?).any fun a => a.sample.pos == n.pos := by
      refine List.filter_congr fun i hi => ?_
      rw [List.getElem?_append_left (List.mem_range.1 hi)]
    rw [List.length_append, List.length_singleton, List.range_succ, List.filter_append,
      List.length_append, hold, ih, List.map_append, List.countP_append]
    by_cases hpos : a.sample.pos = n.pos <;> simp [hpos]

/-- The commands are explained by the samples asked for and the wheel codes of the triggers. -/
structure Explained (cfg : SysConfig) (asked : List SampleResult) (codes : Station → List UInt64)
    (s : Sys) : Prop where
  /-- The commands of a station answer its triggers in their order. -/
  triggers : ∀ n, ((s.fifo.filter fun c => c.reg = n.comFifoReg).map
    fun c => c.search.kick.code) <+: codes n
  /-- Each was searched for by count or by the wheel code of its trigger. -/
  queries : ∀ n, ∀ c ∈ s.fifo, c.reg = n.comFifoReg → c.search.query.For cfg n c.search.kick
  /-- What is ejected was asked for at this station and passes the search. -/
  ejects : ∀ n, ∀ c ∈ s.ejections n, ∃ i r, c.search.found = some i ∧ asked[i]? = some r ∧
    r.pos = n.pos ∧ c.search.query.test cfg n r = true
  /-- It was asked for once for each time it is ejected. -/
  once : ∀ n, ((s.ejections n).map fun c => c.search.found).Nodup
  /-- What was asked for is ejected, cleared, waiting or in the hands of a task. -/
  balance : ∀ n, (asked.countP fun r => r.pos = n.pos) =
    (s.ejections n).length + (s.hist.cleared n).length + (s.mem.list n).length +
      ((s.inFlight n).length + s.writing.toList.countP fun r => r.pos = n.pos)

lemma Traced.explained (h : s.Traced cfg asked codes) (hl : Ledger s) (hown : OwnCodes cfg s) :
    s.Explained cfg asked codes := by
  have hstation : ∀ n, ∀ c ∈ s.fifo, c.reg = n.comFifoReg → c.station = n := by
    intro n c hc hreg
    rw [(hl.commands c hc).reg] at hreg
    exact comFifoReg_inj hreg
  constructor
  case triggers =>
    intro n
    have hfilter : (s.fifo.filter fun c => c.reg = n.comFifoReg) =
        s.fifo.filter fun c => c.station = n := by
      refine List.filter_congr fun c hc => ?_
      rw [(hl.commands c hc).reg, decide_eq_decide]
      exact ⟨comFifoReg_inj, fun hcn => by rw [hcn]⟩
    rw [hfilter]
    have hnum : (s.fifo.filter fun c => c.station = n).map (fun c => c.search.kick.num) =
        List.range (s.fifo.filter fun c => c.station = n).length := by
      have hprefix : s.answered n <+: List.range (s.hist.consumed n) :=
        ⟨s.inProgress n, hl.messages n⟩
      have hle := hprefix.length_le
      have htake := List.prefix_iff_eq_take.1 hprefix
      rw [List.length_range] at hle
      rw [List.take_range, Nat.min_eq_left hle, answered, List.length_map] at htake
      exact htake
    refine map_prefix_of_numbered hnum fun c hc => ?_
    obtain ⟨hc, hn⟩ := List.mem_filter.1 hc
    have hn : c.station = n := by simpa using hn
    rw [← hn]
    exact (h.commands c hc).kick
  case queries =>
    intro n c hc hreg
    have hfor := hown.fifo c hc
    rwa [hstation n c hc hreg] at hfor
  case ejects =>
    intro n c hc
    obtain ⟨i, hi, hacc⟩ := ejected_accepted hl hc
    obtain ⟨a, ha, hpos⟩ := mem_acceptedAt.1 hacc
    obtain ⟨hmem, hreg⟩ := List.mem_filter.1 hc
    have hreg : c.reg = n.comFifoReg ∧ c.val = 1 := by simpa using hreg
    obtain ⟨r, hr, htest⟩ := (h.commands c hmem).found i hi
    have har : a.sample = r := by
      have hsample : s.samples[i]? = some a.sample := by simp [samples, ha]
      exact Option.some.inj (hsample.symm.trans hr)
    have hasked : asked[i]? = some r := by
      rw [← h.accepted]
      exact getElem?_grows (List.prefix_append _ _) hr
    rw [hstation n c hmem hreg.1] at htest
    exact ⟨i, r, hi, hasked, har ▸ hpos, htest⟩
  case once =>
    intro n
    rw [ejections_map hl]
    exact (ejected_nodup hl n).map (Option.some_injective _)
  case balance =>
    intro n
    have hlen := (hl.samples n).length_eq
    have hejected := congrArg List.length (ejections_map hl n)
    rw [List.length_map, List.length_map] at hejected
    rw [length_acceptedAt, taken, Sys.listed, List.length_append, List.length_append,
      List.length_append, List.length_map] at hlen
    rw [← h.accepted, List.countP_append, hlen, ← hejected]
    omega

end Sys

end RejectProcess
