import RejectProcess.Sample.Ejection

/-!
# The capacity of the sample pool

A search in counting mode takes the sample whose count is the value of `cur_count_kt1`, so a
result that arrives when its product has been searched for is never taken: it keeps its buffer
until the next reset, as a second result with the same count does.  This file counts these spare
results as they arrive, and shows that the pool of 128 buffers suffices as long as they and the
results whose products are still to come are fewer than 128.
-/

namespace RejectProcess

open Lib

/-- Is the receive task before its call of `buf_factory_produce`? -/
def RecvPc.atProduce : RecvPc → Bool
  | .produce _ => true
  | _ => false

namespace Sys

/-- A reset has returned: the lists are empty and all buffers free.  The history of accepted
samples starts here. -/
structure AfterReset (s : Sys) : Prop where
  recv : s.recv = .idle
  list : ∀ n, s.mem.list n = []
  free : s.mem.sampleBuf.list.Perm (List.range 128)
  exited : s.exited = false
  accepted : s.hist.accepted = []

/-- The samples whose products are still to come: those accepted, and the one that `write_array` is
at work on, with a count greater than `cur_count_kt1`. -/
def pending (s : Sys) : ℕ :=
  (s.hist.accepted.map Accepted.sample ++ s.writing.toList).countP fun r => s.curCountKt1 < r.count

/-- A step of a run in counting mode, made of calls of `write_array` for station 1 and of kick 1
triggers, with at most 128 samples whose products are still to come. -/
def CountingStep (s : Sys) (l : Label) : Prop :=
  s.pending ≤ 128 ∧
    match l with
    | .sample r => r.pos = 1
    | .reset => False
    | .recv => True
    | .kick n _ => n = .one
    | .trig n => n = .one

instance (s : Sys) : (l : Label) → Decidable (CountingStep s l)
  | .sample r => inferInstanceAs (Decidable (_ ∧ r.pos = 1))
  | .reset => inferInstanceAs (Decidable (_ ∧ False))
  | .recv => inferInstanceAs (Decidable (_ ∧ True))
  | .kick n _ => inferInstanceAs (Decidable (_ ∧ n = .one))
  | .trig n => inferInstanceAs (Decidable (_ ∧ n = .one))

/-! ## Results in time and spare results -/

/-- The count of the product that the search task has counted and not yet searched for. -/
def awaited (s : Sys) : Option UInt32 :=
  match s.trig .one with
  | .counted _ => some s.curCountKt1
  | .searching _ (.count c) _ => some c
  | _ => none

/-- The product with this count is still to be searched for. -/
def Due (s : Sys) (c : UInt32) : Prop := s.curCountKt1 < c ∨ s.awaited = some c

instance (s : Sys) : DecidablePred s.Due := fun _ => inferInstanceAs (Decidable (_ ∨ _))

/-- The counts of the results accepted since the reset, told apart on arrival: the first in time
for its product, and those that are late or have the count of one that came in time. -/
structure Arrivals where
  inTime : List UInt32
  spare : List UInt32

/-- A result arrives when `write_array` links it. -/
def Arrivals.see (a : Arrivals) (s : Sys) : Label → Arrivals
  | .recv =>
    match s.recv with
    | .link r _ =>
      if s.Due r.count ∧ r.count ∉ a.inTime then { a with inTime := a.inTime ++ [r.count] }
      else { a with spare := a.spare ++ [r.count] }
    | _ => a
  | _ => a

/-- Whenever `write_array` calls `buf_factory_produce`, the spare results that have arrived since
the reset and those in time whose products are still to be searched for are fewer than 128. -/
def Room (s : Sys) (a : Arrivals) (l : Label) : Prop :=
  l = .recv → s.recv.atProduce → a.spare.length + a.inTime.countP s.Due < 128

instance (s : Sys) (a : Arrivals) (l : Label) : Decidable (Room s a l) :=
  inferInstanceAs (Decidable (_ → _ → _))

/-- The counts of the samples in the list of station 1. -/
def counts (s : Sys) : List UInt32 := (s.mem.list .one).map fun p => (s.mem.sample p).count

/-- What a run of this kind keeps: the listed samples are spare, or in time and still due. -/
structure CapacityInv (s : Sys) (a : Arrivals) : Prop where
  pool : s.PoolInvUpTo []
  two : s.mem.list .two = []
  pos : ∀ r ∈ s.writing, r.pos = 1
  task : s.recv = .idle ∨ s.writing.isSome
  exited : s.exited = false
  counting : ∀ k c, s.trig .one = .counting k c → c = s.curCountKt1
  nodup : a.inTime.Nodup
  listed : s.counts.Subperm (a.spare ++ a.inTime.filter s.Due)

variable {cfg : SysConfig} {s s' : Sys} {l : Label} {a : Arrivals}

/-- A buffer that is handed out keeps its content, as the others do. -/
lemma sample_produced {buf : Buffer} {f : BufferFactory SampleArray}
    (hp : s.mem.sampleBuf.produce = some (buf, f)) (r : SampleResult) :
    (s.produced r buf f).mem.sample = s.mem.sample := by
  obtain ⟨-, hmemory⟩ := BufferFactory.produce_eq_some.1 hp
  funext p
  simp [produced, ArrayMem.sample, hmemory]

/-- What `write_array` links in the list of station 1. -/
lemma mem_link {r : SampleResult} {buf : Buffer} (hpos : r.pos = Station.one.pos)
    (hinv : PoolInv s.mem [buf]) :
    (s.link r buf).mem.list .one = s.mem.list .one ++ [buf] ∧
      (s.link r buf).mem.list .two = s.mem.list .two ∧
      (∀ p ∈ s.mem.list .one, (s.link r buf).mem.sample p = s.mem.sample p) ∧
      (s.link r buf).mem.sample buf = r := by
  have hmem : (s.link r buf).mem =
      (s.mem.setBuf (s.mem.sampleBuf.store buf { sample := r, buf := buf })).setList .one
        (s.mem.list .one ++ [buf]) := linkSample_of_pos hpos buf s.mem
  rw [hmem]
  refine ⟨ArrayMem.list_setList_self .., ?_, fun p hp => ?_, ?_⟩
  · rw [ArrayMem.list_setList_of_ne _ _ (by simp), ArrayMem.list_setBuf]
  · have hne : p ≠ buf := by
      rintro rfl
      exact (hinv.not_mem_of_mem_list hp).2.1 (by simp)
    rw [ArrayMem.sample, ArrayMem.sampleBuf_setList, ArrayMem.sampleBuf_setBuf,
      BufferFactory.store_memory_of_ne _ _ hne]
    rfl
  · rw [ArrayMem.sample, ArrayMem.sampleBuf_setList, ArrayMem.sampleBuf_setBuf,
      BufferFactory.store_memory_self]

/-- What a search takes off the list of station 1. -/
lemma mem_search (s : Sys) (cfg : SysConfig) (k : Kick) (q : Query) (era : ℕ) :
    ((s.mem.list .one).find? (fun p => q.test cfg .one (s.mem.sample p)) = none ∧
      (s.search cfg .one k q era).mem = s.mem) ∨
    ∃ p, (s.mem.list .one).find? (fun p => q.test cfg .one (s.mem.sample p)) = some p ∧
      (s.search cfg .one k q era).mem.list .one = (s.mem.list .one).erase p ∧
      (s.search cfg .one k q era).mem.list .two = s.mem.list .two ∧
      (s.search cfg .one k q era).mem.sample = s.mem.sample := by
  obtain ⟨found, mem', hs⟩ : ∃ found mem', searchLocked (q.test cfg .one) .one s.mem =
    (found, mem') := ⟨_, _, rfl⟩
  have hmem : (s.search cfg .one k q era).mem = mem' := by
    show (searchLocked (q.test cfg .one) .one s.mem).2 = mem'
    rw [hs]
  rw [hmem]
  cases found with
  | none => exact .inl (searchLocked_none hs)
  | some p =>
    obtain ⟨hfind, rfl⟩ := searchLocked_some hs
    refine .inr ⟨p, hfind, ?_, ?_, ?_⟩
    · rw [list_recycleRecord, ArrayMem.list_setList_self]
    · rw [list_recycleRecord, ArrayMem.list_setList_of_ne _ _ (by simp)]
    · funext b
      simp [ArrayMem.sample]

/-- The samples of a list from which a search has taken one, if any. -/
lemma counts_search_sublist (s : Sys) (cfg : SysConfig) (k : Kick) (q : Query) (era : ℕ) :
    (s.search cfg .one k q era).counts.Sublist s.counts := by
  rcases mem_search s cfg k q era with ⟨-, hmem⟩ | ⟨p, -, hone, -, hsample⟩
  · rw [counts, hmem]
    exact List.Sublist.refl _
  · rw [counts, hone, hsample]
    exact List.erase_sublist.map _

/-- A search by count leaves one sample less with its count, if there was one. -/
lemma counts_search (s : Sys) (cfg : SysConfig) (k : Kick) (c : UInt32) (era : ℕ) :
    (s.search cfg .one k (.count c) era).counts.Perm (s.counts.erase c) := by
  rcases mem_search s cfg k (.count c) era with ⟨hfind, hmem⟩ | ⟨p, hfind, hone, -, hsample⟩
  · have hnone : c ∉ s.counts := by
      simpa [counts, Query.test, countTest] using List.find?_eq_none.1 hfind
    rw [List.erase_of_not_mem hnone, counts, hmem]
    rfl
  · have hp : (s.mem.sample p).count = c := by
      simpa [Query.test, countTest] using List.find?_some hfind
    have hcons : s.counts.Perm (c :: (s.search cfg .one k (.count c) era).counts) := by
      rw [counts, counts, hone, hsample, ← hp]
      exact (List.perm_cons_erase (List.mem_of_find?_eq_some hfind)).map _
    have herase := hcons.erase c
    rw [List.erase_cons_head] at herase
    exact herase.symm

/-- One element less on the left is one less on the right, if it is among the last there. -/
lemma subperm_erase {A S F : List UInt32} (h : A.Subperm (S ++ F)) (c : UInt32) :
    (A.erase c).Subperm (S ++ F.erase c) := by
  rw [List.subperm_ext_iff]
  intro x _
  have hx := h.count_le x
  rw [List.count_append] at hx ⊢
  by_cases hxc : x = c
  · subst hxc
    rw [List.count_erase_self, List.count_erase_self]
    omega
  · rw [List.count_erase_of_ne hxc, List.count_erase_of_ne hxc]
    exact hx

namespace CapacityInv

lemma afterReset (h : s.AfterReset)
    (hwhole : ∀ k c, s.trig .one = .counting k c → c = s.curCountKt1) :
    s.CapacityInv { inTime := [], spare := [] } where
  pool := by
    have hhand : s.hand = [] := hand_of_recv (by simp [h.recv])
    exact ⟨by simpa [hhand, h.list] using h.free, by simp [h.list]⟩
  two := h.list .two
  pos := by simp [writing, h.recv]
  task := .inl h.recv
  exited := h.exited
  counting := hwhole
  nodup := List.nodup_nil
  listed := by simp [counts, h.list]

/-- What is due stays listed as such while it stays due. -/
lemma listed_mono (h : s.CapacityInv a) (hdue : ∀ c, s.Due c → s'.Due c) :
    s.counts.Subperm (a.spare ++ a.inTime.filter s'.Due) := by
  refine h.listed.trans (List.Sublist.subperm (List.Sublist.append_left ?_ _))
  exact List.monotone_filter_right _ fun c hc => by simpa using hdue c (by simpa using hc)

/-- A step that touches neither the samples nor the receive task, and drops no due product. -/
lemma frame (h : s.CapacityInv a) (hmem : s'.mem = s.mem) (hrecv : s'.recv = s.recv)
    (hexit : s'.exited = s.exited)
    (hcounting : ∀ k c, s'.trig .one = .counting k c → c = s'.curCountKt1)
    (hdue : ∀ c, s.Due c → s'.Due c) : s'.CapacityInv a := by
  have hwriting : s'.writing = s.writing := by simp only [writing, hrecv]
  have hhand : s'.hand = s.hand := by simp only [hand, hrecv]
  refine ⟨?_, ?_, ?_, ?_, ?_, hcounting, h.nodup, ?_⟩
  · simpa only [PoolInvUpTo, hmem, hhand] using h.pool
  · rw [hmem]
    exact h.two
  · rw [hwriting]
    exact h.pos
  · rw [hrecv, hwriting]
    exact h.task
  · rw [hexit]
    exact h.exited
  · rw [counts, hmem]
    exact h.listed_mono hdue

/-- A step of the search task that leaves the counter alone, and makes only another step towards
the search for the product it has counted. -/
lemma frameTrig (h : s.CapacityInv a) {pc : TrigPc}
    (hcounting : ∀ k c, pc = .counting k c → c = s.curCountKt1)
    (hawaited : ∀ c, s.awaited = some c → (s.setTrig .one pc).awaited = some c) :
    (s.setTrig .one pc).CapacityInv a := by
  refine h.frame rfl rfl rfl ?_ ?_
  · intro k c hpc
    exact hcounting k c (by simpa using hpc)
  · rintro c (hlt | haw)
    · exact .inl hlt
    · exact .inr (hawaited c haw)

/-- The receive task is not in a reset. -/
lemma not_resetting (h : s.CapacityInv a) {pc : RecvPc} (hr : s.recv = pc) (hne : pc ≠ .idle)
    (hw : s.writing = none) : False := by
  rcases h.task with hidle | hsome
  · exact hne (hr.symm.trans hidle)
  · simp [hw] at hsome

/-- The list is no longer than what has arrived and is spare or due. -/
lemma length_list_le (h : s.CapacityInv a) :
    (s.mem.list .one).length ≤ a.spare.length + a.inTime.countP s.Due := by
  have hlen := h.listed.length_le
  rwa [counts, List.length_map, List.length_append, ← List.countP_eq_length_filter] at hlen

/-- So `buf_factory_produce` finds a buffer where there is room. -/
lemma produce_ne_none (h : s.CapacityInv a) {r : SampleResult} (hr : s.recv = .produce r)
    (hroom : Room s a .recv) : s.mem.sampleBuf.produce ≠ none := by
  intro hp
  have hle := h.length_list_le
  have hlt := hroom rfl (by simp [hr, RecvPc.atProduce])
  have hlen := h.pool.length_eq
  have hhand : s.hand = [] := hand_of_recv (by simp [hr])
  rw [BufferFactory.produce_eq_none] at hp
  simp only [hp, h.two, hhand, List.length_nil, List.append_nil] at hlen
  omega

/-- A sample that is linked is in time and due, or spare. -/
lemma link (h : s.CapacityInv a) {r : SampleResult} {buf : Buffer} (hr : s.recv = .link r buf)
    (hpool : (s.link r buf).PoolInvUpTo []) :
    (s.link r buf).CapacityInv (a.see s .recv) := by
  have hpos : r.pos = Station.one.pos := h.pos r (by simp [writing, hr])
  have hinv : PoolInv s.mem [buf] := by simpa [PoolInvUpTo, hand, hr] using h.pool
  obtain ⟨hone, htwo, hold, hnew⟩ := mem_link hpos hinv
  have hcounts : (s.link r buf).counts = s.counts ++ [r.count] := by
    rw [counts, hone, List.map_append, List.map_singleton, hnew, counts]
    congr 1
    exact List.map_congr_left fun p hp => by rw [hold p hp]
  have hlisted : s.counts.Subperm (a.spare ++ a.inTime.filter (s.link r buf).Due) :=
    h.listed_mono fun _ => id
  refine ⟨hpool, htwo.trans h.two, by simp [writing, Sys.link], .inl rfl, h.exited, h.counting,
    ?_, ?_⟩
  · simp only [Arrivals.see, hr]
    split
    · next hdue => exact h.nodup.append (List.nodup_singleton _) (by simpa using hdue.2)
    · exact h.nodup
  · rw [hcounts]
    simp only [Arrivals.see, hr]
    split
    · next hdue =>
      have hself : (s.link r buf).Due r.count := hdue.1
      rw [List.filter_append, List.filter_singleton, decide_eq_true hself, ← List.append_assoc]
      exact (List.subperm_append_right _).2 hlisted
    · refine ((List.subperm_append_right [r.count]).2 hlisted).trans ?_
      rw [List.append_assoc, List.append_assoc]
      exact ((List.perm_append_comm).append_left _).subperm

/-- When a product is counted, a due product stays due or is the one that is counted. -/
lemma countUp (h : s.CapacityInv a) {k : Kick} {cur : UInt32}
    (hpc : s.trig .one = .counting k cur) : (s.countUp .one k cur).CapacityInv a := by
  obtain rfl : cur = s.curCountKt1 := h.counting k cur hpc
  refine h.frame rfl rfl rfl (by simp [Sys.countUp]) fun c hc => ?_
  have hlt : s.curCountKt1 < c := by
    rcases hc with hlt | haw
    · exact hlt
    · simp [awaited, hpc] at haw
  by_cases hself : s.curCountKt1 + 1 = c
  · right
    simp [awaited, Sys.countUp, hself]
  · left
    show s.curCountKt1 + 1 < c
    have hmax := c.toNat_lt
    rw [UInt32.lt_iff_toNat_lt, UInt32.toNat_add] at *
    rw [← UInt32.toNat_inj, UInt32.toNat_add] at hself
    simp only [UInt32.reduceToNat] at hself ⊢
    omega

/-- The search takes the sample whose product was counted. -/
lemma search (h : s.CapacityInv a) {k : Kick} {q : Query} {era : ℕ}
    (hpc : s.trig .one = .searching k q era)
    (hpool : (s.search cfg .one k q era).PoolInvUpTo []) :
    (s.search cfg .one k q era).CapacityInv a := by
  have htwo : (s.search cfg .one k q era).mem.list .two = [] := by
    rcases mem_search s cfg k q era with ⟨-, hmem⟩ | ⟨p, -, -, htwo, -⟩
    · rw [hmem]
      exact h.two
    · exact htwo.trans h.two
  refine ⟨hpool, htwo, h.pos, h.task, h.exited, by simp [Sys.search], h.nodup, ?_⟩
  cases q with
  | count c =>
    refine (counts_search s cfg k c era).subperm.trans ((subperm_erase h.listed c).trans ?_)
    refine List.Sublist.subperm (List.Sublist.append_left ?_ _)
    -- the product that was searched for is the only one that is no longer due
    rw [(h.nodup.filter _).erase_eq_filter, List.filter_filter]
    refine List.monotone_filter_right _ fun c' hc' => ?_
    obtain ⟨hne, hdue⟩ : c' ≠ c ∧ s.Due c' := by simpa using hc'
    rcases hdue with hlt | haw
    · exact decide_eq_true (.inl hlt)
    · exact absurd (by simpa [awaited, hpc] using haw.symm) hne
  | wheelCode w =>
    refine (counts_search_sublist s cfg k _ era).subperm.trans (h.listed_mono ?_)
    rintro c (hlt | haw)
    · exact .inl hlt
    · simp [awaited, hpc] at haw

/-- A step for which there is room keeps the invariant. -/
theorem step (hcfg : cfg.kickMode = 0) (h : s.CapacityInv a) (hcount : CountingStep s l)
    (hroom : Room s a l) (hs : Step cfg s l s') : s'.CapacityInv (a.see s l) := by
  obtain ⟨-, hlabel⟩ := hcount
  have hpool : s'.PoolInvUpTo [] := by
    refine (conserved_step h.pool (fun r hr => by rw [h.pos r hr]; rfl) ?_ hs).1
    cases l with
    | sample r => exact .inr (.inl hlabel)
    | _ => trivial
  cases hs with
  | skip r hr hp => exact h
  | sample r hr hp =>
    refine ⟨hpool, h.two, ?_, .inr (by simp [writing]), h.exited, h.counting, h.nodup, h.listed⟩
    intro r' hr'
    obtain rfl : r = r' := by simpa [writing] using hr'
    exact hlabel
  | reset hr => exact hlabel.elim
  | crash r hr hp => exact absurd hp (h.produce_ne_none hr hroom)
  | produce r buf f hr hp =>
    have hsee : a.see s .recv = a := by simp only [Arrivals.see, hr]
    have hcounts : (s.produced r buf f).counts = s.counts := by
      rw [counts, sample_produced hp]
      simp [produced, counts]
    rw [hsee]
    refine ⟨hpool, by simpa [produced] using h.two, ?_, .inr (by simp [writing, produced]),
      h.exited, h.counting, h.nodup, hcounts ▸ h.listed⟩
    intro r' hr'
    exact h.pos r' (by simpa [writing, hr, produced] using hr')
  | link r buf hr => exact h.link hr hpool
  | zero hr | clear1 hr | clear2 hr | reply hr | finish hr =>
    exact (h.not_resetting hr (by simp) (by simp [writing, hr])).elim
  | kick n code => exact h.frame rfl rfl rfl h.counting fun _ => id
  | pend n k rest hpc hm =>
    obtain rfl : n = .one := hlabel
    have hidle : (s.setTrig .one (.pended k)).CapacityInv a :=
      h.frameTrig (by simp) (by simp [awaited, hpc])
    exact hidle.frame rfl rfl rfl hidle.counting fun _ => id
  | readCount k hpc => exact h.frameTrig (by simp [eq_comm]) (by simp [awaited, hpc])
  | call2 k hpc => cases hlabel
  | countUp n k cur hpc =>
    obtain rfl : n = .one := hlabel
    exact h.countUp hpc
  | callCount n k hpc hm =>
    obtain rfl : n = .one := hlabel
    exact h.frameTrig (by simp) (by simp [awaited, hpc])
  | callWheelCode n k hpc hm => exact absurd hcfg hm
  | search n k q era hpc =>
    obtain rfl : n = .one := hlabel
    exact h.search hpc hpool
  | command n r hpc =>
    obtain rfl : n = .one := hlabel
    have hwritten : (s.setTrig .one (.written r.kick)).CapacityInv a :=
      h.frameTrig (by simp) (by simp [awaited, hpc])
    exact hwritten.frame rfl rfl rfl hwritten.counting fun _ => id
  | done n k hpc =>
    obtain rfl : n = .one := hlabel
    exact h.frameTrig (by simp) (by simp [awaited, hpc])

end CapacityInv

/-- **The pool suffices.**  A run from a reset on never finds the pool empty, as long as there is
room for the spare results that have arrived; `hwhole` says that the reset did not fall into a
`cur_count_kt1++`. -/
theorem pool_suffices (cfg : SysConfig) (hcfg : cfg.kickMode = 0) (s₀ s : Sys) (a : Arrivals)
    (h0 : s₀.AfterReset) (hwhole : ∀ k c, s₀.trig .one = .counting k c → c = s₀.curCountKt1)
    (h : Reach (observed (step cfg) Arrivals.see)
      (fun p l => CountingStep p.1 l ∧ Room p.1 p.2 l)
      (s₀, { inTime := [], spare := [] }) (s, a)) : s.exited = false := by
  have hinv : s.CapacityInv a := by
    refine h.invariant (I := fun p => p.1.CapacityInv p.2) (.afterReset h0 hwhole) ?_
    rintro ⟨s, a⟩ l ⟨s', a'⟩ hI ⟨hcount, hroom⟩ hs
    obtain ⟨hs, rfl⟩ := observed_eq_some.1 hs
    exact hI.step hcfg hcount hroom (step_inv hs)
  exact hinv.exited

/-- The state after start-up is one in which a reset may have returned. -/
lemma afterReset_init (memory : Buffer → SampleArray) : (init memory).AfterReset where
  recv := rfl
  list := by rintro (_ | _) <;> rfl
  free := List.Perm.refl _
  exited := rfl
  accepted := rfl

/-- The sample with a count, for station 1. -/
def counted (count : UInt32) : SampleResult where
  result := Vector.replicate 8 0
  count := count
  wheelCode := 0
  pos := 1
  alarm := 0

/-- A product passes. -/
def product : List Label := .kick .one 0 :: List.replicate 7 (.trig .one)

/-- A result arrives. -/
def result (count : UInt32) : List Label := [.sample (counted count), .recv, .recv]

/-- A result in time and its product, and a late result. -/
def inTimeAndLate : List Label := result 1 ++ product ++ product ++ result 2

def atStart : Sys × Arrivals := (init zeroMemory, { inTime := [], spare := [] })

def afterInTimeAndLate : Sys × Arrivals :=
  (exec (observed (step SysConfig.default) Arrivals.see) atStart inTimeAndLate).getD atStart

theorem pool_suffices_inTimeAndLate : afterInTimeAndLate.1.exited = false :=
  pool_suffices SysConfig.default rfl (init zeroMemory) afterInTimeAndLate.1 afterInTimeAndLate.2
    (afterReset_init zeroMemory) (by simp [init])
    (reach_of_exec inTimeAndLate (by decide +kernel) (exec_getD (by decide +kernel) atStart))

/-- 129 products pass before their results arrive. -/
def allLate : List Label :=
  (List.replicate 129 product).flatten
    ++ (List.range 128).flatMap (fun i => result (UInt32.ofNat (i + 1)))
    ++ [.sample (counted 129), .recv]

def afterAllLate : Sys :=
  (exec (step SysConfig.default) (init zeroMemory) allLate).getD (init zeroMemory)

/-- The pool does not suffice for late results: the 129th of them ends the process, although no
product is still to come. -/
theorem late_results_exit : ¬ ∀ (cfg : SysConfig) (s₀ s : Sys), cfg.kickMode = 0 →
    s₀.AfterReset → Reach (step cfg) CountingStep s₀ s → s.exited = false := by
  intro h
  have hrun := h SysConfig.default (init zeroMemory) afterAllLate rfl (afterReset_init zeroMemory)
    (reach_of_exec allLate (by decide +kernel) (exec_getD (by decide +kernel) _))
  have hexit : afterAllLate.exited = true := by decide +kernel
  rw [hexit] at hrun
  cases hrun

end Sys

end RejectProcess
