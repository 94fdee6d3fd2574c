import RejectProcess.Sample.Conservation

/-!
# Commands, ejected samples and cleared samples

The history of a run is a ledger: the samples accepted for a station are those its task has
ejected, those that `clear_array` has removed and those still listed, each counted once, and
the commands of a station are the answers to its triggers, in order.
-/

namespace RejectProcess

open Lib

/-- The sample that a search task in this place has taken and not yet ejected. -/
def TrigPc.flight : TrigPc → List ℕ
  | .searched r => r.found.toList
  | _ => []

/-- The number of the message that a search task in this place has not yet answered. -/
def TrigPc.handling : TrigPc → List ℕ
  | .idle => []
  | .pended k => [k.num]
  | .counting k _ => [k.num]
  | .counted k => [k.num]
  | .searching k _ _ => [k.num]
  | .searched r => [r.kick.num]
  | .written _ => []

namespace Sys

/-! ## The ledger of a state -/

/-- The numbers of the samples that were accepted for station `n`. -/
def acceptedAt (s : Sys) (n : Station) : List ℕ :=
  (List.range s.hist.accepted.length).filter fun i =>
    (s.hist.accepted[i]?).any fun a => a.sample.pos == n.pos

/-- The sample that a search task has taken and not yet written a command for. -/
def inFlight (s : Sys) (n : Station) : List ℕ := (s.trig n).flight

/-- The sample a command ejects at station `n`, if it is one of that station. -/
def ejectedBy (n : Station) (c : Command) : Option ℕ :=
  if c.station = n then c.search.found else none

/-- The samples that station `n` has taken off its list, in order. -/
def taken (s : Sys) (n : Station) : List ℕ :=
  s.fifo.filterMap (ejectedBy n) ++ s.inFlight n

/-- The message that a search task is at work on, until it has written its command. -/
def inProgress (s : Sys) (n : Station) : List ℕ := (s.trig n).handling

/-- The numbers of the messages that station `n` has answered, in the order of the commands. -/
def answered (s : Sys) (n : Station) : List ℕ :=
  (s.fifo.filter fun c => c.station = n).map fun c => c.search.kick.num

/-- A search takes a sample that is listed and was not cleared. -/
def SearchOk (r : Search) : Prop :=
  ∀ i, r.found = some i → i ∈ r.listed ∧ i ∉ r.cleared

/-- A command goes to the register of its station and says whether its search took a sample. -/
structure CommandOk (c : Command) : Prop where
  reg : c.reg = c.station.comFifoReg
  val : c.val = if c.search.found.isSome then 1 else 0
  search : SearchOk c.search

/-- The invariant of the ledger. -/
structure Ledger (s : Sys) : Prop where
  pool : ∃ leaked, s.PoolInvUpTo leaked
  samples : ∀ n, (s.acceptedAt n).Perm (s.taken n ++ s.hist.cleared n ++ s.listed n)
  messages : ∀ n, s.answered n ++ s.inProgress n = List.range (s.hist.consumed n)
  waiting : ∀ n, (s.mbx n).map Kick.num = List.range' (s.hist.consumed n) (s.mbx n).length
  posted : ∀ n, s.hist.posted n = s.hist.consumed n + (s.mbx n).length
  commands : ∀ c ∈ s.fifo, CommandOk c
  found : ∀ n r, s.trig n = .searched r → SearchOk r

variable {cfg : SysConfig} {s s' : Sys} {l : Label}

lemma acceptedAt_nodup (s : Sys) (n : Station) : (s.acceptedAt n).Nodup :=
  List.nodup_range.filter _

lemma mem_acceptedAt {n : Station} {i : ℕ} :
    i ∈ s.acceptedAt n ↔ ∃ a, s.hist.accepted[i]? = some a ∧ a.sample.pos = n.pos := by
  simp only [acceptedAt, List.mem_filter, List.mem_range, Option.any_eq_true, beq_iff_eq]
  constructor
  · rintro ⟨-, a, ha, hpos⟩
    exact ⟨a, ha, hpos⟩
  · rintro ⟨a, ha, hpos⟩
    exact ⟨(List.getElem?_eq_some_iff.1 ha).1, a, ha, hpos⟩

lemma ledger_init (memory : Buffer → SampleArray) : Ledger (init memory) where
  pool := ⟨[], poolInv_init memory⟩
  samples := by
    intro n
    cases n <;>
      simp [acceptedAt, taken, inFlight, TrigPc.flight, listed, init, arrayBufInit, ArrayMem.list]
  messages := by
    intro n
    simp [answered, inProgress, TrigPc.handling, init]
  waiting := by
    intro n
    simp [init]
  posted := by
    intro n
    simp [init]
  commands := by simp [init]
  found := by simp [init]

/-! ## The steps of the ledger -/

/-- A step that leaves the lists, the commands, the samples and the mailboxes alone, and
neither takes up nor finishes a message, keeps the ledger. -/
lemma ledger_keep (h : Ledger s) (hpool : ∃ leaked, s'.PoolInvUpTo leaked)
    (hlist : ∀ n, s'.mem.list n = s.mem.list n) (hfifo : s'.fifo = s.fifo)
    (hnum : s'.hist.number = s.hist.number) (hacc : s'.hist.accepted = s.hist.accepted)
    (hclr : s'.hist.cleared = s.hist.cleared) (hmbx : s'.mbx = s.mbx)
    (hpost : s'.hist.posted = s.hist.posted) (hcons : s'.hist.consumed = s.hist.consumed)
    (hfly : ∀ n, s'.inFlight n = s.inFlight n) (hprog : ∀ n, s'.inProgress n = s.inProgress n)
    (hfound : ∀ n r, s'.trig n = .searched r → SearchOk r) : Ledger s' where
  pool := hpool
  samples := by
    intro n
    have := h.samples n
    simpa only [acceptedAt, taken, listed, hlist, hfifo, hnum, hacc, hclr, hfly] using this
  messages := by
    intro n
    simpa only [answered, hfifo, hprog, hcons] using h.messages n
  waiting := by rw [hmbx, hcons]; exact h.waiting
  posted := by rw [hmbx, hcons, hpost]; exact h.posted
  commands := by rw [hfifo]; exact h.commands
  found := hfound

@[simp] lemma setTrig_trig_self (n : Station) (pc : TrigPc) : (s.setTrig n pc).trig n = pc := by
  simp [setTrig]

lemma setTrig_trig_of_ne {n n' : Station} (pc : TrigPc) (h : n' ≠ n) :
    (s.setTrig n pc).trig n' = s.trig n' := by
  simp [setTrig, h]

/-- A property of the place of a search task that a move keeps there, it keeps everywhere. -/
lemma setTrig_congr {α : Type*} (f : TrigPc → α) {n : Station} {pc : TrigPc}
    (h : f pc = f (s.trig n)) (n' : Station) : f ((s.setTrig n pc).trig n') = f (s.trig n') := by
  by_cases hn : n' = n
  · subst hn
    simpa using h
  · rw [setTrig_trig_of_ne _ hn]

/-- A search task that moves without touching anything else keeps the ledger. -/
lemma ledger_setTrig (h : Ledger s) {n : Station} {pc : TrigPc}
    (hfly : pc.flight = (s.trig n).flight) (hprog : pc.handling = (s.trig n).handling)
    (hpc : ∀ r, pc ≠ .searched r) : Ledger (s.setTrig n pc) := by
  refine ledger_keep h h.pool (fun _ => rfl) rfl rfl rfl rfl rfl rfl rfl
    (setTrig_congr TrigPc.flight hfly) (setTrig_congr TrigPc.handling hprog) ?_
  intro n' r hr
  by_cases hn : n' = n
  · subst hn
    exact absurd (by simpa using hr) (hpc r)
  · rw [setTrig_trig_of_ne _ hn] at hr
    exact h.found n' r hr

/-- The interrupt task posts a trigger. -/
lemma ledger_post (h : Ledger s) (n : Station) (code : UInt64) : Ledger (s.post n code) where
  pool := h.pool
  samples := h.samples
  messages := h.messages
  waiting := by
    intro n'
    by_cases hn : n' = n
    · subst hn
      simp only [post, Function.update_self, List.map_append, List.map_cons, List.map_nil,
        List.length_append, List.length_singleton]
      rw [h.waiting n', h.posted n', List.range'_concat]
      simp
    · simpa [post, hn] using h.waiting n'
  posted := by
    intro n'
    by_cases hn : n' = n
    · subst hn
      simp [post, h.posted n', Nat.add_assoc]
    · simpa [post, hn] using h.posted n'
  commands := h.commands
  found := h.found

/-- A search task takes the first message of its mailbox. -/
lemma ledger_pend (h : Ledger s) {n : Station} {k : Kick} {rest : List Kick}
    (hpc : s.trig n = .idle) (hm : s.mbx n = k :: rest) : Ledger (s.pend n k rest) := by
  have hwait := h.waiting n
  rw [hm, List.map_cons, List.length_cons, List.range'_succ, List.cons.injEq] at hwait
  have hpost := h.posted n
  have hmsg := h.messages n
  refine ⟨h.pool, ?_, ?_, ?_, ?_, h.commands, ?_⟩
  · intro n'
    have hfly : (s.pend n k rest).inFlight n' = s.inFlight n' :=
      setTrig_congr TrigPc.flight (by simp [hpc, TrigPc.flight]) n'
    have hs := h.samples n'
    rw [taken, ← hfly] at hs
    exact hs
  · intro n'
    by_cases hn : n' = n
    · subst hn
      simp only [inProgress, hpc, TrigPc.handling, List.append_nil] at hmsg
      change s.answered n' ++ ((s.setTrig n' (.pended k)).trig n').handling
        = List.range (Function.update s.hist.consumed n' (s.hist.consumed n' + 1) n')
      rw [setTrig_trig_self, Function.update_self, List.range_succ, hmsg, ← hwait.1]
      rfl
    · change s.answered n' ++ ((s.setTrig n (.pended k)).trig n').handling
        = List.range (Function.update s.hist.consumed n (s.hist.consumed n + 1) n')
      rw [setTrig_trig_of_ne _ hn, Function.update_of_ne hn]
      exact h.messages n'
  · intro n'
    by_cases hn : n' = n
    · subst hn
      simpa [pend] using hwait.2
    · simpa [pend, hn] using h.waiting n'
  · intro n'
    by_cases hn : n' = n
    · subst hn
      rw [hm, List.length_cons] at hpost
      simp only [pend, setTrig, Function.update_self]
      omega
    · simpa [pend, hn, setTrig] using h.posted n'
  · intro n' r hr
    by_cases hn : n' = n
    · subst hn
      simp [pend] at hr
    · simp only [pend, setTrig_trig_of_ne _ hn] at hr
      exact h.found n' r hr

/-- The numbers of the listed samples after a buffer that no list holds is renumbered. -/
lemma map_number_update {l : List Buffer} {buf : Buffer} (h : buf ∉ l) (i : ℕ) :
    l.map (Function.update s.hist.number buf i) = l.map s.hist.number := by
  refine List.map_congr_left ?_
  intro b hb
  rw [Function.update_of_ne]
  rintro rfl
  exact h hb

/-- A sample in hand joins the list that its `pos` names, under the next number. -/
lemma listed_link {r : SampleResult} {buf : Buffer} (hbuf : ∀ n, buf ∉ s.mem.list n)
    (n : Station) : (s.link r buf).listed n =
      s.listed n ++ if r.pos = n.pos then [s.hist.accepted.length] else [] := by
  change List.map (Function.update s.hist.number buf s.hist.accepted.length)
    ((linkSample r buf s.mem).list n) = _
  cases hst : stationOf r.pos with
  | none =>
    have hne : r.pos ≠ n.pos := by
      intro hpos
      rw [hpos, stationOf_pos] at hst
      simp at hst
    rw [linkSample_of_none hst, ArrayMem.list_setBuf, map_number_update (hbuf n), if_neg hne]
    simp [listed]
  | some n' =>
    rw [linkSample_of_pos (stationOf_eq_some.1 hst)]
    by_cases hn : n = n'
    · subst hn
      rw [ArrayMem.list_setList_self, List.map_append, map_number_update (hbuf n),
        if_pos (stationOf_eq_some.1 hst)]
      simp [listed]
    · have hne : r.pos ≠ n.pos := by
        intro hpos
        rw [hpos, stationOf_pos] at hst
        exact hn (by simpa using hst)
      rw [ArrayMem.list_setList_of_ne _ _ hn, ArrayMem.list_setBuf,
        map_number_update (hbuf n), if_neg hne]
      simp [listed]

/-- A buffer in hand is in no list. -/
lemma Ledger.hand_not_mem (h : Ledger s) {r : SampleResult} {buf : Buffer}
    (hr : s.recv = .link r buf) (n : Station) : buf ∉ s.mem.list n := by
  obtain ⟨leaked, hinv⟩ := h.pool
  have hinv' : PoolInv s.mem (buf :: leaked) := by simpa [PoolInvUpTo, hand, hr] using hinv
  intro hb
  exact (hinv'.not_mem_of_mem_list hb).2.1 (by simp)

/-- `write_array` accepts a sample: it gets the next number and joins the list it names. -/
lemma ledger_link (h : Ledger s) {r : SampleResult} {buf : Buffer} (hr : s.recv = .link r buf)
    (hpool : ∃ leaked, (s.link r buf).PoolInvUpTo leaked) : Ledger (s.link r buf) := by
  refine ⟨hpool, ?_, h.messages, h.waiting, h.posted, h.commands, h.found⟩
  intro n
  have hacc : (s.link r buf).acceptedAt n =
      s.acceptedAt n ++ if r.pos = n.pos then [s.hist.accepted.length] else [] := by
    simp only [acceptedAt, Sys.link, List.length_append, List.length_singleton, List.range_succ,
      List.filter_append]
    congr 1
    -- the samples accepted before keep their numbers
    · refine List.filter_congr ?_
      intro i hi
      rw [List.getElem?_append_left (List.mem_range.1 hi)]
    · by_cases hpos : r.pos = n.pos <;> simp [hpos]
  rw [hacc, listed_link (h.hand_not_mem hr) n, ← List.append_assoc]
  exact (h.samples n).append_right _

/-- Clearing a list leaves it empty and the other as it was. -/
lemma Ledger.listed_clear (h : Ledger s) (n n' : Station) (pc : RecvPc) :
    (s.clear n pc).listed n' = if n' = n then [] else s.listed n' := by
  obtain ⟨leaked, hinv⟩ := h.pool
  change List.map s.hist.number ((clearLocked n s.mem).list n') = _
  rw [clearLocked_eq hinv]
  by_cases hn : n' = n
  · subst hn
    simp
  · simp [hn, ArrayMem.list_setList_of_ne _ _ hn, listed]

/-- `clear_array` empties one list: its samples are cleared. -/
lemma ledger_clear (h : Ledger s) {n : Station} {pc : RecvPc}
    (hpool : ∃ leaked, (s.clear n pc).PoolInvUpTo leaked) : Ledger (s.clear n pc) := by
  refine ⟨hpool, ?_, h.messages, h.waiting, h.posted, h.commands, h.found⟩
  intro n'
  have hs := h.samples n'
  have hclr : (s.clear n pc).hist.cleared n' =
      s.hist.cleared n' ++ if n' = n then s.listed n' else [] := by
    by_cases hn : n' = n
    · subst hn
      simp [clear]
    · simp [clear, hn]
  rw [h.listed_clear, hclr]
  change (s.acceptedAt n').Perm (s.taken n' ++ _ ++ _)
  by_cases hn : n' = n
  · simpa [hn] using hs
  · simpa [hn] using hs

/-- A search leaves the other list alone, and what it finds is what its own list loses. -/
lemma listed_search (cfg : SysConfig) (s : Sys) (n : Station) (q : Query) :
    (∀ n' ≠ n, (searchLocked (q.test cfg n) n s.mem).2.list n' = s.mem.list n') ∧
      (s.listed n).Perm
        (((searchLocked (q.test cfg n) n s.mem).1.map s.hist.number).toList ++
          ((searchLocked (q.test cfg n) n s.mem).2.list n).map s.hist.number) := by
  cases hs : searchLocked (q.test cfg n) n s.mem with
  | mk found m =>
    cases found with
    | none =>
      obtain ⟨-, rfl⟩ := searchLocked_none hs
      exact ⟨fun _ _ => rfl, by simp [listed]⟩
    | some p =>
      obtain ⟨hfind, rfl⟩ := searchLocked_some hs
      constructor
      · intro n' hn
        rw [list_recycleRecord, ArrayMem.list_setList_of_ne _ _ hn]
      · have hp := List.mem_of_find?_eq_some hfind
        simpa [listed] using (List.perm_cons_erase hp).map s.hist.number

/-- The sample that a search finds goes from the list of its station to the flight. -/
lemma samples_search (h : Ledger s) {n : Station} {k : Kick} {q : Query} {era : ℕ}
    (hpc : s.trig n = .searching k q era) (n' : Station) : (s.acceptedAt n').Perm
      ((s.search cfg n k q era).taken n' ++ s.hist.cleared n' ++
        (s.search cfg n k q era).listed n') := by
  have hfly : s.inFlight n = [] := by simp [inFlight, hpc, TrigPc.flight]
  obtain ⟨hother, hthis⟩ := listed_search cfg s n q
  by_cases hn : n' = n
  · subst hn
    have hfly' : (s.search cfg n' k q era).inFlight n' =
        ((searchLocked (q.test cfg n') n' s.mem).1.map s.hist.number).toList := by
      simp [inFlight, search, TrigPc.flight]
    have hl : (s.search cfg n' k q era).listed n' =
        ((searchLocked (q.test cfg n') n' s.mem).2.list n').map s.hist.number := rfl
    have ht : (s.search cfg n' k q era).taken n' = s.taken n' ++
        ((searchLocked (q.test cfg n') n' s.mem).1.map s.hist.number).toList := by
      simp only [taken, hfly', hfly, List.append_nil]
      rfl
    rw [hl, ht]
    refine (h.samples n').trans ((List.Perm.append_left _ hthis).trans ?_)
    simp only [List.append_assoc]
    exact List.Perm.append_left _ (by
      simpa only [List.append_assoc] using List.perm_append_comm.append_right _)
  · have hfly' : (s.search cfg n k q era).inFlight n' = s.inFlight n' := by
      simp only [inFlight, search]
      rw [setTrig_trig_of_ne _ hn]
    have hl : (s.search cfg n k q era).listed n' = s.listed n' := by
      change ((searchLocked (q.test cfg n) n s.mem).2.list n').map s.hist.number = _
      rw [hother n' hn]
      rfl
    have := h.samples n'
    rw [taken, ← hfly', ← hl] at this
    exact this

/-- It was in the list, and so it has not been cleared. -/
lemma found_search (h : Ledger s) {n : Station} {q : Query} {i : ℕ}
    (hi : (searchLocked (q.test cfg n) n s.mem).1.map s.hist.number = some i) :
    i ∈ s.listed n ∧ i ∉ s.hist.cleared n := by
  have hnd : (s.taken n ++ s.hist.cleared n ++ s.listed n).Nodup :=
    (h.samples n).nodup_iff.1 (s.acceptedAt_nodup n)
  have hil : i ∈ s.listed n := by
    rw [(listed_search cfg s n q).2.mem_iff, hi]
    simp
  refine ⟨hil, fun hc => ?_⟩
  exact (List.nodup_append.1 hnd).2.2 i (List.mem_append_right _ hc) i hil rfl

/-- A search takes the sample it finds off the list and keeps it in flight. -/
lemma ledger_search (h : Ledger s) {n : Station} {k : Kick} {q : Query} {era : ℕ}
    (hpc : s.trig n = .searching k q era)
    (hpool : ∃ leaked, (s.search cfg n k q era).PoolInvUpTo leaked) :
    Ledger (s.search cfg n k q era) := by
  have hprog : ∀ n', (s.search cfg n k q era).inProgress n' = s.inProgress n' :=
    setTrig_congr TrigPc.handling (by simp [hpc, TrigPc.handling])
  refine ⟨hpool, samples_search h hpc, ?_, h.waiting, h.posted, h.commands, ?_⟩
  · intro n'
    rw [hprog]
    exact h.messages n'
  · intro n' r hr
    by_cases hn : n' = n
    · subst hn
      obtain rfl : _ = r := by simpa [search] using hr
      exact fun i hi => found_search h hi
    · exact h.found n' r (by simpa [search, setTrig_trig_of_ne _ hn] using hr)

/-- A search task writes its command: the sample in flight is ejected, the message answered. -/
lemma ledger_command (h : Ledger s) {n : Station} {r : Search} (hpc : s.trig n = .searched r) :
    Ledger (s.command n r) := by
  have htrig : ∀ n' ≠ n, (s.command n r).trig n' = s.trig n' :=
    fun n' hn => setTrig_trig_of_ne (.written r.kick) hn
  have hself : (s.command n r).trig n = .written r.kick := setTrig_trig_self n (.written r.kick)
  refine ⟨h.pool, ?_, ?_, h.waiting, h.posted, ?_, ?_⟩
  · intro n'
    have ht : (s.command n r).taken n' = s.taken n' := by
      by_cases hn : n' = n
      · subst hn
        -- the sample in flight becomes the one that the command ejects
        simp only [taken, inFlight, hself, hpc, TrigPc.flight, List.append_nil]
        simp only [command, List.filterMap_append]
        cases hf : r.found <;> simp [ejectedBy, hf]
      · simp only [taken, inFlight, htrig n' hn]
        simp [command, ejectedBy, Ne.symm hn]
    have := h.samples n'
    rw [← ht] at this
    exact this
  · intro n'
    have hmsg := h.messages n'
    by_cases hn : n' = n
    · subst hn
      simp only [inProgress, hpc, TrigPc.handling] at hmsg
      simp only [inProgress, hself, TrigPc.handling, List.append_nil]
      rw [show (s.command n' r).hist.consumed n' = s.hist.consumed n' from rfl, ← hmsg]
      simp [answered, command]
    · simp only [inProgress, htrig n' hn]
      rw [show (s.command n r).hist.consumed n' = s.hist.consumed n' from rfl, ← hmsg]
      simp [answered, command, Ne.symm hn, inProgress]
  · intro c hc
    rcases List.mem_append.1 hc with hc | hc
    · exact h.commands c hc
    · obtain rfl : c = _ := by simpa using hc
      exact ⟨rfl, rfl, h.found n r hpc⟩
  · intro n' r' hr
    by_cases hn : n' = n
    · subst hn
      rw [hself] at hr
      simp at hr
    · rw [htrig n' hn] at hr
      exact h.found n' r' hr

/-- Every step keeps the ledger. -/
lemma ledger_step (h : Ledger s) (hs : Step cfg s l s') : Ledger s' := by
  obtain ⟨leaked, hinv⟩ := h.pool
  obtain ⟨lost, hinv', -⟩ := poolInv_step hinv hs
  have hpool : ∃ leaked, s'.PoolInvUpTo leaked := ⟨_, hinv'⟩
  -- the steps of the receive task that only move its program counter or the counter
  have keep : ∀ s₁ : Sys, (∃ leaked, s₁.PoolInvUpTo leaked) → (∀ n, s₁.mem.list n = s.mem.list n) →
      s₁.fifo = s.fifo → s₁.hist.number = s.hist.number → s₁.hist.accepted = s.hist.accepted →
      s₁.hist.cleared = s.hist.cleared → s₁.mbx = s.mbx → s₁.hist.posted = s.hist.posted →
      s₁.hist.consumed = s.hist.consumed → s₁.trig = s.trig → Ledger s₁ := by
    intro s₁ hp hl hf hn ha hc hm hpo hco ht
    refine ledger_keep h hp hl hf hn ha hc hm hpo hco ?_ ?_ ?_
    · intro n
      rw [inFlight, ht, inFlight]
    · intro n
      rw [inProgress, ht, inProgress]
    · rw [ht]
      exact h.found
  cases hs with
  | skip r hr hp => exact h
  | sample r hr hp => exact keep _ hpool (fun _ => rfl) rfl rfl rfl rfl rfl rfl rfl rfl
  | reset hr => exact keep _ hpool (fun _ => rfl) rfl rfl rfl rfl rfl rfl rfl rfl
  | crash r hr hp => exact keep _ hpool (fun _ => rfl) rfl rfl rfl rfl rfl rfl rfl rfl
  | produce r buf f hr hp =>
    exact keep _ hpool (fun n => by simp [produced]) rfl rfl rfl rfl rfl rfl rfl rfl
  | link r buf hr => exact ledger_link h hr hpool
  | zero hr => exact keep _ hpool (fun _ => rfl) rfl rfl rfl rfl rfl rfl rfl rfl
  | clear1 hr => exact ledger_clear h hpool
  | clear2 hr => exact ledger_clear h hpool
  | reply hr => exact keep _ hpool (fun _ => rfl) rfl rfl rfl rfl rfl rfl rfl rfl
  | finish hr => exact keep _ hpool (fun _ => rfl) rfl rfl rfl rfl rfl rfl rfl rfl
  | kick n code => exact ledger_post h n code
  | pend n k rest hpc hm => exact ledger_pend h hpc hm
  | readCount k hpc =>
    exact ledger_setTrig h (by simp [hpc, TrigPc.flight]) (by simp [hpc, TrigPc.handling]) (by simp)
  | call2 k hpc =>
    exact ledger_setTrig h (by simp [hpc, TrigPc.flight]) (by simp [hpc, TrigPc.handling]) (by simp)
  | countUp n k cur hpc =>
    have hset : Ledger (s.setTrig n (.counted k)) :=
      ledger_setTrig h (by simp [hpc, TrigPc.flight]) (by simp [hpc, TrigPc.handling]) (by simp)
    exact ⟨hpool, hset.samples, hset.messages, hset.waiting, hset.posted, hset.commands, hset.found⟩
  | callCount n k hpc hm =>
    exact ledger_setTrig h (by simp [hpc, TrigPc.flight]) (by simp [hpc, TrigPc.handling]) (by simp)
  | callWheelCode n k hpc hm =>
    exact ledger_setTrig h (by simp [hpc, TrigPc.flight]) (by simp [hpc, TrigPc.handling]) (by simp)
  | search n k q era hpc => exact ledger_search h hpc hpool
  | command n r hpc => exact ledger_command h hpc
  | done n k hpc =>
    exact ledger_setTrig h (by simp [hpc, TrigPc.flight]) (by simp [hpc, TrigPc.handling]) (by simp)

/-- The ledger is kept in every run. -/
lemma ledger_reach {memory : Buffer → SampleArray} {ok : Sys → Label → Prop}
    (h : Reach (step cfg) ok (init memory) s) : Ledger s :=
  h.invariant (ledger_init memory) fun _ _ _ hl _ hs => ledger_step hl (step_inv hs)

/-! ## What the ledger says -/

/-- The commands that a station's task wrote for its message number `i`. -/
def commandsFor (s : Sys) (n : Station) (i : ℕ) : List Command :=
  s.fifo.filter fun c => c.station = n ∧ c.search.kick.num = i

/-- The 1-commands in the register of a station. -/
def ejections (s : Sys) (n : Station) : List Command :=
  s.fifo.filter fun c => c.reg = n.comFifoReg ∧ c.val = 1

lemma comFifoReg_inj {n n' : Station} (h : n.comFifoReg = n'.comFifoReg) : n = n' := by
  cases n <;> cases n' <;> first | rfl | exact absurd h (by decide)

/-- A message that has been answered has one command, to the register of its station. -/
lemma commandsFor_answered (h : Ledger s) {n : Station} {i : ℕ} (hi : i < s.hist.consumed n)
    (hp : i ∉ s.inProgress n) :
    ∃ c, s.commandsFor n i = [c] ∧ c.reg = n.comFifoReg := by
  have hmsg := h.messages n
  have hmem : i ∈ s.answered n := by
    have : i ∈ s.answered n ++ s.inProgress n := by rw [hmsg]; simpa using hi
    exact (List.mem_append.1 this).resolve_right hp
  have hnd : (s.answered n).Nodup := by
    have : (s.answered n ++ s.inProgress n).Nodup := by rw [hmsg]; exact List.nodup_range
    exact (List.nodup_append.1 this).1
  -- the answered messages are distinct, so one command is for this one
  have hlen : (s.commandsFor n i).length = 1 := by
    have hcount := List.count_eq_one_of_mem hnd hmem
    rw [answered, List.count_eq_length_filter, List.filter_map, List.length_map,
      List.filter_filter] at hcount
    rw [← hcount, commandsFor]
    congr 1
    refine List.filter_congr ?_
    intro c _
    by_cases h1 : c.station = n <;> by_cases h2 : c.search.kick.num = i <;> simp [h1, h2]
  obtain ⟨c, hc⟩ := List.length_eq_one_iff.1 hlen
  have hcm : c ∈ s.commandsFor n i := by simp [hc]
  simp only [commandsFor, List.mem_filter, decide_eq_true_eq] at hcm
  refine ⟨c, hc, ?_⟩
  rw [(h.commands c hcm.1).reg, hcm.2.1]

lemma val_eq_one_iff {c : Command} (h : CommandOk c) : c.val = 1 ↔ c.search.found.isSome := by
  rw [h.val]
  split <;> simp_all

/-- The samples that the 1-commands of a station eject, in order. -/
lemma ejections_map (h : Ledger s) (n : Station) :
    (s.ejections n).map (fun c => c.search.found) = (s.fifo.filterMap (ejectedBy n)).map some := by
  have key : ∀ l : List Command, (∀ c ∈ l, CommandOk c) →
      (l.filter fun c => c.reg = n.comFifoReg ∧ c.val = 1).map (fun c => c.search.found)
        = (l.filterMap (ejectedBy n)).map some := by
    intro l
    induction l with
    | nil => simp
    | cons c l ih =>
      intro hl
      have hc := hl c (by simp)
      have ih' := ih fun c' hc' => hl c' (List.mem_cons_of_mem _ hc')
      have hreg : c.reg = n.comFifoReg ↔ c.station = n := by
        rw [hc.reg]
        exact ⟨comFifoReg_inj, fun h => by rw [h]⟩
      -- a 1-command is one whose search has found a sample
      by_cases hn : c.station = n
      · cases hf : c.search.found with
        | none =>
          have hv : ¬ c.val = 1 := by simp [val_eq_one_iff hc, hf]
          simpa [List.filter_cons, hreg, hn, hv, ejectedBy, hf] using ih'
        | some i =>
          have hv : c.val = 1 := by simp [val_eq_one_iff hc, hf]
          simpa [List.filter_cons, hreg, hn, hv, ejectedBy, hf] using ih'
      · simpa [List.filter_cons, hreg, hn, ejectedBy] using ih'
  exact key s.fifo h.commands

/-- A message that is in progress has no command. -/
lemma commandsFor_inProgress (h : Ledger s) {n : Station} {i : ℕ} (hi : i ∈ s.inProgress n) :
    s.commandsFor n i = [] := by
  have hnd : (s.answered n ++ s.inProgress n).Nodup := by
    rw [h.messages]
    exact List.nodup_range
  rw [commandsFor, List.filter_eq_nil_iff]
  intro c hc hci
  simp only [decide_eq_true_eq] at hci
  have hmem : i ∈ s.answered n :=
    List.mem_map.2 ⟨c, List.mem_filter.2 ⟨hc, by simp [hci.1]⟩, hci.2⟩
  exact (List.nodup_append.1 hnd).2.2 i hmem i hi rfl

/-- A command answers a message that was consumed. -/
lemma kick_lt_consumed (h : Ledger s) {c : Command} (hc : c ∈ s.fifo) :
    c.search.kick.num < s.hist.consumed c.station := by
  have hmem : c.search.kick.num ∈ s.answered c.station :=
    List.mem_map_of_mem (List.mem_filter.2 ⟨hc, by simp⟩)
  have hr : c.search.kick.num ∈ List.range (s.hist.consumed c.station) := by
    rw [← h.messages]
    exact List.mem_append_left _ hmem
  exact List.mem_range.1 hr

/-- A sample is accepted once, so it is ejected at most once. -/
lemma ejected_nodup (h : Ledger s) (n : Station) : (s.fifo.filterMap (ejectedBy n)).Nodup := by
  have hnd := (h.samples n).nodup_iff.1 (s.acceptedAt_nodup n)
  exact (List.nodup_append.1 (List.nodup_append.1 (List.nodup_append.1 hnd).1).1).1

/-- A 1-command ejects a sample that was accepted for its station. -/
lemma ejected_accepted (h : Ledger s) {n : Station} {c : Command} (hc : c ∈ s.ejections n) :
    ∃ i, c.search.found = some i ∧ i ∈ s.acceptedAt n := by
  have hfound : c.search.found ∈ (s.ejections n).map fun c => c.search.found :=
    List.mem_map_of_mem hc
  rw [ejections_map h, List.mem_map] at hfound
  obtain ⟨i, hi, he⟩ := hfound
  refine ⟨i, he.symm, ?_⟩
  rw [(h.samples n).mem_iff]
  simp only [taken, List.mem_append]
  exact .inl (.inl (.inl hi))

lemma inFlight_of_quiescent (hq : s.Quiescent) (n : Station) : s.inFlight n = [] := by
  have hs : (s.trig n).inSearch = false := by
    cases n
    · exact hq.2.1
    · exact hq.2.2
  unfold inFlight
  cases hpc : s.trig n <;> simp_all [TrigPc.inSearch, TrigPc.flight]

/-- What the history of a run shows about commands and samples. -/
structure Accounted (s : Sys) : Prop where
  /-- A consumed message that is no longer in progress has caused one write, to the register of
  its station. -/
  once : ∀ n i, i < s.hist.consumed n → i ∉ s.inProgress n →
    ∃ c, s.commandsFor n i = [c] ∧ c.reg = n.comFifoReg
  /-- A message still in progress has caused none. -/
  notYet : ∀ n, ∀ i ∈ s.inProgress n, s.commandsFor n i = []
  /-- Every write was caused by a consumed message of the station whose register it is. -/
  caused : ∀ c ∈ s.fifo, c.search.kick.num < s.hist.consumed c.station ∧
    c.reg = c.station.comFifoReg ∧ (c.val = 0 ∨ c.val = 1)
  /-- A 1-command of station `n` ejects a sample that was accepted with the `pos` of `n`, was in
  list `n` at the search and had not been cleared. -/
  ejects : ∀ n, ∀ c ∈ s.ejections n, ∃ i a, c.search.found = some i ∧
    s.hist.accepted[i]? = some a ∧ a.sample.pos = n.pos ∧
    i ∈ c.search.listed ∧ i ∉ c.search.cleared
  /-- No sample is ejected twice. -/
  injective : ∀ n, ((s.ejections n).map fun c => c.search.found).Nodup
  /-- With no operation in progress, every accepted sample is ejected, cleared or listed. -/
  balance : s.Quiescent → ∀ n, (s.acceptedAt n).length =
    (s.ejections n).length + (s.hist.cleared n).length + (s.mem.list n).length

/-- **One command for each trigger, one ejection for each sample.**  In every run, in either
kick mode, with any samples, triggers and resets in any order. -/
theorem commands_accounted {memory : Buffer → SampleArray}
    (h : Reach (step cfg) AnyStep (init memory) s) : Accounted s := by
  have hl := ledger_reach h
  refine ⟨fun n i hi hp => commandsFor_answered hl hi hp,
    fun n i hi => commandsFor_inProgress hl hi, ?_, ?_, ?_, ?_⟩
  · intro c hc
    have hok := hl.commands c hc
    refine ⟨kick_lt_consumed hl hc, hok.reg, ?_⟩
    rw [hok.val]
    split <;> simp
  · intro n c hc
    obtain ⟨i, hi, hacc⟩ := ejected_accepted hl hc
    obtain ⟨a, ha, hpos⟩ := mem_acceptedAt.1 hacc
    have hcm := (List.mem_filter.1 hc).1
    exact ⟨i, a, hi, ha, hpos, (hl.commands c hcm).search i hi⟩
  · intro n
    rw [ejections_map hl]
    exact (ejected_nodup hl n).map (Option.some_injective _)
  · intro hq n
    have hlen := (hl.samples n).length_eq
    have hej := congrArg List.length (ejections_map hl n)
    simp only [List.length_map] at hej
    simpa [taken, inFlight_of_quiescent hq, hej, listed, Nat.add_assoc] using hlen

/-- One sample for station 1 and one trigger, up to the end of the trigger's handling. -/
def oneEjection : List Label :=
  [.sample (frame 1), .recv, .recv, .kick .one 0] ++ List.replicate 7 (.trig .one)

/-- The state after `oneEjection`. -/
def afterEjection : Sys :=
  (exec (step SysConfig.default) (init zeroMemory) oneEjection).getD (init zeroMemory)

theorem commands_accounted_afterEjection : Accounted afterEjection :=
  commands_accounted <| show Reach (step SysConfig.default) AnyStep (init zeroMemory) _ from
    reach_any oneEjection rfl

/-- The trigger of that run ejects the sample. -/
example : afterEjection.fifo.map (fun c => (c.reg, c.val, c.search.found)) =
    [(fpgaCom1FifoReg, 1, some 0)] := by decide +kernel

end Sys

end RejectProcess
