import RejectProcess.Sample.Conservation
import RejectProcess.Sample.Reject

/-!
# The tasks refine the reject process without buffers

Seen through `Sys.view`, every step of the tasks is a step of the abstract machine, and where the
tasks cannot move the machine cannot either.  So what the program does to the samples, and when it
runs out of buffers, does not depend on which buffers the pool hands out, on the content of their
memory, or on what an earlier use has left in them.
-/

namespace RejectProcess

open Lib

/-! ## Lists of buffers and lists of samples -/

/-- The first buffer whose sample passes a test is the buffer of the first sample that does. -/
lemma map_erase_of_find? {m : ArrayMem} {test : SampleResult → Bool} {l : List Buffer} {p : Buffer}
    (h : l.find? (fun b => test (m.sample b)) = some p) :
    (l.erase p).map m.sample = (l.map m.sample).eraseP test := by
  induction l with
  | nil => simp at h
  | cons b l ih =>
    by_cases hb : test (m.sample b) = true
    · obtain rfl : b = p := by simpa [hb] using h
      simp [hb]
    · have hf : l.find? (fun b => test (m.sample b)) = some p := by simpa [hb] using h
      have hne : b ≠ p := by
        rintro rfl
        exact hb (by simpa using List.find?_some hf)
      rw [List.erase_cons_tail (by simpa using hne), List.map_cons, List.map_cons,
        List.eraseP_cons_of_neg hb, ih hf]

lemma any_map_sample {m : ArrayMem} {test : SampleResult → Bool} {l : List Buffer} :
    (l.map m.sample).any test = (l.find? fun b => test (m.sample b)).isSome := by
  rw [List.any_map, Bool.eq_iff_iff, List.any_eq_true, List.find?_isSome]
  rfl

lemma length_free_clearLoop (m : ArrayMem) (l : List Buffer) :
    (clearLoop m l).sampleBuf.list.length = m.sampleBuf.list.length + l.length := by
  induction l generalizing m with
  | nil => rfl
  | cons p l ih =>
    rw [clearLoop, ih, free_recycleRecord]
    simp only [List.length_append, List.length_cons, List.length_nil]
    omega

lemma list_clearLoop (m : ArrayMem) (l : List Buffer) (n : Station) :
    (clearLoop m l).list n = m.list n := by
  induction l generalizing m with
  | nil => rfl
  | cons p l ih => rw [clearLoop, ih, list_recycleRecord]

lemma sample_clearLoop (m : ArrayMem) (l : List Buffer) : (clearLoop m l).sample = m.sample := by
  induction l generalizing m with
  | nil => rfl
  | cons p l ih =>
    rw [clearLoop, ih]
    rfl

/-- What is seen of each station, after one of them has changed. -/
lemma view_update {α β : Type*} (f : α → β) (g : Station → α) (n : Station) (a : α) :
    (fun n' => f (Function.update g n a n')) = Function.update (fun n' => f (g n')) n (f a) :=
  Function.comp_update f g n a

namespace Sys

variable {cfg : SysConfig} {s : Sys} {leaked : List Buffer}

@[simp] lemma view_setTrig (s : Sys) (n : Station) (pc : TrigPc) :
    (s.setTrig n pc).view = s.view.setTrig n pc.view := by
  ext1
  case trig => exact view_update TrigPc.view s.trig n pc
  all_goals rfl

lemma view_post (s : Sys) (n : Station) (code : UInt64) :
    (s.post n code).view = s.view.post n code := by
  ext1
  case mbx =>
    refine (view_update (List.map Kick.code) s.mbx n _).trans ?_
    rw [List.map_append]
    rfl
  all_goals rfl

lemma view_pend (s : Sys) (n : Station) (k : Kick) (rest : List Kick) :
    (s.pend n k rest).view = s.view.pend n k.code (rest.map Kick.code) := by
  ext1
  case trig => exact view_update TrigPc.view s.trig n (.pended k)
  case mbx => exact view_update (List.map Kick.code) s.mbx n rest
  all_goals rfl

/-- A search in the list of buffers is the search among the samples. -/
lemma view_search (s : Sys) (n : Station) (k : Kick) (q : Query) (era : ℕ) :
    (s.search cfg n k q era).view = s.view.search cfg n q := by
  have hany : (s.view.waiting n).any (q.test cfg n) =
      ((s.mem.list n).find? fun b => q.test cfg n (s.mem.sample b)).isSome := any_map_sample
  rw [Reject.search, hany, search, searchLocked, searchLoop_eq_find?]
  cases hf : (s.mem.list n).find? fun b => q.test cfg n (s.mem.sample b) with
  | none =>
    ext1
    case trig => exact view_update TrigPc.view s.trig n _
    all_goals rfl
  | some p =>
    ext1
    case trig => exact view_update TrigPc.view s.trig n _
    case room =>
      change (recycleRecord _ _).sampleBuf.list.length = _
      rw [free_recycleRecord, ArrayMem.sampleBuf_setList, List.length_append]
      rfl
    case waiting =>
      have hlist : (recycleRecord (s.mem.setList n ((s.mem.list n).erase p))
          (s.mem.sampleBuf.memory p)).list =
            Function.update s.mem.list n ((s.mem.list n).erase p) := by
        funext n'
        rw [list_recycleRecord, ArrayMem.list_setList]
      change (fun n' => List.map (recycleRecord _ _).sample ((recycleRecord _ _).list n')) = _
      rw [hlist, view_update (List.map _)]
      have hsample : (recycleRecord (s.mem.setList n ((s.mem.list n).erase p))
          (s.mem.sampleBuf.memory p)).sample = s.mem.sample :=
        ArrayMem.sample_setList s.mem n _
      rw [hsample, map_erase_of_find? hf]
      rfl
    all_goals rfl

lemma view_command (s : Sys) (n : Station) (r : Search) :
    (s.command n r).view = s.view.command n r.found.isSome := by
  ext1
  case trig => exact view_update TrigPc.view s.trig n (.written r.kick)
  case fifo => exact List.map_append
  all_goals rfl

lemma view_wheelCode (s : Sys) (n : Station) (k : Kick) :
    s.view.wheelCode n k.code = s.wheelCode n k := by
  change ((s.mbx n).map Kick.code).getLast?.getD k.code = ((s.mbx n).getLast?.getD k).code
  rw [List.getLast?_map]
  cases (s.mbx n).getLast? <;> rfl

lemma view_stepTrig (s : Sys) (n : Station) :
    (s.stepTrig cfg n).map view = s.view.stepTrig cfg n := by
  have htrig : s.view.trig n = (s.trig n).view := rfl
  rw [stepTrig, Reject.stepTrig, htrig]
  cases hpc : s.trig n with
  | idle =>
    have hmbx : s.view.mbx n = (s.mbx n).map Kick.code := rfl
    simp only [TrigPc.view, hmbx]
    cases hm : s.mbx n with
    | nil => rfl
    | cons k rest => exact congrArg some (view_pend s n k rest)
  | pended k =>
    cases n with
    | one => exact congrArg some (view_setTrig s .one _)
    | two =>
      simp only [TrigPc.view, view_wheelCode, Option.map_some]
      exact congrArg some (view_setTrig s .two _)
  | counting k cur =>
    refine congrArg some ?_
    ext1
    case trig => exact view_update TrigPc.view s.trig n (.counted k)
    all_goals rfl
  | counted k =>
    simp only [TrigPc.view, view_wheelCode]
    split
    · exact congrArg some (view_setTrig s n _)
    · exact congrArg some (view_setTrig s n _)
  | searching k q era => exact congrArg some (view_search s n k q era)
  | searched r => exact congrArg some (view_command s n r)
  | written k => exact congrArg some (view_setTrig s n .idle)

lemma view_recv_eq_idle : s.view.recv = .idle ↔ s.recv = .idle := by
  change s.recv.view = _ ↔ _
  cases s.recv <;> simp [RecvPc.view]

/-- The buffer in the hands of the receive task is in no list, so filling it changes no waiting
sample. -/
lemma view_link (h : s.PoolInvUpTo leaked) {r : SampleResult} {buf : Buffer}
    (hr : s.recv = .link r buf) : (s.link r buf).view = s.view.link r := by
  have hinv : PoolInv s.mem (buf :: leaked) := by simpa [PoolInvUpTo, hand, hr] using h
  have hstore : ∀ n, (s.mem.list n).map
      (s.mem.setBuf (s.mem.sampleBuf.store buf { sample := r, buf := buf })).sample =
        (s.mem.list n).map s.mem.sample := by
    intro n
    refine List.map_congr_left fun b hb => ?_
    have hne : b ≠ buf := by
      rintro rfl
      exact (hinv.not_mem_of_mem_list hb).2.1 List.mem_cons_self
    rw [ArrayMem.sample, ArrayMem.sampleBuf_setBuf, BufferFactory.store_memory_of_ne _ _ hne]
    rfl
  ext1
  case waiting =>
    change (fun n => List.map (linkSample r buf s.mem).sample ((linkSample r buf s.mem).list n)) = _
    cases hn : stationOf r.pos with
    | none =>
      rw [linkSample_of_none hn]
      simp only [Reject.link, hn, ArrayMem.list_setBuf, hstore]
      rfl
    | some n =>
      rw [linkSample_of_pos (stationOf_eq_some.1 hn), ArrayMem.list_setList,
        ArrayMem.sample_setList]
      refine (view_update (List.map _) _ n _).trans ?_
      simp only [Reject.link, hn, ArrayMem.list_setBuf, hstore, List.map_append]
      rw [List.map_singleton, ArrayMem.sample, ArrayMem.sampleBuf_setBuf,
        BufferFactory.store_memory_self]
      rfl
  case room =>
    change (linkSample r buf s.mem).sampleBuf.list.length = _
    cases hn : stationOf r.pos with
    | none =>
      rw [linkSample_of_none hn]
      rfl
    | some n =>
      rw [linkSample_of_pos (stationOf_eq_some.1 hn), ArrayMem.sampleBuf_setList]
      rfl
  all_goals rfl

lemma view_clear (s : Sys) (n : Station) (pc : RecvPc) :
    (s.clear n pc).view = s.view.clear n pc.view := by
  ext1
  case waiting =>
    change (fun n' => List.map (clearLocked n s.mem).sample ((clearLocked n s.mem).list n')) = _
    have hlist : (clearLocked n s.mem).list = Function.update s.mem.list n [] := by
      rw [clearLocked, ArrayMem.list_setList]
      congr 1
      funext n'
      exact list_clearLoop _ _ _
    rw [hlist, clearLocked, ArrayMem.sample_setList, sample_clearLoop]
    exact view_update (List.map s.mem.sample) s.mem.list n []
  case room =>
    change (clearLocked n s.mem).sampleBuf.list.length = _ + ((s.mem.list n).map _).length
    rw [clearLocked, ArrayMem.sampleBuf_setList, length_free_clearLoop, List.length_map]
    rfl
  all_goals rfl

lemma view_stepRecv (h : s.PoolInvUpTo leaked) : s.stepRecv.map view = s.view.stepRecv := by
  have hrecv : s.view.recv = s.recv.view := rfl
  rw [stepRecv, Reject.stepRecv, hrecv]
  cases hpc : s.recv with
  | produce r =>
    have hroom : s.view.room = s.mem.sampleBuf.list.length := rfl
    simp only [RecvPc.view, hroom]
    cases hp : s.mem.sampleBuf.produce with
    | none =>
      have hl := BufferFactory.produce_eq_none.1 hp
      rw [hl]
      refine congrArg some ?_
      ext1
      case room => exact congrArg List.length hl
      case recv => exact congrArg RecvPc.view hpc
      all_goals rfl
    | some x =>
      obtain ⟨hl, hm⟩ := BufferFactory.produce_eq_some.1 hp
      rw [hl]
      refine congrArg some ?_
      ext1
      case waiting =>
        funext n
        refine (congrArg (List.map _) (ArrayMem.list_setBuf s.mem n x.2)).trans ?_
        refine List.map_congr_left fun b _ => ?_
        exact congrArg SampleArray.sample (congrFun hm b)
      all_goals rfl
  | link r buf => exact congrArg some (view_link h hpc)
  | clear1 => exact congrArg some (view_clear s .one .clear2)
  | clear2 => exact congrArg some (view_clear s .two .reply)
  | idle | zero | reply | finish => rfl

/-- Every step of the tasks is the step of the abstract machine on what is seen of them. -/
lemma view_step (h : s.PoolInvUpTo leaked) (l : Label) :
    (s.step cfg l).map view = s.view.step cfg l := by
  have hexited : s.view.exited = s.exited := rfl
  unfold step Reject.step
  rw [hexited]
  by_cases he : s.exited = true
  · rw [if_pos he, if_pos he]
    rfl
  rw [if_neg he, if_neg he]
  cases l with
  | sample r =>
    simp only [view_recv_eq_idle]
    split
    · refine congrArg some ?_
      ext1
      case recv =>
        change RecvPc.view (if r.pos ≠ 0 then _ else _) = _
        split <;> rfl
      all_goals rfl
    · rfl
  | reset =>
    simp only [view_recv_eq_idle]
    split <;> rfl
  | recv => exact view_stepRecv h
  | kick n code => exact congrArg some (view_post s n code)
  | trig n => exact view_stepTrig s n

/-- A run of the tasks is a run of the abstract machine on what is seen of them. -/
lemma view_exec (h : s.PoolInvUpTo leaked) (ls : List Label) :
    (exec (step cfg) s ls).map view = exec (Reject.step cfg) s.view ls := by
  refine exec_map view (I := fun s => ∃ leaked, s.PoolInvUpTo leaked) ?_ ?_ ⟨leaked, h⟩ ls
  · rintro s l s' ⟨leaked, hinv⟩ hs
    obtain ⟨lost, hinv', -⟩ := poolInv_step hinv (step_inv hs)
    exact ⟨_, hinv'⟩
  · rintro s l ⟨leaked, hinv⟩
    exact view_step hinv l

@[simp] lemma view_init (memory : Buffer → SampleArray) : (init memory).view = Reject.init := by
  ext1
  case waiting =>
    funext n
    cases n <;> rfl
  all_goals rfl

/-- Nobody is at work and no trigger waits. -/
structure Quiet (s : Sys) : Prop where
  recv : s.recv = .idle
  trig : ∀ n, s.trig n = .idle
  mbx : ∀ n, s.mbx n = []
  exited : s.exited = false

/-- A reset frame with the steps of `recv_reset_cmd`. -/
def resetFrame : List Label := .reset :: List.replicate 5 .recv

/-- What is seen of a quiet system, with all its buffers free or in a list. -/
lemma view_quiet {memory : Buffer → SampleArray} (hq : s.Quiet)
    (h : Reach (step cfg) PosNamed (init memory) s) :
    s.view.room + (s.view.waiting .one).length + (s.view.waiting .two).length = 128 := by
  have hinv : s.PoolInvUpTo [] ∧ ∀ r ∈ s.writing, (stationOf r.pos).isSome :=
    h.invariant ⟨poolInv_init memory, by simp [writing, init]⟩ fun _ _ _ hI hok hs =>
      conserved_step hI.1 hI.2 hok (step_inv hs)
  have hhand : s.hand = [] := hand_of_recv (by simp [hq.recv])
  have hlen := hinv.1.length_eq
  rw [hhand] at hlen
  simpa [view] using hlen

end Sys

namespace Reject

/-- The commands `l` were written before. -/
def after (l : List (ℕ × UInt16)) (v : Reject) : Reject := { v with fifo := l ++ v.fifo }

variable {cfg : SysConfig} (l : List (ℕ × UInt16)) (v : Reject)

lemma after_stepTrig (n : Station) :
    (v.stepTrig cfg n).map (after l) = (v.after l).stepTrig cfg n := by
  have htrig : (v.after l).trig n = v.trig n := rfl
  rw [stepTrig, stepTrig, htrig]
  cases v.trig n with
  | idle =>
    have hmbx : (v.after l).mbx n = v.mbx n := rfl
    rw [hmbx]
    cases v.mbx n <;> rfl
  | pended code => cases n <;> rfl
  | counted code =>
    dsimp only
    split <;> rfl
  | searching q =>
    have hwait : (v.after l).waiting n = v.waiting n := rfl
    refine congrArg some ?_
    rw [search, search, hwait]
    split <;> rfl
  | searched found =>
    refine congrArg some ?_
    ext1
    case fifo => exact (List.append_assoc ..).symm
    all_goals rfl
  | counting code cur | written => rfl

lemma after_stepRecv : v.stepRecv.map (after l) = (v.after l).stepRecv := by
  have hrecv : (v.after l).recv = v.recv := rfl
  rw [stepRecv, stepRecv, hrecv]
  cases v.recv with
  | produce r =>
    have hroom : (v.after l).room = v.room := rfl
    dsimp only
    rw [hroom]
    cases v.room <;> rfl
  | idle | link r | zero | clear1 | clear2 | reply | finish => rfl

/-- The commands that were written do not matter for what comes. -/
lemma after_exec (ls : List Label) :
    (exec (step cfg) v ls).map (after l) = exec (step cfg) (v.after l) ls := by
  refine exec_map (after l) (I := fun _ => True) (fun _ _ _ _ _ => trivial) ?_ trivial ls
  rintro v a -
  have hexited : (v.after l).exited = v.exited := rfl
  have hrecv : (v.after l).recv = v.recv := rfl
  unfold step
  rw [hexited]
  by_cases he : v.exited = true
  · rw [if_pos he, if_pos he]
    rfl
  rw [if_neg he, if_neg he]
  cases a with
  | sample r | reset =>
    dsimp only
    rw [hrecv]
    split <;> rfl
  | recv => exact after_stepRecv l v
  | kick n code => rfl
  | trig n => exact after_stepTrig l v n

end Reject

namespace Sys

variable {cfg : SysConfig} {s : Sys}

/-- What is seen after the reset of a quiet system is what is seen at the start, but for the
commands that were written. -/
lemma view_resetFrame {memory : Buffer → SampleArray} (hq : s.Quiet)
    (h : Reach (step cfg) PosNamed (init memory) s) :
    exec (Reject.step cfg) s.view resetFrame = some (Reject.init.after s.view.fifo) := by
  have hroom := view_quiet hq h
  have hrecv : s.view.recv = .idle := view_recv_eq_idle.2 hq.recv
  have hexited : s.view.exited = false := hq.exited
  have htrig : s.view.trig = fun _ => .idle := by
    funext n
    exact congrArg TrigPc.view (hq.trig n)
  have hmbx : s.view.mbx = fun _ => [] := by
    funext n
    exact congrArg (List.map Kick.code) (hq.mbx n)
  generalize s.view = v at *
  obtain ⟨waiting, room, count, mbx, recv, trig, fifo, exited⟩ := v
  subst hrecv hexited htrig hmbx
  refine congrArg some ?_
  ext1
  case waiting =>
    funext n
    cases n <;> rfl
  case room =>
    change room + (waiting .one).length + (Function.update waiting .one [] .two).length = 128
    rwa [Function.update_of_ne (by decide)]
  case fifo => exact (List.append_nil fifo).symm
  all_goals rfl

instance (s : Sys) (l : Label) : Decidable (PosNamed s l) :=
  match l with
  | .sample r => inferInstanceAs (Decidable (r.pos = 0 ∨ r.pos = 1 ∨ r.pos = 2))
  | .reset => isTrue trivial
  | .recv => isTrue trivial
  | .kick _ _ => isTrue trivial
  | .trig _ => isTrue trivial

/-- Two samples for station 1 and one for station 2, and a product that takes one of them. -/
def beforeReset : List Label :=
  [1, 2, 1].flatMap (fun pos => [.sample (frame pos), .recv, .recv])
    ++ .kick .one 0 :: List.replicate 7 (.trig .one)

def atReset : Sys :=
  (exec (step SysConfig.default) (init zeroMemory) beforeReset).getD (init zeroMemory)

end Sys

end RejectProcess
