import RejectProcess.Sample.Tasks

/-!
# Conservation of the sample buffers

Every step of the tasks moves buffers between the free list, the two sample lists and the
hands of the receive task, with one exception: a sample whose `pos` is neither 0 nor a station
is given a buffer that is linked nowhere.
-/

namespace RejectProcess

open Lib

namespace Sys

/-- The buffer that the receive task has taken from the pool and not linked yet. -/
def hand (s : Sys) : List Buffer :=
  match s.recv with
  | .link _ buf => [buf]
  | _ => []

lemma hand_of_recv {s : Sys} (h : ∀ r buf, s.recv ≠ .link r buf) : s.hand = [] := by
  unfold hand
  split
  · rename_i r buf hl
    exact absurd hl (h r buf)
  · rfl

/-- The pool is conserved up to the buffers `leaked`, which nobody can reach any more. -/
def PoolInvUpTo (s : Sys) (leaked : List Buffer) : Prop :=
  PoolInv s.mem (s.hand ++ leaked)

variable {cfg : SysConfig} {s s' : Sys} {l : Label} {leaked : List Buffer}

/-- One step keeps the buffers; only linking a sample that no list takes loses one. -/
lemma poolInv_step (h : s.PoolInvUpTo leaked) (hs : Step cfg s l s') :
    ∃ lost, s'.PoolInvUpTo (lost ++ leaked) ∧
      ((∀ r buf, s.recv = .link r buf → (stationOf r.pos).isSome) → lost = []) := by
  have keep : ∀ s₁ : Sys, s₁.mem = s.mem → s₁.hand = s.hand →
      ∃ lost, s₁.PoolInvUpTo (lost ++ leaked) ∧
        ((∀ r buf, s.recv = .link r buf → (stationOf r.pos).isSome) → lost = []) := by
    intro s₁ hm hh
    refine ⟨[], ?_, fun _ => rfl⟩
    simpa [PoolInvUpTo, hm, hh] using h
  have hidle : ∀ pc, s.recv = pc → (∀ r buf, pc ≠ .link r buf) → PoolInv s.mem leaked := by
    intro pc hpc hne
    have := hand_of_recv (s := s) (by rw [hpc]; exact hne)
    simpa [PoolInvUpTo, this] using h
  cases hs with
  | skip r hr hp => exact keep _ rfl rfl
  | sample r hr hp => exact keep _ rfl (by simp [hand, hr])
  | reset hr => exact keep _ rfl (by simp [hand, hr])
  | crash r hr hp => exact keep _ rfl rfl
  | produce r buf f hr hp =>
    exact ⟨[], (hidle _ hr (by simp)).produce hp, fun _ => rfl⟩
  | link r buf hr =>
    have hinv : PoolInv s.mem (buf :: leaked) := by simpa [PoolInvUpTo, hand, hr] using h
    cases hn : stationOf r.pos with
    | none =>
      refine ⟨[buf], hinv.drop hn, ?_⟩
      intro hpos
      have := hpos r buf hr
      simp [hn] at this
    | some n => exact ⟨[], hinv.linkSample (stationOf_eq_some.1 hn), fun _ => rfl⟩
  | zero hr => exact keep _ rfl (by simp [hand, hr, zeroCount])
  | clear1 hr => exact ⟨[], (hidle _ hr (by simp)).clear .one, fun _ => rfl⟩
  | clear2 hr => exact ⟨[], (hidle _ hr (by simp)).clear .two, fun _ => rfl⟩
  | reply hr => exact keep _ rfl (by simp [hand, hr])
  | finish hr => exact keep _ rfl (by simp [hand, hr, finishReset])
  | search n k q era hpc =>
    refine ⟨[], ?_, fun _ => rfl⟩
    exact PoolInv.search h (show searchLocked (q.test cfg n) n s.mem = _ from rfl)
  | kick n code => exact keep _ rfl rfl
  | pend n k rest hpc hm => exact keep _ rfl rfl
  | readCount k hpc => exact keep _ rfl rfl
  | call2 k hpc => exact keep _ rfl rfl
  | countUp n k cur hpc => exact keep _ rfl rfl
  | callCount n k hpc hm => exact keep _ rfl rfl
  | callWheelCode n k hpc hm => exact keep _ rfl rfl
  | command n r hpc => exact keep _ rfl rfl
  | done n k hpc => exact keep _ rfl rfl

/-- The initial state has every buffer in the free list. -/
lemma poolInv_init (memory : Buffer → SampleArray) : (init memory).PoolInvUpTo [] :=
  PoolInv.init memory

/-- In any run the buffers are conserved up to those that no list took. -/
lemma poolInv_reach {memory : Buffer → SampleArray} {ok : Sys → Label → Prop}
    (h : Reach (step cfg) ok (init memory) s) : ∃ leaked, s.PoolInvUpTo leaked := by
  refine h.invariant (I := fun s => ∃ leaked, s.PoolInvUpTo leaked) ⟨[], poolInv_init memory⟩ ?_
  rintro s a s' ⟨leaked, hinv⟩ - hs
  obtain ⟨lost, hinv', -⟩ := poolInv_step hinv (step_inv hs)
  exact ⟨_, hinv'⟩

/-! ## Runs in which every sample names a station -/

/-- A step that brings a sample frame brings one with `pos` 0, 1 or 2. -/
def PosNamed (_ : Sys) : Label → Prop
  | .sample r => r.pos = 0 ∨ r.pos = 1 ∨ r.pos = 2
  | _ => True

/-- The sample that `write_array` is at work on, if any. -/
def writing (s : Sys) : Option SampleResult :=
  match s.recv with
  | .produce r => some r
  | .link r _ => some r
  | _ => none

/-- In a run whose frames name stations, nothing is lost. -/
lemma conserved_step (hinv : s.PoolInvUpTo []) (hw : ∀ r ∈ s.writing, (stationOf r.pos).isSome)
    (hok : PosNamed s l) (hs : Step cfg s l s') :
    s'.PoolInvUpTo [] ∧ ∀ r ∈ s'.writing, (stationOf r.pos).isSome := by
  constructor
  · obtain ⟨lost, hinv', hlost⟩ := poolInv_step hinv hs
    obtain rfl := hlost fun r buf hr => hw r (by simp [writing, hr])
    exact hinv'
  · have keep : ∀ s₁ : Sys, s₁.recv = s.recv → ∀ r ∈ s₁.writing, (stationOf r.pos).isSome := by
      intro s₁ hr
      simpa [writing, hr] using hw
    cases hs with
    | sample r hr hp =>
      intro r' hr'
      obtain rfl : r = r' := by simpa [writing] using hr'
      rcases hok with h | h | h
      · exact absurd h hp
      · rw [h]; rfl
      · rw [h]; rfl
    | produce r buf f hr hp =>
      intro r' hr'
      exact hw r' (by simpa [writing, hr, produced] using hr')
    | link r buf hr => simp [writing, Sys.link]
    | reset hr => simp [writing]
    | zero hr => simp [writing, zeroCount]
    | clear1 hr => simp [writing, clear]
    | clear2 hr => simp [writing, clear]
    | reply hr => simp [writing]
    | finish hr => simp [writing, finishReset]
    | _ => exact keep _ rfl

lemma conserved_reach {memory : Buffer → SampleArray}
    (h : Reach (step cfg) PosNamed (init memory) s) :
    s.PoolInvUpTo [] ∧ ∀ r ∈ s.writing, (stationOf r.pos).isSome := by
  refine h.invariant (I := fun s => s.PoolInvUpTo [] ∧ ∀ r ∈ s.writing, (stationOf r.pos).isSome)
    ⟨poolInv_init memory, by simp [writing, init]⟩ ?_
  rintro s a s' ⟨hinv, hw⟩ hok hs
  exact conserved_step hinv hw hok (step_inv hs)

/-- No task is inside `write_array`, `clear_array` or a search function. -/
def Quiescent (s : Sys) : Prop :=
  s.recv.inArray = false ∧ (s.trig .one).inSearch = false ∧ (s.trig .two).inSearch = false

/-- The 128 buffers of `g_c1_sample_buf` are partitioned among the free list and the two
sample lists. -/
def Partitioned (s : Sys) : Prop :=
  (s.mem.sampleBuf.list ++ s.mem.k1SampleList ++ s.mem.k2SampleList).Perm (List.range 128)

/-- `buf_factory_produce` finds the pool empty only when 128 samples are pending. -/
def EmptyOnlyWhenFull (s : Sys) : Prop :=
  ∀ r, s.recv = .produce r → s.mem.sampleBuf.produce = none →
    s.mem.k1SampleList.length + s.mem.k2SampleList.length = 128

/-- **Conservation of the sample buffers.**  In every run whose sample frames carry a `pos` of
0, 1 or 2, the buffers are partitioned whenever no task is inside an array function, and the
pool is found empty only when all 128 hold pending samples. -/
theorem sample_buffers_conserved {memory : Buffer → SampleArray}
    (h : Reach (step cfg) PosNamed (init memory) s) :
    (s.Quiescent → s.Partitioned) ∧ s.EmptyOnlyWhenFull := by
  obtain ⟨hinv, -⟩ := conserved_reach h
  constructor
  · intro hq
    have hhand : s.hand = [] := hand_of_recv fun r buf hr => by
      simp [Quiescent, hr, RecvPc.inArray] at hq
    simpa [Partitioned, hhand, ArrayMem.list] using hinv.perm
  · intro r hr hp
    have hlen := hinv.length_eq
    have hhand : s.hand = [] := hand_of_recv (by simp [hr])
    rw [BufferFactory.produce_eq_none] at hp
    simpa [hhand, hp, ArrayMem.list] using hlen

/-- A sample frame with the given `pos`. -/
def frame (pos : UInt32) : SampleResult where
  result := Vector.replicate 8 0
  count := 1
  wheelCode := 0
  pos := pos
  alarm := 0

/-- The state after one sample frame with the given `pos` has been handled. -/
def afterFrame (pos : UInt32) : Sys :=
  (exec (step SysConfig.default) (init zeroMemory) [.sample (frame pos), .recv, .recv]).getD
    (init zeroMemory)

lemma reach_afterFrame_three : Reach (step SysConfig.default) AnyStep (init zeroMemory)
    (afterFrame 3) :=
  reach_any [.sample (frame 3), .recv, .recv] rfl

/-- A frame with `pos = 3` takes a buffer out of the pool for good: when it has been handled
and nothing is in progress, 127 buffers are free and both lists are empty. -/
theorem unknown_pos_leaks :
    ¬ ∀ (cfg : SysConfig) (memory : Buffer → SampleArray) (s : Sys),
      Reach (step cfg) AnyStep (init memory) s →
        (s.Quiescent → s.Partitioned) ∧ s.EmptyOnlyWhenFull := by
  intro h
  have hq : (afterFrame 3).Quiescent := ⟨rfl, rfl, rfl⟩
  have hperm := (h _ _ _ reach_afterFrame_three).1 hq
  have hlen : ((afterFrame 3).mem.sampleBuf.list ++ (afterFrame 3).mem.k1SampleList
      ++ (afterFrame 3).mem.k2SampleList).length = 127 := by decide +kernel
  rw [hperm.length_eq] at hlen
  simp at hlen

/-- One sample for station 1 leaves the pool partitioned. -/
theorem sample_buffers_conserved_frame :
    ((afterFrame 1).Quiescent → (afterFrame 1).Partitioned) ∧ (afterFrame 1).EmptyOnlyWhenFull :=
  sample_buffers_conserved <|
    show Reach (step SysConfig.default) PosNamed (init zeroMemory) _ from
    reach_of_exec [.sample (frame 1), .recv, .recv]
      ⟨.inr (.inl rfl), fun _ _ => ⟨trivial, fun _ _ => ⟨trivial, fun _ _ => trivial⟩⟩⟩ rfl

end Sys

end RejectProcess
