import Mathlib.Data.List.Sort
import RejectProcess.Communication.LifeCycle

/-!
# Messages to the send task

What is posted to the mailbox that `local_send_tsk` empties, and what a client gets of it: the whole
frames on a connection are messages that were posted, in the order of posting.
-/

namespace RejectProcess

open Lib

namespace LocalMsg

/-- A handler has posted the message, and not a distance task. -/
def isReply : LocalMsg → Bool
  | .posReport _ _ => false
  | _ => true

lemma filterMap_range (posted : List LocalMsg) :
    (List.range posted.length).filterMap (posted[·]?) = posted := by
  induction posted with
  | nil => rfl
  | cons m ms ih =>
    rw [List.length_cons, List.range_succ_eq_map, List.filterMap_cons, List.filterMap_map]
    exact congrArg (m :: ·) ih

/-- The messages posted under increasing numbers, in the order of posting. -/
lemma sublist_posted {posted : List LocalMsg} {nums : List ℕ} (hsorted : nums.Pairwise (· < ·))
    (hlt : ∀ i ∈ nums, i < posted.length) : (nums.filterMap (posted[·]?)).Sublist posted := by
  have hrange : nums.Sublist (List.range posted.length) := by
    refine List.sublist_of_subperm_of_pairwise (r := (· < ·)) ?_ hsorted List.pairwise_lt_range
    exact List.subperm_of_subset (hsorted.imp Nat.ne_of_lt) fun i hi => List.mem_range.2 (hlt i hi)
  have := hrange.filterMap (posted[·]?)
  rwa [filterMap_range] at this

end LocalMsg

/-- Messages are posted to the send task. -/
def Link.postAll (s : Link) (ms : List LocalMsg) : Link :=
  { s with mbx := s.mbx ++ ms, posted := s.posted ++ ms }

/-- The steps that the send task has left with its message. -/
def SendPc.work : SendPc → ℕ
  | .pend => 0
  | .check _ m => 1 + m.payload.length
  | .write _ m i => m.payload.length - i

namespace Link

variable {s s' : Link}

lemma frameInv_postAll (h : s.FrameInv) (ms : List LocalMsg) : (s.postAll ms).FrameInv := by
  induction ms generalizing s with
  | nil =>
    rw [postAll, List.append_nil, List.append_nil]
    exact h
  | cons m ms ih =>
    have := ih (frameInv_post h m)
    rwa [postAll, List.append_assoc, List.append_assoc] at this

/-- Only the other tasks post. -/
lemma step_posted {l : LinkLabel} (h : s.step l = some s') :
    (∃ m, l = .post m ∧ s'.posted = s.posted ++ [m]) ∨
      (∀ m, l ≠ .post m) ∧ s'.posted = s.posted := by
  have honFd : ∀ f : Conn → Conn, (s.onFd f).posted = s.posted := by
    intro f
    obtain ⟨conns, hconns⟩ := s.onFd_frame f
    rw [hconns]
  cases l with
  | post m =>
    obtain rfl := Option.some.inj h
    exact .inl ⟨m, rfl, rfl⟩
  | connect ok =>
    refine .inr ⟨by simp, ?_⟩
    rcases stepConnect_cases h with ⟨-, rfl⟩ | rfl | ⟨pc, st, n, rfl⟩
    · cases ok <;> rfl
    · exact honFd _
    · rfl
  | recv l =>
    obtain ⟨r, n, cl, -, rfl⟩ := stepRecv_cases h
    exact .inr ⟨by simp, rfl⟩
  | close =>
    refine .inr ⟨by simp, ?_⟩
    rcases stepClose_cases h with rfl | ⟨cl, st, rfl⟩
    · exact honFd _
    · rfl
  | send ok =>
    obtain ⟨conns, send, mbx, taken, rfl⟩ := stepSend_frame h
    exact .inr ⟨by simp, rfl⟩

/-- The whole frames that a client has got on a connection. -/
def Heard (s : Link) (c : ℕ) (fs : List Frame) : Prop :=
  (∀ f ∈ fs, f.Fits) ∧ encodeFrames fs <+: (s.conns c).bytes

instance (s : Link) (c : ℕ) (fs : List Frame) : Decidable (s.Heard c fs) :=
  inferInstanceAs (Decidable (_ ∧ _))

/-- What was heard on a connection are posted messages, in their order. -/
lemma heard_posted (h : s.FrameInv) {c : ℕ} {fs : List Frame} (hfs : s.Heard c fs) :
    ∃ ms : List LocalMsg, fs = ms.map LocalMsg.frame ∧ ms.Sublist s.posted := by
  obtain ⟨nums, hsorted, hlt, t, ht⟩ := h.kept c
  have hbytes : encodeFrames fs <+:
      encodeFrames ((nums.filterMap (s.posted[·]?)).map LocalMsg.frame) := by
    refine hfs.2.trans ⟨t.flatMap Piece.data, ?_⟩
    rw [Conn.bytes, ← List.flatMap_append, ht, Link.flatMap_data_framePieces,
      LocalMsg.flatMap_bytes]
  have hfits : ∀ g ∈ (nums.filterMap (s.posted[·]?)).map LocalMsg.frame, g.Fits := by
    intro g hg
    obtain ⟨m, -, rfl⟩ := List.mem_map.1 hg
    exact m.fits_frame
  have htake := List.prefix_iff_eq_take.1 (prefix_of_encodeFrames hfs.1 hfits hbytes)
  rw [← List.map_take] at htake
  exact ⟨_, htake, (List.take_sublist _ _).trans (LocalMsg.sublist_posted hsorted hlt)⟩

/-! ## The work of the send task -/

lemma length_payload_le (m : LocalMsg) : m.payload.length ≤ 3 := by
  cases m <;> simp [LocalMsg.payload]

lemma nextPayload_work (k : Link) (num : ℕ) (m : LocalMsg) (i : ℕ) :
    (k.nextPayload num m i).send.work = m.payload.length - i ∧
      (k.nextPayload num m i).mbx = k.mbx := by
  rw [Link.nextPayload]
  split
  · exact ⟨rfl, rfl⟩
  · refine ⟨?_, rfl⟩
    change 0 = _
    omega

/-- After a step of the send task, a payload that it is about to write is one of its message. -/
lemma payload_stepSend {ok : Bool} (hs : s.stepSend ok = some s') {num : ℕ} {m : LocalMsg} {i : ℕ}
    (hpc : s'.send = .write num m i) : i < m.payload.length := by
  have hnext : ∀ (k : Link) num' m' j, (k.nextPayload num' m' j).send = .write num m i →
      i < m.payload.length := by
    intro k num' m' j h
    rw [nextPayload] at h
    split at h
    · next hlt =>
      obtain ⟨-, rfl, rfl⟩ := SendPc.write.inj h
      exact hlt
    · cases h
  rcases stepSend_cases hs with ⟨m', mbx, -, -, rfl⟩ | ⟨num', m', -, rfl | rfl⟩ |
    ⟨num', m', j, -, ⟨-, rfl⟩ | ⟨-, -, rfl⟩⟩
  · cases hpc
  · exact hnext _ _ _ _ hpc
  · cases hpc
  · cases hpc
  · exact hnext _ _ _ _ hpc

/-- Every step of the send task leaves it less to do. -/
lemma send_work_lt (hpay : ∀ num m i, s.send = .write num m i → i < m.payload.length)
    (hs : s.stepSend true = some s') :
    5 * s'.mbx.length + s'.send.work < 5 * s.mbx.length + s.send.work := by
  rcases Link.stepSend_cases hs with ⟨m, mbx, hpc, hm, rfl⟩ | ⟨num, m, hpc, hs⟩ |
    ⟨num, m, i, hpc, hs⟩
  · have := length_payload_le m
    rw [hpc, hm]
    simp only [SendPc.work, List.length_cons]
    omega
  · rw [hpc]
    rcases hs with rfl | rfl
    · obtain ⟨hwork, hmbx⟩ := nextPayload_work s num m 0
      rw [hwork, hmbx]
      simp only [SendPc.work]
      omega
    · simp only [SendPc.work]
      omega
  · have hi := hpay num m i hpc
    rcases hs with ⟨hno, -⟩ | ⟨-, -, rfl⟩
    · cases hno
    · rw [hpc]
      obtain ⟨conns, hconns⟩ := s.onFd_frame fun c => { c with
        log := c.log ++ [{ num := num, idx := i, data := m.payload.getD i [] }] }
      obtain ⟨hwork, hmbx⟩ := nextPayload_work { s with conns := conns } num m (i + 1)
      rw [Link.writeOk, hconns, hwork, hmbx]
      simp only [SendPc.work]
      omega

end Link

end RejectProcess
