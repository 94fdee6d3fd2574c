import RejectProcess.Communication.Posting

/-!
# A connection that lasts

Where no read and no write fails, one connection is made and stays.  The messages that the send
task takes before it is made are lost, but no request has come then, so no reply is among them.
-/

namespace RejectProcess

open Lib

namespace Link

variable (s : Link)

/-- No read fails, and no write. -/
def Smooth : LinkLabel → Prop
  | .recv .fail => False
  | .send false => s.send.writes = false
  | _ => True

instance : ∀ l, Decidable (s.Smooth l)
  | .recv .fail => isFalse id
  | .recv .link => isTrue trivial
  | .recv (.read _) => isTrue trivial
  | .send false => inferInstanceAs (Decidable (_ = _))
  | .send true => isTrue trivial
  | .post _ => isTrue trivial
  | .connect _ => isTrue trivial
  | .close => isTrue trivial

/-- There is no connection yet: nothing was read, written or answered. -/
structure Unconnected : Prop where
  connect : s.connect ≠ .post
  gsemLink : s.gsemLink = 0
  loop : s.recv.loop = .link
  analyzed : s.recv.analyzed = []
  writes : s.send.writes = false
  bytes : ∀ c, (s.conns c).bytes = []
  replies : s.posted.filter LocalMsg.isReply = []

/-- The connection in use carries these messages, and what is written of the one in progress.  They
have all replies that the send task has dealt with. -/
structure Carried (c : ℕ) (ms : List LocalMsg) : Prop where
  fd : s.connectFd = some c
  up : (s.conns c).up = true
  bytes : (s.conns c).bytes = ms.flatMap LocalMsg.bytes ++ s.send.written.flatMap Piece.data
  replies : ms.filter LocalMsg.isReply = (s.posted.take s.nextNum).filter LocalMsg.isReply

/-- The invariant of the runs in which nothing fails. -/
structure Steady : Prop where
  closing : s.closing = .no
  sound : ∀ c, (s.conns c).abandoned = false
  before : s.connectStatus = false → s.Unconnected
  mark : s.connect = .mark → ∃ c, s.connectFd = some c ∧ (s.conns c).up = true
  after : s.connectStatus = true →
    (s.connect = .post ∨ s.connect = .sleep) ∧ ∃ c ms, s.Carried c ms

variable {s} {s' : Link}

lemma steady_init (param : Mem) : (init param).Steady where
  closing := rfl
  sound := fun _ => rfl
  before := fun _ => ⟨by simp [init], rfl, rfl, rfl, rfl, fun _ => rfl, rfl⟩
  mark := by simp [init]
  after := by simp [init]

/-- While the connect task is at work, there is no connection. -/
lemma Steady.unconnected (h : s.Steady) (hpost : s.connect ≠ .post) (hsleep : s.connect ≠ .sleep) :
    s.connectStatus = false ∧ s.Unconnected := by
  cases hst : s.connectStatus with
  | false => exact ⟨rfl, h.before hst⟩
  | true =>
    rcases (h.after hst).1 with hpc | hpc
    · exact absurd hpc hpost
    · exact absurd hpc hsleep

/-- In such a run the frames on the connections are safe. -/
lemma Steady.frameSafe (h : s.Steady) (l : LinkLabel) : s.FrameSafe l := by
  cases l with
  | connect ok =>
    cases ok with
    | false => trivial
    | true =>
      intro hpc
      have hw := (h.unconnected (by simp [hpc]) (by simp [hpc])).2.writes
      cases hs : s.send with
      | pend | check => rfl
      | write num m i => simp [hs, SendPc.writes] at hw
  | send ok =>
    cases ok with
    | false => trivial
    | true =>
      intro _
      rw [broken]
      cases s.connectFd with
      | none => rfl
      | some c => exact h.sound c
  | post m => trivial
  | recv l => trivial
  | close => trivial

/-! ## Posting -/

/-- A message is posted, which is no reply before the connection is made. -/
lemma Steady.post (h : s.Steady) (hinv : s.FrameInv) {m : LocalMsg}
    (hm : s.connectStatus = false → m.isReply = false) :
    Steady { s with mbx := s.mbx ++ [m], posted := s.posted ++ [m] } := by
  refine ⟨h.closing, h.sound, fun hst => ?_, h.mark, fun hst => ?_⟩
  · obtain ⟨hpc, hsem, hloop, han, hw, hbytes, hreplies⟩ := h.before hst
    refine ⟨hpc, hsem, hloop, han, hw, hbytes, ?_⟩
    simp [hreplies, hm hst]
  · obtain ⟨hpc, c, ms, hfd, hup, hbytes, hreplies⟩ := h.after hst
    refine ⟨hpc, c, ms, hfd, hup, hbytes, ?_⟩
    change _ = ((s.posted ++ [m]).take s.nextNum).filter _
    rw [List.take_append_of_le_length hinv.nextNum_le]
    exact hreplies

/-- Messages are posted, among them no reply before the connection is made. -/
lemma Steady.postAll (h : s.Steady) (hinv : s.FrameInv) (ms : List LocalMsg)
    (hms : ∀ m ∈ ms, s.connectStatus = false → m.isReply = false) : (s.postAll ms).Steady := by
  induction ms generalizing s with
  | nil =>
    rw [Link.postAll, List.append_nil, List.append_nil]
    exact h
  | cons m ms ih =>
    have hrest := ih (h.post hinv (hms m List.mem_cons_self)) (frameInv_post hinv m)
      fun m' hm' => hms m' (List.mem_cons_of_mem _ hm')
    rwa [Link.postAll, List.append_assoc, List.append_assoc] at hrest

/-! ## The connect task -/

/-- The connect task goes on without a connection. -/
lemma Steady.connecting (h : s.Steady) (hst : s.connectStatus = false) (hun : s.Unconnected)
    {pc : ConnectPc} {fd : Option ℕ} {conns : ℕ → Conn} {created : ℕ} (hpc : pc ≠ .post)
    (hfd : pc = .mark → ∃ c, fd = some c ∧ (conns c).up = true)
    (hbytes : ∀ c, (conns c).bytes = (s.conns c).bytes)
    (hsound : ∀ c, (conns c).abandoned = (s.conns c).abandoned) :
    Steady { s with connect := pc, connectFd := fd, conns := conns, created := created } where
  closing := h.closing
  sound := fun c => (hsound c).trans (h.sound c)
  before := fun _ => ⟨hpc, hun.gsemLink, hun.loop, hun.analyzed, hun.writes,
    fun c => (hbytes c).trans (hun.bytes c), hun.replies⟩
  mark := hfd
  after := fun h' => absurd (hst.symm.trans h') (by simp)

lemma written_of_not_writes {pc : SendPc} (h : pc.writes = false) : pc.written = [] := by
  cases pc with
  | pend | check => rfl
  | write num m i => simp [SendPc.writes] at h

/-- The connection is made. -/
lemma Steady.connected (h : s.Steady) (hpc : s.connect = .mark) :
    Steady { s with connectStatus := true, connect := .post } := by
  obtain ⟨-, hun⟩ := h.unconnected (by simp [hpc]) (by simp [hpc])
  obtain ⟨c, hc, hup⟩ := h.mark hpc
  refine ⟨h.closing, h.sound, by simp, by simp, fun _ => ⟨.inl rfl, c, [], hc, hup, ?_, ?_⟩⟩
  · change (s.conns c).bytes = [] ++ s.send.written.flatMap Piece.data
    rw [hun.bytes, written_of_not_writes hun.writes]
    rfl
  · have hsub := (List.take_sublist s.nextNum s.posted).filter LocalMsg.isReply
    rw [hun.replies] at hsub
    exact (List.sublist_nil.1 hsub).symm

lemma Steady.stepConnect (h : s.Steady) {ok : Bool} (hs : s.stepConnect ok = some s') :
    s'.Steady := by
  rw [Link.stepConnect] at hs
  cases hpc : s.connect with
  | sleep =>
    rw [hpc] at hs
    obtain rfl := Option.some.inj hs
    split
    · exact h
    · rename_i hst
      have hst : s.connectStatus = false := by simpa using hst
      exact h.connecting hst (h.before hst) (by simp) (by simp) (fun _ => rfl) fun _ => rfl
  | create =>
    rw [hpc] at hs
    obtain rfl := Option.some.inj hs
    obtain ⟨hst, hun⟩ := h.unconnected (by simp [hpc]) (by simp [hpc])
    cases ok with
    | false =>
      exact h.connecting hst hun (by simp) (by simp) (fun _ => rfl) fun _ => rfl
    | true =>
      exact h.connecting hst hun (by simp) (by simp) (fun _ => rfl) fun _ => rfl
  | connect =>
    rw [hpc] at hs
    obtain ⟨hst, hun⟩ := h.unconnected (by simp [hpc]) (by simp [hpc])
    cases ok with
    | false =>
      obtain rfl := Option.some.inj hs
      exact h
    | true =>
      obtain ⟨c, hc⟩ : ∃ c, s.connectFd = some c := by
        cases hfd : s.connectFd with
        | none => simp [hfd] at hs
        | some c => exact ⟨c, rfl⟩
      simp only [hc, Option.isSome_some, if_true] at hs
      obtain rfl := Option.some.inj hs
      have hconn : ∀ c',
          (Function.update s.conns c { s.conns c with up := true } c').log = (s.conns c').log ∧
            (Function.update s.conns c { s.conns c with up := true } c').abandoned =
              (s.conns c').abandoned := by
        intro c'
        by_cases he : c' = c
        · subst he
          simp
        · simp [he]
      rw [onFd_of_some _ hc]
      exact h.connecting hst hun (by simp) (fun _ => ⟨c, hc, by simp⟩)
        (fun c' => congrArg (List.flatMap Piece.data) (hconn c').1) fun c' => (hconn c').2
  | mark =>
    rw [hpc] at hs
    obtain rfl := Option.some.inj hs
    exact h.connected hpc
  | post =>
    rw [hpc] at hs
    obtain rfl := Option.some.inj hs
    refine ⟨h.closing, h.sound, fun hst => absurd hpc (h.before hst).connect, by simp,
      fun hst => ⟨.inr rfl, ?_⟩⟩
    obtain ⟨-, c, ms, hfd, hup, hbytes, hreplies⟩ := h.after hst
    exact ⟨c, ms, hfd, hup, hbytes, hreplies⟩

/-! ## The receive task -/

/-- The receive task reads from the connection. -/
lemma Steady.stepRecv (h : s.Steady) {l : RecvLabel} (hl : l ≠ .fail)
    (hs : s.stepRecv l = some s') : s'.Steady := by
  have hcon : ∀ {r : RecvTsk} {n : ℕ}, s.connectStatus = true →
      Steady { s with recv := r, gsemLink := n, closing := .no } := by
    intro r n hst
    refine ⟨rfl, h.sound, fun hno => absurd (hst.symm.trans hno) (by simp), h.mark,
      fun _ => ?_⟩
    obtain ⟨hpc, c, ms, hfd, hup, hbytes, hreplies⟩ := h.after hst
    exact ⟨hpc, c, ms, hfd, hup, hbytes, hreplies⟩
  have hno := h.closing
  rw [Link.stepRecv.eq_def, hno] at hs
  cases l with
  | link =>
    obtain ⟨hsem, hs⟩ := Option.ite_none_right_eq_some.1 hs
    obtain ⟨r, -, rfl⟩ := Option.map_eq_some_iff.1 hs
    refine hcon ?_
    by_contra hst
    rw [(h.before (by simpa using hst)).gsemLink] at hsem
    exact Nat.lt_irrefl _ hsem
  | read bs =>
    obtain ⟨r, hr, rfl⟩ := Option.map_eq_some_iff.1 hs
    refine hcon ?_
    by_contra hst
    exact (RecvTsk.step_read_loop hr).1 (h.before (by simpa using hst)).loop
  | fail => exact absurd rfl hl

/-! ## The send task -/

/-- The send task goes on between two writes. -/
lemma Steady.setSend (h : s.Steady) {send : SendPc} {mbx : List LocalMsg} {taken : ℕ}
    (hwrites : s.connectStatus = false → send.writes = false) (hold : s.send.written = [])
    (hnew : send.written = [])
    (hnum : nextNum { s with send := send, mbx := mbx, taken := taken } = s.nextNum ∨
      s.connectStatus = false) :
    Steady { s with send := send, mbx := mbx, taken := taken } := by
  refine ⟨h.closing, h.sound, fun hst => ?_, h.mark, fun hst => ?_⟩
  · obtain ⟨hpc, hsem, hloop, han, -, hbytes, hreplies⟩ := h.before hst
    exact ⟨hpc, hsem, hloop, han, hwrites hst, hbytes, hreplies⟩
  · obtain ⟨hpc, c, ms, hfd, hup, hbytes, hreplies⟩ := h.after hst
    rcases hnum with hnum | hno
    · refine ⟨hpc, c, ms, hfd, hup, ?_, ?_⟩
      · rw [hold] at hbytes
        rw [hnew]
        exact hbytes
      · rw [hnum]
        exact hreplies
    · exact absurd (hno.symm.trans hst) (by simp)

/-- A payload is written to the connection: the message goes on, or is complete. -/
lemma Steady.writeOk (h : s.Steady) (hinv : s.FrameInv) {num : ℕ} {m : LocalMsg} {i : ℕ}
    (hpc : s.send = .write num m i) : (s.writeOk num m i).Steady := by
  have hst : s.connectStatus = true := by
    by_contra hst
    have hw := (h.before (by simpa using hst)).writes
    simp [hpc, SendPc.writes] at hw
  obtain ⟨hcpc, c, ms, hfd, hup, hbytes, hreplies⟩ := h.after hst
  have hi := hinv.payload num m i hpc
  obtain ⟨htaken, hget⟩ := hinv.message num m (by rw [hpc]; rfl)
  obtain ⟨hlt, hposted⟩ := List.getElem?_eq_some_iff.1 hget
  have hnum : s.nextNum = num := by simp [nextNum, hpc, SendPc.message]
  rw [hpc] at hbytes
  obtain ⟨conn, hconn⟩ : ∃ conn : Conn, conn = { s.conns c with
      log := (s.conns c).log ++ [{ num := num, idx := i, data := m.payload.getD i [] }] } :=
    ⟨_, rfl⟩
  have hsound : ∀ c', (Function.update s.conns c conn c').abandoned = false := by
    intro c'
    by_cases he : c' = c
    · rw [he, Function.update_self, hconn]
      exact h.sound c
    · rw [Function.update_of_ne he]
      exact h.sound c'
  have hup' : (Function.update s.conns c conn c).up = true := by
    rw [Function.update_self, hconn]
    exact hup
  have hwritten : conn.bytes = ms.flatMap LocalMsg.bytes ++
      ((m.pieces num).take (i + 1)).flatMap Piece.data := by
    rw [take_pieces_succ hi, List.flatMap_append, ← List.append_assoc]
    change _ = (_ ++ (SendPc.write num m i).written.flatMap Piece.data) ++ _
    rw [← hbytes, hconn, Conn.bytes, List.flatMap_append]
    rfl
  rw [Link.writeOk, onFd_of_some _ hfd, ← hconn, nextPayload]
  split
  · refine ⟨h.closing, hsound, fun hno => absurd (hst.symm.trans hno) (by simp),
      fun _ => ⟨c, hfd, hup'⟩, fun _ => ⟨hcpc, c, ms, hfd, hup', ?_, ?_⟩⟩
    · change (Function.update s.conns c conn c).bytes = _
      rw [Function.update_self]
      exact hwritten
    · rw [hnum] at hreplies
      exact hreplies
  · rename_i hlast
    refine ⟨h.closing, hsound, fun hno => absurd (hst.symm.trans hno) (by simp),
      fun _ => ⟨c, hfd, hup'⟩, fun _ => ⟨hcpc, c, ms ++ [m], hfd, hup', ?_, ?_⟩⟩
    · have hall : (m.pieces num).take (i + 1) = m.pieces num := by
        rw [List.take_of_length_le]
        simp only [LocalMsg.pieces, List.length_mapIdx]
        omega
      change (Function.update s.conns c conn c).bytes = _ ++ []
      rw [Function.update_self, hwritten, hall, flatMap_data_pieces, List.flatMap_append,
        List.flatMap_singleton, List.append_nil]
    · change _ = (s.posted.take s.taken).filter LocalMsg.isReply
      rw [← htaken, List.take_add_one, hget, Option.toList_some, List.filter_append,
        List.filter_append, hreplies, hnum]

lemma Steady.stepSend (h : s.Steady) (hinv : s.FrameInv) {ok : Bool}
    (hok : ok = false → s.send.writes = false) (hs : s.stepSend ok = some s') : s'.Steady := by
  rcases stepSend_cases hs with ⟨m, mbx, hpc, hm, rfl⟩ | ⟨num, m, hpc, -⟩ | ⟨num, m, i, hpc, hs⟩
  · have hnum : s.nextNum = s.taken := by simp [nextNum, hpc, SendPc.message]
    exact h.setSend (fun _ => rfl) (by rw [hpc]; rfl) rfl (.inl hnum.symm)
  · -- the message is dropped only while there is no connection
    have hold : s.send.written = [] := by rw [hpc]; rfl
    rw [Link.stepSend, hpc] at hs
    dsimp only at hs
    by_cases hst : s.connectStatus = true
    · rw [if_pos hst, nextPayload, if_pos (payload_pos m)] at hs
      obtain rfl := Option.some.inj hs
      have hnum : s.nextNum = num := by simp [nextNum, hpc, SendPc.message]
      exact @setSend s h (.write num m 0) s.mbx s.taken
        (fun hno => absurd (hst.symm.trans hno) (by simp)) hold rfl (.inl hnum.symm)
    · rw [if_neg hst] at hs
      obtain rfl := Option.some.inj hs
      exact @setSend s h .pend s.mbx s.taken (fun _ => rfl) hold rfl (.inr (by simpa using hst))
  · rcases hs with ⟨rfl, -⟩ | ⟨rfl, hcan, rfl⟩
    · have := hok rfl
      simp [hpc, SendPc.writes] at this
    · exact h.writeOk hinv hpc

/-! ## All tasks -/

/-- A step that fails nowhere, and posts no reply before the connection is made. -/
lemma Steady.step (h : s.Steady) (hinv : s.FrameInv) {l : LinkLabel} (hok : s.Smooth l)
    (hpost : ∀ m, l = .post m → m.isReply = false) (hs : s.step l = some s') : s'.Steady := by
  cases l with
  | post m =>
    obtain rfl := Option.some.inj hs
    exact h.post hinv fun _ => hpost m rfl
  | connect ok => exact h.stepConnect hs
  | recv l => exact h.stepRecv (by rintro rfl; exact hok) hs
  | close =>
    rw [Link.step, stepClose, h.closing] at hs
    cases hs
  | send ok => exact h.stepSend hinv (by rintro rfl; exact hok) hs

end Link

end RejectProcess
