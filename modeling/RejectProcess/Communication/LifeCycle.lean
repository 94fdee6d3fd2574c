import RejectProcess.Communication.Link

/-!
# The life cycle of a connection

The connect task and the receive task hand the connection to each other: the connect task creates
and connects a socket, sets `connect_status` and posts `gsem_link`, and the receive task closes the
socket and clears the status.  Nothing but the plain status and the semaphore keeps the two apart.
This file keeps a record of every socket beside the three tasks of `Link` and shows that there is
always at most one who has the connection.
-/

namespace RejectProcess

open Lib

/-- What has happened to a socket. -/
structure Socket where
  isOpen : Bool
  connected : Bool
  /-- How often `close` was called on it. -/
  closes : ℕ
deriving DecidableEq, Repr

/-- The three tasks, and a record of the sockets by their numbers. -/
structure LifeCycle where
  link : Link
  sockets : ℕ → Socket

namespace LifeCycle

/-- Nothing was opened yet. -/
def init (param : Mem) : LifeCycle where
  link := .init param
  sockets := fun _ => { isOpen := false, connected := false, closes := 0 }

variable (s : LifeCycle)

/-- Something happens to the socket that `connect_fd` names, if it names one. -/
def onFd (f : Socket → Socket) : ℕ → Socket :=
  match s.link.connectFd with
  | none => s.sockets
  | some c => Function.update s.sockets c (f (s.sockets c))

/-- What a step does to the sockets: the calls of `socket`, `connect` and `close`. -/
def record : LinkLabel → ℕ → Socket
  | .connect ok =>
    match s.link.connect with
    | .create =>
      if ok then
        Function.update s.sockets s.link.created { isOpen := true, connected := false, closes := 0 }
      else s.sockets
    | .connect => if ok then s.onFd fun c => { c with connected := true } else s.sockets
    | _ => s.sockets
  | .close =>
    match s.link.closing with
    | .close => s.onFd fun c => { c with isOpen := false, closes := c.closes + 1 }
    | _ => s.sockets
  | _ => s.sockets

/-- One step. -/
def step (s : LifeCycle) (l : LinkLabel) : Option LifeCycle :=
  (s.link.step l).map fun link => { link := link, sockets := s.record l }

/-! ## What is required -/

/-- The receive task calls `read` next. -/
def Reads : Prop := s.link.closing = .no ∧ s.link.recv.loop ≠ .link

/-- The sockets are opened and closed in turn, and read from in between. -/
structure Ordered (s : LifeCycle) : Prop where
  /-- At most one socket is open. -/
  one_open : ∀ c c', (s.sockets c).isOpen = true → (s.sockets c').isOpen = true → c = c'
  /-- A socket that is not the current one was closed, and once. -/
  closed_once : ∀ c < s.link.created, s.link.connectFd ≠ some c →
    (s.sockets c).isOpen = false ∧ (s.sockets c).closes = 1
  /-- A step that changes `connect_fd` finds its socket closed. -/
  reassigned : ∀ l s', s.step l = some s' → s'.link.connectFd ≠ s.link.connectFd →
    ∀ c, s.link.connectFd = some c → (s.sockets c).isOpen = false
  gsem_link : s.link.gsemLink ≤ 1
  /-- A read is from an open and connected socket, and the status says so. -/
  read : s.Reads → s.link.connectStatus = true ∧
    ∃ c, s.link.connectFd = some c ∧ (s.sockets c).isOpen = true ∧ (s.sockets c).connected = true

/-! ## Who has the connection -/

/-- The number of those who have it on the receiving side: the semaphore, the loops of the receive
task, its way out of them. -/
def received : ℕ :=
  s.link.gsemLink + (if s.link.recv.loop = .link then 0 else 1)
    + (if s.link.closing = .no then 0 else 1)

/-- The socket that `connect_fd` names has not been closed. -/
def InUse : Prop :=
  s.link.connect = .connect ∨ s.link.connect = .mark ∨
    s.link.connectStatus = true ∧ s.link.closing ≠ .status

/-- Somebody has a socket on which `connect` has succeeded. -/
def Connected : Prop := s.link.connect = .mark ∨ s.link.connectStatus = true

/-- The status tells who has the connection. -/
structure HandedOn (s : LifeCycle) : Prop where
  /-- With the status set, exactly one on the receiving side has it; before `sem_post` it is still
  with the connect task. -/
  status : s.link.connectStatus = true → s.received = if s.link.connect = .post then 0 else 1
  /-- With the status clear, it is with the connect task, if anywhere. -/
  noStatus : s.link.connectStatus = false → s.received = 0
  /-- The connect task makes a connection only when there is none. -/
  working : s.link.connect = .create ∨ s.link.connect = .connect ∨ s.link.connect = .mark →
    s.link.connectStatus = false
  posting : s.link.connect = .post → s.link.connectStatus = true

/-- The sockets are as the tasks have left them. -/
structure Recorded (s : LifeCycle) : Prop where
  fd : ∀ c, s.link.connectFd = some c → c < s.link.created
  connected : s.Connected → ∃ c, s.link.connectFd = some c ∧ (s.sockets c).connected = true
  inUse : s.InUse → ∀ c, s.link.connectFd = some c →
    (s.sockets c).isOpen = true ∧ (s.sockets c).closes = 0
  closed : ∀ c < s.link.created, s.link.connectFd ≠ some c ∨ ¬ s.InUse →
    (s.sockets c).isOpen = false ∧ (s.sockets c).closes = 1
  fresh : ∀ c, s.link.created ≤ c → (s.sockets c).isOpen = false

variable {s} {s' : LifeCycle} {l : LinkLabel}

lemma handedOn_init (param : Mem) : (init param).HandedOn where
  status := by simp [init, Link.init]
  noStatus := fun _ => rfl
  working := fun _ => rfl
  posting := by simp [init, Link.init]

lemma recorded_init (param : Mem) : (init param).Recorded where
  fd := by simp [init, Link.init]
  connected := by simp [init, Link.init, Connected]
  inUse := by simp [init, Link.init]
  closed := by simp [init, Link.init]
  fresh := fun _ _ => rfl

end LifeCycle

/-! ## What the steps do -/

namespace RecvTsk

variable {s s' : RecvTsk}

lemma loop_paramLoop (s : RecvTsk) : s.paramLoop.loop ≠ .link := by
  rw [paramLoop]
  split <;> simp [startFrame]

lemma loop_headerLoop (s : RecvTsk) : s.headerLoop.loop ≠ .link := by
  rw [headerLoop]
  split
  · simp
  · exact loop_paramLoop _

lemma step_link (h : s.step .link = some s') : s.loop = .link ∧ s'.loop ≠ .link := by
  simp only [step] at h
  split at h
  · rename_i hl
    cases h
    exact ⟨hl, by simp [startFrame]⟩
  · cases h

lemma step_read_loop {bs : List UInt8} (h : s.step (.read bs) = some s') :
    s.loop ≠ .link ∧ s'.loop ≠ .link := by
  rcases step_read h with ⟨hl, -, rfl⟩ | ⟨hl, -, rfl⟩
  · exact ⟨by simp [hl], loop_headerLoop _⟩
  · exact ⟨by simp [hl], loop_paramLoop _⟩

lemma step_fail (h : s.step .fail = some s') : s.loop ≠ .link ∧ s'.loop = .link := by
  simp only [step] at h
  split at h
  · cases h
  · rename_i hl
    cases h
    exact ⟨hl, rfl⟩

end RecvTsk

namespace Link

variable {s s' : Link}

lemma onFd_frame (s : Link) (f : Conn → Conn) :
    ∃ conns, s.onFd f = { s with conns := conns } := by
  rw [onFd]
  split <;> exact ⟨_, rfl⟩

/-- The send task changes nothing but its own variables and what is written on a connection. -/
lemma stepSend_frame {ok : Bool} (h : s.stepSend ok = some s') :
    ∃ conns send mbx taken,
      s' = { s with conns := conns, send := send, mbx := mbx, taken := taken } := by
  have hnext : ∀ (s : Link) num m i, ∃ send, s.nextPayload num m i = { s with send := send } := by
    intro s num m i
    rw [nextPayload]
    split <;> exact ⟨_, rfl⟩
  rw [stepSend] at h
  cases hpc : s.send with
  | pend =>
    rw [hpc] at h
    cases hm : s.mbx with
    | nil => simp [hm] at h
    | cons m mbx =>
      simp only [hm, Option.some.injEq] at h
      exact ⟨_, _, _, _, h.symm⟩
  | check num m =>
    simp only [hpc] at h
    obtain ⟨send, hsend⟩ := hnext s num m 0
    split at h
    · rw [hsend] at h
      cases h
      exact ⟨_, _, _, _, rfl⟩
    · cases h
      exact ⟨_, _, _, _, rfl⟩
  | write num m i =>
    simp only [hpc] at h
    split at h
    · obtain ⟨-, ⟨⟩⟩ := Option.ite_none_right_eq_some.1 h
      obtain ⟨conns, hconns⟩ := s.onFd_frame fun c => { c with
        log := c.log ++ [{ num := num, idx := i, data := m.payload.getD i [] }] }
      obtain ⟨send, hsend⟩ := hnext { s with conns := conns } num m (i + 1)
      rw [writeOk, hconns, hsend]
      exact ⟨_, _, _, _, rfl⟩
    · obtain ⟨conns, hconns⟩ := s.onFd_frame fun c => { c with
        abandoned := c.abandoned || decide (0 < i) }
      cases h
      rw [writeFail, hconns]
      exact ⟨_, _, _, _, rfl⟩

end Link

namespace LifeCycle

variable {s s' : LifeCycle} {l : LinkLabel}

/-- A step that leaves the hand-over alone. -/
lemma HandedOn.congr (h : s.HandedOn) (hstatus : s'.link.connectStatus = s.link.connectStatus)
    (hrec : s'.received = s.received) (hconnect : s'.link.connect = s.link.connect) :
    s'.HandedOn where
  status := by rw [hstatus, hrec, hconnect]; exact h.status
  noStatus := by rw [hstatus, hrec]; exact h.noStatus
  working := by rw [hstatus, hconnect]; exact h.working
  posting := by rw [hstatus, hconnect]; exact h.posting

/-- A step after which the same socket is in use, or none, and no socket was touched. -/
lemma Recorded.congr (h : s.Recorded) (hfd : s'.link.connectFd = s.link.connectFd)
    (hcreated : s'.link.created = s.link.created) (hsockets : s'.sockets = s.sockets)
    (huse : s'.InUse ↔ s.InUse) (hcon : s'.Connected → s.Connected) : s'.Recorded where
  fd := by rw [hfd, hcreated]; exact h.fd
  connected := by rw [hfd, hsockets]; exact fun hc => h.connected (hcon hc)
  inUse := by rw [hfd, hsockets, huse]; exact h.inUse
  closed := by rw [hfd, hsockets, hcreated, huse]; exact h.closed
  fresh := by rw [hsockets, hcreated]; exact h.fresh

/-! ## The connect task -/

lemma onFd_of_some (f : Socket → Socket) {c : ℕ} (h : s.link.connectFd = some c) :
    s.onFd f = Function.update s.sockets c (f (s.sockets c)) := by
  rw [onFd, h]

/-- `socket` succeeds: the new socket is current, and all others are closed. -/
lemma Recorded.socket (h : s.Recorded) (hon : s.HandedOn) (hpc : s.link.connect = .create) :
    Recorded { link := s.link.socket true, sockets := s.record (.connect true) } := by
  have hfree : ¬ s.InUse := by
    rw [InUse, hpc, hon.working (.inl hpc)]
    simp
  have hsockets : s.record (.connect true) = Function.update s.sockets s.link.created
      { isOpen := true, connected := false, closes := 0 } := by
    simp [record, hpc]
  refine ⟨?_, ?_, ?_, ?_, ?_⟩
  · intro c hc
    obtain rfl : s.link.created = c := by simpa [Link.socket] using hc
    exact Nat.lt_succ_self _
  · intro hc
    have hst := hon.working (.inl hpc)
    simp [Connected, Link.socket, hst] at hc
  · intro _ c hc
    obtain rfl : s.link.created = c := by simpa [Link.socket] using hc
    rw [hsockets]
    simp
  · intro c hc hne
    have hne' : c ≠ s.link.created := by
      rintro rfl
      simp [Link.socket, InUse] at hne
    have hlt : c < s.link.created := by
      have : c < s.link.created + 1 := hc
      omega
    rw [hsockets]
    simpa [hne'] using h.closed c hlt (.inr hfree)
  · intro c hc
    have hlt : s.link.created < c := hc
    rw [hsockets]
    simpa [hlt.ne'] using h.fresh c hlt.le

/-- `socket` fails: no socket is current, and all are closed. -/
lemma Recorded.noSocket (h : s.Recorded) (hon : s.HandedOn) (hpc : s.link.connect = .create) :
    Recorded { link := s.link.socket false, sockets := s.record (.connect false) } := by
  have hfree : ¬ s.InUse := by
    rw [InUse, hpc, hon.working (.inl hpc)]
    simp
  have hsockets : s.record (.connect false) = s.sockets := by simp [record, hpc]
  refine ⟨by simp [Link.socket], ?_, by simp [Link.socket], ?_, ?_⟩
  · intro hc
    have hst := hon.working (.inl hpc)
    simp [Connected, Link.socket, hst] at hc
  · intro c hc _
    rw [hsockets]
    exact h.closed c hc (.inr hfree)
  · rw [hsockets]
    exact h.fresh

/-- `connect` succeeds. -/
lemma Recorded.connect (h : s.Recorded) (hpc : s.link.connect = .connect) {c : ℕ}
    (hfd : s.link.connectFd = some c) {link : Link} (hcreated : link.created = s.link.created)
    (hfd' : link.connectFd = some c) (hpc' : link.connect = .mark) :
    Recorded { link := link, sockets := s.record (.connect true) } := by
  have hsockets : s.record (.connect true) = Function.update s.sockets c
      { s.sockets c with connected := true } := by
    simp only [record, hpc, if_true]
    exact onFd_of_some _ hfd
  have hsame : ∀ c', (s.record (.connect true) c').isOpen = (s.sockets c').isOpen ∧
      (s.record (.connect true) c').closes = (s.sockets c').closes := by
    intro c'
    rw [hsockets]
    by_cases hc : c' = c
    · subst hc
      simp
    · simp [hc]
  have huse : s.InUse := .inl hpc
  refine ⟨?_, ?_, ?_, ?_, ?_⟩
  · intro c' hc'
    rw [hcreated]
    exact h.fd c' (by rw [hfd, ← hfd']; exact hc')
  · intro _
    exact ⟨c, hfd', by simp [hsockets]⟩
  · intro _ c' hc'
    rw [(hsame c').1, (hsame c').2]
    exact h.inUse huse c' (by rw [hfd, ← hfd']; exact hc')
  · intro c' hc' hne
    rw [(hsame c').1, (hsame c').2]
    refine h.closed c' (hcreated ▸ hc') (.inl ?_)
    rcases hne with hne | hnot
    · rw [hfd, ← hfd']
      exact hne
    · exact absurd (.inr (.inl hpc')) hnot
  · intro c' hc'
    rw [(hsame c').1]
    exact h.fresh c' (hcreated ▸ hc')

/-- `close`: the current socket is closed, for the first time. -/
lemma Recorded.close (h : s.Recorded) (hon : s.HandedOn) (hst : s.link.connectStatus = true)
    (hpc : s.link.closing = .close) :
    Recorded { link := { s.link with closing := .status }, sockets := s.record .close } := by
  have huse : s.InUse := .inr (.inr ⟨hst, by simp [hpc]⟩)
  obtain ⟨c, hfd, hcon⟩ := h.connected (.inr hst)
  have hnot :
      ¬ InUse { link := { s.link with closing := .status }, sockets := s.record .close } := by
    rintro (hc | hc | ⟨-, hc⟩)
    · exact absurd (hon.working (.inr (.inl hc))) (by simp [hst])
    · exact absurd (hon.working (.inr (.inr hc))) (by simp [hst])
    · exact hc rfl
  have hsockets : s.record .close = Function.update s.sockets c
      { s.sockets c with isOpen := false, closes := (s.sockets c).closes + 1 } := by
    simp only [record, hpc]
    exact onFd_of_some _ hfd
  refine ⟨h.fd, ?_, fun hu => absurd hu hnot, ?_, ?_⟩
  · intro _
    exact ⟨c, hfd, by simpa [hsockets] using hcon⟩
  · intro c' hc' _
    rw [hsockets]
    by_cases hc : c' = c
    · subst hc
      simpa using (h.inUse huse c' hfd).2
    · have hne : s.link.connectFd ≠ some c' := by
        rw [hfd]
        simpa using fun h => hc h.symm
      simpa [hc] using h.closed c' hc' (.inl hne)
  · intro c' hc'
    rw [hsockets]
    by_cases hc : c' = c
    · simp [hc]
    · simpa [hc] using h.fresh c' hc'

/-! ## The invariant -/

/-- The hand-over and the record of the sockets together. -/
structure Inv (s : LifeCycle) : Prop extends HandedOn s, Recorded s

lemma inv_init (param : Mem) : (init param).Inv :=
  { handedOn_init param, recorded_init param with }

/-- With the status set, the connect task has nothing to do or is about to post. -/
lemma HandedOn.not_working (h : s.HandedOn) (hst : s.link.connectStatus = true) :
    s.link.connect ≠ .create ∧ s.link.connect ≠ .connect ∧ s.link.connect ≠ .mark := by
  refine ⟨?_, ?_, ?_⟩
  · intro hc
    simp [h.working (.inl hc)] at hst
  · intro hc
    simp [h.working (.inr (.inl hc))] at hst
  · intro hc
    simp [h.working (.inr (.inr hc))] at hst

/-- Where somebody on the receiving side has the connection, the status is set and `sem_post` is
over. -/
lemma HandedOn.of_received (h : s.HandedOn) (hr : 0 < s.received) :
    s.link.connectStatus = true ∧ s.link.connect = .sleep ∧ s.received = 1 := by
  have hst : s.link.connectStatus = true := by
    by_contra hne
    have := h.noStatus (by simpa using hne)
    omega
  have hcount := h.status hst
  obtain ⟨h1, h2, h3⟩ := h.not_working hst
  cases hc : s.link.connect with
  | sleep => exact ⟨hst, rfl, by rw [hcount, hc]; rfl⟩
  | post =>
    rw [hc, if_pos rfl] at hcount
    omega
  | create => exact absurd hc h1
  | connect => exact absurd hc h2
  | mark => exact absurd hc h3

/-- `connect_status = 1`: the connection is the receive task's, which does not know of it yet. -/
lemma Inv.mark (h : s.Inv) (hpc : s.link.connect = .mark) :
    Inv { link := { s.link with connectStatus := true, connect := .post },
          sockets := s.sockets } := by
  have hzero := h.noStatus (h.working (.inr (.inr hpc)))
  -- the task that closes is at rest
  have hclosing : s.link.closing = .no := by
    by_contra hne
    simp [received, hne] at hzero
  refine { toHandedOn := ⟨fun _ => hzero, ?_, ?_, fun _ => rfl⟩, toRecorded := ?_ }
  · exact fun hc => by cases hc
  · simp
  · refine h.toRecorded.congr rfl rfl rfl ?_ (fun _ => .inl hpc)
    simp [InUse, hpc, hclosing]

/-- `sem_post`: the receive task may take the connection. -/
lemma Inv.post (h : s.Inv) (hpc : s.link.connect = .post) :
    Inv { link := { s.link with gsemLink := s.link.gsemLink + 1, connect := .sleep },
          sockets := s.sockets } := by
  have hst := h.posting hpc
  have hzero : s.received = 0 := by rw [h.status hst, hpc]; rfl
  refine { toHandedOn := ⟨?_, ?_, ?_, ?_⟩, toRecorded := ?_ }
  · intro _
    simp only [received] at hzero ⊢
    simp only [reduceCtorEq, if_false]
    omega
  · exact fun hc => absurd hc (by simp [hst])
  · simp
  · simp
  · refine h.toRecorded.congr rfl rfl rfl ?_ (fun _ => .inr hst)
    simp [InUse, hpc]

/-- A step of the connect task. -/
lemma Inv.stepConnect (h : s.Inv) {ok : Bool} {link : Link}
    (hs : s.link.stepConnect ok = some link) :
    Inv { link := link, sockets := s.record (.connect ok) } := by
  rw [Link.stepConnect] at hs
  cases hpc : s.link.connect with
  | sleep =>
    have hrecord : s.record (.connect ok) = s.sockets := by simp [record, hpc]
    rw [hpc] at hs
    simp only [Option.some.injEq] at hs
    rw [hrecord]
    split at hs
    · subst hs
      exact h
    · rename_i hst
      subst hs
      refine { toHandedOn := ⟨?_, h.noStatus, ?_, ?_⟩, toRecorded := ?_ }
      · exact fun hc => absurd hc hst
      · exact fun _ => by simpa using hst
      · simp
      · refine h.toRecorded.congr rfl rfl rfl ?_ ?_
        · simp [InUse, hpc]
        · exact fun hc => .inr (by simpa [Connected] using hc)
  | create =>
    rw [hpc] at hs
    obtain rfl := Option.some.inj hs
    have hst := h.working (.inl hpc)
    cases ok with
    | true =>
      refine { toHandedOn := ⟨?_, h.noStatus, fun _ => hst, ?_⟩,
               toRecorded := h.toRecorded.socket h.toHandedOn hpc }
      · exact fun hc => absurd hc (by simp [Link.socket, hst])
      · simp [Link.socket]
    | false =>
      refine { toHandedOn := ⟨?_, h.noStatus, fun _ => hst, ?_⟩,
               toRecorded := h.toRecorded.noSocket h.toHandedOn hpc }
      · exact fun hc => absurd hc (by simp [Link.socket, hst])
      · simp [Link.socket]
  | connect =>
    simp only [hpc] at hs
    have hst := h.working (.inr (.inl hpc))
    cases ok with
    | false =>
      have hrecord : s.record (.connect false) = s.sockets := by simp [record, hpc]
      obtain rfl := Option.some.inj hs
      rw [hrecord]
      exact h
    | true =>
      simp only [if_true] at hs
      obtain ⟨hsome, ⟨⟩⟩ := Option.ite_none_right_eq_some.1 hs
      obtain ⟨c, hfd⟩ := Option.isSome_iff_exists.1 hsome
      rw [Link.onFd_of_some _ hfd]
      refine { toHandedOn := ⟨?_, h.noStatus, fun _ => hst, ?_⟩,
               toRecorded := h.toRecorded.connect hpc hfd rfl hfd rfl }
      · exact fun hc => absurd hc (by simp [hst])
      · simp
  | mark =>
    have hrecord : s.record (.connect ok) = s.sockets := by simp [record, hpc]
    rw [hpc] at hs
    obtain rfl := Option.some.inj hs
    rw [hrecord]
    exact h.mark hpc
  | post =>
    have hrecord : s.record (.connect ok) = s.sockets := by simp [record, hpc]
    rw [hpc] at hs
    obtain rfl := Option.some.inj hs
    rw [hrecord]
    exact h.post hpc

/-- A step of the receive task in its loops moves the connection from the semaphore into the
loops, leaves it there, or takes it to the way out. -/
lemma Inv.stepRecv (h : s.Inv) {l : RecvLabel} {link : Link} (hs : s.link.stepRecv l = some link) :
    Inv { link := link, sockets := s.record (.recv l) } := by
  unfold Link.stepRecv at hs
  cases hcl : s.link.closing with
  | shutdown | close | status => simp [hcl] at hs
  | no =>
    simp only [hcl] at hs
    cases l with
    | link =>
      obtain ⟨hpos, hs⟩ := Option.ite_none_right_eq_some.1 hs
      obtain ⟨r, hr, rfl⟩ := Option.map_eq_some_iff.1 hs
      obtain ⟨hl, hl'⟩ := RecvTsk.step_link hr
      refine { toHandedOn := h.toHandedOn.congr rfl ?_ rfl,
               toRecorded := h.toRecorded.congr rfl rfl rfl (by simp [InUse, hcl]) id }
      simp only [received, hl, hl', hcl, if_true, if_false]
      omega
    | read bs =>
      obtain ⟨r, hr, rfl⟩ := Option.map_eq_some_iff.1 hs
      obtain ⟨hl, hl'⟩ := RecvTsk.step_read_loop hr
      refine { toHandedOn := h.toHandedOn.congr rfl ?_ rfl,
               toRecorded := h.toRecorded.congr rfl rfl rfl (by simp [InUse, hcl]) id }
      simp only [received, hl, hl', hcl, if_false]
    | fail =>
      obtain ⟨r, hr, rfl⟩ := Option.map_eq_some_iff.1 hs
      obtain ⟨hl, hl'⟩ := RecvTsk.step_fail hr
      refine { toHandedOn := h.toHandedOn.congr rfl ?_ rfl,
               toRecorded := h.toRecorded.congr rfl rfl rfl ?_ id }
      · simp only [received, hl, hl', hcl, if_true, if_false, reduceCtorEq]
      · simp [InUse, hcl]

/-- A step of the receive task on its way out. -/
lemma Inv.stepClose (h : s.Inv) {link : Link} (hs : s.link.stepClose = some link) :
    Inv { link := link, sockets := s.record .close } := by
  rw [Link.stepClose] at hs
  cases hcl : s.link.closing with
  | no => simp [hcl] at hs
  | shutdown =>
    have hrecord : s.record .close = s.sockets := by simp [record, hcl]
    rw [hcl] at hs
    obtain rfl := Option.some.inj hs
    rw [hrecord]
    obtain ⟨conns, hconns⟩ := s.link.onFd_frame fun c => { c with up := false }
    rw [hconns]
    refine { toHandedOn := h.toHandedOn.congr rfl ?_ rfl,
             toRecorded := h.toRecorded.congr rfl rfl rfl ?_ id }
    · simp [received, hcl]
    · simp [InUse, hcl]
  | close =>
    have hpos : 0 < s.received := by simp [received, hcl]
    obtain ⟨hst, -, -⟩ := h.of_received hpos
    rw [hcl] at hs
    obtain rfl := Option.some.inj hs
    refine { toHandedOn := h.toHandedOn.congr rfl ?_ rfl,
             toRecorded := h.toRecorded.close h.toHandedOn hst hcl }
    simp [received, hcl]
  | status =>
    have hrecord : s.record .close = s.sockets := by simp [record, hcl]
    have hpos : 0 < s.received := by simp [received, hcl]
    obtain ⟨hst, hsleep, hone⟩ := h.of_received hpos
    rw [hcl] at hs
    obtain rfl := Option.some.inj hs
    rw [hrecord]
    refine { toHandedOn := ⟨?_, ?_, ?_, ?_⟩, toRecorded := ?_ }
    · exact fun hc => by cases hc
    · intro _
      simp only [received, hcl, reduceCtorEq, if_false, if_true] at hone ⊢
      omega
    · exact fun _ => rfl
    · simp [hsleep]
    · refine h.toRecorded.congr rfl rfl rfl ?_ ?_
      · simp [InUse, hsleep, hcl]
      · simp [Connected, hsleep]

/-- Every step keeps the invariant. -/
lemma Inv.step (h : s.Inv) (hs : s.step l = some s') : s'.Inv := by
  obtain ⟨link, hlink, rfl⟩ := Option.map_eq_some_iff.1 hs
  cases l with
  | post m =>
    obtain rfl := Option.some.inj hlink
    exact { toHandedOn := h.toHandedOn.congr rfl rfl rfl,
            toRecorded := h.toRecorded.congr rfl rfl rfl Iff.rfl id }
  | connect ok => exact h.stepConnect hlink
  | recv l => exact h.stepRecv hlink
  | close => exact h.stepClose hlink
  | send ok =>
    obtain ⟨conns, send, mbx, taken, rfl⟩ := Link.stepSend_frame hlink
    exact { toHandedOn := h.toHandedOn.congr rfl rfl rfl,
            toRecorded := h.toRecorded.congr rfl rfl rfl Iff.rfl id }

end LifeCycle

/-- Only `socket` assigns `connect_fd`. -/
lemma Link.connectFd_step {s s' : Link} {l : LinkLabel} (hs : s.step l = some s')
    (hne : s'.connectFd ≠ s.connectFd) : s.connect = .create := by
  cases l with
  | post m =>
    obtain rfl := Option.some.inj hs
    exact absurd rfl hne
  | send ok =>
    obtain ⟨conns, send, mbx, taken, rfl⟩ := stepSend_frame hs
    exact absurd rfl hne
  | connect ok =>
    simp only [Link.step, stepConnect] at hs
    obtain ⟨conns, hconns⟩ := s.onFd_frame fun c => { c with up := true }
    rw [hconns] at hs
    cases hpc : s.connect with
    | create => rfl
    | sleep | connect | mark | post => grind
  | recv l =>
    simp only [Link.step, stepRecv] at hs
    grind [Option.map_eq_some_iff]
  | close =>
    simp only [Link.step, stepClose] at hs
    obtain ⟨conns, hconns⟩ := s.onFd_frame fun c => { c with up := false }
    rw [hconns] at hs
    grind

namespace LifeCycle

variable {s s' : LifeCycle} {l : LinkLabel}

namespace Inv

/-- An open socket is the current one. -/
lemma current_of_isOpen (h : s.Inv) {c : ℕ} (hc : (s.sockets c).isOpen = true) :
    s.link.connectFd = some c := by
  by_contra hne
  rcases Nat.lt_or_ge c s.link.created with hlt | hge
  · simp [(h.closed c hlt (.inl hne)).1] at hc
  · simp [h.fresh c hge] at hc

lemma received_le (h : s.Inv) : s.received ≤ 1 := by
  rcases Nat.eq_zero_or_pos s.received with hzero | hpos
  · omega
  · exact (h.of_received hpos).2.2.le

lemma ordered (h : s.Inv) : s.Ordered where
  one_open := by
    intro c c' hc hc'
    exact Option.some.inj ((h.current_of_isOpen hc).symm.trans (h.current_of_isOpen hc'))
  closed_once := fun c hc hne => h.closed c hc (.inl hne)
  reassigned := by
    intro l s' hs hne c hc
    obtain ⟨link, hlink, rfl⟩ := Option.map_eq_some_iff.1 hs
    have hpc := Link.connectFd_step hlink hne
    have hfree : ¬ s.InUse := by
      rw [InUse, hpc, h.working (.inl hpc)]
      simp
    exact (h.closed c (h.fd c hc) (.inr hfree)).1
  gsem_link := by
    have := h.received_le
    rw [received] at this
    omega
  read := by
    rintro ⟨hcl, hl⟩
    have hpos : 0 < s.received := by simp [received, hl]
    obtain ⟨hst, -, -⟩ := h.of_received hpos
    obtain ⟨c, hfd, hcon⟩ := h.connected (.inr hst)
    have huse : s.InUse := .inr (.inr ⟨hst, by simp [hcl]⟩)
    exact ⟨hst, c, hfd, (h.inUse huse c hfd).1, hcon⟩

end Inv

/-- In every interleaving of the three tasks, whatever the calls of `socket`, `connect` and `read`
return, the sockets are opened and closed in turn and read from in between. -/
theorem connections_ordered (param : Mem) (s : LifeCycle)
    (h : Reach step AnyStep (init param) s) : s.Ordered := by
  have hinv : s.Inv := h.invariant (inv_init param) fun _ _ _ hI _ hs => hI.step hs
  exact hinv.ordered

/-- The first `socket` fails to connect once, then a connection is made, read from and lost, and a
second socket is created. -/
def reconnect : List LinkLabel :=
  [.connect true, .connect true, .connect false, .connect true, .connect true, .connect true,
    .recv .link, .recv (.read [1]), .recv .fail, .close, .close, .close,
    .connect true, .connect true]

def afterReconnect : LifeCycle :=
  (exec step (init fun _ => 0) reconnect).getD (init fun _ => 0)

theorem connections_ordered_reconnect : afterReconnect.Ordered :=
  connections_ordered (fun _ => 0) afterReconnect
    (reach_any reconnect (exec_getD (by decide +kernel) _))

end LifeCycle

end RejectProcess
