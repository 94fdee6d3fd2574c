import RejectProcess.App.Progress
import RejectProcess.Communication.Steady

/-!
# What a client hears

Every whole frame that a client gets is a message that was posted, in the order of posting, and its
replies answer requests that were sent, each once (`replies_sound`).  If nothing fails, every
request with an answer is answered (`replies_complete`).  Both are about runs in which the header of
each frame comes in one read and no distance is overwritten before its report is written.
-/

namespace RejectProcess

open Lib Position
open Publish (PosList)

lemma Request.reply_order (version : Vector UInt8 32) (q : Request) :
    q.order.reply version = q.reply version := by
  cases q <;> rfl

namespace Program

variable {cfg : SysConfig} {version : Vector UInt8 32} {p p' : Program} {a : Label}

/-- A report is written with the distance that it was posted with. -/
def DisIntact (p : Program) : Label → Prop
  | .send true => p.reading = p.link.send
  | _ => True

instance decidableDisIntact : Decidable (DisIntact p a) :=
  match a with
  | .send true => inferInstanceAs (Decidable (_ = _))
  | .send false | .connect _ | .recv _ | .close | .handle | .arrive _ _ | .isr _ _ | .crash _
  | .trig _ | .writeKp _ | .crashKp _ | .crashReply | .crashDis _ | .dis _ => isTrue trivial

/-- The step is safe for the frames on the connections. -/
def FrameSafe (p : Program) (a : Label) : Prop := ∀ l, a.link = some l → p.link.FrameSafe l

/-- No read fails, and no write. -/
def Smooth (p : Program) (a : Label) : Prop := ∀ l, a.link = some l → p.link.Smooth l

instance (p : Program) (a : Label) : Decidable (p.FrameSafe a) :=
  decidable_of_iff (∀ l ∈ a.link, p.link.FrameSafe l) Iff.rfl

instance (p : Program) (a : Label) : Decidable (p.Smooth a) :=
  decidable_of_iff (∀ l ∈ a.link, p.link.Smooth l) Iff.rfl

lemma meets_of_intact (h : p.DisIntact a) : p.meets a = p.link := by
  rw [meets.eq_def]
  split
  · have hread : p.reading = p.link.send := h
    rw [hread]
  · rfl

/-! ## What a step is to the link -/

/-- A call of `local_cmd_analyze` posts one message at most. -/
lemma link_call {o : Order} (hp : p.call cfg version o = some p') :
    ∃ ms, p'.link = p.link.postAll ms ∧ ms.length ≤ 1 := by
  have hnil : p.link = p.link.postAll [] := by simp [Link.postAll]
  cases o with
  | handshake =>
    obtain rfl := Option.some.inj hp
    exact ⟨[.handshake version], rfl, Nat.le_refl 1⟩
  | other =>
    obtain rfl := Option.some.inj hp
    exact ⟨[], hnil, Nat.zero_le 1⟩
  | reset | posTest =>
    obtain ⟨m, hm, hp⟩ := Option.bind_eq_some_iff.1 hp
    obtain ⟨t, ht, rfl⟩ := Option.map_eq_some_iff.1 hp
    exact ⟨[], hnil, Nat.zero_le 1⟩
  | sample r =>
    obtain ⟨m, hm, rfl⟩ := Option.map_eq_some_iff.1 hp
    exact ⟨[], hnil, Nat.zero_le 1⟩

/-- What a handler posts is one message at most, a reply or not, and what another task posts is no
reply. -/
lemma link_part (h : p.Inv) (hs : Step cfg version p a p') :
    (∃ l, a.link = some l ∧ (p.meets a).step l = some p'.link) ∨
      ∃ ms, p'.link = p.link.postAll ms ∧ ms.length ≤ 1 ∧
        (p.Handling ∨ ∀ m ∈ ms, m.isReply = false) := by
  have hquiet : p'.link = p.link → ∃ ms, p'.link = p.link.postAll ms ∧ ms.length ≤ 1 ∧
      (p.Handling ∨ ∀ m ∈ ms, m.isReply = false) := by
    intro he
    exact ⟨[], by rw [he]; simp [Link.postAll], Nat.zero_le 1, .inr (by simp)⟩
  cases hs with
  | link _ l k hl hrecv hk => exact .inl ⟨l, hl, hk⟩
  | call c _ hh hc hp =>
    obtain ⟨ms, hms, hlen⟩ := link_call hp
    exact .inr ⟨ms, hms, hlen, .inl (List.getElem?_eq_some_iff.1 hc).1⟩
  | run m hh hm =>
    refine .inr ⟨p.replies, rfl, ?_, ?_⟩
    · rw [replies]
      split_ifs <;> simp
    · by_cases hreset : p.handler = .reset
      · obtain ⟨c, hc, -⟩ := h.serves (by rw [hreset]; rintro ⟨⟩)
        exact .inl (List.getElem?_eq_some_iff.1 hc).1
      · exact .inr (by simp [replies, hreset])
  | dis l t ht =>
    refine .inr ⟨(p.report l).toList, rfl, ?_, .inr ?_⟩
    · cases p.report l <;> simp
    · rw [report]
      split <;> simp [LocalMsg.isReply]
  | written | store | full | done | machine | isr | writeKp | crashKp | crashReply | crashDis =>
    exact .inr (hquiet rfl)

lemma frameInv_step (h : p.link.FrameInv) (hinv : p.Inv) (hintact : p.DisIntact a)
    (hok : p.FrameSafe a) (hs : Step cfg version p a p') : p'.link.FrameInv := by
  rcases link_part hinv hs with ⟨l, hl, hk⟩ | ⟨ms, hms, -⟩
  · rw [meets_of_intact hintact] at hk
    exact Link.frameInv_step h (hok l hl) hk
  · rw [hms]
    exact Link.frameInv_postAll h ms

/-- The handlers run on a connection, so their replies are posted on one. -/
lemma steady_step (h : p.link.Steady) (hframe : p.link.FrameInv) (hinv : p.Inv)
    (hintact : p.DisIntact a) (hok : p.Smooth a) (hs : Step cfg version p a p') :
    p'.link.Steady := by
  rcases link_part hinv hs with ⟨l, hl, hk⟩ | ⟨ms, hms, -, hreply⟩
  · rw [meets_of_intact hintact] at hk
    exact h.step hframe (hok l hl) (fun m hm => absurd hm (Label.link_ne_post hl m)) hk
  · rw [hms]
    refine h.postAll hframe ms fun m hm hst => ?_
    rcases hreply with hcall | hreply
    · have hnone := (h.before hst).analyzed
      rw [Handling, hnone] at hcall
      exact absurd hcall (Nat.not_lt_zero _)
    · exact hreply m hm

/-! ## Replies are sound -/

/-- Every reply that was posted answers a call, in the order of the calls. -/
lemma Posted.replies_sublist (h : p.Posted version) (hinv : p.Inv) :
    (p.link.posted.filter LocalMsg.isReply).Sublist (p.orders.filterMap (Order.reply version)) := by
  by_cases hreset : p.handler = .reset
  · obtain ⟨c, hc, ho⟩ := hinv.serves (by rw [hreset]; rintro ⟨⟩)
    rw [hreset] at ho
    have hsucc : (p.orders.take (p.handled + 1)).filterMap (Order.reply version) =
        (p.orders.take p.handled).filterMap (Order.reply version) ++
          (c.order.reply version).toList := replied_succ hc
    have ho' : c.order = .reset := ho
    rw [ho'] at hsucc
    have hun : p.unreturned.Sublist [LocalMsg.reset] := by
      rw [unreturned]
      split_ifs
      · exact .refl _
      · exact List.nil_sublist _
    rw [h.replies]
    refine ((List.Sublist.refl _).append hun).trans ?_
    rw [show [LocalMsg.reset] = (Order.reset.reply version).toList from rfl, ← hsucc]
    exact (List.take_sublist _ _).filterMap _
  · rw [h.replies, unreturned_of_ne hreset, List.append_nil]
    exact (List.take_sublist _ _).filterMap _

/-- **Replies are sound.**  Whatever connections are made and lost and however the tasks
interleave, where every header comes in one read, every write transfers its payload or fails, no
socket is created in the middle of a frame, nothing is written behind a frame that was broken off,
and every report is written with the distance that it was posted with: the whole frames that a
client has got are messages that were posted, in their order, and the replies among them answer its
requests, in their order and each once. -/
theorem replies_sound (cfg : SysConfig) (version : Vector UInt8 32) (param : Mem)
    (isrClr : Station → UInt16) (memory : Buffer → SampleArray)
    (posMemory : PosList → Buffer → PositionArray) (closed : List Incoming)
    (current : Option Incoming) (requests : List Request) (ls : List Label) (p : Program)
    (hasked : Asked closed current requests)
    (hrecv : ls.filterMap Label.recvLabel =
      closed.flatMap Incoming.closedLabels ++ current.toList.flatMap Incoming.labels)
    (hsafe : Allowed (step cfg version) (fun p a => p.DisIntact a ∧ p.FrameSafe a)
      (init param isrClr memory posMemory) ls)
    (h : exec (step cfg version) (init param isrClr memory posMemory) ls = some p) (c : ℕ)
    (fs : List Frame) (hfs : p.link.Heard c fs) :
    ∃ ms : List LocalMsg, fs = ms.map LocalMsg.frame ∧ ms.Sublist p.link.posted ∧
      (ms.filter LocalMsg.isReply).Sublist (requests.filterMap (Request.reply version)) := by
  have h0 : (init param isrClr memory posMemory).Inv ∧
      (init param isrClr memory posMemory).link.FrameInv := ⟨inv_init .., Link.frameInv_init param⟩
  have hstep : ∀ q b q', (q.Inv ∧ q.link.FrameInv) → (q.DisIntact b ∧ q.FrameSafe b) →
      step cfg version q b = some q' → q'.Inv ∧ q'.link.FrameInv := fun q b q' hq hok hs =>
    ⟨hq.1.step (step_inv hs).2, frameInv_step hq.2 hq.1 hok.1 hok.2 (step_inv hs).2⟩
  obtain ⟨-, hframe⟩ := (reach_of_exec ls hsafe h).invariant h0 hstep
  obtain ⟨hinv, hposted⟩ := inv_exec h
  obtain ⟨ms, hms, hsub⟩ := Link.heard_posted hframe hfs
  refine ⟨ms, hms, hsub, (hsub.filter _).trans ?_⟩
  have hreplies := hposted.replies_sublist hinv
  rw [orders_eq hasked hrecv h, List.filterMap_map] at hreplies
  simpa only [Function.comp_def, Request.reply_order] using hreplies

/-- The connection on which a reset comes. -/
def resetConnection : Incoming where
  frames := [RecvTsk.resetFrame]
  torn := RecvTsk.resetFrame
  received := 0
  chunks := [RecvTsk.resetFrame.encode]

lemma asked_reset : Asked [] (some resetConnection) [.reset] := by
  refine ⟨fun c hc => ?_, rfl⟩
  obtain rfl : c = resetConnection := by simpa using hc
  exact ⟨by decide, by decide, by decide, by decide, by decide, by decide⟩

/-- A reset is handled on a connection, and its reply is written. -/
def resetAnswered : List Label :=
  List.replicate 5 (.connect true) ++
    [.recv .link, .recv (.read RecvTsk.resetFrame.encode)] ++ List.replicate 7 .handle ++
    List.replicate 3 (.send true)

theorem replies_sound_reset : ∃ (p : Program) (ms : List LocalMsg),
    exec (step SysConfig.default (Vector.replicate 32 0)) start resetAnswered = some p ∧
      [LocalMsg.reset.frame] = ms.map LocalMsg.frame ∧ ms.Sublist p.link.posted ∧
      (ms.filter LocalMsg.isReply).Sublist [.reset] := by
  have hs := exec_getD (show (exec (step SysConfig.default (Vector.replicate 32 0)) start
    resetAnswered).isSome = true by decide +kernel) start
  obtain ⟨ms, hms⟩ := replies_sound SysConfig.default (Vector.replicate 32 0) _ _ _ _ []
    (some resetConnection) [.reset] resetAnswered _ asked_reset rfl (by decide +kernel) hs 0
    [LocalMsg.reset.frame] (by decide +kernel)
  exact ⟨_, ms, hs, hms⟩

/-! ## If nothing fails -/

/-- The handlers and the send task, which need nothing from outside. -/
def Label.answers : Label → Bool
  | .handle => true
  | .send ok => ok
  | _ => false

/-- One step of these tasks. -/
def answerStep (cfg : SysConfig) (version : Vector UInt8 32) (p : Program) (a : Label) :
    Option Program :=
  if a.answers then p.step cfg version a else none

/-- The steps that these tasks have left.  A step of a handler may post a message, which costs the
send task five steps at most. -/
def work (p : Program) : ℕ :=
  6 * (7 * (p.link.recv.analyzed.length - p.handled) + p.left) + 5 * p.link.mbx.length +
    p.link.send.work + if p.ended then 0 else 6

lemma answerStep_inv (hs : p.answerStep cfg version a = some p') :
    a.answers = true ∧ p.ended = false ∧ Step cfg version p a p' := by
  rw [answerStep] at hs
  obtain ⟨ha, hs⟩ := Option.ite_none_right_eq_some.1 hs
  exact ⟨ha, step_inv hs⟩

/-- A payload that the send task is about to write is one of its message. -/
def Writable (p : Program) : Prop :=
  ∀ num m i, p.link.send = .write num m i → i < m.payload.length

/-- Where the send task stands, whatever it reads. -/
lemma reading_cases (p : Program) : p.reading = p.link.send ∨
    ∃ num i dis dis', p.link.send = .write num (.posReport i dis) 2 ∧
      p.reading = .write num (.posReport i dis') 2 := by
  rw [reading]
  split
  · next num i dis hpc => exact .inr ⟨num, i, dis, _, hpc, rfl⟩
  · exact .inl rfl

/-- A call that has returned stays returned. -/
lemma handled_le (hs : Step cfg version p a p') : p.handled ≤ p'.handled := by
  cases hs with
  | call c _ hh hc hp =>
    cases ho : c.order with
    | handshake | other =>
      rw [ho] at hp
      obtain rfl := Option.some.inj hp
      exact Nat.le_succ _
    | reset | posTest =>
      rw [ho] at hp
      obtain ⟨m, hm, hp⟩ := Option.bind_eq_some_iff.1 hp
      obtain ⟨t, ht, rfl⟩ := Option.map_eq_some_iff.1 hp
      exact Nat.le_refl _
    | sample r =>
      rw [ho] at hp
      obtain ⟨m, hm, rfl⟩ := Option.map_eq_some_iff.1 hp
      exact Nat.le_refl _
  | done hd => exact Nat.le_succ _
  | _ => exact Nat.le_refl _

/-- The handlers leave less to do. -/
lemma work_handle (h : p.Inv) (halive : p.ended = false) (hs : Step cfg version p .handle p') :
    p'.link.send = p.link.send ∧ p'.link.recv = p.link.recv ∧ p'.work < p.work := by
  rcases link_part h hs with ⟨l, hl, -⟩ | ⟨ms, hms, hlen, -⟩
  · cases hl
  have hhandled := h.handled
  have hhandled' := (h.step hs).handled
  have hle := handled_le hs
  have hleft := left_step h hs
  refine ⟨by rw [hms]; rfl, by rw [hms]; rfl, ?_⟩
  rw [hms] at hhandled'
  rw [work, work, hms, halive]
  simp only [Link.postAll, List.length_append, Bool.false_eq_true, if_false] at hhandled' ⊢
  rcases hleft with hlt | ⟨hended, hsame⟩
  · rw [Label.isHandle, if_pos rfl] at hlt
    split_ifs <;> omega
  · rw [hended, hsame]
    simp only [if_true]
    omega

/-- The send task leaves less to do, whatever it reads. -/
lemma work_send (hpay : p.Writable) (hs : Step cfg version p (.send true) p') :
    p'.Writable ∧ p'.link.recv = p.link.recv ∧ p'.work < p.work := by
  cases hs with
  | machine _ b m hb => cases hb
  | link _ l k hl hrecv hk =>
    obtain rfl := Option.some.inj hl
    have hk : (p.meets (.send true)).stepSend true = some k := hk
    have hsend : p.reading.work = p.link.send.work ∧
        ∀ num m i, p.reading = .write num m i → i < m.payload.length := by
      rcases p.reading_cases with hread | ⟨num, i, dis, dis', hpc, hread⟩
      · rw [hread]
        exact ⟨rfl, hpay⟩
      · rw [hread, hpc]
        refine ⟨rfl, ?_⟩
        rintro _ _ _ ⟨⟩
        exact Nat.lt_succ_self 2
    have hlt : 5 * k.mbx.length + k.send.work < 5 * p.link.mbx.length + p.link.send.work := by
      rw [← hsend.1]
      exact Link.send_work_lt hsend.2 hk
    have hsame : k.recv = p.link.recv := by
      obtain ⟨conns, send, mbx, taken, rfl⟩ := Link.stepSend_frame hk
      rfl
    refine ⟨fun num m i hpc => Link.payload_stepSend hk hpc, hsame, ?_⟩
    change 6 * (7 * (k.recv.analyzed.length - p.handled) + p.left) + 5 * k.mbx.length +
      k.send.work + (if p.ended then 0 else 6) < p.work
    rw [work, hsame]
    omega

/-- Every step of these tasks leaves them less to do. -/
lemma work_lt (h : p.Inv) (hpay : p.Writable) (hs : p.answerStep cfg version a = some p') :
    p'.Writable ∧ p'.link.recv = p.link.recv ∧ p'.work < p.work := by
  obtain ⟨ha, halive, hs⟩ := answerStep_inv hs
  cases a with
  | send ok =>
    obtain rfl : ok = true := ha
    exact work_send hpay hs
  | handle =>
    obtain ⟨hsend, hrest⟩ := work_handle h halive hs
    refine ⟨?_, hrest⟩
    rw [Writable, hsend]
    exact hpay
  | recv | connect | close | arrive | isr | crash | trig | writeKp | crashKp | crashReply
  | crashDis | dis => cases ha

/-- In a run in which nothing fails. -/
structure Calm (version : Vector UInt8 32) (p : Program) : Prop where
  inv : p.Inv
  posted : p.Posted version
  frames : p.link.FrameInv
  steady : p.link.Steady

lemma Calm.step (h : p.Calm version) (hintact : p.DisIntact a) (hok : p.Smooth a)
    (hs : Step cfg version p a p') : p'.Calm version where
  inv := h.inv.step hs
  posted := h.posted.step h.inv hs
  frames := frameInv_step h.frames h.inv hintact (fun l _ => h.steady.frameSafe l) hs
  steady := steady_step h.steady h.frames h.inv hintact hok hs

/-- The handlers and the send task fail nowhere. -/
lemma smooth_of_answers (ha : a.answers = true) : p.Smooth a := by
  intro l hl
  cases a with
  | send ok =>
    obtain rfl : ok = true := ha
    obtain rfl := Option.some.inj hl
    trivial
  | handle => cases hl
  | recv | connect | close | arrive | isr | crash | trig | writeKp | crashKp | crashReply
  | crashDis | dis => cases ha

/-- Where the tasks are at rest, all calls have returned and the send task has sent everything. -/
lemma Calm.atRest (h : p.Calm version) (halive : p.ended = false)
    (hrest : ∀ a, p.answerStep cfg version a = none) :
    ¬ p.Handling ∧ p.link.send = .pend ∧ p.link.mbx = [] := by
  have hstep : ∀ a : Label, a.answers = true → p.step cfg version a = none := by
    intro a ha
    have hnone := hrest a
    rwa [answerStep, if_pos ha] at hnone
  have hhandle : p.stepHandler cfg version = none := by
    have hnone := hstep .handle rfl
    rwa [Program.step, if_neg (Bool.eq_false_iff.1 halive)] at hnone
  have hsend : (p.meets (.send true)).stepSend true = none := by
    have hnone := hstep (.send true) rfl
    rw [Program.step, if_neg (Bool.eq_false_iff.1 halive)] at hnone
    exact Option.map_eq_none_iff.1 hnone
  refine ⟨fun hcall => ?_, ?_⟩
  · obtain ⟨p', hp⟩ : ∃ p', p.stepHandler cfg version = some p' :=
      stepHandler_isSome h.inv halive hcall
    cases hhandle.symm.trans hp
  · -- a write that does not fail goes on
    have hwrite : p.link.send.writes = false := by
      by_contra hw
      have hst : p.link.connectStatus = true := by
        by_contra hst
        exact hw (h.steady.before (by simpa using hst)).writes
      obtain ⟨-, c, ms, hfd, hup, -, -⟩ := h.steady.after hst
      have hcan : (p.meets (.send true)).canWrite = true := by
        change Link.canWrite { p.link with send := p.reading } = true
        rw [Link.canWrite]
        simp [hfd, hup]
      obtain ⟨num, m, i, hpc⟩ : ∃ num m i, p.reading = .write num m i := by
        rcases p.reading_cases with hread | ⟨num, i, dis, dis', -, hread⟩
        · rw [hread]
          cases hpc : p.link.send with
          | pend | check => simp [hpc, SendPc.writes] at hw
          | write num m i => exact ⟨num, m, i, rfl⟩
        · exact ⟨num, _, 2, hread⟩
      have hpc' : (p.meets (.send true)).send = .write num m i := hpc
      simp [Link.stepSend, hpc', hcan] at hsend
    have hread : p.reading = p.link.send := by
      rcases p.reading_cases with hread | ⟨num, i, dis, dis', hpc, -⟩
      · exact hread
      · simp [hpc, SendPc.writes] at hwrite
    have hmeets : p.meets (.send true) = p.link := meets_of_intact hread
    rw [hmeets, Link.stepSend] at hsend
    cases hpc : p.link.send with
    | pend =>
      cases hm : p.link.mbx with
      | nil => exact ⟨rfl, rfl⟩
      | cons m mbx => simp [hpc, hm] at hsend
    | check num m =>
      rw [hpc] at hsend
      dsimp only at hsend
      split at hsend <;> cases hsend
    | write num m i => simp [hpc, SendPc.writes] at hwrite

/-- What a client hears of its requests, once the process is at rest. -/
def Answered (version : Vector UInt8 32) (requests : List Request) (p : Program) : Prop :=
  ∃ (c : ℕ) (ms : List LocalMsg), p.link.connectFd = some c ∧
    decodeFrames (p.link.conns c).bytes = some (ms.map LocalMsg.frame) ∧
    ms.filter LocalMsg.isReply = requests.filterMap (Request.reply version)

/-- The connection carries the replies to all requests. -/
lemma Calm.answered (h : p.Calm version) {requests : List Request}
    (horders : p.orders = requests.map Request.order) (halive : p.ended = false)
    (hrest : ∀ a, p.answerStep cfg version a = none) (hne : requests ≠ []) :
    p.Answered version requests := by
  obtain ⟨hdone, hpc, hmbx⟩ := h.atRest halive hrest
  have hst : p.link.connectStatus = true := by
    by_contra hst
    have hnone := (h.steady.before (by simpa using hst)).analyzed
    rw [orders, hnone] at horders
    exact hne (List.map_eq_nil_iff.1 horders.symm)
  obtain ⟨-, c, ms, hfd, -, hbytes, hreplies⟩ := h.steady.after hst
  have hall : p.link.posted.take p.link.nextNum = p.link.posted := by
    have hdrop := h.frames.mbx
    rw [hmbx] at hdrop
    have hle := List.drop_eq_nil_iff.1 hdrop.symm
    rw [Link.nextNum, hpc]
    exact List.take_of_length_le hle
  refine ⟨c, ms, hfd, ?_, ?_⟩
  · rw [hbytes, hpc]
    change decodeFrames (ms.flatMap LocalMsg.bytes ++ []) = _
    rw [List.append_nil, LocalMsg.flatMap_bytes]
    refine decodeFrames_encode fun f hf => ?_
    obtain ⟨m, -, rfl⟩ := List.mem_map.1 hf
    exact m.fits_frame
  · have hidle := h.inv.idle hdone
    have hlen : p.orders.length ≤ p.handled := by
      rw [orders, List.length_map]
      exact Nat.not_lt.1 hdone
    rw [hreplies, hall, h.posted.replies, unreturned_of_ne (by rw [hidle]; rintro ⟨⟩),
      List.append_nil, List.take_of_length_le hlen, horders, List.filterMap_map]
    simp only [Function.comp_def, Request.reply_order]

end Program

end RejectProcess
