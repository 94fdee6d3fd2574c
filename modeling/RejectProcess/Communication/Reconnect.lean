import RejectProcess.Communication.Reassembly

/-!
# Frames over several connections

The receive task keeps `SrvCmd_str`, `nhas_recv` and the parameter block when a connection is lost
in the middle of a frame, and goes on with them on the next one.  As long as no read ends inside a
header that goes on, nothing of that reaches `local_cmd_analyze`: it is called for the frames that
came whole, on whatever connections, and for no others.
-/

namespace RejectProcess

open Lib

/-- What arrives on one connection: some frames, and of one more frame the first bytes. -/
structure Incoming where
  frames : List Frame
  torn : Frame
  received : ℕ
  chunks : List (List UInt8)

namespace Incoming

variable (c : Incoming)

/-- The chunks are those of the frames, which fit the parameter block, and no read ends inside a
header, unless the connection is lost there. -/
structure Sent : Prop where
  frames : ∀ f ∈ c.frames, f.length ≤ 4 + paramSize
  torn : c.torn.length ≤ 4 + paramSize
  received : c.received < c.torn.encode.length
  bytes : c.chunks.flatten = encodeFrames c.frames ++ c.torn.encode.take c.received
  whole : HeadersWhole c.frames c.chunks
  tornWhole : ∀ n < 8, 0 < n → n < c.received →
    ¬ IsCut c.chunks ((encodeFrames c.frames).length + n)

/-- What the receive task meets on the connection while it lasts. -/
def labels : List RecvLabel := .link :: c.chunks.map .read

/-- What it meets on the connection until a read fails. -/
def closedLabels : List RecvLabel := c.labels ++ [.fail]

end Incoming

namespace RecvTsk

variable {s s' : RecvTsk} {chunks : List (List UInt8)}

/-! ## Frames that come whole -/

lemma Received.refl (s : RecvTsk) : Received s s [] := ⟨⟨[], by simp⟩, rfl⟩

lemma Received.trans {s₁ : RecvTsk} {fs gs : List Frame} (h : Received s s₁ fs)
    (h' : Received s₁ s' gs) : Received s s' (fs ++ gs) := by
  obtain ⟨⟨calls, hcalls, hall⟩, hplace⟩ := h
  obtain ⟨⟨calls', hcalls', hall'⟩, hplace'⟩ := h'
  exact ⟨⟨calls ++ calls', by rw [hcalls', hcalls, List.append_assoc],
    List.rel_append hall hall'⟩, hplace'.trans hplace⟩

/-- Where a task stays at the same calls and writes no header byte, it has received nothing. -/
lemma Received.of_same (han : s'.analyzed = s.analyzed) (hstrays : s'.strays = s.strays) :
    Received s s' [] := ⟨⟨[], by simp [han]⟩, hstrays⟩

/-- The frames at the beginning of a stream are handed over, and the task is at the next. -/
lemma recv_frames {frames : List Frame} {rest : List UInt8} (hs : s.AtFrame)
    (hf : ∀ f ∈ frames, f.Fits) (hwhole : HeadersWhole frames chunks)
    (hflat : chunks.flatten = encodeFrames frames ++ rest) (h : recvAll s chunks = some s') :
    ∃ (cs cs' : List (List UInt8)) (s₁ : RecvTsk), chunks = cs ++ cs' ∧
      cs.flatten = encodeFrames frames ∧ cs'.flatten = rest ∧ s₁.AtFrame ∧
      Received s s₁ frames ∧ recvAll s₁ cs' = some s' := by
  induction frames generalizing s chunks with
  | nil => exact ⟨[], chunks, s, rfl, rfl, hflat, hs, .refl s, h⟩
  | cons f fs ih =>
    rw [encodeFrames_cons, Frame.encode, List.append_assoc, List.append_assoc] at hflat
    obtain ⟨bs, t, rfl, hrest, hrun, han, hstrays, hlen, hcmd, hn⟩ :=
      recv_whole_header hs (hf f (by simp)) (fun _ hk hcut => hwhole.head hk hcut) hflat h
    obtain ⟨cs₁, cs₂, c, s₁, rfl, hcs₁, hcs₂, hrun₁, hat, hcall, hcar, hstrays₁⟩ :=
      @recv_params s' _ t f (encodeFrames fs ++ rest) hlen hcmd (by rw [hn]; exact Nat.zero_le _)
        (by rw [hn]; rfl) (by rw [hn]; exact hrest) hrun
    rw [hn] at hcs₁
    have hencode : (f.header :: cs₁).flatten = f.encode := by
      rw [List.flatten_cons, hcs₁]
      rfl
    rw [← List.cons_append, headersWhole_cons rfl hencode] at hwhole
    obtain ⟨cs₃, cs', s₂, rfl, hcs₃, hcs', hat₂, hcalls, hrun₂⟩ :=
      ih hat (fun g hg => hf g (List.mem_cons_of_mem _ hg)) hwhole hcs₂ hrun₁
    refine ⟨f.header :: cs₁ ++ cs₃, cs', s₂, by simp, ?_, hcs', hat₂, ?_, hrun₂⟩
    · rw [List.flatten_append, hencode, hcs₃]
      rfl
    · have hone : Received s s₁ [f] :=
        ⟨⟨[c], by rw [hcall, han], .cons hcar .nil⟩, hstrays₁.trans hstrays⟩
      exact hone.trans hcalls

/-! ## A frame that does not -/

/-- With fewer bytes than the parameters have, their loop does not end. -/
lemma paramLoop_short {t : RecvTsk}
    (hlt : t.nhasRecv.toNat + chunks.flatten.length < t.length.toNat)
    (h : recvAll t.paramLoop chunks = some s') : Received t s' [] ∧ s'.loop ≠ .link := by
  have hmore : t.nhasRecv < t.length := by
    rw [UInt32.lt_iff_toNat_lt]
    omega
  rw [paramLoop, if_pos hmore] at h
  induction chunks generalizing t with
  | nil =>
    obtain rfl := Option.some.inj h
    exact ⟨.of_same rfl rfl, by simp⟩
  | cons b bs ih =>
    obtain ⟨s₁, hs, h⟩ := recvAll_cons.1 h
    rcases step_read hs with ⟨hl, -, -⟩ | ⟨-, hc, rfl⟩
    · simp at hl
    · rw [List.flatten_cons, List.length_append] at hlt
      have hadd := (toNat_add_length (UInt32.le_of_lt hmore) hc).1
      obtain ⟨t', ht'⟩ : ∃ t', t' = readParam { t with loop := .param } b := ⟨_, rfl⟩
      have hn : t'.nhasRecv.toNat = t.nhasRecv.toNat + b.length := by rw [ht']; exact hadd
      have hlen : t'.length = t.length := by rw [ht']; rfl
      have hsame : Received t t' [] := .of_same (by rw [ht']; rfl) (by rw [ht']; rfl)
      rw [← ht'] at h
      have hmore' : t'.nhasRecv < t'.length := by
        rw [UInt32.lt_iff_toNat_lt, hn, hlen]
        omega
      rw [paramLoop, if_pos hmore'] at h
      obtain ⟨hrest, hloop⟩ := ih (by rw [hn, hlen]; omega) h hmore'
      exact ⟨hsame.trans hrest, hloop⟩

/-- A header whose last bytes are missing comes in one read at most, and leaves the task in the
loop that waits for the others. -/
lemma header_short (hs : s.AtFrame) (hlt : chunks.flatten.length < 8)
    (hwhole : ∀ k, 0 < k → k < chunks.flatten.length → ¬ IsCut chunks k)
    (h : recvAll s chunks = some s') : Received s s' [] ∧ s'.loop ≠ .link := by
  obtain ⟨hl, hn⟩ := hs
  cases chunks with
  | nil =>
    obtain rfl := Option.some.inj h
    exact ⟨.refl s, by simp [hl]⟩
  | cons b bs =>
    obtain ⟨s₁, hstep, h⟩ := recvAll_cons.1 h
    rcases step_read hstep with ⟨-, hc, rfl⟩ | ⟨hl', -, -⟩
    · obtain ⟨hpos, hmax, -⟩ := hc
      have hall : ¬ b.length < (b :: bs).flatten.length := fun hcut =>
        hwhole _ hpos hcut (isCut_head b bs)
      rw [List.flatten_cons, List.length_append] at hall hlt
      have hnhas : (s.readHeader b).nhasRecv < 8 := by
        rw [UInt32.lt_iff_toNat_lt]
        show (s.nhasRecv + UInt32.ofNat b.length).toNat < 8
        rw [hn, UInt32.zero_add, UInt32.toNat_ofNat']
        omega
      rw [headerLoop, if_pos hnhas] at h
      cases bs with
      | nil =>
        obtain rfl := Option.some.inj h
        exact ⟨.of_same rfl (strays_readHeader_first hn (by omega)), by simp⟩
      | cons b' bs =>
        obtain ⟨s₂, hstep', -⟩ := recvAll_cons.1 h
        rcases step_read hstep' with ⟨-, ⟨hpos', -⟩, -⟩ | ⟨hl', -, -⟩
        · rw [List.flatten_cons, List.length_append] at hall
          omega
        · simp at hl'
    · rw [hl] at hl'
      exact absurd hl' (by simp)

/-- A frame whose last bytes are missing is not handed over. -/
lemma recv_torn {f : Frame} {n : ℕ} (hs : s.AtFrame) (hf : f.Fits) (hn : n < f.encode.length)
    (hwhole : ∀ k < 8, 0 < k → k < n → ¬ IsCut chunks k)
    (hflat : chunks.flatten = f.encode.take n) (h : recvAll s chunks = some s') :
    Received s s' [] ∧ s'.loop ≠ .link := by
  have hlen : chunks.flatten.length = n := by
    rw [hflat, List.length_take, Nat.min_eq_left hn.le]
  by_cases h8 : n < 8
  · exact header_short hs (by omega) (fun k hk hlt => hwhole k (by omega) hk (by omega)) h
  · rw [Frame.encode, List.take_append, List.take_of_length_le (by simp; omega),
      Frame.length_header] at hflat
    have hhead : ∀ k, 0 < k → IsCut chunks k → 8 ≤ k := by
      intro k hk hcut
      by_contra hlt
      exact hwhole k (by omega) hk (by omega) hcut
    obtain ⟨bs, t, rfl, hrest, hrun, han, hstrays, htlen, -, hz⟩ :=
      recv_whole_header hs hf hhead hflat h
    have hsame : Received s t [] := .of_same han hstrays
    have hshort : t.nhasRecv.toNat + bs.flatten.length < t.length.toNat := by
      rw [Frame.length_encode, Frame.length] at hn
      rw [hz, htlen, hrest, List.length_take]
      change 0 + _ < _
      omega
    obtain ⟨hnone, hloop⟩ := paramLoop_short hshort hrun
    exact ⟨hsame.trans hnone, hloop⟩

/-! ## Connections -/

/-- On one connection, the frames that come whole are handed over. -/
lemma recv_connection {c : Incoming} (hc : c.Sent) (hl : s.loop = .link)
    (h : exec step s c.labels = some s') : Received s s' c.frames ∧ s'.loop ≠ .link := by
  have hlink : s.step .link = some s.startFrame := by rw [step, hl]
  rw [Incoming.labels, exec_cons, hlink] at h
  obtain ⟨cs, cs', s₁, hcs, hflat, hflat', hat, hcalls, hrun⟩ :=
    recv_frames s.atFrame_startFrame (fun f hf => fits_of_length_le (hc.frames f hf)) hc.whole
      hc.bytes h
  have htorn : ∀ k < 8, 0 < k → k < c.received → ¬ IsCut cs' k := by
    intro k hk8 hk hlt hcut
    refine hc.tornWhole k hk8 hk hlt ?_
    rw [hcs, ← hflat]
    exact isCut_append.2 hcut
  obtain ⟨hnone, hloop⟩ :=
    recv_torn hat (fits_of_length_le hc.torn) hc.received htorn hflat' hrun
  have hstart : Received s s.startFrame [] := .of_same rfl rfl
  have hall := (hstart.trans hcalls).trans hnone
  rw [List.nil_append, List.append_nil] at hall
  exact ⟨hall, hloop⟩

/-- A failed read makes the task wait for the next connection. -/
lemma recv_fail (h : s.step .fail = some s') (hl : s.loop ≠ .link) :
    s'.loop = .link ∧ s'.analyzed = s.analyzed ∧ s'.strays = s.strays := by
  rw [step] at h
  cases hs : s.loop with
  | link => exact absurd hs hl
  | header | param =>
    rw [hs] at h
    obtain rfl := Option.some.inj h
    exact ⟨rfl, rfl, rfl⟩

/-- The connections that were lost have handed over their frames. -/
lemma recv_closed {closed : List Incoming} (hc : ∀ c ∈ closed, c.Sent) (hl : s.loop = .link)
    (h : exec step s (closed.flatMap Incoming.closedLabels) = some s') :
    Received s s' (closed.flatMap Incoming.frames) ∧ s'.loop = .link := by
  induction closed generalizing s with
  | nil =>
    obtain rfl := Option.some.inj h
    exact ⟨.refl s, hl⟩
  | cons c closed ih =>
    rw [List.flatMap_cons, Incoming.closedLabels, List.append_assoc, exec_append,
      Option.bind_eq_some_iff] at h
    obtain ⟨s₁, hrun, h⟩ := h
    rw [List.singleton_append, exec_cons, Option.bind_eq_some_iff] at h
    obtain ⟨s₂, hfail, h⟩ := h
    obtain ⟨hframes, hloop⟩ := recv_connection (hc c (by simp)) hl hrun
    obtain ⟨hl₂, han, hstrays⟩ := recv_fail hfail hloop
    obtain ⟨hrest, hlink⟩ := ih (fun d hd => hc d (List.mem_cons_of_mem _ hd)) hl₂ h
    have hlost : Received s₁ s₂ [] := .of_same han hstrays
    exact ⟨hframes.trans (hlost.trans hrest), hlink⟩

/-- The calls made on the lost connections and on the one in use, if there is one. -/
lemma recv_connections {closed : List Incoming} {current : Option Incoming}
    (hsent : ∀ c ∈ closed ++ current.toList, c.Sent) (hl : s.loop = .link)
    (h : exec step s (closed.flatMap Incoming.closedLabels ++
      current.toList.flatMap Incoming.labels) = some s') :
    Received s s' ((closed ++ current.toList).flatMap Incoming.frames) := by
  rw [exec_append, Option.bind_eq_some_iff] at h
  obtain ⟨s₁, hclosed, h⟩ := h
  obtain ⟨hcalls, hlink⟩ :=
    recv_closed (fun c hc => hsent c (List.mem_append_left _ hc)) hl hclosed
  rw [List.flatMap_append]
  refine hcalls.trans ?_
  cases current with
  | none =>
    obtain rfl := Option.some.inj h
    exact .refl s₁
  | some c =>
    rw [Option.toList_some, List.flatMap_singleton] at h ⊢
    exact (recv_connection (hsent c (by simp)) hlink h).1

/-- **Lost connections.**  Over any number of connections, each lost in the middle of a frame, at
any byte, and as long as no read ends inside a header that goes on, `local_cmd_analyze` is called
for the frames that came whole, in their order, and for no others: what a torn frame has left
behind never reaches it. -/
theorem frames_across_connections (param : Mem) (closed : List Incoming)
    (current : Option Incoming) (s : RecvTsk) (hsent : ∀ c ∈ closed ++ current.toList, c.Sent)
    (h : exec step (init param) (closed.flatMap Incoming.closedLabels ++
      current.toList.flatMap Incoming.labels) = some s) :
    Received (init param) s ((closed ++ current.toList).flatMap Incoming.frames) :=
  recv_connections hsent rfl h

/-- A position test frame. -/
def posTestFrame : Frame := { word := 0xAACC0103, body := [2, 0, 0, 0] }

/-- A connection that is lost in the parameters of a position test frame, behind a reset frame. -/
def lostInParams : Incoming where
  frames := [resetFrame]
  torn := posTestFrame
  received := 10
  chunks := [resetFrame.encode, posTestFrame.header, [2], [0]]

/-- A connection that is lost in a header. -/
def lostInHeader : Incoming where
  frames := []
  torn := posTestFrame
  received := 5
  chunks := [[8, 0, 0, 0, 3]]

/-- A connection on which a position test frame comes, its parameters in two pieces. -/
def inUse : Incoming where
  frames := [posTestFrame]
  torn := resetFrame
  received := 0
  chunks := [posTestFrame.header, [2, 0, 0], [0]]

theorem frames_across_connections_twoLost : ∃ s,
    exec step (init fun _ => 0) ([lostInParams, lostInHeader].flatMap Incoming.closedLabels ++
      inUse.labels) = some s ∧
    Received (init fun _ => 0) s [resetFrame, posTestFrame] := by
  refine ⟨_, rfl, frames_across_connections _ [lostInParams, lostInHeader] (some inUse) _ ?_ rfl⟩
  intro c hc
  simp only [Option.toList_some, List.cons_append, List.nil_append, List.mem_cons,
    List.not_mem_nil, or_false] at hc
  rcases hc with rfl | rfl | rfl
  all_goals exact ⟨by decide, by decide, by decide, by decide, by decide, by decide⟩

end RecvTsk

end RejectProcess
