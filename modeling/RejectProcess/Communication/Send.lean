import Mathlib.Algebra.BigOperators.Group.List.Basic
import RejectProcess.Lib.Framing

/-!
# The send task

`local_send_tsk` of `communication/local_socket.c` takes the messages of its mailbox one after
the other, the payloads of a message one after the other, and writes a payload until as many
bytes as it has were accepted.  A write may accept a part of what it is given; the next one is
then asked for the number of bytes that remain, but starts again at the first byte of the
payload.
-/

namespace RejectProcess

open Lib

/-! ## The messages -/

/-- `LocalInfoHead`. -/
structure LocalInfoHead where
  length : UInt32
  type : UInt32
deriving DecidableEq, Repr

/-- The bytes of a head as `set_data` passes them. -/
def LocalInfoHead.bytes (h : LocalInfoHead) : List UInt8 := le32 h.length ++ le32 h.type

/-- `handshake_head`. -/
def handshakeHead : LocalInfoHead := { length := 4 + 32, type := 0xAACC0200 }

/-- `reset_head`. -/
def resetHead : LocalInfoHead := { length := 4, type := 0xAACC0201 }

/-- `pos_report_head`. -/
def posReportHead : LocalInfoHead := { length := 12, type := 0xAACC0204 }

/-- A message to the local server. -/
inductive LocalMsg
  /-- `recv_handshake_cmd` posts it. -/
  | handshake (version : Vector UInt8 32)
  /-- `recv_reset_cmd` posts it. -/
  | reset
  /-- The four distance tasks post it. -/
  | posReport (item dis : UInt32)
deriving DecidableEq, Repr

namespace LocalMsg

/-- The payloads of a message, in the order of the `set_data` calls. -/
def payload : LocalMsg → List (List UInt8)
  | .handshake version => [handshakeHead.bytes, version.toList]
  | .reset => [resetHead.bytes]
  | .posReport item dis => [posReportHead.bytes, le32 item, le32 dis]

/-- The bytes of a message. -/
def bytes (m : LocalMsg) : List UInt8 := m.payload.flatten

/-- The message as a frame. -/
def frame : LocalMsg → Frame
  | .handshake version => { word := handshakeHead.type, body := version.toList }
  | .reset => { word := resetHead.type, body := [] }
  | .posReport item dis => { word := posReportHead.type, body := le32 item ++ le32 dis }

/-- The length in the head of a message does not count itself and counts the rest. -/
lemma bytes_eq_encode (m : LocalMsg) : m.bytes = m.frame.encode := by
  cases m with
  | handshake version =>
    simp [bytes, payload, frame, Frame.encode, Frame.header, Frame.length, LocalInfoHead.bytes,
      handshakeHead]
  | reset =>
    simp [bytes, payload, frame, Frame.encode, Frame.header, Frame.length, LocalInfoHead.bytes,
      resetHead]
  | posReport item dis =>
    simp [bytes, payload, frame, Frame.encode, Frame.header, Frame.length, LocalInfoHead.bytes,
      posReportHead]

lemma fits_frame (m : LocalMsg) : m.frame.Fits := by
  cases m <;> simp [frame, Frame.Fits, Frame.length]

lemma flatMap_bytes (ms : List LocalMsg) : ms.flatMap bytes = encodeFrames (ms.map frame) := by
  rw [encodeFrames, List.flatMap_map]
  exact congrArg (List.flatMap · ms) (funext bytes_eq_encode)

lemma flatten_payloads (ms : List LocalMsg) : (ms.flatMap payload).flatten = ms.flatMap bytes := by
  induction ms with
  | nil => rfl
  | cons m ms ih => rw [List.flatMap_cons, List.flatten_append, ih, List.flatMap_cons, bytes]

end LocalMsg

/-! ## The loops -/

/-- The loop over one payload, of which the counts in `nhasSend` have been accepted: the bytes
that the socket accepts, and the counts left when the loop ends.  `none`: the counts cannot be
what the writes return, because one is 0 or too large or the loop needs more of them. -/
def sendData (data : List UInt8) : ℕ → List ℕ → Option (List UInt8 × List ℕ)
  | nhasSend, [] => if nhasSend < data.length then none else some ([], [])
  | nhasSend, nsend :: counts =>
    if nhasSend < data.length then
      if 0 < nsend ∧ nsend ≤ data.length - nhasSend then
        -- `write(connect_fd, data, data_len - nhas_send)`
        (sendData data (nhasSend + nsend) counts).map fun r => (data.take nsend ++ r.1, r.2)
      else none
    else some ([], nsend :: counts)

/-- The loop over the payloads of a message. -/
def sendPayloads : List (List UInt8) → List ℕ → Option (List UInt8 × List ℕ)
  | [], counts => some ([], counts)
  | data :: rest, counts =>
    (sendData data 0 counts).bind fun r =>
      (sendPayloads rest r.2).map fun r' => (r.1 ++ r'.1, r'.2)

/-- The loop over the messages, all on one connection that does not fail. -/
def localSendTsk : List LocalMsg → List ℕ → Option (List UInt8 × List ℕ)
  | [], counts => some ([], counts)
  | m :: ms, counts =>
    (sendPayloads m.payload counts).bind fun r =>
      (localSendTsk ms r.2).map fun r' => (r.1 ++ r'.1, r'.2)

/-- Every write gives the socket the bytes that come next: in the stream of the payloads, if the
writes before it have filled the payloads `pre` and a part of `data`, its bytes from the start
of `data` are the same as those behind that part. -/
def WritesResume (payloads : List (List UInt8)) (counts : List ℕ) : Prop :=
  ∀ pre data post cs n cs', payloads = pre ++ data :: post → counts = cs ++ n :: cs' →
    pre.flatten.length ≤ cs.sum → cs.sum < pre.flatten.length + data.length →
    data.take n = (data.drop (cs.sum - pre.flatten.length)).take n

/-! ## One payload -/

/-- A property of every way to split a list at an element, for a list with a first element. -/
lemma forall_split_cons {α : Type*} {P : List α → α → Prop} {a : α} {l : List α} :
    (∀ cs n cs', a :: l = cs ++ n :: cs' → P cs n) ↔
      P [] a ∧ ∀ cs n cs', l = cs ++ n :: cs' → P (a :: cs) n := by
  constructor
  · intro h
    refine ⟨h [] a l rfl, ?_⟩
    rintro cs n cs' rfl
    exact h (a :: cs) n cs' rfl
  · rintro ⟨hhead, htail⟩ cs n cs' hsplit
    cases cs with
    | nil =>
      obtain ⟨rfl, -⟩ : a = n ∧ l = cs' := by simpa using hsplit
      exact hhead
    | cons b cs =>
      obtain ⟨rfl, rfl⟩ : a = b ∧ l = cs ++ n :: cs' := by simpa using hsplit
      exact htail cs n cs' rfl

/-- The writes of one payload: their counts add up to what remained of it, and the bytes are
those that remained exactly if every write gives the bytes that come next. -/
lemma sendData_spec {data out : List UInt8} {nhasSend : ℕ} {counts rest : List ℕ}
    (hle : nhasSend ≤ data.length) (h : sendData data nhasSend counts = some (out, rest)) :
    ∃ used, counts = used ++ rest ∧ nhasSend + used.sum = data.length ∧ (∀ n ∈ used, 0 < n) ∧
      out.length = data.length - nhasSend ∧
      (out = data.drop nhasSend ↔ ∀ cs n cs', used = cs ++ n :: cs' →
        data.take n = (data.drop (nhasSend + cs.sum)).take n) := by
  induction counts generalizing nhasSend out with
  | nil =>
    rw [sendData] at h
    split at h
    · simp at h
    · obtain ⟨rfl, rfl⟩ : [] = out ∧ [] = rest := by simpa using h
      refine ⟨[], rfl, by simp; omega, by simp, by simp; omega, ?_⟩
      exact iff_of_true (List.drop_of_length_le (by omega)).symm (by simp)
  | cons n counts ih =>
    rw [sendData] at h
    split at h
    · split at h
      · rename_i hlt hn
        obtain ⟨⟨out', rest'⟩, hrec, heq⟩ := Option.map_eq_some_iff.1 h
        obtain ⟨rfl, rfl⟩ : data.take n ++ out' = out ∧ rest' = rest := by simpa using heq
        obtain ⟨used, rfl, hsum, hpos, hlen, hiff⟩ := ih (by omega) hrec
        refine ⟨n :: used, rfl, ?_, ?_, ?_, ?_⟩
        · rw [List.sum_cons]
          omega
        · simpa using ⟨hn.1, hpos⟩
        · rw [List.length_append, List.length_take, hlen]
          omega
        · -- what remains is what this write should give and what remains after it
          have hdrop : data.drop nhasSend =
              (data.drop nhasSend).take n ++ data.drop (nhasSend + n) := by
            rw [← List.drop_drop, List.take_append_drop]
          have hlen' : (data.take n).length = ((data.drop nhasSend).take n).length := by
            simp only [List.length_take, List.length_drop]
            omega
          have hinj : data.take n ++ out' = data.drop nhasSend ↔
              data.take n = (data.drop nhasSend).take n ∧ out' = data.drop (nhasSend + n) := by
            constructor
            · intro h
              rw [hdrop] at h
              exact List.append_inj h hlen'
            · rintro ⟨h, h'⟩
              rw [hdrop, h', ← h]
          rw [forall_split_cons, hinj, hiff]
          simp only [List.sum_nil, List.sum_cons, Nat.add_zero, Nat.add_assoc]
      · simp at h
    · obtain ⟨rfl, rfl⟩ : [] = out ∧ n :: counts = rest := by simpa using h
      refine ⟨[], rfl, by simp; omega, by simp, by simp; omega, ?_⟩
      exact iff_of_true (List.drop_of_length_le (by omega)).symm (by simp)

/-! ## All payloads -/

/-- The messages of a connection are sent like one long message. -/
lemma localSendTsk_eq (ms : List LocalMsg) (counts : List ℕ) :
    localSendTsk ms counts = sendPayloads (ms.flatMap LocalMsg.payload) counts := by
  have happend : ∀ (ds es : List (List UInt8)) (counts : List ℕ),
      sendPayloads (ds ++ es) counts = (sendPayloads ds counts).bind fun r =>
        (sendPayloads es r.2).map fun r' => (r.1 ++ r'.1, r'.2) := by
    intro ds es
    induction ds with
    | nil =>
      intro counts
      simp [sendPayloads]
    | cons d ds ih =>
      intro counts
      simp only [List.cons_append, sendPayloads, ih]
      cases sendData d 0 counts with
      | none => rfl
      | some r =>
        cases h : sendPayloads ds r.2 with
        | none => simp [h]
        | some r' => cases h' : sendPayloads es r'.2 <;> simp [h, h']
  induction ms generalizing counts with
  | nil => rfl
  | cons m ms ih =>
    rw [localSendTsk, List.flatMap_cons, happend]
    simp only [ih]

/-- In a sequence of counts of which the first ones are positive, a count comes among those if
the counts before it do not reach their sum, and after them otherwise. -/
lemma split_counts {used rest cs cs' : List ℕ} {n : ℕ} (hpos : ∀ m ∈ used, 0 < m)
    (h : used ++ rest = cs ++ n :: cs') :
    (cs.sum < used.sum ∧ ∃ q, used = cs ++ n :: q) ∨
      (used.sum ≤ cs.sum ∧ ∃ q, cs = used ++ q ∧ rest = q ++ n :: cs') := by
  rcases List.append_eq_append_iff.1 h with ⟨q, hq, hrest⟩ | ⟨q, hq, hrest⟩
  · exact .inr ⟨by rw [hq, List.sum_append]; omega, q, hq, hrest⟩
  · cases q with
    | nil =>
      rw [List.append_nil] at hq
      exact .inr ⟨by rw [hq], [], by rw [hq, List.append_nil], by simpa using hrest.symm⟩
    | cons m q =>
      obtain ⟨rfl, -⟩ : n = m ∧ cs' = q ++ rest := by simpa using hrest
      refine .inl ⟨?_, q, hq⟩
      have hn := hpos n (by simp [hq])
      rw [hq, List.sum_append, List.sum_cons]
      omega

/-- The writes of the first payload and those of the others, each with their own condition. -/
lemma writesResume_cons {d : List UInt8} {ds : List (List UInt8)} {used rest : List ℕ}
    (hsum : used.sum = d.length) (hpos : ∀ n ∈ used, 0 < n) :
    WritesResume (d :: ds) (used ++ rest) ↔
      (∀ cs n cs', used = cs ++ n :: cs' → d.take n = (d.drop cs.sum).take n) ∧
      WritesResume ds rest := by
  constructor
  · intro h
    constructor
    · rintro cs n cs' rfl
      have hn := hpos n (by simp)
      rw [List.sum_append, List.sum_cons] at hsum
      have := h [] d ds cs n (cs' ++ rest) rfl (by simp) (by simp) (by simp; omega)
      simpa using this
    · rintro pre d' post cs n cs' rfl rfl hge hlt
      have hlen : (d :: pre).flatten.length = d.length + pre.flatten.length := by
        rw [List.flatten_cons, List.length_append]
      have hcount : (used ++ cs).sum = d.length + cs.sum := by rw [List.sum_append, hsum]
      have := h (d :: pre) d' post (used ++ cs) n cs' rfl (by simp) (by omega) (by omega)
      rwa [hlen, hcount, Nat.add_sub_add_left] at this
  · rintro ⟨hfirst, hrest⟩ pre d' post cs n cs' hsplit hcounts hge hlt
    cases pre with
    | nil =>
      obtain ⟨rfl, -⟩ : d = d' ∧ ds = post := by simpa using hsplit
      simp only [List.flatten_nil, List.length_nil, Nat.zero_add] at hlt
      rcases split_counts hpos hcounts with ⟨-, q, hq⟩ | ⟨hle, -⟩
      · simpa using hfirst cs n q hq
      · omega
    | cons d'' pre =>
      obtain ⟨rfl, rfl⟩ : d = d'' ∧ ds = pre ++ d' :: post := by simpa using hsplit
      simp only [List.flatten_cons, List.length_append] at hge hlt
      rcases split_counts hpos hcounts with ⟨hlt', -⟩ | ⟨-, q, rfl, hq⟩
      · omega
      · rw [List.sum_append] at hge hlt
        have := hrest pre d' post q n cs' rfl hq (by omega) (by omega)
        rwa [List.flatten_cons, List.length_append, List.sum_append, hsum, Nat.add_sub_add_left]

/-- Writes that are never short resume right. -/
lemma writesResume_whole {payloads : List (List UInt8)} (h : ∀ d ∈ payloads, d ≠ []) :
    WritesResume payloads (payloads.map List.length) := by
  induction payloads with
  | nil =>
    intro pre d post _ _ _ hsplit
    simp at hsplit
  | cons d ds ih =>
    have hpos : ∀ n ∈ [d.length], 0 < n := by
      simpa [List.length_pos_iff] using h d (by simp)
    have hsum : [d.length].sum = d.length := by simp
    refine (writesResume_cons hsum hpos).2 ⟨?_, ih fun e he => h e (List.mem_cons_of_mem _ he)⟩
    intro cs n cs' hsplit
    obtain ⟨rfl, -⟩ : cs = [] ∧ _ := by simpa using List.append_eq_singleton_iff.1 hsplit.symm
    simp

/-- The accepted bytes are the payloads exactly if every write gives the bytes that come next. -/
lemma sendPayloads_iff {payloads : List (List UInt8)} {out : List UInt8} {counts rest : List ℕ}
    (h : sendPayloads payloads counts = some (out, rest)) :
    ∃ used, counts = used ++ rest ∧ out.length = payloads.flatten.length ∧
      (out = payloads.flatten ↔ WritesResume payloads used) := by
  induction payloads generalizing out counts with
  | nil =>
    obtain ⟨rfl, rfl⟩ : [] = out ∧ counts = rest := by simpa [sendPayloads] using h
    exact ⟨[], rfl, rfl, iff_of_true rfl fun pre d post _ _ _ hsplit => by simp at hsplit⟩
  | cons d ds ih =>
    rw [sendPayloads, Option.bind_eq_some_iff] at h
    obtain ⟨⟨out₁, counts₁⟩, hdata, h⟩ := h
    obtain ⟨⟨out₂, rest₂⟩, hds, heq⟩ := Option.map_eq_some_iff.1 h
    obtain ⟨rfl, rfl⟩ : out₁ ++ out₂ = out ∧ rest₂ = rest := by simpa using heq
    obtain ⟨used₁, hused₁, hsum, hpos, hlen, hiff₁⟩ := sendData_spec (Nat.zero_le _) hdata
    obtain ⟨used₂, hused₂, hlen₂, hiff₂⟩ := ih hds
    simp only [Nat.zero_add, Nat.sub_zero, List.drop_zero] at hsum hlen hiff₁ hused₂
    refine ⟨used₁ ++ used₂, by rw [hused₁, hused₂, List.append_assoc], ?_, ?_⟩
    · rw [List.length_append, hlen, hlen₂, List.flatten_cons, List.length_append]
    · rw [writesResume_cons hsum hpos, ← hiff₁, ← hiff₂, List.flatten_cons]
      constructor
      · exact fun h => List.append_inj h hlen
      · rintro ⟨rfl, rfl⟩
        rfl

/-- **Short writes.**  Whatever messages are sent on a connection and whatever positive counts
the writes return, the socket has accepted the bytes of the messages, and decoding them gives
back the messages, exactly if every write gives the socket the bytes that come next.  In
particular they do if no write is short. -/
theorem stream_decodes_iff {ms : List LocalMsg} {out : List UInt8} {counts : List ℕ}
    (h : localSendTsk ms counts = some (out, [])) :
    (out = ms.flatMap LocalMsg.bytes ∧ decodeFrames out = some (ms.map LocalMsg.frame)) ↔
      WritesResume (ms.flatMap LocalMsg.payload) counts := by
  rw [localSendTsk_eq] at h
  obtain ⟨used, hused, -, hiff⟩ := sendPayloads_iff h
  obtain rfl : counts = used := by simpa using hused
  rw [← hiff, LocalMsg.flatten_payloads]
  refine and_iff_left_of_imp ?_
  rintro rfl
  rw [LocalMsg.flatMap_bytes]
  exact decodeFrames_encode (by simp [LocalMsg.fits_frame])

/-- A head of which the second half is sent as the first again. -/
theorem short_write_resends : ¬ ∀ (ms : List LocalMsg) (counts : List ℕ) (out : List UInt8),
    localSendTsk ms counts = some (out, []) →
      out = ms.flatMap LocalMsg.bytes ∧ decodeFrames out = some (ms.map LocalMsg.frame) := by
  intro h
  have hsent : localSendTsk [.reset] [4, 4] = some ([4, 0, 0, 0, 4, 0, 0, 0], []) := by
    decide +kernel
  exact absurd (h _ _ _ hsent).1 (by decide +kernel)

/-- A position report whose writes are not short. -/
theorem stream_decodes_posReport :
    (([12, 0, 0, 0, 4, 2, 0xCC, 0xAA, 2, 0, 0, 0, 7, 0, 0, 0] : List UInt8) =
        [LocalMsg.posReport 2 7].flatMap LocalMsg.bytes ∧
      decodeFrames [12, 0, 0, 0, 4, 2, 0xCC, 0xAA, 2, 0, 0, 0, 7, 0, 0, 0] =
        some ([LocalMsg.posReport 2 7].map LocalMsg.frame)) ↔
      WritesResume ([LocalMsg.posReport 2 7].flatMap LocalMsg.payload) [8, 4, 4] :=
  stream_decodes_iff (by decide +kernel)

end RejectProcess
