import RejectProcess.Lib.Bytes

/-!
# Length-prefixed frames

A frame on the wire is a 32-bit length, which does not count itself, then as many bytes, of
which the first four are the frame's word.  A stream of frames can be cut in one way only.
-/

namespace RejectProcess.Lib

/-- A frame: its word and the bytes after it. -/
structure Frame where
  word : UInt32
  body : List UInt8
deriving DecidableEq, Repr

namespace Frame

/-- The value of the length field of a frame. -/
def length (f : Frame) : ℕ := 4 + f.body.length

/-- The two words a frame starts with. -/
def header (f : Frame) : List UInt8 := le32 (UInt32.ofNat f.length) ++ le32 f.word

/-- The bytes of a frame. -/
def encode (f : Frame) : List UInt8 := f.header ++ f.body

/-- The length of the frame fits its field. -/
def Fits (f : Frame) : Prop := f.length < 2 ^ 32

instance (f : Frame) : Decidable f.Fits := inferInstanceAs (Decidable (_ < _))

@[simp] lemma length_header (f : Frame) : f.header.length = 8 := by simp [header]

@[simp] lemma length_encode (f : Frame) : f.encode.length = 4 + f.length := by
  simp [encode, length]
  omega

end Frame

/-- The bytes of a sequence of frames. -/
def encodeFrames (fs : List Frame) : List UInt8 := fs.flatMap Frame.encode

@[simp] lemma encodeFrames_nil : encodeFrames [] = [] := rfl

@[simp] lemma encodeFrames_cons (f : Frame) (fs : List Frame) :
    encodeFrames (f :: fs) = f.encode ++ encodeFrames fs := rfl

/-- The first frame of a stream and the bytes after it. -/
def decodeFrame (bs : List UInt8) : Option (Frame × List UInt8) :=
  let n := ofLE (bs.take 4)
  let content := bs.drop 4
  if 4 ≤ n ∧ n ≤ content.length then
    some ({ word := ofLe32 (content.take 4), body := (content.take n).drop 4 }, content.drop n)
  else none

/-- The frames of a stream, if it consists of whole frames.  A frame takes at least eight
bytes, so there are at most `fuel` of them in a stream of length `fuel`. -/
def decodeFramesFuel : ℕ → List UInt8 → Option (List Frame)
  | _, [] => some []
  | 0, _ :: _ => none
  | fuel + 1, b :: bs =>
    match decodeFrame (b :: bs) with
    | none => none
    | some (f, rest) => (decodeFramesFuel fuel rest).map (f :: ·)

/-- The frames of a stream, if it consists of whole frames. -/
def decodeFrames (bs : List UInt8) : Option (List Frame) := decodeFramesFuel bs.length bs

lemma decodeFrame_encode {f : Frame} (hf : f.Fits) (rest : List UInt8) :
    decodeFrame (f.encode ++ rest) = some (f, rest) := by
  have htake : (f.encode ++ rest).take 4 = le32 (UInt32.ofNat f.length) := by
    simp [Frame.encode, Frame.header]
  have hdrop : (f.encode ++ rest).drop 4 = le32 f.word ++ (f.body ++ rest) := by
    simp [Frame.encode, Frame.header]
  have hn : ofLE (le32 (UInt32.ofNat f.length)) = f.length := by
    unfold Frame.Fits at hf
    rw [le32, ofLE_toLE, UInt32.toNat_ofNat']
    omega
  have hle : 4 ≤ f.length ∧ f.length ≤ (le32 f.word ++ (f.body ++ rest)).length := by
    simp [Frame.length]
  have hcontent : (le32 f.word ++ (f.body ++ rest)).take f.length = le32 f.word ++ f.body := by
    rw [← List.append_assoc, List.take_left' (by simp [Frame.length])]
  have hrest : (le32 f.word ++ (f.body ++ rest)).drop f.length = rest := by
    rw [← List.append_assoc, List.drop_left' (by simp [Frame.length])]
  simp only [decodeFrame, htake, hdrop, hn, if_pos hle, hcontent, hrest]
  simp

lemma decodeFramesFuel_encode {fs : List Frame} (hfs : ∀ f ∈ fs, f.Fits) {fuel : ℕ}
    (hfuel : (encodeFrames fs).length ≤ fuel) :
    decodeFramesFuel fuel (encodeFrames fs) = some fs := by
  induction fs generalizing fuel with
  | nil => cases fuel <;> rfl
  | cons f fs ih =>
    have hlen : (encodeFrames (f :: fs)).length = 4 + f.length + (encodeFrames fs).length := by
      simp
    cases fuel with
    | zero => omega
    | succ fuel =>
      cases he : encodeFrames (f :: fs) with
      | nil =>
        rw [he, List.length_nil] at hlen
        omega
      | cons b bs =>
        have hdec := decodeFrame_encode (hfs f (by simp)) (encodeFrames fs)
        rw [← encodeFrames_cons, he] at hdec
        have hrest : decodeFramesFuel fuel (encodeFrames fs) = some fs :=
          ih (fun g hg => hfs g (List.mem_cons_of_mem _ hg)) (by omega)
        simp [decodeFramesFuel, hdec, hrest]

/-- Decoding a stream of frames gives back the frames. -/
theorem decodeFrames_encode {fs : List Frame} (hfs : ∀ f ∈ fs, f.Fits) :
    decodeFrames (encodeFrames fs) = some fs :=
  decodeFramesFuel_encode hfs (Nat.le_refl _)

/-- The frames of a beginning of a stream are the first frames of the stream. -/
theorem prefix_of_encodeFrames {fs gs : List Frame} (hfs : ∀ f ∈ fs, f.Fits)
    (hgs : ∀ g ∈ gs, g.Fits) (h : encodeFrames fs <+: encodeFrames gs) : fs <+: gs := by
  induction fs generalizing gs with
  | nil => exact List.nil_prefix
  | cons f fs ih =>
    obtain ⟨t, ht⟩ := h
    rw [encodeFrames_cons, List.append_assoc] at ht
    cases gs with
    | nil =>
      have hlen := congrArg List.length ht
      rw [List.length_append, Frame.length_encode, encodeFrames_nil, List.length_nil] at hlen
      omega
    | cons g gs =>
      rw [encodeFrames_cons] at ht
      have hf := decodeFrame_encode (hfs f (by simp)) (encodeFrames fs ++ t)
      have hg := decodeFrame_encode (hgs g (by simp)) (encodeFrames gs)
      rw [ht, hg] at hf
      obtain ⟨rfl, hrest⟩ : g = f ∧ encodeFrames gs = encodeFrames fs ++ t := by simpa using hf
      rw [List.prefix_cons_inj]
      exact ih (fun f hf => hfs f (List.mem_cons_of_mem _ hf))
        (fun g hg => hgs g (List.mem_cons_of_mem _ hg)) ⟨t, hrest.symm⟩

end RejectProcess.Lib
