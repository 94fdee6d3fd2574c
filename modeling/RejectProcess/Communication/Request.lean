import RejectProcess.Communication.LocalProtocol
import RejectProcess.Communication.Reconnect

/-!
# What a frame asks for

A frame that brings all the bytes its handler reads is a request, and the handler does what the
request says, whatever else the parameter block holds.  A sample is sent as the packed structure
that `recv_sample_result` reads.
-/

namespace RejectProcess

open Lib Publish Position

/-- The bytes of the packed structure, its words with their lowest byte first. -/
def SampleResult.bytes (r : SampleResult) : List UInt8 :=
  r.result.toList ++ (le32 r.count ++ (toLE 8 r.wheelCode.toNat ++ (le32 r.pos ++ le32 r.alarm)))

/-- The command words that have a handler. -/
def commandWords : List UInt32 := [0xAACC0100, 0xAACC0101, 0xAACC0102, 0xAACC0103]

/-- A request of the local server. -/
inductive Request
  | handshake
  | reset
  | sample (r : SampleResult)
  | posTest (item : UInt32)
  /-- A frame with another command word, which is ignored. -/
  | other (f : Frame) (hword : f.word ∉ commandWords) (hsize : f.body.length ≤ paramSize)

namespace Request

/-- The frame that brings the request. -/
def frame : Request → Frame
  | .handshake => { word := 0xAACC0100, body := [] }
  | .reset => { word := 0xAACC0101, body := [] }
  | .sample r => { word := 0xAACC0102, body := r.bytes }
  | .posTest item => { word := 0xAACC0103, body := le32 item }
  | .other f _ _ => f

/-- What the client is answered. -/
def reply (version : Vector UInt8 32) : Request → Option LocalMsg
  | .handshake => some (.handshake version)
  | .reset => some .reset
  | _ => none

end Request

/-- On the connections that were lost, and on the one in use if there is one, a client sends these
requests, and the header of each frame comes in one read. -/
structure Asked (closed : List Incoming) (current : Option Incoming) (requests : List Request) :
    Prop where
  sent : ∀ c ∈ closed ++ current.toList, c.Sent
  frames : (closed ++ current.toList).flatMap Incoming.frames = requests.map Request.frame

/-! ## The structure of a sample -/

@[simp] lemma SampleResult.length_bytes (r : SampleResult) : r.bytes.length = 28 := by
  simp [bytes]

lemma load_eq_append {m : Mem} {off n : ℕ} {bs cs : List UInt8}
    (h : load m off n = bs ++ cs) :
    load m off bs.length = bs ∧ load m (off + bs.length) cs.length = cs := by
  have hn : n = bs.length + cs.length := by
    rw [← List.length_append, ← h, length_load]
  rw [hn, load_add] at h
  exact List.append_inj h (by simp)

/-- A sample is read as it was sent. -/
lemma sampleResult_bytes {m : Mem} {r : SampleResult} (h : load m 0 28 = r.bytes) :
    sampleResult m = r := by
  obtain ⟨hresult, h⟩ := load_eq_append h
  obtain ⟨hcount, h⟩ := load_eq_append h
  obtain ⟨hcode, h⟩ := load_eq_append h
  obtain ⟨hpos, halarm⟩ := load_eq_append h
  simp only [Vector.length_toList, length_le32, length_toLE, Nat.zero_add, Nat.reduceAdd]
    at hresult hcount hcode hpos halarm
  have hvec : (Vector.ofFn fun i : Fin 8 => m i) = r.result := by
    refine Vector.ext fun i hi => ?_
    have := congrArg (fun l : List UInt8 => l[i]?) hresult
    simpa [load, hi] using this
  have hcode' : UInt64.ofNat (ofLE (load m 12 8)) = r.wheelCode := by
    have hlt : r.wheelCode.toNat < 256 ^ 8 := r.wheelCode.toNat_lt
    rw [hcode, ofLE_toLE, Nat.mod_eq_of_lt hlt, UInt64.ofNat_toNat]
  rw [sampleResult, hvec, hcount, hcode', hpos, halarm, ofLe32_le32, ofLe32_le32, ofLe32_le32]

end RejectProcess
