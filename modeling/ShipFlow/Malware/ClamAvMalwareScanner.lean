import ShipFlow.Encoding.Framing
import ShipFlow.Files.Store

/-! `ClamAvMalwareScanner`: the request that it writes, the answer that it reads, and the
verdict that it takes from the answer. -/

namespace ShipFlow.Malware
open Encoding Files

def CHUNK_SIZE_BYTES : Nat := 64 * 1024
def MAX_RESPONSE_BYTES : Nat := 16 * 1024

/-- The bytes of an ASCII text. -/
def ascii (text : String) : List UInt8 := text.toList.map fun c => UInt8.ofNat c.toNat

/-! ## The request -/

/-- The buffers that the loop of `writeRequest` writes from an offset on. -/
def writeChunks (body : List UInt8) (offset : Nat) : List (List UInt8) :=
  if offset < body.length then
    let chunk := (body.drop offset).take CHUNK_SIZE_BYTES
    (uint32BE chunk.length ++ chunk) :: writeChunks body (offset + CHUNK_SIZE_BYTES)
  else []
termination_by body.length - offset
decreasing_by rw [CHUNK_SIZE_BYTES]; lia

/-- The buffers that are written, in this order, as long as no write fails. -/
def writeRequest (body : List UInt8) : List (List UInt8) :=
  (ascii "zINSTREAM" ++ [0]) :: writeChunks body 0 ++ [[0, 0, 0, 0]]

/-! ## The answer -/

inductive SocketEvent where
  | timeout
  | error (message : String)
  | data (chunk : List UInt8)
  | «end»
  deriving DecidableEq, Repr

/-- The variables of `scanStream`, and how its promise was settled, each time it was. -/
structure ScanStream where
  response : List UInt8
  settled : Bool
  settlements : List (Except String String)
  deriving DecidableEq, Repr

def ScanStream.initial : ScanStream := ⟨[], false, []⟩

def finish (outcome : Except String String) (s : ScanStream) : ScanStream :=
  if s.settled then s
  else { s with settled := true, settlements := s.settlements ++ [outcome] }

section Answer
variable (toUtf8 : List UInt8 → String)

def onData (chunk : List UInt8) (s : ScanStream) : ScanStream :=
  let s := { s with response := s.response ++ chunk }
  if s.response.length > MAX_RESPONSE_BYTES then
    finish (.error "ClamAV returned an unexpectedly large response") s
  else
    match s.response.findIdx? fun byte => byte == 0 with
    | some terminator => finish (.ok (toUtf8 (s.response.take terminator))) s
    | none => s

def onEvent (s : ScanStream) : SocketEvent → ScanStream
  | .timeout => finish (.error "ClamAV scan timed out before returning a result") s
  | .error message => finish (.error message) s
  | .data chunk => onData toUtf8 chunk s
  | .end => if s.settled then s else finish (.ok (trim (toUtf8 s.response))) s

def scanStream (events : List SocketEvent) : ScanStream :=
  events.foldl (onEvent toUtf8) .initial

end Answer

/-! ## The verdict -/

/-- The characters of the class `\w`. -/
def isWordCharacter (c : Char) : Bool := c.isAlphanum || c == '_'

/-- The assertion `\b` between two parts of a text. -/
def wordBoundary (before after : List Char) : Bool :=
  before.getLast?.any isWordCharacter != after.head?.any isWordCharacter

/-- The comparison of the flag `i` with a text of ASCII characters. -/
def sameIgnoringCase (a b : List Char) : Bool := a.map Char.toUpper == b.map Char.toUpper

/-- The expression `\bWORD$` with the flag `i`. -/
def endsWithWord (word : String) (response : List Char) : Bool :=
  (List.range (response.length + 1)).any fun i =>
    wordBoundary (response.take i) (response.drop i) &&
      sameIgnoringCase (response.drop i) word.toList

/-- A text without anchors as an expression with the flag `i`. -/
def mentions (text : String) (response : List Char) : Bool :=
  (List.range (response.length + 1)).any fun i =>
    sameIgnoringCase ((response.drop i).take text.length) text.toList

def verdict (response : String) : MalwareScanResult :=
  if endsWithWord "OK" response.toList then .clean
  else if endsWithWord "FOUND" response.toList then .infected
  else if mentions "INSTREAM size limit exceeded" response.toList then .unsupported
  else .failed

/-- What `scan` does with each settlement of the promise. -/
def scan (toUtf8 : List UInt8 → String) (events : List SocketEvent) :
    List (Except String MalwareScanResult) :=
  (scanStream toUtf8 events).settlements.map fun outcome => outcome.map verdict

/-! ## The request is the file -/

theorem writeChunks_lt {body : List UInt8} {offset : Nat} (h : offset < body.length) :
    writeChunks body offset = frame ((body.drop offset).take CHUNK_SIZE_BYTES) ::
      writeChunks body (offset + CHUNK_SIZE_BYTES) := by
  rw [writeChunks, if_pos h, frame]

theorem writeChunks_ge {body : List UInt8} {offset : Nat} (h : body.length ≤ offset) :
    writeChunks body offset = [] := by
  rw [writeChunks, if_neg (Nat.not_lt.mpr h)]

/-- The loop writes the rest of the body in frames that are neither empty nor too long. -/
theorem writeChunks_frames (body : List UInt8) (offset : Nat) :
    ∃ chunks : List (List UInt8), writeChunks body offset = chunks.map frame ∧
      chunks.flatten = body.drop offset ∧
      ∀ chunk ∈ chunks, 1 ≤ chunk.length ∧ chunk.length ≤ CHUNK_SIZE_BYTES := by
  induction hleft : body.length - offset using Nat.strongRecOn generalizing offset with
  | ind left ih =>
    by_cases h : offset < body.length
    · have hpos : 0 < CHUNK_SIZE_BYTES := by decide
      obtain ⟨chunks, hwrites, hflatten, hlengths⟩ :=
        ih (body.length - (offset + CHUNK_SIZE_BYTES)) (by lia) (offset + CHUNK_SIZE_BYTES) rfl
      refine ⟨(body.drop offset).take CHUNK_SIZE_BYTES :: chunks, ?_, ?_, ?_⟩
      · rw [writeChunks_lt h, hwrites, List.map_cons]
      · rw [List.flatten_cons, hflatten, ← List.drop_drop, List.take_append_drop]
      · intro chunk hchunk
        rcases List.mem_cons.mp hchunk with rfl | hchunk
        · rw [List.length_take, List.length_drop]
          lia
        · exact hlengths chunk hchunk
    · have hge : body.length ≤ offset := Nat.le_of_not_lt h
      refine ⟨[], ?_, ?_, ?_⟩
      · rw [writeChunks_ge hge, List.map_nil]
      · rw [List.flatten_nil, List.drop_of_length_le hge]
      · exact fun chunk hchunk => absurd hchunk List.not_mem_nil

/-- For every body the scanner receives the whole body and nothing else. No frame is empty
before the last one, none is longer than a chunk, and a request that breaks off anywhere is
not received at all. -/
theorem instream_round_trip (body : List UInt8) :
    ∃ (request : List UInt8) (frames : List (List UInt8)),
      (writeRequest body).flatten = ascii "zINSTREAM" ++ [0] ++ request ∧
      receive request = some (frames, []) ∧ frames.flatten = body ∧
      (∀ f ∈ frames, 1 ≤ f.length ∧ f.length ≤ 65536) ∧
      ∀ sent lost, request = sent ++ lost → lost ≠ [] → receive sent = none := by
  obtain ⟨chunks, hwrites, hflatten, hlengths⟩ := writeChunks_frames body 0
  have hrequest : (writeRequest body).flatten =
      ascii "zINSTREAM" ++ [0] ++ stream chunks := by
    rw [writeRequest, hwrites, List.cons_append, List.flatten_cons, List.flatten_append, stream,
      List.flatMap_def, List.flatten_singleton]
    rfl
  have hreceive : receive (stream chunks) = some (chunks, []) := by
    have hfits : ∀ f ∈ chunks, 0 < f.length ∧ f.length < 4294967296 := by
      intro f hf
      obtain ⟨hpos, hle⟩ := hlengths f hf
      rw [CHUNK_SIZE_BYTES] at hle
      lia
    have h := receive_stream hfits []
    rw [List.append_nil] at h
    exact h
  refine ⟨stream chunks, chunks, hrequest, hreceive, hflatten, hlengths, fun sent lost heq hlost => ?_⟩
  rw [heq] at hreceive
  exact receive_broken hreceive hlost

end ShipFlow.Malware
