/-
FileSharing.Network.ListFilesCodec — the codec of `/list-files/1`
(`src/network/protocol.rs`) and its response message (`abi.rs`).

The request is no bytes at all; the response is one frame. Writer and
reader are separate functions in both crates, and `messages_survive_wire`
puts the two pairs under one statement.
-/
import FileSharing.FileGet.Wire

namespace FileSharing

open Lib

/-- `ListFilesResponse`. -/
structure ListFilesResponse where
  fileNames : List String
  deriving DecidableEq, Repr

/-- `ListFilesResponse::encode`: every name is a value of field 1, an empty
one too. -/
def ListFilesResponse.encode (m : ListFilesResponse) : List UInt8 :=
  m.fileNames.flatMap fun name => encodeString (utf8 name)

/-- `ListFilesResponse::decode`. -/
def ListFilesResponse.decode (buf : List UInt8) : Option ListFilesResponse :=
  (decodeStrings fromUtf8 buf).map fun names => ⟨names⟩

/-- `ListFilesCodec::write_response`. -/
def ListFilesCodec.writeResponse (response : ListFilesResponse) (io : Sink) :
    Sink × Except IoError Unit :=
  sendFramed response.encode io

/-- `ListFilesCodec::read_response`. -/
def ListFilesCodec.readResponse (io : List ReadResult) : Except IoError ListFilesResponse :=
  receiveFramed ListFilesResponse.decode io

/-- A name is no longer than the message it is in. -/
theorem ListFilesResponse.length_le_encode {m : ListFilesResponse} {name : String}
    (h : name ∈ m.fileNames) : (utf8 name).length ≤ m.encode.length := by
  obtain ⟨names⟩ := m
  unfold ListFilesResponse.encode
  induction names with
  | nil => simp at h
  | cons n names ih =>
    simp only [List.flatMap_cons, List.length_append]
    obtain rfl | h := List.mem_cons.mp h
    · simp only [encodeString, List.length_cons, List.length_append]
      omega
    · have := ih h
      simp only at this
      omega

/-- **Round trip of the response message**, whatever names it has. -/
theorem ListFilesResponse.decode_encode (m : ListFilesResponse)
    (h : m.encode.length ≤ maxFrameLength) : ListFilesResponse.decode m.encode = some m := by
  have hlen : ∀ name ∈ m.fileNames, (utf8 name).length < UInt64.size := by
    intro name hname
    have := ListFilesResponse.length_le_encode hname
    simp only [maxFrameLength] at h
    simp only [UInt64.size]
    omega
  have hrt := decodeStrings_encodeStrings m.fileNames fromUtf8_utf8 hlen
  rw [ListFilesResponse.decode, ListFilesResponse.encode, hrt]
  rfl

/-- Both messages survive the wire, and what is left of one that was cut
short is an error. -/
theorem messages_survive_wire :
    SurvivesWire FileGetMessage.encode tokioSendRequest tokioReceiveMessage ∧
    SurvivesWire ListFilesResponse.encode ListFilesCodec.writeResponse
      ListFilesCodec.readResponse :=
  ⟨survivesWire_framed FileGetMessage.decode_encode,
    survivesWire_framed ListFilesResponse.decode_encode⟩

/-- Three names, an empty one among them, arriving byte by byte. -/
example : ListFilesCodec.readResponse
    (((ListFilesCodec.writeResponse ⟨["a", "", "b"]⟩ ⟨[], []⟩).1.written.map fun b => .data [b])) =
      .ok ⟨["a", "", "b"]⟩ := by
  decide +kernel

end FileSharing
