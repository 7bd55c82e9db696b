/-
FileSharing.FileGet.ExchangeSides — what each side of an exchange has done,
in every interleaving.

`ServerProgress` says it of the serving side and `ClientProgress` of the requesting side.
What the first wrote is a beginning of what its reader yields, and the second
is where `tokioCopyStream` comes to on the pieces it has read; that the
pieces put together are the bytes written is what ties them to each other
(`Exchange.serverOut`).
-/
import FileSharing.FileGet.ExchangeSteps

namespace FileSharing

open Lib

variable {p : FileGetOutboundProtocol} {u : FileGetInboundProtocol} {window : Nat} {file₀ : Sink}
  {s s' : Exchange} {a : ExchangeLabel} {written : List UInt8}

/-! ## The serving side -/

/-- What a reader yields; no reader yields nothing. -/
def yieldedBy : Option FileReader → List UInt8
  | some reader => yielded reader.reads
  | none => []

/-- What the serving side has done: `request` is what goes out on the
request channel, `out` are the bytes it wrote that are not lost. -/
inductive ServerProgress (request : RequestId × FileGetMessage) (out : List UInt8) :
    ServerSide → Option (RequestId × FileGetMessage) → Option FileReader → Prop where
  | receiving : out = [] → ServerProgress request out (.running .receiving) none none
  | refused {e : IoError} : out = [] →
      ServerProgress request out (.ended (.returned (.error e))) none none
  | waiting : out = [] → ServerProgress request out (.running .awaitingReader) (some request) none
  | panicked : out = [] →
      ServerProgress request out (.ended (.panicked (.expect "Sender exists"))) (some request) none
  | copying {reader now : FileReader} : yielded reader.reads = out ++ yielded now.reads →
      contents reader.reads = (contents now.reads).map (out ++ ·) →
      readError reader.reads = readError now.reads →
      ServerProgress request out (.running (.copying now)) (some request) (some reader)
  | finished {reader : FileReader} : contents reader.reads = some out →
      ServerProgress request out (.ended (.returned (.ok true))) (some request) (some reader)
  | failed {reader : FileReader} {e : IoError} : out <+: yielded reader.reads →
      ServerProgress request out (.ended (.returned (.error e))) (some request) (some reader)
  | dropped {announced : Option (RequestId × FileGetMessage)} {reader : Option FileReader} :
      announced = none ∧ reader = none ∨ announced = some request → out <+: yieldedBy reader →
      ServerProgress request out .dropped announced reader

variable {request : RequestId × FileGetMessage} {out : List UInt8} {server : ServerSide}
  {announced : Option (RequestId × FileGetMessage)} {response : Option FileReader}

/-- The server writes what its reader yields, and nothing else. -/
theorem ServerProgress.prefix_yielded (h : ServerProgress request out server announced response) :
    out <+: yieldedBy response := by
  cases h with
  | receiving hout | refused hout | waiting hout | panicked hout =>
    rw [hout]
    exact List.nil_prefix
  | copying hyielded => exact ⟨_, hyielded.symm⟩
  | @finished reader hcontents =>
    have hyielded : out = yieldedBy (some reader) := (contents_eq_yielded hcontents).symm
    exact hyielded ▸ List.prefix_rfl
  | failed hprefix => exact hprefix
  | dropped _ hprefix => exact hprefix

theorem ServerProgress.announced_cases (h : ServerProgress request out server announced response) :
    announced = none ∧ response = none ∨ announced = some request := by
  cases h with
  | dropped hannounced => exact hannounced
  | receiving | refused => exact .inl ⟨rfl, rfl⟩
  | _ => exact .inr rfl

theorem ServerProgress.of_receiving (h : ServerProgress request out server announced response)
    (hserver : server = .running .receiving) : out = [] ∧ announced = none ∧ response = none := by
  cases h with
  | receiving hout => exact ⟨hout, rfl, rfl⟩
  | _ => cases hserver

theorem ServerProgress.of_waiting (h : ServerProgress request out server announced response)
    (hserver : server = .running .awaitingReader) :
    out = [] ∧ announced = some request ∧ response = none := by
  cases h with
  | waiting hout => exact ⟨hout, rfl, rfl⟩
  | _ => cases hserver

theorem ServerProgress.of_copying {now : FileReader}
    (h : ServerProgress request out server announced response)
    (hserver : server = .running (.copying now)) : announced = some request ∧
      ∃ reader, response = some reader ∧ yielded reader.reads = out ++ yielded now.reads ∧
        contents reader.reads = (contents now.reads).map (out ++ ·) ∧
        readError reader.reads = readError now.reads := by
  cases h with
  | @copying reader _ hyielded hcontents herror =>
    cases hserver
    exact ⟨rfl, reader, rfl, hyielded, hcontents, herror⟩
  | _ => cases hserver

theorem ServerProgress.of_finished (h : ServerProgress request out server announced response)
    (hserver : server = .ended (.returned (.ok true))) : announced = some request ∧
      ∃ reader, response = some reader ∧ contents reader.reads = some out := by
  cases h with
  | @finished reader hcontents => exact ⟨rfl, reader, rfl, hcontents⟩
  | _ => cases hserver

theorem isEmpty_of_le {bytes : List UInt8} {n : Nat} (hpos : 0 < n) (hle : n ≤ bytes.length) :
    bytes.isEmpty = false := by
  cases bytes with
  | nil => exact absurd (Nat.lt_of_lt_of_le hpos hle) (Nat.lt_irrefl 0)
  | cons b bytes => rfl

/-- Of a piece of which `n` bytes are written the others come next. -/
theorem yielded_rest {bytes : List UInt8} {rest : List ReadResult} {n : Nat} (hpos : 0 < n)
    (hle : n ≤ bytes.length) : yielded (.data bytes :: rest) = bytes.take n ++
      yielded (if bytes.length ≤ n then rest else .data (bytes.drop n) :: rest) := by
  have hne := isEmpty_of_le hpos hle
  simp only [yielded, hne, Bool.false_eq_true, if_false]
  split
  · rename_i hall
    rw [List.take_of_length_le hall]
  · rename_i hpart
    have hdrop : (bytes.drop n).isEmpty = false := by
      simpa [List.drop_eq_nil_iff] using hpart
    simp only [yielded, hdrop, Bool.false_eq_true, if_false]
    rw [← List.append_assoc, List.take_append_drop]

theorem contents_rest {bytes : List UInt8} {rest : List ReadResult} {n : Nat} (hpos : 0 < n)
    (hle : n ≤ bytes.length) : contents (.data bytes :: rest) =
      (contents (if bytes.length ≤ n then rest else .data (bytes.drop n) :: rest)).map
        (bytes.take n ++ ·) := by
  have hne := isEmpty_of_le hpos hle
  simp only [contents, hne, Bool.false_eq_true, if_false]
  split
  · rename_i hall
    rw [List.take_of_length_le hall]
  · rename_i hpart
    have hdrop : (bytes.drop n).isEmpty = false := by
      simpa [List.drop_eq_nil_iff] using hpart
    simp only [contents, hdrop, Bool.false_eq_true, if_false, Option.map_map]
    congr 1
    funext c
    simp [← List.append_assoc]

theorem readError_rest {bytes : List UInt8} {rest : List ReadResult} {n : Nat} (hpos : 0 < n)
    (hle : n ≤ bytes.length) : readError (.data bytes :: rest) =
      readError (if bytes.length ≤ n then rest else .data (bytes.drop n) :: rest) := by
  have hne := isEmpty_of_le hpos hle
  simp only [readError, hne, Bool.false_eq_true, if_false]
  split
  · rfl
  · rename_i hpart
    have hdrop : (bytes.drop n).isEmpty = false := by
      simpa [List.drop_eq_nil_iff] using hpart
    simp only [readError, hdrop, Bool.false_eq_true, if_false]

/-- The bytes the serving side wrote that are not lost. -/
def Exchange.serverOut (s : Exchange) : List UInt8 := s.chunks.flatten ++ s.toClient

/-- Reading moves bytes from one end to the other. -/
theorem Exchange.serverOut_read (s : Exchange) (n : Nat) :
    (s.chunks ++ [s.toClient.take n]).flatten ++ s.toClient.drop n = s.serverOut := by
  simp [serverOut]

theorem Exchange.serverOut_kept (s : Exchange) (kept : Nat) :
    s.chunks.flatten ++ s.toClient.take kept <+: s.serverOut := by
  rw [serverOut, List.prefix_append_right_inj]
  exact List.take_prefix kept s.toClient

/-- What the serving side has done in a state of the exchange. -/
def Exchange.Serving (p : FileGetOutboundProtocol) (u : FileGetInboundProtocol) (s : Exchange) :
    Prop :=
  ServerProgress (u.requestId, ⟨p.fileName⟩) s.serverOut s.server s.announced s.reader

/-- The frame that comes is that of the request, and decodes to it. -/
theorem Exchange.Incoming.message {n : Nat} {data : List UInt8} {message : FileGetMessage}
    (h : s.Incoming p written) (hfit : p.encoded.length ≤ maxFrameLength)
    (hframe : ((s.decoder.push (s.toServer.take n)).decode maxFrameLength).2 = .frame data)
    (hdecode : FileGetMessage.decode data = some message) : message = ⟨p.fileName⟩ := by
  have hdata := (h.frame (n := n) hfit (by simp [hframe])).1
  rw [hframe] at hdata
  obtain rfl := Decoded.frame.inj hdata
  have hmessage := FileGetMessage.decode_encode ⟨p.fileName⟩ hfit
  rw [FileGetOutboundProtocol.encoded, hmessage] at hdecode
  exact (Option.some.inj hdecode).symm

/-- A refused request was never announced. -/
theorem Exchange.Serving.refuse {s₁ : Exchange} {e : IoError} (hs : s.Serving p u)
    (hserver : s.server = .running .receiving) (hout : s₁.serverOut = s.serverOut)
    (hend : s₁.server = .ended (.returned (.error e))) (hann : s₁.announced = s.announced)
    (hres : s₁.reader = s.reader) : s₁.Serving p u := by
  obtain ⟨hnil, hnone, hno⟩ := hs.of_receiving hserver
  unfold Exchange.Serving
  rw [hout, hend, hann, hres, hnone, hno]
  exact .refused hnil

/-- A copy that fails loses bytes at its end only. -/
theorem Exchange.Serving.fail {reader : FileReader} {e : IoError} (hs : s.Serving p u)
    (hserver : s.server = .running (.copying reader)) (kept : Nat) :
    { s with toClient := s.toClient.take kept,
             server := .ended (.returned (.error e)) }.Serving p u := by
  obtain ⟨hann, reader₀, hres, hyielded, -⟩ := hs.of_copying hserver
  simp only [Exchange.Serving, hann, hres]
  exact .failed ((s.serverOut_kept kept).trans ⟨_, hyielded.symm⟩)

/-- **What a step does to the serving side.** -/
theorem Exchanged.serving (h : Exchanged u s a s') (hfits : s.Fits p)
    (hi : s.server = .running .receiving → s.Incoming p written) (hs : s.Serving p u) :
    s'.Serving p u := by
  cases h with
  | wrote | sent | sawEnd | clientFailed | clientDropped | gotMore => exact hs
  | @read n | @unwritten n =>
    simp only [Exchange.Serving, Exchange.serverOut, Exchange.serverOut_read]
    exact hs
  | @received n data message hserver hpos hle hframe hdecode =>
    obtain rfl := (hi hserver).message (hfits.of_inFlight hpos hle) hframe hdecode
    obtain ⟨hout, -, hres⟩ := hs.of_receiving hserver
    simp only [Exchange.Serving, hres]
    exact .waiting hout
  | refused hserver => exact hs.refuse hserver rfl rfl rfl rfl
  | eof hserver hempty hgone hframe => exact absurd hframe ((hi hserver).eof hfits hempty _)
  | eofRefused hserver => exact hs.refuse hserver rfl rfl rfl rfl
  | @answered reader hserver =>
    obtain ⟨hout, hann, -⟩ := hs.of_waiting hserver
    simp only [Exchange.Serving, hann]
    refine .copying ?_ ?_ rfl
    · show _ = s.serverOut ++ _
      rw [hout, List.nil_append]
    · show _ = (contents reader.reads).map (s.serverOut ++ ·)
      simp [hout]
  | canceled hserver =>
    obtain ⟨hout, hann, -⟩ := hs.of_waiting hserver
    simp only [Exchange.Serving, hann]
    exact .panicked hout
  | @copied bytes rest n kept hserver hpos hle =>
    obtain ⟨hann, reader, hres, hyielded, hcontents, herror⟩ := hs.of_copying hserver
    simp only [Exchange.Serving, hann, hres]
    rw [yielded_rest hpos hle] at hyielded
    rw [contents_rest hpos hle, Option.map_map] at hcontents
    rw [readError_rest hpos hle] at herror
    refine .copying ?_ ?_ herror
    · rw [hyielded]
      simp [Exchange.serverOut]
    · rw [hcontents]
      congr 1
      funext c
      simp [Exchange.serverOut]
  | finished hserver hend =>
    obtain ⟨hann, reader, hres, -, hcontents, -⟩ := hs.of_copying hserver
    simp only [Exchange.Serving, hann, hres]
    refine .finished ?_
    rw [hcontents, hend]
    simp [Exchange.serverOut]
  | unread hserver => exact hs.fail hserver _
  | receivingFailed hserver => exact hs.refuse hserver rfl rfl rfl rfl
  | copyingFailed hserver => exact hs.fail hserver _
  | @serverDropped phase kept hserver =>
    exact .dropped hs.announced_cases ((s.serverOut_kept kept).trans hs.prefix_yielded)

/-! ## The requesting side -/

/-- With a request that is sent, the outbound upgrade is the copy. -/
theorem FileGetOutboundProtocol.upgradeOutbound_sent (hfit : p.encoded.length ≤ maxFrameLength)
    {reads : List ReadResult} {file : Sink} {result : Except IoError Unit}
    (h : tokioCopyStream reads file₀ = (file, result)) :
    p.upgradeOutbound ⟨[], []⟩ reads file₀ = ((⟨frameOf p.encoded, []⟩, file), result) := by
  have hsend : tokioSendRequest ⟨p.fileName⟩ ⟨[], []⟩ = (⟨frameOf p.encoded, []⟩, .ok ()) := by
    have hframe : encodeFrame (FileGetMessage.encode ⟨p.fileName⟩) = .ok (frameOf p.encoded) :=
      encodeFrame_eq hfit
    simp [tokioSendRequest, hframe, Sink.write, Sink.flush]
  simp only [upgradeOutbound, hsend, h]

/-- With a request that is not, it ends there. -/
theorem FileGetOutboundProtocol.upgradeOutbound_unsent (hfit : p.encoded.length ≤ maxFrameLength)
    (e : IoError) (reads : List ReadResult) :
    p.upgradeOutbound ⟨[], [some ⟨0, e⟩]⟩ reads file₀ = ((⟨[], []⟩, file₀), .error e) := by
  have hsend : tokioSendRequest ⟨p.fileName⟩ ⟨[], [some ⟨0, e⟩]⟩ = (⟨[], []⟩, .error e) := by
    have hframe : encodeFrame (FileGetMessage.encode ⟨p.fileName⟩) = .ok (frameOf p.encoded) :=
      encodeFrame_eq hfit
    simp [tokioSendRequest, hframe, Sink.write]
  simp only [upgradeOutbound, hsend]

theorem FileGetOutboundProtocol.upgradeOutbound_tooLong (h : maxFrameLength < p.encoded.length)
    (reads : List ReadResult) :
    p.upgradeOutbound ⟨[], []⟩ reads file₀ = ((⟨[], []⟩, file₀), .error ⟨.invalidInput⟩) := by
  have hframe : encodeFrame (FileGetMessage.encode ⟨p.fileName⟩) = .error ⟨.invalidInput⟩ :=
    encodeFrame_tooLong h
  simp only [upgradeOutbound, tokioSendRequest, hframe]

/-- A writer that fails has taken a part of the bytes. -/
theorem Sink.write_error {w w' : Sink} {bytes : List UInt8} {e : IoError}
    (h : w.write bytes = (w', .error e)) : ∃ n, w'.written = w.written ++ bytes.take n := by
  unfold Sink.write at h
  split at h
  · cases (Prod.mk.inj h).2
  · cases (Prod.mk.inj h).2
  · rename_i f faults _
    obtain rfl := (Prod.mk.inj h).1
    exact ⟨f.accepted, rfl⟩

variable {chunks : List (List UInt8)} {file : Sink}

/-- A copy that has come to `file` goes on with the next piece. -/
theorem tokioCopyStream_piece
    (h : ∀ more, tokioCopyStream (chunks.map .data ++ more) file₀ = tokioCopyStream more file)
    {piece : List UInt8} (hne : piece ≠ []) (more : List ReadResult) :
    tokioCopyStream ((chunks ++ [piece]).map .data ++ more) file₀ =
      match file.write piece with
      | (file, .ok ()) => tokioCopyStream more file
      | (file, .error e) => (file, .error e) := by
  have hpiece : piece.isEmpty = false := by simpa using hne
  rw [List.map_append, List.append_assoc, h]
  rcases hwrite : file.write piece with ⟨file', _ | _⟩
  · simp [tokioCopyStream, hpiece, hwrite]
  · simp [tokioCopyStream, hpiece, hwrite]

theorem take_ne_nil {bytes : List UInt8} {n : Nat} (hpos : 0 < n) (hle : n ≤ bytes.length) :
    bytes.take n ≠ [] := by
  intro hnil
  have hlen := congrArg List.length hnil
  rw [List.length_take_of_le hle] at hlen
  exact Nat.ne_of_gt hpos hlen

/-- The file has a part of the pieces, from the first byte on. -/
def TakenIn (file₀ : Sink) (chunks : List (List UInt8)) (file : Sink) : Prop :=
  ∃ bytes, bytes <+: chunks.flatten ∧ file.written = file₀.written ++ bytes

/-- The outbound upgrade, run through, ends in this way on the pieces that
were read, and in the file is what a success promises. -/
structure OutboundRan (p : FileGetOutboundProtocol) (file₀ : Sink) (chunks : List (List UInt8))
    (file : Sink) (result : Except IoError Unit) : Prop where
  upgrade : ∃ socket socket' eof, (result = .ok () → eof = []) ∧
    p.upgradeOutbound socket (chunks.map .data ++ eof) file₀ = ((socket', file), result)
  taken : TakenIn file₀ chunks file
  all : result = .ok () → file.written = file₀.written ++ chunks.flatten

/-- What the requesting side has done, `chunks` being what it has read. -/
inductive ClientProgress (p : FileGetOutboundProtocol) (file₀ : Sink) (chunks : List (List UInt8))
    (file : Sink) : ClientSide → Prop where
  | sending {todo : List UInt8} : chunks = [] → file = file₀ →
      ClientProgress p file₀ chunks file (.running (.sending todo))
  | copying : file.written = file₀.written ++ chunks.flatten →
      (∀ more, tokioCopyStream (chunks.map .data ++ more) file₀ = tokioCopyStream more file) →
      ClientProgress p file₀ chunks file (.running .copying)
  | ended {result : Except IoError Unit} : OutboundRan p file₀ chunks file result →
      ClientProgress p file₀ chunks file (.ended result)
  | dropped : TakenIn file₀ chunks file → ClientProgress p file₀ chunks file .dropped

theorem TakenIn.of_all (h : file.written = file₀.written ++ chunks.flatten) :
    TakenIn file₀ chunks file :=
  ⟨_, List.prefix_rfl, h⟩

variable {client : ClientSide}

theorem ClientProgress.takenIn (h : ClientProgress p file₀ chunks file client) :
    TakenIn file₀ chunks file := by
  cases h with
  | sending hchunks hfile =>
    rw [hfile]
    exact ⟨[], List.nil_prefix, (List.append_nil _).symm⟩
  | copying hwritten => exact .of_all hwritten
  | ended hran => exact hran.taken
  | dropped htaken => exact htaken

theorem ClientProgress.of_copying (h : ClientProgress p file₀ chunks file client)
    (hclient : client = .running .copying) : file.written = file₀.written ++ chunks.flatten ∧
      ∀ more, tokioCopyStream (chunks.map .data ++ more) file₀ = tokioCopyStream more file := by
  cases h with
  | copying hwritten hcopy => exact ⟨hwritten, hcopy⟩
  | _ => cases hclient

theorem ClientProgress.of_ended {result : Except IoError Unit}
    (h : ClientProgress p file₀ chunks file client) (hclient : client = .ended result) :
    OutboundRan p file₀ chunks file result := by
  cases h with
  | ended hran =>
    cases hclient
    exact hran
  | _ => cases hclient

theorem ClientProgress.of_sending {todo : List UInt8}
    (h : ClientProgress p file₀ chunks file client)
    (hclient : client = .running (.sending todo)) : chunks = [] ∧ file = file₀ := by
  cases h with
  | sending hchunks hfile => exact ⟨hchunks, hfile⟩
  | _ => cases hclient

/-- What the requesting side has done in a state of the exchange. -/
def Exchange.Fetching (p : FileGetOutboundProtocol) (file₀ : Sink) (s : Exchange) : Prop :=
  ClientProgress p file₀ s.chunks s.file s.client

theorem Exchange.start_fetching : (start p file₀).Fetching p file₀ := by
  unfold Exchange.Fetching
  by_cases h : p.encoded.length ≤ maxFrameLength
  · rw [start_client h]
    exact .sending rfl rfl
  · have hlong := Nat.not_le.mp h
    rw [start_client_tooLong hlong]
    refine .ended ⟨?_, ?_, ?_⟩
    · exact ⟨_, _, [], fun _ => rfl, p.upgradeOutbound_tooLong hlong _⟩
    · exact ⟨[], List.nil_prefix, (List.append_nil _).symm⟩
    · intro hok
      cases hok

/-- **What a step does to the requesting side.** -/
theorem Exchanged.fetching (h : Exchanged u s a s') (hfits : s.Fits p)
    (hs : s.Fetching p file₀) : s'.Fetching p file₀ := by
  cases h with
  | wrote hclient =>
    obtain ⟨hchunks, hfile⟩ := hs.of_sending hclient
    exact .sending hchunks hfile
  | sent hclient =>
    obtain ⟨hchunks, hfile⟩ := hs.of_sending hclient
    refine .copying ?_ ?_
    · simp [hchunks, hfile]
    · intro more
      simp [hchunks, hfile]
  | @read n file hclient hpos hle hwrite =>
    obtain ⟨hwritten, hcopy⟩ := hs.of_copying hclient
    simp only [Exchange.Fetching, hclient]
    refine .copying ?_ ?_
    · rw [Sink.write_ok hwrite, hwritten]
      simp
    · intro more
      rw [tokioCopyStream_piece hcopy (take_ne_nil hpos hle), hwrite]
  | @unwritten n file e hclient hpos hle hwrite =>
    obtain ⟨hwritten, hcopy⟩ := hs.of_copying hclient
    have hend : tokioCopyStream ((s.chunks ++ [s.toClient.take n]).map .data ++ []) file₀ =
        (file, .error e) := by
      rw [tokioCopyStream_piece hcopy (take_ne_nil hpos hle), hwrite]
    refine .ended ⟨?_, ?_, ?_⟩
    · exact ⟨_, _, [], fun _ => rfl, p.upgradeOutbound_sent (hfits.of_running hclient) hend⟩
    · obtain ⟨k, hk⟩ := Sink.write_error hwrite
      refine ⟨s.chunks.flatten ++ (s.toClient.take n).take k, ?_, ?_⟩
      · simp only [List.flatten_append, List.flatten_cons, List.flatten_nil, List.append_nil,
          List.prefix_append_right_inj]
        exact List.take_prefix _ _
      · rw [hk, hwritten, List.append_assoc]
    · intro hok
      cases hok
  | @sawEnd file result hclient hempty hgone hflush =>
    obtain ⟨hwritten, hcopy⟩ := hs.of_copying hclient
    have hfile : file.written = file₀.written ++ s.chunks.flatten := by
      rw [← hwritten, ← s.file.flush_written, hflush]
    have hend : tokioCopyStream (s.chunks.map .data ++ []) file₀ = (file, result) := by
      rw [hcopy, tokioCopyStream, hflush]
    refine .ended ⟨?_, .of_all hfile, fun _ => hfile⟩
    exact ⟨_, _, [], fun _ => rfl, p.upgradeOutbound_sent (hfits.of_running hclient) hend⟩
  | @clientFailed phase e kept hclient =>
    have hfit := hfits.of_running hclient
    refine .ended ⟨?_, hs.takenIn, ?_⟩
    · cases phase with
      | sending todo =>
        obtain ⟨hchunks, hfile⟩ := hs.of_sending hclient
        dsimp only
        rw [hfile]
        exact ⟨_, _, [], fun _ => rfl, p.upgradeOutbound_unsent hfit e _⟩
      | copying =>
        -- the error is what the next read gives
        obtain ⟨-, hcopy⟩ := hs.of_copying hclient
        have hend : tokioCopyStream (s.chunks.map .data ++ [.error e]) file₀ =
            (s.file, .error e) := by
          rw [hcopy, tokioCopyStream]
        refine ⟨_, _, [.error e], ?_, p.upgradeOutbound_sent hfit hend⟩
        intro hok
        cases hok
    · intro hok
      cases hok
  | clientDropped hclient => exact .dropped hs.takenIn
  | gotMore | received | refused | eof | eofRefused | answered | canceled | copied | finished |
    unread | receivingFailed | copyingFailed | serverDropped => exact hs

/-! ## Every interleaving -/

/-- What holds of an exchange in every state, `written` being what its client
has written. -/
structure Exchanging (p : FileGetOutboundProtocol) (u : FileGetInboundProtocol) (file₀ : Sink)
    (written : List UInt8) (s : Exchange) : Prop where
  fits : s.Fits p
  incoming : s.server = .running .receiving → s.Incoming p written
  serving : s.Serving p u
  fetching : s.Fetching p file₀
  pieces : ∀ c ∈ s.chunks, c ≠ []
  /-- Nothing is announced before the request is written. -/
  unsent : ∀ todo, s.client = .running (.sending todo) → todo ≠ [] ∧ s.announced = none
  announced : s.announced ≠ none → written = frameOf p.encoded
  /-- A client that succeeded has seen the end of the stream. -/
  ended : s.client = .ended (.ok ()) → s.server.isRunning = false ∧ s.toClient = []

theorem Exchange.start_exchanging : Exchanging p u file₀ [] (start p file₀) where
  fits := start_fits
  incoming := fun _ => start_incoming
  serving := .receiving rfl
  fetching := start_fetching
  pieces := by simp [start]
  unsent := by
    intro todo htodo
    refine ⟨?_, rfl⟩
    by_cases h : p.encoded.length ≤ maxFrameLength
    · rw [start_client h] at htodo
      cases htodo
      exact frameOf_ne_nil _
    · rw [start_client_tooLong (Nat.not_le.mp h)] at htodo
      cases htodo
  announced := fun hann => absurd rfl hann
  ended := by
    intro hok
    by_cases h : p.encoded.length ≤ maxFrameLength
    · rw [start_client h] at hok
      cases hok
    · rw [start_client_tooLong (Nat.not_le.mp h)] at hok
      cases hok

theorem Exchanged.pieces (h : Exchanged u s a s') (hs : ∀ c ∈ s.chunks, c ≠ []) :
    ∀ c ∈ s'.chunks, c ≠ [] := by
  cases h with
  | @read n file hclient hpos hle | @unwritten n file e hclient hpos hle =>
    intro c hc
    obtain hc | hc := List.mem_append.mp hc
    · exact hs c hc
    · obtain rfl := List.mem_singleton.mp hc
      exact take_ne_nil hpos hle
  | _ => exact hs

theorem Exchanged.unsent (h : Exchanged u s a s') (hfits : s.Fits p)
    (hi : s.server = .running .receiving → s.Incoming p written)
    (hs : ∀ todo, s.client = .running (.sending todo) → todo ≠ [] ∧ s.announced = none) :
    ∀ todo, s'.client = .running (.sending todo) → todo ≠ [] ∧ s'.announced = none := by
  intro todo htodo
  cases h with
  | wrote hclient hpos hlt =>
    cases htodo
    refine ⟨?_, (hs _ hclient).2⟩
    intro hnil
    exact Nat.not_le.mpr hlt (List.drop_eq_nil_iff.mp hnil)
  | sent | unwritten | sawEnd | clientFailed | clientDropped => cases htodo
  | @received n data message hserver hpos hle hframe =>
    have hdone := (hi hserver).frame (n := n) (hfits.of_inFlight hpos hle) (by simp [hframe])
    exact absurd (hdone.2.2 todo htodo) (hs todo htodo).1
  | eof hserver hempty hgone =>
    dsimp only at htodo
    rw [htodo] at hgone
    cases hgone
  | _ => exact hs todo htodo

/-- The end of the stream is for ever. -/
theorem Exchanged.ended (h : Exchanged u s a s')
    (hs : s.client = .ended (.ok ()) → s.server.isRunning = false ∧ s.toClient = [])
    (hok : s'.client = .ended (.ok ())) : s'.server.isRunning = false ∧ s'.toClient = [] := by
  cases h with
  | wrote | sent | unwritten | clientFailed | clientDropped => cases hok
  | read hclient =>
    rw [hclient] at hok
    cases hok
  | sawEnd hclient hempty hgone => exact ⟨hgone, hempty⟩
  | gotMore hserver | received hserver | refused hserver | eof hserver | eofRefused hserver =>
    have hnot := (hs hok).1
    rw [hserver] at hnot
    cases hnot
  | answered hserver | canceled hserver | copied hserver | finished hserver | unread hserver =>
    have hnot := (hs hok).1
    rw [hserver] at hnot
    cases hnot
  | receivingFailed hserver | copyingFailed hserver | serverDropped hserver =>
    have hnot := (hs hok).1
    rw [hserver] at hnot
    cases hnot

/-- What is announced was written before, and nothing is written after it. -/
theorem Exchanging.announced_step (hs : Exchanging p u file₀ written s) (h : Exchanged u s a s')
    (hann : s'.announced ≠ none) : written ++ s.clientWrote a = frameOf p.encoded := by
  cases h with
  | wrote hclient | sent hclient => exact absurd (hs.unsent _ hclient).2 hann
  | @received n data message hserver hpos hle hframe =>
    have hdone := (hs.incoming hserver).frame (n := n) (hs.fits.of_inFlight hpos hle)
      (by simp [hframe])
    rw [Exchange.clientWrote_other (by simp), List.append_nil]
    exact hdone.2.1
  | eof hserver hempty hgone hframe =>
    exact absurd hframe ((hs.incoming hserver).eof hs.fits hempty _)
  | _ =>
    rw [Exchange.clientWrote_other (by simp), List.append_nil]
    exact hs.announced hann

theorem Exchanging.step (hs : Exchanging p u file₀ written s) (h : Exchanged u s a s') :
    Exchanging p u file₀ (written ++ s.clientWrote a) s' where
  fits := h.fits hs.fits
  incoming := h.incoming hs.fits hs.incoming
  serving := h.serving hs.fits hs.incoming hs.serving
  fetching := h.fetching hs.fits hs.fetching
  pieces := h.pieces hs.pieces
  unsent := h.unsent hs.fits hs.incoming hs.unsent
  announced := hs.announced_step h
  ended := h.ended hs.ended

variable {tr : Trace Exchange ExchangeLabel}

/-- A step of a run is one of the steps listed above. -/
theorem run_exchanged {t : Transition Exchange ExchangeLabel}
    (h : (exchangeMachine p u window file₀).Run (t :: tr) s) :
    Exchanged u t.pre t.label t.post := by
  obtain ⟨-, hallowed, hok, -⟩ := h.tail
  have hpost : t.pre.step u t.label = t.post := Except.ok.inj hok
  rw [← hpost]
  exact Exchange.step_exchanged hallowed

theorem run_exchanging (h : (exchangeMachine p u window file₀).Run tr s) :
    Exchanging p u file₀ (clientOutput tr) s :=
  h.invariant (I := fun tr s => Exchanging p u file₀ (clientOutput tr) s) Exchange.start_exchanging
    fun hrun hs hallowed hok => hs.step (run_exchanged (hrun.next hallowed hok))

end FileSharing
