/-
FileSharing.FileGet.ExchangeSteps — what a step of an exchange does, and
what becomes of the request.

`Exchanged` has one case for each thing that can happen, with its guards
and the next state. What holds in every interleaving is proved from it.

The request is followed from the client's frame through the bytes in flight
into the server's decoder (`Exchange.Incoming`): as long as the server
receives, its decoder waits for exactly what is in flight and what the
client has still to write. What the client has written in a run
(`clientOutput`) no failure takes back, and so a decoder that waits for
nothing tells that all of the frame was written.
-/
import FileSharing.FileGet.Exchange

namespace FileSharing

open Lib

variable {p : FileGetOutboundProtocol} {u : FileGetInboundProtocol} {window : Nat} {file₀ : Sink}
  {s s' : Exchange} {a : ExchangeLabel} {written : List UInt8}

/-! ## What a step does -/

/-- What each allowed step does. -/
inductive Exchanged (u : FileGetInboundProtocol) (s : Exchange) :
    ExchangeLabel → Exchange → Prop where
  | wrote {todo : List UInt8} {n : Nat} : s.client = .running (.sending todo) → 0 < n →
      n < todo.length → Exchanged u s (.clientWrites n)
        { s with toServer := s.toServer ++ todo.take n,
                 client := .running (.sending (todo.drop n)) }
  | sent {todo : List UInt8} {n : Nat} : s.client = .running (.sending todo) → 0 < n →
      n = todo.length → Exchanged u s (.clientWrites n)
        { s with toServer := s.toServer ++ todo, client := .running .copying }
  | read {n : Nat} {file : Sink} : s.client = .running .copying → 0 < n → n ≤ s.toClient.length →
      s.file.write (s.toClient.take n) = (file, .ok ()) → Exchanged u s (.clientReads n)
        { s with toClient := s.toClient.drop n, chunks := s.chunks ++ [s.toClient.take n],
                 file := file }
  | unwritten {n : Nat} {file : Sink} {e : IoError} : s.client = .running .copying → 0 < n →
      n ≤ s.toClient.length → s.file.write (s.toClient.take n) = (file, .error e) →
      Exchanged u s (.clientReads n)
        { s with toClient := s.toClient.drop n, chunks := s.chunks ++ [s.toClient.take n],
                 file := file, client := .ended (.error e) }
  | sawEnd {file : Sink} {result : Except IoError Unit} : s.client = .running .copying →
      s.toClient = [] → s.server.isRunning = false → s.file.flush = (file, result) →
      Exchanged u s .clientEnds { s with file := file, client := .ended result }
  | clientFailed {phase : OutboundPhase} {e : IoError} {kept : Nat} : s.client = .running phase →
      Exchanged u s (.clientFails e kept)
        { s with client := .ended (.error e), toServer := s.toServer.take kept }
  | clientDropped {phase : OutboundPhase} {kept : Nat} : s.client = .running phase →
      Exchanged u s (.clientDropped kept)
        { s with client := .dropped, toServer := s.toServer.take kept }
  | gotMore {n : Nat} {d : FrameDecoder} : s.server = .running .receiving → 0 < n →
      n ≤ s.toServer.length →
      (s.decoder.push (s.toServer.take n)).decode maxFrameLength = (d, .more) →
      Exchanged u s (.serverReads n)
        { s with toServer := s.toServer.drop n, decoder := d }
  | received {n : Nat} {data : List UInt8} {message : FileGetMessage} :
      s.server = .running .receiving → 0 < n → n ≤ s.toServer.length →
      ((s.decoder.push (s.toServer.take n)).decode maxFrameLength).2 = .frame data →
      FileGetMessage.decode data = some message → Exchanged u s (.serverReads n)
        { s with toServer := s.toServer.drop n, server := .running .awaitingReader,
                 announced := some (u.requestId, message) }
  | refused {n : Nat} {e : IoError} : s.server = .running .receiving → 0 < n →
      n ≤ s.toServer.length →
      (∀ data, ((s.decoder.push (s.toServer.take n)).decode maxFrameLength).2 = .frame data →
        FileGetMessage.decode data = none) →
      ((s.decoder.push (s.toServer.take n)).decode maxFrameLength).2 ≠ .more →
      Exchange.ofFrame (framedNext s.decoder [.data (s.toServer.take n)]) = .error e →
      Exchanged u s (.serverReads n)
        { s with toServer := s.toServer.drop n, server := .ended (.returned (.error e)) }
  | eof {message : FileGetMessage} {data : List UInt8} : s.server = .running .receiving →
      s.toServer = [] → s.client.isRunning = false → framedEof s.decoder = .ok (some data) →
      FileGetMessage.decode data = some message → Exchanged u s .serverEof
        { s with server := .running .awaitingReader, announced := some (u.requestId, message) }
  | eofRefused {e : IoError} : s.server = .running .receiving → s.toServer = [] →
      s.client.isRunning = false → Exchange.ofFrame (framedEof s.decoder) = .error e →
      Exchanged u s .serverEof { s with server := .ended (.returned (.error e)) }
  | answered {reader : FileReader} : s.server = .running .awaitingReader →
      Exchanged u s (.respond (some reader))
        { s with reader := some reader, server := .running (.copying reader) }
  | canceled : s.server = .running .awaitingReader → Exchanged u s (.respond none)
      { s with reader := none, server := .ended (.panicked (.expect "Sender exists")) }
  | copied {bytes : List UInt8} {rest : List ReadResult} {n kept : Nat} :
      s.server = .running (.copying ⟨.data bytes :: rest⟩) → 0 < n → n ≤ bytes.length →
      Exchanged u s (.serverCopies n kept)
        { s with toClient := s.toClient ++ bytes.take n,
                 server := .running (.copying
                   ⟨if bytes.length ≤ n then rest else .data (bytes.drop n) :: rest⟩) }
  | finished {reader : FileReader} {n kept : Nat} : s.server = .running (.copying reader) →
      contents reader.reads = some [] → Exchanged u s (.serverCopies n kept)
        { s with server := .ended (.returned (.ok true)) }
  | unread {e : IoError} {rest : List ReadResult} {n kept : Nat} :
      s.server = .running (.copying ⟨.error e :: rest⟩) →
      Exchanged u s (.serverCopies n kept)
        { s with toClient := s.toClient.take kept, server := .ended (.returned (.error e)) }
  | receivingFailed {e : IoError} {kept : Nat} : s.server = .running .receiving →
      Exchanged u s (.serverFails e kept)
        { s with server := .ended (.returned (.error e)) }
  | copyingFailed {reader : FileReader} {e : IoError} {kept : Nat} :
      s.server = .running (.copying reader) → Exchanged u s (.serverFails e kept)
        { s with toClient := s.toClient.take kept, server := .ended (.returned (.error e)) }
  | serverDropped {phase : InboundPhase} {kept : Nat} : s.server = .running phase →
      Exchanged u s (.serverDropped kept)
        { s with toClient := s.toClient.take kept, server := .dropped }

/-! The future is resumed by the wake-up it waits for. -/

section

variable (u)

theorem Exchange.wake_message (h : s.server = .running .receiving) (message : FileGetMessage) :
    s.wake u (.received (.ok message)) =
      { s with server := .running .awaitingReader, announced := some (u.requestId, message) } := by
  simp [wake, h, FileGetInboundProtocol.resume]

theorem Exchange.wake_refused (h : s.server = .running .receiving) (e : IoError) :
    s.wake u (.received (.error e)) = { s with server := .ended (.returned (.error e)) } := by
  simp [wake, h, FileGetInboundProtocol.resume]

theorem Exchange.wake_copied {reader : FileReader} (h : s.server = .running (.copying reader)) :
    s.wake u (.copied (.ok ())) = { s with server := .ended (.returned (.ok true)) } := by
  simp [wake, h, FileGetInboundProtocol.resume]

theorem Exchange.wake_uncopied {reader : FileReader} (h : s.server = .running (.copying reader))
    (e : IoError) :
    s.wake u (.copied (.error e)) = { s with server := .ended (.returned (.error e)) } := by
  simp [wake, h, FileGetInboundProtocol.resume]

end

theorem Exchange.clientWrites_exchanged {n : Nat} (h : s.Allowed window (.clientWrites n) = true) :
    Exchanged u s (.clientWrites n) (s.clientWrites n) := by
  simp only [Allowed] at h
  split at h
  · rename_i todo hclient
    simp only [Bool.and_eq_true, decide_eq_true_eq] at h
    obtain ⟨⟨hpos, hle⟩, -⟩ := h
    by_cases hlen : todo.length ≤ n
    · have hn : n = todo.length := Nat.le_antisymm hle hlen
      have hsent : Exchanged u s (.clientWrites n) _ := .sent hclient hpos hn
      simpa [clientWrites, hclient, hlen, List.take_of_length_le hlen] using hsent
    · have hwrote : Exchanged u s (.clientWrites n) _ := .wrote hclient hpos (Nat.not_le.mp hlen)
      simpa [clientWrites, hclient, hlen] using hwrote
  · cases h

theorem Exchange.clientReads_exchanged {n : Nat} (h : s.Allowed window (.clientReads n) = true) :
    Exchanged u s (.clientReads n) (s.clientReads n) := by
  simp only [Allowed] at h
  split at h
  · rename_i hclient
    simp only [Bool.and_eq_true, decide_eq_true_eq] at h
    obtain ⟨hpos, hle⟩ := h
    cases hwrite : s.file.write (s.toClient.take n) with
    | mk file result =>
      cases result with
      | ok _ =>
        simp only [clientReads, hwrite]
        exact .read hclient hpos hle hwrite
      | error e =>
        simp only [clientReads, hwrite]
        exact .unwritten hclient hpos hle hwrite
  · cases h

theorem Exchange.clientEnds_exchanged (h : s.Allowed window .clientEnds = true) :
    Exchanged u s .clientEnds s.clientEnds := by
  simp only [Allowed] at h
  split at h
  · rename_i hclient
    simp only [Bool.and_eq_true, List.isEmpty_iff, Bool.not_eq_true'] at h
    exact .sawEnd hclient h.1 h.2 rfl
  · cases h

theorem ClientSide.isRunning_iff {c : ClientSide} :
    c.isRunning = true ↔ ∃ phase, c = .running phase := by
  cases c <;> simp [isRunning]

theorem ServerSide.isRunning_iff {c : ServerSide} :
    c.isRunning = true ↔ ∃ phase, c = .running phase := by
  cases c <;> simp [isRunning]

/-- Reading a byte at least gives something. -/
theorem isEmpty_take {bytes : List UInt8} {n : Nat} (hpos : 0 < n) (hle : n ≤ bytes.length) :
    (bytes.take n).isEmpty = false := by
  rw [List.isEmpty_eq_false_iff, ← List.length_pos_iff, List.length_take]
  omega

theorem Exchange.serverReads_exchanged {n : Nat} (h : s.Allowed window (.serverReads n) = true) :
    Exchanged u s (.serverReads n) (s.serverReads u n) := by
  simp only [Allowed] at h
  split at h
  · rename_i hserver
    simp only [Bool.and_eq_true, decide_eq_true_eq] at h
    obtain ⟨hpos, hle⟩ := h
    have hpiece := isEmpty_take hpos hle
    cases hdecode : (s.decoder.push (s.toServer.take n)).decode maxFrameLength with
    | mk d decoded =>
      cases decoded with
      | more =>
        simp only [serverReads, hdecode]
        exact .gotMore hserver hpos hle hdecode
      | frame data =>
        have hframe := congrArg Prod.snd hdecode
        simp only [serverReads, hdecode, ofFrame]
        cases hmessage : FileGetMessage.decode data with
        | some message =>
          dsimp only
          rw [wake_message u (s := { s with toServer := s.toServer.drop n }) hserver]
          exact .received hserver hpos hle hframe hmessage
        | none =>
          dsimp only
          rw [wake_refused u (s := { s with toServer := s.toServer.drop n }) hserver]
          refine .refused hserver hpos hle ?_ ?_ ?_
          · intro data' h'
            rw [hframe] at h'
            obtain rfl := Decoded.frame.inj h'
            exact hmessage
          · rw [hframe]
            simp
          · simp [framedNext, hpiece, hdecode, ofFrame, hmessage]
      | tooBig =>
        simp only [serverReads, hdecode]
        rw [wake_refused u (s := { s with toServer := s.toServer.drop n }) hserver]
        refine .refused hserver hpos hle (by simp [hdecode]) (by simp [hdecode]) ?_
        simp [framedNext, hpiece, hdecode, ofFrame]
  · cases h

theorem Exchange.serverEof_exchanged (h : s.Allowed window .serverEof = true) :
    Exchanged u s .serverEof (s.serverEof u) := by
  simp only [Allowed] at h
  split at h
  · rename_i hserver
    simp only [Bool.and_eq_true, List.isEmpty_iff, Bool.not_eq_true'] at h
    obtain ⟨hempty, hgone⟩ := h
    unfold serverEof
    cases hframe : framedEof s.decoder with
    | error e =>
      simp only [ofFrame]
      rw [wake_refused u hserver]
      exact .eofRefused hserver hempty hgone (by rw [hframe]; rfl)
    | ok frame =>
      cases frame with
      | none =>
        simp only [ofFrame]
        rw [wake_refused u hserver]
        exact .eofRefused hserver hempty hgone (by rw [hframe]; rfl)
      | some data =>
        simp only [ofFrame]
        cases hmessage : FileGetMessage.decode data with
        | none =>
          dsimp only
          rw [wake_refused u hserver]
          exact .eofRefused hserver hempty hgone (by simp [hframe, ofFrame, hmessage])
        | some message =>
          dsimp only
          rw [wake_message u hserver]
          exact .eof hserver hempty hgone hframe hmessage
  · cases h

theorem Exchange.respond_exchanged {response : Option FileReader}
    (h : s.Allowed window (.respond response) = true) :
    Exchanged u s (.respond response) (s.respond u response) := by
  simp only [Allowed] at h
  split at h
  · rename_i hserver
    cases response with
    | some reader => simpa [respond, wake, hserver, FileGetInboundProtocol.resume] using
        (Exchanged.answered hserver : Exchanged u s (.respond (some reader)) _)
    | none => simpa [respond, wake, hserver, FileGetInboundProtocol.resume] using
        (Exchanged.canceled hserver : Exchanged u s (.respond none) _)
  · cases h

theorem Exchange.serverCopies_exchanged {n kept : Nat}
    (h : s.Allowed window (.serverCopies n kept) = true) :
    Exchanged u s (.serverCopies n kept) (s.serverCopies u n kept) := by
  cases hserver : s.server with
  | ended result => simp [Allowed, hserver] at h
  | dropped => simp [Allowed, hserver] at h
  | running phase =>
    cases phase with
    | receiving => simp [Allowed, hserver] at h
    | awaitingReader => simp [Allowed, hserver] at h
    | copying reader =>
      obtain ⟨reads⟩ := reader
      simp only [serverCopies, hserver]
      cases reads with
      | nil =>
        dsimp only
        rw [wake_copied u hserver]
        exact .finished hserver rfl
      | cons r rest =>
        cases r with
        | error e =>
          dsimp only
          rw [wake_uncopied u (s := s.keep kept) hserver]
          exact .unread hserver
        | data bytes =>
          dsimp only
          simp only [Allowed, hserver, Bool.or_eq_true, Bool.and_eq_true, decide_eq_true_eq] at h
          split
          · rename_i hempty
            rw [wake_copied u hserver]
            exact .finished hserver (by simp [contents, hempty])
          · rename_i hempty
            obtain h | h := h
            · exact absurd h hempty
            · exact .copied hserver h.1.1 h.1.2

theorem Exchange.serverFails_exchanged {e : IoError} {kept : Nat}
    (h : s.Allowed window (.serverFails e kept) = true) :
    Exchanged u s (.serverFails e kept) (s.serverFails u e kept) := by
  simp only [Allowed] at h
  split at h
  · rename_i hserver
    simp only [serverFails, hserver]
    rw [wake_refused u hserver]
    exact .receivingFailed hserver
  · rename_i reader hserver
    simp only [serverFails, hserver]
    rw [wake_uncopied u (s := s.keep kept) hserver]
    exact .copyingFailed hserver
  · cases h

/-- Every allowed step is one of these. -/
theorem Exchange.step_exchanged (h : s.Allowed window a = true) : Exchanged u s a (s.step u a) := by
  cases a with
  | clientWrites n => exact clientWrites_exchanged h
  | clientReads n => exact clientReads_exchanged h
  | clientEnds => exact clientEnds_exchanged h
  | clientFails e kept =>
    obtain ⟨phase, hclient⟩ := ClientSide.isRunning_iff.mp h
    exact .clientFailed hclient
  | clientDropped kept =>
    obtain ⟨phase, hclient⟩ := ClientSide.isRunning_iff.mp h
    exact .clientDropped hclient
  | serverReads n => exact serverReads_exchanged h
  | serverEof => exact serverEof_exchanged h
  | respond response => exact respond_exchanged h
  | serverCopies n kept => exact serverCopies_exchanged h
  | serverFails e kept => exact serverFails_exchanged h
  | serverDropped kept =>
    obtain ⟨phase, hserver⟩ := ServerSide.isRunning_iff.mp h
    exact .serverDropped hserver

/-! ## The request on its way -/

/-- The request as it is encoded. -/
def FileGetOutboundProtocol.encoded (p : FileGetOutboundProtocol) : List UInt8 :=
  FileGetMessage.encode ⟨p.fileName⟩

/-- The request fits into a frame, or nothing of it was ever sent. -/
def Exchange.Fits (p : FileGetOutboundProtocol) (s : Exchange) : Prop :=
  p.encoded.length ≤ maxFrameLength ∨
    (s.client.isRunning = false ∧ s.toServer = [] ∧ s.decoder = .new)

/-- What the client writes in a step. -/
def Exchange.clientWrote (s : Exchange) : ExchangeLabel → List UInt8
  | .clientWrites n =>
    match s.client with
    | .running (.sending todo) => todo.take n
    | _ => []
  | _ => []

/-- What the client has written, in a run. -/
def clientOutput : Trace Exchange ExchangeLabel → List UInt8
  | [] => []
  | t :: tr => clientOutput tr ++ t.pre.clientWrote t.label

theorem Exchange.clientWrote_sending {todo : List UInt8}
    (h : s.client = .running (.sending todo)) (n : Nat) :
    s.clientWrote (.clientWrites n) = todo.take n := by
  simp only [clientWrote, h]

theorem Exchange.clientWrote_other (h : ∀ n, a ≠ .clientWrites n) : s.clientWrote a = [] := by
  unfold clientWrote
  split
  · rename_i n
    exact absurd rfl (h n)
  · rfl

/-- Of the frame `rest` has not come to the server's socket yet, and
`written` is what the client has written: what it has not is at the end of
`rest`, and while it runs, all of `rest`. -/
structure Exchange.ToCome (p : FileGetOutboundProtocol) (written : List UInt8) (s : Exchange)
    (rest : List UInt8) : Prop where
  unwritten : ∃ unwritten, written ++ unwritten = frameOf p.encoded ∧ unwritten <:+ rest
  sending : ∀ todo, s.client = .running (.sending todo) →
    rest = todo ∧ written ++ todo = frameOf p.encoded
  copying : s.client = .running .copying → rest = []

/-- While the server receives, its decoder waits for what is in flight and
for what the client has still to write. What a client that stopped did not
write, or what was lost, never comes. -/
def Exchange.Incoming (p : FileGetOutboundProtocol) (written : List UInt8) (s : Exchange) : Prop :=
  ∃ rest, s.toServer ++ rest ≠ [] ∧ s.decoder.Awaits p.encoded (s.toServer ++ rest) ∧
    s.ToCome p written rest

/-- Nothing is to come of a frame that was written. -/
theorem Exchange.ToCome.all_written (h : s.ToCome p written []) :
    written = frameOf p.encoded := by
  obtain ⟨unwritten, hframe, hsuffix⟩ := h.unwritten
  rw [List.suffix_nil.mp hsuffix, List.append_nil] at hframe
  exact hframe

theorem FileGetOutboundProtocol.encoded_lt (h : p.encoded.length ≤ maxFrameLength) :
    p.encoded.length < 0x100000000 := by
  simp only [maxFrameLength] at h
  omega

theorem frameOf_ne_nil (data : List UInt8) : frameOf data ≠ [] := by
  simp [frameOf, frameHead]

theorem Exchange.start_client (h : p.encoded.length ≤ maxFrameLength) :
    (start p file₀).client = .running (.sending (frameOf p.encoded)) := by
  have hframe : encodeFrame (FileGetMessage.encode ⟨p.fileName⟩) = .ok (frameOf p.encoded) :=
    encodeFrame_eq h
  simp only [start, hframe]

theorem Exchange.start_client_tooLong (h : maxFrameLength < p.encoded.length) :
    (start p file₀).client = .ended (.error ⟨.invalidInput⟩) := by
  have hframe : encodeFrame (FileGetMessage.encode ⟨p.fileName⟩) = .error ⟨.invalidInput⟩ :=
    encodeFrame_tooLong h
  simp only [start, hframe]

theorem Exchange.start_fits : (start p file₀).Fits p := by
  by_cases h : p.encoded.length ≤ maxFrameLength
  · exact .inl h
  · refine .inr ⟨?_, rfl, rfl⟩
    rw [start_client_tooLong (Nat.not_le.mp h)]
    rfl

theorem Exchange.start_incoming : (start p file₀).Incoming p [] := by
  refine ⟨frameOf p.encoded, frameOf_ne_nil _, FrameDecoder.new_awaits _, ?_⟩
  by_cases h : p.encoded.length ≤ maxFrameLength
  · refine ⟨⟨_, rfl, List.suffix_rfl⟩, ?_, ?_⟩
    · intro todo htodo
      rw [start_client h] at htodo
      cases htodo
      exact ⟨rfl, rfl⟩
    · intro hcopying
      rw [start_client h] at hcopying
      cases hcopying
  · have hclient : (start p file₀).client = .ended (.error ⟨.invalidInput⟩) :=
      start_client_tooLong (Nat.not_le.mp h)
    refine ⟨⟨_, rfl, List.suffix_rfl⟩, ?_, ?_⟩
    · intro todo htodo
      rw [hclient] at htodo
      cases htodo
    · intro hcopying
      rw [hclient] at hcopying
      cases hcopying

/-- Bytes of a frame that was read in part: those in flight split into the
ones read now and the others. -/
theorem Exchange.Incoming.read {n : Nat} (h : s.Incoming p written) :
    ∃ rest, (s.decoder.push (s.toServer.take n)).Awaits p.encoded (s.toServer.drop n ++ rest) ∧
      s.ToCome p written rest := by
  obtain ⟨rest, -, hawaits, hcome⟩ := h
  refine ⟨rest, ?_, hcome⟩
  apply FrameDecoder.push_awaits
  rw [← List.append_assoc, List.take_append_drop]
  exact hawaits

/-- A decoder that wants more has not all of the frame. -/
theorem Exchange.Incoming.more {n : Nat} {d : FrameDecoder} (h : s.Incoming p written)
    (hfit : p.encoded.length ≤ maxFrameLength)
    (hmore : (s.decoder.push (s.toServer.take n)).decode maxFrameLength = (d, .more)) :
    { s with toServer := s.toServer.drop n, decoder := d }.Incoming p written := by
  obtain ⟨rest, hawaits, hcome⟩ := h.read (n := n)
  have hlen := FileGetOutboundProtocol.encoded_lt hfit
  have hne : s.toServer.drop n ++ rest ≠ [] := by
    intro hnil
    rw [hnil] at hawaits
    have hframe := FrameDecoder.decode_complete hawaits hfit hlen
    rw [hmore] at hframe
    cases hframe
  obtain ⟨d', hd', hawaits'⟩ := FrameDecoder.decode_awaits hawaits hfit hlen hne
  rw [hmore] at hd'
  obtain rfl := (Prod.mk.inj hd').1
  exact ⟨rest, hne, hawaits', hcome.unwritten, hcome.sending, hcome.copying⟩

/-- Else it gives the frame of the request, and the client has written all
of it. -/
theorem Exchange.Incoming.frame {n : Nat} (h : s.Incoming p written)
    (hfit : p.encoded.length ≤ maxFrameLength)
    (hdone : ((s.decoder.push (s.toServer.take n)).decode maxFrameLength).2 ≠ .more) :
    ((s.decoder.push (s.toServer.take n)).decode maxFrameLength).2 = .frame p.encoded ∧
      written = frameOf p.encoded ∧ ∀ todo, s.client = .running (.sending todo) → todo = [] := by
  obtain ⟨rest, hawaits, hcome⟩ := h.read (n := n)
  have hlen := FileGetOutboundProtocol.encoded_lt hfit
  by_cases hnil : s.toServer.drop n ++ rest = []
  · rw [hnil] at hawaits
    obtain rfl := (List.append_eq_nil_iff.mp hnil).2
    refine ⟨FrameDecoder.decode_complete hawaits hfit hlen, hcome.all_written, ?_⟩
    intro todo htodo
    exact (hcome.sending todo htodo).1.symm
  · obtain ⟨d', hd', -⟩ := FrameDecoder.decode_awaits hawaits hfit hlen hnil
    exact absurd (congrArg Prod.snd hd') hdone

/-- At the end of the stream there is no frame. -/
theorem Exchange.Incoming.eof (h : s.Incoming p written) (hfits : s.Fits p)
    (hempty : s.toServer = []) (data : List UInt8) : framedEof s.decoder ≠ .ok (some data) := by
  obtain hfit | ⟨-, -, hnew⟩ := hfits
  · obtain ⟨rest, hne, hawaits, -⟩ := h
    rw [hempty, List.nil_append] at hne hawaits
    obtain ⟨d', hd', -⟩ := FrameDecoder.decode_awaits hawaits hfit
      (FileGetOutboundProtocol.encoded_lt hfit) hne
    simp only [framedEof, hd']
    split <;> simp
  · rw [hnew]
    simp [framedEof, FrameDecoder.decode, FrameDecoder.new]

/-- Bytes arrive only of a request that fits. -/
theorem Exchange.Fits.of_inFlight (h : s.Fits p) {n : Nat} (hpos : 0 < n)
    (hle : n ≤ s.toServer.length) : p.encoded.length ≤ maxFrameLength := by
  obtain h | ⟨-, hempty, -⟩ := h
  · exact h
  · rw [hempty] at hle
    exact absurd (Nat.lt_of_lt_of_le hpos hle) (Nat.lt_irrefl 0)

theorem Exchange.Fits.of_running (h : s.Fits p) {phase : OutboundPhase}
    (hclient : s.client = .running phase) : p.encoded.length ≤ maxFrameLength := by
  obtain h | ⟨hnot, -, -⟩ := h
  · exact h
  · rw [hclient] at hnot
    cases hnot

theorem Exchanged.fits (h : Exchanged u s a s') (hfits : s.Fits p) : s'.Fits p := by
  by_cases hfit : p.encoded.length ≤ maxFrameLength
  · exact .inl hfit
  · have hclient : ∀ phase, s.client ≠ .running phase := fun phase hphase =>
      hfit (hfits.of_running hphase)
    have hread : ∀ {n}, 0 < n → ¬ n ≤ s.toServer.length := fun hpos hle =>
      hfit (hfits.of_inFlight hpos hle)
    obtain hfit' | hnothing := hfits
    · exact absurd hfit' hfit
    · right
      cases h with
      | wrote hrunning | sent hrunning => exact absurd hrunning (hclient _)
      | read hrunning | unwritten hrunning | sawEnd hrunning => exact absurd hrunning (hclient _)
      | clientFailed hrunning | clientDropped hrunning => exact absurd hrunning (hclient _)
      | gotMore _ hpos hle | received _ hpos hle => exact absurd hle (hread hpos)
      | refused _ hpos hle => exact absurd hle (hread hpos)
      | _ => exact hnothing

/-- What a step of the client leaves of the frame. -/
theorem Exchanged.incoming (h : Exchanged u s a s') (hfits : s.Fits p)
    (hi : s.server = .running .receiving → s.Incoming p written)
    (hserver : s'.server = .running .receiving) :
    s'.Incoming p (written ++ s.clientWrote a) := by
  cases h with
  | @wrote todo n hclient hpos hlt =>
    obtain ⟨rest, hne, hawaits, hcome⟩ := hi hserver
    obtain ⟨rfl, hframe⟩ := hcome.sending todo hclient
    rw [Exchange.clientWrote_sending hclient]
    have hframe' : written ++ rest.take n ++ rest.drop n = frameOf p.encoded := by
      rw [List.append_assoc, List.take_append_drop, hframe]
    refine ⟨rest.drop n, ?_, ?_, ⟨_, hframe', List.suffix_rfl⟩, ?_, ?_⟩
    · rw [List.append_assoc, List.take_append_drop]
      exact hne
    · rw [List.append_assoc, List.take_append_drop]
      exact hawaits
    · intro todo' htodo'
      cases htodo'
      exact ⟨rfl, hframe'⟩
    · intro hcopying
      cases hcopying
  | @sent todo n hclient hpos hn =>
    obtain ⟨rest, hne, hawaits, hcome⟩ := hi hserver
    obtain ⟨rfl, hframe⟩ := hcome.sending todo hclient
    rw [Exchange.clientWrote_sending hclient, hn, List.take_length, hframe]
    refine ⟨[], ?_, ?_, ⟨[], List.append_nil _, List.suffix_rfl⟩, ?_, ?_⟩
    · simpa using hne
    · simpa using hawaits
    · intro todo' htodo'
      cases htodo'
    · intro _
      rfl
  | read hclient =>
    obtain ⟨rest, hne, hawaits, hcome⟩ := hi hserver
    rw [Exchange.clientWrote_other (by simp), List.append_nil]
    exact ⟨rest, hne, hawaits, hcome.unwritten, hcome.sending, hcome.copying⟩
  | unwritten hclient | sawEnd hclient =>
    obtain ⟨rest, hne, hawaits, hcome⟩ := hi hserver
    rw [Exchange.clientWrote_other (by simp), List.append_nil]
    refine ⟨rest, hne, hawaits, hcome.unwritten, ?_, ?_⟩
    · intro todo htodo
      cases htodo
    · intro hcopying
      cases hcopying
  | @clientFailed phase e kept hclient | @clientDropped phase kept hclient =>
    -- what is lost is still what the decoder waits for
    obtain ⟨rest, hne, hawaits, hcome⟩ := hi hserver
    obtain ⟨unwritten, hframe, hsuffix⟩ := hcome.unwritten
    rw [Exchange.clientWrote_other (by simp), List.append_nil]
    refine ⟨s.toServer.drop kept ++ rest, ?_, ?_,
      ⟨unwritten, hframe, hsuffix.trans (List.suffix_append _ _)⟩, ?_, ?_⟩
    · rw [← List.append_assoc, List.take_append_drop]
      exact hne
    · rw [← List.append_assoc, List.take_append_drop]
      exact hawaits
    · intro todo htodo
      cases htodo
    · intro hcopying
      cases hcopying
  | gotMore hreceiving hpos hle hmore =>
    rw [Exchange.clientWrote_other (by simp), List.append_nil]
    exact (hi hreceiving).more (hfits.of_inFlight hpos hle) hmore
  | received | refused | eof | eofRefused | answered | canceled | copied | finished | unread |
    receivingFailed | copyingFailed | serverDropped => cases hserver

end FileSharing
