/-
FileSharing.FileGet.ExchangeTheorems — the transfer of a file over one
substream, in every interleaving of its two sides.

Safety: the request announced is the one that was sent, and the file has
only bytes of the reader, in their order. Refinement: each side ends as its
upgrade does when it is run through, so that what is proved of those holds
of the interleaved ones. Progress: the sides never wait for each other, and
no run is longer than the bytes it has to move. Together: an exchange that
nobody disturbs delivers the whole file.
-/
import FileSharing.FileGet.ExchangeSides

namespace FileSharing

open Lib

variable {p : FileGetOutboundProtocol} {u : FileGetInboundProtocol} {window : Nat} {file₀ : Sink}
  {s s' : Exchange} {a : ExchangeLabel} {written : List UInt8}
  {tr : Trace Exchange ExchangeLabel}

/-! ## Safety -/

/-- **The server announces the request of the client and no other**, and
announces it when all of it is written, whatever becomes of the client then. -/
theorem exchange_announces_request (h : (exchangeMachine p u window file₀).Run tr s) :
    s.announced = none ∧ s.reader = none ∨
      s.announced = some (u.requestId, ⟨p.fileName⟩) ∧
        clientOutput tr = frameOf p.encoded ∧ ∀ todo, s.client ≠ .running (.sending todo) := by
  have hs := run_exchanging h
  obtain hnone | hsome := hs.serving.announced_cases
  · exact .inl hnone
  · refine .inr ⟨hsome, hs.announced (by simp [hsome]), ?_⟩
    intro todo htodo
    rw [(hs.unsent todo htodo).2] at hsome
    cases hsome

/-- A request of the name `a`. -/
def requestA : FileGetOutboundProtocol := ⟨.nth 0, "a", ⟨[]⟩⟩

/-- The upgrade that serves it. -/
def serveA : FileGetInboundProtocol := ⟨⟨0⟩, ⟨0⟩, .nth 0⟩

/-- The request in two pieces, the file in two others. -/
theorem exists_calm_exchange : ∃ tr s, (exchangeMachine requestA serveA 4 ⟨[], []⟩).Run tr s ∧
    (tr.all (·.label.isCalm) && decide (s.BothSucceeded ∧ s.chunks = [[1], [2, 3]])) = true :=
  Machine.exists_run_of_labels (M := exchangeMachine requestA serveA 4 ⟨[], []⟩)
    [.clientWrites 4, .serverReads 4, .clientWrites 3, .serverReads 3,
      .respond (some ⟨[.data [1, 2, 3]]⟩), .serverCopies 2 0, .clientReads 1, .serverCopies 1 0,
      .clientReads 2, .serverCopies 0 0, .clientEnds]
    (fun tr s => tr.all (·.label.isCalm) && decide (s.BothSucceeded ∧ s.chunks = [[1], [2, 3]]))
    (by decide +kernel) (by decide +kernel)

theorem exchange_announces_request_calm : ∃ tr s,
    (exchangeMachine requestA serveA 4 ⟨[], []⟩).Run tr s ∧ s.BothSucceeded ∧
      (s.announced = none ∧ s.reader = none ∨ s.announced = some (.nth 0, ⟨"a"⟩) ∧
        clientOutput tr = frameOf requestA.encoded ∧
          ∀ todo, s.client ≠ .running (.sending todo)) := by
  obtain ⟨tr, s, hrun, hP⟩ := exists_calm_exchange
  simp only [Bool.and_eq_true, decide_eq_true_eq] at hP
  exact ⟨tr, s, hrun, hP.2.1, exchange_announces_request hrun⟩

theorem Exchanging.chunks_prefix (hs : Exchanging p u file₀ written s) :
    s.chunks.flatten <+: yieldedBy s.reader :=
  (List.prefix_append _ _).trans hs.serving.prefix_yielded

/-- The file is complete when both sides succeeded. -/
theorem Exchanging.delivered (hs : Exchanging p u file₀ written s) (hboth : s.BothSucceeded) :
    ∃ reader, s.reader = some reader ∧ contents reader.reads = some s.chunks.flatten ∧
      s.file.written = file₀.written ++ s.chunks.flatten := by
  obtain ⟨hclient, hserver⟩ := hboth
  obtain ⟨-, reader, hreader, hcontents⟩ := hs.serving.of_finished hserver
  rw [Exchange.serverOut, (hs.ended hclient).2, List.append_nil] at hcontents
  exact ⟨reader, hreader, hcontents, (hs.fetching.of_ended hclient).all rfl⟩

/-- **The file has only bytes of the reader, from the first on**, in every
state; and all of them when both sides succeeded. -/
theorem exchange_delivers_prefix (h : (exchangeMachine p u window file₀).Run tr s) :
    ∃ bytes, s.file.written = file₀.written ++ bytes ∧ bytes <+: yieldedBy s.reader ∧
      (s.BothSucceeded → ∃ reader, s.reader = some reader ∧
        contents reader.reads = some bytes) := by
  have hs := run_exchanging h
  by_cases hboth : s.BothSucceeded
  · obtain ⟨reader, hreader, hcontents, hwritten⟩ := hs.delivered hboth
    exact ⟨_, hwritten, hs.chunks_prefix, fun _ => ⟨reader, hreader, hcontents⟩⟩
  · obtain ⟨bytes, hprefix, hwritten⟩ := hs.fetching.takenIn
    exact ⟨bytes, hwritten, hprefix.trans hs.chunks_prefix, fun hyes => absurd hyes hboth⟩

theorem exchange_delivers_prefix_calm : ∃ tr s bytes reader,
    (exchangeMachine requestA serveA 4 ⟨[], []⟩).Run tr s ∧ s.file.written = bytes ∧
      s.reader = some reader ∧ contents reader.reads = some bytes := by
  obtain ⟨tr, s, hrun, hP⟩ := exists_calm_exchange
  simp only [Bool.and_eq_true, decide_eq_true_eq] at hP
  obtain ⟨bytes, hwritten, -, hwhole⟩ := exchange_delivers_prefix hrun
  obtain ⟨reader, hreader, hcontents⟩ := hwhole hP.2.1
  exact ⟨tr, s, bytes, reader, hrun, hwritten, hreader, hcontents⟩

/-! ## What the server has read -/

/-- What the server's socket gives it to read in a step. -/
def Exchange.serverRead (s : Exchange) : ExchangeLabel → List ReadResult
  | .serverReads n => [.data (s.toServer.take n)]
  | .serverFails e _ =>
    match s.server with
    | .running .receiving => [.error e]
    | _ => []
  | _ => []

/-- What it has given in a run, the first result first. -/
def serverInput : Trace Exchange ExchangeLabel → List ReadResult
  | [] => []
  | t :: tr => serverInput tr ++ t.pre.serverRead t.label

theorem tokioReceiveMessage_eq (reads : List ReadResult) :
    tokioReceiveMessage reads = Exchange.ofFrame (framedNext .new reads) := by
  unfold tokioReceiveMessage receiveFramed Exchange.ofFrame
  cases framedNext .new reads with
  | error e => rfl
  | ok frame =>
    cases frame with
    | none => rfl
    | some data =>
      dsimp only
      cases FileGetMessage.decode data <;> rfl

/-- `receive_message` on these reads does what the server did: it goes on
where the decoder is, or it has returned. -/
structure Exchange.HasRead (reads : List ReadResult) (s : Exchange) : Prop where
  receiving : s.server = .running .receiving →
    ∀ rest, framedNext .new (reads ++ rest) = framedNext s.decoder rest
  received : ∀ request, s.announced = some request → tokioReceiveMessage reads = .ok request.2
  refused : ∀ e, s.announced = none → s.server = .ended (.returned (.error e)) →
    tokioReceiveMessage reads = .error e

/-- What `receive_message` makes of one more read. -/
theorem Exchange.HasRead.next {reads : List ReadResult} (h : s.HasRead reads)
    (hserver : s.server = .running .receiving) (more : List ReadResult) :
    tokioReceiveMessage (reads ++ more) = ofFrame (framedNext s.decoder more) := by
  rw [tokioReceiveMessage_eq, h.receiving hserver more]

/-- A request that is announced has been received. -/
theorem Exchange.HasRead.of_received {reads : List ReadResult} {message : FileGetMessage}
    (hserver : s.server = .running .awaitingReader)
    (hann : s.announced = some (u.requestId, message))
    (h : tokioReceiveMessage reads = .ok message) : s.HasRead reads where
  receiving := by
    intro hreceiving
    rw [hserver] at hreceiving
    cases hreceiving
  received := by
    intro request hrequest
    obtain rfl := Option.some.inj (hann.symm.trans hrequest)
    exact h
  refused := by
    intro e hnone
    rw [hann] at hnone
    cases hnone

/-- A request that is refused was not received. -/
theorem Exchange.HasRead.of_refused {reads : List ReadResult} {e : IoError}
    (hserver : s.server = .ended (.returned (.error e))) (hann : s.announced = none)
    (h : tokioReceiveMessage reads = .error e) : s.HasRead reads where
  receiving := by
    intro hreceiving
    rw [hserver] at hreceiving
    cases hreceiving
  received := by
    intro request hrequest
    rw [hann] at hrequest
    cases hrequest
  refused := by
    intro e' _ hended
    rw [hserver] at hended
    cases hended
    exact h

/-- A step that reads nothing and refuses nothing. -/
theorem Exchange.HasRead.past {reads : List ReadResult} (h : s.HasRead reads)
    (hsame : s'.announced = s.announced) (hserver : s'.server ≠ .running .receiving)
    (hrefused : ∀ e, s.announced = none → s'.server ≠ .ended (.returned (.error e))) :
    s'.HasRead reads where
  receiving := fun hreceiving => absurd hreceiving hserver
  received := by
    intro request hrequest
    exact h.received request (hsame.symm.trans hrequest)
  refused := fun e hnone hended => absurd hended (hrefused e (hsame.symm.trans hnone))

theorem Exchange.HasRead.announced {reads : List ReadResult} {request : RequestId × FileGetMessage}
    (h : s.HasRead reads) (hann : s.announced = some request) (hsame : s'.announced = s.announced)
    (hserver : s'.server ≠ .running .receiving) : s'.HasRead reads := by
  refine h.past hsame hserver ?_
  intro e hnone
  rw [hann] at hnone
  cases hnone

theorem Exchange.HasRead.step {reads : List ReadResult} (h : s.HasRead reads)
    (hs : Exchanging p u file₀ written s) (hstep : Exchanged u s a s') :
    s'.HasRead (reads ++ s.serverRead a) := by
  cases hstep with
  | wrote | sent | read | unwritten | sawEnd | clientFailed | clientDropped =>
    simp only [serverRead, List.append_nil]
    exact ⟨h.receiving, h.received, h.refused⟩
  | @gotMore n d hserver hpos hle hmore =>
    have hpiece := isEmpty_take hpos hle
    have hann := (hs.serving.of_receiving hserver).2.1
    refine ⟨?_, ?_, ?_⟩
    · intro _ rest
      rw [serverRead, List.append_assoc, h.receiving hserver]
      simp [framedNext, hpiece, hmore]
    · intro request hrequest
      rw [show s.announced = some request from hrequest] at hann
      cases hann
    · intro e _ hended
      rw [show s.server = _ from hended] at hserver
      cases hserver
  | @received n data message hserver hpos hle hframe hmessage =>
    have hpiece := isEmpty_take hpos hle
    refine .of_received (u := u) rfl rfl ?_
    rw [serverRead, h.next hserver]
    rcases hdecode : (s.decoder.push (s.toServer.take n)).decode maxFrameLength with ⟨d, decoded⟩
    rw [hdecode] at hframe
    dsimp only at hframe
    simp [framedNext, hpiece, hdecode, hframe, ofFrame, hmessage]
  | refused hserver hpos hle _ _ herror =>
    refine .of_refused rfl (hs.serving.of_receiving hserver).2.1 ?_
    rw [serverRead, h.next hserver]
    exact herror
  | @eof message data hserver hempty hgone hframe hmessage =>
    have hnext := h.next hserver []
    refine .of_received (u := u) rfl rfl (hnext.trans ?_)
    simp [framedNext, hframe, ofFrame, hmessage]
  | eofRefused hserver hempty hgone herror =>
    have hnext := h.next hserver []
    exact .of_refused rfl (hs.serving.of_receiving hserver).2.1 (hnext.trans herror)
  | @receivingFailed e kept hserver =>
    have hread : s.serverRead (.serverFails e kept) = [.error e] := by
      simp only [serverRead, hserver]
    rw [hread]
    exact .of_refused rfl (hs.serving.of_receiving hserver).2.1 (h.next hserver [.error e])
  | answered hserver | canceled hserver =>
    simp only [serverRead, List.append_nil]
    exact h.announced (hs.serving.of_waiting hserver).2.1 rfl (by simp)
  | copied hserver | finished hserver | unread hserver =>
    simp only [serverRead, List.append_nil]
    exact h.announced (hs.serving.of_copying hserver).1 rfl (by simp)
  | copyingFailed hserver =>
    simp only [serverRead, hserver, List.append_nil]
    exact h.announced (hs.serving.of_copying hserver).1 rfl (by simp)
  | serverDropped hserver =>
    simp only [serverRead, List.append_nil]
    exact h.past rfl (by simp) (by simp)

theorem run_hasRead (h : (exchangeMachine p u window file₀).Run tr s) :
    s.HasRead (serverInput tr) := by
  induction tr generalizing s with
  | nil =>
    cases h
    refine ⟨fun _ _ => rfl, ?_, ?_⟩
    · intro request hrequest
      cases hrequest
    · intro e _ hended
      cases hended
  | cons t tr ih =>
    have hstep := run_exchanged h
    obtain ⟨hrun, -, -, rfl⟩ := h.tail
    exact (ih hrun).step (run_exchanging hrun) hstep

/-! ## The upgrades, run through -/

/-- The socket of the server has failed while it copied. -/
def SocketFailed (tr : Trace Exchange ExchangeLabel) (e : IoError) : Prop :=
  ∃ t ∈ tr, ∃ reader kept, t.pre.server = .running (.copying reader) ∧ t.label = .serverFails e kept

/-- A copy that ended with an error had it from its reader or its socket. -/
theorem run_uncopied (h : (exchangeMachine p u window file₀).Run tr s) {e : IoError}
    {reader : FileReader} (hserver : s.server = .ended (.returned (.error e)))
    (hreader : s.reader = some reader) : readError reader.reads = some e ∨ SocketFailed tr e := by
  induction tr generalizing s with
  | nil =>
    cases h
    cases hreader
  | cons t tr ih =>
    have hstep := run_exchanged h
    obtain ⟨hrun, -, -, rfl⟩ := h.tail
    have hbefore := ih hrun
    have hserving := (run_exchanging hrun).serving
    obtain ⟨s, a, s'⟩ := t
    dsimp only at hstep hserver hreader hbefore hserving
    have hkept : s.server = .ended (.returned (.error e)) → s.reader = some reader →
        readError reader.reads = some e ∨ SocketFailed (⟨s, a, s'⟩ :: tr) e := by
      intro hserver hreader
      refine (hbefore hserver hreader).imp_right fun ⟨t, ht, hfailed⟩ => ?_
      exact ⟨t, List.mem_cons_of_mem _ ht, hfailed⟩
    cases hstep with
    | wrote | sent | read | unwritten | sawEnd | clientFailed | clientDropped | gotMore =>
      exact hkept hserver hreader
    | received | eof | answered | canceled | copied | finished | serverDropped => cases hserver
    | refused hreceiving | eofRefused hreceiving | receivingFailed hreceiving =>
      -- nobody was asked for a reader yet
      rw [(hserving.of_receiving hreceiving).2.2] at hreader
      cases hreader
    | unread hcopying =>
      obtain ⟨-, reader', hreader', -, -, herror⟩ := hserving.of_copying hcopying
      rw [hreader'] at hreader
      cases hreader
      cases hserver
      exact .inl herror
    | copyingFailed hcopying =>
      cases hserver
      exact .inr ⟨_, List.mem_cons_self, _, _, hcopying, rfl⟩

/-- A run of the serving side that is over, as one call of its upgrade: what
it received is what `receive_message` makes of its reads, what it was given is
what the exchange says, and it ends as the call does, unless it was given up or
its socket failed under the copy. -/
structure RunsAs (p : FileGetOutboundProtocol) (u : FileGetInboundProtocol)
    (tr : Trace Exchange ExchangeLabel) (s : Exchange) (v : ServingRun) : Prop where
  upgrade : v.upgrade = u
  received : (s.announced = none ∧ ∃ e, v.received = .error e) ∨
    (s.announced.isSome = true ∧ v.received = .ok ⟨p.fileName⟩)
  read : s.announced.isSome = true ∨ v.dropped = false →
    v.received = tokioReceiveMessage (serverInput tr)
  response : v.response = s.reader
  arrived : v.arrived = s.serverOut
  ends : ∀ result, s.server = .ended result → v.dropped = false →
    (u.upgradeInbound v.received v.response ⟨[], []⟩).2 = (s.announced, result)
  dropped : v.dropped = true → s.server = .dropped ∨
    ∃ e, s.server = .ended (.returned (.error e)) ∧ SocketFailed tr e

/-- A run that ended by itself. `flushed` bytes of it have arrived. -/
theorem RunsAs.of_ended {received : Except IoError FileGetMessage} {result : FutureEnd}
    (flushed : Nat) (hserver : s.server = .ended result)
    (hreceived : (s.announced = none ∧ ∃ e, received = .error e) ∨
      (s.announced.isSome = true ∧ received = .ok ⟨p.fileName⟩))
    (hread : tokioReceiveMessage (serverInput tr) = received)
    (harrived : ServingRun.arrived ⟨u, received, s.reader, false, flushed⟩ = s.serverOut)
    (hend : (u.upgradeInbound received s.reader ⟨[], []⟩).2 = (s.announced, result)) :
    RunsAs p u tr s ⟨u, received, s.reader, false, flushed⟩ where
  upgrade := rfl
  received := hreceived
  read := fun _ => hread.symm
  response := rfl
  arrived := harrived
  ends := by
    intro result' hresult' _
    rw [hserver] at hresult'
    cases hresult'
    exact hend
  dropped := by
    intro hdropped
    cases hdropped

/-- A run that was given up, or whose socket failed. -/
theorem RunsAs.of_dropped {received : Except IoError FileGetMessage}
    (hreceived : (s.announced = none ∧ ∃ e, received = .error e) ∨
      (s.announced.isSome = true ∧ received = .ok ⟨p.fileName⟩))
    (hread : s.announced ≠ none → tokioReceiveMessage (serverInput tr) = received)
    (harrived : ServingRun.arrived ⟨u, received, s.reader, true, s.serverOut.length⟩ = s.serverOut)
    (hserver : s.server = .dropped ∨
      ∃ e, s.server = .ended (.returned (.error e)) ∧ SocketFailed tr e) :
    RunsAs p u tr s ⟨u, received, s.reader, true, s.serverOut.length⟩ where
  upgrade := rfl
  received := hreceived
  read := by
    rintro (hsome | hnot)
    · exact (hread (Option.isSome_iff_ne_none.mp hsome)).symm
    · cases hnot
  response := rfl
  arrived := harrived
  ends := by
    intro result _ hnot
    cases hnot
  dropped := fun _ => hserver

/-- The bytes of a reader of which some went out before the upgrade was
given up, or the reader failed. -/
theorem ServingRun.arrived_of_prefix {message : FileGetMessage} {reader : FileReader}
    {out : List UInt8} {dropped : Bool} (h : out <+: yielded reader.reads)
    (hdropped : dropped = false → ∃ e, readError reader.reads = some e) :
    ServingRun.arrived ⟨u, .ok message, some reader, dropped, out.length⟩ = out := by
  obtain ⟨hwritten, -⟩ := tokioCopyStream_sound reader.reads []
  have htake := (List.prefix_iff_eq_take.mp h).symm
  rw [← List.nil_append (yielded reader.reads), ← hwritten] at htake
  simp only [arrived, FileGetInboundProtocol.upgradeInbound]
  cases dropped with
  | true => rcases hcopy : tokioCopyStream reader.reads ⟨[], []⟩ with ⟨socket, _ | _⟩ <;>
      simpa [hcopy] using htake
  | false =>
    obtain ⟨e, he⟩ := hdropped rfl
    have hcopied := tokioCopyStream_readError he []
    rcases hcopy : tokioCopyStream reader.reads ⟨[], []⟩ with ⟨socket, _ | _⟩
    · simpa [hcopy] using htake
    · rw [hcopy] at hcopied
      cases hcopied

/-- What went out of a request that was given up. -/
theorem ServingRun.arrived_of_dropped {message : FileGetMessage} {response : Option FileReader}
    {out : List UInt8} (h : out <+: yieldedBy response) :
    ServingRun.arrived ⟨u, .ok message, response, true, out.length⟩ = out := by
  cases response with
  | some reader => exact arrived_of_prefix h (by simp)
  | none =>
    obtain rfl := List.prefix_nil.mp h
    rfl

theorem exists_runsAs (h : (exchangeMachine p u window file₀).Run tr s)
    (hover : s.server.isRunning = false) : ∃ v, RunsAs p u tr s v := by
  have hserving := (run_exchanging h).serving
  have hprefix := hserving.prefix_yielded
  have hread := run_hasRead h
  have huncopied := @run_uncopied p u window file₀ s tr h
  unfold Exchange.Serving at hserving
  generalize hserver : s.server = server at hserving hover
  generalize hann : s.announced = announced at hserving
  generalize hres : s.reader = response at hserving hprefix
  cases hserving with
  | receiving | waiting | copying => cases hover
  | @refused e hout =>
    refine ⟨_, .of_ended 0 hserver (.inl ⟨hann, e, rfl⟩) (hread.refused e hann hserver)
      hout.symm ?_⟩
    rw [hann]
    rfl
  | panicked hout =>
    refine ⟨_, .of_ended 0 hserver (.inr ⟨by rw [hann]; rfl, rfl⟩) (hread.received _ hann) ?_ ?_⟩
    · rw [hres]
      exact hout.symm
    · rw [hann, hres]
      rfl
  | @finished reader hcontents =>
    refine ⟨_, .of_ended 0 hserver (.inr ⟨by rw [hann]; rfl, rfl⟩) (hread.received _ hann) ?_ ?_⟩
    · rw [hres]
      exact ServingRun.arrived_of_served ⟨u, .ok ⟨p.fileName⟩, some reader, false, 0⟩ hcontents
    · have hok := (tokioCopyStream_sound reader.reads []).2.mpr (by rw [hcontents]; rfl)
      rw [hann, hres]
      rcases hcopy : tokioCopyStream reader.reads ⟨[], []⟩ with ⟨socket, _ | _⟩
      · rw [hcopy] at hok
        cases hok
      · simp [FileGetInboundProtocol.upgradeInbound, hcopy]
  | @failed reader e =>
    obtain hfailed | hsocket := huncopied hserver hres
    · -- the reader failed, and the call ends with its error
      have hcopied := tokioCopyStream_readError hfailed []
      refine ⟨_, .of_ended s.serverOut.length hserver
        (.inr ⟨by rw [hann]; rfl, rfl⟩) (hread.received _ hann) ?_ ?_⟩
      · rw [hres]
        exact ServingRun.arrived_of_prefix hprefix fun _ => ⟨e, hfailed⟩
      · rw [hann, hres]
        rcases hcopy : tokioCopyStream reader.reads ⟨[], []⟩ with ⟨socket, _ | _⟩
        · rw [hcopy] at hcopied
          cases hcopied
          simp [FileGetInboundProtocol.upgradeInbound, hcopy]
        · rw [hcopy] at hcopied
          cases hcopied
    · refine ⟨_, .of_dropped (.inr ⟨by rw [hann]; rfl, rfl⟩) (fun _ => hread.received _ hann) ?_
        (.inr ⟨e, hserver, hsocket⟩)⟩
      rw [hres]
      exact ServingRun.arrived_of_dropped hprefix
  | dropped hannounced =>
    obtain ⟨hnone, hno⟩ | hsome := hannounced
    · rw [hno] at hprefix
      refine ⟨_, .of_dropped (.inl ⟨hann.trans hnone, ⟨.other 0⟩, rfl⟩) ?_ ?_ (.inl hserver)⟩
      · intro hsome
        exact absurd (hann.trans hnone) hsome
      rw [hres, hno, List.prefix_nil.mp hprefix]
      rfl
    · refine ⟨_, .of_dropped (.inr ⟨by rw [hann, hsome]; rfl, rfl⟩)
        (fun _ => hread.received _ (hann.trans hsome)) ?_ (.inl hserver)⟩
      rw [hres]
      exact ServingRun.arrived_of_dropped hprefix

/-- **Every interleaving is the upgrades run through.** The requesting side
ends as `upgradeOutbound` does on the pieces it read, and the serving side, once
it is over, as `upgradeInbound` does with what it received and was given, unless
it was given up or its socket failed. The pieces put together are what was
written and arrived; all of it, if the client succeeded. -/
theorem exchange_runs_upgrades (h : (exchangeMachine p u window file₀).Run tr s) :
    (∀ c ∈ s.chunks, c ≠ []) ∧
      (∀ result, s.client = .ended result → OutboundRan p file₀ s.chunks s.file result) ∧
      (s.server.isRunning = false → ∃ v, RunsAs p u tr s v ∧
        (s.client = .ended (.ok ()) → s.chunks.flatten = v.arrived)) := by
  have hs := run_exchanging h
  refine ⟨hs.pieces, ?_, ?_⟩
  · intro result hclient
    exact hs.fetching.of_ended hclient
  · intro hover
    obtain ⟨v, hv⟩ := exists_runsAs h hover
    refine ⟨v, hv, ?_⟩
    intro hclient
    rw [hv.arrived, Exchange.serverOut, (hs.ended hclient).2, List.append_nil]

theorem exchange_runs_upgrades_calm : ∃ tr s v,
    (exchangeMachine requestA serveA 4 ⟨[], []⟩).Run tr s ∧ RunsAs requestA serveA tr s v ∧
      v.arrived = [1, 2, 3] ∧ OutboundRan requestA ⟨[], []⟩ [[1], [2, 3]] s.file (.ok ()) := by
  obtain ⟨tr, s, hrun, hP⟩ := exists_calm_exchange
  simp only [Bool.and_eq_true, decide_eq_true_eq] at hP
  obtain ⟨-, ⟨hclient, hserver⟩, hchunks⟩ := hP
  obtain ⟨-, hran, hover⟩ := exchange_runs_upgrades hrun
  obtain ⟨v, hv, harrived⟩ := hover (by rw [hserver]; rfl)
  refine ⟨tr, s, v, hrun, hv, ?_, ?_⟩
  · rw [← harrived hclient, hchunks]
    rfl
  · rw [← hchunks]
    exact hran _ hclient

/-! ## How long it takes -/

/-- The steps a reader's results may take: one for each byte written, one for
each byte read, and one for the result. -/
def ReadResult.weight : ReadResult → Nat
  | .data bytes => 2 * bytes.length + 1
  | .error _ => 1

def FileReader.weight (reader : FileReader) : Nat := (reader.reads.map ReadResult.weight).sum

def ClientSide.weight : ClientSide → Nat
  | .running (.sending todo) => 2 * todo.length + 2
  | .running .copying => 1
  | _ => 0

def ServerSide.weight : ServerSide → Nat
  | .running .receiving => 3
  | .running .awaitingReader => 2
  | .running (.copying reader) => 1 + reader.weight
  | _ => 0

/-- A bound for the steps to come, the application's answer apart. -/
def Exchange.weight (s : Exchange) : Nat :=
  s.client.weight + s.server.weight + s.toServer.length + s.toClient.length

def answerWeight : Option FileReader → Nat
  | some reader => reader.weight
  | none => 0

theorem ClientSide.weight_running (phase : OutboundPhase) : 0 < (running phase).weight := by
  cases phase <;> simp only [weight] <;> omega

theorem ServerSide.weight_running (phase : InboundPhase) : 0 < (running phase).weight := by
  cases phase <;> simp only [weight] <;> omega

theorem FileReader.weight_rest {bytes : List UInt8} {n : Nat} (hpos : 0 < n)
    (hle : n ≤ bytes.length) (rest : List ReadResult) :
    FileReader.weight ⟨if bytes.length ≤ n then rest else .data (bytes.drop n) :: rest⟩ + n <
      FileReader.weight ⟨.data bytes :: rest⟩ := by
  simp only [weight, List.map_cons, List.sum_cons, ReadResult.weight]
  split
  · omega
  · simp only [List.map_cons, List.sum_cons, ReadResult.weight, List.length_drop]
    omega

/-- **Each step uses up some of the weight**, but for an answer, which brings
its own. -/
theorem Exchanged.weight (h : Exchanged u s a s') (hs : s.Serving p u) :
    s'.weight + 1 + answerWeight s.reader ≤ s.weight + answerWeight s'.reader := by
  cases h with
  | @wrote todo n hclient hpos hlt =>
    simp only [Exchange.weight, hclient, ClientSide.weight, List.length_append, List.length_take,
      List.length_drop]
    omega
  | @sent todo n hclient hpos hn =>
    simp only [Exchange.weight, hclient, ClientSide.weight, List.length_append]
    omega
  | @read n file hclient hpos hle hwrite =>
    simp only [Exchange.weight, List.length_drop]
    omega
  | @unwritten n file e hclient hpos hle hwrite =>
    simp only [Exchange.weight, hclient, ClientSide.weight, List.length_drop]
    omega
  | sawEnd hclient =>
    simp only [Exchange.weight, hclient, ClientSide.weight]
    omega
  | @clientFailed phase e kept hclient | @clientDropped phase kept hclient =>
    have hpos := ClientSide.weight_running phase
    simp only [Exchange.weight, hclient, List.length_take] at hpos ⊢
    simp only [ClientSide.weight] at hpos ⊢
    omega
  | gotMore hserver hpos hle | received hserver hpos hle | refused hserver hpos hle =>
    simp only [Exchange.weight, hserver, ServerSide.weight, List.length_drop]
    omega
  | eof hserver | eofRefused hserver =>
    simp only [Exchange.weight, hserver, ServerSide.weight]
    omega
  | answered hserver =>
    obtain ⟨-, -, hno⟩ := hs.of_waiting hserver
    simp only [Exchange.weight, hserver, hno, ServerSide.weight, answerWeight]
    omega
  | canceled hserver =>
    obtain ⟨-, -, hno⟩ := hs.of_waiting hserver
    simp only [Exchange.weight, hserver, hno, ServerSide.weight, answerWeight]
    omega
  | @copied bytes rest n kept hserver hpos hle =>
    have hrest := FileReader.weight_rest hpos hle rest
    simp only [Exchange.weight, hserver, ServerSide.weight, List.length_append, List.length_take]
    omega
  | finished hserver | unread hserver | copyingFailed hserver =>
    simp only [Exchange.weight, hserver, ServerSide.weight, List.length_take]
    omega
  | receivingFailed hserver =>
    simp only [Exchange.weight, hserver, ServerSide.weight]
    omega
  | @serverDropped phase kept hserver =>
    have hpos := ServerSide.weight_running phase
    simp only [Exchange.weight, hserver, List.length_take] at hpos ⊢
    simp only [ServerSide.weight] at hpos ⊢
    omega

theorem Exchange.start_weight (p : FileGetOutboundProtocol) (file₀ : Sink) :
    (start p file₀).weight ≤ 2 * (frameOf p.encoded).length + 5 := by
  by_cases h : p.encoded.length ≤ maxFrameLength
  · simp only [weight, start_client h, ClientSide.weight]
    simp [start, ServerSide.weight]
  · simp only [weight, start_client_tooLong (Nat.not_le.mp h), ClientSide.weight]
    simp [start, ServerSide.weight]

theorem run_weight (h : (exchangeMachine p u window file₀).Run tr s) :
    tr.length + s.weight ≤ 2 * (frameOf p.encoded).length + 5 + answerWeight s.reader := by
  induction tr generalizing s with
  | nil =>
    cases h
    have hstart := Exchange.start_weight p file₀
    simp only [List.length_nil, Nat.zero_add]
    exact Nat.le_trans hstart (Nat.le_add_right _ _)
  | cons t tr ih =>
    obtain ⟨hrun, -, -, rfl⟩ := h.tail
    have hbefore := ih hrun
    have hstep := (run_exchanged h).weight (run_exchanging hrun).serving
    simp only [List.length_cons]
    omega

/-- One of the sides goes on by itself. -/
def Exchange.GoesOn (window : Nat) (s : Exchange) : Prop :=
  ∃ a : ExchangeLabel, a.isCalm = true ∧ (∀ response, a ≠ .respond response) ∧
    s.Allowed window a = true

theorem Exchange.GoesOn.serverReads (hserver : s.server = .running .receiving)
    (hne : s.toServer ≠ []) : s.GoesOn window := by
  have hlen : 1 ≤ s.toServer.length := List.length_pos_of_ne_nil hne
  exact ⟨.serverReads 1, rfl, by simp, by simp [Allowed, hserver, hlen]⟩

/-- A server that copies goes on when there is room. -/
theorem Exchange.GoesOn.serverCopies {reader : FileReader} (hw : 0 < window)
    (hserver : s.server = .running (.copying reader)) (hempty : s.toClient = []) :
    s.GoesOn window := by
  refine ⟨.serverCopies 1 0, rfl, by simp, ?_⟩
  obtain ⟨_ | ⟨_ | e, rest⟩⟩ := reader
  · simp [Allowed, hserver]
  · rename_i bytes
    simp only [Allowed, hserver, hempty]
    cases bytes with
    | nil => rfl
    | cons b bytes =>
      simp
      omega
  · simp [Allowed, hserver]

/-- While the client writes its request, it or the server goes on, or the
server is gone. -/
theorem Exchanging.sending_goesOn (hs : Exchanging p u file₀ written s) (hw : 0 < window)
    {todo : List UInt8} (hclient : s.client = .running (.sending todo)) :
    s.GoesOn window ∨ s.server.isRunning = false := by
  obtain ⟨hne, hnone⟩ := hs.unsent todo hclient
  cases hserver : s.server with
  | ended result => exact .inr rfl
  | dropped => exact .inr rfl
  | running phase =>
    left
    cases phase with
    | awaitingReader =>
      obtain ⟨-, hann, -⟩ := hs.serving.of_waiting hserver
      rw [hnone] at hann
      cases hann
    | copying reader =>
      obtain ⟨hann, -⟩ := hs.serving.of_copying hserver
      rw [hnone] at hann
      cases hann
    | receiving =>
      by_cases hroom : s.toServer.length < window
      · refine ⟨.clientWrites 1, rfl, by simp, ?_⟩
        have hlen := List.length_pos_of_ne_nil hne
        simp only [Exchange.Allowed, hclient, Bool.and_eq_true, decide_eq_true_eq]
        omega
      · refine .serverReads hserver ?_
        intro hnil
        rw [hnil] at hroom
        exact hroom hw

/-- While the client reads, it or the server goes on, or the server waits for
the application. -/
theorem Exchanging.copying_goesOn (hs : Exchanging p u file₀ written s) (hw : 0 < window)
    (hclient : s.client = .running .copying) :
    s.GoesOn window ∨ s.server = .running .awaitingReader := by
  by_cases hempty : s.toClient = []
  · cases hserver : s.server with
    | ended result =>
      exact .inl ⟨.clientEnds, rfl, by simp, by simp [Exchange.Allowed, hclient, hempty, hserver,
        ServerSide.isRunning]⟩
    | dropped =>
      exact .inl ⟨.clientEnds, rfl, by simp, by simp [Exchange.Allowed, hclient, hempty, hserver,
        ServerSide.isRunning]⟩
    | running phase =>
      cases phase with
      | awaitingReader => exact .inr rfl
      | copying reader => exact .inl (.serverCopies hw hserver hempty)
      | receiving =>
        -- all of the frame is written, so what the decoder misses is in flight
        obtain ⟨rest, hne, -, hcome⟩ := hs.incoming hserver
        rw [hcome.copying hclient, List.append_nil] at hne
        exact .inl (.serverReads hserver hne)
  · have hlen : 1 ≤ s.toClient.length := List.length_pos_of_ne_nil hempty
    exact .inl ⟨.clientReads 1, rfl, by simp, by simp [Exchange.Allowed, hclient, hlen]⟩

/-- **The two sides never wait for each other**, and every run is finite. -/
theorem exchange_never_stuck (h : (exchangeMachine p u window file₀).Run tr s) (hw : 0 < window) :
    tr.length ≤ 2 * (frameOf p.encoded).length + 5 + answerWeight s.reader ∧
      (s.client.isRunning = true → s.GoesOn window ∨ s.server = .running .awaitingReader ∨
        (s.server.isRunning = false ∧ ∃ todo, s.client = .running (.sending todo))) := by
  have hs := run_exchanging h
  refine ⟨Nat.le_trans (Nat.le_add_right _ _) (run_weight h), ?_⟩
  intro hrunning
  obtain ⟨phase, hclient⟩ := ClientSide.isRunning_iff.mp hrunning
  cases phase with
  | sending todo =>
    obtain hgoes | hgone := hs.sending_goesOn hw hclient
    · exact .inl hgoes
    · exact .inr (.inr ⟨hgone, todo, hclient⟩)
  | copying =>
    obtain hgoes | hwaits := hs.copying_goesOn hw hclient
    · exact .inl hgoes
    · exact .inr (.inl hwaits)

theorem exchange_never_stuck_calm : ∃ tr s,
    (exchangeMachine requestA serveA 4 ⟨[], []⟩).Run tr s ∧ s.BothSucceeded ∧
      tr.length ≤ 2 * (frameOf requestA.encoded).length + 5 + answerWeight s.reader := by
  obtain ⟨tr, s, hrun, hP⟩ := exists_calm_exchange
  simp only [Bool.and_eq_true, decide_eq_true_eq] at hP
  exact ⟨tr, s, hrun, hP.2.1, (exchange_never_stuck hrun (by decide)).1⟩

/-! ## An undisturbed exchange -/

/-- What holds while nothing fails. -/
structure Undisturbed (s : Exchange) : Prop where
  client : s.client.isRunning = true ∨ s.client = .ended (.ok ())
  server : s.server.isRunning = true ∨ s.server = .ended (.returned (.ok true))
  file : s.file.faults = []
  reader : ∀ reader, s.reader = some reader → (contents reader.reads).isSome = true

theorem Sink.write_faultless {w : Sink} (h : w.faults = []) (bytes : List UInt8) :
    w.write bytes = ({ w with written := w.written ++ bytes }, .ok ()) := by
  simp [write, h]

theorem Sink.flush_faultless {w : Sink} (h : w.faults = []) : w.flush = (w, .ok ()) := by
  simp [flush, h]

/-- The request is not refused. -/
theorem Exchange.Incoming.not_refused {n : Nat} (h : s.Incoming p written)
    (hfit : p.encoded.length ≤ maxFrameLength)
    (hbad : ∀ data, ((s.decoder.push (s.toServer.take n)).decode maxFrameLength).2 = .frame data →
      FileGetMessage.decode data = none)
    (hdone : ((s.decoder.push (s.toServer.take n)).decode maxFrameLength).2 ≠ .more) : False := by
  have hnone := hbad _ (h.frame hfit hdone).1
  rw [FileGetOutboundProtocol.encoded, FileGetMessage.decode_encode _ hfit] at hnone
  cases hnone

theorem Undisturbed.step (hu : Undisturbed s) (hs : Exchanging p u file₀ written s)
    (hcalm : a.isCalm = true) (h : Exchanged u s a s') : Undisturbed s' := by
  have hgone : ∀ {phase}, s.client.isRunning = false → s.server ≠ .running phase := by
    intro phase hnot hserver
    obtain hrunning | hok := hu.client
    · rw [hrunning] at hnot
      cases hnot
    · have hover := (hs.ended hok).1
      rw [hserver] at hover
      cases hover
  cases h with
  | wrote | sent => exact ⟨.inl rfl, hu.server, hu.file, hu.reader⟩
  | read hclient hpos hle hwrite =>
    rw [Sink.write_faultless hu.file] at hwrite
    obtain rfl := (Prod.mk.inj hwrite).1
    exact ⟨hu.client, hu.server, hu.file, hu.reader⟩
  | unwritten hclient hpos hle hwrite =>
    rw [Sink.write_faultless hu.file] at hwrite
    cases (Prod.mk.inj hwrite).2
  | sawEnd hclient hempty hover hflush =>
    rw [Sink.flush_faultless hu.file] at hflush
    obtain ⟨rfl, rfl⟩ := Prod.mk.inj hflush
    exact ⟨.inr rfl, hu.server, hu.file, hu.reader⟩
  | clientFailed | clientDropped | receivingFailed | copyingFailed | serverDropped => cases hcalm
  | gotMore => exact ⟨hu.client, hu.server, hu.file, hu.reader⟩
  | received | copied => exact ⟨hu.client, .inl rfl, hu.file, hu.reader⟩
  | refused hserver hpos hle hbad hdone =>
    exact ((hs.incoming hserver).not_refused (hs.fits.of_inFlight hpos hle) hbad hdone).elim
  | eof hserver hempty hnot | eofRefused hserver hempty hnot => exact absurd hserver (hgone hnot)
  | @answered reader hserver =>
    refine ⟨hu.client, .inl rfl, hu.file, ?_⟩
    intro reader' hreader'
    obtain rfl := Option.some.inj hreader'
    exact hcalm
  | canceled => cases hcalm
  | finished => exact ⟨hu.client, .inr rfl, hu.file, hu.reader⟩
  | unread hserver =>
    obtain ⟨-, reader, hreader, -, hcontents, -⟩ := hs.serving.of_copying hserver
    have hwhole := hu.reader reader hreader
    rw [hcontents] at hwhole
    cases hwhole

theorem run_undisturbed (h : (exchangeMachine p u window file₀).Run tr s)
    (hcalm : ∀ t ∈ tr, t.label.isCalm = true) (hfit : p.encoded.length ≤ maxFrameLength)
    (hfile : file₀.faults = []) : Undisturbed s := by
  induction tr generalizing s with
  | nil =>
    cases h
    refine ⟨.inl ?_, .inl rfl, hfile, ?_⟩
    · show (Exchange.start p file₀).client.isRunning = true
      rw [Exchange.start_client hfit]
      rfl
    · intro reader hreader
      cases hreader
  | cons t tr ih =>
    obtain ⟨hrun, -, -, rfl⟩ := h.tail
    have hbefore := ih hrun fun t ht => hcalm t (List.mem_cons_of_mem _ ht)
    exact hbefore.step (run_exchanging hrun) (hcalm t List.mem_cons_self) (run_exchanged h)

/-- **An exchange that nobody disturbs delivers the whole file.** With a
request that fits into a frame, a file that takes all its bytes and an
application that answers with a reader of a whole file, the sides go on until
both have succeeded, and then the file has all of it. -/
theorem undisturbed_exchange_completes (h : (exchangeMachine p u window file₀).Run tr s)
    (hw : 0 < window) (hcalm : ∀ t ∈ tr, t.label.isCalm = true)
    (hfit : p.encoded.length ≤ maxFrameLength) (hfile : file₀.faults = []) :
    (s.client.isRunning = true ∧ (s.GoesOn window ∨ s.server = .running .awaitingReader)) ∨
      (s.BothSucceeded ∧ ∃ reader bytes, s.reader = some reader ∧
        contents reader.reads = some bytes ∧ s.file.written = file₀.written ++ bytes) := by
  have hs := run_exchanging h
  have hu := run_undisturbed h hcalm hfit hfile
  obtain hrunning | hok := hu.client
  · refine .inl ⟨hrunning, ?_⟩
    obtain ⟨phase, hclient⟩ := ClientSide.isRunning_iff.mp hrunning
    cases phase with
    | copying => exact hs.copying_goesOn hw hclient
    | sending todo =>
      refine .inl ?_
      obtain hgoes | hover := hs.sending_goesOn hw hclient
      · exact hgoes
      · -- a server that succeeded had announced the request before
        obtain hserver | hserver := hu.server
        · rw [hserver] at hover
          cases hover
        · obtain ⟨hann, -⟩ := hs.serving.of_finished hserver
          rw [(hs.unsent todo hclient).2] at hann
          cases hann
  · right
    obtain hserver | hserver := hu.server
    · rw [(hs.ended hok).1] at hserver
      cases hserver
    · obtain ⟨reader, hreader, hcontents, hwritten⟩ := hs.delivered ⟨hok, hserver⟩
      exact ⟨⟨hok, hserver⟩, reader, _, hreader, hcontents, hwritten⟩

theorem undisturbed_exchange_completes_calm : ∃ tr s,
    (exchangeMachine requestA serveA 4 ⟨[], []⟩).Run tr s ∧ ∃ reader bytes,
      s.reader = some reader ∧ contents reader.reads = some bytes ∧ s.file.written = bytes := by
  obtain ⟨tr, s, hrun, hP⟩ := exists_calm_exchange
  simp only [Bool.and_eq_true, decide_eq_true_eq, List.all_eq_true] at hP
  obtain ⟨hcalm, ⟨hclient, -⟩, -⟩ := hP
  refine ⟨tr, s, hrun, ?_⟩
  obtain ⟨hrunning, -⟩ | ⟨-, hdone⟩ :=
    undisturbed_exchange_completes hrun (by decide) hcalm (by decide) rfl
  · rw [hclient] at hrunning
    cases hrunning
  · exact hdone

end FileSharing
