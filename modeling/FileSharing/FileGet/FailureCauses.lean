/-
FileSharing.FileGet.FailureCauses — the cause a failure is reported with,
and what really happened.

A failure passes three hands: the swarm tells the handler how the substream
ended, the handler queues an event about it, the behaviour reports the
event. `HasCause` is what holds in between: behind every failure event of a
handler there is an earlier step that ended the substream of the request in
the way the event says. So a reported timeout was a timeout, and a reported
dial failure or close is the step that reports it.

One arm of `on_connection_event` says too little. `Upgrade(_)` is a
negotiation that failed (`Select`) and just as well an upgrade that failed
with an `io::Error` (`Apply`), and both become `UnsupportedProtocols`.
`failure_cause_real` says that this is the only wrong cause: a request
whose upgrade did not fail with an `io::Error` is reported with its real
one. That a close is reported of the request on the other side of the
connection is not a wrong cause but a wrong direction (`Directions`).
-/
import FileSharing.FileGet.Directions

namespace FileSharing

open Lib FileGet

/-! ## How a substream failed -/

/-- The error an inbound upgrade ends with. Its own `io::Error`s come out of
the two awaits on the substream. -/
def InboundEvent.failure? : InboundEvent → Option ConnectionHandlerUpgrErr
  | .received (.error e) => some (.upgrade (.apply e))
  | .copied (.error e) => some (.upgrade (.apply e))
  | .fails error => some error
  | _ => none

/-- The outbound substream a step fails: peer, request and error. -/
def failedOutbound (t : Transition System Label) :
    Option (PeerId × RequestId × ConnectionHandlerUpgrErr) :=
  match t.label with
  | .endOutbound c i (.error error) => do
    let l ← t.pre.link? c
    let sub ← l.outbound[i]?
    some (l.peer, sub.info, error)
  | _ => none

/-- The inbound substream a step fails: peer, request and error. -/
def failedInbound (t : Transition System Label) :
    Option (PeerId × RequestId × ConnectionHandlerUpgrErr) :=
  match t.label with
  | .inbound c ch event => do
    let l ← t.pre.link? c
    let sub ← l.inbound.find? fun sub => sub.channel = ch
    let error ← event.failure?
    some (l.peer, sub.info, error)
  | _ => none

section

variable {t : Transition System Label} {l : Link}

theorem failedOutbound_eq (hm : Mirror t.pre) (hl : l ∈ t.pre.links) {i : Nat}
    {error : ConnectionHandlerUpgrErr} (hlabel : t.label = .endOutbound l.id i (.error error))
    {sub : OutboundSubstream} (hsub : l.outbound[i]? = some sub) :
    failedOutbound t = some (l.peer, sub.info, error) := by
  simp [failedOutbound, hlabel, hm.link?_eq hl, hsub]

theorem failedInbound_eq (hm : Mirror t.pre) (hl : l ∈ t.pre.links) {ch : ChannelId}
    {event : InboundEvent} (hlabel : t.label = .inbound l.id ch event) {sub : InboundSubstream}
    (hsub : l.inbound.find? (fun sub => sub.channel = ch) = some sub)
    {error : ConnectionHandlerUpgrErr} (hfail : event.failure? = some error) :
    failedInbound t = some (l.peer, sub.info, error) := by
  simp [failedInbound, hlabel, hm.link?_eq hl, hsub, hfail]

end

/-! ## The events of the handlers -/

/-- An earlier step failed the substream of the request in the way the
event says. The upgrade never returns `false`, so no handler ever tells of
an omitted response. -/
def FileGetHandlerEvent.HasCause (tr : Trace System Label) (p : PeerId) :
    FileGetHandlerEvent → Prop
  | .outboundTimeout r => ∃ u ∈ tr, failedOutbound u = some (p, r, .timeout)
  | .outboundUnsupportedProtocols r =>
    ∃ u ∈ tr, ∃ e, failedOutbound u = some (p, r, .upgrade e)
  | .inboundTimeout r => ∃ u ∈ tr, failedInbound u = some (p, r, .timeout)
  | .inboundUnsupportedProtocols r =>
    ∃ u ∈ tr, ∃ e, failedInbound u = some (p, r, .upgrade e)
  | .responseOmission _ => False
  | _ => True

/-- A cause stays a cause. -/
theorem FileGetHandlerEvent.HasCause.cons {tr : Trace System Label} {p : PeerId}
    {e : FileGetHandlerEvent} (h : e.HasCause tr p) (t : Transition System Label) :
    e.HasCause (t :: tr) p := by
  cases e with
  | outboundTimeout r | inboundTimeout r =>
    obtain ⟨u, hu, hfail⟩ := h
    exact ⟨u, List.mem_cons_of_mem _ hu, hfail⟩
  | outboundUnsupportedProtocols r | inboundUnsupportedProtocols r =>
    obtain ⟨u, hu, hfail⟩ := h
    exact ⟨u, List.mem_cons_of_mem _ hu, hfail⟩
  | responseOmission r => exact h
  | request _ _ _ | response _ | responseSent _ => trivial

/-- The handler of the link tells the event, or has told it. -/
def Link.Tells (l : Link) (e : FileGetHandlerEvent) : Prop :=
  e ∈ l.events ∨ e ∈ l.handler.pendingEvents

section

variable {t : Transition System Label} {tr : Trace System Label} {e : FileGetHandlerEvent}

/-- A handler that queues an event with a cause. -/
theorem Handler.caused_queue {h : Handler} {x : FileGetHandlerEvent} {p : PeerId}
    (he : e ∈ (h.queue x).pendingEvents) (hx : x.HasCause tr p) :
    e ∈ h.pendingEvents ∨ e.HasCause tr p := by
  rcases List.mem_append.mp he with he | he
  · exact Or.inl he
  · rw [List.mem_singleton.mp he]
    exact Or.inr hx

/-- What the handler queues when an outbound substream fails. -/
theorem Handler.caused_dialUpgradeError {h : Handler} {p : PeerId} {r : RequestId}
    {error : ConnectionHandlerUpgrErr} (hfail : failedOutbound t = some (p, r, error))
    (he : e ∈ (h.onConnectionEvent (.dialUpgradeError error r)).pendingEvents) :
    e ∈ h.pendingEvents ∨ e.HasCause (t :: tr) p := by
  cases error with
  | timeout => exact caused_queue he ⟨t, List.mem_cons_self, hfail⟩
  | upgrade err => exact caused_queue he ⟨t, List.mem_cons_self, err, hfail⟩
  | timer => exact Or.inl he

/-- What the handler queues when an inbound substream fails. -/
theorem Handler.caused_listenUpgradeError {h : Handler} {p : PeerId} {r : RequestId}
    {error : ConnectionHandlerUpgrErr} (hfail : failedInbound t = some (p, r, error))
    (he : e ∈ (h.onConnectionEvent (.listenUpgradeError error r)).pendingEvents) :
    e ∈ h.pendingEvents ∨ e.HasCause (t :: tr) p := by
  cases error with
  | timeout => exact caused_queue he ⟨t, List.mem_cons_self, hfail⟩
  | upgrade err => exact caused_queue he ⟨t, List.mem_cons_self, err, hfail⟩
  | timer => exact Or.inl he

end

/-! ## The upgrade -/

namespace FileGetInboundProtocol

variable {u : FileGetInboundProtocol} {phase : InboundPhase} {wake : InboundWake}

/-- The upgrade returns an error when an await on the substream gave it. -/
theorem resume_error {e : IoError} (h : u.resume phase wake = .returns (.error e)) :
    wake = .received (.error e) ∨ wake = .copied (.error e) := by
  unfold resume at h
  split at h <;> simp_all

/-- When the upgrade returns a value it is `true`. -/
theorem resume_ok {sent : Bool} (h : u.resume phase wake = .returns (.ok sent)) :
    sent = true := by
  unfold resume at h
  split at h <;> simp_all

end FileGetInboundProtocol

/-! ## One connection -/

namespace Link

variable {t : Transition System Label} {tr : Trace System Label} {l : Link}
  {e : FileGetHandlerEvent}

theorem tells_deliverCommand (he : (deliverCommand l).Tells e) : l.Tells e := by
  unfold deliverCommand at he
  split at he <;> exact he

theorem tells_pollHandler {now : Instant} {pick : Nat} (he : (pollHandler now pick l).Tells e) :
    l.Tells e ∨ e.HasCause tr l.peer := by
  have hp := l.handler.polled now pick
  unfold pollHandler at he
  generalize l.handler.poll now pick = result at hp he
  cases hp with
  | close error _ => exact Or.inl he
  | event x rest hev =>
    -- the oldest event changes its queue
    left
    rcases he with he | he
    · rcases List.mem_append.mp he with he | he
      · exact Or.inl he
      · rw [List.mem_singleton.mp he]
        exact Or.inr (hev ▸ List.mem_cons_self)
    · exact Or.inr (hev ▸ List.mem_cons_of_mem _ he)
  | outbound request rest _ => exact Or.inl he
  | request ch r m _ =>
    rcases he with he | he
    · rcases List.mem_append.mp he with he | he
      · exact Or.inl (Or.inl he)
      · rw [List.mem_singleton.mp he]
        exact Or.inr trivial
    · exact Or.inl (Or.inr he)
  | pending inbound keepAlive _ _ _ _ _ => exact Or.inl he

theorem tells_endOutbound {i : Nat} {result : Except ConnectionHandlerUpgrErr Unit}
    (hm : Mirror t.pre) (hl : l ∈ t.pre.links) (hlabel : t.label = .endOutbound l.id i result)
    (he : (endOutbound i result l).Tells e) : l.Tells e ∨ e.HasCause (t :: tr) l.peer := by
  unfold endOutbound at he
  split at he
  · exact Or.inl he
  · rename_i sub hsub
    rcases he with he | he
    · exact Or.inl (Or.inl he)
    · cases result with
      | ok _ =>
        have hresponse : FileGetHandlerEvent.HasCause (t :: tr) l.peer (.response sub.info) :=
          trivial
        exact (Handler.caused_queue he hresponse).imp_left Or.inr
      | error error =>
        exact (Handler.caused_dialUpgradeError (failedOutbound_eq hm hl hlabel hsub) he).imp_left
          Or.inr

theorem dropInbound_tells {sub : InboundSubstream} (he : (l.dropInbound sub).Tells e) :
    l.Tells e := by
  unfold dropInbound at he
  split at he <;> exact he

/-- The substream failed, and the handler is told so. -/
theorem tells_endInbound_error {sub : InboundSubstream} {error : ConnectionHandlerUpgrErr}
    (hfail : failedInbound t = some (l.peer, sub.info, error))
    (he : (l.endInbound sub (.listenUpgradeError error sub.info)).Tells e) :
    l.Tells e ∨ e.HasCause (t :: tr) l.peer := by
  rcases he with he | he
  · exact Or.inl (Or.inl he)
  · exact (Handler.caused_listenUpgradeError hfail he).imp_left fun he =>
      dropInbound_tells (Or.inr he)

theorem tells_resumeInbound {sub : InboundSubstream} {wake : InboundWake}
    (hfail : ∀ err, wake = .received (.error err) ∨ wake = .copied (.error err) →
      failedInbound t = some (l.peer, sub.info, .upgrade (.apply err)))
    (he : (l.resumeInbound sub wake).Tells e) : l.Tells e ∨ e.HasCause (t :: tr) l.peer := by
  unfold resumeInbound at he
  split at he
  · split at he <;> exact Or.inl he
  · rename_i sent hres
    obtain rfl := FileGetInboundProtocol.resume_ok hres
    rcases he with he | he
    · exact Or.inl (Or.inl he)
    · have hsent : FileGetHandlerEvent.HasCause (t :: tr) l.peer (.responseSent sub.info) :=
        trivial
      exact (Handler.caused_queue he hsent).imp_left fun he => dropInbound_tells (Or.inr he)
  · rename_i err hres
    exact tells_endInbound_error (hfail err (FileGetInboundProtocol.resume_error hres)) he
  · exact Or.inl he

theorem tells_inboundEvent {ch : ChannelId} {event : InboundEvent} (hm : Mirror t.pre)
    (hl : l ∈ t.pre.links) (hlabel : t.label = .inbound l.id ch event)
    (he : (inboundEvent ch event l).Tells e) : l.Tells e ∨ e.HasCause (t :: tr) l.peer := by
  unfold inboundEvent at he
  split at he
  · exact Or.inl he
  · rename_i sub hsub
    have hfailed : ∀ error, event.failure? = some error →
        failedInbound t = some (l.peer, sub.info, error) := fun error hfail =>
      failedInbound_eq hm hl hlabel hsub hfail
    cases event with
    | received result =>
      refine tells_resumeInbound (fun err hwake => hfailed _ ?_) he
      rcases hwake with hwake | hwake
      · cases hwake
        rfl
      · cases hwake
    | pollReader =>
      dsimp only at he
      split at he
      · exact Or.inl he
      · exact tells_resumeInbound (by simp) he
      · exact tells_resumeInbound (by simp) he
    | copied result =>
      refine tells_resumeInbound (fun err hwake => hfailed _ ?_) he
      rcases hwake with hwake | hwake
      · cases hwake
      · cases hwake
        rfl
    | fails error => exact tells_endInbound_error (hfailed error rfl) he
    | otherProtocol => exact Or.inl (dropInbound_tells he)

end Link

/-- A connection task tells of nothing but what happened. -/
theorem LinkStep.tells {t : Transition System Label} {tr : Trace System Label} {l : Link}
    {e : FileGetHandlerEvent} {f : Link → Link} (hm : Mirror t.pre) (hl : l ∈ t.pre.links)
    (h : LinkStep t.label l.id f) (he : (f l).Tells e) :
    l.Tells e ∨ e.HasCause (t :: tr) l.peer := by
  generalize hlabel : t.label = a at h
  generalize hc : l.id = c at h
  cases h with
  | deliverCommand => exact Or.inl (Link.tells_deliverCommand he)
  | pollHandler => exact Link.tells_pollHandler he
  | inbound c ch event => exact Link.tells_inboundEvent hm hl (hc ▸ hlabel) he
  | endOutbound c i result => exact Link.tells_endOutbound hm hl (hc ▸ hlabel) he

/-! ## The whole system -/

/-- The handler of some connection to the peer tells the event. -/
def System.Tells (s : System) (p : PeerId) (e : FileGetHandlerEvent) : Prop :=
  ∃ l ∈ s.links, l.peer = p ∧ l.Tells e

/-- What a step does to one connection makes its handler tell nothing but
what happened. -/
theorem LinkStepped.tells {t : Transition System Label} {tr : Trace System Label} {l l' : Link}
    {e : FileGetHandlerEvent} (h : LinkStepped t.pre t.label l l') (hm : Mirror t.pre)
    (hl : l ∈ t.pre.links) (he : l'.Tells e) : l.Tells e ∨ e.HasCause (t :: tr) l.peer := by
  cases h with
  | delivered x rest _ _ => exact Or.inl (he.imp_left List.mem_of_mem_tail)
  | task f hf => exact hf.tells hm hl he
  | aside _ _ | readdressed _ _ _ | commanded _ _ | opened _ | told _ _ _ => exact Or.inl he

/-- **Inversion**: what is told after a step was told before it, or the step
is the cause. -/
theorem stepped_tells {t : Transition System Label} {tr : Trace System Label} (hm : Mirror t.pre)
    (h : Stepped t.pre t.label t.post) {p : PeerId} {e : FileGetHandlerEvent}
    (he : t.post.Tells p e) : t.pre.Tells p e ∨ e.HasCause (t :: tr) p := by
  obtain ⟨l', hl', rfl, he⟩ := he
  cases stepped_linksStepped hm h with
  | each g hg hlinks =>
    rw [hlinks] at hl'
    obtain ⟨l, hl, rfl⟩ := List.mem_map.mp hl'
    rw [(hg l hl).keeps.2]
    exact ((hg l hl).tells hm hl he).imp_left fun he => ⟨l, hl, rfl, he⟩
  | established q c ep resolves timeout _ hlinks =>
    rw [hlinks] at hl'
    rcases List.mem_append.mp hl' with hl' | hl'
    · exact Or.inl ⟨l', hl', rfl, he⟩
    · -- nothing has happened on a new connection
      rw [List.mem_singleton.mp hl'] at he
      rcases he with he | he <;> cases he
  | closed q c o i _ hlinks =>
    rw [hlinks] at hl'
    exact Or.inl ⟨l', List.mem_of_mem_filter hl', rfl, he⟩

variable {config : FileGetConfig} {debug : Bool} {tr : Trace System Label} {s : System}

/-- **Every event of a handler has its cause**, in every run. -/
theorem run_hasCause (h : (fileGetSystem config debug).Run tr s) {p : PeerId}
    {e : FileGetHandlerEvent} (he : s.Tells p e) : e.HasCause tr p := by
  induction tr generalizing s with
  | nil =>
    cases h
    obtain ⟨l, hl, -⟩ := he
    simp [fileGetSystem, System.init] at hl
  | cons t tr ih =>
    obtain ⟨hrun, -, -, rfl⟩ := h.tail
    obtain ⟨hm, hstep⟩ := run_stepped h
    rcases stepped_tells hm hstep he with he | hcause
    · exact (ih hrun he).cons t
    · exact hcause

/-! ## The causes that are reported -/

namespace FileGetEvent

/-- The reported cause is what happened, here or in an older step. A close
counts for the requests of either side of the connection. -/
def RealCause (older : Trace System Label) (t : Transition System Label) : FileGetEvent → Prop
  | .outboundFailure p r .dialFailure =>
    (∃ resolves, t.label = .dialFailure (some p) resolves) ∧ t.pre.fileGet.Buffered p r
  | .outboundFailure p r .timeout => ∃ u ∈ older, failedOutbound u = some (p, r, .timeout)
  | .outboundFailure p r .unsupportedProtocols =>
    ∃ u ∈ older, ∃ e, failedOutbound u = some (p, r, .upgrade (.select e))
  | .inboundFailure p r .timeout => ∃ u ∈ older, failedInbound u = some (p, r, .timeout)
  | .inboundFailure p r .unsupportedProtocols =>
    ∃ u ∈ older, ∃ e, failedInbound u = some (p, r, .upgrade (.select e))
  | .outboundFailure p r .connectionClosed | .inboundFailure p r .connectionClosed =>
    ∃ c o i, t.label = .connectionClosed p c o i ∧
      (t.pre.fileGet.Waiting p c r ∨ t.pre.fileGet.Serving p c r)
  | .inboundFailure _ _ .responseOmission => False
  | _ => True

/-- A close is reported of a request of the side the event is about. -/
def OnItsSide (t : Transition System Label) : FileGetEvent → Prop
  | .outboundFailure p r .connectionClosed =>
    ∃ c o i, t.label = .connectionClosed p c o i ∧ t.pre.fileGet.Waiting p c r
  | .inboundFailure p r .connectionClosed =>
    ∃ c o i, t.label = .connectionClosed p c o i ∧ t.pre.fileGet.Serving p c r
  | _ => True

/-- The failure is reported as a protocol that is not supported. -/
def IsUnsupportedProtocols : FileGetEvent → Prop
  | .outboundFailure _ _ .unsupportedProtocols => True
  | .inboundFailure _ _ .unsupportedProtocols => True
  | _ => False

/-- The upgrade of the request failed with an `io::Error`. -/
def UpgradeBroke (older : Trace System Label) : FileGetEvent → Prop
  | .outboundFailure p r _ =>
    ∃ u ∈ older, ∃ e, failedOutbound u = some (p, r, .upgrade (.apply e))
  | .inboundFailure p r _ =>
    ∃ u ∈ older, ∃ e, failedInbound u = some (p, r, .upgrade (.apply e))
  | _ => False

end FileGetEvent

/-- What a handler tells is reported with its real cause, but for one kind
of failure, and for that kind unless the upgrade broke. -/
theorem FileGetHandlerEvent.HasCause.report {older : Trace System Label}
    {t : Transition System Label} {p : PeerId} {e : FileGetHandlerEvent}
    (h : e.HasCause older p)
    (hbroke : (e.report p).IsUnsupportedProtocols → ¬ (e.report p).UpgradeBroke older) :
    (e.report p).RealCause older t := by
  cases e with
  | request r m ch => trivial
  | response r => trivial
  | responseSent r => trivial
  | responseOmission r => exact h
  | outboundTimeout r => exact h
  | inboundTimeout r => exact h
  | outboundUnsupportedProtocols r =>
    obtain ⟨u, hu, err, hfail⟩ := h
    cases err with
    | select e => exact ⟨u, hu, e, hfail⟩
    | apply e => exact absurd ⟨u, hu, e, hfail⟩ (hbroke trivial)
  | inboundUnsupportedProtocols r =>
    obtain ⟨u, hu, err, hfail⟩ := h
    cases err with
    | select e => exact ⟨u, hu, e, hfail⟩
    | apply e => exact absurd ⟨u, hu, e, hfail⟩ (hbroke trivial)

/-- Nothing a handler tells is about a close. -/
theorem FileGetHandlerEvent.report_onItsSide (e : FileGetHandlerEvent) (p : PeerId)
    (t : Transition System Label) : (e.report p).OnItsSide t := by
  cases e <;> trivial

/-- **The reported cause is the real cause, unless it is `UnsupportedProtocols`
and the upgrade of the request failed with an `io::Error`**; and a close of
a connection with the same ids on both sides is reported of the right
requests. -/
theorem failure_cause_real (h : (fileGetSystem config debug).Run tr s) :
    ∀ newer t older, tr = newer ++ t :: older → ∀ e ∈ reports t,
      (¬ e.IsUnsupportedProtocols → e.RealCause older t) ∧
      (¬ e.UpgradeBroke older → e.RealCause older t) ∧
      (ClosesBalanced t → e.OnItsSide t) := by
  rintro newer t older rfl e he
  obtain ⟨hrun, hallowed, hok⟩ := h.of_append
  have hm := run_mirror hrun
  cases reports_reported hm (step_stepped hm hallowed hok) he with
  | dialFailed p resolves r hlabel hb =>
    have hreal : FileGetEvent.RealCause older t (.outboundFailure p r .dialFailure) :=
      ⟨⟨resolves, hlabel⟩, hb⟩
    exact ⟨fun _ => hreal, fun _ => hreal, fun _ => trivial⟩
  | closedServing p o i conn r hlabel hconn hr =>
    have hserving : t.pre.fileGet.Serving p conn.id r := ⟨conn, hconn, rfl, hr⟩
    have hreal : FileGetEvent.RealCause older t (.outboundFailure p r .connectionClosed) :=
      ⟨conn.id, o, i, hlabel, Or.inr hserving⟩
    exact ⟨fun _ => hreal, fun _ => hreal, fun hbal =>
      ⟨conn.id, o, i, hlabel, (hbal p conn.id o i hlabel r).mpr hserving⟩⟩
  | closedWaiting p o i conn r hlabel hconn hr =>
    have hwaiting : t.pre.fileGet.Waiting p conn.id r := ⟨conn, hconn, rfl, hr⟩
    have hreal : FileGetEvent.RealCause older t (.inboundFailure p r .connectionClosed) :=
      ⟨conn.id, o, i, hlabel, Or.inl hwaiting⟩
    exact ⟨fun _ => hreal, fun _ => hreal, fun hbal =>
      ⟨conn.id, o, i, hlabel, (hbal p conn.id o i hlabel r).mp hwaiting⟩⟩
  | delivered l x rest _ hl hev =>
    have htells : t.pre.Tells l.peer x := ⟨l, hl, rfl, Or.inl (hev ▸ List.mem_cons_self)⟩
    have hcause := run_hasCause hrun htells
    exact ⟨fun hkind => hcause.report fun hk => absurd hk hkind,
      fun hbroke => hcause.report fun _ => hbroke, fun _ => x.report_onItsSide l.peer t⟩

/-- The remote has no protocol of ours, and that is what is reported. -/
theorem failure_cause_real_negotiation : ∃ tr s, (fileGetSystem ⟨10⟩ true).Run tr s ∧
    ∃ newer t older, tr = newer ++ t :: older ∧
      .outboundFailure ⟨7⟩ (.nth 0) .unsupportedProtocols ∈ reports t ∧
      ∃ u ∈ older, ∃ e, failedOutbound u = some (⟨7⟩, .nth 0, .upgrade (.select e)) := by
  obtain ⟨tr, s, hrun, hP⟩ := Machine.exists_run_of_labels (M := fileGetSystem ⟨10⟩ true)
    [.connectionEstablished ⟨7⟩ ⟨1⟩ (.dialer ⟨"/ip4/10.0.0.2"⟩) false,
      .sendRequest ⟨7⟩ ⟨"a"⟩ ⟨[]⟩, .pollBehaviour, .deliverCommand ⟨1⟩, .pollHandler ⟨1⟩ 0 0,
      .endOutbound ⟨1⟩ 0 (.error (.upgrade (.select .failed))), .pollHandler ⟨1⟩ 0 0,
      .deliverEvent ⟨1⟩]
    (fun tr _ => decide (
      (∃ t ∈ tr, .outboundFailure ⟨7⟩ (.nth 0) .unsupportedProtocols ∈ reports t) ∧
      ∀ u ∈ tr, failedOutbound u = none ∨
        failedOutbound u = some (⟨7⟩, .nth 0, .upgrade (.select .failed)))) (by decide) (by decide)
  obtain ⟨⟨t, ht, hmem⟩, hfailed⟩ := of_decide_eq_true hP
  obtain ⟨newer, older, rfl⟩ := List.append_of_mem ht
  refine ⟨_, s, hrun, newer, t, older, rfl, hmem, ?_⟩
  refine (failure_cause_real hrun newer t older rfl _ hmem).2.1 ?_
  rintro ⟨u, hu, e, hfail⟩
  rcases hfailed u (List.mem_append_right _ (List.mem_cons_of_mem _ hu)) with h | h <;>
    simp [hfail] at h

/-- The stream is reset while our request is on its way: the negotiation had
succeeded, and `UnsupportedProtocols` is reported. -/
theorem reset_reported_as_unsupported : ∃ tr s, (fileGetSystem ⟨10⟩ true).Run tr s ∧
    ¬ ∀ newer t older, tr = newer ++ t :: older → ∀ e ∈ reports t, e.RealCause older t := by
  obtain ⟨tr, s, hrun, hP⟩ := Machine.exists_run_of_labels (M := fileGetSystem ⟨10⟩ true)
    [.connectionEstablished ⟨7⟩ ⟨1⟩ (.dialer ⟨"/ip4/10.0.0.2"⟩) false,
      .sendRequest ⟨7⟩ ⟨"a"⟩ ⟨[]⟩, .pollBehaviour, .deliverCommand ⟨1⟩, .pollHandler ⟨1⟩ 0 0,
      .endOutbound ⟨1⟩ 0 (.error (.upgrade (.apply ⟨.connectionReset⟩))), .pollHandler ⟨1⟩ 0 0,
      .deliverEvent ⟨1⟩]
    (fun tr _ => decide (
      (∃ t ∈ tr, .outboundFailure ⟨7⟩ (.nth 0) .unsupportedProtocols ∈ reports t) ∧
      ∀ u ∈ tr, failedOutbound u = none ∨ failedOutbound u =
        some (⟨7⟩, .nth 0, .upgrade (.apply ⟨.connectionReset⟩)))) (by decide) (by decide)
  obtain ⟨⟨t, ht, hmem⟩, hfailed⟩ := of_decide_eq_true hP
  refine ⟨tr, s, hrun, fun hreal => ?_⟩
  obtain ⟨newer, older, rfl⟩ := List.append_of_mem ht
  obtain ⟨u, hu, e, hfail⟩ := hreal newer t older rfl _ hmem
  rcases hfailed u (List.mem_append_right _ (List.mem_cons_of_mem _ hu)) with h | h <;>
    simp [hfail] at h

end FileSharing
