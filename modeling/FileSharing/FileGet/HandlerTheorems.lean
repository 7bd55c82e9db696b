/-
FileSharing.FileGet.HandlerTheorems — what one call of `Handler::poll`
does, said once.

`poll` looks at four places in a fixed order (the pending error, the
pending events, the outbound requests, the inbound futures) and takes at
most one thing out of one of them. `Polled` lists the outcomes with the
new handler written out; proofs about runs split on it and never unfold
`poll`.
-/
import FileSharing.FileGet.Handler

namespace FileSharing

/-- What `FuturesUnordered::poll_next` yields: a finished future of the
set, or nothing when none is finished. -/
theorem pollNext_cases (pick : Nat) (inbound : List InboundFuture) :
    (∃ f ∈ inbound, f.isFinished = true ∧ pollNext pick inbound = (some f, inbound.erase f)) ∨
    ((∀ f ∈ inbound, f.isFinished = false) ∧ pollNext pick inbound = (none, inbound)) := by
  unfold pollNext
  cases h : (inbound.filter InboundFuture.isFinished)[
      pick % (inbound.filter InboundFuture.isFinished).length]? with
  | some f =>
    obtain ⟨hmem, hfin⟩ := List.mem_filter.mp (List.mem_of_getElem? h)
    exact Or.inl ⟨f, hmem, hfin, by simp only [h]⟩
  | none =>
    refine Or.inr ⟨fun f hf => ?_, by simp only [h]⟩
    rw [List.getElem?_eq_none_iff] at h
    by_contra hfin
    have hmem : f ∈ inbound.filter InboundFuture.isFinished :=
      List.mem_filter.mpr ⟨hf, by simpa using hfin⟩
    have := Nat.mod_lt pick (List.length_pos_of_mem hmem)
    omega

/-- What a `poll` without a result did to the futures: none was finished,
or a cancelled one was yielded and is gone. -/
inductive Consumed (inbound : List InboundFuture) : List InboundFuture → Prop where
  | nothing : (∀ f ∈ inbound, f.isFinished = false) → Consumed inbound inbound
  | canceled (channel : ChannelId) : ⟨channel, .canceled⟩ ∈ inbound →
      Consumed inbound (inbound.erase ⟨channel, .canceled⟩)

theorem Consumed.sublist {inbound left : List InboundFuture} (h : Consumed inbound left) :
    left.Sublist inbound := by
  cases h with
  | nothing _ => exact List.Sublist.refl _
  | canceled channel _ => exact List.erase_sublist

theorem Consumed.kept {inbound left : List InboundFuture} (h : Consumed inbound left)
    {f : InboundFuture} (hf : f ∈ inbound) (hstate : f.state ≠ .canceled) : f ∈ left := by
  cases h with
  | nothing _ => exact hf
  | canceled channel _ =>
    have hne : f ≠ ⟨channel, .canceled⟩ := fun heq => hstate (by rw [heq])
    exact (List.mem_erase_of_ne hne).mpr hf

namespace Handler

/-- The outcomes of one `poll`. -/
inductive Polled (h : Handler) (now : Instant) :
    Handler × Option ConnectionHandlerEvent → Prop where
  /-- The pending error closes the connection. -/
  | close (error : ConnectionHandlerUpgrErr) : h.pendingError = some error →
      Polled h now ({ h with pendingError := none }, some (.close error))
  /-- The oldest pending event goes out. -/
  | event (e : FileGetHandlerEvent) (rest : List FileGetHandlerEvent) :
      h.pendingEvents = e :: rest →
      Polled h now ({ h with pendingEvents := rest }, some (.custom e))
  /-- The oldest request asks for a substream. -/
  | outbound (request : FileGetOutboundProtocol) (rest : List FileGetOutboundProtocol) :
      h.outbound = request :: rest →
      Polled h now ({ h with outbound := rest },
        some (.outboundSubstreamRequest request request.requestId h.timeout))
  /-- A received request is announced. -/
  | request (channel : ChannelId) (requestId : RequestId) (message : FileGetMessage) :
      ⟨channel, .received requestId message⟩ ∈ h.inbound →
      Polled h now ({ h with
          keepAlive := .yes
          inbound := h.inbound.erase ⟨channel, .received requestId message⟩ },
        some (.custom (.request requestId message channel)))
  /-- Nothing to report; a cancelled future may have been consumed. -/
  | pending (inbound : List InboundFuture) (keepAlive : KeepAlive) :
      h.pendingError = none → h.pendingEvents = [] → h.outbound = [] →
      Consumed h.inbound inbound →
      (keepAlive = h.keepAlive ∨ keepAlive = .until (now + h.timeout * 2)) →
      Polled h now ({ h with inbound := inbound, keepAlive := keepAlive }, none)

/-- **Inversion of `poll`.** -/
theorem polled (h : Handler) (now : Instant) (pick : Nat) : Polled h now (h.poll now pick) := by
  unfold poll
  split
  · exact .close _ ‹_›
  rename_i herr
  split
  · exact .event _ _ ‹_›
  rename_i hev
  split
  · exact .outbound _ _ ‹_›
  rename_i hout
  have hidle : ∀ inbound : List InboundFuture, Consumed h.inbound inbound →
      Polled h now (if inbound.isEmpty && h.keepAlive.isYes then
        ({ h with inbound := inbound, keepAlive := .until (now + h.timeout * 2) }, none)
        else ({ h with inbound := inbound }, none)) := by
    intro inbound hc
    split
    · exact .pending inbound _ herr hev hout hc (Or.inr rfl)
    · exact .pending inbound h.keepAlive herr hev hout hc (Or.inl rfl)
  rcases pollNext_cases pick h.inbound with ⟨⟨channel, state⟩, hmem, hfin, hnext⟩ | ⟨hnone, hnext⟩
  · cases state with
    | pending => simp [InboundFuture.isFinished] at hfin
    | received requestId message =>
      simp only [hnext]
      exact .request channel requestId message hmem
    | canceled =>
      simp only [hnext]
      exact hidle _ (.canceled channel hmem)
  · simp only [hnext]
    exact hidle _ (.nothing hnone)

/-! ## Polling until there is nothing to do -/

/-- The handler has nothing that it could report. -/
structure Idle (h : Handler) : Prop where
  error : h.pendingError = none
  events : h.pendingEvents = []
  outbound : h.outbound = []
  received : ∀ channel requestId message, ⟨channel, .received requestId message⟩ ∉ h.inbound

/-- Polled again and again, at any times and with any choice of futures,
the handler reports `reported` and then that it has nothing to do. -/
inductive Drained : Handler → List ConnectionHandlerEvent → Handler → Prop where
  | pending {h h' : Handler} (now : Instant) (pick : Nat) :
      h.poll now pick = (h', none) → Drained h [] h'
  | ready {h h₁ h' : Handler} {event : ConnectionHandlerEvent}
      {reported : List ConnectionHandlerEvent} (now : Instant) (pick : Nat) :
      h.poll now pick = (h₁, some event) → Drained h₁ reported h' →
      Drained h (event :: reported) h'

/-- A cancelled future and a completed one wait side by side. -/
def Mixed (h : Handler) : Prop :=
  (∃ channel, ⟨channel, .canceled⟩ ∈ h.inbound) ∧
  ∃ channel requestId message, ⟨channel, .received requestId message⟩ ∈ h.inbound

theorem not_mixed_of_subset {h h' : Handler} (hm : ¬ h.Mixed)
    (hsub : ∀ f ∈ h'.inbound, f ∈ h.inbound) : ¬ h'.Mixed := by
  rintro ⟨⟨channel, hc⟩, channel', r, m, hr⟩
  exact hm ⟨⟨channel, hsub _ hc⟩, channel', r, m, hsub _ hr⟩

/-- A pending poll of a handler without a mixture leaves it idle. -/
theorem idle_of_pending {h h' : Handler} {now : Instant} {pick : Nat} (hm : ¬ h.Mixed)
    (hp : h.poll now pick = (h', none)) :
    h'.Idle ∧ ∀ channel r m, ⟨channel, .received r m⟩ ∉ h.inbound := by
  have hpolled := h.polled now pick
  rw [hp] at hpolled
  cases hpolled with
  | pending inbound keepAlive herr hev hout hc _ =>
    have hnone : ∀ channel r m, ⟨channel, .received r m⟩ ∉ h.inbound := by
      intro channel r m hmem
      cases hc with
      | nothing hfin => simpa [InboundFuture.isFinished] using hfin _ hmem
      | canceled c hcanceled => exact hm ⟨⟨c, hcanceled⟩, channel, r, m, hmem⟩
    exact ⟨⟨herr, hev, hout, fun channel r m hmem => hnone channel r m (hc.sublist.mem hmem)⟩,
      hnone⟩

/-- Without a mixture every completed future is announced before the
handler says it has nothing to do. -/
theorem Drained.complete {h h' : Handler} {reported : List ConnectionHandlerEvent}
    (hd : Drained h reported h') (hm : ¬ h.Mixed) :
    h'.Idle ∧ ∀ channel r m, ⟨channel, .received r m⟩ ∈ h.inbound →
      .custom (.request r m channel) ∈ reported := by
  induction hd with
  | pending now pick hp =>
    obtain ⟨hidle, hnone⟩ := idle_of_pending hm hp
    exact ⟨hidle, fun channel r m hmem => absurd hmem (hnone channel r m)⟩
  | @ready h h₁ h' event reported now pick hp hd ih =>
    -- a future leaves the set only by being announced
    have hstep : (∀ f ∈ h₁.inbound, f ∈ h.inbound) ∧
        ∀ channel r m, ⟨channel, .received r m⟩ ∈ h.inbound →
          ⟨channel, .received r m⟩ ∈ h₁.inbound ∨ event = .custom (.request r m channel) := by
      have hpolled := h.polled now pick
      rw [hp] at hpolled
      cases hpolled with
      | close error _ => exact ⟨fun _ hf => hf, fun _ _ _ hmem => Or.inl hmem⟩
      | event e rest _ => exact ⟨fun _ hf => hf, fun _ _ _ hmem => Or.inl hmem⟩
      | outbound request rest _ => exact ⟨fun _ hf => hf, fun _ _ _ hmem => Or.inl hmem⟩
      | request c r' m' _ =>
        refine ⟨fun f hf => List.mem_of_mem_erase hf, fun channel r m hmem => ?_⟩
        by_cases heq : (⟨channel, .received r m⟩ : InboundFuture) = ⟨c, .received r' m'⟩
        · cases heq
          exact Or.inr rfl
        · exact Or.inl ((List.mem_erase_of_ne heq).mpr hmem)
    obtain ⟨hidle, hall⟩ := ih (not_mixed_of_subset hm hstep.1)
    refine ⟨hidle, fun channel r m hmem => ?_⟩
    rcases hstep.2 channel r m hmem with hleft | heq
    · exact List.mem_cons_of_mem _ (hall channel r m hleft)
    · exact heq ▸ List.mem_cons_self

/-- Any finished future may be the one that `poll_next` yields. -/
theorem exists_pick {f : InboundFuture} {inbound : List InboundFuture} (hmem : f ∈ inbound)
    (hfin : f.isFinished = true) : ∃ pick, pollNext pick inbound = (some f, inbound.erase f) := by
  obtain ⟨i, hi⟩ := List.mem_iff_getElem?.mp (List.mem_filter.mpr ⟨hmem, hfin⟩)
  refine ⟨i, ?_⟩
  have hlt : i < (inbound.filter InboundFuture.isFinished).length :=
    (List.getElem?_eq_some_iff.mp hi).1
  simp only [pollNext, Nat.mod_eq_of_lt hlt, hi]

/-- The handler can be polled until it consumes a given cancelled future
and says it has nothing to do. What comes first goes out first. -/
theorem exists_drained_canceled (h : Handler) {channel : ChannelId}
    (hmem : ⟨channel, .canceled⟩ ∈ h.inbound) :
    ∃ reported h', Drained h reported h' ∧
      h'.inbound = h.inbound.erase ⟨channel, .canceled⟩ := by
  obtain ⟨timeout, keepAlive, events, inbound, outbound, error⟩ := h
  dsimp only at hmem
  obtain ⟨pick, hpick⟩ := exists_pick hmem rfl
  have hempty : ∃ reported h', Drained ⟨timeout, keepAlive, [], inbound, [], none⟩ reported h' ∧
      h'.inbound = inbound.erase ⟨channel, .canceled⟩ := by
    refine ⟨[], (poll ⟨timeout, keepAlive, [], inbound, [], none⟩ 0 pick).1, .pending 0 pick ?_, ?_⟩
    · simp only [poll, hpick]
      split <;> rfl
    · simp only [poll, hpick]
      split <;> rfl
  have houtbound : ∃ reported h',
      Drained ⟨timeout, keepAlive, [], inbound, outbound, none⟩ reported h' ∧
        h'.inbound = inbound.erase ⟨channel, .canceled⟩ := by
    induction outbound with
    | nil => exact hempty
    | cons request rest ih =>
      obtain ⟨reported, h', hd, hin⟩ := ih
      exact ⟨_, h', .ready 0 0 rfl hd, hin⟩
  have hevents : ∃ reported h',
      Drained ⟨timeout, keepAlive, events, inbound, outbound, none⟩ reported h' ∧
        h'.inbound = inbound.erase ⟨channel, .canceled⟩ := by
    induction events with
    | nil => exact houtbound
    | cons e rest ih =>
      obtain ⟨reported, h', hd, hin⟩ := ih
      exact ⟨_, h', .ready 0 0 rfl hd, hin⟩
  cases error with
  | none => exact hevents
  | some e =>
    obtain ⟨reported, h', hd, hin⟩ := hevents
    exact ⟨_, h', .ready 0 0 rfl hd, hin⟩

/-- **`poll` never sleeps on ready work exactly when no cancelled future
waits next to a completed one.** The `if let` of `poll` treats a cancelled
future like an empty set: it is consumed and `Pending` returned, whatever
else is finished. -/
theorem poll_never_sleeps_iff (h : Handler) :
    (∀ reported h', Drained h reported h' →
      h'.Idle ∧ ∀ channel r m, ⟨channel, .received r m⟩ ∈ h.inbound →
        .custom (.request r m channel) ∈ reported) ↔ ¬ h.Mixed := by
  constructor
  · rintro hall ⟨⟨channel, hcanceled⟩, channel', r, m, hreceived⟩
    obtain ⟨reported, h', hd, hin⟩ := h.exists_drained_canceled hcanceled
    refine (hall reported h' hd).1.received channel' r m ?_
    rw [hin]
    exact (List.mem_erase_of_ne (by simp)).mpr hreceived
  · intro hm reported h' hd
    exact hd.complete hm

/-- A cancelled future is yielded before a completed one: `Pending`, and
the request stays. -/
theorem poll_sleeps_on_request : ∃ h : Handler, ∃ now pick, (h.poll now pick).2 = none ∧
    ⟨⟨1⟩, .received (.nth 1) ⟨"a"⟩⟩ ∈ (h.poll now pick).1.inbound ∧
    ¬ ∀ reported h', Drained h reported h' → h'.Idle := by
  refine ⟨{ Handler.new 10 with
    inbound := [⟨⟨0⟩, .canceled⟩, ⟨⟨1⟩, .received (.nth 1) ⟨"a"⟩⟩] }, 0, 0, by decide, by decide,
    fun hall => ?_⟩
  exact (hall _ _ (.pending 0 0 rfl)).received ⟨1⟩ (.nth 1) ⟨"a"⟩ (by decide)

end Handler

end FileSharing
