/-
FileSharing.FileGet.KeepAlive — the idle deadline of a handler against the
transfers it has started.

A handler on its own is a machine too: its steps are the calls that the
connection task makes, and the two things an upgrade can do to the
handler's end of a request channel, each at a time of a clock that does
not run backwards. `keep_alive` is set in three places. A command sets it
to `Yes`, an announced request does, and a `poll` that finds nothing to do
turns `Yes` into `Until(now + 2 * timeout)`. So when it is `Until(t)`, the
outbound queue is empty and everything handed out so far was handed out at
least `2 * timeout` before `t`.

The machine computes with unbounded instants: an `Instant` and a
`Duration` for which `now + 2 * timeout` is representable are such
numbers.
-/
import FileSharing.Lib.Transition
import FileSharing.FileGet.HandlerTheorems

namespace FileSharing

open Lib

/-! ## The calls -/

/-- What happens to a handler. -/
inductive HandlerCall where
  | listenProtocol (generator : RequestIdGenerator) (channel : ChannelId)
  | onBehaviourEvent (request : FileGetOutboundProtocol)
  | onConnectionEvent (event : ConnectionEvent)
  | connectionKeepAlive
  | poll (pick : Nat)
  /-- An upgrade of the connection passes its request on. -/
  | requestSent (channel : ChannelId) (requestId : RequestId) (message : FileGetMessage)
  /-- An upgrade of the connection ends before it has. -/
  | requestCanceled (channel : ChannelId)

/-- The handler after a call. -/
def Handler.called (h : Handler) (now : Instant) : HandlerCall → Handler
  | .listenProtocol generator channel => (h.listenProtocol generator channel).1
  | .onBehaviourEvent request => h.onBehaviourEvent request
  | .onConnectionEvent event => h.onConnectionEvent event
  | .connectionKeepAlive => h
  | .poll pick => (h.poll now pick).1
  | .requestSent channel requestId message => h.requestSent channel requestId message
  | .requestCanceled channel => h.requestCanceled channel

/-- A handler and the time of the last call. -/
structure TimedHandler where
  handler : Handler
  clock : Instant

/-- A call and its time. -/
structure TimedCall where
  now : Instant
  call : HandlerCall

/-- A handler as a machine: any call, at a time that is not before the
last one. -/
def handlerMachine (timeout : Duration) (start : Instant) :
    Machine TimedHandler TimedCall Panic where
  init := ⟨.new timeout, start⟩
  allowed := fun s a => s.clock ≤ a.now
  step := fun s a => .ok ⟨s.handler.called a.now a.call, a.now⟩

instance (timeout : Duration) (start : Instant) (s : TimedHandler) (a : TimedCall) :
    Decidable ((handlerMachine timeout start).allowed s a) :=
  inferInstanceAs (Decidable (s.clock ≤ a.now))

/-- What the `poll` of a step returned. -/
def polledEvent (u : Transition TimedHandler TimedCall) : Option ConnectionHandlerEvent :=
  match u.label.call with
  | .poll pick => (u.pre.handler.poll u.label.now pick).2
  | _ => none

/-- The event starts a transfer: a substream is asked for, or a request of
the remote is announced. -/
def ConnectionHandlerEvent.startsTransfer : ConnectionHandlerEvent → Bool
  | .outboundSubstreamRequest _ _ _ => true
  | .custom (.request _ _ _) => true
  | _ => false

/-! ## The invariant -/

/-- The handler's deadline, if it has one, is `2 * timeout` after every
transfer so far. Its queue of events announces no requests: those come out
of the futures. -/
structure Outlasts (timeout : Duration) (tr : Trace TimedHandler TimedCall) (s : TimedHandler) :
    Prop where
  timeout_eq : s.handler.timeout = timeout
  queued : ∀ e ∈ s.handler.pendingEvents, (ConnectionHandlerEvent.custom e).startsTransfer = false
  clock : ∀ u ∈ tr, u.label.now ≤ s.clock
  outbound : ∀ t, s.handler.keepAlive = .until t → s.handler.outbound = []
  transfers : ∀ t, s.handler.keepAlive = .until t → ∀ u ∈ tr, ∀ e, polledEvent u = some e →
    e.startsTransfer = true → u.label.now + timeout * 2 ≤ t

namespace Outlasts

variable {timeout : Duration} {tr : Trace TimedHandler TimedCall} {s : TimedHandler}
  {now : Instant} {call : HandlerCall}

/-- The part of the invariant that is about the clock. -/
theorem clock_step (ho : Outlasts timeout tr s) (hnow : s.clock ≤ now) (s' : TimedHandler) :
    ∀ u ∈ (⟨s, ⟨now, call⟩, s'⟩ :: tr : Trace TimedHandler TimedCall), u.label.now ≤ now := by
  intro u hu
  rcases List.mem_cons.mp hu with rfl | hu
  · exact Nat.le_refl _
  · exact Nat.le_trans (ho.clock u hu) hnow

/-- A call that starts no transfer and leaves the deadline and the outbound
queue alone. -/
theorem of_same (ho : Outlasts timeout tr s) (hnow : s.clock ≤ now) {h' : Handler}
    (htimeout : h'.timeout = s.handler.timeout)
    (hqueued : ∀ e ∈ h'.pendingEvents, (ConnectionHandlerEvent.custom e).startsTransfer = false)
    (hkeep : h'.keepAlive = s.handler.keepAlive)
    (hout : s.handler.outbound = [] → h'.outbound = [])
    (hevent : ∀ e, polledEvent ⟨s, ⟨now, call⟩, ⟨h', now⟩⟩ = some e → e.startsTransfer = false) :
    Outlasts timeout (⟨s, ⟨now, call⟩, ⟨h', now⟩⟩ :: tr) ⟨h', now⟩ where
  timeout_eq := htimeout.trans ho.timeout_eq
  queued := hqueued
  clock := ho.clock_step hnow _
  outbound t ht := hout (ho.outbound t (hkeep ▸ ht))
  transfers t ht u hu e he hstarts := by
    rcases List.mem_cons.mp hu with rfl | hu
    · rw [hevent e he] at hstarts
      cases hstarts
    · exact ho.transfers t (hkeep ▸ ht) u hu e he hstarts

/-- A call after which the handler has no deadline. -/
theorem of_yes (ho : Outlasts timeout tr s) (hnow : s.clock ≤ now) {h' : Handler}
    (htimeout : h'.timeout = s.handler.timeout)
    (hqueued : ∀ e ∈ h'.pendingEvents, (ConnectionHandlerEvent.custom e).startsTransfer = false)
    (hyes : ∀ t, h'.keepAlive ≠ .until t) :
    Outlasts timeout (⟨s, ⟨now, call⟩, ⟨h', now⟩⟩ :: tr) ⟨h', now⟩ where
  timeout_eq := htimeout.trans ho.timeout_eq
  queued := hqueued
  clock := ho.clock_step hnow _
  outbound t ht := absurd ht (hyes t)
  transfers t ht := absurd ht (hyes t)

/-- A poll. -/
theorem poll (ho : Outlasts timeout tr s) (hnow : s.clock ≤ now) (pick : Nat) :
    Outlasts timeout (⟨s, ⟨now, .poll pick⟩, ⟨(s.handler.poll now pick).1, now⟩⟩ :: tr)
      ⟨(s.handler.poll now pick).1, now⟩ := by
  have hp := s.handler.polled now pick
  have hevent : polledEvent ⟨s, ⟨now, .poll pick⟩, ⟨(s.handler.poll now pick).1, now⟩⟩ =
      (s.handler.poll now pick).2 := rfl
  generalize s.handler.poll now pick = result at hp hevent ⊢
  cases hp with
  | close error _ =>
    refine ho.of_same hnow rfl ho.queued rfl (fun h => h) fun e he => ?_
    rw [hevent] at he
    cases he
    rfl
  | event e rest hq =>
    have hqueued := ho.queued
    rw [hq] at hqueued
    refine ho.of_same hnow rfl (fun x hx => hqueued x (List.mem_cons_of_mem _ hx)) rfl (fun h => h)
      fun x hx => ?_
    rw [hevent] at hx
    cases hx
    exact hqueued e List.mem_cons_self
  | outbound request rest hq =>
    -- a queued request keeps the handler without a deadline
    refine ho.of_yes hnow rfl ho.queued fun t ht => ?_
    have hnil := ho.outbound t ht
    rw [hq] at hnil
    cases hnil
  | request channel r m _ => exact ho.of_yes hnow rfl ho.queued (by simp)
  | pending inbound keepAlive _ _ hout _ hkeep =>
    rcases hkeep with rfl | rfl
    · refine ho.of_same hnow rfl ho.queued rfl (fun h => h) fun e he => ?_
      rw [hevent] at he
      cases he
    · -- the new deadline is counted from now, and every transfer was before
      refine ⟨ho.timeout_eq, ho.queued, ho.clock_step hnow _, fun _ _ => hout,
        fun t ht u hu e he _ => ?_⟩
      obtain rfl : now + s.handler.timeout * 2 = t := KeepAlive.until.inj ht
      rw [ho.timeout_eq]
      exact Nat.add_le_add_right (ho.clock_step hnow _ u hu) _

/-- An event of the connection queues at most one event, and no request. -/
theorem onConnectionEvent (ho : Outlasts timeout tr s) (hnow : s.clock ≤ now)
    (event : ConnectionEvent) :
    Outlasts timeout
      (⟨s, ⟨now, .onConnectionEvent event⟩, ⟨s.handler.onConnectionEvent event, now⟩⟩ :: tr)
      ⟨s.handler.onConnectionEvent event, now⟩ := by
  have hqueue : ∀ x : FileGetHandlerEvent,
      (ConnectionHandlerEvent.custom x).startsTransfer = false →
      Outlasts timeout
        (⟨s, ⟨now, .onConnectionEvent event⟩, ⟨s.handler.queue x, now⟩⟩ :: tr)
        ⟨s.handler.queue x, now⟩ := by
    intro x hx
    refine ho.of_same hnow rfl (fun e he => ?_) rfl (fun h => h) (fun e he => by cases he)
    rcases List.mem_append.mp he with he | he
    · exact ho.queued e he
    · rw [List.mem_singleton.mp he]
      exact hx
  have hsame : ∀ error, Outlasts timeout
      (⟨s, ⟨now, .onConnectionEvent event⟩, ⟨{ s.handler with pendingError := error }, now⟩⟩ :: tr)
      ⟨{ s.handler with pendingError := error }, now⟩ := fun error =>
    ho.of_same hnow rfl ho.queued rfl (fun h => h) (fun e he => by cases he)
  cases event with
  | fullyNegotiatedInbound sent r => cases sent <;> exact hqueue _ rfl
  | fullyNegotiatedOutbound r => exact hqueue _ rfl
  | listenUpgradeError error r =>
    cases error with
    | timeout | upgrade _ => exact hqueue _ rfl
    | timer => exact hsame _
  | dialUpgradeError error r =>
    cases error with
    | timeout | upgrade _ => exact hqueue _ rfl
    | timer => exact hsame _
  | addressChange => exact hsame s.handler.pendingError

theorem step (ho : Outlasts timeout tr s) (hnow : s.clock ≤ now) :
    Outlasts timeout (⟨s, ⟨now, call⟩, ⟨s.handler.called now call, now⟩⟩ :: tr)
      ⟨s.handler.called now call, now⟩ := by
  cases call with
  | poll pick => exact ho.poll hnow pick
  | onBehaviourEvent request =>
    exact ho.of_yes hnow rfl ho.queued (by simp [Handler.called, Handler.onBehaviourEvent])
  | onConnectionEvent event => exact ho.onConnectionEvent hnow event
  | listenProtocol | connectionKeepAlive | requestSent | requestCanceled =>
    exact ho.of_same hnow rfl ho.queued rfl (fun h => h) (fun e he => by cases he)

end Outlasts

/-- A substream is asked for with the handler's timeout. -/
theorem polledEvent_timeout {u : Transition TimedHandler TimedCall}
    {request : FileGetOutboundProtocol} {info : RequestId} {d : Duration}
    (he : polledEvent u = some (.outboundSubstreamRequest request info d)) :
    d = u.pre.handler.timeout := by
  unfold polledEvent at he
  split at he
  · rename_i pick _
    have hp := u.pre.handler.polled u.label.now pick
    generalize u.pre.handler.poll u.label.now pick = result at hp he
    cases hp with
    | outbound request' rest _ =>
      cases he
      rfl
    | close | event | request | pending => cases he
  · cases he

/-- **In every run of a handler its deadline outlasts its transfers.** -/
theorem run_outlasts {timeout : Duration} {start : Instant} {tr : Trace TimedHandler TimedCall}
    {s : TimedHandler} (h : (handlerMachine timeout start).Run tr s) :
    Outlasts timeout tr s := by
  induction h with
  | start => exact ⟨rfl, by simp [handlerMachine, Handler.new], by simp,
      by simp [handlerMachine, Handler.new], by simp⟩
  | next hrun hallowed hok ih =>
    obtain rfl := Except.ok.inj hok
    exact ih.step hallowed

/-- **Keep-alive outlasts every accepted request.** When
`connection_keep_alive` is `Until(t)`, the outbound queue is empty, and
every substream asked for at a time `s` (with the handler's timeout) and
every request announced at a time `s` has `s + 2 * timeout ≤ t`. -/
theorem keepAlive_outlasts_transfers {timeout : Duration} {start : Instant}
    {tr : Trace TimedHandler TimedCall} {s : TimedHandler}
    (h : (handlerMachine timeout start).Run tr s) {t : Instant}
    (hkeep : s.handler.connectionKeepAlive = .until t) :
    s.handler.outbound = [] ∧
    (∀ u ∈ tr, ∀ request info d, polledEvent u = some (.outboundSubstreamRequest request info d) →
      d = timeout ∧ u.label.now + 2 * timeout ≤ t) ∧
    ∀ u ∈ tr, ∀ r m channel, polledEvent u = some (.custom (.request r m channel)) →
      u.label.now + 2 * timeout ≤ t := by
  have ho := run_outlasts h
  have hstarts : ∀ u ∈ tr, ∀ e, polledEvent u = some e → e.startsTransfer = true →
      u.label.now + 2 * timeout ≤ t := by
    intro u hu e he hs
    rw [Nat.mul_comm 2 timeout]
    exact ho.transfers t hkeep u hu e he hs
  refine ⟨ho.outbound t hkeep, fun u hu request info d he => ⟨?_, hstarts u hu _ he rfl⟩,
    fun u hu r m channel he => hstarts u hu _ he rfl⟩
  obtain ⟨newer, older, rfl⟩ := List.append_of_mem hu
  rw [← (run_outlasts h.of_append.1).timeout_eq]
  exact polledEvent_timeout he

/-- A request is handed out at time 5, the handler is found idle at time 7:
it stays until 27. -/
theorem keepAlive_outlasts_transfers_idle : ∃ tr s, (handlerMachine 10 0).Run tr s ∧
    s.handler.connectionKeepAlive = .until 27 ∧ ∃ u ∈ tr, ∃ request info d,
      polledEvent u = some (.outboundSubstreamRequest request info d) ∧
      u.label.now + 2 * 10 ≤ 27 := by
  obtain ⟨tr, s, hrun, hP⟩ := Machine.exists_run_of_labels (M := handlerMachine 10 0)
    [⟨3, .onBehaviourEvent ⟨.nth 0, "a", ⟨[]⟩⟩⟩, ⟨5, .poll 0⟩, ⟨7, .poll 0⟩]
    (fun tr s => decide (s.handler.connectionKeepAlive = .until 27 ∧
      ∃ u ∈ tr, polledEvent u =
        some (.outboundSubstreamRequest ⟨.nth 0, "a", ⟨[]⟩⟩ (.nth 0) 10))) (by decide) (by decide)
  obtain ⟨hkeep, u, hu, he⟩ := of_decide_eq_true hP
  exact ⟨tr, s, hrun, hkeep, u, hu, _, _, _, he,
    ((keepAlive_outlasts_transfers hrun hkeep).2.1 u hu _ _ _ he).2⟩

end FileSharing
