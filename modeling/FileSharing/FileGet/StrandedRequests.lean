/-
FileSharing.FileGet.StrandedRequests — what is lost with a connection task.

A request that waits on a connection is answered by the task of that
connection. Three steps end a running task (`Link.EndsTask`): its handler
asks for the close, an upgrade panics over a sender that is gone, the
connection is closed. The first two leave the connection in the tables: the
behaviour still hands it requests, and nothing comes back. Such a request is
`Stranded`, unless its response is among the events the task has left behind.

`stranded_before` lists how a request gets stranded: its task ends, or it is
handed to a connection whose task is over. `reaches_after` says the same of
a peer: it can be reached until the last task that leads to it ends.
-/
import FileSharing.FileGet.PanickedTasks
import FileSharing.FileGet.Responses

namespace FileSharing

open Lib FileGet

/-! ## Tasks that end -/

namespace Link

/-- The step ends the task of the connection. -/
inductive EndsTask (l : Link) : Label → Prop where
  | asksClose (now : Instant) (pick : Nat) (error : ConnectionHandlerUpgrErr) :
      (l.handler.poll now pick).2 = some (.close error) → EndsTask l (.pollHandler l.id now pick)
  | panics (sub : InboundSubstream) : sub ∈ l.inbound → sub.response = .dropped →
      EndsTask l (.inbound l.id sub.channel .pollReader)
  | closed (p : PeerId) (o i : IterOrder RequestId) : EndsTask l (.connectionClosed p l.id o i)

theorem deliverCommand_closing (l : Link) : l.deliverCommand.closing = l.closing := by
  unfold deliverCommand
  split <;> rfl

theorem endOutbound_closing (l : Link) (i : Nat)
    (result : Except ConnectionHandlerUpgrErr Unit) :
    (l.endOutbound i result).closing = l.closing := by
  unfold endOutbound
  split <;> rfl

theorem resumeInbound_closing (l : Link) (sub : InboundSubstream) (wake : InboundWake) :
    (l.resumeInbound sub wake).closing = l.closing := by
  unfold resumeInbound
  split
  · split <;> rfl
  · rfl
  · rfl
  · rfl

theorem inboundEvent_closing (l : Link) (ch : ChannelId) (event : InboundEvent) :
    (l.inboundEvent ch event).closing = l.closing := by
  unfold inboundEvent
  split
  · rfl
  · rename_i sub _
    cases event with
    | received result => exact l.resumeInbound_closing sub _
    | pollReader =>
      dsimp only
      split
      · rfl
      · exact l.resumeInbound_closing sub _
      · exact l.resumeInbound_closing sub _
    | copied result => exact l.resumeInbound_closing sub _
    | fails _ | otherProtocol => rfl

theorem isLive_iff {l : Link} : l.isLive = true ↔ l.closing = none ∧ l.panicked = none := by
  simp [isLive]

/-- A task runs as long as nothing it depends on changes. -/
theorem isLive_congr {l l' : Link} (hclosing : l'.closing = l.closing)
    (hpanicked : l'.panicked = l.panicked) : l'.isLive = l.isLive := by
  unfold isLive
  rw [hclosing, hpanicked]

end Link

/-- The connection whose task a step may end. -/
def Label.target? : Label → Option ConnectionId
  | .pollHandler c _ _ => some c
  | .inbound c _ _ => some c
  | .connectionClosed _ c _ _ => some c
  | _ => none

/-- A step ends the task of one connection. -/
theorem Link.EndsTask.target {l : Link} {a : Label} (h : l.EndsTask a) : a.target? = some l.id := by
  cases h <;> rfl

theorem Link.EndsTask.id_eq {l k : Link} {a : Label} (h : l.EndsTask a) (h' : k.EndsTask a) :
    l.id = k.id :=
  Option.some.inj (h.target.symm.trans h'.target)

section Steps

variable {s s' : System} {a : Label} {l l' : Link} {p : PeerId} {r : RequestId}

/-- **A task ends in no other way.** -/
theorem LinkStepped.endsTask (h : LinkStepped s a l l') (hlive : l.isLive = true)
    (hover : l'.isLive = false) : l.EndsTask a := by
  have hsame : l'.isLive = l.isLive → l.EndsTask a := by
    intro heq
    rw [heq, hlive] at hover
    cases hover
  obtain ⟨-, hrun⟩ := Link.isLive_iff.mp hlive
  cases h with
  | aside _ _ | readdressed _ _ _ | commanded _ _ | delivered _ _ _ _ | opened _ | told _ _ _ =>
    exact hsame rfl
  | task f hf =>
    cases hf with
    | deliverCommand =>
      exact hsame (Link.isLive_congr l.deliverCommand_closing l.deliverCommand_panicked)
    | endOutbound _ i result =>
      exact hsame (Link.isLive_congr (l.endOutbound_closing i result)
        (l.endOutbound_panicked i result))
    | pollHandler _ now pick =>
      cases hpoll : l.handler.poll now pick with
      | mk handler event =>
        cases event with
        | none => exact hsame (by simp [Link.pollHandler, hpoll, Link.isLive])
        | some event =>
          cases event with
          | custom e => exact hsame (by simp [Link.pollHandler, hpoll, Link.isLive])
          | outboundSubstreamRequest _ _ _ =>
            exact hsame (by simp [Link.pollHandler, hpoll, Link.isLive])
          | close error => exact .asksClose now pick error (by rw [hpoll])
    | inbound _ ch event =>
      by_cases hpanics : (l.inboundEvent ch event).panicked = none
      · exact hsame (Link.isLive_congr (l.inboundEvent_closing ch event) (hpanics.trans hrun.symm))
      · obtain ⟨rfl, -, sub, hsub, rfl, hdropped⟩ := Link.inboundEvent_panics hrun hpanics
        exact .panics sub hsub hdropped

/-! ## Peers -/

theorem System.reaches_iff : s.reaches p = true ↔ ∃ l ∈ s.links, l.peer = p ∧ l.isLive = true := by
  simp [System.reaches]

theorem System.cutOff_iff :
    s.cutOff p = true ↔ (∃ l ∈ s.links, l.peer = p) ∧ s.reaches p = false := by
  simp [System.cutOff, System.linksOf]

/-- The step ends the last task that leads to the peer. -/
def EndsLast (s : System) (p : PeerId) (a : Label) : Prop :=
  ∃ l ∈ s.links, l.peer = p ∧ l.isLive = true ∧ l.EndsTask a ∧
    ∀ k ∈ s.links, k.peer = p → k.isLive = true → k.id = l.id

theorem not_endsLast_of_target (h : a.target? = none) : ¬ EndsLast s p a := by
  rintro ⟨l, -, -, -, hend, -⟩
  rw [hend.target] at h
  cases h

/-- **A peer can be reached until the last task that leads to it ends.** -/
theorem reaches_after (hm : Mirror s) (h : Stepped s a s') (hreach : s.reaches p = true)
    (hno : ¬ EndsLast s p a) : s'.reaches p = true := by
  rw [System.reaches_iff] at hreach ⊢
  obtain ⟨l, hl, hp, hlive⟩ := hreach
  cases stepped_linksStepped hm h with
  | established q c ep resolves timeout _ hlinks =>
    exact ⟨l, hlinks ▸ List.mem_append_left _ hl, hp, hlive⟩
  | each g hg hlinks =>
    by_contra hnone
    push Not at hnone
    have hends : ∀ k ∈ s.links, k.peer = p → k.isLive = true → k.EndsTask a := by
      intro k hk hkp hklive
      refine (hg k hk).endsTask hklive ?_
      have hmem : g k ∈ s'.links := hlinks ▸ List.mem_map_of_mem hk
      simpa using hnone (g k) hmem ((hg k hk).keeps.2.trans hkp)
    have hend := hends l hl hp hlive
    exact hno ⟨l, hl, hp, hlive, hend, fun k hk hkp hklive => (hends k hk hkp hklive).id_eq hend⟩
  | closed q c o i ha hlinks =>
    by_contra hnone
    push Not at hnone
    have hid : ∀ k ∈ s.links, k.peer = p → k.isLive = true → k.id = c := by
      intro k hk hkp hklive
      by_contra hne
      have hmem : k ∈ s'.links := by
        rw [hlinks]
        exact List.mem_filter.mpr ⟨hk, by simpa using hne⟩
      exact hnone k hmem hkp hklive
    have hend : l.EndsTask a := by
      rw [ha, ← hid l hl hp hlive]
      exact .closed q o i
    exact hno ⟨l, hl, hp, hlive, hend, fun k hk hkp hklive =>
      (hid k hk hkp hklive).trans (hid l hl hp hlive).symm⟩

/-- A peer is cut off in no other way. -/
theorem not_cutOff_after (hm : Mirror s) (h : Stepped s a s') (hcut : s.cutOff p = false)
    (hno : ¬ EndsLast s p a) : s'.cutOff p = false := by
  by_contra hafter
  obtain ⟨⟨l', hl', hp⟩, hlost⟩ := System.cutOff_iff.mp (Bool.not_eq_false _ ▸ hafter)
  by_cases hreach : s.reaches p = true
  · rw [reaches_after hm h hreach hno] at hlost
    cases hlost
  · -- no connection leads there, so the one that does now is new
    have hnone : ∀ l ∈ s.links, l.peer ≠ p := by
      intro l hl hlp
      have := System.cutOff_iff.mpr ⟨⟨l, hl, hlp⟩, by simpa using hreach⟩
      rw [hcut] at this
      cases this
    cases stepped_linksStepped hm h with
    | each g hg hlinks =>
      rw [hlinks] at hl'
      obtain ⟨l, hl, rfl⟩ := List.mem_map.mp hl'
      exact hnone l hl ((hg l hl).keeps.2.symm.trans hp)
    | closed q c o i _ hlinks =>
      rw [hlinks] at hl'
      exact hnone l' (List.mem_of_mem_filter hl') hp
    | established q c ep resolves timeout _ hlinks =>
      have hmem := hl'
      rw [hlinks] at hl'
      rcases List.mem_append.mp hl' with hold | hnew
      · exact hnone l' hold hp
      · have hlive : l'.isLive = true := by
          rw [List.mem_singleton.mp hnew]
          rfl
        rw [System.reaches_iff.mpr ⟨l', hmem, hp, hlive⟩] at hlost
        cases hlost

/-! ## Requests -/

/-- The request waits on a connection whose task is over, and its response
is not among what the task has left. -/
def System.Stranded (s : System) (r : RequestId) : Prop :=
  ∃ l ∈ s.links, s.fileGet.Waiting l.peer l.id r ∧ l.isLive = false ∧ .response r ∉ l.events

/-- The step ends the task that the request waits for. -/
def Strands (s : System) (r : RequestId) (a : Label) : Prop :=
  ∃ l ∈ s.links, s.fileGet.Waiting l.peer l.id r ∧ l.EndsTask a ∧ .response r ∉ l.events

theorem InboundMoved.events_prefix (h : InboundMoved a l l') : l.events <+: l'.events := by
  cases h with
  | aside _ _ _ _ _ he | consumed _ _ _ he | passed _ _ _ _ _ _ he | copies _ _ _ _ _ _ _ he
  | ended _ _ _ _ _ _ _ he => exact he ▸ List.prefix_rfl
  | emitted _ _ _ _ he | announced _ _ _ _ _ _ _ he => exact he ▸ List.prefix_append _ _

/-- What a task has emitted stays until it is delivered. -/
theorem LinkMoved.mem_events (h : LinkMoved s a l l') {e : FileGetHandlerEvent}
    (he : e ∈ l.events) :
    e ∈ l'.events ∨ a = .deliverEvent l.id ∧ ∃ rest, l.events = e :: rest := by
  cases h with
  | moved l' _ hmoved => exact Or.inl (hmoved.events_prefix.subset he)
  | opened _ | told _ _ _ => exact Or.inl he
  | delivered e' rest ha hev =>
    rw [hev] at he
    rcases List.mem_cons.mp he with rfl | hrest
    · exact Or.inr ⟨ha, rest, hev⟩
    · left
      unfold Link.dropEvent
      dsimp only
      rw [hev]
      exact hrest

/-- After an event of a handler. -/
theorem stepped_deliverEvent (hm : Mirror s) {e : FileGetHandlerEvent}
    {rest : List FileGetHandlerEvent} (hl : s.link? l.id = some l) (he : l.events = e :: rest)
    (h : Stepped s (.deliverEvent l.id) s') :
    s'.fileGet = s.fileGet.afterEvent l.peer l.id e := by
  generalize ha : Label.deliverEvent l.id = a at h
  cases h with
  | deliverEvent l' conn e' rest' hl' he' _ _ =>
    -- the link with the id is the one that was looked up
    have hid : l.id = l'.id := Label.deliverEvent.inj ha
    have hlink := hm.link?_eq hl'
    rw [← hid, hl] at hlink
    obtain rfl := Option.some.inj hlink
    rw [he] at he'
    rw [(List.cons.inj he').1]
  | link a c f hf =>
    subst ha
    cases hf
  | _ => cases ha

/-- A new connection has a task. -/
theorem stepped_connectionEstablished {c : ConnectionId} {ep : ConnectedPoint} {resolves : Bool}
    (h : Stepped s (.connectionEstablished p c ep resolves) s') :
    ∃ l ∈ s'.links, l.id = c ∧ l.isLive = true := by
  cases h with
  | established _ _ _ _ _ _ _ | drained _ _ _ _ pending fg _ _ _ _ _ _ =>
    exact ⟨_, List.mem_append_right _ (List.mem_singleton.mpr rfl), rfl, rfl⟩
  | link _ _ _ hf => cases hf

/-- What waits on a connection waited there before, is new, or was
buffered. -/
theorem Moved.waiting_before (h : Moved s s' a) {q : PeerId} {d : ConnectionId}
    (hw : s'.fileGet.Waiting q d r) :
    s.fileGet.Waiting q d r ∨
    (∃ m w, a = .sendRequest q m w ∧ r = (s.fileGet.newRequest m w).requestId) ∨
    ∃ ep resolves, a = .connectionEstablished q d ep resolves := by
  cases h with
  | stay _ _ _ hwait | buffered _ _ _ _ hwait | dialFailed _ _ _ hwait _ =>
    exact Or.inl ((hwait q d r).mp hw)
  | dispatched p m w c _ hwait =>
    rcases (hwait q d r).mp hw with hold | ⟨rfl, rfl, rfl⟩
    · exact Or.inl hold
    · exact Or.inr (Or.inl ⟨m, w, rfl, rfl⟩)
  | drained p c ep resolves _ hwait =>
    rcases (hwait q d r).mp hw with hold | ⟨rfl, rfl, -⟩
    · exact Or.inl hold
    · exact Or.inr (Or.inr ⟨ep, resolves, rfl⟩)
  | closed _ _ _ _ _ _ hwait _ | completed _ _ _ _ _ _ _ _ hwait _ =>
    exact Or.inl ((hwait q d r).mp hw).1

/-- **How a request gets stranded**: its task ends, or it is handed to a
connection without one. -/
theorem stranded_before (hm : Mirror s) (hallowed : s.Allowed a = true) (h : Stepped s a s')
    (hs : s'.Stranded r) :
    s.Stranded r ∨ Strands s r a ∨
      ∃ p m w, a = .sendRequest p m w ∧ r = (s.fileGet.newRequest m w).requestId := by
  obtain ⟨l', hl', hw', hover, hnone⟩ := hs
  rcases (stepped_moved hm h).waiting_before hw' with hw | ⟨m, w, ha, hr⟩ | ⟨ep, resolves, rfl⟩
  · cases stepped_linksStepped hm h with
    | each g hg hlinks =>
      rw [hlinks] at hl'
      obtain ⟨l, hl, rfl⟩ := List.mem_map.mp hl'
      obtain ⟨hid, hp⟩ := (hg l hl).keeps
      rw [hid, hp] at hw hw'
      have hleft : .response r ∉ l.events := by
        intro hmem
        rcases ((hg l hl).moved hm hallowed hl).mem_events hmem with hmem | ⟨rfl, rest, hev⟩
        · exact hnone hmem
        · -- a response that is delivered is waited for no more
          rw [stepped_deliverEvent hm (hm.link?_eq hl) hev h] at hw'
          exact ((afterEvent_waiting hm.wf _).mp hw').2 ⟨rfl, rfl, rfl⟩
      by_cases hlive : l.isLive = true
      · exact Or.inr (Or.inl ⟨l, hl, hw, (hg l hl).endsTask hlive hover, hleft⟩)
      · exact Or.inl ⟨l, hl, hw, by simpa using hlive, hleft⟩
    | established _ _ _ _ _ _ hlinks =>
      rw [hlinks] at hl'
      rcases List.mem_append.mp hl' with hold | hnew
      · exact Or.inl ⟨l', hold, hw, hover, hnone⟩
      · rw [List.mem_singleton.mp hnew] at hover
        cases hover
    | closed _ _ _ _ _ hlinks =>
      rw [hlinks] at hl'
      exact Or.inl ⟨l', List.mem_of_mem_filter hl', hw, hover, hnone⟩
  · exact Or.inr (Or.inr ⟨l'.peer, m, w, ha, hr⟩)
  · obtain ⟨k, hk, hid, hlive⟩ := stepped_connectionEstablished h
    obtain rfl := List.inj_on_of_nodup_map (hm.step h).ids hk hl' hid
    rw [hlive] at hover
    cases hover

theorem not_strands_of_target (h : a.target? = none) : ¬ Strands s r a := by
  rintro ⟨l, -, -, hend, -⟩
  rw [hend.target] at h
  cases h

/-- The file can still come: the request is pending or its response on the
way, and it is not stranded. -/
def System.CanFetch (s : System) (r : RequestId) : Prop :=
  s.fileGet.Answerable r ∧ ¬ s.Stranded r

/-- A file that can come can come after a step too, unless the step gives
requests up, hands out the response, or ends the task. -/
theorem canFetch_after (hm : Mirror s) (hallowed : s.Allowed a = true) (h : Stepped s a s')
    (hno : ¬ FailsRequest s a) (hspares : ¬ Strands s r a) (hr : s.CanFetch r)
    (hnew : ∀ q, returned ⟨s, a, s'⟩ ≠ some (q, r))
    (hout : ∀ action rest, a = .pollBehaviour → s.fileGet.pendingEvents = action :: rest →
      action.response? ≠ some r) : s'.CanFetch r := by
  refine ⟨answerable_after hm h hno hr.1 hout, fun hstranded => ?_⟩
  rcases stranded_before hm hallowed h hstranded with hold | hends | ⟨q, m, w, ha, hid⟩
  · exact hr.2 hold
  · exact hspares hends
  · exact hnew q ((returned_eq_some (t := ⟨s, a, s'⟩) hm).mpr ⟨m, w, ha, hid⟩)

/-- The next request to the peer goes to a task that runs, or waits for a
dial. -/
def System.HandsToTask (s : System) (p : PeerId) : Prop :=
  ∀ conn, s.fileGet.chosenConnection p s.fileGet.requsetIdGenerator.nextId.1 = some conn →
    ∀ l ∈ s.links, l.id = conn.id → l.isLive = true

/-- A request that is handed to a task is not stranded. -/
theorem not_stranded_of_sent (hm : Mirror s) {m : FileGetMessage} {w : FileWriter} {fg : FileGet}
    (hs : s.fileGet.sendRequest p m w = .ok (fg, r)) (hnew : ∀ q d, ¬ s.fileGet.Waiting q d r)
    (hnext : s.HandsToTask p) : ¬ System.Stranded { s with fileGet := fg } r := by
  rintro ⟨l, hl, hw, hover, -⟩
  rcases sendRequest_spec hm.wf (p := p) m w with ⟨-, hs'⟩ | ⟨conn, hconn, fg', hs', hd⟩
  · rw [hs] at hs'
    obtain ⟨rfl, -⟩ := Prod.mk.inj (Except.ok.inj hs')
    exact hnew _ _ hw
  · rw [hs] at hs'
    obtain ⟨rfl, -⟩ := Prod.mk.inj (Except.ok.inj hs')
    rcases (hd.waiting _ _ _).mp hw with hold | ⟨-, hid, -⟩
    · exact hnew _ _ hold
    · rw [hnext conn hconn l hl hid] at hover
      cases hover

end Steps

end FileSharing
