/-
FileSharing.FileGet.InboundNumbers — an inbound request and its number.

`listen_protocol` is called once for every inbound substream, and the n-th
call of a run makes everything the request is known by: its id, the n-th
of the shared counter, its channel pair, and the connection it came on.
`opens` reads the connections off the run, so `(opens tr)[n]?` is the
connection of request n.

`Numbered` says that all parts of the system agree on it: wherever a
channel or an id of an inbound request turns up on a connection, in a
substream, a future, an event, the number was opened on that connection.
So two connections never speak of one request.
-/
import FileSharing.FileGet.Directions
import FileSharing.FileGet.InboundUpgrades

namespace FileSharing

open Lib FileGet

/-! ## Numbers -/

/-- The connection on which a step asks for the protocol of a substream. -/
def Label.opensOn : Label → List ConnectionId
  | .openInbound c => [c]
  | _ => []

/-- The connections of the inbound requests of a run, by their numbers. -/
def opens : Trace System Label → List ConnectionId
  | [] => []
  | t :: tr => opens tr ++ t.label.opensOn

theorem Label.length_opensOn (a : Label) : a.opensOn.length = a.opened := by
  cases a <;> rfl

theorem opens_length_le (t : Transition System Label) (tr : Trace System Label) :
    (opens tr).length ≤ (opens (t :: tr)).length := by
  rw [opens, List.length_append]
  exact Nat.le_add_right _ _

theorem opens_length_suffix {older tr : Trace System Label} (h : older <:+ tr) :
    (opens older).length ≤ (opens tr).length := by
  obtain ⟨newer, rfl⟩ := h
  induction newer with
  | nil => exact Nat.le_refl _
  | cons t newer ih => exact Nat.le_trans ih (opens_length_le t _)

/-- The connection of a request does not change. -/
theorem opens_cons {t : Transition System Label} {tr : Trace System Label} {k : Nat}
    {c : ConnectionId} (h : (opens tr)[k]? = some c) : (opens (t :: tr))[k]? = some c :=
  List.getElem?_append_left (List.getElem?_eq_some_iff.mp h).1 ▸ h

section DrawnOn

variable {on : List ConnectionId} {c d : ConnectionId}

/-- The id was drawn on the connection. -/
def DrawnOn (on : List ConnectionId) (r : RequestId) (c : ConnectionId) : Prop :=
  ∃ k : Nat, r = .nth k ∧ on[k]? = some c

theorem number_inj (hlen : on.length ≤ UInt64.size) {m n : Nat} (hm : on[m]? = some c)
    (hn : on[n]? = some d) (h : RequestId.nth m = .nth n) : m = n :=
  RequestId.nth_inj (Nat.lt_of_lt_of_le (List.getElem?_eq_some_iff.mp hm).1 hlen)
    (Nat.lt_of_lt_of_le (List.getElem?_eq_some_iff.mp hn).1 hlen) h

theorem channel_inj (hlen : on.length ≤ UInt64.size) {x y : ChannelId}
    (hx : on[x.key]? = some c) (hy : on[y.key]? = some d)
    (h : RequestId.nth x.key = .nth y.key) : x = y := by
  obtain ⟨m⟩ := x
  obtain ⟨n⟩ := y
  exact congrArg ChannelId.mk (number_inj hlen hx hy h)

/-- An id belongs to one connection. -/
theorem DrawnOn.unique (hlen : on.length ≤ UInt64.size) {r : RequestId} (h : DrawnOn on r c)
    (h' : DrawnOn on r d) : c = d := by
  obtain ⟨m, rfl, hm⟩ := h
  obtain ⟨n, heq, hn⟩ := h'
  rw [number_inj hlen hm hn heq, hn] at hm
  exact (Option.some.inj hm).symm

end DrawnOn

/-- The link and the run agree about the requests on the link. -/
structure Link.Numbered (on : List ConnectionId) (l : Link) : Prop where
  substream : ∀ sub ∈ l.inbound, on[sub.channel.key]? = some l.id ∧
    sub.info = .nth sub.channel.key ∧ sub.upgrade.requestId = .nth sub.channel.key
  future : ∀ f ∈ l.handler.inbound, on[f.channel.key]? = some l.id ∧
    ∀ r m, f.state = .received r m → r = .nth f.channel.key
  quiet : ∀ e ∈ l.handler.pendingEvents, e.announces = none
  announced : ∀ r m ch, .request r m ch ∈ l.events → on[ch.key]? = some l.id ∧ r = .nth ch.key
  concluded : ∀ e ∈ l.events ++ l.handler.pendingEvents, ∀ r, e.concludes = some r →
    DrawnOn on r l.id

namespace Link.Numbered

variable {on : List ConnectionId} {l l' : Link}

theorem mono {on' : List ConnectionId} (hn : l.Numbered on)
    (hon : ∀ {k : Nat} {c}, on[k]? = some c → on'[k]? = some c) : l.Numbered on' where
  substream sub hsub := ⟨hon (hn.substream sub hsub).1, (hn.substream sub hsub).2⟩
  future f hf := ⟨hon (hn.future f hf).1, (hn.future f hf).2⟩
  quiet := hn.quiet
  announced r m ch h := ⟨hon (hn.announced r m ch h).1, (hn.announced r m ch h).2⟩
  concluded e he r hr := by
    obtain ⟨k, hk, hc⟩ := hn.concluded e he r hr
    exact ⟨k, hk, hon hc⟩

/-- A link on which nothing has happened. -/
theorem empty (hin : l.inbound = []) (hfut : l.handler.inbound = [])
    (hpend : l.handler.pendingEvents = []) (hev : l.events = []) : l.Numbered on where
  substream := by simp [hin]
  future := by simp [hfut]
  quiet := by simp [hpend]
  announced := by simp [hev]
  concluded := by simp [hev, hpend]

/-- What the connection task does is about requests of its connection. -/
theorem moved {a : Label} (hn : l.Numbered on) (hid : l'.id = l.id) (h : InboundMoved a l l') :
    l'.Numbered on where
  substream x hx := by
    obtain ⟨y, hy, hup, hinfo, -⟩ := h.substream hx
    have hch : x.channel = y.channel := congrArg (·.requestSender) hup
    rw [hid, hch, hup, hinfo]
    exact hn.substream y hy
  future f hf := by
    obtain ⟨g, hg, hch, hstate⟩ := h.future hf
    obtain ⟨hon, hr⟩ := hn.future g hg
    rw [hid, hch]
    refine ⟨hon, fun r m hrec => ?_⟩
    rcases hstate with heq | hcanceled | ⟨sub, hsub, m', -, hsubch, hsent⟩
    · exact hr r m (heq ▸ hrec)
    · rw [hrec] at hcanceled
      cases hcanceled
    · rw [hrec] at hsent
      cases hsent
      exact hsubch ▸ (hn.substream sub hsub).2.2
  quiet e he := by
    rcases h.pending he with he | hnone | ⟨sub, -, queued, hend, he⟩
    · exact hn.quiet e he
    · exact (FileGetHandlerEvent.inboundId?_eq_none.mp hnone).1
    · exact FileGetHandlerEvent.announces_of_concludes (hend.concludes e he)
  announced r m ch he := by
    rw [hid]
    rcases h.event he with he | he | ⟨ch', r', m', heq, hmem⟩
    · exact hn.announced r m ch he
    · cases hn.quiet _ he
    · cases heq
      exact ⟨(hn.future _ hmem).1, (hn.future _ hmem).2 r m rfl⟩
  concluded e he r hr := by
    rw [hid]
    have hqueued : e ∈ l.events ++ l.handler.pendingEvents →
        DrawnOn on r l.id := fun he => hn.concluded e he r hr
    rcases List.mem_append.mp he with he | he
    · rcases h.event he with he | he | ⟨ch', r', m', rfl, -⟩
      · exact hqueued (List.mem_append_left _ he)
      · exact hqueued (List.mem_append_right _ he)
      · cases hr
    · rcases h.pending he with he | hnone | ⟨sub, hsub, queued, hend, he⟩
      · exact hqueued (List.mem_append_right _ he)
      · simp [FileGetHandlerEvent.inboundId?, hr] at hnone
      · have hinfo := hend.concludes e he
        rw [hr] at hinfo
        obtain ⟨hon, hsubinfo, -⟩ := hn.substream sub hsub
        exact ⟨sub.channel.key, (Option.some.inj hinfo).trans hsubinfo, hon⟩

/-- A substream is opened under the next number. -/
theorem opened (hn : l.Numbered on) {g : RequestIdGenerator} (hg : g.nextId.1 = .nth on.length) :
    (l.openInbound g ⟨on.length⟩).1.Numbered (on ++ [l.id]) := by
  have hlast : (on ++ [l.id])[on.length]? = some l.id := by simp
  have hold : l.Numbered (on ++ [l.id]) := hn.mono fun {k c} h =>
    (List.getElem?_append_left (List.getElem?_eq_some_iff.mp h).1).trans h
  refine ⟨fun sub hsub => ?_, fun f hf => ?_, hold.quiet, hold.announced, hold.concluded⟩
  · rcases List.mem_append.mp hsub with hsub | hsub
    · exact hold.substream sub hsub
    · rw [List.mem_singleton.mp hsub]
      exact ⟨hlast, hg, hg⟩
  · rcases List.mem_append.mp hf with hf | hf
    · exact hold.future f hf
    · rw [List.mem_singleton.mp hf]
      exact ⟨hlast, by simp⟩

theorem dropEvent (hn : l.Numbered on) : l.dropEvent.Numbered on where
  substream := hn.substream
  future := hn.future
  quiet := hn.quiet
  announced r m ch he := hn.announced r m ch (List.mem_of_mem_tail he)
  concluded e he := by
    rcases List.mem_append.mp he with he | he
    · exact hn.concluded e (List.mem_append_left _ (List.mem_of_mem_tail he))
    · exact hn.concluded e (List.mem_append_right _ he)

theorem setResponse (hn : l.Numbered on) (ch : ChannelId) (response : ResponseChannel) :
    (Link.setResponse ch response l).Numbered on where
  substream x hx := by
    obtain ⟨y, hy, hup, hinfo, -⟩ := Link.mem_setResponse hx
    have hch : x.channel = y.channel := congrArg (·.requestSender) hup
    rw [hch, hup, hinfo]
    exact hn.substream y hy
  future := hn.future
  quiet := hn.quiet
  announced := hn.announced
  concluded := hn.concluded

end Link.Numbered

/-- The counters, the connections and the sets agree with the run. -/
structure Numbered (tr : Trace System Label) (s : System) : Prop where
  next : s.nextChannel = (opens tr).length
  generator : s.fileGet.inboundIdGenerator.nextId.1 = .nth s.nextChannel
  links : ∀ l ∈ s.links, l.Numbered (opens tr)
  serving : ∀ p c r, s.fileGet.Serving p c r → DrawnOn (opens tr) r c

/-- The counter of inbound ids counts the substreams. -/
theorem stepped_inboundIdGenerator {s s' : System} {a : Label} (h : Stepped s a s') {n : Nat}
    (hg : s.fileGet.inboundIdGenerator.nextId.1 = .nth n) :
    s'.fileGet.inboundIdGenerator.nextId.1 = .nth (n + a.opened) := by
  have hsame : a.opened = 0 → s'.fileGet.inboundIdGenerator = s.fileGet.inboundIdGenerator →
      s'.fileGet.inboundIdGenerator.nextId.1 = .nth (n + a.opened) := by
    intro hzero heq
    rw [hzero, heq]
    exact hg
  cases h with
  | dispatched p m w l fg _ _ hd => exact hsame rfl hd.inboundGenerator
  | drained p c ep resolves pending fg _ _ _ _ _ hd => exact hsame rfl hd.inboundGenerator
  | addressChange l ep _ => exact hsame rfl (modifyConnection_inboundIdGenerator _)
  | pollReady action rest _ => exact hsame rfl (by rw [System.perform_fileGet])
  | deliverEvent l conn e rest _ _ _ _ =>
    exact hsame rfl (modifyConnection_inboundIdGenerator _)
  | link a c f hf => cases hf <;> exact hsame rfl rfl
  | openInbound l _ => exact RequestIdGenerator.nextId_nth hg
  | _ => exact hsame rfl rfl

namespace Numbered

variable {tr : Trace System Label} {t : Transition System Label}

theorem step (hn : Numbered tr t.pre) (hm : Mirror t.pre)
    (hallowed : t.pre.Allowed t.label = true) (h : Stepped t.pre t.label t.post) :
    Numbered (t :: tr) t.post where
  next := by
    rw [stepped_nextChannel h, hn.next, opens, List.length_append, Label.length_opensOn]
  generator := by
    rw [stepped_nextChannel h]
    exact stepped_inboundIdGenerator h hn.generator
  links l' hl' := by
    cases stepped_linkFrom hm hallowed h hl' with
    | new hin hfut hpend hev => exact .empty hin hfut hpend hev
    | old l hl hid hpeer hmoved =>
      have hold : l.Numbered (opens (t :: tr)) := (hn.links l hl).mono opens_cons
      cases hmoved with
      | moved l' _ hmoved => exact hold.moved hid hmoved
      | delivered e rest _ _ => exact hold.dropEvent
      | opened hlabel =>
        have hopens : opens (t :: tr) = opens tr ++ [l.id] := by
          rw [opens, hlabel]
          rfl
        rw [hopens, hn.next]
        exact (hn.links l hl).opened (hn.next ▸ hn.generator)
      | told ch response _ => exact hold.setResponse ch response
  serving p c r hr := by
    have hold : t.pre.fileGet.Serving p c r → DrawnOn (opens (t :: tr)) r c := by
      intro hr
      obtain ⟨k, hk, hc⟩ := hn.serving p c r hr
      exact ⟨k, hk, opens_cons hc⟩
    cases stepped_served hm h with
    | same hsame _ _ => exact hold ((hsame p c r).mp hr)
    | delivered l e rest _ hl he hserving =>
      rcases (hserving p c r).mp hr with ⟨hr, -⟩ | ⟨-, rfl, hr⟩
      · exact hold hr
      · -- only a request is announced
        cases e with
        | request r' m ch =>
          cases hr
          obtain ⟨hon, hid⟩ := (hn.links l hl).announced r m ch (he ▸ List.mem_cons_self)
          exact ⟨ch.key, hid, opens_cons hon⟩
        | _ => cases hr
    | closed l o i _ hl _ hserving => exact hold ((hserving p c r).mp hr).1

end Numbered

/-- **In every run the numbers of the inbound requests fit.** -/
theorem run_numbered {config : FileGetConfig} {debug : Bool} {tr : Trace System Label} {s : System}
    (h : (fileGetSystem config debug).Run tr s) : Numbered tr s := by
  induction tr generalizing s with
  | nil =>
    cases h
    refine ⟨rfl, rfl, fun l hl => (by cases hl), fun p c r hr => ?_⟩
    obtain ⟨conn, hmem, -⟩ := hr
    simp [fileGetSystem, System.init, fromConfig, connections] at hmem
  | cons t tr ih =>
    obtain ⟨hrun, hallowed, -, rfl⟩ := h.tail
    obtain ⟨hm, hstep⟩ := run_stepped h
    exact (ih hrun).step hm hallowed hstep

end FileSharing
