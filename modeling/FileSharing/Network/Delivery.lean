/-
FileSharing.Network.Delivery — a file goes from one process to another.

What was proved of a process with anything around it, and what was proved of
the two upgrades on a substream with anything behind them, put together over
the wires of an overlay (`Sound`): the reader at the one end of a wire is one
that its process opened for the file that the request at the other end names.
So what an answered `GetFile` has written was read by the peer that the
command's user stands for, when that peer is one of ours, from its
`sharing_dir` joined with the name of the file.
-/
import FileSharing.Network.Overlay

namespace FileSharing

open Lib FileGet

variable {config : FileGetConfig} {debug : Bool} {fits : String → Bool}
  {dial : PeerId → Except DialError Unit} {sharingDir : PeerId → Path} {ours : PeerId → Bool}
  {window : Nat} {tr : Trace Overlay OverlayLabel} {s : Overlay}
  {t : Transition Overlay OverlayLabel}

/-! ## A process in the overlay -/

/-- What a process has done. -/
def processTrace (p : PeerId) (tr : Trace Overlay OverlayLabel) : Trace Process ProcessLabel :=
  tr.flatMap (nodeSteps p)

theorem run_processTrace
    (h : (overlayMachine config debug fits dial sharingDir ours window).Run tr s) (p : PeerId) :
    (processMachine config debug fits (dial p) (sharingDir p)).Run (processTrace p tr)
      (s.nodes p) := by
  have hrun := (composedDrives _ _ p).run h trivial
  rw [composedDrives_part] at hrun
  exact hrun

/-- What the swarm of a process does by itself, its contract allows. -/
theorem Process.allowed_swarm {p : Process} {label : ProcessLabel} {a : Label}
    (ha : p.Allowed label = true) (hlabel : label.swarm? = some a) : p.swarm.Allowed a = true := by
  cases p with
  | starting s =>
    cases label with
    | start label =>
      cases label with
      | swarm a' =>
        obtain rfl := Option.some.inj hlabel
        simp only [Process.Allowed, Startup.Allowed, Bool.and_eq_true] at ha
        exact ha.2
      | wake _ | pollFileGet => cases hlabel
    | spawn => cases hlabel
    | node _ => cases ha
  | running n =>
    cases label with
    | node label =>
      cases label with
      | swarm a' =>
        obtain rfl := Option.some.inj hlabel
        simp only [Process.Allowed, Node.Allowed, Bool.and_eq_true] at ha
        exact ha.1.2
      | command _ _ | event _ _ | pollFileGet _ | lost _ | dropSwarm => cases hlabel
    | start _ => cases ha
    | spawn => cases hlabel

/-! ## Wires -/

/-- The process has opened the file that `dir` joined with the name leads to.
That may lie outside `dir`. -/
def ServedFrom (tr : Trace Overlay OverlayLabel) (q : PeerId) (dir : Path) (fileName : String)
    (reader : FileReader) : Prop :=
  ∃ t ∈ tr, ∃ env, t.label = .node q (.node (.pollFileGet env)) ∧
    env.openRead (Path.push dir (utf8 fileName)) = .ok reader

theorem ServedFrom.mono {tr' : Trace Overlay OverlayLabel} {q : PeerId} {dir : Path}
    {fileName : String} {reader : FileReader} (h : ServedFrom tr q dir fileName reader)
    (hsub : ∀ t ∈ tr, t ∈ tr') : ServedFrom tr' q dir fileName reader := by
  obtain ⟨t, ht, henv⟩ := h
  exact ⟨t, hsub t ht, henv⟩

/-- What a wire's serving end is. -/
def Wire.serverEnd (w : Wire) : PeerId × ChannelId := (w.server, w.upgrade.requestSender)

/-- The exchange is one of the two upgrades; the message that was received on
the wire is the request at its other end, and the reader is of the file that
it names. -/
structure Wire.Sound (window : Nat) (sharingDir : PeerId → Path) (tr : Trace Overlay OverlayLabel)
    (w : Wire) : Prop where
  ran : ∃ etr, (exchangeMachine w.request w.upgrade window w.before).Run etr w.exchange
  asked : ∀ m, AskedOn (processTrace w.server tr) w.serverConnection w.upgrade.requestSender m →
    m = ⟨w.request.fileName⟩
  served : ∀ reader, w.exchange.reader = some reader →
    ServedFrom tr w.server (sharingDir w.server) w.request.fileName reader

structure Sound (window : Nat) (sharingDir : PeerId → Path) (tr : Trace Overlay OverlayLabel)
    (s : Overlay) : Prop where
  wires : ∀ w ∈ s.medium, w.Sound window sharingDir tr
  apart : (s.medium.map Wire.serverEnd).Nodup

/-- Only an answer changes the reader. -/
theorem Exchanged.reader_cases {u : FileGetInboundProtocol} {x x' : Exchange} {a : ExchangeLabel}
    (h : Exchanged u x a x') :
    x'.reader = x.reader ∨ ∃ response, a = .respond response ∧ x'.reader = response := by
  cases h with
  | answered _ => exact .inr ⟨_, rfl, rfl⟩
  | canceled _ => exact .inr ⟨_, rfl, rfl⟩
  | _ => exact .inl rfl

/-- Another message on a wire. -/
theorem askedOn_cons {q : PeerId} {c : ConnectionId} {ch : ChannelId} {m : FileGetMessage}
    (h : AskedOn (processTrace q (t :: tr)) c ch m) :
    AskedOn (processTrace q tr) c ch m ∨ ∃ a, t.label = .node q a ∧
      a.swarm? = some (.inbound c ch (.received (.ok m))) := by
  obtain ⟨x, hx, hlabel⟩ := h
  rcases List.mem_append.mp hx with hx | hx
  · exact .inr ⟨x.label, (node_of_mem hx).1, hlabel⟩
  · exact .inl ⟨x, hx, hlabel⟩

namespace Sound

/-- The wire of a serving end. -/
theorem unique (hs : Sound window sharingDir tr s) {w w' : Wire} (hw : w ∈ s.medium)
    (hw' : w' ∈ s.medium) (h : w.serverEnd = w'.serverEnd) : w = w' :=
  List.inj_on_of_nodup_map hs.apart hw hw' h

/-- What is received on a wire is the request at its other end. -/
theorem received (hs : Sound window sharingDir tr s) {w : Wire} (hw : w ∈ s.medium)
    {a : ProcessLabel} {m : FileGetMessage}
    (hlabel : a.swarm? = some (.inbound w.serverConnection w.upgrade.requestSender
      (.received (.ok m))))
    (ha : (s.nodes w.server).Allowed a = true) (hadmits : admitted ours s w.server a = true) :
    m = ⟨w.request.fileName⟩ := by
  obtain ⟨l, hl, hid, -⟩ := inbound_allowed (Process.allowed_swarm ha hlabel)
  simp only [admitted, hlabel, Option.all_some, swarmAdmitted, Bool.and_eq_true,
    List.all_eq_true] at hadmits
  have hl := hadmits.2 l hl
  simp only [hid, ne_eq, not_true_eq_false, decide_false, Bool.false_or] at hl
  unfold inboundAdmitted at hl
  cases hfind : s.medium.find? fun w' => w'.server = w.server && w'.serverConnection = l.id &&
      w'.upgrade.requestSender = w.upgrade.requestSender with
  | none =>
    have hnone := List.find?_eq_none.mp hfind w hw
    simp [hid] at hnone
  | some w' =>
    have hw' := List.mem_of_find?_eq_some hfind
    have hends := List.find?_some hfind
    simp only [Bool.and_eq_true, decide_eq_true_eq] at hends
    obtain rfl : w' = w := hs.unique hw' hw (Prod.ext hends.1.1 hends.2)
    simp only [hfind, Bool.and_eq_true, Exchange.wakesServer, decide_eq_true_eq] at hl
    obtain ⟨etr, hran⟩ := (hs.wires w' hw).ran
    rcases (run_exchanging hran).serving.announced_cases with ⟨hnone, -⟩ | hsome
    · rw [hnone] at hl
      cases hl.2
    · rw [hsome] at hl
      exact (Option.some.inj hl.2).symm

/-- A process takes a step. -/
theorem node (hs : Sound window sharingDir tr t.pre) {p : PeerId} {a : ProcessLabel}
    (hlabel : t.label = .node p a) (ha : (t.pre.nodes p).Allowed a = true)
    (hadmits : admitted ours t.pre p a = true) (hmedium : t.post.medium = t.pre.medium) :
    Sound window sharingDir (t :: tr) t.post := by
  refine ⟨?_, hmedium ▸ hs.apart⟩
  intro w hw
  rw [hmedium] at hw
  have hsound := hs.wires w hw
  refine ⟨hsound.ran, ?_, fun reader hreader => ?_⟩
  · intro m hasked
    rcases askedOn_cons hasked with hold | ⟨b, hb, hreceived⟩
    · exact hsound.asked m hold
    · rw [hlabel] at hb
      obtain ⟨rfl, rfl⟩ := ComposedLabel.node.inj hb
      exact hs.received hw hreceived ha hadmits
  · exact (hsound.served reader hreader).mono fun _ => List.mem_cons_of_mem _

/-- A step of the wires is none of a process. -/
theorem processTrace_medium {b : WireLabel} (hlabel : t.label = .medium b) (q : PeerId) :
    processTrace q (t :: tr) = processTrace q tr := by
  simp [processTrace, nodeSteps, hlabel]

/-- A wire that another step of the wires leaves as it is. -/
theorem kept {w : Wire} (h : w.Sound window sharingDir tr) {b : WireLabel}
    (hlabel : t.label = .medium b) : w.Sound window sharingDir (t :: tr) where
  ran := h.ran
  asked m hasked := h.asked m (processTrace_medium hlabel w.server ▸ hasked)
  served reader hreader := (h.served reader hreader).mono fun _ => List.mem_cons_of_mem _

/-- A wire is opened: on its serving end nothing was received yet. -/
theorem opened (hs : Sound window sharingDir tr t.pre)
    (h : (overlayMachine config debug fits dial sharingDir ours window).Run tr t.pre)
    {e : WireEnds} (hlabel : t.label = .medium (.opens e)) (hfree : e.free t.pre = true)
    (hmedium : t.post.medium = ⟨e, .start e.request e.before⟩ :: t.pre.medium) :
    Sound window sharingDir (t :: tr) t.post := by
  simp only [WireEnds.free, Bool.and_eq_true, List.any_eq_true, List.all_eq_true,
    decide_eq_true_eq] at hfree
  obtain ⟨⟨-, l, hl, -, sub, hsub, hupgrade, hphase⟩, hapart⟩ := hfree
  refine ⟨?_, ?_⟩
  · intro w hw
    rw [hmedium] at hw
    rcases List.mem_cons.mp hw with rfl | hw
    · refine ⟨⟨[], .start⟩, ?_, fun reader hreader => by cases hreader⟩
      intro m hasked
      rw [processTrace_medium hlabel] at hasked
      have hrun := run_processTrace h e.server
      have ha := run_attested ((processDrives config debug fits _ _).run hrun trivial)
      have hnone := (ha.links l hl).receiving sub hsub hphase m
      have hch : sub.channel = e.upgrade.requestSender :=
        congrArg FileGetInboundProtocol.requestSender hupgrade
      rw [hch] at hnone
      exact absurd (hasked.receivedOn hrun) hnone
    · exact kept (hs.wires w hw) hlabel
  · rw [hmedium, List.map_cons, List.nodup_cons]
    refine ⟨?_, hs.apart⟩
    intro hmem
    obtain ⟨w, hw, hends⟩ := List.mem_map.mp hmem
    have hnot := (hapart w hw).2
    simp only [Wire.serverEnd, Prod.mk.injEq] at hends
    simp [hends.1, hends.2] at hnot

/-- A reader that comes to a wire is of the file that was asked for on it. -/
theorem served_by_answer {w : Wire} (hw : w.Sound window sharingDir tr)
    (h : (overlayMachine config debug fits dial sharingDir ours window).Run tr s)
    {reader : FileReader}
    (hanswers : w.answers (s.nodes w.server).swarm (.respond (some reader)) = true) :
    ServedFrom tr w.server (sharingDir w.server) w.request.fileName reader := by
  simp only [Wire.answers, List.any_eq_true, Bool.and_eq_true, decide_eq_true_eq] at hanswers
  obtain ⟨l, hl, hid, sub, hsub, hupgrade, hphase⟩ := hanswers
  obtain ⟨message, env, newer, x, older, htrace, hpoll, ⟨y, hy, hasked⟩, hopen⟩ :=
    asked_of_copying (run_processTrace h w.server) hl hsub hphase
  have hch : sub.channel = w.upgrade.requestSender :=
    congrArg FileGetInboundProtocol.requestSender hupgrade
  rw [hid, hch] at hasked
  obtain rfl := hw.asked message ⟨y, by rw [htrace]; simp [hy], hasked⟩
  have hx : x ∈ processTrace w.server tr := by
    rw [htrace]
    simp
  obtain ⟨t, ht, hxt⟩ := List.mem_flatMap.mp hx
  exact ⟨t, ht, env, hpoll ▸ (node_of_mem hxt).1, hopen⟩

/-- An upgrade on a wire goes on. -/
theorem moved (hs : Sound window sharingDir tr t.pre)
    (h : (overlayMachine config debug fits dial sharingDir ours window).Run tr t.pre)
    {k : Nat} {a : ExchangeLabel} (hlabel : t.label = .medium (.moves k a)) {w : Wire}
    (hw : t.pre.medium[k]? = some w) (hallowed : w.exchange.Allowed window a = true)
    (hanswers : w.answers (t.pre.nodes w.server).swarm a = true)
    (hmedium : t.post.medium =
      t.pre.medium.set k ⟨w.toWireEnds, w.exchange.step w.upgrade a⟩) :
    Sound window sharingDir (t :: tr) t.post := by
  have hmem : w ∈ t.pre.medium := List.mem_of_getElem? hw
  have hsound := hs.wires w hmem
  refine ⟨?_, ?_⟩
  · intro w' hw'
    rw [hmedium] at hw'
    rcases List.mem_or_eq_of_mem_set hw' with hw' | rfl
    · exact kept (hs.wires w' hw') hlabel
    · have hkept := kept hsound hlabel
      obtain ⟨etr, hran⟩ := hsound.ran
      refine ⟨⟨_, hran.next hallowed rfl⟩, hkept.asked, ?_⟩
      intro reader hreader
      rcases (Exchange.step_exchanged (u := w.upgrade) hallowed).reader_cases with
        hsame | ⟨response, rfl, hgiven⟩
      · exact hkept.served reader (hsame ▸ hreader)
      · -- the process has sent this reader
        obtain rfl : response = some reader := hgiven.symm.trans hreader
        exact (served_by_answer hsound h hanswers).mono fun _ => List.mem_cons_of_mem _
  · obtain ⟨hlt, hget⟩ := List.getElem?_eq_some_iff.mp hw
    have hlen : k < (t.pre.medium.map Wire.serverEnd).length := by
      rw [List.length_map]
      exact hlt
    have hends : (t.pre.medium.map Wire.serverEnd)[k] = w.serverEnd := by
      rw [List.getElem_map, hget]
    rw [hmedium, List.map_set]
    show ((t.pre.medium.map Wire.serverEnd).set k w.serverEnd).Nodup
    rw [← hends, List.set_getElem_self]
    exact hs.apart

end Sound

theorem run_sound
    (h : (overlayMachine config debug fits dial sharingDir ours window).Run tr s) :
    Sound window sharingDir tr s := by
  induction tr generalizing s with
  | nil =>
    cases h
    exact ⟨fun w hw => (by cases hw), .nil⟩
  | cons t tr ih =>
    obtain ⟨hrun, -, -, rfl⟩ := h.tail
    have hs := ih hrun
    have hstep := run_composedStepped h
    obtain ⟨pre, label, post⟩ := t
    dsimp only at hs hstep hrun ⊢
    cases hstep with
    | node p a x ha hadmits _ => exact hs.node (t := ⟨pre, _, _⟩) rfl ha hadmits rfl
    | medium b ha =>
      cases b with
      | opens e =>
        simp only [wires, wireAllowed, Bool.and_eq_true] at ha
        exact hs.opened (t := ⟨pre, _, _⟩) hrun rfl ha.2 rfl
      | moves k a =>
        cases hk : pre.medium[k]? with
        | none => simp [wires, wireAllowed, hk] at ha
        | some w =>
          simp only [wires, wireAllowed, hk, Bool.and_eq_true] at ha
          refine hs.moved (t := ⟨pre, _, _⟩) hrun rfl hk ha.1 ha.2 ?_
          simp [wires, wireStep, hk]

/-! ## Delivery -/

/-- What the node of a process has done. -/
def nodeTraceOf (p : PeerId) (tr : Trace Overlay OverlayLabel) : Trace Node NodeLabel :=
  (processTrace p tr).flatMap nodeOnlySteps

/-- A step of a node is a step of the overlay. -/
theorem overlay_of_node {p : PeerId} {v : Transition Node NodeLabel} (hv : v ∈ nodeTraceOf p tr) :
    ∃ t ∈ tr, t.label = .node p (.node v.label) ∧ t.pre.nodes p = .running v.pre := by
  obtain ⟨x, hx, hvx⟩ := List.mem_flatMap.mp hv
  obtain ⟨t, ht, hxt⟩ := List.mem_flatMap.mp hx
  obtain ⟨hlabel, hpre⟩ := node_of_mem hxt
  obtain ⟨xpre, xlabel, xpost⟩ := x
  unfold nodeOnlySteps at hvx
  dsimp only at hvx hlabel hpre
  split at hvx
  · obtain rfl := List.mem_singleton.mp hvx
    exact ⟨t, ht, hlabel, hpre⟩
  · cases hvx

/-- An upgrade that returns `Ok` on a connection to one of ours is on a wire
whose client has ended. -/
theorem wire_of_fetched {p q : PeerId} {protocol : FileGetOutboundProtocol}
    {v : Transition Node NodeLabel} (hfetched : FetchesFile q protocol v)
    (hpre : s.nodes p = .running v.pre) (hours : ours q = true)
    (hadmits : admitted ours s p (.node v.label) = true) :
    ∃ w ∈ s.medium, w.asker = p ∧ w.server = q ∧ w.request = protocol ∧
      w.exchange.client = .ended (.ok ()) := by
  obtain ⟨l, hl, rfl, i, hlabel, hsub⟩ := hfetched
  simp only [admitted, hlabel, ProcessLabel.swarm?, Option.all_some, swarmAdmitted, hpre,
    Bool.and_eq_true, List.all_eq_true] at hadmits
  have hl := hadmits.2 l hl
  simp only [hsub, Option.all_some, ne_eq, not_true_eq_false, decide_false,
    Bool.false_or] at hl
  unfold endAdmitted at hl
  split at hl
  · rename_i w hfind
    have hends := List.find?_some hfind
    simp only [Bool.and_eq_true, decide_eq_true_eq, Exchange.endsClient] at hends hl
    exact ⟨w, List.mem_of_find?_eq_some hfind, hends.1.1, hl.1, hends.2, hl.2⟩
  · simp [hours, ofOutboundUpgrade] at hl

/-- **A fetched file comes from the peer.** When a `GetFile` is answered with
`Ok` and the peer that its user stood for is one of ours, then what was written
to the local file is what that peer read from its `sharing_dir` joined with the
name of the file, from the first byte on; all of it, if its upgrade has
succeeded. -/
theorem answered_getFile_delivered
    (h : (overlayMachine config debug fits dial sharingDir ours window).Run tr s) {p : PeerId}
    {n : Node} (hnode : s.nodes p = .running n) (hn : n.received.length < UInt64.size)
    {request : CommandRequest} (hreq : request ∈ n.received) {response : CommandResponse}
    (hans : (request.responseSender, .ok response) ∈ n.answered) {userName fileName : String}
    (hresult : response.result = .getFile userName fileName) :
    request.command = .getFile userName fileName ∧ ∃ q protocol, protocol.fileName = fileName ∧
      (∃ u ∈ nodeTraceOf p tr, SendsFileGet fits request q protocol u) ∧
      (ours q = true → ∃ newer t older w, tr = newer ++ t :: older ∧ w ∈ t.pre.medium ∧
        w.asker = p ∧ w.server = q ∧ w.request = protocol ∧ w.exchange.client = .ended (.ok ()) ∧
        ∃ bytes, w.exchange.file.written = w.before.written ++ bytes ∧
          bytes <+: yieldedBy w.exchange.reader ∧
          (∀ reader, w.exchange.reader = some reader →
            ServedFrom older q (sharingDir q) fileName reader) ∧
          (w.exchange.server = .ended (.returned (.ok true)) →
            ∃ reader, w.exchange.reader = some reader ∧ contents reader.reads = some bytes)) := by
  have hrun := run_processTrace h p
  rw [hnode] at hrun
  cases run_process hrun with
  | running hinit _ hinner =>
    have hcmd := command_of_answered hinner hreq hans hresult
    obtain ⟨newer, v, middle, u, older, q, protocol, htrace, hname, hsent, hfetched⟩ :=
      fetched_of_answered hinner hn hreq hans hresult
    have hmem : ∀ x, x ∈ newer ++ v :: (middle ++ u :: older) → x ∈ nodeTraceOf p tr := by
      intro x hx
      rw [← htrace] at hx
      exact hx
    refine ⟨hcmd, q, protocol, hname, ⟨u, hmem u (by simp), hsent⟩, ?_⟩
    intro hours
    obtain ⟨t, ht, hlabel, hpre⟩ := overlay_of_node (hmem v (by simp))
    obtain ⟨newer', older', rfl⟩ := List.append_of_mem ht
    obtain ⟨hbefore, hallowed, -⟩ := h.of_append
    rw [hlabel] at hallowed
    have hadmits : admitted ours t.pre p (.node v.label) = true := hallowed.2
    obtain ⟨w, hw, hasker, rfl, rfl, hclient⟩ := wire_of_fetched hfetched hpre hours hadmits
    have hsound := (run_sound hbefore).wires w hw
    obtain ⟨etr, hran⟩ := hsound.ran
    have hx := run_exchanging hran
    have hwritten := (hx.fetching.of_ended hclient).all rfl
    refine ⟨newer', t, older', w, rfl, hw, hasker, rfl, rfl, hclient, _, hwritten,
      hx.chunks_prefix, ?_, ?_⟩
    · intro reader hreader
      exact hname ▸ hsound.served reader hreader
    · intro hserver
      obtain ⟨reader, hreader, hcontents, -⟩ := hx.delivered ⟨hclient, hserver⟩
      exact ⟨reader, hreader, hcontents⟩

/-! Peer 9 asks for a file of user `u`, who is peer 7. -/

/-- Both processes start, 9 discovers the user and asks, and the file comes
over one wire. -/
def deliveryLabels : List OverlayLabel :=
  let starts (p : PeerId) : List OverlayLabel :=
    [.node p (.start (.wake (.event (.newListenAddr ⟨"l"⟩)))),
      .node p (.start (.wake (.event (.identifyReceived ⟨8⟩)))), .node p .spawn]
  let asks (a : NodeLabel) : OverlayLabel := .node ⟨9⟩ (.node a)
  let serves (a : NodeLabel) : OverlayLabel := .node ⟨7⟩ (.node a)
  let moves (a : ExchangeLabel) : OverlayLabel := .medium (.moves 0 a)
  starts ⟨7⟩ ++ starts ⟨9⟩ ++
    [asks (.event (.rendezvous (.discovered [⟨⟨"u"⟩, ⟨7⟩, [⟨"a"⟩]⟩])) (.calm 0)),
      asks (.swarm (.connectionEstablished ⟨7⟩ ⟨1⟩ (.dialer ⟨"a"⟩) false)),
      serves (.swarm (.connectionEstablished ⟨9⟩ ⟨5⟩ (.dialer ⟨"b"⟩) false)),
      asks (.command ⟨1, .getFile "u" "f", ⟨1⟩⟩ (.calm 1)), asks (.pollFileGet (.calm 2)),
      asks (.swarm (.deliverCommand ⟨1⟩)), asks (.swarm (.pollHandler ⟨1⟩ 0 0)),
      serves (.swarm (.openInbound ⟨5⟩)),
      .medium (.opens ⟨⟨9⟩, ⟨1⟩, ⟨.nth 0, "f", ⟨utf8 "f"⟩⟩, ⟨7⟩, ⟨5⟩, serveA, ⟨[], []⟩⟩),
      moves (.clientWrites 7), moves (.serverReads 7),
      serves (.swarm (.inbound ⟨5⟩ ⟨0⟩ (.received (.ok ⟨"f"⟩)))),
      serves (.swarm (.pollHandler ⟨5⟩ 0 0)), serves (.swarm (.deliverEvent ⟨5⟩)),
      serves (.pollFileGet { Env.calm 0 with openRead := fun _ => .ok ⟨[.data [1, 2, 3]]⟩ }),
      serves (.swarm (.inbound ⟨5⟩ ⟨0⟩ .pollReader)),
      moves (.respond (some ⟨[.data [1, 2, 3]]⟩)), moves (.serverCopies 3 0),
      moves (.clientReads 3), moves (.serverCopies 0 0), moves .clientEnds,
      asks (.swarm (.endOutbound ⟨1⟩ 0 (.ok ()))), asks (.swarm (.pollHandler ⟨1⟩ 0 0)),
      asks (.swarm (.deliverEvent ⟨1⟩)), asks (.pollFileGet (.calm 2))]

theorem answered_getFile_delivered_u : ∃ tr s q,
    (overlayMachine ⟨10⟩ true (fun _ => true) (fun _ => .ok ()) (fun _ => []) (fun _ => true)
      8).Run tr s ∧
    ∃ t ∈ tr, ∃ w ∈ t.pre.medium, w.asker = ⟨9⟩ ∧ w.server = q ∧
      w.exchange.file.written = [1, 2, 3] ∧ ServedFrom tr q [] "f" ⟨[.data [1, 2, 3]]⟩ := by
  obtain ⟨tr, s, hrun, hP⟩ := Machine.exists_run_of_labels
    (M := overlayMachine ⟨10⟩ true (fun _ => true) (fun _ => .ok ()) (fun _ => []) (fun _ => true)
      8)
    deliveryLabels
    (fun tr s => (s.nodes ⟨9⟩).node?.any (fun (n : Node) =>
        decide (n.received.length < UInt64.size ∧ ⟨1, .getFile "u" "f", ⟨1⟩⟩ ∈ n.received ∧
          (⟨1⟩, .ok ⟨1, .getFile "u" "f"⟩) ∈ n.answered)) &&
      tr.all fun t => t.pre.medium.all fun w => decide (w.exchange.client = .ended (.ok ()) →
        w.exchange.file.written = [1, 2, 3] ∧ w.exchange.reader = some ⟨[.data [1, 2, 3]]⟩))
    (by decide +kernel) (by decide +kernel)
  rw [Bool.and_eq_true] at hP
  obtain ⟨hnode, hwires⟩ := hP
  obtain ⟨n, hrunning, hfacts⟩ := (Option.any_eq_true _ _).mp hnode
  obtain ⟨hn, hreq, hans⟩ := of_decide_eq_true hfacts
  obtain ⟨-, q, protocol, -, -, hdelivered⟩ :=
    answered_getFile_delivered hrun (Process.node?_eq_some hrunning) hn hreq hans rfl
  obtain ⟨newer, t, older, w, rfl, hw, hasker, hserver, -, hclient, bytes, -, -, hserved, -⟩ :=
    hdelivered rfl
  have ht : t ∈ newer ++ t :: older := by simp
  obtain ⟨hwritten, hreader⟩ :=
    of_decide_eq_true (List.all_eq_true.mp (List.all_eq_true.mp hwires t ht) w hw) hclient
  refine ⟨_, s, q, hrun, t, ht, w, hw, hasker, hserver, hwritten, ?_⟩
  exact (hserved _ hreader).mono fun x hx => by simp [hx]

end FileSharing
