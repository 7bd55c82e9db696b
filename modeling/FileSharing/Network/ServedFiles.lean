/-
FileSharing.Network.ServedFiles — which file an upgrade serves.

`Attested` says of `FileGet` that an upgrade copies the reader that was sent
on its channel, and that the message announced with a channel is the one its
upgrade received. The loop in between opens the path that the message names,
`sharing_dir` joined with its file name, wherever that leads. So whatever an
upgrade of a process copies was read from the path that the remote asked for
on that very substream: no interleaving of requests mixes two of them up, and
it does not matter whether the message came before `init` had returned.
-/
import FileSharing.FileGet.ServedRequests
import FileSharing.Network.Process

namespace FileSharing

open Lib FileGet

variable {config : FileGetConfig} {debug : Bool} {fits : String → Bool}

/-! ## The sharing directory -/

theorem nodeStepped_sharingDir {n n' : Node} {label : NodeLabel}
    (h : NodeStepped fits debug n label n') : n'.loop.sharingDir = n.loop.sharingDir := by
  cases h with
  | quiet event env _ _ _ => rw [n.settle_loop event]
  | lost what _ => rw [n.close_loop what]
  | _ => rfl

theorem run_sharingDir {start : Started config debug} {tr : Trace Node NodeLabel} {n : Node}
    (h : (nodeMachine fits start).Run tr n) : n.loop.sharingDir = start.sharingDir := by
  induction tr generalizing n with
  | nil =>
    cases h
    rfl
  | cons t tr ih =>
    obtain ⟨-, -, hstep⟩ := run_nodeStepped h
    obtain ⟨hrun, -, -, rfl⟩ := h.tail
    rw [nodeStepped_sharingDir hstep]
    exact ih hrun

variable {dial : Except DialError Unit} {sharingDir : Path} {p : Process}
  {tr : Trace Process ProcessLabel}

theorem process_sharingDir {n : Node}
    (h : (processMachine config debug fits dial sharingDir).Run tr (.running n)) :
    n.loop.sharingDir = sharingDir := by
  cases run_process h with
  | running hinit _ hnode => exact run_sharingDir hnode

/-! ## Readers -/

/-- A reader is sent when the loop handles the request of its channel. -/
theorem respond_of_mem {t : Transition Process ProcessLabel}
    (h : ProcessStepped fits debug dial sharingDir t.pre t.label t.post)
    {u : Transition System Label} (hu : u ∈ processSteps fits debug t) {ch : ChannelId}
    {reader : FileReader} (hlabel : u.label = .respond ch reader) :
    ∃ n env, t.pre = .running n ∧ t.label = .node (.pollFileGet env) ∧
      n.fileGetAnswer? env = some (.respond ch reader) := by
  have hshown := processShown_of_mem hu
  rw [hlabel] at hshown
  cases hshown with
  | start s s' label _ ht hshown =>
    subst ht
    cases hshown with
    | alone _ halone =>
      dsimp only at halone
      subst halone
      cases h with
      | start _ _ _ ha _ => simp [Startup.Allowed, Node.isOwn] at ha
  | node n n' label _ ht hshown =>
    subst ht
    cases hshown with
    | serves env _ _ hpoll hanswer => exact ⟨n, env, rfl, congrArg ProcessLabel.node hpoll, hanswer⟩
    | alone _ halone =>
      dsimp only at halone
      subst halone
      cases h with
      | node _ _ _ ha _ => simp [Node.Allowed, Node.isOwn] at ha

/-! ## Requests -/

/-- The upgrade of the substream has received the message. -/
def AskedOn (tr : Trace Process ProcessLabel) (c : ConnectionId) (ch : ChannelId)
    (m : FileGetMessage) : Prop :=
  ∃ t ∈ tr, t.label.swarm? = some (.inbound c ch (.received (.ok m)))

theorem askedOn_of_mem {u : Transition System Label}
    (hu : u ∈ (processDrives config debug fits dial sharingDir).part tr) {c : ConnectionId}
    {ch : ChannelId} {m : FileGetMessage}
    (hlabel : u.label = .inbound c ch (.received (.ok m))) : AskedOn tr c ch m := by
  rw [processDrives_part] at hu
  obtain ⟨t, ht, hut⟩ := List.mem_flatMap.mp hu
  refine ⟨t, ht, ?_⟩
  have hshown := processShown_of_mem hut
  rw [hlabel] at hshown
  exact hshown.swarm rfl

theorem AskedOn.receivedOn {c : ConnectionId} {ch : ChannelId} {m : FileGetMessage}
    (hasked : AskedOn tr c ch m) (h : (processMachine config debug fits dial sharingDir).Run tr p) :
    ReceivedOn ((processDrives config debug fits dial sharingDir).part tr) ch m := by
  obtain ⟨t, ht, hlabel⟩ := hasked
  rw [processDrives_part]
  exact ⟨_, List.mem_flatMap.mpr ⟨t, ht, processSteps_swarm h ht hlabel⟩, c, rfl⟩

/-- A channel is of one connection, and a message was received on it. -/
theorem ReceivedOn.askedOn {c : ConnectionId} {ch : ChannelId} {m : FileGetMessage}
    (h : (processMachine config debug fits dial sharingDir).Run tr p)
    (hon : (opens ((processDrives config debug fits dial sharingDir).part tr))[ch.key]? = some c)
    {older : Trace Process ProcessLabel} (holder : older <:+ tr)
    (hreceived : ReceivedOn ((processDrives config debug fits dial sharingDir).part older) ch m) :
    AskedOn older c ch m := by
  obtain ⟨v, hv, d, hlabel⟩ := hreceived
  have hmem : v ∈ (processDrives config debug fits dial sharingDir).part tr := by
    rw [processDrives_part] at hv ⊢
    obtain ⟨newer, rfl⟩ := holder
    rw [List.flatMap_append]
    exact List.mem_append_right _ hv
  have ha := run_attested ((processDrives config debug fits dial sharingDir).run h trivial)
  have hd := ha.opened v hmem d ch m hlabel
  rw [hon] at hd
  obtain rfl := Option.some.inj hd
  exact askedOn_of_mem hv hlabel

/-- The step that opened what an upgrade copies. -/
theorem asked_of_copying (h : (processMachine config debug fits dial sharingDir).Run tr p)
    {l : Link} (hl : l ∈ p.swarm.links) {sub : InboundSubstream} (hsub : sub ∈ l.inbound)
    {reader : FileReader} (hphase : sub.phase = .copying reader) :
    ∃ message env newer t older, tr = newer ++ t :: older ∧ t.label = .node (.pollFileGet env) ∧
      AskedOn older l.id sub.channel message ∧
      env.openRead (Path.push sharingDir (utf8 message.fileName)) = .ok reader := by
  have hrun := (processDrives config debug fits dial sharingDir).run h trivial
  obtain ⟨u, hu, hlabel⟩ := ((run_attested hrun).links l hl).copying sub hsub reader hphase
  rw [processDrives_part] at hu
  obtain ⟨t, ht, hut⟩ := List.mem_flatMap.mp hu
  obtain ⟨newer, older, rfl⟩ := List.append_of_mem ht
  have hbefore := h.of_append.1
  have hstep := run_processStepped (h.of_suffix (List.suffix_append newer _))
  obtain ⟨n, env, hpre, hpoll, hanswer⟩ := respond_of_mem hstep hut hlabel
  rw [hpre] at hbefore
  obtain ⟨q, r, message, rest, hq, hopen⟩ := Node.fileGetAnswer?_respond hanswer
  rw [process_sharingDir hbefore] at hopen
  -- the request that is handled was received on the same channel
  have hinner := (processDrives config debug fits dial sharingDir).run hbefore trivial
  have hreceived := (run_attested hinner).queued q r message sub.channel
    (hq ▸ List.mem_cons_self)
  have hon := ((run_numbered hrun).links l hl).substream sub hsub
  have holder : older <:+ newer ++ t :: older :=
    (List.suffix_cons t older).trans (List.suffix_append newer _)
  exact ⟨message, env, newer, t, older, rfl, hpoll, hreceived.askedOn h hon.1 holder, hopen⟩

/-- **An upgrade serves what was asked for on its own substream.** What it
copies was read from `sharing_dir` joined with the file name of the message
that it received, the only one it ever received. -/
theorem serves_what_was_asked (h : (processMachine config debug fits dial sharingDir).Run tr p)
    {l : Link} (hl : l ∈ p.swarm.links) {sub : InboundSubstream} (hsub : sub ∈ l.inbound)
    {reader : FileReader} (hphase : sub.phase = .copying reader) :
    ∃ message, (∀ m, AskedOn tr l.id sub.channel m → m = message) ∧
      ∃ env newer t older, tr = newer ++ t :: older ∧ t.label = .node (.pollFileGet env) ∧
        AskedOn older l.id sub.channel message ∧
        env.openRead (Path.push sharingDir (utf8 message.fileName)) = .ok reader := by
  obtain ⟨message, env, newer, t, older, rfl, hpoll, hasked, hopen⟩ :=
    asked_of_copying h hl hsub hphase
  refine ⟨message, ?_, env, newer, t, older, rfl, hpoll, hasked, hopen⟩
  obtain ⟨v, hv, hlabel⟩ := hasked
  have hmessage : AskedOn (newer ++ t :: older) l.id sub.channel message :=
    ⟨v, by simp [hv], hlabel⟩
  intro m hm
  have ha := run_attested ((processDrives config debug fits dial sharingDir).run h trivial)
  exact ha.once sub.channel m message (hm.receivedOn h) (hmessage.receivedOn h)

/-- Peer 7 asks for a file before `init` has returned, and the upgrade copies
it after that. -/
theorem serves_what_was_asked_early : ∃ tr p,
    (processMachine ⟨10⟩ true (fun _ => true) (.ok ()) []).Run tr p ∧
    ∃ message, AskedOn tr ⟨1⟩ ⟨0⟩ message ∧ ∃ t ∈ tr, ∃ env,
      t.label = .node (.pollFileGet env) ∧
      env.openRead (Path.push [] (utf8 message.fileName)) = .ok ⟨[]⟩ := by
  obtain ⟨tr, p, hrun, hP⟩ := Machine.exists_run_of_labels
    (M := processMachine ⟨10⟩ true (fun _ => true) (.ok ()) [])
    [.start (.wake (.event (.newListenAddr ⟨"l"⟩))),
      .start (.swarm (.connectionEstablished ⟨7⟩ ⟨1⟩ (.dialer ⟨"a"⟩) false)),
      .start (.swarm (.openInbound ⟨1⟩)),
      .start (.swarm (.inbound ⟨1⟩ ⟨0⟩ (.received (.ok ⟨"f"⟩)))),
      .start (.wake (.event (.identifyReceived ⟨8⟩))), .spawn,
      .node (.swarm (.pollHandler ⟨1⟩ 0 0)), .node (.swarm (.deliverEvent ⟨1⟩)),
      .node (.pollFileGet (.calm 0)), .node (.swarm (.inbound ⟨1⟩ ⟨0⟩ .pollReader))]
    (fun _ p => decide (∃ l ∈ p.swarm.links, l.id = ⟨1⟩ ∧ ∃ sub ∈ l.inbound,
      sub.channel = ⟨0⟩ ∧ sub.phase = .copying ⟨[]⟩))
    (by decide) (by decide)
  obtain ⟨l, hl, hid, sub, hsub, hch, hphase⟩ := of_decide_eq_true hP
  obtain ⟨message, -, env, newer, t, older, rfl, hpoll, ⟨u, hu, hasked⟩, hopen⟩ :=
    serves_what_was_asked hrun hl hsub hphase
  rw [hid, hch] at hasked
  exact ⟨_, p, hrun, message, ⟨u, by simp [hu], hasked⟩, t, by simp, env, hpoll, hopen⟩

end FileSharing
