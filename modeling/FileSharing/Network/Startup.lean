/-
FileSharing.Network.Startup — `init` at work: the event loop while it comes
up, over `FileGet` and its side of the swarm.

`EventLoop.init` is a function of what its two loops wake up with. Here it
runs step by step beside the swarm, which accepts connections and requests
from the moment it listens. The two views agree (`run_init`), and a run that
comes to its end is what the node begins with (`Startup.started`): so what
is proved of the runs of a node holds from the first step of its swarm.

Both loops throw away the events they do not wait for. One of them is
`FileGetEvent::RequestReceived`, and with it goes the sender of its response
channel: whoever asks for a file while `init` runs gets no answer, and the
task of the connection panics when it polls the upgrade again.
-/
import FileSharing.Network.Layers
import FileSharing.Network.Init

namespace FileSharing

open Lib FileGet

/-! ## The machine -/

/-- Where `init` is. -/
inductive StartPhase where
  /-- In the loop of `start_listen`. -/
  | listening
  /-- In the loop of `conntect_rendezvous`. -/
  | identifying
  /-- It has returned; `Ok` with the rendezvous point it found. -/
  | ended (result : Except FileSharingError PeerId)
  deriving DecidableEq

/-- The loop while it comes up. `wakes` is what its two loops have woken up
with, the first one first. -/
structure Startup where
  swarm : System
  phase : StartPhase
  wakes : List Wake

inductive StartupLabel where
  /-- The end of a delay, or an event that is not one of `FileGet`. -/
  | wake (w : Wake)
  | pollFileGet
  | swarm (label : Label)

/-- The event that polling `FileGet` gives, if its oldest action is one. -/
def System.yielded? (s : System) : Option FileGetEvent :=
  match s.fileGet.pendingEvents with
  | .generateEvent event :: _ => some event
  | _ => none

/-- An event is thrown away, and the sender in it. -/
def System.discard (debug : Bool) (s : System) : FileGetEvent → Except Panic System
  | .requestReceived _ _ _ channel => s.step debug (.dropResponder channel)
  | _ => .ok s

namespace Startup

/-- One of the loops wakes up. `dial` is what `swarm.dial` returns, which
comes between the two loops. -/
def awake (dial : Except DialError Unit) (s : Startup) (w : Wake) : Startup where
  swarm := s.swarm
  wakes := s.wakes ++ [w]
  phase :=
    match s.phase, w with
    | .listening, .event (.newListenAddr _) =>
      match dial with
      | .ok () => .identifying
      | .error e => .ended (.error (.dialError e))
    | .listening, .event .listenerError => .ended (.error (.listenError EventLoop.localAddress))
    | .listening, .delay => .ended (.error (.listenError EventLoop.localAddress))
    | .identifying, .event (.identifyReceived peer) => .ended (.ok peer)
    | .identifying, .delay => .ended (.error .rendezvousPointNotConnected)
    | phase, _ => phase

/-- One step. -/
def step (debug : Bool) (dial : Except DialError Unit) (s : Startup) :
    StartupLabel → Except Panic Startup
  | .wake w => .ok (s.awake dial w)
  | .pollFileGet => do
    let swarm ← s.swarm.step debug .pollBehaviour
    match s.swarm.yielded? with
    | none => .ok { s with swarm := swarm }
    | some event => do
      let swarm ← swarm.discard debug event
      .ok ({ s with swarm := swarm }.awake dial (.event .other))
  | .swarm label => do
    let swarm ← s.swarm.step debug label
    .ok { s with swarm := swarm }

def isEnded (s : Startup) : Bool :=
  match s.phase with
  | .ended _ => true
  | _ => false

/-- `init` runs, and the swarm keeps its contract. -/
def Allowed (s : Startup) : StartupLabel → Bool
  | .wake _ => !s.isEnded
  | .pollFileGet => !s.isEnded
  | .swarm label => !s.isEnded && !Node.isOwn label && s.swarm.Allowed label

end Startup

/-- `init` as a machine. -/
def startupMachine (config : FileGetConfig) (debug : Bool) (dial : Except DialError Unit) :
    Machine Startup StartupLabel Panic where
  init := ⟨.init config, .listening, []⟩
  allowed := fun s a => s.Allowed a = true
  step := Startup.step debug dial

instance (config : FileGetConfig) (debug : Bool) (dial : Except DialError Unit) (s : Startup)
    (a : StartupLabel) : Decidable ((startupMachine config debug dial).allowed s a) :=
  inferInstanceAs (Decidable (s.Allowed a = true))

variable {config : FileGetConfig} {debug : Bool} {dial : Except DialError Unit} {s : Startup}
  {tr : Trace Startup StartupLabel}

/-! ## The function and the machine -/

/-- What `init` makes of the wakes to come. -/
def Startup.resume (dial : Except DialError Unit) (address : Multiaddr) (s : Startup)
    (l : EventLoop) (wakes : List Wake) : Option (Except FileSharingError EventLoop) :=
  match s.phase with
  | .listening => l.init address (fun _ => dial) wakes
  | .identifying => (l.awaitIdentify wakes).map fun l =>
    if l.rendezvousPointPeerId.isSome then .ok l else .error .rendezvousPointNotConnected
  | .ended (.ok peer) => some (.ok { l with rendezvousPointPeerId := some peer })
  | .ended (.error e) => some (.error e)

/-- One more wake. -/
theorem Startup.resume_awake (address : Multiaddr) {l : EventLoop}
    (hl : l.rendezvousPointPeerId = none) (w : Wake) (wakes : List Wake) :
    (s.awake dial w).resume dial address l wakes = s.resume dial address l (w :: wakes) := by
  obtain ⟨swarm, phase, older⟩ := s
  cases phase with
  | ended result => cases result <;> rfl
  | listening =>
    cases w with
    | delay => rfl
    | event e =>
      cases e with
      | newListenAddr a =>
        cases dial with
        | ok _ => rfl
        | error e => rfl
      | listenerError | connectionEstablished _ _ | identifyReceived _ | other => rfl
  | identifying =>
    cases w with
    | delay => simp [awake, resume, EventLoop.awaitIdentify, hl]
    | event e =>
      cases e with
      | identifyReceived peer => rfl
      | newListenAddr _ | listenerError | connectionEstablished _ _ | other => rfl

theorem Startup.awake_swarm (w : Wake) : (s.awake dial w).swarm = s.swarm := rfl

/-- What each allowed step does. -/
inductive StartupStepped (debug : Bool) (dial : Except DialError Unit) (s : Startup) :
    StartupLabel → Startup → Prop where
  | woke (w : Wake) : StartupStepped debug dial s (.wake w) (s.awake dial w)
  /-- `FileGet` has no event to tell of. -/
  | polled (swarm : System) : s.swarm.yielded? = none →
      s.swarm.step debug .pollBehaviour = .ok swarm →
      StartupStepped debug dial s .pollFileGet { s with swarm := swarm }
  | discarded (event : FileGetEvent) (swarm swarm' : System) :
      s.swarm.yielded? = some event → s.swarm.step debug .pollBehaviour = .ok swarm →
      swarm.discard debug event = .ok swarm' →
      StartupStepped debug dial s .pollFileGet
        ({ s with swarm := swarm' }.awake dial (.event .other))
  | swarm (label : Label) (swarm : System) : Node.isOwn label = false →
      s.swarm.Allowed label = true → s.swarm.step debug label = .ok swarm →
      StartupStepped debug dial s (.swarm label) { s with swarm := swarm }

theorem Startup.step_stepped {s' : Startup} {a : StartupLabel} (ha : s.Allowed a = true)
    (h : s.step debug dial a = .ok s') : StartupStepped debug dial s a s' := by
  cases a with
  | wake w =>
    obtain rfl := Except.ok.inj h
    exact .woke w
  | pollFileGet =>
    simp only [step] at h
    cases hs : s.swarm.step debug .pollBehaviour with
    | error e => simp [hs, bind, Except.bind] at h
    | ok swarm =>
      simp only [hs, bind, Except.bind] at h
      cases hevent : s.swarm.yielded? with
      | none =>
        simp only [hevent, Except.ok.injEq] at h
        exact h ▸ .polled swarm hevent hs
      | some event =>
        simp only [hevent] at h
        cases hd : swarm.discard debug event with
        | error e => simp [hd] at h
        | ok swarm' =>
          simp only [hd, Except.ok.injEq] at h
          exact h ▸ .discarded event swarm swarm' hevent hs hd
  | swarm label =>
    simp only [step] at h
    cases hs : s.swarm.step debug label with
    | error e => simp [hs, bind, Except.bind] at h
    | ok swarm =>
      simp only [hs, bind, Except.bind, Except.ok.injEq] at h
      simp only [Allowed, Bool.and_eq_true, Bool.not_eq_true'] at ha
      exact h ▸ .swarm label swarm ha.1.2 ha.2 hs

/-- A step of a run is one of those. -/
theorem run_startupStepped {t : Transition Startup StartupLabel}
    (h : (startupMachine config debug dial).Run (t :: tr) s) :
    StartupStepped debug dial t.pre t.label t.post := by
  obtain ⟨-, hallowed, hok, -⟩ := h.tail
  exact Startup.step_stepped hallowed hok

/-- A step leaves to `init` what the wakes before it left. -/
theorem StartupStepped.resume {s' : Startup} {a : StartupLabel}
    (h : StartupStepped debug dial s a s') (address : Multiaddr) {l : EventLoop}
    (hl : l.rendezvousPointPeerId = none)
    (hs : ∀ wakes, l.init address (fun _ => dial) (s.wakes ++ wakes) =
      s.resume dial address l wakes) (wakes : List Wake) :
    l.init address (fun _ => dial) (s'.wakes ++ wakes) = s'.resume dial address l wakes := by
  cases h with
  | woke w =>
    rw [Startup.resume_awake address hl w wakes, ← hs]
    simp [Startup.awake]
  | polled swarm _ _ | swarm label swarm _ _ _ => exact hs wakes
  | discarded event swarm swarm' _ _ _ =>
    have hawake : ({ s with swarm := swarm' }.awake dial (.event .other)).resume dial address l
        wakes = s.resume dial address l (.event .other :: wakes) :=
      Startup.resume_awake address hl (.event .other) wakes
    rw [hawake, ← hs]
    simp [Startup.awake]

/-- **The machine does what the function says**: with what the loops have
woken up with so far, `init` has come to where the machine is. -/
theorem run_init (h : (startupMachine config debug dial).Run tr s) (address : Multiaddr)
    {l : EventLoop} (hl : l.rendezvousPointPeerId = none) (wakes : List Wake) :
    l.init address (fun _ => dial) (s.wakes ++ wakes) = s.resume dial address l wakes := by
  induction tr generalizing s wakes with
  | nil =>
    cases h
    rfl
  | cons t tr ih =>
    obtain ⟨hrun, -, -, rfl⟩ := h.tail
    exact (run_startupStepped h).resume address hl (ih hrun) wakes

/-! ## `FileGet` under `init` -/

/-- The steps of `FileGet`'s side of the swarm that a step is, newest
first. -/
def startupSteps (debug : Bool) (t : Transition Startup StartupLabel) : Trace System Label :=
  let (pre, post) := (t.pre.swarm, t.post.swarm)
  match t.label with
  | .wake _ => []
  | .swarm label => [⟨pre, label, post⟩]
  | .pollFileGet =>
    match pre.yielded?, pre.step debug .pollBehaviour with
    | some (.requestReceived _ _ _ channel), .ok swarm =>
      [⟨swarm, .dropResponder channel, post⟩, ⟨pre, .pollBehaviour, swarm⟩]
    | _, _ => [⟨pre, .pollBehaviour, post⟩]

/-- The step throws a request away, and the sender of this channel. -/
def DiscardsRequest (ch : ChannelId) (t : Transition Startup StartupLabel) : Prop :=
  t.label = .pollFileGet ∧ ∃ p r message,
    t.pre.swarm.yielded? = some (.requestReceived p r message ch)

/-- What a step of `init` can be to `FileGet`. -/
inductive StartupShown (t : Transition Startup StartupLabel) : Label → Prop where
  | polls : t.label = .pollFileGet → StartupShown t .pollBehaviour
  | discards (ch : ChannelId) : DiscardsRequest ch t → StartupShown t (.dropResponder ch)
  /-- A step of the swarm by itself. -/
  | alone (label : Label) : t.label = .swarm label → StartupShown t label

theorem startupShown_of_mem {t : Transition Startup StartupLabel} {u : Transition System Label}
    (hu : u ∈ startupSteps debug t) : StartupShown t u.label := by
  obtain ⟨s, label, s'⟩ := t
  unfold startupSteps at hu
  dsimp only at hu
  cases label with
  | wake w => cases hu
  | swarm label =>
    rw [List.mem_singleton.mp hu]
    exact .alone label rfl
  | pollFileGet =>
    dsimp only at hu
    split at hu
    · rename_i p r message channel swarm hevent hs
      rcases List.mem_pair.mp hu with rfl | rfl
      · exact .discards channel ⟨rfl, p, r, message, hevent⟩
      · exact .polls rfl
    · rw [List.mem_singleton.mp hu]
      exact .polls rfl

/-- `init` does nothing else to `FileGet` by itself. -/
theorem isOwn_of_startup_alone {t : Transition Startup StartupLabel} {label : Label}
    (h : StartupStepped debug dial t.pre t.label t.post) (hlabel : t.label = .swarm label) :
    Node.isOwn label = false := by
  obtain ⟨s, _, s'⟩ := t
  dsimp only at h hlabel
  subst hlabel
  cases h with
  | swarm _ _ hown _ _ => exact hown

/-- A poll that hands a request out hands out its sender, and does nothing
to the connections. -/
theorem yielded_request {s swarm : System} {p : PeerId} {r : RequestId}
    {message : FileGetMessage} {channel : ChannelId}
    (h : s.yielded? = some (.requestReceived p r message channel))
    (hs : s.step debug .pollBehaviour = .ok swarm) :
    swarm.links = s.links ∧ swarm.responders = channel :: s.responders := by
  unfold System.yielded? at h
  split at h
  · rename_i event rest hq
    obtain rfl := Option.some.inj h
    rw [poll_ready hq hs]
    exact ⟨rfl, rfl⟩
  · cases h

/-- Any other poll hands out no sender. -/
theorem yielded_responders {s swarm : System}
    (h : ∀ p r message channel, s.yielded? ≠ some (.requestReceived p r message channel))
    (hs : s.step debug .pollBehaviour = .ok swarm) : swarm.responders = s.responders := by
  cases hq : s.fileGet.pendingEvents with
  | nil => rw [poll_idle hq hs]
  | cons action rest =>
    rw [poll_ready hq hs]
    cases action with
    | dial _ _ | notifyHandler _ _ _ => rfl
    | generateEvent event =>
      cases event with
      | requestReceived p r message channel =>
        exact absurd (by simp [System.yielded?, hq]) (h p r message channel)
      | responseReceived _ _ | responseSent _ _ | outboundFailure _ _ _ | inboundFailure _ _ _ =>
        rfl

theorem startupSteps_steps {t : Transition Startup StartupLabel}
    (h : StartupStepped debug dial t.pre t.label t.post) :
    (fileGetSystem config debug).Steps t.pre.swarm (startupSteps debug t) t.post.swarm := by
  obtain ⟨s, label, s'⟩ := t
  dsimp only at h
  unfold startupSteps
  cases h with
  | woke w => exact .nil
  | swarm label swarm hown ha hs => exact .single ha hs
  | polled swarm hevent hs =>
    simp only [hevent]
    exact .single rfl hs
  | discarded event swarm swarm' hevent hs hd =>
    simp only [hevent, hs]
    cases event with
    | requestReceived p r message channel =>
      have hallowed : swarm.Allowed (.dropResponder channel) = true := by
        simp [System.Allowed, (yielded_request hevent hs).2]
      exact .cons (.single rfl hs) hallowed hd
    | responseReceived _ _ | responseSent _ _ | outboundFailure _ _ _ | inboundFailure _ _ _ =>
      obtain rfl := Except.ok.inj hd
      exact .single rfl hs

/-- `init` begins with the swarm it was given. -/
theorem startup_init_run : (fileGetSystem config debug).Run []
    (startupMachine config debug dial).init.swarm :=
  .start

/-- **`init` drives `FileGet`.** -/
def startupDrives (config : FileGetConfig) (debug : Bool) (dial : Except DialError Unit) :
    Drives (startupMachine config debug dial) (fileGetSystem config debug) :=
  .always Startup.swarm (startupSteps debug) [] startup_init_run fun h =>
    startupSteps_steps (run_startupStepped h)

theorem startupDrives_part (tr : Trace Startup StartupLabel) :
    (startupDrives config debug dial).part tr = tr.flatMap (startupSteps debug) :=
  List.append_nil _

/-- `init` sends no request. -/
theorem isSend_of_mem_startupSteps {t : Transition Startup StartupLabel}
    (h : StartupStepped debug dial t.pre t.label t.post) {u : Transition System Label}
    (hu : u ∈ startupSteps debug t) : u.label.isSend = false := by
  have hshown := startupShown_of_mem hu
  generalize u.label = label at hshown ⊢
  cases hshown with
  | polls _ | discards _ _ => rfl
  | alone label hlabel =>
    have hown := isOwn_of_startup_alone h hlabel
    cases label with
    | sendRequest _ _ _ => cases hown
    | _ => rfl

theorem run_startup_sends (h : (startupMachine config debug dial).Run tr s) :
    sends ((startupDrives config debug dial).part tr) = 0 := by
  unfold sends
  rw [List.countP_eq_zero]
  intro u hu
  rw [startupDrives_part] at hu
  obtain ⟨t, ht, hut⟩ := List.mem_flatMap.mp hu
  obtain ⟨newer, older, rfl⟩ := List.append_of_mem ht
  have hstep := run_startupStepped (h.of_suffix (List.suffix_append newer _))
  simp [isSend_of_mem_startupSteps hstep hut]

/-! ## What the node begins with -/

/-- What a run of `init` hands over. -/
def Startup.started (h : (startupMachine config debug dial).Run tr s) (sharingDir : Path)
    (peer : PeerId) : Started config debug where
  swarm := s.swarm
  trace := (startupDrives config debug dial).part tr
  run := (startupDrives config debug dial).run h trivial
  noRequest := run_startup_sends h
  rendezvousPointPeerId := peer
  sharingDir := sharingDir

/-- What has happened to `FileGet` since the process began. -/
theorem started_part {fits : String → Bool} (h : (startupMachine config debug dial).Run tr s)
    (sharingDir : Path) (peer : PeerId) (ntr : Trace Node NodeLabel) :
    (nodeDrives fits (Startup.started h sharingDir peer)).part ntr =
      ntr.flatMap (fileGetSteps fits debug) ++ tr.flatMap (startupSteps debug) := by
  simp [nodeDrives_part, startupDrives_part, Startup.started]

/-- **`init` hands over a running swarm.** The machine ends as the function
does on what the loops have woken up with, and with `Ok` the loop is the one
the node begins with. -/
theorem startup_hands_over (h : (startupMachine config debug dial).Run tr s) (sharingDir : Path)
    (address : Multiaddr) :
    (∀ peer, s.phase = .ended (.ok peer) →
      EventLoop.init (.new s.swarm sharingDir) address (fun _ => dial) s.wakes =
        some (.ok (Startup.started h sharingDir peer).node.loop)) ∧
    (∀ e, s.phase = .ended (.error e) →
      EventLoop.init (.new s.swarm sharingDir) address (fun _ => dial) s.wakes = some (.error e)) ∧
    (s.isEnded = false →
      EventLoop.init (.new s.swarm sharingDir) address (fun _ => dial) s.wakes = none) := by
  have hresume := run_init h address (l := .new s.swarm sharingDir) rfl []
  rw [List.append_nil] at hresume
  rw [hresume]
  unfold Startup.resume
  refine ⟨?_, ?_, ?_⟩
  · intro peer hphase
    rw [hphase]
    rfl
  · intro e hphase
    rw [hphase]
  · intro hended
    cases hphase : s.phase with
    | listening => rfl
    | identifying => rfl
    | ended result => simp [Startup.isEnded, hphase] at hended

/-- A run of `init` in which a peer asks for a file before the rendezvous
point is there. -/
theorem exists_startup_run : ∃ newer t older s,
    (startupMachine ⟨10⟩ true (.ok ())).Run (newer ++ t :: older) s ∧ t.label = .pollFileGet ∧
    s.phase = .ended (.ok ⟨8⟩) ∧
    t.pre.swarm.yielded? = some (.requestReceived ⟨7⟩ (.nth 0) ⟨"f"⟩ ⟨0⟩) ∧
    (∃ l ∈ t.pre.swarm.links, l.id = ⟨1⟩ ∧ ∃ sub ∈ l.inbound, sub.channel = ⟨0⟩) ∧
    s.swarm.Allowed (.inbound ⟨1⟩ ⟨0⟩ .pollReader) = true ∧
    ∃ swarm, s.swarm.step true (.inbound ⟨1⟩ ⟨0⟩ .pollReader) = .ok swarm ∧
      ∃ l ∈ swarm.links, l.panicked ≠ none := by
  obtain ⟨newer, t, older, s, hrun, hpoll, -, hP⟩ :=
    Machine.exists_run_split (M := startupMachine ⟨10⟩ true (.ok ()))
    [.wake (.event (.newListenAddr ⟨"a"⟩)),
      .swarm (.connectionEstablished ⟨7⟩ ⟨1⟩ (.listener ⟨"b"⟩ ⟨"c"⟩) false),
      .swarm (.openInbound ⟨1⟩), .swarm (.inbound ⟨1⟩ ⟨0⟩ (.received (.ok ⟨"f"⟩))),
      .swarm (.pollHandler ⟨1⟩ 0 0), .swarm (.deliverEvent ⟨1⟩)]
    .pollFileGet [.wake (.event (.identifyReceived ⟨8⟩))]
    (fun _ t s => decide (s.phase = .ended (.ok ⟨8⟩) ∧
      t.pre.swarm.yielded? = some (.requestReceived ⟨7⟩ (.nth 0) ⟨"f"⟩ ⟨0⟩) ∧
      (∃ l ∈ t.pre.swarm.links, l.id = ⟨1⟩ ∧ ∃ sub ∈ l.inbound, sub.channel = ⟨0⟩) ∧
      s.swarm.Allowed (.inbound ⟨1⟩ ⟨0⟩ .pollReader) = true) &&
      (s.swarm.step true (.inbound ⟨1⟩ ⟨0⟩ .pollReader)).toOption.any fun (swarm : System) =>
        decide (∃ l ∈ swarm.links, l.panicked ≠ none)) (by decide) (by decide)
  rw [Bool.and_eq_true] at hP
  obtain ⟨hP, hstep⟩ := hP
  obtain ⟨hphase, hevent, hlink, hallowed⟩ := of_decide_eq_true hP
  refine ⟨newer, t, older, s, hrun, hpoll, hphase, hevent, hlink, hallowed, ?_⟩
  cases hs : s.swarm.step true (.inbound ⟨1⟩ ⟨0⟩ .pollReader) with
  | error e =>
    rw [hs] at hstep
    cases hstep
  | ok swarm =>
    rw [hs] at hstep
    exact ⟨swarm, rfl, of_decide_eq_true hstep⟩

/-- The rendezvous point identifies itself, and the loop knows it. -/
theorem startup_hands_over_identified : ∃ tr s l,
    (startupMachine ⟨10⟩ true (.ok ())).Run tr s ∧
    EventLoop.init (.new s.swarm []) ⟨"r"⟩ (fun _ => .ok ()) s.wakes = some (.ok l) ∧
    l.rendezvousPointPeerId = some ⟨8⟩ := by
  obtain ⟨newer, t, older, s, hrun, -, hphase, -⟩ := exists_startup_run
  exact ⟨_, s, _, hrun, (startup_hands_over hrun [] ⟨"r"⟩).1 ⟨8⟩ hphase, rfl⟩

/-! ## Requests that come too early -/

/-- A sender that `init` drops is that of a request it throws away. -/
theorem discards_of_drop {t : Transition Startup StartupLabel}
    (h : StartupStepped debug dial t.pre t.label t.post) {u : Transition System Label}
    (hu : u ∈ startupSteps debug t) {ch : ChannelId} (hlabel : u.label = .dropResponder ch) :
    DiscardsRequest ch t := by
  have hshown := startupShown_of_mem hu
  generalize u.label = label at hshown hlabel
  cases hshown with
  | polls _ => cases hlabel
  | discards ch' ht =>
    obtain rfl := Label.dropResponder.inj hlabel
    exact ht
  | alone label halone =>
    have hown := isOwn_of_startup_alone h halone
    rw [hlabel] at hown
    cases hown

/-- With the request goes its sender, and the connections stay. -/
theorem drop_of_discards {t : Transition Startup StartupLabel}
    (h : StartupStepped debug dial t.pre t.label t.post) {ch : ChannelId}
    (ht : DiscardsRequest ch t) :
    ∃ swarm, startupSteps debug t = [⟨swarm, .dropResponder ch, t.post.swarm⟩,
        ⟨t.pre.swarm, .pollBehaviour, swarm⟩] ∧ swarm.links = t.pre.swarm.links := by
  obtain ⟨s, label, s'⟩ := t
  obtain ⟨hlabel, p, r, message, hevent⟩ := ht
  dsimp only at h hlabel hevent ⊢
  subst hlabel
  cases h with
  | polled swarm hnone hs =>
    rw [hevent] at hnone
    cases hnone
  | discarded event swarm swarm' _ hs hd =>
    refine ⟨swarm, ?_, (yielded_request hevent hs).1⟩
    simp only [startupSteps, hevent, hs]

/-- `init` keeps no response sender. -/
theorem run_startup_responders (h : (startupMachine config debug dial).Run tr s) :
    s.swarm.responders = [] := by
  induction tr generalizing s with
  | nil =>
    cases h
    rfl
  | cons t tr ih =>
    obtain ⟨hrun, -, -, rfl⟩ := h.tail
    have hm := run_mirror ((startupDrives config debug dial).run hrun trivial)
    have hpre := ih hrun
    have hstep := run_startupStepped h
    obtain ⟨s, label, s'⟩ := t
    dsimp only at hm hpre hstep ⊢
    cases hstep with
    | woke w => exact hpre
    | swarm label swarm hown ha hs =>
      exact (stepped_responders hown (step_stepped hm ha hs)).trans hpre
    | polled swarm hevent hs =>
      exact (yielded_responders (by simp [hevent]) hs).trans hpre
    | discarded event swarm swarm' hevent hs hd =>
      cases event with
      | requestReceived p r message channel =>
        obtain rfl := Except.ok.inj hd
        simp [Startup.awake_swarm, System.dropSender, (yielded_request hevent hs).2, hpre]
      | responseReceived _ _ | responseSent _ _ | outboundFailure _ _ _ | inboundFailure _ _ _ =>
        obtain rfl := Except.ok.inj hd
        exact (yielded_responders (by simp [hevent]) hs).trans hpre

/-- What the swarm does by itself while `init` runs is a step of its own. -/
theorem startup_of_taken {t : Transition Startup StartupLabel} {u : Transition System Label}
    (hu : u ∈ startupSteps debug t) (hown : Node.isOwn u.label = false) :
    t.label = .swarm u.label := by
  have hshown := startupShown_of_mem hu
  generalize u.label = label at hshown hown ⊢
  cases hshown with
  | polls _ | discards _ _ => cases hown
  | alone _ hlabel => exact hlabel

section Nodes

variable {fits : String → Bool} {newer older : Trace Startup StartupLabel}
  {t : Transition Startup StartupLabel} {ch : ChannelId} {sharingDir : Path} {peer : PeerId}
  {ntr : Trace Node NodeLabel} {n : Node}

/-- And so it is while the node runs. -/
theorem node_of_taken {t : Transition Node NodeLabel} {u : Transition System Label}
    (hu : u ∈ fileGetSteps fits debug t) (hown : Node.isOwn u.label = false) :
    t.label = .swarm u.label := by
  have hshown := fileGetShown_of_mem hu
  generalize u.label = label at hshown hown ⊢
  cases hshown with
  | asks _ _ _ _ _ _ _ | polls _ _ | serves _ _ _ _ _ | refuses _ _ _ => cases hown
  | alone _ hlabel => exact hlabel

theorem TakenAway.not_own {c : ConnectionId} {a : Label} (h : TakenAway c ch a) :
    Node.isOwn a = false := by
  rcases h with ⟨p, o, i, rfl⟩ | ⟨error, rfl⟩ <;> rfl

/-- An upgrade whose request `init` has thrown away waits for a reader that
never comes, until the swarm takes it away. -/
theorem run_discarded (hinit : (startupMachine config debug dial).Run (newer ++ t :: older) s)
    (ht : DiscardsRequest ch t) {l : Link} (hl : l ∈ t.pre.swarm.links) {sub : InboundSubstream}
    (hsub : sub ∈ l.inbound) (hch : sub.channel = ch)
    (h : (nodeMachine fits (Startup.started hinit sharingDir peer)).Run ntr n) :
    Abandoned l.id ch n.loop.swarm ∨
    UpgradeEnded l.id ch n.loop.swarm ∧ ∃ a, TakenAway l.id ch a ∧
      ((∃ u ∈ newer, u.label = .swarm a) ∨ ∃ u ∈ ntr, u.label = .swarm a) := by
  have hstep := run_startupStepped (hinit.of_suffix (List.suffix_append newer _))
  obtain ⟨swarm, hshows, hlinks⟩ := drop_of_discards hstep ht
  -- the run of `FileGet` behind both, cut at the drop
  have hpart : (nodeDrives fits (Startup.started hinit sharingDir peer)).part ntr =
      (ntr.flatMap (fileGetSteps fits debug) ++ newer.flatMap (startupSteps debug)) ++
        ⟨swarm, .dropResponder ch, t.post.swarm⟩ :: ⟨t.pre.swarm, .pollBehaviour, swarm⟩ ::
          older.flatMap (startupSteps debug) := by
    simp [started_part, hshows]
  have hrun := (nodeDrives fits (Startup.started hinit sharingDir peer)).run h trivial
  rw [hpart] at hrun
  obtain ⟨hold, hallowed, -⟩ := hrun.of_append
  obtain ⟨-, hdrop⟩ := run_stepped (hrun.of_suffix (List.suffix_append _ _))
  have hab : Abandoned l.id ch t.post.swarm :=
    abandoned_of_drop (run_wired hold) hallowed hdrop (hlinks ▸ hl) hsub hch
  rcases run_abandoned hrun hab with ⟨hwait, -⟩ | ⟨hend, -, u, hu, htaken⟩
  · exact .inl hwait
  · refine .inr ⟨hend, u.label, htaken, ?_⟩
    rcases List.mem_append.mp hu with hu | hu
    · obtain ⟨v, hv, huv⟩ := List.mem_flatMap.mp hu
      exact .inr ⟨v, hv, node_of_taken huv htaken.not_own⟩
    · obtain ⟨v, hv, huv⟩ := List.mem_flatMap.mp hu
      exact .inl ⟨v, hv, startup_of_taken huv htaken.not_own⟩

/-- **Who asks while `init` runs gets no answer**: the upgrade waits for a
reader that never comes, in every later state of the node, until the swarm
takes it away; and if it is polled before that, its task panics. -/
theorem discarded_request_unserved
    (hinit : (startupMachine config debug dial).Run (newer ++ t :: older) s)
    (ht : DiscardsRequest ch t) {l : Link} (hl : l ∈ t.pre.swarm.links) {sub : InboundSubstream}
    (hsub : sub ∈ l.inbound) (hch : sub.channel = ch)
    (h : (nodeMachine fits (Startup.started hinit sharingDir peer)).Run ntr n) :
    (Abandoned l.id ch n.loop.swarm ∨
      UpgradeEnded l.id ch n.loop.swarm ∧ ∃ a, TakenAway l.id ch a ∧
        ((∃ u ∈ newer, u.label = .swarm a) ∨ ∃ u ∈ ntr, u.label = .swarm a)) ∧
    ∀ u ∈ ntr, u.label = .swarm (.inbound l.id ch .pollReader) →
      ∃ k ∈ u.post.loop.swarm.links, k.id = l.id ∧ k.panicked ≠ none := by
  refine ⟨run_discarded hinit ht hl hsub hch h, ?_⟩
  intro u hu hpoll
  obtain ⟨after, before, rfl⟩ := List.append_of_mem hu
  have hbefore := h.of_append.1
  have hrun := (nodeDrives fits _).run hbefore trivial
  have hm := run_mirror hrun
  have hstep := (run_nodeStepped (h.of_suffix (List.suffix_append after _))).2.2
  obtain ⟨pre, label, post⟩ := u
  dsimp only at hpoll hstep hbefore hrun hm ⊢
  subst hpoll
  cases hstep with
  | swarm _ swarm _ hallowed hs =>
    rcases run_discarded hinit ht hl hsub hch hbefore with hwait | ⟨hend, -⟩
    · exact (hwait.poll_panics hm (run_wired hrun) hallowed (step_stepped hm hallowed hs)).2
    · obtain ⟨k, hk, hkid, -, x, hx, hxch, -⟩ := inbound_allowed hallowed
      exact absurd hxch (hend k hk hkid x hx)

/-- **A connection task panics only over a request that `init` threw away, or
the one whose file did not open**, and with that one the loop stopped; whatever
the peers and the swarm do. The loop keeps no response sender. -/
theorem panicked_over_discarded (hinit : (startupMachine config debug dial).Run tr s)
    (h : (nodeMachine fits (Startup.started hinit sharingDir peer)).Run ntr n) :
    (∀ l ∈ n.loop.swarm.links, l.panicked ≠ none →
      ∃ sub ∈ l.inbound, sub.response = .dropped ∧
        ((∃ t ∈ tr, DiscardsRequest sub.channel t) ∨
          ∃ e, n.stopped = some (.err (.io e)) ∧ ∃ t ∈ ntr, RefusesRequest sub.channel e t)) ∧
    n.loop.swarm.responders = [] := by
  refine ⟨?_, ?_⟩
  · intro l hl hpanicked
    obtain ⟨sub, hsub, hdropped, hcause⟩ := panicked_by_drop h hl hpanicked
    refine ⟨sub, hsub, hdropped, hcause.imp_left fun ⟨u, hu, hlabel⟩ => ?_⟩
    simp only [Startup.started, startupDrives_part] at hu
    obtain ⟨t, ht, hut⟩ := List.mem_flatMap.mp hu
    obtain ⟨newer, older, rfl⟩ := List.append_of_mem ht
    have hstep := run_startupStepped (hinit.of_suffix (List.suffix_append newer _))
    exact ⟨t, ht, discards_of_drop hstep hut hlabel⟩
  · rw [run_responders h]
    exact run_startup_responders hinit

end Nodes

/-- A node whose first step polls an upgrade. -/
theorem exists_polled_node {s : Startup} {tr : Trace Startup StartupLabel}
    (h : (startupMachine config debug dial).Run tr s) {c : ConnectionId} {ch : ChannelId}
    (hallowed : s.swarm.Allowed (.inbound c ch .pollReader) = true) {swarm : System}
    (hs : s.swarm.step debug (.inbound c ch .pollReader) = .ok swarm) :
    ∃ u n, (nodeMachine (fun _ => true) (Startup.started h [] ⟨8⟩)).Run [u] n ∧
      u.label = .swarm (.inbound c ch .pollReader) ∧ n.stopped = none ∧
      n.loop.swarm = swarm := by
  let start := Startup.started h [] ⟨8⟩
  let n := start.node
  have ha : n.Allowed (.swarm (.inbound c ch .pollReader)) = true := by
    simp only [Node.Allowed, Bool.and_eq_true]
    exact ⟨⟨rfl, hallowed⟩, rfl⟩
  have hok : n.step (fun _ => true) debug (.swarm (.inbound c ch .pollReader)) =
      .ok (n.withSwarm swarm) := by
    show (do
      let swarm ← s.swarm.step debug (.inbound c ch .pollReader)
      .ok (n.withSwarm swarm)) = _
    rw [hs]
    rfl
  exact ⟨_, _, .next (.start (M := nodeMachine (fun _ => true) start)) ha hok, rfl, rfl, rfl⟩

/-- The peer of `exists_startup_run` asked too early, and its upgrade is
polled. -/
theorem discarded_request_unserved_polled : ∃ tr s,
    ∃ hinit : (startupMachine ⟨10⟩ true (.ok ())).Run tr s, ∃ u n,
    (nodeMachine (fun _ => true) (Startup.started hinit [] ⟨8⟩)).Run [u] n ∧
    u.label = .swarm (.inbound ⟨1⟩ ⟨0⟩ .pollReader) ∧
    ∃ k ∈ u.post.loop.swarm.links, k.id = ⟨1⟩ ∧ k.panicked ≠ none := by
  obtain ⟨newer, t, older, s, hrun, hpoll, -, hevent, ⟨l, hl, hid, sub, hsub, hch⟩, hallowed,
    swarm, hs, -⟩ := exists_startup_run
  obtain ⟨u, n, hnode, hlabel, -, -⟩ := exists_polled_node hrun hallowed hs
  have hpanics := (discarded_request_unserved hrun ⟨hpoll, _, _, _, hevent⟩ hl hsub hch hnode).2 u
    List.mem_cons_self (by rw [hlabel, hid])
  rw [hid] at hpanics
  exact ⟨_, s, hrun, u, n, hnode, hlabel, hpanics⟩

/-- A run of `init` in which only the rendezvous point comes. -/
theorem startup_run_alone : (startupMachine ⟨10⟩ true (.ok ())).Run
    [⟨⟨.init ⟨10⟩, .identifying, [.event (.newListenAddr ⟨"a"⟩)]⟩,
        .wake (.event (.identifyReceived ⟨8⟩)),
        ⟨.init ⟨10⟩, .ended (.ok ⟨8⟩),
          [.event (.newListenAddr ⟨"a"⟩), .event (.identifyReceived ⟨8⟩)]⟩⟩,
      ⟨⟨.init ⟨10⟩, .listening, []⟩, .wake (.event (.newListenAddr ⟨"a"⟩)),
        ⟨.init ⟨10⟩, .identifying, [.event (.newListenAddr ⟨"a"⟩)]⟩⟩]
    ⟨.init ⟨10⟩, .ended (.ok ⟨8⟩),
      [.event (.newListenAddr ⟨"a"⟩), .event (.identifyReceived ⟨8⟩)]⟩ :=
  .next (.next .start (by decide) rfl) (by decide) rfl

/-- After it a peer asks for a file that does not open, and the upgrade is
polled before the swarm is gone. -/
theorem exists_refusing_node : ∃ ntr n,
    (nodeMachine (fun _ => true) (Startup.started startup_run_alone [] ⟨8⟩)).Run ntr n ∧
    ∃ l ∈ n.loop.swarm.links, l.panicked ≠ none := by
  obtain ⟨ntr, n, hrun, hP⟩ := Machine.exists_run_of_labels
    (M := nodeMachine (fun _ => true) (Startup.started startup_run_alone [] ⟨8⟩))
    [.swarm (.connectionEstablished ⟨7⟩ ⟨1⟩ (.listener ⟨"b"⟩ ⟨"c"⟩) false),
      .swarm (.openInbound ⟨1⟩), .swarm (.inbound ⟨1⟩ ⟨0⟩ (.received (.ok ⟨"f"⟩))),
      .swarm (.pollHandler ⟨1⟩ 0 0), .swarm (.deliverEvent ⟨1⟩), .pollFileGet .missing,
      .swarm (.inbound ⟨1⟩ ⟨0⟩ .pollReader)]
    (fun _ n => decide (∃ l ∈ n.loop.swarm.links, l.panicked ≠ none)) (by decide) (by decide)
  exact ⟨ntr, n, hrun, of_decide_eq_true hP⟩

/-- A task has panicked over a request that was thrown away, and one over
the request that stopped the loop. -/
theorem panicked_over_discarded_polled :
    (∃ tr s, ∃ hinit : (startupMachine ⟨10⟩ true (.ok ())).Run tr s, ∃ ntr n,
      (nodeMachine (fun _ => true) (Startup.started hinit [] ⟨8⟩)).Run ntr n ∧
      (∃ l ∈ n.loop.swarm.links, l.panicked ≠ none ∧ ∃ sub ∈ l.inbound,
        sub.response = .dropped ∧ ∃ t ∈ tr, DiscardsRequest sub.channel t) ∧
      n.loop.swarm.responders = []) ∧
    ∃ tr s, ∃ hinit : (startupMachine ⟨10⟩ true (.ok ())).Run tr s, ∃ ntr n,
      (nodeMachine (fun _ => true) (Startup.started hinit [] ⟨8⟩)).Run ntr n ∧
      (∃ l ∈ n.loop.swarm.links, l.panicked ≠ none ∧ ∃ sub ∈ l.inbound,
        sub.response = .dropped ∧ ∃ e, n.stopped = some (.err (.io e)) ∧
          ∃ t ∈ ntr, RefusesRequest sub.channel e t) ∧
      n.loop.swarm.responders = [] := by
  constructor
  · obtain ⟨newer, t, older, s, hrun, -, -, -, -, hallowed, swarm, hs, l, hl, hpanicked⟩ :=
      exists_startup_run
    obtain ⟨u, n, hnode, -, hstop, hswarm⟩ := exists_polled_node hrun hallowed hs
    obtain ⟨hblamed, hresponders⟩ := panicked_over_discarded hrun hnode
    have hmem : l ∈ n.loop.swarm.links := hswarm ▸ hl
    obtain ⟨sub, hsub, hdropped, hdiscarded | ⟨e, hstopped, -⟩⟩ := hblamed l hmem hpanicked
    · exact ⟨_, s, hrun, _, n, hnode, ⟨l, hmem, hpanicked, sub, hsub, hdropped, hdiscarded⟩,
        hresponders⟩
    · rw [hstop] at hstopped
      cases hstopped
  · obtain ⟨ntr, n, hnode, l, hl, hpanicked⟩ := exists_refusing_node
    obtain ⟨hblamed, hresponders⟩ := panicked_over_discarded startup_run_alone hnode
    obtain ⟨sub, hsub, hdropped, ⟨t, ht, hpoll, -⟩ | hrefused⟩ := hblamed l hl hpanicked
    · -- that run of `init` polls nothing
      simp only [List.mem_cons, List.not_mem_nil, or_false] at ht
      rcases ht with rfl | rfl <;> cases hpoll
    · exact ⟨_, _, startup_run_alone, ntr, n, hnode,
        ⟨l, hl, hpanicked, sub, hsub, hdropped, hrefused⟩, hresponders⟩

end FileSharing
