/-
FileSharing.Network.Process — a process of the program, from its first step
on: `init`, and then the event loop that it hands over.

`new_network` awaits `init` and `main` spawns `run` on what it returned. So a
run of a process is a run of `init` and, once that has returned `Ok`, a run
of the node that begins with it (`run_process`). Its swarm is one all the
time, and what happens to `FileGet` and its side of the swarm is one run
(`processDrives`).
-/
import FileSharing.Network.Startup

namespace FileSharing

open Lib FileGet

/-! ## The machine -/

/-- A process, before and after `init` has returned. -/
inductive Process where
  | starting (s : Startup)
  | running (n : Node)

inductive ProcessLabel where
  | start (label : StartupLabel)
  /-- `init` has returned `Ok`, and `run` is called. -/
  | spawn
  | node (label : NodeLabel)

/-- What `init` hands over, with nothing received and nothing answered. -/
def Startup.node (s : Startup) (sharingDir : Path) (peer : PeerId) : Node where
  loop := { EventLoop.new s.swarm sharingDir with rendezvousPointPeerId := some peer }
  received := []
  answered := []
  discovers := 0
  listFilesSent := []
  listFilesOpen := []
  stopped := none
  swarmGone := false

namespace Process

/-- `FileGet`'s side of the swarm. -/
def swarm : Process → System
  | .starting s => s.swarm
  | .running n => n.loop.swarm

/-- The node, when `init` has returned. -/
def node? : Process → Option Node
  | .starting _ => none
  | .running n => some n

theorem node?_eq_some {p : Process} {n : Node} (h : p.node? = some n) : p = .running n := by
  cases p with
  | starting s => cases h
  | running m => exact congrArg Process.running (Option.some.inj h)

/-- One step. -/
def step (fits : String → Bool) (debug : Bool) (dial : Except DialError Unit) (sharingDir : Path) :
    Process → ProcessLabel → Except Panic Process
  | .starting s, .start label => do
    let s ← s.step debug dial label
    .ok (.starting s)
  | .starting s, .spawn =>
    match s.phase with
    | .ended (.ok peer) => .ok (.running (s.node sharingDir peer))
    | _ => .ok (.starting s)
  | .running n, .node label => do
    let n ← n.step fits debug label
    .ok (.running n)
  | p, _ => .ok p

/-- The loop is spawned when `init` has returned it. -/
def Allowed : Process → ProcessLabel → Bool
  | .starting s, .start label => s.Allowed label
  | .starting s, .spawn =>
    match s.phase with
    | .ended (.ok _) => true
    | _ => false
  | .running n, .node label => n.Allowed label
  | _, _ => false

end Process

/-- A process as a machine. -/
def processMachine (config : FileGetConfig) (debug : Bool) (fits : String → Bool)
    (dial : Except DialError Unit) (sharingDir : Path) : Machine Process ProcessLabel Panic where
  init := .starting (startupMachine config debug dial).init
  allowed := fun p a => p.Allowed a = true
  step := Process.step fits debug dial sharingDir

instance (config : FileGetConfig) (debug : Bool) (fits : String → Bool)
    (dial : Except DialError Unit) (sharingDir : Path) (p : Process) (a : ProcessLabel) :
    Decidable ((processMachine config debug fits dial sharingDir).allowed p a) :=
  inferInstanceAs (Decidable (p.Allowed a = true))

variable {config : FileGetConfig} {debug : Bool} {fits : String → Bool}
  {dial : Except DialError Unit} {sharingDir : Path} {p : Process}
  {tr : Trace Process ProcessLabel}

/-- What each allowed step does. -/
inductive ProcessStepped (fits : String → Bool) (debug : Bool) (dial : Except DialError Unit)
    (sharingDir : Path) : Process → ProcessLabel → Process → Prop where
  | start (s s' : Startup) (label : StartupLabel) : s.Allowed label = true →
      s.step debug dial label = .ok s' →
      ProcessStepped fits debug dial sharingDir (.starting s) (.start label) (.starting s')
  | spawn (s : Startup) (peer : PeerId) : s.phase = .ended (.ok peer) →
      ProcessStepped fits debug dial sharingDir (.starting s) .spawn
        (.running (s.node sharingDir peer))
  | node (n n' : Node) (label : NodeLabel) : n.Allowed label = true →
      n.step fits debug label = .ok n' →
      ProcessStepped fits debug dial sharingDir (.running n) (.node label) (.running n')

theorem Process.step_stepped {p' : Process} {a : ProcessLabel} (ha : p.Allowed a = true)
    (h : p.step fits debug dial sharingDir a = .ok p') :
    ProcessStepped fits debug dial sharingDir p a p' := by
  cases p with
  | starting s =>
    cases a with
    | start label =>
      simp only [step] at h
      cases hs : s.step debug dial label with
      | error e => simp [hs, bind, Except.bind] at h
      | ok s' =>
        simp only [hs, bind, Except.bind, Except.ok.injEq] at h
        exact h ▸ .start s s' label ha hs
    | spawn =>
      simp only [Allowed] at ha
      split at ha
      · rename_i peer hphase
        simp only [step, hphase, Except.ok.injEq] at h
        exact h ▸ .spawn s peer hphase
      · cases ha
    | node label => cases ha
  | running n =>
    cases a with
    | start label => cases ha
    | spawn => cases ha
    | node label =>
      simp only [step] at h
      cases hn : n.step fits debug label with
      | error e => simp [hn, bind, Except.bind] at h
      | ok n' =>
        simp only [hn, bind, Except.bind, Except.ok.injEq] at h
        exact h ▸ .node n n' label ha hn

theorem run_processStepped {t : Transition Process ProcessLabel}
    (h : (processMachine config debug fits dial sharingDir).Run (t :: tr) p) :
    ProcessStepped fits debug dial sharingDir t.pre t.label t.post := by
  obtain ⟨-, ha, hok, -⟩ := h.tail
  exact Process.step_stepped ha hok

/-! ## The two parts of a run -/

/-- The step of `init` that a step is. -/
def startSteps (t : Transition Process ProcessLabel) : Trace Startup StartupLabel :=
  match t.pre, t.label, t.post with
  | .starting s, .start label, .starting s' => [⟨s, label, s'⟩]
  | _, _, _ => []

/-- The step of the node that a step is. -/
def nodeOnlySteps (t : Transition Process ProcessLabel) : Trace Node NodeLabel :=
  match t.pre, t.label, t.post with
  | .running n, .node label, .running n' => [⟨n, label, n'⟩]
  | _, _, _ => []

/-- Where a process is. -/
inductive ProcessRan (config : FileGetConfig) (debug : Bool) (fits : String → Bool)
    (dial : Except DialError Unit) (sharingDir : Path) (tr : Trace Process ProcessLabel) :
    Process → Prop where
  | starting {s : Startup} : (startupMachine config debug dial).Run (tr.flatMap startSteps) s →
      tr.flatMap nodeOnlySteps = [] → ProcessRan config debug fits dial sharingDir tr (.starting s)
  | running {s : Startup} {n : Node} {peer : PeerId}
      (hinit : (startupMachine config debug dial).Run (tr.flatMap startSteps) s) :
      s.phase = .ended (.ok peer) →
      (nodeMachine fits (Startup.started hinit sharingDir peer)).Run
        (tr.flatMap nodeOnlySteps) n →
      ProcessRan config debug fits dial sharingDir tr (.running n)

/-- **A run of a process is a run of `init`, and then one of the node** that
begins with what `init` returned. -/
theorem run_process (h : (processMachine config debug fits dial sharingDir).Run tr p) :
    ProcessRan config debug fits dial sharingDir tr p := by
  induction tr generalizing p with
  | nil =>
    cases h
    exact .starting .start rfl
  | cons t tr ih =>
    obtain ⟨hrun, -, -, rfl⟩ := h.tail
    have hstep := run_processStepped h
    have hbefore := ih hrun
    obtain ⟨p, label, p'⟩ := t
    dsimp only at hstep hbefore ⊢
    cases hstep with
    | start s s' label ha hs =>
      cases hbefore with
      | starting hinit hnone => exact .starting (hinit.next ha hs) hnone
    | spawn s peer hphase =>
      cases hbefore with
      | starting hinit hnone =>
        refine .running hinit hphase ?_
        show (nodeMachine fits (Startup.started hinit sharingDir peer)).Run
          (tr.flatMap nodeOnlySteps) _
        rw [hnone]
        exact .start
    | node n n' label ha hn =>
      cases hbefore with
      | running hinit hphase hnode => exact .running hinit hphase (hnode.next ha hn)

/-! ## `FileGet` in a process -/

/-- The steps of `FileGet`'s side of the swarm that a step of a process is. -/
def processSteps (fits : String → Bool) (debug : Bool) (t : Transition Process ProcessLabel) :
    Trace System Label :=
  (nodeOnlySteps t).flatMap (fileGetSteps fits debug) ++
    (startSteps t).flatMap (startupSteps debug)

theorem processSteps_steps {t : Transition Process ProcessLabel}
    (h : (processMachine config debug fits dial sharingDir).Run (t :: tr) p) :
    (fileGetSystem config debug).Steps t.pre.swarm (processSteps fits debug t) t.post.swarm := by
  have hran := run_process h.tail.1
  have hstep := run_processStepped h
  obtain ⟨pre, label, post⟩ := t
  unfold processSteps
  dsimp only at hran hstep ⊢
  cases hstep with
  | start s s' label ha hs =>
    simpa [nodeOnlySteps, startSteps, Process.swarm] using startupSteps_steps (t := ⟨s, label, s'⟩)
      (Startup.step_stepped ha hs)
  | spawn s peer _ => exact .nil
  | node n n' label ha hn =>
    cases hran with
    | running hinit hphase hnode =>
      have hrun := hnode.next ha hn
      simpa [nodeOnlySteps, startSteps, Process.swarm] using
        fileGetSteps_steps (t := ⟨n, label, n'⟩) (run_nodeStepped hrun).2.2

theorem process_init_run :
    (fileGetSystem config debug).Run []
      (processMachine config debug fits dial sharingDir).init.swarm :=
  .start

/-- **A process drives `FileGet`**, from its first step on. -/
def processDrives (config : FileGetConfig) (debug : Bool) (fits : String → Bool)
    (dial : Except DialError Unit) (sharingDir : Path) :
    Drives (processMachine config debug fits dial sharingDir) (fileGetSystem config debug) :=
  .always Process.swarm (processSteps fits debug) [] process_init_run processSteps_steps

theorem processDrives_part (tr : Trace Process ProcessLabel) :
    (processDrives config debug fits dial sharingDir).part tr =
      tr.flatMap (processSteps fits debug) :=
  List.append_nil _

/-- What the swarm does by itself, before and after `init` has returned. -/
def ProcessLabel.swarm? : ProcessLabel → Option Label
  | .start (.swarm label) => some label
  | .node (.swarm label) => some label
  | _ => none

/-- Where a step of `FileGet` comes from. -/
inductive ProcessShown (fits : String → Bool) (t : Transition Process ProcessLabel) :
    Label → Prop where
  | start (s s' : Startup) (label : StartupLabel) (a : Label) :
      t = ⟨.starting s, .start label, .starting s'⟩ → StartupShown ⟨s, label, s'⟩ a →
      ProcessShown fits t a
  | node (n n' : Node) (label : NodeLabel) (a : Label) :
      t = ⟨.running n, .node label, .running n'⟩ → FileGetShown fits ⟨n, label, n'⟩ a →
      ProcessShown fits t a

theorem processShown_of_mem {t : Transition Process ProcessLabel} {u : Transition System Label}
    (hu : u ∈ processSteps fits debug t) : ProcessShown fits t u.label := by
  obtain ⟨pre, label, post⟩ := t
  rcases List.mem_append.mp hu with hu | hu
  · obtain ⟨v, hv, huv⟩ := List.mem_flatMap.mp hu
    unfold nodeOnlySteps at hv
    dsimp only at hv
    split at hv
    · obtain rfl := List.mem_singleton.mp hv
      exact .node _ _ _ _ rfl (fileGetShown_of_mem huv)
    · cases hv
  · obtain ⟨v, hv, huv⟩ := List.mem_flatMap.mp hu
    unfold startSteps at hv
    dsimp only at hv
    split at hv
    · obtain rfl := List.mem_singleton.mp hv
      exact .start _ _ _ _ rfl (startupShown_of_mem huv)
    · cases hv

/-- A step that is not the process's own doing is one of the swarm. -/
theorem ProcessShown.swarm {t : Transition Process ProcessLabel} {a : Label}
    (h : ProcessShown fits t a) (hown : Node.isOwn a = false) : t.label.swarm? = some a := by
  cases h with
  | start s s' label _ ht hshown =>
    subst ht
    cases hshown with
    | polls _ | discards _ _ => cases hown
    | alone _ hlabel =>
      dsimp only at hlabel
      subst hlabel
      rfl
  | node n n' label _ ht hshown =>
    subst ht
    cases hshown with
    | asks _ _ _ _ _ _ _ | polls _ _ | serves _ _ _ _ _ | refuses _ _ _ => cases hown
    | alone _ hlabel =>
      dsimp only at hlabel
      subst hlabel
      rfl

/-- And a step of the swarm is shown as it is. -/
theorem processSteps_swarm (h : (processMachine config debug fits dial sharingDir).Run tr p)
    {t : Transition Process ProcessLabel} (ht : t ∈ tr) {a : Label}
    (hlabel : t.label.swarm? = some a) :
    ⟨t.pre.swarm, a, t.post.swarm⟩ ∈ processSteps fits debug t := by
  obtain ⟨newer, older, rfl⟩ := List.append_of_mem ht
  have hstep := run_processStepped (h.of_suffix (List.suffix_append newer _))
  obtain ⟨pre, label, post⟩ := t
  unfold processSteps
  dsimp only at hstep hlabel ⊢
  cases hstep with
  | start s s' label _ _ =>
    cases label with
    | swarm a' =>
      obtain rfl := Option.some.inj hlabel
      simp [nodeOnlySteps, startSteps, startupSteps, Process.swarm]
    | wake _ | pollFileGet => cases hlabel
  | spawn s peer _ => cases hlabel
  | node n n' label _ _ =>
    cases label with
    | swarm a' =>
      obtain rfl := Option.some.inj hlabel
      simp [nodeOnlySteps, startSteps, fileGetSteps, Process.swarm]
    | command _ _ | event _ _ | pollFileGet _ | lost _ | dropSwarm => cases hlabel

end FileSharing
