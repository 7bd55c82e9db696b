/-
FileSharing.Network.Client — the user's side of a node: `Client`
(`src/network/mod.rs`) and the loop of `main` that feeds it with the lines
of the standard input (`src/bin/file-sharing.rs`).

`main` spawns the event loop as a task of its own and then takes one line
after the other. A line that is a command is sent to the loop, and the next
line is read when its answer is there. So the `Shell` is `main` at one of
its three `await`s (`Phase`), the command channel, and the node:

* `stdin` — the next line, the end of the input or an error of it;
* `sent` — `send(..).await` returns: the loop has taken the request, or it
  is gone. `mpsc::channel(0)` has room for one request of its one sender,
  and a send is complete only when the room is empty again;
* `response` — `response_receiver.await` returns: the answer, or `Canceled`
  when the sender was dropped unused. The `unwrap` there panics;
* `node` — a step of the event loop or of the swarm. The loop takes its
  commands from the channel.

A loop that has stopped is dropped, with its receiver, the request still in
the channel and the senders of all commands it keeps. When `main` is over
the process is, and the loop with it.
-/
import FileSharing.Network.CommandParser
import FileSharing.Network.Node

namespace FileSharing

open Lib

/-! ## The client -/

/-- `CommandRequestIdGenerator(AtomicU64)`. -/
structure CommandRequestIdGenerator where
  next : UInt64
  deriving DecidableEq, Repr

/-- `CommandRequestIdGenerator::default`. -/
def CommandRequestIdGenerator.default : CommandRequestIdGenerator := ⟨0⟩

/-- `CommandRequestIdGenerator::next_id`. `fetch_add` wraps around. -/
def CommandRequestIdGenerator.nextId (g : CommandRequestIdGenerator) :
    UInt64 × CommandRequestIdGenerator :=
  (g.next, ⟨g.next + 1⟩)

/-- `Client`, without the sending end of the command channel. -/
structure Client where
  commandRequestIdGenerator : CommandRequestIdGenerator
  deriving DecidableEq, Repr

/-- `Client::new`. -/
def Client.new : Client := ⟨.default⟩

/-- `Client::send_command` up to its first `await`: the request it makes,
with the sending half of a new oneshot channel. -/
def Client.makeRequest (c : Client) (command : Command) (responseSender : SenderId) :
    Client × CommandRequest :=
  let (commandRequestId, generator) := c.commandRequestIdGenerator.nextId
  (⟨generator⟩, ⟨commandRequestId, command, responseSender⟩)

/-! ## The shell -/

/-- Where `main` is. -/
inductive Phase where
  /-- In `stdin.try_next().await`. -/
  | reading
  /-- In `command_request_sender.send(command_request).await`. -/
  | sending (request : CommandRequest)
  /-- In `response_receiver.await`. -/
  | awaiting (request : CommandRequest)
  /-- `main` has returned. -/
  | returned (result : Except IoError Unit)
  /-- The `unwrap` of a cancelled response has panicked. -/
  | panicked (request : CommandRequest)

/-- The command `main` is about. -/
def Phase.request? : Phase → Option CommandRequest
  | .sending request => some request
  | .awaiting request => some request
  | .panicked request => some request
  | .reading => none
  | .returned _ => none

/-- `main` is not over. -/
def Phase.isRunning : Phase → Bool
  | .returned _ => false
  | .panicked _ => false
  | _ => true

/-- What the user gets to see. -/
inductive Printed where
  /-- `println!("{response:?}")`. -/
  | response (response : CommandResponse)
  /-- `eprintln!("error: {e:?}")`. -/
  | error (e : FileSharingError)
  /-- `println!("{e}")` of `main`, for a line that is no command. -/
  | refused (e : FileSharingError)
  deriving DecidableEq, Repr

/-- What `send_command` prints of an answer. -/
def Printed.ofResult : Except FileSharingError CommandResponse → Printed
  | .ok answer => .response answer
  | .error e => .error e

/-- `main`, the command channel, and the node. `read` and `printed` are
newest first; `nextSender` numbers the oneshot channels. -/
structure Shell where
  client : Client
  phase : Phase
  channel : Option CommandRequest
  nextSender : Nat
  read : List String
  printed : List Printed
  node : Node

/-- The steps of the shell. -/
inductive ShellLabel where
  | stdin (result : Except IoError (Option String))
  | sent
  | response
  | node (label : NodeLabel)

/-- The answer sent on a sender, if one was. -/
def Node.answerTo (n : Node) (sender : SenderId) :
    Option (Except FileSharingError CommandResponse) :=
  (n.answered.find? fun a => a.1 = sender).map (·.2)

namespace Shell

/-- `handle_input`, up to its first `await`. A send to a receiver that is
gone drops the request at once. -/
def handleInput (s : Shell) (line : String) : Shell :=
  let s := { s with read := line :: s.read }
  match Command.fromStr line with
  | .error e => { s with printed := .refused e :: s.printed }
  | .ok command =>
    let (client, request) := s.client.makeRequest command ⟨s.nextSender⟩
    { s with
      client := client
      nextSender := s.nextSender + 1
      phase := .sending request
      channel := if s.node.stopped.isNone then some request else none }

/-- The node has taken a step. A command it took is no longer in the
channel, and with a loop that has stopped the channel is gone. -/
def withNode (s : Shell) (label : NodeLabel) (node : Node) : Shell :=
  let left :=
    match label with
    | .command _ _ => none
    | _ => s.channel
  { s with node := node, channel := if node.stopped.isNone then left else none }

/-- The rest of `send_command`, with what `response_receiver.await` gives;
`none` is `Canceled`. -/
def finish (s : Shell) (request : CommandRequest) :
    Option (Except FileSharingError CommandResponse) → Shell
  | some result => { s with phase := .reading, printed := .ofResult result :: s.printed }
  | none => { s with phase := .panicked request }

/-- One step. -/
def step (fits : String → Bool) (debug : Bool) (s : Shell) : ShellLabel → Except Panic Shell
  | .stdin (.ok (some line)) => .ok (s.handleInput line)
  | .stdin (.ok none) => .ok { s with phase := .returned (.ok ()) }
  | .stdin (.error e) => .ok { s with phase := .returned (.error e) }
  | .sent =>
    match s.phase with
    | .sending request => .ok { s with phase := .awaiting request }
    | _ => .ok s
  | .response =>
    match s.phase with
    | .awaiting request => .ok (s.finish request (s.node.answerTo request.responseSender))
    | _ => .ok s
  | .node label => (s.node.step fits debug label).map (s.withNode label)

/-- Somebody still holds the sender of the request: it is in the channel,
or a running loop keeps the command. -/
def Holds (s : Shell) (request : CommandRequest) : Bool :=
  s.channel = some request || (s.node.stopped.isNone &&
    s.node.loop.pendingCommandRequests.lookup request.commandRequestId = some request)

/-- The contract. The loop is given the commands of the channel and no
others; of the rest of the node's contract, that `list_files` numbers its
requests and that the swarm keeps its own stays with the surroundings. -/
def Allowed (s : Shell) : ShellLabel → Bool
  | .stdin _ => match s.phase with | .reading => true | _ => false
  | .sent => match s.phase with | .sending _ => s.channel.isNone | _ => false
  | .response =>
    match s.phase with
    | .awaiting request =>
      (s.node.answerTo request.responseSender).isSome || !s.Holds request
    | _ => false
  | .node (.command request env) =>
    s.phase.isRunning && s.node.stopped.isNone && s.channel = some request &&
      env.listFilesId ∉ s.node.listFilesSent
  | .node label => s.phase.isRunning && s.node.Allowed label

end Shell

/-- `main` when it has spawned the event loop. -/
def Started.shell {config : FileGetConfig} {debug : Bool} (start : Started config debug) :
    Shell where
  client := .new
  phase := .reading
  channel := none
  nextSender := 0
  read := []
  printed := []
  node := start.node

/-- The program as a machine. -/
def shellMachine {config : FileGetConfig} {debug : Bool} (fits : String → Bool)
    (start : Started config debug) : Machine Shell ShellLabel Panic where
  init := start.shell
  allowed := fun s a => s.Allowed a = true
  step := Shell.step fits debug

instance {config : FileGetConfig} {debug : Bool} (fits : String → Bool)
    (start : Started config debug) (s : Shell) (a : ShellLabel) :
    Decidable ((shellMachine fits start).allowed s a) :=
  inferInstanceAs (Decidable (s.Allowed a = true))

end FileSharing
