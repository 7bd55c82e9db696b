/-
FileSharing.Network.Command — commands, their results, and the errors of
the application (`src/command.rs`, `src/error.rs`).

A command travels with the sending half of a oneshot channel. The channel
is known by its identity; whether its sender was used is part of the state
of the event loop's surroundings.
-/
import FileSharing.FileGet.Types

namespace FileSharing

/-- The identity of the oneshot channel a command is answered on. -/
structure SenderId where
  key : Nat
  deriving DecidableEq, Repr

/-- `Command`. -/
inductive Command where
  | register (userName : String)
  | listPeers
  | listFiles (userName : String)
  | getFile (userName fileName : String)
  deriving DecidableEq, Repr

/-- `CommandRequest`. -/
structure CommandRequest where
  commandRequestId : UInt64
  command : Command
  responseSender : SenderId
  deriving DecidableEq, Repr

/-- `CommandResult`. -/
inductive CommandResult where
  | register
  | listPeers (userNames : List String)
  | listFiles (fileNames : List String)
  | getFile (userName fileName : String)
  deriving DecidableEq, Repr

/-- `CommandResponse`. -/
structure CommandResponse where
  commandRequestId : UInt64
  result : CommandResult
  deriving DecidableEq, Repr

/-- `libp2p::swarm::DialError`, known by its kind. -/
structure DialError where
  code : Nat
  deriving DecidableEq, Repr

/-- `FileSharingError`. -/
inductive FileSharingError where
  | invalidCommand
  | io (e : IoError)
  | dialError (e : DialError)
  | rendezvousPointNotConnected
  | namespaceTooLong
  | listenError (address : Multiaddr)
  | userNotRegistered (userName : String)
  deriving DecidableEq, Repr

end FileSharing
