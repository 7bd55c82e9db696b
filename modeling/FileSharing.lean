import FileSharing.Lib.HashTable
import FileSharing.Lib.IndexTable
import FileSharing.Lib.LexicalPath
import FileSharing.Lib.Transition
import FileSharing.Lib.Unwinding
import FileSharing.Lib.Simulation
import FileSharing.Lib.Composition
import FileSharing.Lib.Protobuf
import FileSharing.Lib.ProtobufGrammar
import FileSharing.Lib.Framing
import FileSharing.Lib.Splitting
import FileSharing.FileGet.Types
import FileSharing.FileGet.Handler
import FileSharing.FileGet.Behaviour
import FileSharing.FileGet.Protocol
import FileSharing.FileGet.Wire
import FileSharing.FileGet.System
import FileSharing.FileGet.BehaviourTheorems
import FileSharing.FileGet.SystemTheorems
import FileSharing.FileGet.HandlerTheorems
import FileSharing.FileGet.InboundMoves
import FileSharing.FileGet.Peers
import FileSharing.FileGet.KeepAlive
import FileSharing.FileGet.DialBuffer
import FileSharing.FileGet.Placement
import FileSharing.FileGet.OutboundAccounting
import FileSharing.FileGet.Pipeline
import FileSharing.FileGet.RequestOrder
import FileSharing.FileGet.Directions
import FileSharing.FileGet.FailureCauses
import FileSharing.FileGet.Responses
import FileSharing.FileGet.ResponseChannels
import FileSharing.FileGet.InboundUpgrades
import FileSharing.FileGet.DroppedResponders
import FileSharing.FileGet.PanickedTasks
import FileSharing.FileGet.StrandedRequests
import FileSharing.FileGet.InboundNumbers
import FileSharing.FileGet.ServedRequests
import FileSharing.FileGet.Completions
import FileSharing.FileGet.Fetches
import FileSharing.FileGet.EventOrder
import FileSharing.FileGet.InboundTokens
import FileSharing.FileGet.OneLife
import FileSharing.FileGet.Transfer
import FileSharing.FileGet.Exchange
import FileSharing.FileGet.ExchangeSteps
import FileSharing.FileGet.ExchangeSides
import FileSharing.FileGet.ExchangeTheorems
import FileSharing.Network.Command
import FileSharing.Network.CommandParser
import FileSharing.Network.ListFilesCodec
import FileSharing.Network.Messages
import FileSharing.Network.EventLoop
import FileSharing.Network.FileSystem
import FileSharing.Network.Downloads
import FileSharing.Network.EventLoopTheorems
import FileSharing.Network.Confinement
import FileSharing.Network.Node
import FileSharing.Network.NodeTheorems
import FileSharing.Network.Correlation
import FileSharing.Network.Resilience
import FileSharing.Network.Answers
import FileSharing.Network.AnswerMatching
import FileSharing.Network.Directory
import FileSharing.Network.Init
import FileSharing.Network.Listing
import FileSharing.Network.Client
import FileSharing.Network.LostCommands
import FileSharing.Network.Session
import FileSharing.Network.Transcript
import FileSharing.Network.Layers
import FileSharing.Network.Startup
import FileSharing.Network.FetchedFiles
import FileSharing.Network.Process
import FileSharing.Network.ServedFiles
import FileSharing.Network.Overlay
import FileSharing.Network.Delivery
