import Gabriel.Client.Composed
import Gabriel.Client.Coverage
import Gabriel.Client.Go
import Gabriel.Client.GoLemmas
import Gabriel.Client.GoPools
import Gabriel.Client.GoTeardown
import Gabriel.Client.Grpc
import Gabriel.Client.GrpcLemmas
import Gabriel.Client.Latency
import Gabriel.Client.Ledger
import Gabriel.Client.PushSource
import Gabriel.Client.Reregistration
import Gabriel.Client.SessionSteps
import Gabriel.Client.StopResume
import Gabriel.Client.TokenAgreement
import Gabriel.Client.TokenLimit
import Gabriel.Client.Websocket
import Gabriel.Client.WebsocketAgreement
import Gabriel.Client.WebsocketComposed
import Gabriel.Client.ZeroMQ
import Gabriel.Client.ZeroMQAgreement
import Gabriel.Client.ZeroMQComposed
import Gabriel.Client.ZeroMQHost
import Gabriel.Client.ZeroMQInputs
import Gabriel.Client.ZeroMQLemmas
import Gabriel.Client.ZeroMQSteps
import Gabriel.Client.ZeroMQStopResume
import Gabriel.Engine.Agreement
import Gabriel.Engine.Composed
import Gabriel.Engine.Runner
import Gabriel.Lib.Channel
import Gabriel.Lib.Dict
import Gabriel.Lib.Exchange
import Gabriel.Lib.Fifo
import Gabriel.Lib.Lock
import Gabriel.Lib.Machine
import Gabriel.Lib.RoundRobin
import Gabriel.Lib.Semaphore
import Gabriel.Local.Engine
import Gabriel.Local.FlowControl
import Gabriel.Local.Lockstep
import Gabriel.Local.Server
import Gabriel.Protocol
import Gabriel.Server.Acceptance
import Gabriel.Server.Atomic
import Gabriel.Server.AtomicLemmas
import Gabriel.Server.Attribution
import Gabriel.Server.Broadcasts
import Gabriel.Server.Calls
import Gabriel.Server.ClientHistory
import Gabriel.Server.ClientTables
import Gabriel.Server.Clients
import Gabriel.Server.Connections
import Gabriel.Server.Conservation
import Gabriel.Server.Contexts
import Gabriel.Server.Credit
import Gabriel.Server.Delivery
import Gabriel.Server.Directory
import Gabriel.Server.Dispatcher
import Gabriel.Server.DispatcherLemmas
import Gabriel.Server.Drain
import Gabriel.Server.EngineIds
import Gabriel.Server.Fairness
import Gabriel.Server.Flow
import Gabriel.Server.FlowControl
import Gabriel.Server.Forwarding
import Gabriel.Server.FrameOrder
import Gabriel.Server.Frontend
import Gabriel.Server.FrontendLemmas
import Gabriel.Server.Handlers
import Gabriel.Server.History
import Gabriel.Server.InputTokens
import Gabriel.Server.Interleaved
import Gabriel.Server.InterleavedLemmas
import Gabriel.Server.Ledger
import Gabriel.Server.NonInterference
import Gabriel.Server.Owed
import Gabriel.Server.Ownership
import Gabriel.Server.Provenance
import Gabriel.Server.Refinement
import Gabriel.Server.Registry
import Gabriel.Server.Rejections
import Gabriel.Server.ResultMessages
import Gabriel.Server.ServerSlice
import Gabriel.Server.Service
import Gabriel.Server.SessionLemmas
import Gabriel.Server.SingleEngine
import Gabriel.Server.Slice
import Gabriel.Server.State
import Gabriel.Server.Streams
import Gabriel.Server.Targets
import Gabriel.Server.TokenAccount
import Gabriel.Server.Tokens
import Gabriel.Server.WellFormed
import Gabriel.Server.WriteLock
