import HaasProxy.Lib.Json
import HaasProxy.Lib.CString
import HaasProxy.Config
import HaasProxy.Lib.Strtol
import HaasProxy.Options
import HaasProxy.ConfigParse
import HaasProxy.CommandLine
import HaasProxy.KeyPath
import HaasProxy.Lib.Hex
import HaasProxy.HexDump
import HaasProxy.Debug
import HaasProxy.Credential
import HaasProxy.Lib.Machine
import HaasProxy.Master
import HaasProxy.Interrupted
import HaasProxy.Lib.Heap
import HaasProxy.FwPool
import HaasProxy.PoolSequence
import HaasProxy.Lib.Traced
import HaasProxy.Session
import HaasProxy.Forward
import HaasProxy.Callbacks
import HaasProxy.Process
import HaasProxy.Ownership.Invariant
import HaasProxy.Ownership.Callbacks
import HaasProxy.Ownership.Run
import HaasProxy.Lib.Path
import HaasProxy.Transitions.Steps
import HaasProxy.Transitions.Calls
import HaasProxy.Transitions.Forwards
import HaasProxy.Transitions.Callbacks
import HaasProxy.Transitions.Process
import HaasProxy.ForwardSetup
import HaasProxy.Transitions.Inversion
import HaasProxy.Lockout
import HaasProxy.SessionState
import HaasProxy.Admission
import HaasProxy.Waiting
import HaasProxy.ClosedSession
import HaasProxy.Deadlines
import HaasProxy.Transitions.Channels
import HaasProxy.Transitions.Handling
import HaasProxy.Backend
import HaasProxy.Lib.Pipe
import HaasProxy.Wiring
import HaasProxy.Pipes
import HaasProxy.Relays
import HaasProxy.Lib.Related
import HaasProxy.Uniform
import HaasProxy.RunningMode
import HaasProxy.SessionChannels
import HaasProxy.BlockingModes
import HaasProxy.CpuLimit
import HaasProxy.Reaping
import HaasProxy.HalfClose
import HaasProxy.Reentry
import HaasProxy.Composition
import HaasProxy.Dialogue
import HaasProxy.Lib.Settling
import HaasProxy.Ending
import HaasProxy.Activity
import HaasProxy.Releases
import HaasProxy.Stopping
import HaasProxy.Clients
