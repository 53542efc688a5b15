import QuantumGo.Effect
import QuantumGo.Symbolic
import QuantumGo.HelloCodec
import QuantumGo.HelloSafety
import QuantumGo.Tunnel
import QuantumGo.Flights
import QuantumGo.HelloRoundTrip
import QuantumGo.FlightSpecs
import QuantumGo.ResponderSpecs
import QuantumGo.StreamHandshake
import QuantumGo.Agreement
import QuantumGo.HonestRuns
import QuantumGo.SymbolicKem
import QuantumGo.StreamAgreement
import QuantumGo.Authentication
import QuantumGo.Dial
import QuantumGo.Records
import QuantumGo.StreamTransport
import QuantumGo.RecordTypes
import QuantumGo.DatagramDriver
import QuantumGo.Coupling
import QuantumGo.DatagramTwins
import QuantumGo.DroppedMessages
import QuantumGo.LateRefusals
import QuantumGo.ReplayFilter
import QuantumGo.ClosedSession
import QuantumGo.ClosedTransport
import QuantumGo.DatagramSession
import QuantumGo.DatagramSpecs
import QuantumGo.DatagramRekey
import QuantumGo.ClosedDatagram
import QuantumGo.DatagramReceive
import QuantumGo.ConnectionPool
import QuantumGo.StreamRekey
import QuantumGo.RekeyChannel
import QuantumGo.RekeyDelivery
import QuantumGo.PoolHandles
import QuantumGo.SessionReplay
import QuantumGo.KeyInstallation
import QuantumGo.SealingRuns
import QuantumGo.DomainSeparation
import QuantumGo.HeaderEpochs
import QuantumGo.KeyWear
import QuantumGo.HandshakeFrames
import QuantumGo.Tables
import QuantumGo.Reassembly
import QuantumGo.ReassemblyMixing
import QuantumGo.ReassemblyRoundTrip
import QuantumGo.Registry
import QuantumGo.HalfOpen
import QuantumGo.KeySeparation
import QuantumGo.PoolExclusion
import QuantumGo.PoolWakeups
import QuantumGo.PoolShutdown
import QuantumGo.PoolTimeouts
import QuantumGo.EarlyDatagrams
import QuantumGo.HelloDispatch
import QuantumGo.TunnelListener
import QuantumGo.ReturnRoutability
import QuantumGo.FinishedHellos
import QuantumGo.ConcurrentDials
import QuantumGo.FailedDecrypts
import QuantumGo.MachineSteps
import QuantumGo.RekeyTriggers
import QuantumGo.KeyBudget
import QuantumGo.RetryCookies
import QuantumGo.RekeyAnswers
import QuantumGo.ReassemblyBounds
import QuantumGo.FlightIdentity
import QuantumGo.PoolChannels
import QuantumGo.RateLimits
import QuantumGo.TicketRotation
import QuantumGo.IndexOwners
import QuantumGo.StreamFraming
import QuantumGo.HybridKem
import QuantumGo.PoolPlaces
import QuantumGo.SealPooled
import QuantumGo.SendBatch
