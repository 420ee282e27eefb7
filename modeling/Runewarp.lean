import Runewarp.Client.AssignmentConvergence
import Runewarp.Client.CandidateJoin
import Runewarp.Client.LiveRotation
import Runewarp.Client.RetryBackoff
import Runewarp.Client.SlotDiscipline
import Runewarp.Client.WorkerFailure
import Runewarp.ManagedSession.Deadlines
import Runewarp.ManagedSession.Downlink
import Runewarp.ManagedSession.InputAcceptance
import Runewarp.ManagedSession.LatestState
import Runewarp.ManagedSession.StateReports
import Runewarp.Server.AcceptRotation
import Runewarp.Server.AdmissionCounters
import Runewarp.Server.DrainReport
import Runewarp.Server.ProxyTrust
import Runewarp.Server.RequestedShutdown
import Runewarp.Server.Selection
import Runewarp.Server.UnrequestedStop
import Runewarp.Server.VisitorPermits
import Runewarp.ServerCertificate.LegacyImport
import Runewarp.ServerCertificate.RecoveryDeadline
import Runewarp.ServerCertificate.Revocation
import Runewarp.ServerCertificate.TransientErrors
import Runewarp.ShutdownProtocol
import Runewarp.Tunnel.ClientWithdrawal
import Runewarp.Tunnel.CloseTimer
import Runewarp.Tunnel.EventCodec
import Runewarp.Tunnel.EventSubscriptions
import Runewarp.Tunnel.GoawayDrain
import Runewarp.Tunnel.HintFollower
