import EasyRpc.TransitionProofs
import EasyRpc.WireProofs
import EasyRpc.ThreadPoolProofs
import EasyRpc.AtimerProofs
import EasyRpc.ClientSessionProofs
import EasyRpc.ConnectionProofs
import EasyRpc.ConnectionReleaseProofs
import EasyRpc.SilentClientProofs
import EasyRpc.ReferenceMapProofs
import EasyRpc.RouterBindingProofs
import EasyRpc.RouterDispatchProofs
import EasyRpc.RemoteFailureProofs
import EasyRpc.TypedCallProofs
import EasyRpc.ThreadPoolPotentialProofs
import EasyRpc.ServerProofs
import EasyRpc.ThreadPoolStopProofs
import EasyRpc.ArgumentDispatchProofs
import EasyRpc.ConnectionRoutingProofs
import EasyRpc.QueueAfterStopProofs
import EasyRpc.RoundTripProofs
import EasyRpc.RoutingProofs
import EasyRpc.ServerShutdownProofs
import EasyRpc.WorkerSurvivalProofs
import EasyRpc.AddressReuseProofs
import EasyRpc.AddressAgreementProofs
import EasyRpc.StringTrimProofs
import EasyRpc.ClientCallbacksProofs
import EasyRpc.ClientCleanupProofs
import EasyRpc.ClientTimeoutProofs
import EasyRpc.TimedCallProofs
import EasyRpc.DirectoryProofs
import EasyRpc.ScopeGuardProofs
import EasyRpc.TimerSilenceProofs
import EasyRpc.TimerPeriodProofs
import EasyRpc.WorkerLimitProofs
import EasyRpc.RouterAgreementProofs
import EasyRpc.SharedClientProgressProofs
import EasyRpc.AcceptLoopProofs
