import VkTurn.WriteToProofs
import VkTurn.DeadBondProofs
import VkTurn.LimiterRunProofs
import VkTurn.SupervisorProofs
import VkTurn.ProtocolSelectorProofs
import VkTurn.PipeProofs
import VkTurn.ShutdownProofs
import VkTurn.GraceStateProofs
import VkTurn.BondControlProofs
import VkTurn.TokenFileProofs
import VkTurn.WindowProofs
import VkTurn.StreamOpenProofs
import VkTurn.AuthWindowProofs
import VkTurn.TruncationProofs
import VkTurn.LocalPeerProofs
import VkTurn.StateChangedProofs
import VkTurn.AccountingProofs
import VkTurn.FingerprintProofs
import VkTurn.RedactionProofs
import VkTurn.SliderRankProofs
import VkTurn.BenchPlanProofs
import VkTurn.MetricDeltaProofs
import VkTurn.VkRequestProofs
import VkTurn.TurnBridgeProofs
import VkTurn.UdpSessionProofs
import VkTurn.SmuxServeProofs
