import AnchoredLog.Client.CompactLaws
import AnchoredLog.Client.DomainSeparation
import AnchoredLog.Client.Fingerprint
import AnchoredLog.Client.Reconcile
import AnchoredLog.Client.SequenceLag
import AnchoredLog.Client.TransferredPromise
import AnchoredLog.Client.WorkerSafety
import AnchoredLog.Log.OrderIndependence
import AnchoredLog.Log.PromiseKeeping
import AnchoredLog.Log.TerminalEpochs
import AnchoredLog.Port.AccountAgreement
import AnchoredLog.Port.AddedSegment
import AnchoredLog.Port.ArtifactCodecs
import AnchoredLog.Port.Base64
import AnchoredLog.Port.ChainPosition
import AnchoredLog.Port.DisclosedRecords
import AnchoredLog.Port.DisclosureSoundness
import AnchoredLog.Port.Rpc
import AnchoredLog.Port.TenureIdentity
import AnchoredLog.Program.Footprint
