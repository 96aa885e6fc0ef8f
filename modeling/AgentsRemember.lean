import AgentsRemember.Lib.FoldLog
import AgentsRemember.Lib.System
import AgentsRemember.Lib.Text
import AgentsRemember.Lib.Trace
import AgentsRemember.Gate.ClaimSound
import AgentsRemember.Gate.PolicySound
import AgentsRemember.Gate.Store
import AgentsRemember.Inbox.RemovalSound
import AgentsRemember.Inbox.TerminalSound
import AgentsRemember.Conversation.PagingSound
import AgentsRemember.Harness.CompletionSound
import AgentsRemember.Lifecycle.FenceSound
import AgentsRemember.Lifecycle.HistorySound
import AgentsRemember.Control.AcknowledgeSound
import AgentsRemember.Control.RecoverySound
import AgentsRemember.Stream.CloseSound
import AgentsRemember.Active.AuthoritySound
import AgentsRemember.Evidence.ClipSound
import AgentsRemember.Evidence.NativePages
import AgentsRemember.Dashboard.SnapshotSound
import AgentsRemember.SourceIndex.PublishSound
import AgentsRemember.Logs.TornSound
import AgentsRemember.MemoryLedger.RoundTripSound
import AgentsRemember.Worktree.RoundTripSound
import AgentsRemember.Citations.FrameSound
import AgentsRemember.Citations.RouteSound
import AgentsRemember.Citations.StreamSound
import AgentsRemember.Observer.KeysSound
import AgentsRemember.Observer.PruneSound
import AgentsRemember.Observer.AgreeSound
import AgentsRemember.Observer.RiverSound
import AgentsRemember.Projection.HeartbeatSound
import AgentsRemember.Worktree.SyncSound
import AgentsRemember.Worktree.IntegrateSound
import AgentsRemember.Adapter.CodexServedSound
import AgentsRemember.Adapter.RetrySound
import AgentsRemember.Catalog.UpdateSound
import AgentsRemember.Catalog.SeatSound
import AgentsRemember.Catalog.EvidenceSound
import AgentsRemember.Adapter.InterruptSound
import AgentsRemember.Bridge.SnapshotSound
import AgentsRemember.Delivery.LandedSound
import AgentsRemember.Delivery.SignalSound
import AgentsRemember.Cockpit.KnownSound
import AgentsRemember.Cockpit.RestoredSound
import AgentsRemember.Hosted.SweepSound
import AgentsRemember.Chats.OneStreamSound
import AgentsRemember.Inbox.BatchSound
import AgentsRemember.Inbox.CompactionSound
import AgentsRemember.Expectations.OnceSound
import AgentsRemember.Notifier.CooldownSound
import AgentsRemember.Catalog.PagesSound
import AgentsRemember.Harness.LedgerSound
import AgentsRemember.Citations.TouchedSound
import AgentsRemember.Citations.IndexSound
import AgentsRemember.Style.HistorySound
import AgentsRemember.Style.ChangedSound
import AgentsRemember.Adapter.EventQueue
import AgentsRemember.Tasks.MasterSync
import AgentsRemember.Harness.OrderSound
