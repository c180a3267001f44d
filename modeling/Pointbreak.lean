import Pointbreak.Projection.DuplicateCarriers
import Pointbreak.Projection.NonInterference
import Pointbreak.Semantic.Materialized
import Pointbreak.Semantic.AttentionParity
import Pointbreak.Workflow.Landing
import Pointbreak.Git.PatchRoundTrip
import Pointbreak.Workflow.Scope
import Pointbreak.Projection.ArtifactRemoval
import Pointbreak.Workflow.EventSignature
import Pointbreak.Projection.ResumptionRepeat
import Pointbreak.Workflow.CursorFreshness
import Pointbreak.Projection.StateOrder
import Pointbreak.Workflow.ValidationContinuity
import Pointbreak.Workflow.FactKey
import Pointbreak.Projection.CommitOrder
import Pointbreak.Store.Fingerprint
import Pointbreak.Workflow.ChangeMigration
import Pointbreak.Semantic.SummaryConflicts
import Pointbreak.Highlight.Segment
import Pointbreak.Keys.SshProtocol
import Pointbreak.Projection.ResumptionFrame
import Pointbreak.Projection.ResumptionFreshness
import Pointbreak.Projection.CycleSearch
