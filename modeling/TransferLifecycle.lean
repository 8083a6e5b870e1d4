import TransferLifecycle.Encoding
import TransferLifecycle.Handler.Scripted
import TransferLifecycle.Main
import TransferLifecycle.Scenario
import TransferLifecycle.Source.FileTree
import TransferLifecycle.Proofs.CommandPaths
import TransferLifecycle.Proofs.Hearing
import TransferLifecycle.Proofs.WriteContract
import TransferLifecycle.Proofs.Verdict
import TransferLifecycle.Proofs.Attempts
import TransferLifecycle.Proofs.RecordSteps
import TransferLifecycle.Proofs.ProductOfRuns
import TransferLifecycle.Proofs.BatchParts
import TransferLifecycle.Proofs.Schedule
import TransferLifecycle.Proofs.SnapshotBytes
import TransferLifecycle.Proofs.SnapshotText
import TransferLifecycle.Proofs.ConcurrentReplay
import TransferLifecycle.Proofs.Visits
import TransferLifecycle.Proofs.UnreliableReplay
import TransferLifecycle.Proofs.Links
import TransferLifecycle.Proofs.Journals
import TransferLifecycle.Proofs.StandardPaths
import TransferLifecycle.Proofs.Evolution
import TransferLifecycle.Proofs.ProcessShapes
import TransferLifecycle.Proofs.ReachableProcesses
import TransferLifecycle.Proofs.Waiting
import TransferLifecycle.Proofs.Reports
import TransferLifecycle.Proofs.Histories
import TransferLifecycle.Proofs.Interruptions
import TransferLifecycle.Proofs.AmbiguousSaves
import TransferLifecycle.Proofs.Steps
import TransferLifecycle.Proofs.Locality
import TransferLifecycle.Proofs.Interleaving
import TransferLifecycle.Proofs.ProcesswiseRuns
import TransferLifecycle.Proofs.FailureContainment
import TransferLifecycle.Proofs.QuietCommands
import TransferLifecycle.Proofs.Redelivery
import TransferLifecycle.Proofs.Moments
import TransferLifecycle.Proofs.Versions
import TransferLifecycle.Proofs.ListenerIndependence
import TransferLifecycle.Proofs.Callers
import TransferLifecycle.Proofs.UnderGuard
import TransferLifecycle.Proofs.Serializability
import TransferLifecycle.Proofs.CommandRulings
import TransferLifecycle.Proofs.Rounds
import TransferLifecycle.Proofs.EffectOrder
import TransferLifecycle.Proofs.BatchReading
import TransferLifecycle.Proofs.TableReadBack
import TransferLifecycle.Proofs.SnapshotReadBack
import TransferLifecycle.Proofs.RegistryComposition
import TransferLifecycle.Proofs.SnapshotDelivery
import TransferLifecycle.Proofs.RowGrammar
import TransferLifecycle.Proofs.EncodingRoundTrip
import TransferLifecycle.Proofs.BatchSizes
import TransferLifecycle.Proofs.MessageLines
import TransferLifecycle.Proofs.PartitionContents
import TransferLifecycle.Proofs.FailureMessages
