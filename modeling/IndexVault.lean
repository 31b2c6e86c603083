import IndexVault.Config.DatabaseTarget
import IndexVault.Config.Load
import IndexVault.Proofs.Config.DatabaseFile
import IndexVault.Proofs.Config.Layers
import IndexVault.Proofs.FakeTime
import IndexVault.Proofs.Json.Numerals
import IndexVault.Proofs.Json.OneLine
import IndexVault.Proofs.Json.RoundTrip
import IndexVault.Proofs.Json.WrittenRecords
import IndexVault.Proofs.Json.WrittenTexts
import IndexVault.Proofs.Metadata.DroppedDeletions
import IndexVault.Proofs.Metadata.Listing
import IndexVault.Proofs.Metadata.TrafficCoherence
import IndexVault.Proofs.RecordedFetches
import IndexVault.Proofs.Service.Confidentiality
import IndexVault.Proofs.Service.EntryRecovery
import IndexVault.Proofs.Service.FaithfulExports
import IndexVault.Proofs.Service.ForeignIndexes
import IndexVault.Proofs.Service.FreshIndexes
import IndexVault.Proofs.Service.ReplayedUpserts
import IndexVault.Proofs.Service.UnseenRecords
import IndexVault.Proofs.Service.UsableIndexes
import IndexVault.Proofs.SignedBody.Verdicts
import IndexVault.Proofs.Storage.DamagedRows
import IndexVault.Proofs.Storage.DisjointBatches
import IndexVault.Proofs.Storage.InterleavedFetches
import IndexVault.Proofs.Storage.LineWrites
import IndexVault.Proofs.Storage.SizeHistory
import IndexVault.Proofs.Storage.StoredBytes
import IndexVault.Proofs.Storage.SwapHistory
import IndexVault.Proofs.Storage.UpsertOutcomes
import IndexVault.Proofs.Tenancy.BearerHeaders
import IndexVault.Proofs.Tenancy.TokenTrust
import IndexVault.Proofs.Text.Printable
import IndexVault.Proofs.UnfinishedLines
import IndexVault.Proofs.Wire.FirstFault
import IndexVault.Proofs.Wire.MixedReads
import IndexVault.Proofs.Wire.NumberReading
import IndexVault.Proofs.Wire.PrefixFree
import IndexVault.Tenancy.Setup
import IndexVault.Proofs.Json.Grammar
