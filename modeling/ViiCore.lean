import ViiCore.Bucket.FreshBuckets
import ViiCore.Bucket.LevelSizes
import ViiCore.Bucket.SkipList
import ViiCore.Catchup.ArchiveAborts
import ViiCore.Catchup.CatchupRange
import ViiCore.Catchup.ReplayedLedgers
import ViiCore.Catchup.RestoredState
import ViiCore.Herder.ComponentPartition
import ViiCore.Herder.EnvelopeRelease
import ViiCore.Herder.QueueAccounting
import ViiCore.Herder.QuorumIntersection
import ViiCore.Herder.QuorumTracker
import ViiCore.Herder.SurgePricing
import ViiCore.Herder.UpgradeLiabilities
import ViiCore.Invariant.AccountSubEntriesCountIsValid
import ViiCore.Invariant.MatchedLiabilities
import ViiCore.Ledger.BestOfferOrder
import ViiCore.Ledger.BufferedLedgers
import ViiCore.Ledger.FeePhase
import ViiCore.Ledger.LedgerTxnReports
import ViiCore.Main.GeneratedIntersection
import ViiCore.Overlay.FloodDelivery
import ViiCore.Overlay.ItemFetcher
import ViiCore.Overlay.PeerListRuns
import ViiCore.SCP.Agreement
import ViiCore.SCP.BlockingWithout
import ViiCore.SCP.NominationRun
import ViiCore.SCP.OwnStatements
import ViiCore.Transactions.BookRounds
import ViiCore.Transactions.OfferAdjustment
import ViiCore.Transactions.SignatureWeights
import ViiCore.Util.BigDivide
import ViiCore.Util.CacheRuns
import ViiCore.Util.XDRStream
import ViiCore.Work.ChildOutcomes
