import UpiOfflineMesh.PayableDelivery
import UpiOfflineMesh.WholePaise
import UpiOfflineMesh.UnreadPins
import UpiOfflineMesh.Config
import UpiOfflineMesh.SealedPackets
import UpiOfflineMesh.IdleRequests
import UpiOfflineMesh.FlushByPosting
import UpiOfflineMesh.DeferredCleanup
import UpiOfflineMesh.Retention
import UpiOfflineMesh.Dashboard
import UpiOfflineMesh.FloodCount
import UpiOfflineMesh.ExactlyOnce
import UpiOfflineMesh.RequestOrder
import UpiOfflineMesh.Interleaving
import UpiOfflineMesh.DemoMoney
import UpiOfflineMesh.BankRefinement
import UpiOfflineMesh.Bank
import UpiOfflineMesh.Provenance
import UpiOfflineMesh.DemoPayment
import UpiOfflineMesh.LedgerRows
import UpiOfflineMesh.ClaimAccounting
import UpiOfflineMesh.UploadPaths
import UpiOfflineMesh.HopCount
import UpiOfflineMesh.PacketTrail
import UpiOfflineMesh.ApiRoutes
import UpiOfflineMesh.DemoService
import UpiOfflineMesh.WrittenAmount
import UpiOfflineMesh.AccountCreation
import UpiOfflineMesh.ClaimWindow
import UpiOfflineMesh.GossipSpread
import UpiOfflineMesh.Freshness
import UpiOfflineMesh.Conservation
import UpiOfflineMesh.Delivery
import UpiOfflineMesh.GateWindow
import UpiOfflineMesh.Reconciliation
import UpiOfflineMesh.FundedBatch
import UpiOfflineMesh.Respelling
import UpiOfflineMesh.LedgerIndex
import UpiOfflineMesh.SettledOutcome
import UpiOfflineMesh.Accounting
import UpiOfflineMesh.SettlementRules
import UpiOfflineMesh.LedgerIntegrity
import UpiOfflineMesh.OuterData
import UpiOfflineMesh.MeshToLedger
import UpiOfflineMesh.MeshInvariant
import UpiOfflineMesh.MeshSimulatorService
import UpiOfflineMesh.Callbacks
import UpiOfflineMesh.WirePackage
import UpiOfflineMesh.OptimisticLock
import UpiOfflineMesh.Server
import UpiOfflineMesh.BridgeIngestionService
import UpiOfflineMesh.IdempotencyService
import UpiOfflineMesh.HybridCryptoService
import UpiOfflineMesh.Js.Base64
import UpiOfflineMesh.SettlementService
import UpiOfflineMesh.Machine
import UpiOfflineMesh.Transfers
