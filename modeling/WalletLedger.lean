import WalletLedger.Console.Services
import WalletLedger.Console.Stores
import WalletLedger.Main
import WalletLedger.Proofs.Engine
import WalletLedger.Proofs.Tables
import WalletLedger.Proofs.Decimal
import WalletLedger.Store.Faults
import WalletLedger.Proofs.Services
import WalletLedger.Proofs.Flows
import WalletLedger.Proofs.Withdrawals
import WalletLedger.Proofs.Runs
import WalletLedger.Proofs.Conservation
import WalletLedger.Proofs.Decisions
import WalletLedger.Proofs.Backing
import WalletLedger.Proofs.LegRefs
import WalletLedger.Proofs.Settlement
import WalletLedger.Proofs.Settling
import WalletLedger.Proofs.Recovery
import WalletLedger.Proofs.Versions
import WalletLedger.Proofs.Accounts
import WalletLedger.Proofs.Acts
import WalletLedger.Proofs.AuditTrail
import WalletLedger.Proofs.Sure
import WalletLedger.Proofs.Delivery
import WalletLedger.Proofs.Advance
import WalletLedger.Proofs.Exclusion
import WalletLedger.Proofs.Repetition
import WalletLedger.Proofs.Agreement
import WalletLedger.Proofs.Resumption
import WalletLedger.Proofs.Search
import WalletLedger.Proofs.SymbolOrder
import WalletLedger.Proofs.Building
import WalletLedger.Proofs.Routes
import WalletLedger.Proofs.Deepening
import WalletLedger.Proofs.Custody
import WalletLedger.Proofs.Lifecycle
import WalletLedger.Proofs.OneFault
import WalletLedger.Proofs.Atomicity
import WalletLedger.Proofs.Freshness
import WalletLedger.Proofs.Evenness
import WalletLedger.Proofs.Rounding
import WalletLedger.Proofs.Exactness
import WalletLedger.Proofs.Funding
import WalletLedger.Proofs.Liquidity
import WalletLedger.Proofs.Exchanges
import WalletLedger.Proofs.Acknowledgement
import WalletLedger.Proofs.WrittenIds
import WalletLedger.Proofs.Rows
import WalletLedger.Proofs.Retries
import WalletLedger.Proofs.FailedTransfers
import WalletLedger.Proofs.Numerals
import WalletLedger.Proofs.Payouts
import WalletLedger.Proofs.RefusedRequests
import WalletLedger.Proofs.Quotes
import WalletLedger.Proofs.Spellings
import WalletLedger.Proofs.Writing
import WalletLedger.Proofs.CompositeRates
import WalletLedger.Proofs.Expiry
import WalletLedger.Proofs.Paging
import WalletLedger.Proofs.Indexes
import WalletLedger.Proofs.Traversal
import WalletLedger.Proofs.Counting
import WalletLedger.Proofs.Reporting
import WalletLedger.Proofs.Attempts
