import SafeWallet.Application.Drafts
import SafeWallet.Application.EventRelay
import SafeWallet.Application.MessageSafety
import SafeWallet.Application.Messages
import SafeWallet.Application.OutgoingTransactions
import SafeWallet.Application.Runtime
import SafeWallet.Application.SenderBinding
import SafeWallet.Application.TransferDrafts
import SafeWallet.Base.Decimal
import SafeWallet.Base.Dialogue
import SafeWallet.Base.Grouping
import SafeWallet.Base.Hex
import SafeWallet.Base.Linked
import SafeWallet.Base.Pass
import SafeWallet.Base.Process
import SafeWallet.Base.Rounding
import SafeWallet.Base.Search
import SafeWallet.Base.Separators
import SafeWallet.Base.Splitting
import SafeWallet.Base.Sql
import SafeWallet.Base.SqlRows
import SafeWallet.Base.Table
import SafeWallet.Base.Trapping
import SafeWallet.Database.FileSystemGuard
import SafeWallet.Database.Migrations
import SafeWallet.Database.Repository
import SafeWallet.Database.SQLite
import SafeWallet.Database.SQLiteHandles
import SafeWallet.Database.WalletMigrations
import SafeWallet.Database.WalletUpgrade
import SafeWallet.Deployment.AccountUpdates
import SafeWallet.Deployment.DeploymentService
import SafeWallet.Deployment.Funding
import SafeWallet.Deployment.FundingRuns
import SafeWallet.Deployment.KeyRemoval
import SafeWallet.Deployment.Resuming
import SafeWallet.Deployment.SafeCreationResponseValidator
import SafeWallet.Deployment.Staleness
import SafeWallet.DomainRegistry
import SafeWallet.Ethereum.AbiReading
import SafeWallet.Ethereum.Address
import SafeWallet.Ethereum.ContractProxy
import SafeWallet.Ethereum.EnsNames
import SafeWallet.Ethereum.EthereumKit
import SafeWallet.Ethereum.MultiSend
import SafeWallet.Ethereum.MultiSendCodec
import SafeWallet.Ethereum.MultiSendTotality
import SafeWallet.Ethereum.SafeSetup
import SafeWallet.Ethereum.Token
import SafeWallet.Formatting.AmountInput
import SafeWallet.Formatting.AmountText
import SafeWallet.Formatting.Digits
import SafeWallet.Formatting.FullFormat
import SafeWallet.Formatting.Literals
import SafeWallet.Formatting.Magnitude
import SafeWallet.Formatting.NumberParsing
import SafeWallet.Formatting.Passes
import SafeWallet.Formatting.Rounding
import SafeWallet.Formatting.ShortFormat
import SafeWallet.Formatting.TokenFormatter
import SafeWallet.Formatting.TokenInput
import SafeWallet.Identity.Gatekeeper
import SafeWallet.Identity.SessionPeriods
import SafeWallet.Identity.Sessions
import SafeWallet.Identity.StoredMoments
import SafeWallet.Keycard.KeycardInitializer
import SafeWallet.Keycard.KeycardProtocol
import SafeWallet.Keycard.KeycardStorage
import SafeWallet.Keycard.PairingSlots
import SafeWallet.Recovery.AddressChange
import SafeWallet.Recovery.ConnectingTransaction
import SafeWallet.Recovery.Declaration
import SafeWallet.Recovery.FailedCheck
import SafeWallet.Recovery.FeeEstimation
import SafeWallet.Recovery.OwnerChange
import SafeWallet.Recovery.OwnerLinkedList
import SafeWallet.Recovery.OwnerListCalls
import SafeWallet.Recovery.RecoveredOwners
import SafeWallet.Recovery.RecoveryCalls
import SafeWallet.Recovery.RecoveryService
import SafeWallet.Recovery.Resumption
import SafeWallet.Recovery.StatusUpdates
import SafeWallet.Recovery.TransactionBuilder
import SafeWallet.Repositories.AddressBookRow
import SafeWallet.Repositories.LoadedTransactions
import SafeWallet.Repositories.StoredTransactions
import SafeWallet.Repositories.SyncedTransactions
import SafeWallet.Repositories.TokenPersistence
import SafeWallet.Repositories.TokenText
import SafeWallet.Repositories.TransactionRow
import SafeWallet.Repositories.WalletRow
import SafeWallet.Tokens.TokenList
import SafeWallet.Tokens.TokenListMerge
import SafeWallet.Tokens.TokenListRows
import SafeWallet.Tokens.TokenListRuns
import SafeWallet.Tokens.TokenOrder
import SafeWallet.Transaction.Dangerous
import SafeWallet.Transaction.Hash
import SafeWallet.Transaction.Preimages
import SafeWallet.Transaction.Submission
import SafeWallet.Transaction.TokenService
import SafeWallet.Transaction.Transaction
import SafeWallet.Transaction.TransactionList
import SafeWallet.Transaction.TransactionService
import SafeWallet.Transaction.TransactionSync
import SafeWallet.Wallet.AddressBook
import SafeWallet.Wallet.AddressBookRuns
import SafeWallet.Wallet.BackgroundRefresh
import SafeWallet.Wallet.DummyPayloads
import SafeWallet.Wallet.MergeRuns
import SafeWallet.Wallet.OnchainOwners
import SafeWallet.Wallet.OwnerManager
import SafeWallet.Wallet.OwnerMerge
import SafeWallet.Wallet.OwnerPayloads
import SafeWallet.Wallet.OwnerServices
import SafeWallet.Wallet.PayloadUpdates
import SafeWallet.Wallet.PhraseReplacement
import SafeWallet.Wallet.Portfolio
import SafeWallet.Wallet.PortfolioRuns
import SafeWallet.Wallet.PostProcessing
import SafeWallet.Wallet.Wallet
import SafeWallet.Wallet.WalletRemoval
import SafeWallet.Wallet.WalletStates
import SafeWallet.Wallet.WritePermission
