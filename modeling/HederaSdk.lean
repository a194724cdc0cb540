import HederaSdk.Errors
import HederaSdk.Network.Lookup
import HederaSdk.Transaction.Validation
import HederaSdk.Transaction.PrefixProto
import HederaSdk.Network.ManagedNode
import HederaSdk.Ids
import HederaSdk.Keys
import HederaSdk.Js.Value
import HederaSdk.Execution.RoundRobin
import HederaSdk.Transaction.Response
import HederaSdk.Transaction.Execute
import HederaSdk.Library.Method
import HederaSdk.Library.OrderedMap
import HederaSdk.Library.Runs
import HederaSdk.Library.Stride
import HederaSdk.Library.PrefixCode
import HederaSdk.Topic.Message
import HederaSdk.Topic.Query
import HederaSdk.Topic.Limit
import HederaSdk.Library.Gather
import HederaSdk.Topic.Assembly
import HederaSdk.Topic.Resume
import HederaSdk.Transaction.Chunks
import HederaSdk.Transaction.ExecuteAll
import HederaSdk.Transaction.Splitting
import HederaSdk.Transaction.OnDemand
import HederaSdk.IdText
import HederaSdk.Topic.Interleaving
import HederaSdk.Transaction.Suspension
import HederaSdk.Library.Grid
import HederaSdk.Transaction.Reading
import HederaSdk.Transaction.Incomplete
import HederaSdk.Transaction.SplitCopies
import HederaSdk.Transaction.Getters
import HederaSdk.Transaction.Listing
import HederaSdk.EntityId
import HederaSdk.Account.NftAllowance
import HederaSdk.Network.Closing
import HederaSdk.Network.Replacing
import HederaSdk.Network.HealthyNodes
import HederaSdk.Network.Backoff
import HederaSdk.Execution.DeadNodes
import HederaSdk.Library.TwoWay
import HederaSdk.Token.TransferLists
import HederaSdk.Token.Grouping
import HederaSdk.Account.CryptoTransfer
import HederaSdk.Account.Conservation
import HederaSdk.KeyList
import HederaSdk.Cryptography.EcdsaPrivateKey
import HederaSdk.Network.AddressBookQuery
import HederaSdk.Flow.ContractCreateFlow
import HederaSdk.Flow.EthereumFlow
import HederaSdk.Execution.Sending
import HederaSdk.Query.Payment
import HederaSdk.Query.Session
import HederaSdk.Query.Spending
import HederaSdk.Client.Checks
import HederaSdk.Client.Ledger
import HederaSdk.Transaction.SignaturePairs
import HederaSdk.Transaction.ChunkLimit
import HederaSdk.Cryptography.PrivateKey
import HederaSdk.Cryptography.Keystore
import HederaSdk.Cryptography.Derivation
import HederaSdk.Client.NetworkUpdates
import HederaSdk.Transaction.GeneratedIds
import HederaSdk.Update.Fields
import HederaSdk.Update.Keys
import HederaSdk.Update.Classes
import HederaSdk.Update.Copies
import HederaSdk.Library.Grouped
import HederaSdk.Record.TransferMaps
import HederaSdk.Record.TransactionRecord
import HederaSdk.Record.Joining
import HederaSdk.Transaction.ChunkIds
import HederaSdk.Transaction.FrozenCopies
import HederaSdk.Checksum.Detection
import HederaSdk.EntityId.Long
import HederaSdk.EntityId.Reading
import HederaSdk.EntityId.AccountText
import HederaSdk.Library.Picking
import HederaSdk.Network.Selection
import HederaSdk.Network.Readmission
import HederaSdk.Transaction.ChunkTimes
import HederaSdk.Token.Atomicity
import HederaSdk.Token.Decimals
import HederaSdk.Library.Columns
import HederaSdk.Transaction.SignerPairs
import HederaSdk.AccountOrder
import HederaSdk.Library.Posting
import HederaSdk.Token.Walk
import HederaSdk.Account.Independence
import HederaSdk.EntityId.ParseAddress
import HederaSdk.EntityId.Solidity
import HederaSdk.EntityId.Ordering
import HederaSdk.EntityId.TransactionIdText
import HederaSdk.EntityId.Alias
import HederaSdk.Hbar
import HederaSdk.Hbar.Amounts
import HederaSdk.Hbar.Text
import HederaSdk.Contract.FunctionParameters
import HederaSdk.Contract.FailedCalls
import HederaSdk.Flow.Outages
import HederaSdk.Flow.EthereumRetries
import HederaSdk.Flow.RecursiveLengthPrefix
import HederaSdk.Flow.EthereumTransactionData
import HederaSdk.Library.HeadTail
import HederaSdk.Contract.Layout
import HederaSdk.Contract.SolidityValues
import HederaSdk.Contract.Encoding
import HederaSdk.Flow.TokenReject
import HederaSdk.Cryptography.KeystoreMac
import HederaSdk.Cryptography.ChildKeys
import HederaSdk.Library.Base128
import HederaSdk.Cryptography.Der
import HederaSdk.Cryptography.DerTrees
import HederaSdk.Cryptography.PrivateKeyBytes
import HederaSdk.Cryptography.PublicKeyBytes
import HederaSdk.Library.BitGroups
import HederaSdk.Cryptography.Mnemonic
import HederaSdk.Cryptography.Phrases
import HederaSdk.Schedule.ScheduleCreate
import HederaSdk.Flow.RejectSigning
import HederaSdk.Flow.RejectRequests
import HederaSdk.Library.Lines
import HederaSdk.Cryptography.PemText
import HederaSdk.Cryptography.Pkcs
import HederaSdk.Cryptography.Pem
import HederaSdk.Contract.FunctionResult
import HederaSdk.Contract.ReadBack
import HederaSdk.Cryptography.LegacyPhrases
import HederaSdk.Cryptography.HexVariants
import HederaSdk.Network.ReadmittedNodes
import HederaSdk.Channel.UnaryResponse
import HederaSdk.Channel.Framing
import HederaSdk.Channel.Trailers
import HederaSdk.Node.NodeUpdateTransaction
import HederaSdk.Record.ReceiptBytes
import HederaSdk.Network.AddressBook
import HederaSdk.Transaction.FreshCopies
import HederaSdk.Wallet
import HederaSdk.Transaction.LiveKeys
import HederaSdk.Execution.Answers
import HederaSdk.Transaction.SharedSigning
import HederaSdk.Query.Polling
import HederaSdk.Query.Awaiting
import HederaSdk.Token.Regrouping
import HederaSdk.Account.TransferCopies
import HederaSdk.Token.Airdrop
import HederaSdk.Topic.Unsubscribing
