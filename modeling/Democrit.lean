import Democrit.Lib.Program
import Democrit.Lib.Transition
import Democrit.Lib.Word
import Democrit.Lib.Ancestry
import Democrit.Lib.LockTable
import Democrit.Lib.Streak
import Democrit.Lib.Publication
import Democrit.Lib.Conservation
import Democrit.Lib.Environment
import Democrit.Lib.Loops
import Democrit.Lib.Expiry
import Democrit.Lib.Ranking
import Democrit.Lib.Undo
import Democrit.Proto
import Democrit.Rpc
import Democrit.Checker
import Democrit.Trade
import Democrit.MyOrders
import Democrit.TradeManager
import Democrit.OrderBook
import Democrit.Daemon
import Democrit.System
import Democrit.Spec.Checker
import Democrit.Spec.Trade
import Democrit.Spec.TradeManager
import Democrit.Spec.System
import Democrit.Spec.Core
import Democrit.Spec.Aborts
import Democrit.Spec.Asking
import Democrit.Spec.Orders
import Democrit.Spec.Wallet
import Democrit.Safety.Evolution
import Democrit.Safety.Seller
import Democrit.Safety.Signatures
import Democrit.Safety.Lifecycle
import Democrit.Safety.Buyer
import Democrit.Safety.Chain
import Democrit.Safety.Totals
import Democrit.Safety.Unreadable
import Democrit.Safety.Exceptions
import Democrit.Safety.Frames
import Democrit.Safety.Verdict
import Democrit.Safety.Accounts
import Democrit.Safety.Correspondence
import Democrit.Safety.Agreement
import Democrit.Safety.Verifier
import Democrit.Safety.Cooperation
import Democrit.Safety.Completion
import Democrit.Safety.ModelWallet
import Democrit.Safety.Deals
import Democrit.Locks.Table
import Democrit.Locks.Orders
import Democrit.Locks.Release
import Democrit.Locks.Wallet
import Democrit.Locks.Leaks
import Democrit.Locks.Sessions
import Democrit.Locks.Cancel
import Democrit.Locks.Lineage
import Democrit.Locks.Ledger
import Democrit.Locks.Oversold
import Democrit.Authenticator
import Democrit.Network.Names
import Democrit.MucClient
import Democrit.Impl
import Democrit.Network.Nicknames
import Democrit.Network.Broadcasts
import Democrit.Network.Advertised
import Democrit.Network.Private
import Democrit.Network.Assertions
import Democrit.Book.Expiry
import Democrit.Book.View
import Democrit.Book.Amounts
import Democrit.RpcServer
import Democrit.Book.OwnOrders
import Democrit.Gsp
import Democrit.Safety.CheckTrade
import Democrit.GspServer
import Democrit.Safety.Reorgs
import Democrit.Safety.Confirmed
import Democrit.Network.Market
import Democrit.Nonfungible
import Democrit.Spec.Questions
import Democrit.Safety.Assets
import Democrit.Safety.Transfers
