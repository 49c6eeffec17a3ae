import FffChain.Authority.Soundness
import FffChain.Authority.FastPath
import FffChain.Authority.Relevance
import FffChain.Authority.Completeness
import FffChain.Authority.Minimize
import FffChain.Message.ReceiverIndex
import FffChain.Package.Archive
import FffChain.History.AccountHistory
import FffChain.History.BalanceHistory
import FffChain.History.BalancePages
import FffChain.History.RelativeHistory
import FffChain.History.TransactionBalance
import FffChain.Package.ExtractPaths
import FffChain.Message.MessageQueries
import FffChain.Message.Undo
import FffChain.Message.Sessions
import FffChain.App.Login
import FffChain.Authority.SignatureKeys
import FffChain.App.Broadcast
import FffChain.Chain.WithdrawPermission
