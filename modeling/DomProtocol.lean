import DomProtocol.Core.Supply
import DomProtocol.Target
import DomProtocol.Pmmr.Positions
import DomProtocol.Consensus.CutThrough
import DomProtocol.Chain.Ibd
import DomProtocol.Chain.Finality
import DomProtocol.Chain.Equivalence
import DomProtocol.Settlement.Buffer
import DomProtocol.Settlement.Race
import DomProtocol.Node.Reconcile
import DomProtocol.Node.Locator
import DomProtocol.Route.Claims
import DomProtocol.Route.Closure
import DomProtocol.Escrow.Deposits
import DomProtocol.Escrow.Lifecycle
import DomProtocol.Evm.Adapter
import DomProtocol.Evm.Settlement
import DomProtocol.Wallet.Reservations
import DomProtocol.Wallet.Sync
import DomProtocol.Wallet.Protection
import DomProtocol.NodeWallet.Spends
