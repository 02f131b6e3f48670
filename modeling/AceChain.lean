import AceChain.Basic
import AceChain.Consensus.Agreement
import AceChain.Consensus.Equivocation
import AceChain.Consensus.FairOrder
import AceChain.Consensus.LeaderSchedule
import AceChain.Consensus.Membership
import AceChain.Defi.BridgeRuns
import AceChain.Defi.Reserve
import AceChain.Defi.Swap
import AceChain.Defi.SystemTx
import AceChain.Engine.Atomicity
import AceChain.Engine.BlockExecution
import AceChain.Engine.Expiry
import AceChain.Engine.Writes
import AceChain.Governance.RewardShares
import AceChain.Hfi.Registry
import AceChain.Lib.CritBit
import AceChain.Lib.CritBitHeap
import AceChain.Lib.LinkedQueue
import AceChain.Liquid.Book
import AceChain.Liquid.BookRuns
import AceChain.Liquid.BookShape
import AceChain.Liquid.Exchange
import AceChain.Liquid.PriceTime
import AceChain.Liquid.Solvency
import AceChain.Liquid.Wire
import AceChain.Node.Authenticity
import AceChain.Node.CrashSafety
import AceChain.Node.FeeAccounting
import AceChain.Node.History
import AceChain.Node.PathAgreement
import AceChain.Node.Rejection
import AceChain.Node.Rollback
import AceChain.Node.StateRoot
import AceChain.Relayer.Completion
import AceChain.Relayer.Payment
import AceChain.Runtime.TxRoot
import AceChain.State.BlockRemoval
import AceChain.State.BlockStore
import AceChain.State.Placement
import AceChain.State.RootRuns
import AceChain.State.RoundTrip
import AceChain.State.ShardPersistence
import AceChain.State.ShardedState
import AceChain.State.Snapshots
import AceChain.State.StorageMoves
import AceChain.Vm.AssetExpiry
import AceChain.Vm.Batches
import AceChain.Vm.MintIdentity
import AceChain.Vm.ProgramFrames
import AceChain.Vm.Scheduler
import AceChain.Vm.WriteSets
