import Callchain.Evm.Signer
import Callchain.Evm.Conservation
import Callchain.Evm.Skip
import Callchain.Shielded.Tree
import Callchain.Shielded.Cache
import Callchain.LightClient.Finality
import Callchain.LightClient.Beacon
import Callchain.Bridge.Deposit
import Callchain.Bridge.Replay
import Callchain.Bridge.Supply
import Callchain.Precompile.Calls
import Callchain.Switch.Erc20
import Callchain.Consensus.Churn
import Callchain.Governance.Timing
import Callchain.Governance.Pause
import Callchain.Governance.Deposits
import Callchain.Governance.ValidatorVotes
import Callchain.Governance.Snapshot
import Callchain.Governance.Decisions
import Callchain.Governance.Mirror
import Callchain.Governance.Lifecycle
import Callchain.Governance.Emergency
import Callchain.Governance.Failure
import Callchain.Governance.Tallies
import Callchain.Node.Agreement
import Callchain.Node.Persist
import Callchain.Storage.Prune
import Callchain.Consensus.Rewards
import Callchain.Agent.Sessions
import Callchain.Agent.Funds
import Callchain.Chainspec.Root
import Callchain.Evm.StateRoot
import Callchain.LightClient.Pruning
import Callchain.LightClient.Completeness
import Callchain.Oracle.Period
import Callchain.Consensus.Penalty
import Callchain.Evm.Create
