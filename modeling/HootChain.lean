import HootChain.CoinJoin.Server
import HootChain.Consensus.VersionBits
import HootChain.Evo.ConnectedBlocks
import HootChain.Evo.CreditPoolNode
import HootChain.Evo.DiffRoundTrip
import HootChain.Evo.MnhfTx
import HootChain.Governance.OrphanVotes
import HootChain.Governance.VoteOrder
import HootChain.Llmq.ChainLocksHandler
import HootChain.Llmq.CommitmentCache
import HootChain.Llmq.DkgSession
import HootChain.Llmq.FormerMembers
import HootChain.Llmq.InstantSendConsistency
import HootChain.Llmq.InstantSendRound
import HootChain.Llmq.MinableCommitments
import HootChain.Llmq.MinedAnswers
import HootChain.Llmq.SigShares
import HootChain.Llmq.Signing
import HootChain.Masternode.Supply
import HootChain.Net.CompressedHeaders
import HootChain.Serialize.BitSet
import HootChain.SporkCache
import HootChain.Validation.ChainLockRuns
import HootChain.Validation.LegacyScheme
