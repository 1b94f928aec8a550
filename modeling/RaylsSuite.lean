import RaylsSuite.Foundation.Machine
import RaylsSuite.Foundation.Text
import RaylsSuite.Foundation.Number
import RaylsSuite.Foundation.Processes
import RaylsSuite.Common.BlockChainExceptions
import RaylsSuite.Common.Retry
import RaylsSuite.Common.Submit
import RaylsSuite.Common.AtMostOnce
import RaylsSuite.Entities.Logger
import RaylsSuite.Runner.Configuration
import RaylsSuite.Runner.Queue
import RaylsSuite.Common.WalletFactory
import RaylsSuite.Config.EnvConfig
import RaylsSuite.Runner.BackendLoad
import RaylsSuite.Runner.Bootstrap
import RaylsSuite.Runner.ExactlyOnce
import RaylsSuite.Runner.Verdict
import RaylsSuite.Common.Formatters
import RaylsSuite.Common.Poll
import RaylsSuite.Entities.ContractStore
import RaylsSuite.Entities.FaithfulStore
import RaylsSuite.Entities.GetInstance
import RaylsSuite.Entities.ResolutionAgreement
import RaylsSuite.Entities.SingletonLaw
import RaylsSuite.TestUtils.BatchCount
import RaylsSuite.Api.BaseController
import RaylsSuite.Common.Diagnostics
import RaylsSuite.Common.LoadLifecycle
import RaylsSuite.Common.SubmitLaw
import RaylsSuite.Flows.TokenOperations
import RaylsSuite.Entities.HubWiring
import RaylsSuite.Foundation.Directory
import RaylsSuite.Foundation.Evm
import RaylsSuite.Foundation.Hex
import RaylsSuite.Foundation.Shell
import RaylsSuite.Runner.Flags
import RaylsSuite.Runner.FlagsLaw
import RaylsSuite.Runner.MergedReport
import RaylsSuite.Runner.RecoveryLaw
import RaylsSuite.Security.FactoryHelpers
import RaylsSuite.Foundation.Convergence
import RaylsSuite.Foundation.Ledger
import RaylsSuite.Foundation.NonceRun
import RaylsSuite.Foundation.Numeral
import RaylsSuite.Foundation.Significand
import RaylsSuite.Foundation.Watchdog
import RaylsSuite.Performance.BatchLaw
import RaylsSuite.Performance.MonitorLaw
import RaylsSuite.Performance.NonceLaw
import RaylsSuite.Performance.StabilityLaw
import RaylsSuite.Runner.DurationHints
import RaylsSuite.Runner.WorkerWallets
import RaylsSuite.Tokens.DbBalance
import RaylsSuite.Tokens.DvpDeposit
import RaylsSuite.Tokens.ERC721Wrapper
import RaylsSuite.Tokens.EnygmaLedger
import RaylsSuite.Tokens.PublicBalance
import RaylsSuite.Foundation.Binary64
import RaylsSuite.Foundation.RoundRobin
import RaylsSuite.Foundation.Runs
import RaylsSuite.Foundation.Settlement
import RaylsSuite.Foundation.StableSort
import RaylsSuite.Foundation.Tally
import RaylsSuite.Performance.ContractBatches
import RaylsSuite.Performance.ReportAccounting
import RaylsSuite.Performance.SwapTarget
import RaylsSuite.Runner.DedupeLaw
import RaylsSuite.Runner.DurationOrder
import RaylsSuite.TestUtils.BatchNonces
import RaylsSuite.TestUtils.BigIntPlugin
import RaylsSuite.TestUtils.CrashObservation
import RaylsSuite.TestUtils.DestinationBalances
import RaylsSuite.Tokens.ERC1155Wrapper
import RaylsSuite.Tokens.HubActivationLaw
import RaylsSuite.Foundation.Authority
import RaylsSuite.Entities.RoleGrants
import RaylsSuite.Foundation.LiveMap
import RaylsSuite.Common.PgClient
import RaylsSuite.Foundation.Dialogue
import RaylsSuite.Common.Conversation
import RaylsSuite.Api.TransientBackendError
import RaylsSuite.Flows.UserOnboarding
import RaylsSuite.TestUtils.FreezeHelpers
import RaylsSuite.Foundation.Grouping
import RaylsSuite.Performance.AtomicMesh
import RaylsSuite.Flows.TokenContext
import RaylsSuite.Tokens.EnygmaResync
import RaylsSuite.Performance.StressLaw
import RaylsSuite.Foundation.Percent
import RaylsSuite.Common.FaultInjector
import RaylsSuite.Common.FaultSessions
import RaylsSuite.Foundation.Deadline
import RaylsSuite.Common.FaultWaits
import RaylsSuite.Foundation.Protocol
import RaylsSuite.Common.ProtocolSteps
import RaylsSuite.Tokens.PublicActivation
import RaylsSuite.Flows.TokenFlows
