import TraderBot.Inbox.ClientOrderIds
import TraderBot.Spool.BrokenAppend
import TraderBot.Spool.Drain
import TraderBot.EventMapper.Identity
import TraderBot.Orders.Concurrent
import TraderBot.Orders.Recovered
import TraderBot.Orders.ArrivalOrder
import TraderBot.Ownership.Agreement
import TraderBot.Commands.RollUp
import TraderBot.Positions.Revision
import TraderBot.Risk.PositionSizing
import TraderBot.Venue.Mirror
import TraderBot.EntryBatch.Batch
import TraderBot.EntryBatch.Rejections
import TraderBot.Risk.LossLimits
import TraderBot.Reconciliation.Startup
import TraderBot.Protection.Breakeven
import TraderBot.Protection.Watchdog
import TraderBot.Risk.Exposure
import TraderBot.DecisionGateway.PlanStop
import TraderBot.DecisionGateway.ZoneBudgets
import TraderBot.Execution.IntentStatus
import TraderBot.NodeRuntime.TradingState
import TraderBot.DataClient.Refusals
import TraderBot.ControlPlaneSession.Shutdown
import TraderBot.DataClient.NothingLost
import TraderBot.SignalQueue.Exclusive
import TraderBot.SignalQueue.ClaimFair
import TraderBot.Commands.RunHistory
import TraderBot.LiveCanary.ExactPnl
import TraderBot.LiveCanary.LossCutOff
import TraderBot.NodeCommands.FlatVerdict
import TraderBot.NodeCommands.Redelivery
import TraderBot.DecisionGraph.StableTime
import TraderBot.DecisionGraph.Closure
import TraderBot.ExperimentLedger.DirectoryLock
import TraderBot.DecisionGateway.DecidedOnce
import TraderBot.DuplicateGroups.Components
import TraderBot.ResearchProtocol.Blocks
import TraderBot.ExperimentLedger.Budget
import TraderBot.Evidence.NeverWedged
import TraderBot.Spool.SeenWindow
import TraderBot.Projection.Actor
import TraderBot.Routing.RouteTable
import TraderBot.TerminalExchange.Accounts
import TraderBot.Instruments.Symbols
import TraderBot.Settings.LiveRisk
import TraderBot.Settings.Versions
import TraderBot.Planner.Isolation
import TraderBot.Planner.Prices
import TraderBot.Planner.TakeProfitLadder
import TraderBot.Protection.ExitResizing
import TraderBot.MaxT.Bounds
import TraderBot.Market.EqualDivision
import TraderBot.Market.BarGaps
import TraderBot.Lifecycle.Deadlines
