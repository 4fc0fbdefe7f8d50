import PersonalTrade.Library.Decline
import PersonalTrade.Library.Except
import PersonalTrade.Library.Exposure
import PersonalTrade.Library.Filling
import PersonalTrade.Library.Grouping
import PersonalTrade.Library.Markers
import PersonalTrade.Library.Regex
import PersonalTrade.Library.Rounding
import PersonalTrade.Library.Tiling
import PersonalTrade.Library.Transaction
import PersonalTrade.Library.Parts
import PersonalTrade.Library.Projection
import PersonalTrade.Library.Interleaving
import PersonalTrade.Library.Tokens
import PersonalTrade.Library.Interruption
import PersonalTrade.Library.LastWrite
import PersonalTrade.Library.Retry
import PersonalTrade.Library.Run
import PersonalTrade.Library.Scan
import PersonalTrade.Library.Averages
import PersonalTrade.Library.Equivariance
import PersonalTrade.Library.Search
import PersonalTrade.Library.Table
import PersonalTrade.Library.WarmUp
import PersonalTrade.Core.Enums
import PersonalTrade.Core.Config
import PersonalTrade.Core.Calendar
import PersonalTrade.Core.TradingDays
import PersonalTrade.Core.MarketHours
import PersonalTrade.Core.Events
import PersonalTrade.Store.Models
import PersonalTrade.Store.Repos
import PersonalTrade.Store.Book
import PersonalTrade.Indicators.Batch
import PersonalTrade.Indicators.Streaming
import PersonalTrade.Indicators.Causality
import PersonalTrade.Strategy.Base
import PersonalTrade.Indicators.WarmUp
import PersonalTrade.Indicators.Sides
import PersonalTrade.Indicators.Bounds
import PersonalTrade.Indicators.Units
import PersonalTrade.Strategy.Recording
import PersonalTrade.Strategy.Strategies
import PersonalTrade.Strategy.Units
import PersonalTrade.Data.Aggregator
import PersonalTrade.Data.CandleFrame
import PersonalTrade.Data.CandleStore
import PersonalTrade.Data.CandleMap
import PersonalTrade.Data.Reconnect
import PersonalTrade.Data.Feed
import PersonalTrade.Data.Staleness
import PersonalTrade.Data.InstrumentSync
import PersonalTrade.Data.Historical
import PersonalTrade.Data.Adjust
import PersonalTrade.Data.Quality
import PersonalTrade.Data.Sync
import PersonalTrade.Backtest.Costs
import PersonalTrade.Backtest.IndicatorBridge
import PersonalTrade.Risk.Limits
import PersonalTrade.Backtest.Engine
import PersonalTrade.Backtest.Conservation
import PersonalTrade.Backtest.Causality
import PersonalTrade.Backtest.Recording
import PersonalTrade.Backtest.Symbols
import PersonalTrade.Backtest.Window
import PersonalTrade.Backtest.Sweep
import PersonalTrade.Backtest.Metrics
import PersonalTrade.Backtest.Aggregate
import PersonalTrade.Backtest.Accounting
import PersonalTrade.Backtest.Rules
import PersonalTrade.Backtest.Registry
import PersonalTrade.Backtest.Units
import PersonalTrade.Risk.KillSwitch
import PersonalTrade.Risk.Engine
import PersonalTrade.Risk.KillSwitchAudit
import PersonalTrade.Analytics.Pnl
import PersonalTrade.Execution.Broker
import PersonalTrade.Execution.Paper
import PersonalTrade.Execution.PaperRun
import PersonalTrade.Execution.PaperAudit
import PersonalTrade.Execution.PaperLedger
import PersonalTrade.Execution.PaperHistory
import PersonalTrade.Analytics.Journal
import PersonalTrade.Analytics.Reports
import PersonalTrade.Analytics.Breakdowns
import PersonalTrade.Analytics.Soak
import PersonalTrade.Execution.Agreement
import PersonalTrade.Execution.Affordability
import PersonalTrade.Execution.UpstoxHttp
import PersonalTrade.Execution.Upstox
import PersonalTrade.Execution.UpstoxAuth
import PersonalTrade.Execution.Logins
import PersonalTrade.Execution.Fills
import PersonalTrade.Execution.Exchange
import PersonalTrade.Execution.PaperValue
import PersonalTrade.Analytics.Valuation
import PersonalTrade.Execution.RestingOrders
import PersonalTrade.Execution.PaperTrades
import PersonalTrade.Execution.Placement
import PersonalTrade.Execution.Polling
import PersonalTrade.Execution.Reports
import PersonalTrade.Execution.Cancels
import PersonalTrade.Execution.Brokerage
import PersonalTrade.Orchestrator.Service
import PersonalTrade.Orchestrator.Steps
import PersonalTrade.Orchestrator.Exposure
import PersonalTrade.Orchestrator.Housekeeping
import PersonalTrade.Orchestrator.Atomicity
import PersonalTrade.Orchestrator.Completeness
import PersonalTrade.Orchestrator.Reconcile
import PersonalTrade.Orchestrator.Convergence
import PersonalTrade.Orchestrator.Gate
import PersonalTrade.Orchestrator.IndicatorBridge
import PersonalTrade.Orchestrator.IndicatorAgreement
import PersonalTrade.Orchestrator.Runner
import PersonalTrade.Orchestrator.Lockstep
import PersonalTrade.Orchestrator.LiveContext
import PersonalTrade.Orchestrator.StopAnchor
import PersonalTrade.Orchestrator.Placement
import PersonalTrade.Orchestrator.Recovery
import PersonalTrade.Orchestrator.Scheduler
import PersonalTrade.Orchestrator.Delivery
import PersonalTrade.Intelligence.Prompt
import PersonalTrade.Intelligence.Defuse
import PersonalTrade.Intelligence.Tagging
import PersonalTrade.Intelligence.News
import PersonalTrade.Intelligence.Merge
import PersonalTrade.Intelligence.Analysis
import PersonalTrade.Intelligence.Anthropic
import PersonalTrade.Intelligence.Screener
import PersonalTrade.Intelligence.Totality
import PersonalTrade.Intelligence.Recommendation
import PersonalTrade.Intelligence.Spend
import PersonalTrade.Intelligence.VetoOnly
import PersonalTrade.Intelligence.Independence
import PersonalTrade.Intelligence.ScreenerAgreement
import PersonalTrade.Intelligence.ActionTables
import PersonalTrade.Api.Auth
import PersonalTrade.Api.Dashboard
import PersonalTrade.Api.Board
import PersonalTrade.Api.Authority
import PersonalTrade.Api.Halt
import PersonalTrade.Library.FirstWins
import PersonalTrade.Intelligence.Lineage
import PersonalTrade.Analytics.SoakClock
