import StratTrader.Foundation.Table
import StratTrader.Foundation.Upserts
import StratTrader.Foundation.Tally
import StratTrader.Foundation.Runs
import StratTrader.Foundation.Savepoint
import StratTrader.Foundation.Atomic
import StratTrader.Foundation.Once
import StratTrader.Foundation.Timed
import StratTrader.Foundation.Gates
import StratTrader.Foundation.Purge
import StratTrader.Foundation.Stages
import StratTrader.Foundation.OneTime
import StratTrader.Foundation.Capped
import StratTrader.Foundation.Lots
import StratTrader.Foundation.AverageCost
import StratTrader.Foundation.Streams
import StratTrader.Foundation.Python
import StratTrader.Foundation.Numeral
import StratTrader.Foundation.Significant
import StratTrader.Foundation.FloatText
import StratTrader.Foundation.NumeralText
import StratTrader.Foundation.CodePoints
import StratTrader.Foundation.JsonText
import StratTrader.Foundation.Objects
import StratTrader.Foundation.JsonCodec
import StratTrader.Foundation.References
import StratTrader.Foundation.Patterns
import StratTrader.Foundation.Tagged
import StratTrader.Foundation.HashChain
import StratTrader.Admin.Flags
import StratTrader.Admin.Revocation
import StratTrader.Audit.Models
import StratTrader.Audit.Scrub
import StratTrader.Audit.Hashing
import StratTrader.Audit.Services
import StratTrader.Audit.Verifier
import StratTrader.Audit.Tamper
import StratTrader.Audit.Guard
import StratTrader.Audit.Schedule
import StratTrader.Audit.Notice
import StratTrader.Audit.Requests
import StratTrader.Audit.Redaction
import StratTrader.Backtest.Tasks
import StratTrader.Backtest.Lifecycle
import StratTrader.Backtest.ReplayEngine
import StratTrader.Backtest.LookAhead
import StratTrader.Backtest.Accounting
import StratTrader.Backtest.Commission
import StratTrader.Backtest.Outcomes
import StratTrader.Backtest.Exits
import StratTrader.Brokers.Base
import StratTrader.Brokers.Models
import StratTrader.Brokers.Alpaca
import StratTrader.Brokers.Supervisor
import StratTrader.Brokers.Services
import StratTrader.Brokers.StreamThreads
import StratTrader.Brokers.Fake
import StratTrader.Brokers.Heartbeat
import StratTrader.Brokers.TradeStation
import StratTrader.Brokers.Symbology
import StratTrader.Orders.Models
import StratTrader.Orders.Ingest
import StratTrader.Orders.DeliveryOrder
import StratTrader.Orders.Conservation
import StratTrader.Orders.Positions
import StratTrader.Orders.Executions
import StratTrader.Orders.Reconcile
import StratTrader.Orders.Lifecycle
import StratTrader.Orders.Snap
import StratTrader.Orders.Fills
import StratTrader.Orders.Wire
import StratTrader.Orders.Effects
import StratTrader.Orders.Consumer
import StratTrader.Orders.Sweep
import StratTrader.Orders.Drift
import StratTrader.Risk.Integration
import StratTrader.Risk.KillSwitch
import StratTrader.Risk.View
import StratTrader.Risk.Enforcement
import StratTrader.Risk.Uniqueness
import StratTrader.Risk.DailyLoss
import StratTrader.Risk.TwoPolls
import StratTrader.Risk.Sizing
import StratTrader.Screener.Tasks
import StratTrader.Screener.Lifecycle
import StratTrader.Users.Models
import StratTrader.Users.Mfa
import StratTrader.Users.Services
import StratTrader.Users.Views
import StratTrader.Users.SingleUse
import StratTrader.Users.Gdpr
import StratTrader.Users.Erasure
import StratTrader.Users.BruteForce
import StratTrader.Users.SecondFactor
import StratTrader.Users.Refresh
import StratTrader.Users.Theft
import StratTrader.Users.Families
import StratTrader.Users.Lockout
import StratTrader.Webhooks.Models
import StratTrader.Webhooks.ProcessAlert
import StratTrader.Webhooks.View
import StratTrader.Webhooks.Effects
import StratTrader.Webhooks.Placing
import StratTrader.Webhooks.Isolation
import StratTrader.Webhooks.LiveGate
import StratTrader.Webhooks.Columns
import StratTrader.Webhooks.Sized
import StratTrader.Webhooks.Flatten
import StratTrader.Webhooks.AtMostOnce
import StratTrader.Webhooks.Settling
import StratTrader.Webhooks.Ambiguous
import StratTrader.Webhooks.Idempotency
import StratTrader.Webhooks.ClientIp
import StratTrader.Frontend.Description
import StratTrader.Frontend.InjectionFree
import StratTrader.Screener.Block
import StratTrader.Frontend.Turns
import StratTrader.Frontend.ScreenBlocks
import StratTrader.Backtest.SizingParity
import StratTrader.Backtest.Windows
import StratTrader.Backtest.Requests
import StratTrader.Foundation.Compounding
import StratTrader.Backtest.OutOfSample
import StratTrader.Foundation.Moments
import StratTrader.Foundation.Choices
import StratTrader.Backtest.Overfitting
import StratTrader.Backtest.Timeline
import StratTrader.Backtest.Realistic
import StratTrader.Backtest.Excursions
import StratTrader.Screener.Criteria
import StratTrader.Screener.Raises
import StratTrader.Foundation.Lines
import StratTrader.Screener.Accepted
import StratTrader.Screener.Sound
import StratTrader.Screener.Surroundings
import StratTrader.Screener.LineOrder
import StratTrader.Foundation.Fallible
import StratTrader.Screener.Enrich
import StratTrader.Screener.Enrichment
import StratTrader.Marketdata.Fmp
import StratTrader.Marketdata.Bars
import StratTrader.Screener.BadTickers
import StratTrader.Regime.Features
import StratTrader.Regime.Daily
import StratTrader.Foundation.Interrupted
import StratTrader.Strategies.Upload
import StratTrader.Frontend.Reading
import StratTrader.Frontend.Links
import StratTrader.Foundation.Nesting
import StratTrader.Frontend.Nesting
import StratTrader.Frontend.RefreshInterceptor
import StratTrader.Frontend.DashboardWs
import StratTrader.Sentiment.Ingest
import StratTrader.Sentiment.Dedup
import StratTrader.Sentiment.Samples
import StratTrader.Foundation.Ordered
import StratTrader.Foundation.Stretches
import StratTrader.Backtest.Data
import StratTrader.Backtest.Strategies
import StratTrader.Backtest.Sweep
import StratTrader.Backtest.WalkForward
import StratTrader.Foundation.Csv
import StratTrader.Orders.Export
import StratTrader.Admin.Impersonation
import StratTrader.Foundation.Places
import StratTrader.Orders.Stored
import StratTrader.Foundation.JsonColumn
import StratTrader.Backtest.Holdings
