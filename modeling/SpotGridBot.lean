import SpotGridBot.Lib.Runs
import SpotGridBot.Lib.Outcome
import SpotGridBot.Lib.Components
import SpotGridBot.Utils.CurrencyPair
import SpotGridBot.Core.OrderManager
import SpotGridBot.Strategy.GridStrategy
import SpotGridBot.Strategy.Account
import SpotGridBot.Strategy.Simulation
import SpotGridBot.Strategy.Ledger
import SpotGridBot.Strategy.OverHedging
import SpotGridBot.Strategy.ForgottenFills
import SpotGridBot.Strategy.AbortedPass
import SpotGridBot.Book.OrderBook
import SpotGridBot.Book.Sorted
import SpotGridBot.Feed.ActiveQuoteTable
import SpotGridBot.Feed.ConnectionBaseMD
import SpotGridBot.Feed.Batching
import SpotGridBot.Core.LifeCycle
import SpotGridBot.Coinbase.ConnectionORDWS
import SpotGridBot.Coinbase.UserChannel
import SpotGridBot.Binance.ConnectionMD
import SpotGridBot.Lib.Coverage
import SpotGridBot.Lib.Unwinding
import SpotGridBot.Binance.Contiguity
import SpotGridBot.Binance.Interference
import SpotGridBot.Book.Frame
import SpotGridBot.Book.BestQuotes
import SpotGridBot.Feed.PriceLevels
import SpotGridBot.Feed.LiveLevels
import SpotGridBot.Feed.Refinement
import SpotGridBot.Core.CancelOrder
import SpotGridBot.Strategy.Tracking
import SpotGridBot.Strategy.Idempotence
import SpotGridBot.Book.HeldBook
import SpotGridBot.Book.Validity
import SpotGridBot.Utils.Position
import SpotGridBot.Lib.Paths
import SpotGridBot.Utils.CurrentRateManager
import SpotGridBot.Lib.Fueled
import SpotGridBot.Utils.RateGraph
import SpotGridBot.Lib.Probing
import SpotGridBot.Utils.Timer
import SpotGridBot.Utils.TimerTasks
import SpotGridBot.Worker.BackgroundWorker
import SpotGridBot.Worker.Steps
import SpotGridBot.Worker.Tags
import SpotGridBot.Worker.Draining
import SpotGridBot.Lib.Waiting
import SpotGridBot.Utils.TimerThreads
import SpotGridBot.Worker.WakeUps
import SpotGridBot.Core.GetOrder
import SpotGridBot.Strategy.Visits
import SpotGridBot.Strategy.RebuyBudget
import SpotGridBot.Strategy.PositiveQuantities
import SpotGridBot.Strategy.MaxPosition
import SpotGridBot.Strategy.GridPrices
import SpotGridBot.Strategy.SmallFills
import SpotGridBot.Lib.Ring
import SpotGridBot.Utils.OneToOneQueue
import SpotGridBot.Book.QuoteGroup
import SpotGridBot.Utils.Symbols
import SpotGridBot.Utils.ShortestPaths
import SpotGridBot.Utils.Wrapping
import SpotGridBot.Utils.FillProfit
import SpotGridBot.Utils.ExecutedPrice
import SpotGridBot.Utils.Reopening
import SpotGridBot.Utils.OpenQuantity
import SpotGridBot.Core.ExecutionReports
import SpotGridBot.Coinbase.StatusNames
import SpotGridBot.OKX.ConnectionORD
import SpotGridBot.Core.BalancedReports
import SpotGridBot.Binance.LimitedDepth
import SpotGridBot.Lib.Replace
import SpotGridBot.Binance.Snapshots
import SpotGridBot.Coinbase.ConnectionMD
import SpotGridBot.Lib.JsonTokens
import SpotGridBot.Lib.JsonReader
import SpotGridBot.Core.JSONMessage
import SpotGridBot.Book.Levels
import SpotGridBot.Book.BookView
import SpotGridBot.Book.AverageOverflow
import SpotGridBot.Book.PartialAvgPrice
import SpotGridBot.Feed.QuoteHash
import SpotGridBot.Coinbase.Subscriptions
import SpotGridBot.Lib.Numerals
import SpotGridBot.Utils.Decimals
import SpotGridBot.Utils.Durations
import SpotGridBot.Utils.Quantities
import SpotGridBot.Utils.BgwMonitor
import SpotGridBot.Utils.Masks
import SpotGridBot.Utils.CmdArgParser
import SpotGridBot.Lib.FreeList
import SpotGridBot.Utils.ObjectPool
import SpotGridBot.Utils.UniqueNames
import SpotGridBot.Utils.NameCache
import SpotGridBot.Lib.Forest
import SpotGridBot.Utils.XmlConfigReader
import SpotGridBot.Lib.Regex
import SpotGridBot.Utils.PositionIds
import SpotGridBot.Lib.OrderedMap
import SpotGridBot.Utils.PairOrder
import SpotGridBot.Lib.Budget
import SpotGridBot.Core.Listener
import SpotGridBot.Worker.Fifo
import SpotGridBot.Core.Pipeline
import SpotGridBot.Coinbase.OrderFlow
import SpotGridBot.Strategy.Interleaving
import SpotGridBot.Feed.LevelBatches
import SpotGridBot.Binance.LocalBook
import SpotGridBot.OKX.ConnectionMD
import SpotGridBot.Lib.JsonWriting
import SpotGridBot.Core.OrderText
import SpotGridBot.Coinbase.SendOrder
import SpotGridBot.Utils.Base64
import SpotGridBot.OKX.SendOrder
import SpotGridBot.Binance.SendOrder
import SpotGridBot.Utils.CurrencyTable
import SpotGridBot.Utils.SettledRegistry
import SpotGridBot.Utils.XmlNodes
import SpotGridBot.Utils.CurrencyConfig
import SpotGridBot.Core.ConnectionManager
import SpotGridBot.Core.AccountBalances
import SpotGridBot.Lib.JsonLines
import SpotGridBot.Core.RestBase
import SpotGridBot.Worker.LifeTime
