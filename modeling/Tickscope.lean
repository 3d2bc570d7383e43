import Tickscope.Backtest.AssetsApart
import Tickscope.Backtest.CapitalGate
import Tickscope.Backtest.CashAccounting
import Tickscope.Backtest.ConvergenceNo
import Tickscope.Backtest.DataLoader
import Tickscope.Backtest.Engine
import Tickscope.Backtest.EngineRun
import Tickscope.Backtest.Fills
import Tickscope.Backtest.FillsNoLookAhead
import Tickscope.Backtest.Metrics
import Tickscope.Backtest.Plateaus
import Tickscope.Backtest.PnlFigures
import Tickscope.Backtest.RowOrder
import Tickscope.Backtest.SameBooks
import Tickscope.Backtest.SignalsLookAhead
import Tickscope.Backtest.SoldAndBought
import Tickscope.Backtest.Ticks
import Tickscope.Bot.BookMirror
import Tickscope.Bot.BookSnapshots
import Tickscope.Bot.BookState
import Tickscope.Bot.BotDiscovery
import Tickscope.Bot.DiscoveryCoverage
import Tickscope.Bot.Executions
import Tickscope.Bot.ExpirySweep
import Tickscope.Bot.FeedHandler
import Tickscope.Bot.LatestQuotes
import Tickscope.Bot.Ledger
import Tickscope.Bot.LegRouting
import Tickscope.Bot.NeverOverdrawn
import Tickscope.Bot.OrderGateway
import Tickscope.Bot.PageAgreement
import Tickscope.Bot.Reasons
import Tickscope.Bot.StatusLine
import Tickscope.Bot.StrategyEngine
import Tickscope.Bot.Subscriptions
import Tickscope.Bot.TailPoll
import Tickscope.Coinbase.BtcJournal
import Tickscope.Coinbase.BtcToParquet
import Tickscope.Coinbase.CoinbaseFeed
import Tickscope.Coinbase.RowsOfQuotes
import Tickscope.Coinbase.SealedSegments
import Tickscope.Coinbase.SharedClock
import Tickscope.Coinbase.TicksOnDisk
import Tickscope.Collectors.BetfairRows
import Tickscope.Collectors.BetfairStream
import Tickscope.Collectors.EspnCollector
import Tickscope.Collectors.EspnRows
import Tickscope.Core.Tick
import Tickscope.Feedhandler.Feedhandler
import Tickscope.Feedhandler.MalformedMessages
import Tickscope.Feedhandler.ReferenceDecoder
import Tickscope.Gateway.FetchActiveTokens
import Tickscope.Gateway.MarketDiscovery
import Tickscope.Gateway.MergeLaw
import Tickscope.Gateway.MergePositions
import Tickscope.Gateway.MetadataCsv
import Tickscope.Gateway.MetadataRewrite
import Tickscope.Gateway.MetadataRoundTrip
import Tickscope.Gateway.NoLostSubscription
import Tickscope.Gateway.ProducerHandOver
import Tickscope.Gateway.QuestionFilter
import Tickscope.Gateway.Subscription
import Tickscope.Gateway.WebSocketClient
import Tickscope.Harvester.ExitCodes
import Tickscope.Harvester.FailedFetch
import Tickscope.Harvester.HourlyFlush
import Tickscope.Harvester.NeverPrunedAlone
import Tickscope.Harvester.NothingLost
import Tickscope.Harvester.OneRowPerToken
import Tickscope.Harvester.Rediscovery
import Tickscope.Harvester.Retention
import Tickscope.Harvester.SubscriptionText
import Tickscope.Journal.LogToParquet
import Tickscope.Journal.RoundTrip
import Tickscope.Journal.TornRecords
import Tickscope.Lib.AListSum
import Tickscope.Lib.BoundedFifo
import Tickscope.Lib.Bytes
import Tickscope.Lib.Calendar
import Tickscope.Lib.CalendarOrder
import Tickscope.Lib.Columns
import Tickscope.Lib.CrlfLines
import Tickscope.Lib.Directory
import Tickscope.Lib.FileReplace
import Tickscope.Lib.FirstMin
import Tickscope.Lib.FirstSeen
import Tickscope.Lib.FixedWidth
import Tickscope.Lib.Floats
import Tickscope.Lib.KeyedFold
import Tickscope.Lib.KeyedTable
import Tickscope.Lib.LevelBook
import Tickscope.Lib.Lists
import Tickscope.Lib.Machine
import Tickscope.Lib.NamedFiles
import Tickscope.Lib.NatDouble
import Tickscope.Lib.OnDemand
import Tickscope.Lib.OneARound
import Tickscope.Lib.PyText
import Tickscope.Lib.Regex
import Tickscope.Lib.RunningMax
import Tickscope.Lib.Slices
import Tickscope.Lib.StableSort
import Tickscope.Lib.Stdio
import Tickscope.Lib.Str
import Tickscope.Lib.Ties
import Tickscope.Memory.RingAnswers
import Tickscope.Memory.RingBuffer
import Tickscope.Memory.RingDelivery
import Tickscope.Memory.RingFifo
import Tickscope.Memory.RingInvariant
import Tickscope.Memory.RingPositions
import Tickscope.Memory.RingProgress
import Tickscope.Memory.RingRoom
import Tickscope.Pipeline.Lossless
import Tickscope.Pipeline.Machine
import Tickscope.Pipeline.RowsOfMessages
import Tickscope.Rdb.OrderBook
import Tickscope.Research.CheckArb
import Tickscope.Research.FetchMarkets
import Tickscope.Research.ImplicationGraph
import Tickscope.Research.ResolutionDetector
import Tickscope.Research.TruePnl
import Tickscope.Tickerplant.Answers
import Tickscope.Tickerplant.EndToEnd
import Tickscope.Tickerplant.FileOps
import Tickscope.Tickerplant.JournalNames
import Tickscope.Tickerplant.Lifetimes
import Tickscope.Tickerplant.Run
import Tickscope.Tickerplant.SortedJournals
import Tickscope.Tickerplant.TickCount
import Tickscope.Tickerplant.Ticks
import Tickscope.Tickerplant.TopOfBook
