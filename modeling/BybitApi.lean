import BybitApi.Lib.Runs
import BybitApi.Lib.Text
import BybitApi.Lib.Index
import BybitApi.Lib.Ledger
import BybitApi.Lib.Loop
import BybitApi.Lib.Observer
import BybitApi.Lib.Cycle
import BybitApi.Lib.Call
import BybitApi.Lib.Series
import BybitApi.Lib.Calendar
import BybitApi.Lib.Decimal
import BybitApi.Lib.Patch
import BybitApi.Json
import BybitApi.Exception
import BybitApi.Session.Books
import BybitApi.Session.State
import BybitApi.Session.Handlers
import BybitApi.Session.Step
import BybitApi.Session.Life
import BybitApi.Session.Lifecycle
import BybitApi.Session.Stages
import BybitApi.Session.Isolation
import BybitApi.Session.Line
import BybitApi.Session.Refines
import BybitApi.Session.Gate
import BybitApi.Session.Acks
import BybitApi.Session.Confirm
import BybitApi.Session.Topics
import BybitApi.Session.Held
import BybitApi.Session.Marks
import BybitApi.Session.Attribution
import BybitApi.Session.Repeats
import BybitApi.Session.Pump
import BybitApi.Session.Backoff
import BybitApi.Client
import BybitApi.PrivateStream.IsLive
import BybitApi.Rest.Response
import BybitApi.Rest.Client
import BybitApi.Rest.Pages
import BybitApi.Rest.Instruments
import BybitApi.Rest.InstrumentCache
import BybitApi.Rest.Precision
import BybitApi.Rest.Positions
import BybitApi.Rest.Cursors
import BybitApi.Rest.Executions
import BybitApi.Rest.Gzip
import BybitApi.Rest.TradeCsv
import BybitApi.Rest.Funding
import BybitApi.Rest.Candles
import BybitApi.Rest.CandleRounds
import BybitApi.Rest.CandleHistory
import BybitApi.Rest.CandleStream
import BybitApi.Rest.CandleRequests
import BybitApi.Rest.RateLimiter
import BybitApi.Rest.Decimals
import BybitApi.Tickers.Manager
import BybitApi.Tickers.Market
import BybitApi.Tickers.Convergence
import BybitApi.Tickers.Sources
import BybitApi.Gateway.Reasons
import BybitApi.Gateway.Orders
import BybitApi.Gateway.Unknown
import BybitApi.Gateway.Garbled
import BybitApi.Gateway.Codes
import BybitApi.Gateway.OrderUpdates
import BybitApi.Tickers.Candlesticks
import BybitApi.Gateway.Specs
import BybitApi.Gateway.Fills
import BybitApi.Lib.Within
import BybitApi.Session.Recovery
import BybitApi.Session.Watchdog
import BybitApi.Gateway.Crediting
import BybitApi.Gateway.Strays
import BybitApi.Lib.Query
import BybitApi.Http.TimeSync
import BybitApi.Http.Signing
import BybitApi.Http.Request
import BybitApi.Tickers.Freshness
import BybitApi.Lib.Drain
import BybitApi.Session.Closing
import BybitApi.Lib.Scan
import BybitApi.Rest.Delisted
import BybitApi.Rest.SpotSymbols
import BybitApi.Rest.RateBound
import BybitApi.Session.Open
import BybitApi.Client.IoThread
import BybitApi.Gateway.Transport
import BybitApi.Rest.FundingPages
