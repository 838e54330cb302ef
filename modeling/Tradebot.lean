import Tradebot.Basic
import Tradebot.Exchange
import Tradebot.Path
import Tradebot.Limiter.Basic
import Tradebot.Limiter.Store
import Tradebot.Limiter.Run
import Tradebot.Limiter.Live
import Tradebot.Limiter.Keys
import Tradebot.Limiter.Fills
import Tradebot.Limiter.Ops
import Tradebot.Limiter.Ticker
import Tradebot.Limiter.Persist
import Tradebot.Limiter.Progress
import Tradebot.Limiter.Recover
import Tradebot.Looper.Basic
import Tradebot.Looper.Run
import Tradebot.Looper.Shape
import Tradebot.Looper.Store
import Tradebot.Looper.Keys
import Tradebot.Looper.Recover
import Tradebot.Trader.Summary
