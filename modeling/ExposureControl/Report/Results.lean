import ExposureControl.Governor.Basic
import ExposureControl.Report.Arms

/-!
# Reports on results

The documents under which shadow positions, costs, drift and housekeeping are shown.  Hours of day
are names there, so they are written as text.
-/

namespace ExposureControl

namespace Shadow

def Position.toDocument (position : Position) : Document :=
  let ticket := position.ticket
  .table [("id", .text position.id.text), ("symbol", .text ticket.symbol),
    ("side", .text ticket.side.text), ("entry_price", .float ticket.entryPrice),
    ("quantity", .float ticket.quantity), ("stop_loss", .float ticket.stopLoss),
    ("take_profit", .float ticket.takeProfit), ("opened_at", position.openedAt.toDocument),
    ("closed_at", .ofOption Instant.toDocument position.closedAt),
    ("status", .text position.status.text),
    ("exit_price", .ofOption .float position.exitPrice),
    ("realized_pnl", .ofOption .float position.profit), ("trades", .nat position.trades)]

def Status.toDocument (status : Status) : Document :=
  .table [("symbol", .text status.symbol), ("live_pnl", .float status.totals.live),
    ("shadow_pnl", .float status.totals.shadow), ("divergence_pct", .float status.divergence),
    ("open_positions", .nat status.openPositions),
    ("closed_positions", .nat status.closedPositions),
    ("closed_trades", .nat status.totals.closedTrades),
    ("positions", .list (status.positions.map Position.toDocument))]

end Shadow

namespace Costs

def Sample.toDocument (sample : Sample) : Document :=
  .table [("symbol", .text sample.symbol), ("side", .text sample.side.text),
    ("order_type", .text sample.orderType.text), ("timestamp", sample.filledAt.toDocument),
    ("slippage_bps", .float sample.slippage), ("queue_time_ms", .int sample.queueMillis),
    ("reference_price", .float sample.referencePrice), ("fill_price", .float sample.fillPrice),
    ("volume_24h", .ofOption .float sample.dailyVolume),
    ("atr", .ofOption .float sample.averageRange), ("spread", .ofOption .float sample.spread)]

def Summary.toDocument (summary : Summary) : Document :=
  .table [("sample_count", .nat summary.count), ("average_bps", .float summary.averageSlippage),
    ("average_queue_ms", .float summary.averageQueue),
    ("hourly_average_bps",
      .table (summary.hourly.map fun (hour, mean) => (Digits.ofNat hour, .float mean)))]

end Costs

namespace Drift

def Metrics.toDocument (metrics : Metrics) : Document :=
  .table [("profit_factor", .float metrics.profitFactor), ("win_rate", .float metrics.winRate),
    ("max_drawdown_pct", .float metrics.maxDrawdown), ("total_pnl", .float metrics.total),
    ("count", .nat metrics.count)]

def Status.toDocument (status : Status) : Document :=
  .table [("stage", .text status.stage.text), ("sizing_multiplier", .float status.multiplier),
    ("mode", .text status.mode.text), ("kill_switch", .bool status.killSwitch),
    ("live", status.live.toDocument), ("shadow", status.shadow.toDocument),
    ("downgrades", .nat status.downgrades)]

end Drift

def Removals.toDocument (removals : Removals) : Document :=
  .table [("tca", .nat removals.costs), ("drift", .nat removals.drift),
    ("shadow", .nat removals.shadow), ("pulls", .nat removals.pulls)]

end ExposureControl
