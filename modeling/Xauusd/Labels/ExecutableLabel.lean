/-
  The executable label (`evidence/executable_label.py`): one trade made out of
  the quotes in the order of their receipt.

  An instant is a number of microseconds.  Prices, returns and seconds are of
  an ordered field, and `math.log` is a parameter.
-/
import Xauusd.Lib.IsoTime
import Xauusd.Lib.Stable

namespace Xauusd

namespace Labels

variable {K : Type} [Field K] [LinearOrder K]

/-- `MarketObservation`: `__post_init__` refuses a price that is not positive
    and a crossed quote. -/
structure MarketObservation (K : Type) [Field K] [LinearOrder K] where
  eventTime : ℤ
  receivedTime : ℤ
  bid : K
  ask : K
  positive : 0 < bid
  uncrossed : bid ≤ ask
  deriving DecidableEq

/-- `lambda q: (q.received_time, q.event_time)` -/
def MarketObservation.key (q : MarketObservation K) : ℤ ×ₗ ℤ := toLex (q.receivedTime, q.eventTime)

/-- `lambda q: (q.event_time, q.received_time)` -/
def MarketObservation.eventKey (q : MarketObservation K) : ℤ ×ₗ ℤ :=
  toLex (q.eventTime, q.receivedTime)

/-- One entry of `checkpoint_path`. -/
structure Checkpoint (K : Type) where
  minutes : ℤ
  receivedTime : ℤ
  longReturn : K
  shortReturn : K
  longMfe : K
  longMae : K
  shortMfe : K
  shortMae : K
  deriving DecidableEq, Repr

/-- `ExecutableLabelV2` -/
structure ExecutableLabelV2 (K : Type) where
  outcomeStatus : String
  reasonCodes : List String
  entryEventTime : Option ℤ := none
  entryReceivedTime : Option ℤ := none
  entryReceiptDelaySeconds : Option K := none
  exitEventTime : Option ℤ := none
  exitReceivedTime : Option ℤ := none
  exitReceiptDelaySeconds : Option K := none
  maximumEventGap : Option K := none
  maximumReceiptGap : Option K := none
  quoteCoverage : Option K := none
  ambiguityState : String := "UNREPAIRABLE"
  grossMidpointDirectionMove : Option K := none
  longQuoteReturn : Option K := none
  shortQuoteReturn : Option K := none
  spreadQuoteCost : Option K := none
  longMfe : Option K := none
  longMae : Option K := none
  shortMfe : Option K := none
  shortMae : Option K := none
  maximumSpread : Option K := none
  breakEvenCommissionLong : Option K := none
  breakEvenCommissionShort : Option K := none
  commissionStatus : String := "UNCONFIGURED"
  slippageStatus : String := "UNAVAILABLE_SHADOW"
  checkpointPath : List (Checkpoint K) := []
  deriving DecidableEq, Repr

/-- `_invalid` -/
def invalid (reason : String) : ExecutableLabelV2 K where
  outcomeStatus := "UNREPAIRABLE"
  reasonCodes := [reason]

/-- The arguments of `build_executable_label_v2` beside the quotes; the clock
    skew is the `timedelta` made of it. -/
structure LabelRequest (K : Type) [Field K] where
  decisionTime : ℤ
  signalExpirySeconds : ℤ := 20
  holdMinutes : ℤ := 30
  maximumHealthyGapSeconds : ℤ := 60
  maximumClockSkew : ℤ := 20 * IsoTime.second
  maximumQuoteFreshnessSeconds : K := 20

/-- `timedelta.total_seconds` -/
def totalSeconds (delta : ℤ) : K := (delta : K) / (IsoTime.second : ℤ)

/-- `math.log(a / b)` of two prices -/
def logRatio (log : K → K) (a b : K) : K := log (a / b)

def maxOf (values : List K) : K := values.max?.getD 0

def minOf (values : List K) : K := values.min?.getD 0

/-- `values[-1]` -/
def lastOf (values : List K) : K := values.getLast?.getD 0

section
variable (r : LabelRequest K) (log : K → K)

/-- `decision_time < quote.received_time <= expiry` -/
def LabelRequest.candidate (received : ℤ) : Bool :=
  decide (r.decisionTime < received ∧
    received ≤ r.decisionTime + r.signalExpirySeconds * IsoTime.second)

def LabelRequest.target (entry : MarketObservation K) : ℤ :=
  entry.receivedTime + r.holdMinutes * IsoTime.minute

/-- The event clock runs ahead of the receipt by more than the tolerance. -/
def LabelRequest.clockAhead (q : MarketObservation K) : Bool :=
  decide (r.maximumClockSkew < q.eventTime - q.receivedTime)

def LabelRequest.stale (q : MarketObservation K) : Bool :=
  decide (r.maximumQuoteFreshnessSeconds < |(totalSeconds (q.receivedTime - q.eventTime) : K)|)

/-- The seconds between one entry and the next. -/
def gaps (times : List ℤ) : List K :=
  (times.zip times.tail).map fun t => totalSeconds (t.2 - t.1)

/-- `math.log(quote.bid / entry.ask)` along a path -/
def longPath (entry : MarketObservation K) (path : List (MarketObservation K)) : List K :=
  path.map fun q => logRatio log q.bid entry.ask

/-- `math.log(entry.bid / quote.ask)` along a path -/
def shortPath (entry : MarketObservation K) (path : List (MarketObservation K)) : List K :=
  path.map fun q => logRatio log entry.bid q.ask

/-- The quotes received from the entry on, up to an instant. -/
def upTo (entry : MarketObservation K) (received : ℤ) (rows : List (MarketObservation K)) :
    List (MarketObservation K) :=
  rows.filter fun q => decide (entry.receivedTime ≤ q.receivedTime ∧ q.receivedTime ≤ received)

/-- The checkpoint reported at an instant, of the path visible there. -/
def checkpointOf (entry : MarketObservation K) (minutes received : ℤ)
    (visible : List (MarketObservation K)) : Checkpoint K where
  minutes := minutes
  receivedTime := received
  longReturn := lastOf (longPath log entry visible)
  shortReturn := lastOf (shortPath log entry visible)
  longMfe := maxOf (longPath log entry visible)
  longMae := minOf (longPath log entry visible)
  shortMfe := maxOf (shortPath log entry visible)
  shortMae := minOf (shortPath log entry visible)

/-- The checkpoint some minutes after the entry, if a quote of the path reaches
    it. -/
def checkpointAt (entry : MarketObservation K) (path : List (MarketObservation K)) (minutes : ℤ) :
    Option (Checkpoint K) :=
  (path.find? fun q => entry.receivedTime + minutes * IsoTime.minute ≤ q.receivedTime).map
    fun checkpoint => checkpointOf log entry minutes checkpoint.receivedTime
      (upTo entry checkpoint.receivedTime path)

def CHECKPOINT_MINUTES : List ℤ := [5, 10, 15, 20, 25]

def midpoint (q : MarketObservation K) : K := (q.bid + q.ask) / 2

/-- The label of a trade along a path of quotes. -/
def validLabel (entry exit : MarketObservation K) (path : List (MarketObservation K)) :
    ExecutableLabelV2 K :=
  let receiptGaps : List K := gaps (path.map (·.receivedTime))
  let eventGaps : List K := gaps ((Stable.sortBy MarketObservation.eventKey path).map (·.eventTime))
  let span : K := max 1 (totalSeconds (exit.receivedTime - entry.receivedTime))
  let covered := (receiptGaps.map fun gap => min (r.maximumHealthyGapSeconds : K) (max 0 gap)).sum
  let longReturn := lastOf (longPath log entry path)
  let shortReturn := lastOf (shortPath log entry path)
  { outcomeStatus := "VALID"
    reasonCodes := []
    entryEventTime := some entry.eventTime
    entryReceivedTime := some entry.receivedTime
    entryReceiptDelaySeconds := some (totalSeconds (entry.receivedTime - entry.eventTime))
    exitEventTime := some exit.eventTime
    exitReceivedTime := some exit.receivedTime
    exitReceiptDelaySeconds := some (totalSeconds (exit.receivedTime - exit.eventTime))
    maximumEventGap := some (maxOf eventGaps)
    maximumReceiptGap := some (maxOf receiptGaps)
    quoteCoverage := some (min 1 (covered / span))
    ambiguityState :=
      if maxOf receiptGaps ≤ (r.maximumHealthyGapSeconds : K) then "NONE" else "QUOTE_GAPS"
    grossMidpointDirectionMove := some (logRatio log (midpoint exit) (midpoint entry))
    longQuoteReturn := some longReturn
    shortQuoteReturn := some shortReturn
    spreadQuoteCost := some (-(longReturn + shortReturn) / 2)
    longMfe := some (maxOf (longPath log entry path))
    longMae := some (minOf (longPath log entry path))
    shortMfe := some (maxOf (shortPath log entry path))
    shortMae := some (minOf (shortPath log entry path))
    maximumSpread := some (maxOf (path.map fun q => q.ask - q.bid))
    breakEvenCommissionLong := some (max 0 longReturn)
    breakEvenCommissionShort := some (max 0 shortReturn)
    checkpointPath := CHECKPOINT_MINUTES.filterMap (checkpointAt log entry path) }

/-- `build_executable_label_v2` -/
def buildExecutableLabelV2 (quotes : List (MarketObservation K)) : ExecutableLabelV2 K :=
  let rows := Stable.sortBy MarketObservation.key quotes
  match rows.find? fun q => r.candidate q.receivedTime with
  | none => invalid "NO_ENTRY_RECEIVED_WITHIN_EXPIRY"
  | some entry =>
    if r.clockAhead entry then invalid "ENTRY_EVENT_CLOCK_AHEAD"
    else if r.stale entry then invalid "ENTRY_QUOTE_STALE_ON_RECEIPT"
    else match rows.find? fun q => r.target entry ≤ q.receivedTime with
    | none => invalid "NO_EXIT_RECEIVED_AFTER_HORIZON"
    | some exit =>
      if r.clockAhead exit then invalid "EXIT_EVENT_CLOCK_AHEAD"
      else if r.stale exit then invalid "EXIT_QUOTE_STALE_ON_RECEIPT"
      else match upTo entry exit.receivedTime rows with
      | [] => invalid "EMPTY_RECEIPT_PATH"
      | path => validLabel r log entry exit path

end

end Labels

end Xauusd
