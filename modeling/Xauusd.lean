import Xauusd.Lib.Machine
import Xauusd.Lib.Table
import Xauusd.Lib.Lease
import Xauusd.Lib.IsoTime
import Xauusd.Lib.Text
import Xauusd.Lib.Versioned
import Xauusd.Lib.Window
import Xauusd.Lib.Paging
import Xauusd.Lib.Json
import Xauusd.Lib.Sha256
import Xauusd.Lib.Program
import Xauusd.Scheduler.LeaseSafety
import Xauusd.Scheduler.BackfillPressure
import Xauusd.Scheduler.GovernorSafety
import Xauusd.Scheduler.LiveReserve
import Xauusd.Scheduler.ReconcileCache
import Xauusd.Scheduler.OverrideLife
import Xauusd.Scheduler.AttemptsKept
import Xauusd.Scheduler.Discovery
import Xauusd.Operator.MirrorSync
import Xauusd.Operator.Requests
import Xauusd.Operator.Bridge
import Xauusd.Operator.RoundTrip
import Xauusd.Projection.Replica
import Xauusd.Projection.Finish
import Xauusd.Projection.Frame
import Xauusd.Projection.Receipt
import Xauusd.Lib.Rotation
import Xauusd.Scheduler.Fairness
import Xauusd.Assistant.Admission
import Xauusd.Lib.Exchange
import Xauusd.Live.Publisher
import Xauusd.Pool.Cooldown
import Xauusd.Questions.Asking
import Xauusd.Memory.Faithful
import Xauusd.Scheduler.Enqueued
import Xauusd.Lib.Expiry
import Xauusd.Scheduler.MinuteRetry
import Xauusd.Lib.Stable
import Xauusd.Labels.Causal
import Xauusd.Projection.ReviewState
import Xauusd.Gateway.Accounted
import Xauusd.Projection.Tally
import Xauusd.Titles.Kept
import Xauusd.Routing.Finished
import Xauusd.Evidence.MacroLedger
import Xauusd.Scheduler.Overtaking
import Xauusd.Scheduler.BodyContract
import Xauusd.Scheduler.Credentials
import Xauusd.Scheduler.Calibration
import Xauusd.News.ImpactBatch
import Xauusd.Sync.Transport
import Xauusd.Memory.Recalled
import Xauusd.Evidence.Pages
import Xauusd.Market.Session
import Xauusd.Sync.Schedule
import Xauusd.Agent.News
