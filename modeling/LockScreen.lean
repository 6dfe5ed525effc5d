import LockScreen.Service.Basic
import LockScreen.Settings.Direct
import LockScreen.Timing.NamedAlarms
import LockScreen.Proofs.Screen.Feedback
import LockScreen.Proofs.Timing.Holding
import LockScreen.Proofs.Screen.Ownership
import LockScreen.Proofs.Screen.Freshness
import LockScreen.Proofs.Screen.MessageLifetime
import LockScreen.Proofs.Screen.FeedbackWindow
import LockScreen.Proofs.Screen.Frame
import LockScreen.Proofs.Screen.History
import LockScreen.Proofs.Screen.Deduplication
import LockScreen.Proofs.Screen.DeferredError
import LockScreen.Proofs.Screen.Asking
import LockScreen.Proofs.Screen.Disclosure
import LockScreen.Proofs.Number.Decimals
import LockScreen.Proofs.Json.Strings
import LockScreen.Proofs.Number.Digits
import LockScreen.Proofs.Json.Numbers
import LockScreen.Proofs.Json.Documents
import LockScreen.Proofs.Json.Values
import LockScreen.Proofs.Settings.Colors
import LockScreen.Proofs.Settings.Merge
import LockScreen.Proofs.Settings.Persistence
import LockScreen.Proofs.Number.Range
import LockScreen.Proofs.Settings.Refusal
import LockScreen.Proofs.Json.Nesting
import LockScreen.Proofs.Service.Payloads
import LockScreen.Proofs.Service.Changes
import LockScreen.Proofs.Battery.Estimates
import LockScreen.Proofs.Screen.Visibility
import LockScreen.Proofs.Screen.Pushes
import LockScreen.Proofs.Service.Run
import LockScreen.Proofs.Service.Reporting
import LockScreen.Proofs.Screen.InForce
import LockScreen.Proofs.Screen.Classification
import LockScreen.Proofs.Timing.Delays
import LockScreen.Proofs.Timing.Alarms
import LockScreen.Proofs.Timing.HeapOrder
import LockScreen.Proofs.Timing.AlarmOrder
import LockScreen.Proofs.Screen.TakeDown
import LockScreen.Proofs.Screen.OnLoop
import LockScreen.Proofs.Service.Calls
import LockScreen.Proofs.Service.Agreement
import LockScreen.Proofs.Service.Timers
import LockScreen.Proofs.Service.Rejection
import LockScreen.Proofs.Service.TakeDown
import LockScreen.Proofs.Screen.BoardHistory
import LockScreen.Proofs.Screen.Icon
import LockScreen.Proofs.Screen.Simultaneous
import LockScreen.Proofs.Settings.Atomicity
import LockScreen.Proofs.Settings.Entries
import LockScreen.Proofs.Settings.Validity
import LockScreen.Proofs.Settings.GivenThresholds
import LockScreen.Proofs.Battery.Durations
import LockScreen.Proofs.Battery.CanonicalDurations
import LockScreen.Proofs.Battery.Speeds
import LockScreen.Proofs.Color.Codec
import LockScreen.Proofs.Text.Places
import LockScreen.Proofs.Battery.Announcements
import LockScreen.Proofs.Battery.Details
import LockScreen.Proofs.Screen.Precedence
import LockScreen.Proofs.Screen.Questions
import LockScreen.Proofs.Screen.Repeats
