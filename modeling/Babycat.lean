import Babycat.Router.StaleLogout
import Babycat.Router.WhepKeep
import Babycat.Router.PasswordChange
import Babycat.Router.LiveStreaming
import Babycat.Router.Limiter
import Babycat.Analyzer.InFlight
import Babycat.Analyzer.RingFrames
import Babycat.Analyzer.PipelineState
import Babycat.Analyzer.Snapshot
import Babycat.Analyzer.ModelSwitch
import Babycat.Analyzer.IpcReplies
import Babycat.Recorder.Segments
import Babycat.Recorder.Retention
import Babycat.Recorder.ClipPairs
import Babycat.Recorder.PruneHistory
import Babycat.Recorder.Suppression
import Babycat.Recorder.ClipNames
import Babycat.Recorder.HistoryRow
import Babycat.Recorder.CrashFiles
import Babycat.Streamer.Restore
import Babycat.Recorder.Selection
import Babycat.Recorder.SegmentNames
import Babycat.Recorder.Summary
import Babycat.Recorder.BufferState
import Babycat.Recorder.RefreshSignal
import Babycat.Streamer.PresetOrigin
import Babycat.Recorder.Capacity
import Babycat.Recorder.ByteRange
import Babycat.Recorder.PartialContent
import Babycat.Text.Wildcard
import Babycat.Recorder.ResolveClip
import Babycat.Text.Like
import Babycat.Text.JsonString
import Babycat.Recorder.LabelFilter
import Babycat.Router.LockoutHistory
import Babycat.Router.EpochGuard
import Babycat.Recorder.StateCrash
import Babycat.Text.Base64
import Babycat.Router.Token
import Babycat.Time.DateTexts
import Babycat.Recorder.DateFilter
import Babycat.Text.PyStr
import Babycat.Router.Secret
import Babycat.Streamer.StopOutcome
import Babycat.Text.Double
import Babycat.Text.Lower
import Babycat.Analyzer.Vocabulary
import Babycat.Analyzer.PresetRanges
import Babycat.Text.JsonNumber
import Babycat.Text.JsonText
import Babycat.Text.JsonWellFormed
import Babycat.Text.JsonRoundTrip
import Babycat.Text.JsonPoints
import Babycat.Text.Repr
import Babycat.Analyzer.PresetPayload
import Babycat.Analyzer.SettingsFile
import Babycat.Analyzer.SettingsRequests
import Babycat.Analyzer.PresetRequest
import Babycat.Router.ClientStorage
import Babycat.Text.Utf8
import Babycat.Text.Url
import Babycat.Text.Masking
import Babycat.Router.QueryToken
import Babycat.Analyzer.DisplayedModel
import Babycat.Text.JsonEq
import Babycat.Streamer.ProfileFiles
import Babycat.Streamer.PendingProfile
import Babycat.Streamer.SuppliedFields
import Babycat.Text.Uri
import Babycat.Streamer.SourceUrl
import Babycat.Streamer.OnvifRequests
import Babycat.Conc.Rota
import Babycat.Streamer.Patrol
import Babycat.Streamer.PatrolCycle
import Babycat.Streamer.PatrolOff
import Babycat.Conc.Wakeup
import Babycat.Analyzer.StateSnapshot
import Babycat.Router.Monitor
import Babycat.Router.MonitorFresh
import Babycat.Router.MonitorSent
import Babycat.Conc.Backoff
import Babycat.Analyzer.Pulse
import Babycat.Analyzer.WatchdogPace
import Babycat.Streamer.Supervisor
import Babycat.Recorder.InferenceHistory
import Babycat.Conc.Paging
import Babycat.Recorder.InferencePages
import Babycat.Text.JsonPrefix
import Babycat.Router.MonitorWire
import Babycat.Streamer.ProfileModels
