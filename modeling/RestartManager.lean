import RestartManager.ApplicationRestart.ExclusiveLease
import RestartManager.Session.HandleLife
import RestartManager.Session.FilterRoundTrip
import RestartManager.Session.ApplicationSnapshot
import RestartManager.Session.ProgressDelivery
import RestartManager.Session.PanicContainment
import RestartManager.Sys.CallbackSlot
import RestartManager.Sys.FilterSafety
import RestartManager.Sys.FilterSnapshot
import RestartManager.Tokio.Abandonment
import RestartManager.Tokio.Progress
import RestartManager.Tokio.Retained
import RestartManager.Tokio.Erased
import RestartManager.Tokio.Registration
import RestartManager.Tokio.DroppedShutdown
import RestartManager.Tokio.LastProgress
import RestartManager.Tokio.OwnPanics
import RestartManager.Tokio.WideStrings
import RestartManager.Session.FilterTable
import RestartManager.Session.Listings
import RestartManager.Session.SessionKeys
import RestartManager.Session.SharedSessions
import RestartManager.Session.ProcessLookups
import RestartManager.Session.Quiescence
import RestartManager.Sys.CallbackNesting
import RestartManager.Tokio.NativeSafety
import RestartManager.Tokio.Liveness
import RestartManager.Tokio.ErrorCodes
import RestartManager.Tokio.StreamsEnd
import RestartManager.Tokio.LifeCycle
import RestartManager.Tokio.Completeness
