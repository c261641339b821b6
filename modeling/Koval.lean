import Koval.Schema
import Koval.Num.F64
import Koval.Server.Forge
import Koval.Server.Cache
import Koval.Server.Targets
import Koval.Server.CacheLemmas
import Koval.Server.ForgeLemmas
import Koval.SchemaJson
import Koval.Server.Samples
import Koval.Text.FixedWidth
import Koval.Time.Calendar
import Koval.Time.DateTime
import Koval.Log.SlidingWindow
import Koval.Server.Db
import Koval.Server.Auth
import Koval.Server.AuthLemmas
import Koval.Server.AuthRuns
import Koval.Conc.Machine
import Koval.Conc.Pipe
import Koval.Server.Worker.RunCargoBuild
import Koval.Server.Worker.RunCargoBuildLemmas
import Koval.Conc.Pool
import Koval.Text.Path
import Koval.Server.Queue
import Koval.Server.Routes.Handler
import Koval.Server.Routes.Admin
import Koval.Server.Routes.Authenticated
import Koval.Server.Routes.Build
import Koval.Server.Routes.Status
import Koval.Server.Pgo
import Koval.Server.Routes.Pgo
import Koval.Server.Worker.BuildMode
import Koval.Server.Worker.ProcessJob
import Koval.Server.System
import Koval.Server.Lifecycle
import Koval.Server.Routes.HandlerLemmas
import Koval.Server.Routes.RouteLemmas
import Koval.Server.Worker.ProcessJobLemmas
import Koval.Server.LifecycleLemmas
import Koval.Server.RecordLemmas
import Koval.Server.TrackLemmas
import Koval.Server.CompletionLemmas
import Koval.Server.SystemLemmas
import Koval.Server.JobLife
import Koval.Server.CacheAnswers
import Koval.Server.CacheHits
import Koval.Server.PgoRuns
import Koval.Conc.Course
import Koval.Server.JobPlaces
import Koval.Server.Worker.JobEnds
import Koval.Server.Routes.SaveParts
import Koval.Server.Backpressure
import Koval.Git
import Koval.Server.Frames
import Koval.Server.Routes.RouteFrames
import Koval.Server.Routes.Submissions
import Koval.Server.Worker.FetchSource
import Koval.Server.Worker.WorkerFrames
import Koval.Server.SystemFrames
import Koval.Server.TokenLemmas
import Koval.Server.Revocation
import Koval.Server.AdminToken
import Koval.Server.WholeCompletion
import Koval.Server.PgoJobs
import Koval.Server.PgoSources
import Koval.Server.Announcements
import Koval.Server.Deliveries
import Koval.Server.AnnouncedEnds
import Koval.Conc.Matches
import Koval.Server.Routes.SubmissionPaths
import Koval.Server.Routes.Refusals
import Koval.Server.ForgeSpec
import Koval.Text.Words
import Koval.Text.Utf8Lemmas
import Koval.Text.FormUrlEncoded
import Koval.Text.Replace
import Koval.Text.Shell
import Koval.Server.ForgeMonotone
import Koval.Server.WebhookSet
import Koval.Server.InstallQuery
import Koval.Server.InstallSh
import Koval.Server.InstallScript
import Koval.Server.Installer
import Koval.Conc.Coincide
import Koval.Server.Tenants
import Koval.Server.TenantViews
import Koval.Log.Rank
import Koval.Server.QueuePlaces
import Koval.Time.TextOrder
import Koval.Server.Worker.ProjectUrl
import Koval.Server.Worker.Rustflags
import Koval.Server.Worker.PackageOption
import Koval.Server.Routes.Confined
import Koval.Server.Worker.TruncateStderr
import Koval.Chase.Cycle
import Koval.Probe.Memory
import Koval.Probe.PointerChase
import Koval.Probe.Numa
import Koval.Probe.RangeList
import Koval.Cli.Output
import Koval.Cli.Tables
import Koval.Conc.Leads
import Koval.Server.EndedJobs
import Koval.Conc.Errand
import Koval.Server.Archives
import Koval.Server.Downloads
import Koval.Server.Outbound
import Koval.Log.Latest
import Koval.Server.JobLists
import Koval.Server.TokenLife
import Koval.Cli.Upload
import Koval.Server.InitDb
import Koval.Server.Versions
import Koval.Conc.Rest
import Koval.Server.Abandoned
import Koval.Server.Asked
import Koval.Probe.Hidden
