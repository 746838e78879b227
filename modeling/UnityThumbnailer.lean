import UnityThumbnailer.EventSystem
import UnityThumbnailer.LimiterUsage
import UnityThumbnailer.LimiterQueue
import UnityThumbnailer.BoxFit
import UnityThumbnailer.QSize
import UnityThumbnailer.Image
import UnityThumbnailer.ScalingPaths
import UnityThumbnailer.ThumbnailRequest
import UnityThumbnailer.Transparency
import UnityThumbnailer.Tally
import UnityThumbnailer.Client
import UnityThumbnailer.ClientInvariant
import UnityThumbnailer.ClientSteps
import UnityThumbnailer.ClientAccounting
import UnityThumbnailer.CredentialsCache
import UnityThumbnailer.CredentialsDelivery
import UnityThumbnailer.Service
import UnityThumbnailer.InactivityHandler
import UnityThumbnailer.ImageExtractor
import UnityThumbnailer.Lifecycle
import UnityThumbnailer.CallStack
import UnityThumbnailer.Transition
import UnityThumbnailer.LifecycleSteps
import UnityThumbnailer.Milestone
import UnityThumbnailer.RequestChains
import UnityThumbnailer.Serialization
import UnityThumbnailer.Places
import UnityThumbnailer.Records
import UnityThumbnailer.AccessControl
import UnityThumbnailer.ThumbnailOutcome
import UnityThumbnailer.Downloads
import UnityThumbnailer.DownloadBurst
import UnityThumbnailer.BackoffWindow
import UnityThumbnailer.DownloadSlots
import UnityThumbnailer.ClientCancellation
import UnityThumbnailer.AspectRatio
import UnityThumbnailer.SizeContract
import UnityThumbnailer.DelimitedText
import UnityThumbnailer.CacheKeys
import UnityThumbnailer.CacheHelper
import UnityThumbnailer.CacheRetry
import UnityThumbnailer.Settings
import UnityThumbnailer.Startup
import UnityThumbnailer.VersionStamp
import UnityThumbnailer.CacheCorruption
import UnityThumbnailer.BackoffRestore
import UnityThumbnailer.BackoffRuns
import UnityThumbnailer.StaleSuccess
import UnityThumbnailer.BoundedWait
import UnityThumbnailer.MachineInt
import UnityThumbnailer.StartupArithmetic
import UnityThumbnailer.CredentialsBound
import UnityThumbnailer.ExifThumbnail
import UnityThumbnailer.OrientedSize
import UnityThumbnailer.Raster
import UnityThumbnailer.Orientation
import UnityThumbnailer.FirstChoice
import UnityThumbnailer.LocalAlbumArt
import UnityThumbnailer.CoverArt
import UnityThumbnailer.AtomicWrite
import UnityThumbnailer.NumberPrefix
import UnityThumbnailer.ParseSize
import UnityThumbnailer.Completion
import UnityThumbnailer.BusQueries
import UnityThumbnailer.Tickets
import UnityThumbnailer.Conservation
import UnityThumbnailer.Answering
import UnityThumbnailer.QuietShutdown
import UnityThumbnailer.ClientTurns
import UnityThumbnailer.SessionBus
import UnityThumbnailer.CallAccounts
import UnityThumbnailer.EndToEnd
import UnityThumbnailer.FileAccess
import UnityThumbnailer.CachedSizes
import UnityThumbnailer.ShownSizes
import UnityThumbnailer.ServiceInstances
import UnityThumbnailer.Handovers
import UnityThumbnailer.PictureKinds
import UnityThumbnailer.ShownPictures
import UnityThumbnailer.FreshPictures
import UnityThumbnailer.ThumbnailExtractor
import UnityThumbnailer.StillFrames
import UnityThumbnailer.VsThumb
import UnityThumbnailer.Outcomes
import UnityThumbnailer.ImageResponses
import UnityThumbnailer.UbuntuServerDownloader
import UnityThumbnailer.OfflineArt
