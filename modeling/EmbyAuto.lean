import EmbyAuto.Download.Retry
import EmbyAuto.Torrent.Compensation
import EmbyAuto.Task.Transitions
import EmbyAuto.Events.Stream
import EmbyAuto.Subscription.Polls
import EmbyAuto.Subscription.TargetLocks
import EmbyAuto.Subscription.EntryRetry
import EmbyAuto.Catalog.Preview
import EmbyAuto.Catalog.RealtimePresence
import EmbyAuto.Catalog.Resolution
import EmbyAuto.Download.Manifest
import EmbyAuto.Domain.ReleaseCoordinate
import EmbyAuto.Files.LibraryPaths
import EmbyAuto.Files.ByteRange
import EmbyAuto.Agent.MappingPages
import EmbyAuto.Agent.Pages
import EmbyAuto.Agent.RequestEncoding
import EmbyAuto.Acquisition.Lifecycle
import EmbyAuto.Files.Deletion
import EmbyAuto.Domain.SubtitleNormalization
import EmbyAuto.Domain.SubtitleGroup
