import LinkQualityFabric.Persist.CompactionFailure
import LinkQualityFabric.Runtime.Shutdown
import LinkQualityFabric.Runtime.Maintenance
import LinkQualityFabric.Runtime.Session
import LinkQualityFabric.Persist.ThreadOrder
import LinkQualityFabric.Persist.ThreadProgress
import LinkQualityFabric.Runtime.SnapshotLimits
import LinkQualityFabric.Store.CounterDeltas
import LinkQualityFabric.Store.DuplicateContent
import LinkQualityFabric.Runtime.PastQueries
import LinkQualityFabric.Classify.Bands
import LinkQualityFabric.Classify.Margin
import LinkQualityFabric.Runtime.Intake
import LinkQualityFabric.Core.Checksum
import LinkQualityFabric.Core.Sha256Standard
import LinkQualityFabric.Domain.IdentityText
import LinkQualityFabric.Transport.Framing
import LinkQualityFabric.Core.LockTracker
