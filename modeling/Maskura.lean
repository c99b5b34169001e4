import Maskura.Backend.Disguise
import Maskura.BinaryReductor.PlanHash
import Maskura.Iceberg.Detect
import Maskura.Integrity.Grammar
import Maskura.Lance.Levels
import Maskura.Listing.Uploads
import Maskura.Managed.Placement
import Maskura.Multipart.ArtifactKeys
import Maskura.Multipart.Crash
import Maskura.Multipart.QuotaOrder
import Maskura.Multipart.Recovery
import Maskura.Multipart.SnapshotReplay
import Maskura.Persistence.TornTail
import Maskura.Pipeline.Budget
import Maskura.Pipeline.Composition
import Maskura.Pipeline.Resolver
import Maskura.Policy.Destination
import Maskura.Policy.History
import Maskura.Policy.Landed
import Maskura.Reads.SpoolBody
import Maskura.Records.Lossless
import Maskura.Redaction.Checked
import Maskura.Redaction.Deterministic
import Maskura.Redaction.Envelope
import Maskura.Redaction.Repeated
import Maskura.Sigv4.Presigned
import Maskura.Backend.Timestamps
import Maskura.Lance.Messages
import Maskura.Multipart.Durable
import Maskura.Transaction.Answers
