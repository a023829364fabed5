import EventBus.Config.Lookup
import EventBus.Group.Operation
import EventBus.Group.View
import EventBus.Host.View
import EventBus.Registry.Operation
import EventBus.Registry.View
import EventBus.Run
import EventBus.Script
import EventBus.Proofs.Window
import EventBus.Proofs.Wakeup
import EventBus.Proofs.Instant
import EventBus.Proofs.Shutdown
import EventBus.Proofs.Service
import EventBus.Proofs.Ownership
import EventBus.Proofs.WindDown
import EventBus.Proofs.Closing
import EventBus.Proofs.FirstBinder
import EventBus.Proofs.Isolation
import EventBus.Proofs.Confluence
import EventBus.Proofs.Wiring
import EventBus.Proofs.Episode
import EventBus.Proofs.Subscribers
import EventBus.Proofs.FirstUse
import EventBus.Proofs.DefaultBus
import EventBus.Proofs.Biography
import EventBus.Proofs.Departure
import EventBus.Proofs.Records
import EventBus.Proofs.Failure
import EventBus.Proofs.Settings
import EventBus.Proofs.Logbook
import EventBus.Proofs.Admission
import EventBus.Proofs.DoubleBuffer
import EventBus.Proofs.Quiescence
