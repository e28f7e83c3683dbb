import EventModel.Proofs.Detector.EndToEnd
import EventModel.Proofs.Store.Coherence
import EventModel.Proofs.Store.Exact
import EventModel.Proofs.Store.LastWrite
import EventModel.Proofs.Store.Shown
import EventModel.Proofs.Store.WellTyped
import EventModel.Proofs.Stream
import EventModel.Text.Hex
import EventModel.Proofs.Store.Resolution
import EventModel.Proofs.Store.Layout
import EventModel.Proofs.Store.Unresolved
import EventModel.Proofs.Store.Acceptance
import EventModel.Proofs.Store.Rejection
import EventModel.Proofs.Store.InBounds
import EventModel.Proofs.Store.Faults
import EventModel.Proofs.Truncation
import EventModel.Proofs.Canonical
import EventModel.Proofs.Store.ResolveAll
import EventModel.Proofs.Store.Currency
import EventModel.Proofs.IdIndex
import EventModel.Proofs.ColumnLayout
import EventModel.Proofs.Store.FailedEdits
import EventModel.Proofs.Store.Entries
import EventModel.Proofs.Store.Memory
