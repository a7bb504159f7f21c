import ConnectionBroker.Broker.Run
import ConnectionBroker.Cache.Run
import ConnectionBroker.Json.Reader
import ConnectionBroker.Sqlite.Run
import ConnectionBroker.Proofs.Cache.Sound
import ConnectionBroker.Proofs.Cache.Actions
import ConnectionBroker.Proofs.Cache.SingleFlight
import ConnectionBroker.Proofs.Cache.Frame
import ConnectionBroker.Proofs.Cache.Names
import ConnectionBroker.Proofs.Cache.Answers
import ConnectionBroker.Proofs.Cache.Handover
import ConnectionBroker.Proofs.Cache.Ledger
import ConnectionBroker.Proofs.Cache.Numbers
import ConnectionBroker.Proofs.Cache.LastWrite
import ConnectionBroker.Proofs.Cache.Lines
import ConnectionBroker.Proofs.Cache.Desk
import ConnectionBroker.Proofs.Cache.Play
import ConnectionBroker.Proofs.Cache.Isolation
import ConnectionBroker.Proofs.Cache.Removal
import ConnectionBroker.Proofs.Number.Spelling
import ConnectionBroker.Proofs.Number.Rounding
import ConnectionBroker.Proofs.Json.Writing
import ConnectionBroker.Proofs.Json.Sorted
import ConnectionBroker.Proofs.Json.Reading
import ConnectionBroker.Proofs.Json.Canonical
import ConnectionBroker.Proofs.Cache.Jobs
import ConnectionBroker.Proofs.Broker.Making
import ConnectionBroker.Proofs.Broker.Story
import ConnectionBroker.Proofs.Broker.Tasks
import ConnectionBroker.Proofs.Broker.Faithful
import ConnectionBroker.Proofs.Broker.Provenance
import ConnectionBroker.Proofs.Text.Utf8
import ConnectionBroker.Proofs.Text.Percent
import ConnectionBroker.Proofs.Uri.Path
import ConnectionBroker.Proofs.Uri.Writing
import ConnectionBroker.Proofs.Uri.Query
import ConnectionBroker.Proofs.Address.RoundTrip
import ConnectionBroker.Proofs.Cache.Ownership
import ConnectionBroker.Proofs.Mapping.Matching
import ConnectionBroker.Proofs.Mapping.Conservation
import ConnectionBroker.Proofs.Broker.Resolving
import ConnectionBroker.Proofs.Cache.Progress
import ConnectionBroker.Proofs.Broker.Errands
import ConnectionBroker.Proofs.Broker.Told
import ConnectionBroker.Proofs.Broker.Called
import ConnectionBroker.Proofs.Broker.Flights
import ConnectionBroker.Proofs.Broker.Announced
import ConnectionBroker.Proofs.Mapping.Required
import ConnectionBroker.Proofs.Mapping.Shape
import ConnectionBroker.Proofs.Address.Location
import ConnectionBroker.Proofs.Mapping.Files
import ConnectionBroker.Proofs.Sqlite.Options
import ConnectionBroker.Proofs.Sqlite.Agreement
import ConnectionBroker.Proofs.Cache.Keeping
import ConnectionBroker.Proofs.Cache.Failing
import ConnectionBroker.Proofs.Cache.Sweeping
import ConnectionBroker.Proofs.Cache.Liveness
import ConnectionBroker.Proofs.Broker.Unresolvable
import ConnectionBroker.Proofs.Broker.Private
import ConnectionBroker.Proofs.Broker.Isolation
import ConnectionBroker.Proofs.Mapping.Layout
import ConnectionBroker.Proofs.Broker.Routes
import ConnectionBroker.Proofs.Sqlite.Acceptance
import ConnectionBroker.Proofs.Schema.Declaring
import ConnectionBroker.Proofs.Registry.Building
import ConnectionBroker.Proofs.Text.Pieces
import ConnectionBroker.Proofs.Uri.Hosts
import ConnectionBroker.Proofs.Address.Normal
import ConnectionBroker.Proofs.Cache.Immediate
import ConnectionBroker.Proofs.Broker.Immediate
import ConnectionBroker.Proofs.Sqlite.Files
import ConnectionBroker.Proofs.Sqlite.Opening
import ConnectionBroker.Proofs.Sqlite.Creation
