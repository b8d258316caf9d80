import TypedHeaders.Codec.RoundTrip
import TypedHeaders.Codec.Table
import TypedHeaders.Error.Taxonomy
import TypedHeaders.HttpDate.Values
import TypedHeaders.Mark
import TypedHeaders.Proofs.Codec.Canonical
import TypedHeaders.Proofs.Codec.RoundTrip
import TypedHeaders.Proofs.Container.Failure
import TypedHeaders.Proofs.Container.Lists
import TypedHeaders.Proofs.Container.Presence
import TypedHeaders.Proofs.Container.Wire
import TypedHeaders.Proofs.HttpDate.Rendering
import TypedHeaders.Release
import TypedHeaders.Session
import TypedHeaders.Value.Parts
import TypedHeaders.Proofs.Codec.Domain
import TypedHeaders.Proofs.Container.Faults
import TypedHeaders.Proofs.Session.Separation
import TypedHeaders.Proofs.Session.Copying
import TypedHeaders.Proofs.Container.TypedAccess
import TypedHeaders.Proofs.Codec.Integer
import TypedHeaders.Proofs.Container.Commuting
import TypedHeaders.Proofs.Container.Spelling
import TypedHeaders.Proofs.Container.Listing
import TypedHeaders.Proofs.Codec.Reading
import TypedHeaders.Proofs.Codec.RetryAfter
import TypedHeaders.Proofs.Time.Weekday
import TypedHeaders.Proofs.HttpDate.Weekday
import TypedHeaders.Proofs.Codec.Logging
import TypedHeaders.Proofs.Container.Labels
import TypedHeaders.Proofs.Container.Selecting
import TypedHeaders.Proofs.Container.Draining
import TypedHeaders.Proofs.Container.Merging
import TypedHeaders.Proofs.Value.Equivalence
import TypedHeaders.Proofs.Container.NameOrder
