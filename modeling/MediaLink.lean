import MediaLink.Item
import MediaLink.Rehearsal.Performance
import MediaLink.Session.Run
import MediaLink.Proofs.Session.Consistency
import MediaLink.Proofs.Session.Outcomes
import MediaLink.Proofs.Subscription.Key
import MediaLink.Proofs.Subscription.Registry
import MediaLink.Proofs.Subscription.Rebuild
import MediaLink.Proofs.Session.Mirror
import MediaLink.Proofs.Session.Padding
import MediaLink.Proofs.Session.Staleness
import MediaLink.Proofs.Session.Bindings
import MediaLink.Proofs.Session.Discipline
import MediaLink.Proofs.Session.Durability
import MediaLink.Proofs.Session.Serving
import MediaLink.Proofs.Session.Losses
import MediaLink.Proofs.Session.Rejections
import MediaLink.Proofs.Session.Twins
import MediaLink.Proofs.Session.Restoring
import MediaLink.Proofs.Subscription.Finding
import MediaLink.Proofs.Session.Errand
import MediaLink.Proofs.Session.Routing
import MediaLink.Proofs.Session.Answers
import MediaLink.Proofs.Session.Accessors
import MediaLink.Proofs.Session.Teardown
import MediaLink.Proofs.Session.Refusals
import MediaLink.Proofs.Subscription.Chronicle
import MediaLink.Proofs.Subscription.Layout
import MediaLink.Proofs.Session.Draining
import MediaLink.Proofs.Session.Removals
import MediaLink.Proofs.Payload.Writes
import MediaLink.Proofs.Payload.Equality
import MediaLink.Proofs.Json.Quoting
import MediaLink.Proofs.Json.Integers
import MediaLink.Proofs.Json.Parsing
import MediaLink.Proofs.Json.Range
import MediaLink.Proofs.Wire.Values
import MediaLink.Proofs.Wire.Formats
import MediaLink.Proofs.Wire.RoundTrip
