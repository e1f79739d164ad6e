import Presence.Main
import Presence.Fault.Message
import Presence.Session.Step
import Presence.Proofs.Json.Escapes
import Presence.Proofs.Json.Numerals
import Presence.Proofs.Json.RoundTrip
import Presence.Proofs.Calls.Feed
import Presence.Proofs.Calls.Propagation
import Presence.Proofs.Json.Erasure
import Presence.Proofs.Sequence.Distinct
import Presence.Proofs.Optional.Pipeline
import Presence.Proofs.Either.Agreement
import Presence.Proofs.Sequence.Search
import Presence.Proofs.Logger.Documents
import Presence.Proofs.Logger.Levels
import Presence.Proofs.Session.Lookup
import Presence.Proofs.Sequence.ItemByItem
import Presence.Proofs.Managed.Lifecycle
import Presence.Proofs.Kinds.Unseen
import Presence.Proofs.Sort.Arrangement
import Presence.Proofs.Sort.Leaping
import Presence.Proofs.Sort.Merging
import Presence.Proofs.Sort.Levels
import Presence.Proofs.Sequence.Sorting
import Presence.Proofs.Managed.Clients
import Presence.Proofs.Managed.Courses
import Presence.Proofs.Managed.Sessions
import Presence.Proofs.Json.Detection
import Presence.Proofs.Json.Absence
import Presence.Proofs.Json.Canonical
import Presence.Proofs.Logger.Binding
import Presence.Proofs.Logger.OptionFields
import Presence.Proofs.Logger.LineBreaks
import Presence.Proofs.Logger.Thresholds
import Presence.Proofs.Optional.KindKept
import Presence.Proofs.Either.OffSide
import Presence.Proofs.Sequence.Finding
import Presence.Proofs.Sequence.Columns
import Presence.Proofs.Conditions.Demands
import Presence.Proofs.Conditions.Branches
import Presence.Proofs.Value.Unambiguous
import Presence.Proofs.Lists.HandedOut
import Presence.Proofs.Example.Positive
import Presence.Proofs.Optional.Zeros
