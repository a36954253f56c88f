import Dialogue.Endpoint
import Dialogue.Event

/-!
# Hosts

An engine reaches the outside through a host: it sends, edits and deletes messages, and
calls endpoints.  Whatever the host remembers is a state of its own type, so an engine
can be run against any transport and any network.
-/

namespace Dialogue

/-- The outside of an engine, with its state. -/
structure Host (σ : Type) where
  send : σ → String → String → OutputOptions → Except Failure MessageId × σ
  edit : σ → String → MessageId → String → OutputOptions → Except Failure Unit × σ
  delete : σ → String → MessageId → Except Failure Unit × σ
  call : σ → EndpointRequest → Exchange × σ

end Dialogue
