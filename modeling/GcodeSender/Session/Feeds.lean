import GcodeSender.Broadcast
import GcodeSender.Session

/-!
# The feeds of a session

Each kind of notice has a broadcast of its own. The record of a session is delivered to the
feeds in order; bytes that were written go to no feed. The main statement is that delivering
nothing changes nothing.
-/
namespace GcodeSender

/-- The four broadcasts of a session. -/
structure Feeds where
  /-- Events. -/
  events : Broadcast Event
  /-- Results of commands. -/
  results : Broadcast CommandResult
  /-- Responses with their lines. -/
  responses : Broadcast (Bytes × Response)
  /-- Status reports. -/
  statuses : Broadcast Status
deriving DecidableEq

namespace Feeds

/-- Feeds whose mailboxes hold so many items. -/
def create (capacity : Nat) : Feeds :=
  ⟨.create capacity, .create capacity, .create capacity, .create capacity⟩

/-- Publish a notice on its feed. -/
def deliver (feeds : Feeds) : Notice → Feeds
  | .event event => { feeds with events := feeds.events.publish event }
  | .result result => { feeds with results := feeds.results.publish result }
  | .response line response =>
    { feeds with responses := feeds.responses.publish (line, response) }
  | .status report => { feeds with statuses := feeds.statuses.publish report }
  | .wrote _ => feeds

/-- Publish notices in order. -/
def deliverAll (feeds : Feeds) (notices : List Notice) : Feeds := notices.foldl deliver feeds

/-- End every feed. -/
def close (feeds : Feeds) : Feeds :=
  ⟨feeds.events.close, feeds.results.close, feeds.responses.close, feeds.statuses.close⟩

/-- Delivering nothing changes nothing. -/
@[simp] theorem deliverAll_nil (feeds : Feeds) : feeds.deliverAll [] = feeds := rfl

end Feeds

namespace Session

/-- Take the notices out of the record of a session, in the order in which they were entered. -/
def takeRecord (session : Session) : List Notice × Session :=
  (session.record.reverse, { session with record := [] })

end Session

end GcodeSender
