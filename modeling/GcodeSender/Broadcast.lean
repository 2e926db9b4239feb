/-!
# Broadcasts

What is published goes to every mailbox. A mailbox holds so many items; when it is full its
oldest item is lost and counted. A mailbox lasts as long as someone holds it; a broadcast may
list one that nobody holds any more until it next publishes or closes. After a broadcast closes,
its mailboxes can still be emptied and get nothing more. The main statements are that a mailbox
never holds more than its capacity and that a closed broadcast delivers nothing.
-/
namespace GcodeSender

/-- The items that one subscriber has not received. -/
structure Mailbox (α : Type) where
  /-- The items, the oldest first. -/
  items : List α := []
  /-- How many items were lost. -/
  lagged : Nat := 0
  /-- The broadcast was closed. -/
  closed : Bool := false
deriving DecidableEq, Repr

namespace Mailbox

variable {α : Type}

/-- The mailbox with one more item. A full one loses its oldest item. -/
def push (capacity : Nat) (mailbox : Mailbox α) (item : α) : Mailbox α :=
  if capacity ≤ mailbox.items.length then
    { mailbox with items := mailbox.items.tail ++ [item], lagged := mailbox.lagged + 1 }
  else { mailbox with items := mailbox.items ++ [item] }

/-- Take out the oldest item. -/
def receive (mailbox : Mailbox α) : Option α × Mailbox α :=
  match mailbox.items with
  | [] => (none, mailbox)
  | item :: others => (some item, { mailbox with items := others })

/-- The mailbox after its broadcast closed. -/
def close (mailbox : Mailbox α) : Mailbox α := { mailbox with closed := true }

/-- A mailbox within its capacity stays within it. -/
theorem length_push_le {capacity : Nat} {mailbox : Mailbox α} {item : α}
    (room : 0 < capacity) (within : mailbox.items.length ≤ capacity) :
    (mailbox.push capacity item).items.length ≤ capacity := by
  unfold push
  split
  · simp only [List.length_append, List.length_tail, List.length_singleton]
    omega
  · simp only [List.length_append, List.length_singleton]
    omega

end Mailbox

/-- A mailbox in a broadcast. -/
structure Subscriber (α : Type) where
  /-- Its number. -/
  key : Nat
  /-- How many hold it. -/
  holders : Nat := 1
  /-- The broadcast lists it, and delivers to it. Closing ends that. -/
  listed : Bool := true
  /-- Its items. -/
  mailbox : Mailbox α := {}
deriving DecidableEq, Repr

/-- Someone holds the mailbox. -/
def Subscriber.isHeld {α : Type} (subscriber : Subscriber α) : Bool :=
  decide (0 < subscriber.holders)

/-- A broadcast and its mailboxes. -/
structure Broadcast (α : Type) where
  /-- How many items a mailbox holds. -/
  capacity : Nat := 100
  /-- Nothing is delivered any more. -/
  closed : Bool := false
  /-- The mailboxes that are held or listed, in the order of subscription. -/
  subscribers : List (Subscriber α) := []
  /-- The number of the next mailbox. -/
  nextKey : Nat := 0
deriving DecidableEq, Repr

namespace Broadcast

variable {α : Type}

/-- A broadcast whose mailboxes hold so many items, and at least one. -/
def create (capacity : Nat) : Broadcast α := { capacity := max capacity 1 }

/-- Open a mailbox. Gives its number. -/
def subscribe (broadcast : Broadcast α) : Nat × Broadcast α :=
  let opened : Subscriber α :=
    { key := broadcast.nextKey, mailbox := { closed := broadcast.closed } }
  (broadcast.nextKey,
    { broadcast with
      subscribers := broadcast.subscribers ++ [opened]
      nextKey := broadcast.nextKey + 1 })

/-- Change the mailbox of a number, if someone holds it. -/
def update (broadcast : Broadcast α) (key : Nat) (change : Subscriber α → Subscriber α) :
    Broadcast α :=
  { broadcast with
    subscribers := broadcast.subscribers.map fun s =>
      if s.key = key ∧ s.isHeld then change s else s }

/-- The subscriber of a number, if someone holds its mailbox. -/
def find? (broadcast : Broadcast α) (key : Nat) : Option (Subscriber α) :=
  broadcast.subscribers.find? fun s => decide (s.key = key) && s.isHeld

/-- One more holds a mailbox. -/
def share (broadcast : Broadcast α) (key : Nat) : Broadcast α :=
  broadcast.update key fun s => { s with holders := s.holders + 1 }

/-- One less holds a mailbox. One that nobody holds is gone, though it may stay listed. -/
def release (broadcast : Broadcast α) (key : Nat) : Broadcast α :=
  let released := broadcast.update key fun s => { s with holders := s.holders - 1 }
  { released with subscribers := released.subscribers.filter fun s => s.listed || s.isHeld }

/-- Deliver an item to every mailbox that is listed, unless the broadcast is closed. Mailboxes
that nobody holds are taken off the list first. -/
def publish (broadcast : Broadcast α) (item : α) : Broadcast α :=
  if broadcast.closed then broadcast
  else
    { broadcast with
      subscribers := (broadcast.subscribers.filter (·.isHeld)).map fun s =>
        if s.listed then { s with mailbox := s.mailbox.push broadcast.capacity item } else s }

/-- Take the oldest item out of a mailbox. -/
def receive (broadcast : Broadcast α) (key : Nat) : Option α × Broadcast α :=
  match broadcast.find? key with
  | none => (none, broadcast)
  | some found =>
    let (item, mailbox) := found.mailbox.receive
    (item, broadcast.update key fun s => { s with mailbox := mailbox })

/-- Take all items out of a mailbox. -/
def drain (broadcast : Broadcast α) (key : Nat) : List α × Broadcast α :=
  match broadcast.find? key with
  | none => ([], broadcast)
  | some found =>
    (found.mailbox.items,
      broadcast.update key fun s => { s with mailbox := { s.mailbox with items := [] } })

/-- Deliver nothing more, and list no mailbox. -/
def close (broadcast : Broadcast α) : Broadcast α :=
  { broadcast with
    closed := true
    subscribers := (broadcast.subscribers.filter (·.isHeld)).map fun s =>
      { s with listed := false, mailbox := s.mailbox.close } }

/-- How many of the mailboxes that are listed someone holds. -/
def subscriberCount (broadcast : Broadcast α) : Nat :=
  (broadcast.subscribers.filter fun s => s.listed && s.isHeld).length

/-- A closed broadcast delivers nothing. -/
theorem publish_of_closed {broadcast : Broadcast α} {item : α} (ended : broadcast.closed = true) :
    broadcast.publish item = broadcast := by
  simp [publish, ended]

end Broadcast

end GcodeSender
