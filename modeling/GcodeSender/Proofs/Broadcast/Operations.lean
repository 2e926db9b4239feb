import Mathlib.Data.List.Induction
import Mathlib.Data.List.Nodup
import GcodeSender.Broadcast

/-!
# Operations on a broadcast

A broadcast is used by opening, sharing and releasing mailboxes, publishing, receiving and
closing. Whatever one operation does to the mailbox of a number is read off that mailbox, the
capacity and whether the broadcast is closed (`find?_perform`): other mailboxes, and the pruning
of those that nobody holds, do not show. The invariant that makes this so (`Sound`) says that
numbers are distinct and that an open broadcast lists every mailbox.
-/
namespace GcodeSender

namespace Broadcast

variable {α : Type}

/-- An operation on a broadcast or on one of its mailboxes. -/
inductive Operation (α : Type) where
  /-- Open a mailbox. -/
  | subscribe
  /-- Hold a mailbox once more. -/
  | share (key : Nat)
  /-- Hold a mailbox once less. -/
  | release (key : Nat)
  /-- Deliver an item. -/
  | publish (item : α)
  /-- Take the oldest item out of a mailbox. -/
  | receive (key : Nat)
  /-- Deliver nothing more. -/
  | close
deriving DecidableEq, Repr

/-- A broadcast after one operation. -/
def perform (broadcast : Broadcast α) : Operation α → Broadcast α
  | .subscribe => broadcast.subscribe.2
  | .share key => broadcast.share key
  | .release key => broadcast.release key
  | .publish item => broadcast.publish item
  | .receive key => (broadcast.receive key).2
  | .close => broadcast.close

/-- A broadcast after operations, in order. -/
def performAll (broadcast : Broadcast α) (operations : List (Operation α)) : Broadcast α :=
  operations.foldl perform broadcast

/-- A new broadcast after operations. -/
def run (capacity : Nat) (operations : List (Operation α)) : Broadcast α :=
  (create capacity).performAll operations

@[simp] theorem performAll_nil (broadcast : Broadcast α) : broadcast.performAll [] = broadcast :=
  rfl

@[simp] theorem performAll_append (broadcast : Broadcast α) (first others : List (Operation α)) :
    broadcast.performAll (first ++ others) = (broadcast.performAll first).performAll others :=
  List.foldl_append

@[simp] theorem performAll_singleton (broadcast : Broadcast α) (operation : Operation α) :
    broadcast.performAll [operation] = broadcast.perform operation := rfl

theorem run_append (capacity : Nat) (first others : List (Operation α)) :
    run capacity (first ++ others) = (run capacity first).performAll others :=
  performAll_append ..

namespace Operation

/-- An operation ends deliveries. -/
def ends : Operation α → Bool
  | close => true
  | _ => false

/-- What an operation makes of a mailbox that someone holds: nothing, if that was the last to
hold it. -/
def act (capacity : Nat) (closed : Bool) (held : Subscriber α) :
    Operation α → Option (Subscriber α)
  | subscribe => some held
  | share key => some (if key = held.key then { held with holders := held.holders + 1 } else held)
  | release key =>
    if key = held.key then
      if held.holders ≤ 1 then none else some { held with holders := held.holders - 1 }
    else some held
  | publish item =>
    some (if closed then held else { held with mailbox := held.mailbox.push capacity item })
  | receive key =>
    some (if key = held.key then { held with mailbox := held.mailbox.receive.2 } else held)
  | close => some { held with listed := false, mailbox := held.mailbox.close }

/-- An operation leaves a mailbox its number. -/
theorem key_of_act {operation : Operation α} {capacity : Nat} {closed : Bool}
    {held next : Subscriber α} (acted : operation.act capacity closed held = some next) :
    next.key = held.key := by
  cases operation <;> simp only [act, Option.some.injEq] at acted
  case release key =>
    split at acted
    · split at acted
      · cases acted
      · cases acted
        rfl
    · cases acted
      rfl
  all_goals
    subst acted
    first | rfl | (split <;> rfl)

/-- Only publishing and receiving change the items of a mailbox and its lag. -/
theorem items_of_act {operation : Operation α} {capacity : Nat} {closed : Bool}
    {held next : Subscriber α} (acted : operation.act capacity closed held = some next)
    (noItem : ∀ item, operation ≠ publish item) (noTaking : ∀ key, operation ≠ receive key) :
    next.mailbox.items = held.mailbox.items ∧ next.mailbox.lagged = held.mailbox.lagged := by
  cases operation with
  | publish item => exact absurd rfl (noItem item)
  | receive key => exact absurd rfl (noTaking key)
  | subscribe =>
    obtain rfl := Option.some.inj acted
    exact ⟨rfl, rfl⟩
  | share key =>
    obtain rfl := Option.some.inj acted
    split <;> exact ⟨rfl, rfl⟩
  | release key =>
    simp only [act] at acted
    split at acted
    · split at acted
      · cases acted
      · obtain rfl := Option.some.inj acted
        exact ⟨rfl, rfl⟩
    · obtain rfl := Option.some.inj acted
      exact ⟨rfl, rfl⟩
  | close =>
    obtain rfl := Option.some.inj acted
    exact ⟨rfl, rfl⟩

end Operation

/-! ## What stays -/

variable {broadcast : Broadcast α} {operation : Operation α} {key : Nat}

@[simp] theorem capacity_perform (broadcast : Broadcast α) (operation : Operation α) :
    (broadcast.perform operation).capacity = broadcast.capacity := by
  cases operation with
  | publish item => simp only [perform, publish]; split <;> rfl
  | receive key => simp only [perform, receive]; split <;> rfl
  | _ => rfl

@[simp] theorem capacity_performAll (broadcast : Broadcast α) (operations : List (Operation α)) :
    (broadcast.performAll operations).capacity = broadcast.capacity := by
  induction operations using List.reverseRecOn with
  | nil => rfl
  | append_singleton operations operation ih => simp [ih]

@[simp] theorem closed_perform (broadcast : Broadcast α) (operation : Operation α) :
    (broadcast.perform operation).closed = (broadcast.closed || operation.ends) := by
  cases operation with
  | publish item => simp only [perform, publish]; split <;> simp [Operation.ends]
  | receive key => simp only [perform, receive]; split <;> simp [Operation.ends, update]
  | close => simp [perform, close, Operation.ends]
  | _ => simp [perform, subscribe, share, release, update, Operation.ends]

theorem closed_performAll (broadcast : Broadcast α) (operations : List (Operation α)) :
    (broadcast.performAll operations).closed =
      (broadcast.closed || operations.any Operation.ends) := by
  induction operations using List.reverseRecOn with
  | nil => simp
  | append_singleton operations operation ih => simp [ih, Bool.or_assoc]

/-- A new broadcast is closed by a closing among the operations on it, and by nothing else. -/
theorem closed_run_iff (capacity : Nat) (operations : List (Operation α)) :
    (run capacity operations).closed = true ↔ .close ∈ operations := by
  have closes (operation : Operation α) : operation.ends = true ↔ operation = .close := by
    cases operation <;> simp [Operation.ends]
  rw [run, closed_performAll, show (create capacity : Broadcast α).closed = false from rfl,
    Bool.false_or, List.any_eq_true]
  simp only [closes, exists_eq_right]

theorem nextKey_perform_of_ne (broadcast : Broadcast α) (other : operation ≠ .subscribe) :
    (broadcast.perform operation).nextKey = broadcast.nextKey := by
  cases operation with
  | subscribe => exact absurd rfl other
  | publish item => simp only [perform, publish]; split <;> rfl
  | receive key => simp only [perform, receive]; split <;> rfl
  | _ => rfl

theorem nextKey_performAll_of_ne (broadcast : Broadcast α) {operations : List (Operation α)}
    (others : ∀ operation ∈ operations, operation ≠ .subscribe) :
    (broadcast.performAll operations).nextKey = broadcast.nextKey := by
  induction operations generalizing broadcast with
  | nil => rfl
  | cons operation operations ih =>
    have first := nextKey_perform_of_ne broadcast (others operation List.mem_cons_self)
    have rest := ih (broadcast.perform operation) fun other member =>
      others other (List.mem_cons_of_mem _ member)
    exact rest.trans first

theorem nextKey_le_perform (broadcast : Broadcast α) (operation : Operation α) :
    broadcast.nextKey ≤ (broadcast.perform operation).nextKey := by
  by_cases opens : operation = .subscribe
  · subst opens
    exact Nat.le_succ _
  · exact Nat.le_of_eq (nextKey_perform_of_ne broadcast opens).symm

theorem nextKey_le_performAll (broadcast : Broadcast α) (operations : List (Operation α)) :
    broadcast.nextKey ≤ (broadcast.performAll operations).nextKey := by
  induction operations generalizing broadcast with
  | nil => exact Nat.le_refl _
  | cons operation operations ih => exact Nat.le_trans (nextKey_le_perform _ operation) (ih _)

/-! ## The invariant -/

/-- Numbers are distinct and used up, and an open broadcast lists every mailbox. -/
structure Sound (broadcast : Broadcast α) : Prop where
  /-- No two mailboxes have one number. -/
  distinct : (broadcast.subscribers.map Subscriber.key).Nodup
  /-- Numbers in use were given out. -/
  given : ∀ subscriber ∈ broadcast.subscribers, subscriber.key < broadcast.nextKey
  /-- Only closing takes a mailbox that someone holds off the list. -/
  listed : broadcast.closed = false →
    ∀ subscriber ∈ broadcast.subscribers, subscriber.listed = true

/-- Taking mailboxes off, and changing those that stay without renumbering or delisting them,
keeps the invariant. -/
theorem Sound.of_sublist_map (sound : broadcast.Sound) {next : Broadcast α}
    {change : Subscriber α → Subscriber α} {kept : List (Subscriber α)}
    (fewer : kept.Sublist broadcast.subscribers) (made : next.subscribers = kept.map change)
    (sameKey : ∀ subscriber, (change subscriber).key = subscriber.key)
    (sameNext : next.nextKey = broadcast.nextKey)
    (stillListed : next.closed = false → broadcast.closed = false ∧
      ∀ subscriber, (change subscriber).listed = subscriber.listed) : next.Sound := by
  constructor
  · have sameKeys : Subscriber.key ∘ change = Subscriber.key := funext sameKey
    rw [made, List.map_map, sameKeys]
    exact sound.distinct.sublist (fewer.map _)
  · intro subscriber member
    rw [made] at member
    obtain ⟨before, inside, rfl⟩ := List.mem_map.mp member
    rw [sameKey, sameNext]
    exact sound.given before (fewer.subset inside)
  · intro isOpen subscriber member
    obtain ⟨wasOpen, sameListed⟩ := stillListed isOpen
    rw [made] at member
    obtain ⟨before, inside, rfl⟩ := List.mem_map.mp member
    rw [sameListed]
    exact sound.listed wasOpen before (fewer.subset inside)

/-- Changing a mailbox without renumbering or delisting it keeps the invariant. -/
theorem Sound.update (sound : broadcast.Sound) (key : Nat)
    (change : Subscriber α → Subscriber α)
    (sameKey : ∀ subscriber, (change subscriber).key = subscriber.key)
    (sameListed : ∀ subscriber, (change subscriber).listed = subscriber.listed) :
    (broadcast.update key change).Sound :=
  sound.of_sublist_map (List.Sublist.refl _) rfl
    (fun subscriber => by split <;> simp [sameKey]) rfl
    fun isOpen => ⟨isOpen, fun subscriber => by split <;> simp [sameListed]⟩

/-- Opening a mailbox keeps the invariant. -/
theorem Sound.subscribe (sound : broadcast.Sound) : broadcast.subscribe.2.Sound := by
  constructor
  · have fresh : broadcast.nextKey ∉ broadcast.subscribers.map Subscriber.key := by
      intro member
      obtain ⟨subscriber, inside, same⟩ := List.mem_map.mp member
      exact Nat.ne_of_lt (sound.given subscriber inside) same
    simpa [Broadcast.subscribe] using sound.distinct.concat fresh
  · intro subscriber member
    rcases List.mem_append.mp member with old | new
    · exact Nat.lt_succ_of_lt (sound.given subscriber old)
    · rw [List.mem_singleton.mp new]
      exact Nat.lt_succ_self _
  · intro isOpen subscriber member
    rcases List.mem_append.mp member with old | new
    · exact sound.listed isOpen subscriber old
    · rw [List.mem_singleton.mp new]

/-- Every operation keeps the invariant. -/
theorem Sound.perform (sound : broadcast.Sound) (operation : Operation α) :
    (broadcast.perform operation).Sound := by
  cases operation with
  | subscribe => exact sound.subscribe
  | share key => exact sound.update key _ (fun _ => rfl) fun _ => rfl
  | release key =>
    have released := sound.update key (fun s => { s with holders := s.holders - 1 })
      (fun _ => rfl) fun _ => rfl
    have made : (broadcast.release key).subscribers =
        (broadcast.release key).subscribers.map id := (List.map_id _).symm
    exact released.of_sublist_map List.filter_sublist made
      (fun _ => rfl) rfl fun isOpen => ⟨isOpen, fun _ => rfl⟩
  | publish item =>
    simp only [Broadcast.perform, publish]
    split
    · exact sound
    · exact sound.of_sublist_map List.filter_sublist rfl
        (fun subscriber => by split <;> rfl) rfl
        fun isOpen => ⟨isOpen, fun subscriber => by split <;> rfl⟩
  | receive key =>
    simp only [Broadcast.perform, receive]
    split
    · exact sound
    · exact sound.update key _ (fun _ => rfl) fun _ => rfl
  | close =>
    exact sound.of_sublist_map List.filter_sublist rfl (fun _ => rfl) rfl
      fun isOpen => Bool.noConfusion isOpen

/-- Operations keep the invariant. -/
theorem Sound.performAll (sound : broadcast.Sound) (operations : List (Operation α)) :
    (broadcast.performAll operations).Sound := by
  induction operations generalizing broadcast with
  | nil => exact sound
  | cons operation operations ih => exact ih (sound.perform operation)

/-- Every broadcast that operations lead to is sound. -/
theorem sound_run (capacity : Nat) (operations : List (Operation α)) :
    (run capacity operations).Sound := by
  have created : (create capacity : Broadcast α).Sound := by
    refine ⟨List.nodup_nil, ?_, fun _ => ?_⟩ <;>
      exact fun _ member => absurd member List.not_mem_nil
  exact created.performAll operations

/-! ## One mailbox under one operation -/

/-- The mailbox found is held, and has the number. -/
theorem of_find?_eq_some {held : Subscriber α} (found : broadcast.find? key = some held) :
    held ∈ broadcast.subscribers ∧ held.key = key ∧ held.isHeld = true := by
  have fits := List.find?_some found
  rw [Bool.and_eq_true, decide_eq_true_eq] at fits
  exact ⟨List.mem_of_find?_eq_some found, fits⟩

/-- A number finds the one mailbox that has it, if someone holds that. -/
theorem Sound.find?_eq_some_iff (sound : broadcast.Sound) {held : Subscriber α} :
    broadcast.find? key = some held ↔
      held ∈ broadcast.subscribers ∧ held.key = key ∧ held.isHeld = true := by
  refine ⟨of_find?_eq_some, ?_⟩
  rintro ⟨member, sameKey, isHeld⟩
  have fits : (decide (held.key = key) && held.isHeld) = true := by simp [isHeld, sameKey]
  obtain ⟨found, isFound⟩ : ∃ found, broadcast.find? key = some found :=
    Option.isSome_iff_exists.mp (List.find?_isSome.mpr ⟨held, member, fits⟩)
  obtain ⟨inside, foundKey, _⟩ := of_find?_eq_some isFound
  have same : found = held :=
    List.inj_on_of_nodup_map sound.distinct inside member (foundKey.trans sameKey.symm)
  rw [isFound, same]

/-- A new mailbox is found by its number. -/
theorem Sound.find?_subscribe_self (sound : broadcast.Sound) :
    broadcast.subscribe.2.find? broadcast.nextKey =
      some { key := broadcast.nextKey, mailbox := { closed := broadcast.closed } } :=
  sound.subscribe.find?_eq_some_iff.mpr
    ⟨List.mem_append_right _ (List.mem_singleton_self _), rfl, rfl⟩

/-- Opening a mailbox does not show in the others. -/
theorem find?_subscribe_of_lt (older : key < broadcast.nextKey) :
    broadcast.subscribe.2.find? key = broadcast.find? key := by
  simp [find?, subscribe, List.find?_append, Nat.ne_of_gt older]

/-- What a number finds after a change that keeps numbers and holders. -/
theorem find?_of_map {next : Broadcast α} {change : Subscriber α → Subscriber α}
    (made : next.subscribers = broadcast.subscribers.map change)
    (sameKey : ∀ subscriber, (change subscriber).key = subscriber.key)
    (sameHeld : ∀ subscriber, (change subscriber).isHeld = subscriber.isHeld) :
    next.find? key = (broadcast.find? key).map change := by
  have samePick : ((fun s => decide (s.key = key) && s.isHeld) ∘ change) =
      fun s => decide (s.key = key) && s.isHeld := by
    funext subscriber
    simp [sameKey, sameHeld]
  rw [find?, made, List.find?_map, samePick, find?]

/-- Pruning mailboxes that nobody holds does not show. -/
theorem find?_of_filter {next : Broadcast α} {keep : Subscriber α → Bool}
    (made : next.subscribers = broadcast.subscribers.filter keep)
    (keepsHeld : ∀ subscriber, subscriber.isHeld = true → keep subscriber = true) :
    next.find? key = broadcast.find? key := by
  rw [find?, made, List.find?_filter, find?]
  congr 1
  funext subscriber
  cases held : subscriber.isHeld
  · simp
  · simp [keepsHeld subscriber held]

/-- What a number finds after the mailbox of some number changed and is still held. -/
theorem find?_update (broadcast : Broadcast α) (key changed : Nat)
    (change : Subscriber α → Subscriber α)
    (sameKey : ∀ subscriber, (change subscriber).key = subscriber.key)
    (stillHeld : ∀ subscriber, subscriber.isHeld = true → (change subscriber).isHeld = true) :
    (broadcast.update changed change).find? key =
      (broadcast.find? key).map fun held => if changed = held.key then change held else held := by
  have made : (broadcast.update changed change).subscribers = broadcast.subscribers.map fun s =>
      if s.key = changed ∧ s.isHeld = true then change s else s := rfl
  rw [find?_of_map made]
  · refine Option.map_congr fun held found => ?_
    obtain ⟨_, _, isHeld⟩ := of_find?_eq_some found
    simp [isHeld, eq_comm]
  · intro subscriber
    split <;> simp [sameKey]
  · intro subscriber
    split
    · next chosen => rw [chosen.2, stillHeld subscriber chosen.2]
    · rfl

/-- A mailbox that is released is still held if another holds it. -/
theorem isHeld_release_iff {released : Nat} {held next : Subscriber α} (capacity : Nat)
    (closed : Bool) :
    (if held.key = released ∧ held.isHeld = true then { held with holders := held.holders - 1 }
        else held) = next ∧ next.isHeld = true ↔
      held.isHeld = true ∧ (Operation.release released).act capacity closed held = some next := by
  by_cases isHeld : held.isHeld = true
  · by_cases mine : released = held.key
    · have positive : 0 < held.holders := of_decide_eq_true isHeld
      by_cases last : held.holders ≤ 1
      · have none : held.holders - 1 = 0 := by omega
        simp only [isHeld, mine, last, none, Operation.act]
        simp only [and_self, if_true, true_and, reduceCtorEq, iff_false, not_and]
        rintro rfl
        exact Bool.noConfusion
      · simp only [isHeld, mine, last, Operation.act, and_self, if_true, if_false, true_and,
          Option.some.injEq, and_iff_left_iff_imp]
        rintro rfl
        exact decide_eq_true (by show 0 < held.holders - 1; omega)
    · have other : held.key ≠ released := fun same => mine same.symm
      simp only [isHeld, mine, other, Operation.act, false_and, if_false, true_and,
        Option.some.injEq, and_iff_left_iff_imp]
      rintro rfl
      exact isHeld
  · have unheld : held.isHeld = false := by simpa using isHeld
    simp only [unheld, Bool.false_eq_true, and_false, if_false, false_and, iff_false, not_and]
    rintro rfl
    exact isHeld

/-- What a number finds after a mailbox is released. -/
theorem Sound.find?_release (sound : broadcast.Sound) (released : Nat) (capacity : Nat)
    (closed : Bool) :
    (broadcast.release released).find? key =
      (broadcast.find? key).bind
        fun held => (Operation.release released).act capacity closed held := by
  let loosened := broadcast.update released fun s => { s with holders := s.holders - 1 }
  have decreased : loosened.Sound := sound.update released _ (fun _ => rfl) fun _ => rfl
  have made : (broadcast.release released).subscribers =
      loosened.subscribers.filter fun s => s.listed || s.isHeld := rfl
  rw [find?_of_filter made fun _ isHeld => Bool.or_eq_true_iff.mpr (.inr isHeld)]
  ext next
  rw [decreased.find?_eq_some_iff, Option.bind_eq_some_iff]
  constructor
  · rintro ⟨member, sameKey, stillHeld⟩
    obtain ⟨held, inside, changed⟩ := List.mem_map.mp member
    obtain ⟨isHeld, acted⟩ := (isHeld_release_iff capacity closed).mp ⟨changed, stillHeld⟩
    exact ⟨held, sound.find?_eq_some_iff.mpr
      ⟨inside, (Operation.key_of_act acted).symm.trans sameKey, isHeld⟩, acted⟩
  · rintro ⟨held, found, acted⟩
    obtain ⟨inside, sameKey, isHeld⟩ := of_find?_eq_some found
    obtain ⟨changed, stillHeld⟩ := (isHeld_release_iff capacity closed).mpr ⟨isHeld, acted⟩
    exact ⟨List.mem_map.mpr ⟨held, inside, changed⟩,
      (Operation.key_of_act acted).trans sameKey, stillHeld⟩

/-- What a number finds after an item is published. -/
theorem Sound.find?_publish (sound : broadcast.Sound) (item : α) :
    (broadcast.publish item).find? key =
      (broadcast.find? key).bind
        fun held => (Operation.publish item).act broadcast.capacity broadcast.closed held := by
  cases closed : broadcast.closed with
  | true => simp [publish, closed, Operation.act]
  | false =>
    let pruned : Broadcast α :=
      { broadcast with subscribers := broadcast.subscribers.filter (·.isHeld) }
    have same : pruned.find? key = broadcast.find? key := find?_of_filter rfl fun _ => id
    have made : (broadcast.publish item).subscribers = pruned.subscribers.map fun s =>
        if s.listed then { s with mailbox := s.mailbox.push broadcast.capacity item } else s := by
      simp [publish, closed, pruned]
    rw [find?_of_map made (fun s => by split <;> rfl) (fun s => by split <;> rfl), same,
      Option.map_eq_bind]
    refine Option.bind_congr fun held found => ?_
    simp [Operation.act, sound.listed closed held (of_find?_eq_some found).1]

/-- What a number finds after an item is taken out of a mailbox. -/
theorem find?_receive (received : Nat) (capacity : Nat) (closed : Bool) :
    (broadcast.receive received).2.find? key =
      (broadcast.find? key).bind
        fun held => (Operation.receive received).act capacity closed held := by
  unfold receive
  cases search : broadcast.find? received with
  | none =>
    cases found : broadcast.find? key with
    | none => rfl
    | some held =>
      have other : received ≠ held.key := by
        rintro rfl
        rw [(of_find?_eq_some found).2.1, found] at search
        cases search
      simp [Operation.act, other]
  | some chosen =>
    have taken := find?_update broadcast key received
      (fun s => { s with mailbox := chosen.mailbox.receive.2 }) (fun _ => rfl) fun _ => id
    refine taken.trans ?_
    rw [Option.map_eq_bind]
    refine Option.bind_congr fun held found => ?_
    by_cases mine : received = held.key
    · have same : chosen = held := by
        rw [mine, (of_find?_eq_some found).2.1, found] at search
        exact (Option.some.inj search).symm
      simp [Operation.act, mine, same]
    · simp [Operation.act, mine]

/-- What a number finds after an operation is read off what it found before, the capacity and
whether the broadcast was closed. -/
theorem Sound.find?_perform (sound : broadcast.Sound) (older : key < broadcast.nextKey)
    (operation : Operation α) :
    (broadcast.perform operation).find? key =
      (broadcast.find? key).bind
        fun held => operation.act broadcast.capacity broadcast.closed held := by
  cases operation with
  | subscribe =>
    exact (find?_subscribe_of_lt older).trans (Option.bind_fun_some _).symm
  | share shared =>
    have held := find?_update broadcast key shared
      (fun s => { s with holders := s.holders + 1 }) (fun _ => rfl)
      fun _ _ => decide_eq_true (Nat.succ_pos _)
    exact held.trans Option.map_eq_bind
  | release released => exact sound.find?_release released _ _
  | publish item => exact sound.find?_publish item
  | receive received => exact find?_receive received _ _
  | close =>
    let pruned : Broadcast α :=
      { broadcast with subscribers := broadcast.subscribers.filter (·.isHeld) }
    have same : pruned.find? key = broadcast.find? key := find?_of_filter rfl fun _ => id
    have made : broadcast.close.subscribers = pruned.subscribers.map fun s =>
        { s with listed := false, mailbox := s.mailbox.close } := rfl
    rw [← same]
    exact (find?_of_map made (fun _ => rfl) fun _ => rfl).trans Option.map_eq_bind

end Broadcast

end GcodeSender
