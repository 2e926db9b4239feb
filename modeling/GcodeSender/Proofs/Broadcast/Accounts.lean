import GcodeSender.Proofs.Broadcast.Operations
import GcodeSender.Proofs.Runs

/-!
# What becomes of what is published

The items that are published to a mailbox are received in order, wait in it or are lost. The
account of a mailbox (`Accounts`) says which: the mailbox holds the last of them, the lag counts
those that were lost, and an item is lost only as the oldest in a full mailbox. Every operation
keeps it, so it holds of every mailbox that someone holds, however many others are opened,
released and overrun.
-/
namespace GcodeSender

namespace Broadcast

variable {α : Type}

/-! ## The record of a run -/

/-- An item that an operation publishes, if the broadcast is open. -/
def delivered (broadcast : Broadcast α) : Operation α → List α
  | .publish item => if broadcast.closed then [] else [item]
  | _ => []

/-- An item that an operation takes out of the mailbox of a number. -/
def received (key : Nat) (broadcast : Broadcast α) : Operation α → List α
  | .receive chosen => if chosen = key then (broadcast.receive key).1.toList else []
  | _ => []

/-- The items that operations publish while the broadcast is open. -/
def deliveries (broadcast : Broadcast α) (operations : List (Operation α)) : List α :=
  collect perform delivered broadcast operations

/-- The items that operations take out of the mailbox of a number. -/
def receipts (broadcast : Broadcast α) (key : Nat) (operations : List (Operation α)) : List α :=
  collect perform (received key) broadcast operations

@[simp] theorem deliveries_snoc (broadcast : Broadcast α) (operations : List (Operation α))
    (operation : Operation α) :
    broadcast.deliveries (operations ++ [operation]) =
      broadcast.deliveries operations ++ (broadcast.performAll operations).delivered operation :=
  collect_append_singleton ..

@[simp] theorem receipts_snoc (broadcast : Broadcast α) (key : Nat)
    (operations : List (Operation α)) (operation : Operation α) :
    broadcast.receipts key (operations ++ [operation]) =
      broadcast.receipts key operations ++
        (broadcast.performAll operations).received key operation :=
  collect_append_singleton ..

/-- The item in a place among those that operations publish was lost: one more was published
when it was the oldest in a full mailbox. -/
def Loses (broadcast : Broadcast α) (key : Nat) (operations : List (Operation α))
    (place : Nat) : Prop :=
  ∃ earlier item held, earlier ++ [.publish item] <+: operations ∧
    (broadcast.performAll earlier).closed = false ∧
    (broadcast.performAll earlier).find? key = some held ∧
    held.mailbox.items.length = broadcast.capacity ∧
    held.mailbox.items = (broadcast.deliveries earlier).drop place

/-! ## The account of a mailbox -/

/-- What became of the items published to a mailbox. -/
structure Accounts (capacity : Nat) (published received : List α) (lost : Nat → Prop)
    (mailbox : Mailbox α) : Prop where
  /-- The mailbox is within its capacity. -/
  within : mailbox.items.length ≤ capacity
  /-- Each item was received, waits or is counted as lost. -/
  counted : published.length = received.length + mailbox.items.length + mailbox.lagged
  /-- The last items wait. -/
  latest : mailbox.items <:+ published
  /-- What was received, and then what waits, comes in the order of publication. -/
  inOrder : (received ++ mailbox.items).Sublist published
  /-- The items received have their places among those published. Any other before those that
  wait was lost, and no other was. -/
  placed : ∃ places : List Nat, places.Pairwise (· < ·) ∧
    (∀ place ∈ places, place + mailbox.items.length < published.length) ∧
    places.map (published[·]?) = received.map some ∧
    ∀ place, lost place ↔
      place + mailbox.items.length < published.length ∧ place ∉ places

variable {capacity : Nat} {published received : List α} {lost : Nat → Prop} {mailbox : Mailbox α}

/-- Nothing became of nothing. -/
theorem accounts_empty (closed : Bool) :
    Accounts capacity ([] : List α) [] (fun _ => False) { closed := closed } where
  within := Nat.zero_le _
  counted := rfl
  latest := List.suffix_rfl
  inOrder := List.Sublist.refl _
  placed := ⟨[], List.Pairwise.nil, by simp, rfl, by simp⟩

/-- An account is of the items and the lag. -/
theorem Accounts.of_items (account : Accounts capacity published received lost mailbox)
    {same : Mailbox α} (items : same.items = mailbox.items)
    (lagged : same.lagged = mailbox.lagged) :
    Accounts capacity published received lost same where
  within := items ▸ account.within
  counted := by rw [items, lagged]; exact account.counted
  latest := items ▸ account.latest
  inOrder := items ▸ account.inOrder
  placed := by rw [items]; exact account.placed

/-- What waits is what was published from the place of the oldest on. -/
theorem Accounts.items_eq_drop_iff (account : Accounts capacity published received lost mailbox)
    (waits : 0 < mailbox.items.length) (place : Nat) :
    mailbox.items = published.drop place ↔
      place + mailbox.items.length = published.length := by
  constructor
  · intro same
    have size := congrArg List.length same
    rw [List.length_drop] at size
    omega
  · intro size
    obtain ⟨gone, split⟩ := account.latest
    have total : published.length = gone.length + mailbox.items.length := by
      rw [← split, List.length_append]
    have here : place = gone.length := by omega
    rw [here, ← split, List.drop_left]

/-- The account after one more item is published to a mailbox with room. -/
theorem Accounts.add (account : Accounts capacity published received lost mailbox)
    (room : mailbox.items.length < capacity) (item : α) :
    Accounts capacity (published ++ [item]) received lost
      { mailbox with items := mailbox.items ++ [item] } := by
  have counted := account.counted
  obtain ⟨places, increasing, before, found, missing⟩ := account.placed
  constructor
  · show (mailbox.items ++ [item]).length ≤ capacity
    rw [List.length_append]
    exact room
  · simp only [List.length_append, List.length_singleton]
    omega
  · obtain ⟨gone, split⟩ := account.latest
    exact ⟨gone, by rw [← split, List.append_assoc]⟩
  · rw [← List.append_assoc]
    exact account.inOrder.append_right [item]
  · refine ⟨places, increasing, ?_, ?_, ?_⟩
    · intro place member
      have early := before place member
      simp only [List.length_append, List.length_singleton]
      omega
    · have same : places.map ((published ++ [item])[·]?) = places.map (published[·]?) :=
        List.map_congr_left fun place member => by
          have early := before place member
          exact List.getElem?_append_left (by omega)
      exact same.trans found
    · intro place
      rw [missing]
      simp only [List.length_append, List.length_singleton]
      rw [← Nat.add_assoc, Nat.add_lt_add_iff_right]

/-- The account after the oldest item is lost. -/
theorem Accounts.lose (account : Accounts capacity published received lost mailbox)
    {oldest : α} {others : List α} (items : mailbox.items = oldest :: others) :
    Accounts capacity published received
      (fun place => lost place ∨ place + mailbox.items.length = published.length)
      { mailbox with items := others, lagged := mailbox.lagged + 1 } := by
  have size : mailbox.items.length = others.length + 1 := by rw [items, List.length_cons]
  have within := account.within
  have counted := account.counted
  obtain ⟨places, increasing, before, found, missing⟩ := account.placed
  constructor
  · show others.length ≤ capacity
    omega
  · show published.length = received.length + others.length + (mailbox.lagged + 1)
    omega
  · exact (List.suffix_cons oldest others).trans (items ▸ account.latest)
  · have fewer : (received ++ others).Sublist (received ++ mailbox.items) := by
      rw [items]
      exact (List.sublist_cons_self oldest others).append_left received
    exact fewer.trans account.inOrder
  · refine ⟨places, increasing, ?_, found, ?_⟩
    · intro place member
      have early := before place member
      show place + others.length < published.length
      omega
    · intro place
      show _ ↔ place + others.length < published.length ∧ place ∉ places
      rw [missing]
      constructor
      · rintro (⟨early, absent⟩ | here)
        · exact ⟨by omega, absent⟩
        · refine ⟨by omega, fun member => ?_⟩
          have early := before place member
          omega
      · rintro ⟨early, absent⟩
        by_cases here : place + mailbox.items.length = published.length
        · exact .inr here
        · exact .inl ⟨by omega, absent⟩

/-- The account after one more item is published: a full mailbox loses its oldest. -/
theorem Accounts.push (account : Accounts capacity published received lost mailbox)
    (positive : 0 < capacity) (item : α) :
    Accounts capacity (published ++ [item]) received
      (fun place => lost place ∨
        mailbox.items.length = capacity ∧ mailbox.items = published.drop place)
      (mailbox.push capacity item) := by
  unfold Mailbox.push
  split
  · next full =>
    have exactly : mailbox.items.length = capacity := Nat.le_antisymm account.within full
    obtain ⟨oldest, others, items⟩ : ∃ oldest others, mailbox.items = oldest :: others :=
      List.exists_cons_of_length_pos (by omega)
    have size : mailbox.items.length = others.length + 1 := by rw [items, List.length_cons]
    have lost_iff : (fun place => lost place ∨
        mailbox.items.length = capacity ∧ mailbox.items = published.drop place) =
        fun place => lost place ∨ place + mailbox.items.length = published.length := by
      funext place
      rw [account.items_eq_drop_iff (by omega), exactly]
      simp
    rw [lost_iff]
    have lessOne := (account.lose items).add (by show others.length < capacity; omega) item
    simpa only [items, List.tail_cons] using lessOne
  · next room =>
    have lost_iff : (fun place => lost place ∨
        mailbox.items.length = capacity ∧ mailbox.items = published.drop place) = lost := by
      funext place
      have notFull : mailbox.items.length ≠ capacity := by omega
      simp [notFull]
    rw [lost_iff]
    exact account.add (by omega) item

/-- The account after the oldest item is taken out. -/
theorem Accounts.receive (account : Accounts capacity published received lost mailbox) :
    Accounts capacity published (received ++ mailbox.receive.1.toList) lost
      mailbox.receive.2 := by
  cases items : mailbox.items with
  | nil => simpa [Mailbox.receive, items] using account
  | cons oldest others =>
    obtain ⟨gone, split⟩ := account.latest
    obtain ⟨places, increasing, before, found, missing⟩ := account.placed
    have taken : mailbox.receive = (some oldest, { mailbox with items := others }) := by
      simp [Mailbox.receive, items]
    have size : mailbox.items.length = others.length + 1 := by rw [items, List.length_cons]
    have total : published.length = gone.length + mailbox.items.length := by
      rw [← split, List.length_append]
    have within := account.within
    have counted := account.counted
    rw [items] at split
    rw [taken]
    constructor
    · show others.length ≤ capacity
      omega
    · simp only [Option.toList_some, List.length_append, List.length_singleton]
      omega
    · exact ⟨gone ++ [oldest], by simpa using split⟩
    · simpa [items] using account.inOrder
    · refine ⟨places ++ [gone.length], ?_, ?_, ?_, ?_⟩
      · refine List.pairwise_append.mpr ⟨increasing, List.pairwise_singleton _ _, ?_⟩
        intro place member last isLast
        have := before place member
        rw [List.mem_singleton.mp isLast]
        omega
      · intro place member
        show place + others.length < published.length
        rcases List.mem_append.mp member with early | last
        · have := before place early
          omega
        · rw [List.mem_singleton.mp last]
          omega
      · have here : published[gone.length]? = some oldest := by
          rw [← split, List.getElem?_append_right (Nat.le_refl _), Nat.sub_self]
          rfl
        simp [found, here]
      · intro place
        show lost place ↔ place + others.length < published.length ∧ _
        rw [missing, List.mem_append, List.mem_singleton, not_or]
        constructor
        · rintro ⟨early, absent⟩
          exact ⟨by omega, absent, by omega⟩
        · rintro ⟨early, absent, other⟩
          exact ⟨by omega, absent⟩

/-! ## Every mailbox has its account -/

variable {broadcast : Broadcast α} {key : Nat} {operations : List (Operation α)}

/-- One more operation that publishes nothing loses nothing. -/
theorem loses_snoc_of_silent {operation : Operation α}
    (silent : (broadcast.performAll operations).delivered operation = []) :
    broadcast.Loses key (operations ++ [operation]) = broadcast.Loses key operations := by
  funext place
  refine propext ⟨?_, ?_⟩
  · rintro ⟨earlier, item, held, initial, isOpen, rest⟩
    rcases List.prefix_concat_iff.mp initial with same | inside
    · obtain ⟨rfl, rfl⟩ := List.append_inj' same rfl |>.imp id List.singleton_inj.mp
      simp [delivered, isOpen] at silent
    · exact ⟨earlier, item, held, inside, isOpen, rest⟩
  · rintro ⟨earlier, item, held, initial, rest⟩
    exact ⟨earlier, item, held, initial.trans (List.prefix_append _ _), rest⟩

/-- One more item that is published loses the oldest of a full mailbox. -/
theorem loses_snoc_publish {held : Subscriber α} (item : α)
    (isOpen : (broadcast.performAll operations).closed = false)
    (found : (broadcast.performAll operations).find? key = some held) :
    broadcast.Loses key (operations ++ [.publish item]) = fun place =>
      broadcast.Loses key operations place ∨
        held.mailbox.items.length = broadcast.capacity ∧
          held.mailbox.items = (broadcast.deliveries operations).drop place := by
  funext place
  refine propext ⟨?_, ?_⟩
  · rintro ⟨earlier, other, old, initial, wasOpen, wasFound, full, items⟩
    rcases List.prefix_concat_iff.mp initial with same | inside
    · obtain ⟨rfl, _⟩ := List.append_inj' same rfl
      rw [found] at wasFound
      obtain rfl := Option.some.inj wasFound
      exact .inr ⟨full, items⟩
    · exact .inl ⟨earlier, other, old, inside, wasOpen, wasFound, full, items⟩
  · rintro (⟨earlier, other, old, initial, rest⟩ | ⟨full, items⟩)
    · exact ⟨earlier, other, old, initial.trans (List.prefix_append _ _), rest⟩
    · exact ⟨operations, item, held, List.prefix_rfl, isOpen, found, full, items⟩

/-- What is taken out of a mailbox that someone holds is its oldest item. -/
theorem receive_fst {held : Subscriber α} (found : broadcast.find? key = some held) :
    (broadcast.receive key).1 = held.mailbox.receive.1 := by
  simp [receive, found]

/-- Nothing is taken out of a mailbox that nobody holds. -/
theorem receive_of_find?_eq_none (missing : broadcast.find? key = none) :
    broadcast.receive key = (none, broadcast) := by
  simp [receive, missing]

/-- A mailbox that someone holds after one more operation was held before. -/
theorem Sound.find?_snoc (sound : broadcast.Sound) (older : key < broadcast.nextKey)
    (operations : List (Operation α)) (operation : Operation α) :
    (broadcast.performAll (operations ++ [operation])).find? key =
      ((broadcast.performAll operations).find? key).bind fun held =>
        operation.act broadcast.capacity (broadcast.performAll operations).closed held := by
  have still := Nat.lt_of_lt_of_le older (nextKey_le_performAll broadcast operations)
  have perform := (sound.performAll operations).find?_perform still operation
  rw [capacity_performAll] at perform
  rw [performAll_append]
  exact perform

/-- A mailbox that was empty when it was opened has its account as long as someone holds it. -/
theorem accounts_performAll (sound : broadcast.Sound) (older : key < broadcast.nextKey)
    {closed : Bool} (opened : broadcast.find? key = some { key, mailbox := { closed } })
    (positive : 0 < broadcast.capacity) (operations : List (Operation α)) {held : Subscriber α}
    (live : (broadcast.performAll operations).find? key = some held) :
    Accounts broadcast.capacity (broadcast.deliveries operations)
      (broadcast.receipts key operations) (broadcast.Loses key operations) held.mailbox := by
  induction operations using List.reverseRecOn generalizing held with
  | nil =>
    rw [performAll_nil, opened] at live
    obtain rfl := Option.some.inj live
    have nothing : broadcast.Loses key [] = fun _ => False := by
      funext place
      simp [Loses]
    rw [nothing]
    exact accounts_empty closed
  | append_singleton operations operation ih =>
    rw [sound.find?_snoc older] at live
    obtain ⟨before, found, acted⟩ := Option.bind_eq_some_iff.mp live
    have account := ih found
    have sameKey := (of_find?_eq_some found).2.1
    rw [deliveries_snoc, receipts_snoc]
    cases operation with
    | publish item =>
      obtain rfl := Option.some.inj acted
      cases isOpen : (broadcast.performAll operations).closed with
      | true =>
        rw [loses_snoc_of_silent (by simp [delivered, isOpen])]
        simpa [delivered, received, isOpen] using account
      | false =>
        rw [loses_snoc_publish item isOpen found]
        simpa [delivered, received, isOpen] using account.push positive item
    | receive chosen =>
      obtain rfl := Option.some.inj acted
      rw [loses_snoc_of_silent rfl]
      by_cases mine : chosen = key
      · simpa [delivered, received, mine, sameKey, receive_fst found] using account.receive
      · simpa [delivered, received, mine, sameKey] using account
    | _ =>
      obtain ⟨items, lagged⟩ := Operation.items_of_act acted (by simp) (by simp)
      rw [loses_snoc_of_silent rfl]
      simpa [delivered, received] using account.of_items items lagged

/-! ## Who holds a mailbox -/

/-- A mailbox stays held under any operation but its release. -/
theorem Operation.isSome_act {operation : Operation α} {held : Subscriber α} {closed : Bool}
    (other : operation ≠ .release held.key) :
    (operation.act capacity closed held).isSome = true := by
  cases operation with
  | release released =>
    have apart : released ≠ held.key := fun same => other (congrArg _ same)
    simp [act, apart]
  | _ => rfl

/-- A mailbox stays held as long as it is not released. -/
theorem exists_find?_performAll (sound : broadcast.Sound) (older : key < broadcast.nextKey)
    {opened : Subscriber α} (found : broadcast.find? key = some opened)
    (operations : List (Operation α)) (kept : .release key ∉ operations) :
    ∃ held, (broadcast.performAll operations).find? key = some held := by
  induction operations using List.reverseRecOn with
  | nil => exact ⟨opened, found⟩
  | append_singleton operations operation ih =>
    rw [List.mem_append, List.mem_singleton, not_or] at kept
    obtain ⟨held, before⟩ := ih kept.1
    have sameKey := (of_find?_eq_some before).2.1
    rw [sound.find?_snoc older, before]
    refine Option.isSome_iff_exists.mp (Operation.isSome_act ?_)
    rw [sameKey]
    exact fun same => kept.2 same.symm

end Broadcast

end GcodeSender
