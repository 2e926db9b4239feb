import GcodeSender.Proofs.Broadcast.Accounts

/-!
# One mailbox among others

What a mailbox gives out does not depend on the other mailboxes: it is what the mailbox gives
out in the run in which no other was ever opened. Both runs are followed at once, and the
relation that each operation keeps (`Alike`) says that they show the same mailbox up to its
number. After a broadcast closes, a mailbox gives out what waited and nothing more. The main
statement puts this beside the account of the mailbox.
-/
namespace GcodeSender

namespace Broadcast

variable {α : Type}

namespace Operation

/-- What an operation is when the mailbox of a number is the only one ever opened. -/
def alone (key : Nat) : Operation α → Option (Operation α)
  | subscribe => none
  | share shared => if shared = key then some (share 0) else none
  | release released => if released = key then some (release 0) else none
  | publish item => some (publish item)
  | receive chosen => if chosen = key then some (receive 0) else none
  | close => some close

variable {operation only : Operation α} {held : Subscriber α} {capacity : Nat} {closed : Bool}

/-- An operation of another mailbox leaves this one as it is. -/
theorem act_of_alone_none (absent : operation.alone held.key = none) :
    operation.act capacity closed held = some held := by
  cases operation <;> simp_all [alone, act]

/-- An operation of this mailbox or of all does the same to it under the number zero. -/
theorem act_of_alone_some (present : operation.alone held.key = some only) :
    only.act capacity closed { held with key := 0 } =
      (operation.act capacity closed held).map fun held => { held with key := 0 } := by
  cases operation with
  | subscribe => cases present
  | share shared =>
    simp only [alone, Option.ite_none_right_eq_some, Option.some.injEq] at present
    obtain ⟨rfl, rfl⟩ := present
    simp [act]
  | release released =>
    simp only [alone, Option.ite_none_right_eq_some, Option.some.injEq] at present
    obtain ⟨rfl, rfl⟩ := present
    by_cases last : held.holders ≤ 1 <;> simp [act, last]
  | publish item =>
    obtain rfl := Option.some.inj present
    cases closed <;> simp [act]
  | receive chosen =>
    simp only [alone, Option.ite_none_right_eq_some, Option.some.injEq] at present
    obtain ⟨rfl, rfl⟩ := present
    simp [act]
  | close =>
    obtain rfl := Option.some.inj present
    rfl

/-- An operation of another mailbox does not close the broadcast. -/
theorem ends_of_alone_none {key : Nat} (absent : operation.alone key = none) :
    operation.ends = false := by
  cases operation <;> first | rfl | cases absent

/-- An operation closes the broadcast in both runs or in neither. -/
theorem ends_of_alone_some {key : Nat} (present : operation.alone key = some only) :
    only.ends = operation.ends := by
  cases operation <;>
    simp only [alone, Option.ite_none_right_eq_some, Option.some.injEq, reduceCtorEq] at present
  case publish item => exact present ▸ rfl
  case close => exact present ▸ rfl
  all_goals exact present.2 ▸ rfl

/-- In the run of one mailbox none is opened later. -/
theorem ne_subscribe_of_alone_some {key : Nat} (present : operation.alone key = some only) :
    only ≠ subscribe := by
  rintro rfl
  cases operation <;> simp [alone] at present

end Operation

/-! ## Two runs at once -/

variable {broadcast lone : Broadcast α} {key : Nat}

/-- The mailbox of a number in one broadcast is the first one in the other. -/
structure Alike (key : Nat) (broadcast lone : Broadcast α) : Prop where
  /-- Mailboxes have the same capacity. -/
  capacity : lone.capacity = broadcast.capacity
  /-- Both are open or both are closed. -/
  closed : lone.closed = broadcast.closed
  /-- The mailboxes are the same up to their numbers. -/
  found : lone.find? 0 = (broadcast.find? key).map fun held => { held with key := 0 }

/-- An operation of another mailbox leaves two broadcasts alike. -/
theorem Alike.perform_of_none (alike : Alike key broadcast lone) (sound : broadcast.Sound)
    (older : key < broadcast.nextKey) {operation : Operation α}
    (absent : operation.alone key = none) : Alike key (broadcast.perform operation) lone where
  capacity := by rw [capacity_perform, alike.capacity]
  closed := by rw [closed_perform, Operation.ends_of_alone_none absent, Bool.or_false, alike.closed]
  found := by
    rw [sound.find?_perform older, alike.found]
    congr 1
    refine (Option.bind_fun_some _).symm.trans (Option.bind_congr fun held found => ?_)
    obtain ⟨_, rfl, _⟩ := of_find?_eq_some found
    exact (Operation.act_of_alone_none absent).symm

/-- An operation of this mailbox or of all leaves two broadcasts alike. -/
theorem Alike.perform_of_some (alike : Alike key broadcast lone) (sound : broadcast.Sound)
    (older : key < broadcast.nextKey) (loneSound : lone.Sound) (loneOlder : 0 < lone.nextKey)
    {operation only : Operation α} (present : operation.alone key = some only) :
    Alike key (broadcast.perform operation) (lone.perform only) where
  capacity := by rw [capacity_perform, capacity_perform, alike.capacity]
  closed := by
    rw [closed_perform, closed_perform, Operation.ends_of_alone_some present, alike.closed]
  found := by
    rw [sound.find?_perform older, loneSound.find?_perform loneOlder, alike.found, alike.capacity,
      alike.closed, Option.bind_map, Option.map_bind]
    refine Option.bind_congr fun held found => ?_
    obtain ⟨_, rfl, _⟩ := of_find?_eq_some found
    exact Operation.act_of_alone_some present

/-- Broadcasts that are alike give the same item out of the mailbox. -/
theorem Alike.receive (alike : Alike key broadcast lone) :
    (lone.receive 0).1 = (broadcast.receive key).1 := by
  cases search : broadcast.find? key with
  | none =>
    have missing : lone.find? 0 = none := by rw [alike.found, search]; rfl
    rw [receive_of_find?_eq_none search, receive_of_find?_eq_none missing]
  | some held =>
    have found : lone.find? 0 = some { held with key := 0 } := by rw [alike.found, search]; rfl
    rw [receive_fst search, receive_fst found]

/-- An operation of another mailbox takes nothing out of this one. -/
theorem received_of_alone_none {operation : Operation α} (absent : operation.alone key = none) :
    broadcast.received key operation = [] := by
  cases operation with
  | receive chosen =>
    simp only [Operation.alone, ite_eq_right_iff, reduceCtorEq, imp_false] at absent
    simp [received, absent]
  | _ => rfl

/-- An operation takes the same item out of the mailbox in both runs. -/
theorem Alike.received_of_some (alike : Alike key broadcast lone) {operation only : Operation α}
    (present : operation.alone key = some only) :
    lone.received 0 only = broadcast.received key operation := by
  cases operation with
  | receive chosen =>
    simp only [Operation.alone, Option.ite_none_right_eq_some, Option.some.injEq] at present
    obtain ⟨rfl, rfl⟩ := present
    simp [received, alike.receive]
  | subscribe => cases present
  | _ =>
    simp only [Operation.alone, Option.ite_none_right_eq_some, Option.some.injEq] at present
    first
    | exact present ▸ rfl
    | exact present.2 ▸ rfl

/-- Broadcasts that are alike give the same items out of the mailbox, whatever is done to the
others. -/
theorem Alike.receipts (alike : Alike key broadcast lone) (sound : broadcast.Sound)
    (older : key < broadcast.nextKey) (loneSound : lone.Sound) (loneOlder : 0 < lone.nextKey)
    (operations : List (Operation α)) :
    broadcast.receipts key operations =
      lone.receipts 0 (operations.filterMap (Operation.alone key)) := by
  induction operations generalizing broadcast lone with
  | nil => rfl
  | cons operation operations ih =>
    have stillOlder := Nat.lt_of_lt_of_le older (nextKey_le_perform broadcast operation)
    cases reduced : operation.alone key with
    | none =>
      rw [List.filterMap_cons_none reduced]
      have step : broadcast.receipts key (operation :: operations) =
          (broadcast.perform operation).receipts key operations := by
        simp [Broadcast.receipts, collect, received_of_alone_none reduced]
      rw [step]
      exact ih (alike.perform_of_none sound older reduced) (sound.perform operation) stillOlder
        loneSound loneOlder
    | some only =>
      rw [List.filterMap_cons_some reduced]
      have rest := ih (alike.perform_of_some sound older loneSound loneOlder reduced)
        (sound.perform operation) stillOlder (loneSound.perform only)
        (Nat.lt_of_lt_of_le loneOlder (nextKey_le_perform lone only))
      unfold Broadcast.receipts at rest ⊢
      rw [collect, collect, rest, alike.received_of_some reduced]

/-- Opening a mailbox last, and opening the only one, leads to broadcasts that are alike. -/
theorem alike_run (capacity : Nat) (before : List (Operation α)) :
    Alike (run capacity before).subscribe.1 (run capacity (before ++ [.subscribe]))
      (run capacity (before.filterMap (Operation.alone (run capacity before).subscribe.1) ++
        [.subscribe])) := by
  let key := (run capacity before).subscribe.1
  have sameClosed (operations : List (Operation α)) :
      (operations.filterMap (Operation.alone key)).any Operation.ends =
        operations.any Operation.ends := by
    induction operations with
    | nil => rfl
    | cons operation operations ih =>
      cases reduced : operation.alone key with
      | none => rw [List.filterMap_cons_none reduced, List.any_cons, ih,
          Operation.ends_of_alone_none reduced, Bool.false_or]
      | some only => rw [List.filterMap_cons_some reduced, List.any_cons, List.any_cons, ih,
          Operation.ends_of_alone_some reduced]
  have noneOpened : (run capacity (before.filterMap (Operation.alone key))).nextKey = 0 := by
    have others : ∀ only ∈ before.filterMap (Operation.alone key), only ≠ .subscribe := by
      intro only member
      obtain ⟨operation, _, present⟩ := List.mem_filterMap.mp member
      exact Operation.ne_subscribe_of_alone_some present
    exact nextKey_performAll_of_ne (create capacity) others
  have closed : (run capacity (before.filterMap (Operation.alone key))).closed =
      (run capacity before).closed := by
    rw [run, run, closed_performAll, closed_performAll, sameClosed]
  rw [run_append, run_append]
  refine ⟨?_, closed, ?_⟩
  · simp [run]
  · have lone := (sound_run capacity (before.filterMap (Operation.alone key))).find?_subscribe_self
    have full := (sound_run capacity before).find?_subscribe_self
    rw [noneOpened, closed] at lone
    simp only [performAll_singleton, perform]
    refine lone.trans ?_
    rw [show (run capacity before).subscribe.1 = (run capacity before).nextKey from rfl, full]
    rfl

/-! ## After the broadcast closed -/

/-- An operation takes something out of the mailbox of a number, if there is something. -/
def Operation.takes (key : Nat) : Operation α → Bool
  | .receive chosen => decide (chosen = key)
  | _ => false

/-- What is received from a mailbox, and what stays, when so many of its items are out. -/
theorem receive_drop {mailbox : Mailbox α} {items : List α} {count : Nat}
    (waits : mailbox.items = items.drop count) :
    items.take count ++ mailbox.receive.1.toList = items.take (count + 1) ∧
      mailbox.receive.2.items = items.drop (count + 1) := by
  rw [List.take_add_one, ← List.drop_drop, ← waits, ← List.head?_drop, ← waits]
  cases kept : mailbox.items <;> simp [Mailbox.receive, kept]

/-- A closed broadcast publishes nothing. -/
theorem deliveries_of_closed (closed : broadcast.closed = true)
    (operations : List (Operation α)) : broadcast.deliveries operations = [] := by
  induction operations using List.reverseRecOn with
  | nil => rfl
  | append_singleton operations operation ih =>
    have still : (broadcast.performAll operations).closed = true := by
      rw [closed_performAll, closed, Bool.true_or]
    rw [deliveries_snoc, ih]
    cases operation with
    | publish item => simp [delivered, still]
    | _ => rfl

/-- A mailbox of a closed broadcast gives out what waited when it closed, one item at a time. -/
theorem receipts_of_closed (sound : broadcast.Sound) (older : key < broadcast.nextKey)
    (closed : broadcast.closed = true) {held : Subscriber α}
    (found : broadcast.find? key = some held) (operations : List (Operation α))
    {last : Subscriber α} (live : (broadcast.performAll operations).find? key = some last) :
    broadcast.receipts key operations =
        held.mailbox.items.take (operations.countP (Operation.takes key)) ∧
      last.mailbox.items = held.mailbox.items.drop (operations.countP (Operation.takes key)) := by
  induction operations using List.reverseRecOn generalizing last with
  | nil =>
    rw [performAll_nil, found] at live
    obtain rfl := Option.some.inj live
    simp [receipts, collect]
  | append_singleton operations operation ih =>
    rw [sound.find?_snoc older] at live
    obtain ⟨before, wasFound, acted⟩ := Option.bind_eq_some_iff.mp live
    obtain ⟨given, waits⟩ := ih wasFound
    have sameKey := (of_find?_eq_some wasFound).2.1
    rw [receipts_snoc, List.countP_append, List.countP_singleton, given]
    cases operation with
    | receive chosen =>
      obtain rfl := Option.some.inj acted
      by_cases mine : chosen = key
      · simpa [received, Operation.takes, mine, sameKey, receive_fst wasFound] using
          receive_drop waits
      · simpa [received, Operation.takes, mine, sameKey] using waits
    | publish item =>
      have still : (broadcast.performAll operations).closed = true := by
        rw [closed_performAll, closed, Bool.true_or]
      obtain rfl := Option.some.inj acted
      simpa [received, Operation.takes, still] using waits
    | _ =>
      have same := (Operation.items_of_act acted (by simp) (by simp)).1
      simpa [received, Operation.takes, same] using waits

/-- Whatever becomes of a mailbox of a closed broadcast, it gives out only what waited. -/
theorem receipts_prefix_of_closed (sound : broadcast.Sound) (older : key < broadcast.nextKey)
    (closed : broadcast.closed = true) {held : Subscriber α}
    (found : broadcast.find? key = some held) (operations : List (Operation α)) :
    broadcast.receipts key operations <+: held.mailbox.items := by
  induction operations using List.reverseRecOn with
  | nil => exact List.nil_prefix
  | append_singleton operations operation ih =>
    cases live : (broadcast.performAll operations).find? key with
    | none =>
      have nothing : (broadcast.performAll operations).received key operation = [] := by
        cases operation with
        | receive chosen =>
          simp only [received, ite_eq_right_iff]
          rintro rfl
          rw [receive_of_find?_eq_none live]
          rfl
        | _ => rfl
      rwa [receipts_snoc, nothing, List.append_nil]
    | some last =>
      obtain ⟨given, waits⟩ := receipts_of_closed sound older closed found operations live
      rw [receipts_snoc, given]
      cases operation with
      | receive chosen =>
        by_cases mine : chosen = key
        · simp only [received, mine, if_true, receive_fst live, (receive_drop waits).1]
          exact List.take_prefix _ _
        · simpa [received, mine] using List.take_prefix _ _
      | _ => simpa [received] using List.take_prefix _ _

/-! ## The main statement -/

/-- A mailbox that was opened after any operations has its account after any others, as long as
someone holds it, and someone does until it is released. It gives out what it would give out if
no other mailbox were ever opened. When the broadcast was closed by one of the operations, before
or after the mailbox was opened, it gives out what waits in it, one item a time, and gets nothing
more. -/
theorem account_of_every_mailbox (capacity : Nat) (before after : List (Operation α)) :
    let key := (run capacity before).subscribe.1
    let opened := run capacity (before ++ [.subscribe])
    let last := opened.performAll after
    (∀ held, last.find? key = some held →
      Accounts (max capacity 1) (opened.deliveries after) (opened.receipts key after)
        (opened.Loses key after) held.mailbox) ∧
    (.release key ∉ after → ∃ held, last.find? key = some held) ∧
    opened.receipts key after =
      (run capacity (before.filterMap (Operation.alone key) ++ [.subscribe])).receipts 0
        (after.filterMap (Operation.alone key)) ∧
    (.close ∈ before ++ after → ∀ held later, last.find? key = some held →
      last.deliveries later = [] ∧
      last.receipts key later <+: held.mailbox.items ∧
      ∀ rest, (last.performAll later).find? key = some rest →
        last.receipts key later =
            held.mailbox.items.take (later.countP (Operation.takes key)) ∧
          rest.mailbox.items =
            held.mailbox.items.drop (later.countP (Operation.takes key))) := by
  intro key opened last
  have started : opened = (run capacity before).subscribe.2 := run_append capacity before _
  have sound : opened.Sound := sound_run capacity _
  have older : key < opened.nextKey := by
    rw [started]
    exact Nat.lt_succ_self _
  have found : opened.find? key =
      some { key, mailbox := { closed := (run capacity before).closed } } := by
    rw [started]
    exact (sound_run capacity before).find?_subscribe_self
  have sameCapacity : opened.capacity = max capacity 1 := capacity_performAll _ _
  have lastSound : last.Sound := sound.performAll after
  have lastOlder : key < last.nextKey := Nat.lt_of_lt_of_le older (nextKey_le_performAll _ _)
  refine ⟨?_, ?_, ?_, ?_⟩
  · intro held live
    rw [← sameCapacity]
    exact accounts_performAll sound older found (by omega) after live
  · exact exists_find?_performAll sound older found after
  · have loneOlder : 0 < (run capacity (before.filterMap (Operation.alone key) ++
        [.subscribe])).nextKey := by
      rw [run_append]
      exact Nat.succ_pos _
    exact (alike_run capacity before).receipts sound older (sound_run capacity _) loneOlder after
  · intro closing held later isHeld
    have closed : last.closed = true := by
      have made : last = run capacity (before ++ [.subscribe] ++ after) :=
        (run_append capacity (before ++ [.subscribe]) after).symm
      rw [made, closed_run_iff]
      simpa using closing
    exact ⟨deliveries_of_closed closed later,
      receipts_prefix_of_closed lastSound lastOlder closed isHeld later,
      fun rest live => receipts_of_closed lastSound lastOlder closed isHeld later live⟩

/-- The second of two mailboxes for two items each is overrun once: the first item is lost. When
the broadcast closes, two items wait and can be received. -/
theorem account_of_overrun_mailbox :
    Accounts 2 [1, 2, 3, 4] [2]
        ((run 2 [.subscribe, .publish 7, .subscribe]).Loses 1
          [.publish 1, .publish 2, .publish 3, .receive 1, .release 0, .publish 4])
        { items := [3, 4], lagged := 1 } ∧
      ((run 2 [.subscribe, .publish 7, .subscribe]).performAll
          [.publish 1, .publish 2, .publish 3, .close, .publish 4]).receipts 1
        [.receive 1, .publish 5, .receive 0, .receive 1, .receive 1] = [2, 3] := by
  have key : (run 2 [.subscribe, .publish 7]).subscribe.1 = 1 := by decide
  refine ⟨?_, ?_⟩
  · have account := account_of_every_mailbox 2 [.subscribe, .publish 7]
      [.publish 1, .publish 2, .publish 3, .receive 1, .release 0, .publish 4]
    simp only [key, List.cons_append, List.nil_append] at account
    exact account.1 { key := 1, mailbox := { items := [3, 4], lagged := 1 } } (by decide)
  · have account := account_of_every_mailbox 2 [.subscribe, .publish 7]
      [.publish 1, .publish 2, .publish 3, .close, .publish 4]
    simp only [key, List.cons_append, List.nil_append] at account
    have drained := account.2.2.2 (by decide)
      { key := 1, listed := false, mailbox := { items := [2, 3], lagged := 1, closed := true } }
      [.receive 1, .publish 5, .receive 0, .receive 1, .receive 1] (by decide)
    exact (drained.2.2
      { key := 1, listed := false, mailbox := { items := [], lagged := 1, closed := true } }
      (by decide)).1

end Broadcast

end GcodeSender
