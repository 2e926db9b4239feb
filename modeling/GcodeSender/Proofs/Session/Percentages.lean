import GcodeSender.Proofs.Runs
import GcodeSender.Proofs.Session.Knowledge

/-!
# The override percentages of a session

A session keeps the override percentages that it believes the controller to use. Opening a link
and a banner reset them, a real-time command steps them between their bounds, and a status
report replaces them by whatever whole numbers it holds. So a percentage can leave its bounds
only through a report, and comes back with the next change of another kind: what holds of all
allowed percentages holds of the present one exactly if it holds of the one last reported, where
no later change set it (`Override.iff_of_reported`).
-/
namespace GcodeSender

/-! ## Percentages -/

/-- One of the three percentages. -/
inductive Override where
  /-- That of the feed. -/
  | feed
  /-- That of rapid moves. -/
  | rapid
  /-- That of the spindle speed. -/
  | spindle
deriving DecidableEq

namespace Override

/-- The value of a percentage. -/
def percent (overrides : Overrides) : Override → Int
  | feed => overrides.feed
  | rapid => overrides.rapid
  | spindle => overrides.spindle

/-- A percentage is one that the controller uses. -/
def Allows : Override → Int → Prop
  | feed, percent => Overrides.least ≤ percent ∧ percent ≤ Overrides.greatest
  | rapid, percent => percent = 100 ∨ percent = 50 ∨ percent = 25
  | spindle, percent => Overrides.least ≤ percent ∧ percent ≤ Overrides.greatest

/-- The percentages before any change are allowed. -/
theorem allows_initial (which : Override) : which.Allows (which.percent {}) := by
  cases which <;> simp [Allows, percent, Overrides.least, Overrides.greatest]

end Override

namespace RealtimeCommand

/-- The percentage that a command sets. -/
def override? : RealtimeCommand → Option Override
  | feedReset | feedCoarsePlus | feedCoarseMinus | feedFinePlus | feedFineMinus => some .feed
  | rapidReset | rapidMedium | rapidLow => some .rapid
  | spindleReset | spindleCoarsePlus | spindleCoarseMinus | spindleFinePlus
  | spindleFineMinus => some .spindle
  | _ => none

/-- What a command adds to the percentage that it sets, if it does not set a fixed one. -/
def change? : RealtimeCommand → Option Int
  | feedCoarsePlus | spindleCoarsePlus => some 10
  | feedCoarseMinus | spindleCoarseMinus => some (-10)
  | feedFinePlus | spindleFinePlus => some 1
  | feedFineMinus | spindleFineMinus => some (-1)
  | _ => none

/-- What a command adds is small. -/
theorem change?_bounds {command : RealtimeCommand} {change : Int}
    (adds : command.change? = some change) : -10 ≤ change ∧ change ≤ 10 := by
  cases command <;> simp only [change?, Option.some.injEq, reduceCtorEq] at adds <;> omega

end RealtimeCommand

/-- A whole number has 32 bits. -/
def Decimal.FitsInteger (value : Int) : Prop := minInteger ≤ value ∧ value ≤ maxInteger

namespace Override

variable {which : Override} {command : RealtimeCommand}

/-- What a command adds to an allowed percentage gives a number of 32 bits. -/
theorem fitsInteger_of_allows {percent change : Int} (adds : command.change? = some change)
    (allowed : which.Allows percent) : Decimal.FitsInteger (percent + change) := by
  have small := RealtimeCommand.change?_bounds adds
  unfold Decimal.FitsInteger Decimal.minInteger Decimal.maxInteger
  cases which <;> simp only [Allows, Overrides.least, Overrides.greatest] at allowed <;> omega

/-- A command leaves an allowed percentage where it sets one. -/
theorem allows_apply (overrides : Overrides) (sets : command.override? = some which) :
    which.Allows (which.percent (overrides.apply command)) := by
  cases command <;> simp only [RealtimeCommand.override?, Option.some.injEq, reduceCtorEq] at sets
  case rapidReset => exact sets ▸ .inl rfl
  case rapidMedium => exact sets ▸ .inr (.inl rfl)
  case rapidLow => exact sets ▸ .inr (.inr rfl)
  case feedReset => exact sets ▸ (by decide : Overrides.least ≤ 100 ∧ 100 ≤ Overrides.greatest)
  case spindleReset => exact sets ▸ (by decide : Overrides.least ≤ 100 ∧ 100 ≤ Overrides.greatest)
  all_goals exact sets ▸ Overrides.step_bounds _ _

/-- A command keeps the percentages that it does not set. -/
theorem percent_apply_of_ne (overrides : Overrides) (other : command.override? ≠ some which) :
    which.percent (overrides.apply command) = which.percent overrides := by
  cases command <;> cases which <;> first | rfl | exact absurd rfl other

/-- A command that adds something steps the percentage that it sets by that. -/
theorem percent_apply_of_change? (overrides : Overrides) {change : Int}
    (sets : command.override? = some which) (adds : command.change? = some change) :
    which.percent (overrides.apply command) =
      Overrides.step (which.percent overrides) change := by
  cases command <;>
    simp only [RealtimeCommand.override?, RealtimeCommand.change?, Option.some.injEq,
      reduceCtorEq] at sets adds <;>
    subst sets adds <;> rfl

end Override

/-! ## Changes of the percentages -/

/-- What changes the percentages that a session keeps. -/
inductive OverrideChange where
  /-- They are taken to be the initial ones. -/
  | reset
  /-- A status report holds them. -/
  | report (overrides : Overrides)
  /-- A real-time command was written. -/
  | realtime (command : RealtimeCommand)
deriving DecidableEq

/-- The percentages after a change. -/
def Overrides.change (overrides : Overrides) : OverrideChange → Overrides
  | .reset => {}
  | .report reported => reported
  | .realtime command => overrides.apply command

namespace OverrideChange

/-- A change sets a percentage, perhaps to the value that it had. -/
def sets (which : Override) : OverrideChange → Bool
  | reset => true
  | report _ => true
  | realtime command => command.override? == some which

/-- What a response of the controller changes. -/
def ofResponse? : Response → Option OverrideChange
  | .status status => status.overrides.map report
  | .welcome _ _ => some reset
  | _ => none

end OverrideChange

namespace Override

variable {which : Override} {changes : List OverrideChange}

/-- A report gave a percentage the value that it has after changes. -/
def Reported (which : Override) (changes : List OverrideChange) (report : Overrides) : Prop :=
  ∃ front back, changes = front ++ .report report :: back ∧
    ∀ later ∈ back, later.sets which = false

/-- A change keeps the percentages that it does not set. -/
theorem percent_change_of_not_sets (overrides : Overrides) {change : OverrideChange}
    (other : change.sets which = false) :
    which.percent (overrides.change change) = which.percent overrides := by
  cases change with
  | reset => cases other
  | report reported => cases other
  | realtime command =>
    exact percent_apply_of_ne overrides (by simpa [OverrideChange.sets] using other)

/-- After a last change that does not set a percentage, the report that gave it is the same. -/
theorem reported_append_of_not_sets {last : OverrideChange} (other : last.sets which = false)
    {report : Overrides} :
    which.Reported (changes ++ [last]) report ↔ which.Reported changes report := by
  constructor
  · rintro ⟨front, back, split, unset⟩
    rcases List.eq_nil_or_concat back with rfl | ⟨back, final, rfl⟩
    · obtain ⟨-, same⟩ := List.append_inj' split rfl
      rw [List.singleton_inj.mp same] at other
      cases other
    · rw [List.concat_eq_append, ← List.cons_append, ← List.append_assoc] at split
      exact ⟨front, back, (List.append_inj' split rfl).1, fun later member =>
        unset later (by simp [member])⟩
  · rintro ⟨front, back, rfl, unset⟩
    refine ⟨front, back ++ [last], by simp, fun later member => ?_⟩
    rcases List.mem_append.mp member with early | final
    · exact unset later early
    · rw [List.mem_singleton.mp final]
      exact other

/-- A percentage that a last change sets was given by that change and no other. -/
theorem eq_of_reported_append {last : OverrideChange} (sets : last.sets which = true)
    {report : Overrides} (reported : which.Reported (changes ++ [last]) report) :
    last = .report report := by
  obtain ⟨front, back, split, unset⟩ := reported
  rcases List.eq_nil_or_concat back with rfl | ⟨back, final, rfl⟩
  · exact List.singleton_inj.mp (List.append_inj' split rfl).2
  · rw [List.concat_eq_append, ← List.cons_append, ← List.append_assoc] at split
    obtain ⟨-, same⟩ := List.append_inj' split rfl
    rw [List.singleton_inj.mp same, unset final (by simp)] at sets
    cases sets

/-- What holds of every allowed percentage holds of the one after changes exactly if it holds of
the one that a report gave it, if a report did. -/
theorem iff_of_reported {holds : Int → Prop}
    (allowed : ∀ percent, which.Allows percent → holds percent) (changes : List OverrideChange) :
    holds (which.percent (changes.foldl Overrides.change {})) ↔
      ∀ report, which.Reported changes report → holds (which.percent report) := by
  induction changes using List.reverseRecOn with
  | nil =>
    refine ⟨fun _ report reported => ?_, fun _ => allowed _ which.allows_initial⟩
    obtain ⟨front, back, split, -⟩ := reported
    simp at split
  | append_singleton changes last ih =>
    rw [List.foldl_append, List.foldl_cons, List.foldl_nil]
    cases sets : last.sets which with
    | false =>
      rw [percent_change_of_not_sets _ sets, ih]
      simp only [reported_append_of_not_sets sets]
    | true =>
      cases last with
      | reset =>
        refine ⟨fun _ report reported => ?_, fun _ => allowed _ which.allows_initial⟩
        cases eq_of_reported_append sets reported
      | report given =>
        constructor
        · intro now report reported
          cases eq_of_reported_append sets reported
          exact now
        · intro reports
          exact reports given ⟨changes, [], rfl, by simp⟩
      | realtime command =>
        refine ⟨fun _ report reported => ?_, fun _ => allowed _ ?_⟩
        · cases eq_of_reported_append sets reported
        · exact allows_apply _ (by simpa [OverrideChange.sets] using sets)

end Override

/-! ## Changes in a session -/

namespace Session

variable {session next : Session}

/-- What a step changes of the percentages. -/
def overrideChange? (session : Session) : Step → Option OverrideChange
  | .request (.connect refusal) =>
    if !session.isConnected && (session.connect refusal).1 then some .reset else none
  | .request (.realtime _ command none) =>
    if session.isConnected then some (.realtime command) else none
  | .receive _ (.line text) =>
    if session.running && !text.isEmpty then OverrideChange.ofResponse? (.ofLine text) else none
  | _ => none

/-- What steps change of the percentages, in order. -/
def overrideChanges (session : Session) (steps : List Step) : List OverrideChange :=
  collect step (fun session taken => (session.overrideChange? taken).toList) session steps

/-- Opening a link anew resets the percentages. -/
theorem overrides_connect (refusal : Option Bytes) :
    (session.connect refusal).2.overrides =
      if !session.isConnected && (session.connect refusal).1 then {} else session.overrides :=
  (congrArg Known.overrides (known_connect refusal)).trans (apply_ite Known.overrides _ _ _)

/-- A real-time command that is written changes the percentages. -/
theorem overrides_sendRealtime (now : Int) (command : RealtimeCommand)
    (refusal : Option Bytes) :
    (session.sendRealtime now command refusal).2.overrides =
      if session.isConnected && refusal.isNone then session.overrides.apply command
      else session.overrides :=
  (congrArg Known.overrides (known_sendRealtime now command refusal)).trans
    (apply_ite Known.overrides _ _ _)

/-- A response changes the percentages by what it says of them. -/
theorem overrides_learn (known : Known) (response : Response) :
    (known.learn response).overrides =
      (OverrideChange.ofResponse? response).elim known.overrides known.overrides.change := by
  cases response with
  | status status =>
    show status.overrides.getD known.overrides =
      (status.overrides.map OverrideChange.report).elim _ _
    cases status.overrides <;> rfl
  | _ => rfl

/-- What the receiving loop meets changes the percentages by what a line says of them. -/
theorem overrides_receive (now : Int) (received : Received) :
    (session.receive now received).overrides =
      (session.overrideChange? (.receive now received)).elim session.overrides
        session.overrides.change := by
  have heard : (session.receive now received).overrides =
      ((session.hears? (.receive now received)).elim session.known session.known.learn).overrides :=
    congrArg Known.overrides (known_receive now received)
  cases received with
  | line text =>
    refine heard.trans ?_
    by_cases hears : (session.running && !text.isEmpty) = true
    · simp only [hears?, overrideChange?, hears, if_true]
      exact overrides_learn session.known (.ofLine text)
    · simp only [hears?, overrideChange?, hears]
      rfl
  | closed => exact heard
  | failed reason => exact heard

/-- A step changes the percentages as it says. -/
theorem overrides_step (session : Session) (taken : Step) :
    (session.step taken).overrides =
      (session.overrideChange? taken).elim session.overrides session.overrides.change := by
  cases teaches : taken.teaches with
  | false =>
    have same : (session.step taken).overrides = session.overrides :=
      congrArg Known.overrides (known_step teaches)
    have unchanged : session.overrideChange? taken = none := by
      unfold overrideChange?
      split <;> first | rfl | cases teaches
    rw [same, unchanged]
    rfl
  | true =>
    cases taken with
    | receive now received => exact overrides_receive now received
    | send checked expired now refusal => cases teaches
    | poll now refusal => cases teaches
    | request request =>
      cases request with
      | connect refusal =>
        refine (overrides_connect refusal).trans ?_
        simp only [overrideChange?]
        split <;> rfl
      | realtime now command refusal =>
        refine (overrides_sendRealtime now command refusal).trans ?_
        cases refusal with
        | none =>
          cases connected : session.isConnected <;>
            simp [overrideChange?, connected, Overrides.change]
        | some reason => simp [overrideChange?]
      | _ => cases teaches

variable (settings : SessionSettings) (transport : Option Bytes)

/-- After any steps a new session keeps what their changes make of the initial percentages. -/
theorem overrides_after (steps : List Step) :
    (after settings transport steps).overrides =
      ((create settings transport).overrideChanges steps).foldl Overrides.change {} := by
  induction steps using List.reverseRecOn with
  | nil => rfl
  | append_singleton steps last ih =>
    have changes : (create settings transport).overrideChanges (steps ++ [last]) =
        (create settings transport).overrideChanges steps ++
          ((after settings transport steps).overrideChange? last).toList :=
      collect_append_singleton ..
    rw [after_append_singleton, overrides_step, ih, changes, List.foldl_append]
    cases (after settings transport steps).overrideChange? last <;> rfl

/-- Whatever steps a new session takes, a percentage is allowed exactly if no report gave it its
value or the report did so with an allowed one. A command that adds to an allowed percentage adds
up a number of 32 bits, and any command does so exactly if no report gave the percentage its value
or the reported one leaves room for the sum. -/
theorem percentage_follows_reports (which : Override) (steps : List Step) :
    let changes := (create settings transport).overrideChanges steps
    let overrides := (after settings transport steps).overrides
    (which.Allows (which.percent overrides) ↔
      ∀ report, which.Reported changes report → which.Allows (which.percent report)) ∧
    ∀ command change, command.override? = some which → command.change? = some change →
      which.percent (overrides.apply command) =
          Overrides.step (which.percent overrides) change ∧
        (which.Allows (which.percent overrides) →
          Decimal.FitsInteger (which.percent overrides + change)) ∧
        (Decimal.FitsInteger (which.percent overrides + change) ↔
          ∀ report, which.Reported changes report →
            Decimal.FitsInteger (which.percent report + change)) := by
  intro changes overrides
  have same : overrides = changes.foldl Overrides.change {} :=
    overrides_after settings transport steps
  refine ⟨?_, fun command change sets adds => ⟨?_, ?_, ?_⟩⟩
  · rw [same]
    exact Override.iff_of_reported (fun _ allowed => allowed) changes
  · exact Override.percent_apply_of_change? overrides sets adds
  · exact Override.fitsInteger_of_allows adds
  · rw [same]
    have leavesRoom : ∀ percent, which.Allows percent → Decimal.FitsInteger (percent + change) :=
      fun _ allowed => Override.fitsInteger_of_allows adds allowed
    exact Override.iff_of_reported leavesRoom changes

/-- A status report with percentages that the controller does not use is believed, and so is one
to which no step can be added within 32 bits. -/
theorem reported_percentages_out_of_bounds :
    (∀ which : Override, ¬ which.Allows (which.percent (after {} (some [])
      [.request (.connect none), .receive 0 (.line (ascii "<Idle|Ov:500,77,0>"))]).overrides)) ∧
    ¬ Decimal.FitsInteger ((after {} (some []) [.request (.connect none),
      .receive 0 (.line (ascii "<Idle|Ov:2147483647,100,100>"))]).overrides.feed + 10) := by
  have large : (after {} (some []) [.request (.connect none),
      .receive 0 (.line (ascii "<Idle|Ov:500,77,0>"))]).overrides = ⟨500, 77, 0⟩ := by
    decide +kernel
  have greatest : (after {} (some []) [.request (.connect none),
      .receive 0 (.line (ascii "<Idle|Ov:2147483647,100,100>"))]).overrides =
        ⟨2147483647, 100, 100⟩ := by
    decide +kernel
  refine ⟨fun which => ?_, ?_⟩
  · rw [large]
    cases which <;> simp [Override.Allows, Override.percent, Overrides.least, Overrides.greatest]
  · rw [greatest]
    simp [Decimal.FitsInteger, Decimal.maxInteger]

end Session

end GcodeSender
