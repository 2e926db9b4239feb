import GcodeSender.Queue

/-!
# What a line says about a command

A line from the controller is told apart by how it starts, and only four starts say anything about
the command on its way (`Verdict`): `ok`, and those of an error, an alarm and a banner. All that
is read of a line for a queue follows from its start, whatever stands behind it.
-/
namespace GcodeSender

/-- What a line without blanks at its ends says about the command on its way. -/
inductive Verdict : Bytes → Outcome → Prop where
  /-- It was carried out. -/
  | ok : Verdict (ascii "ok") .acked
  /-- It was refused. -/
  | error (body : Bytes) : Verdict (ascii "error:" ++ body) (.refused (.ofBody body))
  /-- The machine stopped. -/
  | alarm (body : Bytes) : Verdict (ascii "ALARM:" ++ body) (.alarmed (.ofBody body))
  /-- The controller started anew. -/
  | banner (rest : Bytes) : Verdict (ascii "Grbl " ++ rest) .reset

/-- A line without blanks at its ends is a verdict: it is `ok`, or it starts as an error, an alarm
or a banner does. -/
def IsVerdict (text : Bytes) : Prop :=
  text = ascii "ok" ∨ ascii "error:" <+: text ∨ ascii "ALARM:" <+: text ∨ ascii "Grbl " <+: text

/-- A line with an opening that `ok` does not have is another line. -/
theorem append_ne_ok {opening : Bytes} (other : stripStart? opening (ascii "ok") = none)
    (rest : Bytes) : opening ++ rest ≠ ascii "ok" := by
  intro same
  have opens : stripStart? opening (ascii "ok") = some rest :=
    stripStart?_eq_some.mpr same.symm
  rw [other] at opens
  cases opens

/-- A command is carried out only by `ok`, and every other verdict lets it fail. -/
theorem Verdict.stateName {text : Bytes} {outcome : Outcome} (verdict : Verdict text outcome) :
    outcome.stateName = if text = ascii "ok" then ascii "Acked" else ascii "Failed" := by
  cases verdict with
  | ok => rfl
  | error body => exact (if_neg (append_ne_ok rfl body)).symm
  | alarm body => exact (if_neg (append_ne_ok rfl body)).symm
  | banner rest => exact (if_neg (append_ne_ok rfl rest)).symm

/-- The verdicts are the lines that say something about a command. -/
theorem isVerdict_iff {text : Bytes} : IsVerdict text ↔ ∃ outcome, Verdict text outcome := by
  constructor
  · rintro (rfl | ⟨body, rfl⟩ | ⟨body, rfl⟩ | ⟨rest, rfl⟩)
    · exact ⟨_, .ok⟩
    · exact ⟨_, .error body⟩
    · exact ⟨_, .alarm body⟩
    · exact ⟨_, .banner rest⟩
  · rintro ⟨outcome, verdict⟩
    cases verdict with
    | ok => exact .inl rfl
    | error body => exact .inr (.inl (List.prefix_append _ _))
    | alarm body => exact .inr (.inr (.inl (List.prefix_append _ _)))
    | banner rest => exact .inr (.inr (.inr (List.prefix_append _ _)))

namespace Response

variable {text : Bytes}

/-- What is read as a setting is a setting. -/
theorem exists_of_setting? {response : Response} (found : setting? text = some response) :
    ∃ number value, response = .setting number value := by
  simp only [setting?, Option.bind_eq_bind, Option.bind_eq_some_iff, Option.some.injEq] at found
  obtain ⟨_, _, _, _, _, _, rfl⟩ := found
  exact ⟨_, _, rfl⟩

/-- What is read as a banner is one, and it starts as one. -/
theorem exists_of_welcome? {response : Response} (found : welcome? text = some response) :
    ∃ rest version, text = ascii "Grbl " ++ rest ∧ response = .welcome version text := by
  simp only [welcome?, Option.bind_eq_bind, Option.bind_eq_some_iff, Option.some.injEq] at found
  obtain ⟨rest, stripped, rfl⟩ := found
  exact ⟨rest, _, stripStart?_eq_some.mp stripped, rfl⟩

/-- A text that starts with another byte than a report is none. -/
theorem ofLine?_of_ne_less {c : UInt8} (solid : Byte.isBlank c = false) (other : c ≠ Byte.less)
    (rest : Bytes) : Status.ofLine? (c :: rest) = none := by
  obtain ⟨others, trimmed⟩ := exists_trim_cons solid rest
  have unframed : Status.unframe? (c :: others) = none := if_neg fun framed => other framed.1
  rw [Status.ofLine?, trimmed, unframed]
  rfl

/-- What a line says about a command shows in how it starts. -/
theorem verdict_of_outcomeOf {outcome : Outcome}
    (said : Queue.outcomeOf (ofTrimmed text) = some outcome) : Verdict text outcome := by
  unfold ofTrimmed at said
  split at said
  · next same =>
    cases said
    exact same ▸ .ok
  · split at said
    · next body stripped =>
      cases said
      exact stripStart?_eq_some.mp stripped ▸ .error body
    · next body _ stripped =>
      cases said
      exact stripStart?_eq_some.mp stripped ▸ .alarm body
    · split at said
      · cases said
      · split at said
        · next response found =>
          rcases Option.or_eq_some_iff.mp found with setting | ⟨-, welcome⟩
          · obtain ⟨number, value, rfl⟩ := exists_of_setting? setting
            cases said
          · obtain ⟨rest, version, same, rfl⟩ := exists_of_welcome? welcome
            cases said
            exact same ▸ .banner rest
        · cases said

/-- An error line is read as the error that follows its mark. -/
theorem ofTrimmed_error (body : Bytes) :
    ofTrimmed (ascii "error:" ++ body) = .error (.ofBody body) := by
  have mark : stripStart? (ascii "error:") (ascii "error:" ++ body) = some body :=
    stripStart?_eq_some.mpr rfl
  rw [ofTrimmed, if_neg (append_ne_ok rfl body), mark]

/-- An alarm line is read as the alarm that follows its mark. -/
theorem ofTrimmed_alarm (body : Bytes) :
    ofTrimmed (ascii "ALARM:" ++ body) = .alarm (.ofBody body) := by
  have mark : stripStart? (ascii "ALARM:") (ascii "ALARM:" ++ body) = some body :=
    stripStart?_eq_some.mpr rfl
  have noError : stripStart? (ascii "error:") (ascii "ALARM:" ++ body) = none := rfl
  rw [ofTrimmed, if_neg (append_ne_ok rfl body), mark, noError]

/-- A banner line is read as a banner. -/
theorem exists_ofTrimmed_banner (rest : Bytes) :
    ∃ version, ofTrimmed (ascii "Grbl " ++ rest) = .welcome version (ascii "Grbl " ++ rest) := by
  obtain ⟨version, read⟩ : ∃ version, welcome? (ascii "Grbl " ++ rest) =
      some (.welcome version (ascii "Grbl " ++ rest)) := by
    have mark : stripStart? (ascii "Grbl ") (ascii "Grbl " ++ rest) = some rest :=
      stripStart?_eq_some.mpr rfl
    exact ⟨_, by rw [welcome?, mark, Option.bind_eq_bind, Option.bind_some]⟩
  have noError : stripStart? (ascii "error:") (ascii "Grbl " ++ rest) = none := rfl
  have noAlarm : stripStart? (ascii "ALARM:") (ascii "Grbl " ++ rest) = none := rfl
  have noReport : Status.ofLine? (ascii "Grbl " ++ rest) = none :=
    ofLine?_of_ne_less (by decide) (by decide) _
  have noSetting : setting? (ascii "Grbl " ++ rest) = none := rfl
  refine ⟨version, ?_⟩
  rw [ofTrimmed, if_neg (append_ne_ok rfl rest), noError, noAlarm]
  dsimp only
  rw [noReport, noSetting, Option.none_or, read]

/-- A line says about a command what its verdict is, and nothing if it is none. -/
theorem outcomeOf_ofTrimmed_eq_some_iff {outcome : Outcome} :
    Queue.outcomeOf (ofTrimmed text) = some outcome ↔ Verdict text outcome := by
  constructor
  · exact verdict_of_outcomeOf
  · intro verdict
    cases verdict with
    | ok => rfl
    | error body => rw [ofTrimmed_error, Queue.outcomeOf]
    | alarm body => rw [ofTrimmed_alarm, Queue.outcomeOf]
    | banner rest =>
      obtain ⟨version, read⟩ := exists_ofTrimmed_banner rest
      rw [read, Queue.outcomeOf]

/-- A line is no verdict exactly when it says nothing about a command. -/
theorem outcomeOf_ofTrimmed_eq_none_iff :
    Queue.outcomeOf (ofTrimmed text) = none ↔ ¬ IsVerdict text := by
  rw [isVerdict_iff, not_exists, Option.eq_none_iff_forall_ne_some]
  simp only [ne_eq, outcomeOf_ofTrimmed_eq_some_iff]

end Response

end GcodeSender
