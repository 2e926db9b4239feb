import GcodeSender.Controller.Codes
import GcodeSender.Controller.Status

/-!
# Responses of the controller

Every line from the controller is one of seven kinds, told apart by how it starts. A line that
starts like a report or a setting but cannot be read as one is feedback.
-/
namespace GcodeSender

/-- What the controller complains about: a code, or a text from firmware that has no codes. -/
inductive Complaint where
  /-- A numbered complaint. -/
  | code (value : Int)
  /-- A complaint in words. -/
  | wording (text : Bytes)
deriving DecidableEq

namespace Complaint

/-- The code of a complaint, which is zero for a text. -/
def number : Complaint → Int
  | code value => value
  | wording _ => 0

/-- The complaint that a text after a mark makes. -/
def ofBody (body : Bytes) : Complaint :=
  match Decimal.readInteger? body with
  | some value => .code value
  | none => .wording (trim body)

end Complaint

/-- A line from the controller. -/
inductive Response where
  /-- The command was carried out. -/
  | ok
  /-- The command was refused. -/
  | error (complaint : Complaint)
  /-- The machine stopped. -/
  | alarm (complaint : Complaint)
  /-- A status report. -/
  | status (report : Status)
  /-- The value of a setting. -/
  | setting (number : Int) (value : Bytes)
  /-- The controller has started. -/
  | welcome (version text : Bytes)
  /-- Anything else. -/
  | feedback (text : Bytes)
deriving DecidableEq

namespace Response

/-- The code of an error or an alarm. -/
def code : Response → Int
  | error complaint | alarm complaint => complaint.number
  | _ => 0

/-- The message of a response: what a code means, or the text that came. -/
def message : Response → Bytes
  | error (.code value) => errorDescription value
  | alarm (.code value) => alarmDescription value
  | error (.wording text) | alarm (.wording text) => text
  | welcome _ text | feedback text => text
  | ok | status _ | setting _ _ => []

/-- A setting such as `$110=500.000`. -/
def setting? (text : Bytes) : Option Response := do
  let body ← stripStart? (ascii "$") text
  let (number, value) ← cut? Byte.equals body
  let number ← Decimal.readInteger? number
  some (.setting number (trim value))

/-- A banner such as `Grbl 1.1h ['$' for help]`. The version goes up to the next blank or
bracket. -/
def welcome? (text : Bytes) : Option Response := do
  let rest ← stripStart? (ascii "Grbl ") text
  some (.welcome (trim (rest.takeWhile fun c => c != Byte.space && c != 0x5B)) text)

/-- A text without the square brackets around it, if it has both. -/
def unbracket (text : Bytes) : Bytes :=
  match text with
  | c :: rest => if c = 0x5B ∧ rest.getLast? = some 0x5D then rest.dropLast else text
  | [] => []

/-- The response of a line without blanks at its ends. -/
def ofTrimmed (text : Bytes) : Response :=
  if text = ascii "ok" then .ok
  else
    match stripStart? (ascii "error:") text, stripStart? (ascii "ALARM:") text with
    | some body, _ => .error (.ofBody body)
    | none, some body => .alarm (.ofBody body)
    | none, none =>
      match Status.ofLine? text with
      | some report => .status report
      | none =>
        match (setting? text).or (welcome? text) with
        | some response => response
        | none => .feedback (unbracket text)

/-- The response of a line. -/
def ofLine (line : Bytes) : Response := ofTrimmed (trim line)

end Response

end GcodeSender
