import GcodeSender.Proofs.Session.Holding

/-!
# What a session knows of its controller

A session keeps the override percentages, the last status report with its machine state, and the
listed settings (`Session.known`). It learns from the responses that it hears (`Known.learn`);
opening a link and writing a real-time command make it assume something. Every other step leaves
what it knows as it was, whatever the step does to the queue, the program and the link
(`Session.known_step`).
-/
namespace GcodeSender

/-- What a session knows of its controller. -/
structure Known where
  /-- The override percentages. -/
  overrides : Overrides
  /-- The last status report. -/
  latestStatus : Option Status
  /-- The machine state. -/
  machineState : MachineState
  /-- The settings that were listed. -/
  listedSettings : List (Int × Bytes)

namespace Known

/-- What is known once the link is opened. -/
def opened (known : Known) : Known :=
  { known with overrides := {}, latestStatus := none, machineState := .unknown }

/-- What is known after a response. -/
def learn (known : Known) : Response → Known
  | .status report =>
    { known with
      overrides := report.overrides.getD known.overrides
      latestStatus := some report
      machineState := report.state }
  | .setting number value =>
    { known with
      listedSettings := known.listedSettings.filter (·.1 != number) ++ [(number, value)] }
  | .welcome _ _ => { known with overrides := {} }
  | .ok | .error _ | .alarm _ | .feedback _ => known

end Known

namespace Session

variable {session : Session}

/-- What a session knows of its controller. -/
def known (session : Session) : Known where
  overrides := session.overrides
  latestStatus := session.latestStatus
  machineState := session.machineState
  listedSettings := session.listedSettings

@[simp] theorem known_publishResult (now : Int) (result : CommandResult) :
    (session.publishResult now result).known = session.known := by
  unfold publishResult
  dsimp only
  split <;> rfl

@[simp] theorem known_settleQueue (now : Int) (answer : Option CommandResult × Queue) :
    (session.settleQueue now answer).known = session.known := by
  unfold settleQueue
  dsimp only
  split
  · exact known_publishResult now _
  · rfl

/-- A failure of the link teaches nothing about the controller. -/
@[simp] theorem known_failLink (now : Int) (fault : SessionFault) :
    (session.failLink now fault).known = session.known := by
  unfold failLink
  split
  · exact known_settleQueue now _
  · rfl

@[simp] theorem known_disconnect (now : Int) :
    (session.disconnect now).known = session.known := by
  unfold disconnect
  dsimp only
  split <;> exact known_settleQueue now _

@[simp] theorem known_takeQueue {α : Type} (answer : Option α × Queue) :
    (session.takeQueue answer).2.known = session.known := by
  unfold takeQueue
  dsimp only
  split <;> rfl

@[simp] theorem known_sendCommand (command : ControllerCommand) :
    (session.sendCommand command).2.known = session.known := by
  unfold sendCommand
  split
  · rfl
  · exact known_takeQueue _

@[simp] theorem known_sendProgram (now : Int) (segments : List Segment) :
    (session.sendProgram now segments).2.known = session.known := by
  unfold sendProgram
  split
  · rfl
  · dsimp only
    split <;> exact known_takeQueue (session.queue.enqueueBatch (printPath segments))

@[simp] theorem known_expire (checked now : Int) :
    (session.expire checked now).known = session.known := by
  unfold expire
  split
  · exact known_settleQueue now _
  · rfl

@[simp] theorem known_takeCommand (now : Int) :
    (session.takeCommand now).2.known = session.known := by
  unfold takeCommand
  split <;> rfl

@[simp] theorem known_writeCommand (now : Int) (command : SentCommand) (refusal : Option Bytes) :
    (session.writeCommand now command refusal).known = session.known := by
  cases refusal with
  | none => rfl
  | some reason => exact (known_failLink now _).trans (known_settleQueue now _)

@[simp] theorem known_sendNext (now : Int) (refusal : Option Bytes) :
    (session.sendNext now refusal).known = session.known := by
  have before : (session.takeCommand now).2.known = session.known := known_takeCommand now
  unfold sendNext
  split
  · next command next found =>
    rw [found] at before
    rw [known_writeCommand, before]
  · next next found =>
    rw [found] at before
    exact before

@[simp] theorem known_poll (now : Int) (refusal : Option Bytes) :
    (session.poll now refusal).known = session.known := by
  unfold poll
  split
  · rfl
  · cases refusal with
    | none => rfl
    | some reason => exact known_failLink now _

/-! ## What is learned -/

/-- Opening the link makes the session assume the initial percentages and forget the last
report. -/
theorem known_connect (refusal : Option Bytes) :
    (session.connect refusal).2.known =
      if !session.isConnected && (session.connect refusal).1 then session.known.opened
      else session.known := by
  unfold connect
  cases connected : session.isConnected with
  | true => rfl
  | false =>
    cases session.transport with
    | none => rfl
    | some description =>
      cases session.settings.isValid with
      | false => rfl
      | true => cases refusal <;> rfl

/-- A real-time command that is written makes the session assume what it does. -/
theorem known_sendRealtime (now : Int) (command : RealtimeCommand) (refusal : Option Bytes) :
    (session.sendRealtime now command refusal).2.known =
      if session.isConnected && refusal.isNone then
        { session.known with overrides := session.overrides.apply command }
      else session.known := by
  unfold sendRealtime
  cases connected : session.isConnected with
  | false => rfl
  | true =>
    cases refusal with
    | none => rfl
    | some reason => exact known_failLink now _

/-- The session learns what a response teaches. -/
theorem known_observe (response : Response) :
    (session.observe response).known = session.known.learn response := by
  cases response with
  | status report =>
    show (session.observeStatus report).known = _
    unfold observeStatus
    dsimp only
    split <;> rfl
  | _ => rfl

/-- The response that a step hears. -/
def hears? (session : Session) : Step → Option Response
  | .receive _ (.line text) =>
    if session.running && !text.isEmpty then some (.ofLine text) else none
  | _ => none

/-- A response is heard only while the loops run. -/
theorem running_of_hears? {taken : Step} {response : Response}
    (heard : session.hears? taken = some response) : session.running = true := by
  unfold hears? at heard
  split at heard
  · split at heard
    · next hears => exact (Bool.and_eq_true_iff.mp hears).1
    · cases heard
  · cases heard

/-- The receiving loop learns from what it hears. -/
theorem known_receive (now : Int) (received : Received) :
    (session.receive now received).known =
      (session.hears? (.receive now received)).elim session.known session.known.learn := by
  unfold receive
  cases running : session.running with
  | false => cases received <;> simp [hears?, running]
  | true =>
    cases received with
    | line text =>
      cases empty : text.isEmpty with
      | true => simp [hears?, handleLine, empty]
      | false =>
        have handled : (session.handleLine now text).known =
            (session.observe (.ofLine text)).known := by
          unfold handleLine
          rw [empty]
          exact known_settleQueue now _
        simp [hears?, running, empty, handled, known_observe]
    | closed => exact known_failLink now _
    | failed reason => exact known_failLink now _

/-! ## Steps -/

/-- A step after which a session may know something else. -/
def Step.teaches : Step → Bool
  | .request (.connect _) | .request (.realtime _ _ _) | .receive _ _ => true
  | _ => false

/-- A session learns only by opening a link, writing a real-time command and receiving. -/
theorem known_step {taken : Step} (silent : taken.teaches = false) :
    (session.step taken).known = session.known := by
  cases taken with
  | request request =>
    cases request with
    | connect refusal => cases silent
    | realtime now command refusal => cases silent
    | disconnect now => exact known_disconnect now
    | command command => exact known_sendCommand command
    | program now segments => exact known_sendProgram now segments
    | pause => rfl
    | resume => rfl
    | clear now => rfl
  | receive now received => cases silent
  | send checked expired now refusal =>
    exact (known_sendNext now refusal).trans (known_expire checked expired)
  | poll now refusal => exact known_poll now refusal

end Session

end GcodeSender
