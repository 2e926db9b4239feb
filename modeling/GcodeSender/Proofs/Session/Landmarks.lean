import GcodeSender.Proofs.Session.Knowledge
import GcodeSender.Proofs.Session.Writes

/-!
# Landmarks in the record of a session

Events of the link, changes of the machine state and writes are the landmarks in the record of a
session. Results, responses, reports, restarts of the controller and ends of programs stand
between them. A step leaves at most one landmark (`Session.landmark?`). If that is an event of the
link, the link stands afterwards as the event is stamped, and otherwise as before
(`Session.leaves_step`). So what the landmarks say in their order can be told without looking at
the operations again.
-/
namespace GcodeSender

/-! ## Notices that are landmarks -/

/-- An event of this kind is about the link. -/
def EventKind.isOfLink : EventKind → Bool
  | connected | disconnected | error => true
  | controllerReset | machineStateChanged | programFinished => false

/-- The status report that a response is. -/
def Response.report? : Response → Option Status
  | status report => some report
  | _ => none

namespace Notice

/-- The event of the link that a notice publishes. -/
def linkEvent? : Notice → Option Event
  | .event published => if published.happening.kind.isOfLink then some published else none
  | _ => none

/-- The machine states before and after a change of them that a notice publishes. -/
def machineChange? : Notice → Option (MachineState × MachineState)
  | .event ⟨.machineStateChanged previous current, _⟩ => some (previous, current)
  | _ => none

/-- A notice is an event of the link, a change of the machine state or a write. -/
def isLandmark (notice : Notice) : Bool :=
  notice.linkEvent?.isSome || notice.machineChange?.isSome || notice.bytes?.isSome

/-- The notice that the link has failed or could not be opened. -/
abbrev failure (fault : SessionFault) : Notice := .event ⟨.failed fault, .error⟩

end Notice

namespace Session

variable {session middle next : Session} {notice : Option Notice}

/-- The landmarks in the record, the earliest first. -/
def landmarks (session : Session) : List Notice := session.record.reverse.filter Notice.isLandmark

/-- The status report that a step hears. -/
def report? (session : Session) (taken : Step) : Option Status :=
  (session.hears? taken).bind Response.report?

/-- The landmark that a step leaves. -/
def landmark? (session : Session) : Step → Option Notice
  | .request (.connect refusal) =>
    if session.isConnected || !session.settings.isValid then none
    else session.transport.map fun description =>
      refusal.elim (.event ⟨.connected description, .connected⟩) fun reason =>
        .failure (.connectFailed reason)
  | .request (.disconnect _) =>
    if session.linkState = .disconnected then none
    else some (.event ⟨.disconnected, .disconnected⟩)
  | .request (.realtime _ command refusal) =>
    if session.isConnected then
      some (refusal.elim (.wrote [command.byte]) fun reason => .failure (.writeFailed reason))
    else none
  | .request _ => none
  | .receive now (.line text) =>
    (session.report? (.receive now (.line text))).bind fun report =>
      if session.machineState = report.state then none
      else some (.event ⟨.machineStateChanged session.machineState report.state,
        session.linkState⟩)
  | .receive _ .closed => if session.running then some (.failure .closedByController) else none
  | .receive _ (.failed reason) =>
    if session.running then some (.failure (.readFailed reason)) else none
  | .send checked expired now refusal =>
    (session.takes (.send checked expired now refusal)).map fun command =>
      refusal.elim (.wrote (command.text ++ [Byte.newline])) fun reason =>
        .failure (.writeFailed reason)
  | .poll _ refusal =>
    if session.running then
      some (refusal.elim (.wrote [RealtimeCommand.statusQuery.byte]) fun reason =>
        .failure (.pollFailed reason))
    else none

/-- What is read off landmarks only can be read off the landmarks. -/
theorem filterMap_filter_isLandmark {α : Type} {view : Notice → Option α}
    (marked : ∀ notice, (view notice).isSome = true → notice.isLandmark = true)
    (notices : List Notice) :
    (notices.filter Notice.isLandmark).filterMap view = notices.filterMap view := by
  rw [List.filterMap_filter]
  congr 1
  funext notice
  by_cases landmark : notice.isLandmark = true
  · exact if_pos landmark
  · rw [if_neg landmark]
    exact (Option.not_isSome_iff_eq_none.mp (mt (marked notice) landmark)).symm

/-! ## Where landmarks are entered -/

/-- A notice is entered last, if it is a landmark. -/
theorem landmarks_note (notice : Notice) :
    (session.note notice).landmarks =
      session.landmarks ++ if notice.isLandmark then [notice] else [] := by
  cases marked : notice.isLandmark <;> simp [note, landmarks, marked]

@[simp] theorem landmarks_holdPending : session.holdPending.landmarks = session.landmarks := rfl

@[simp] theorem landmarks_publishResult (now : Int) (result : CommandResult) :
    (session.publishResult now result).landmarks = session.landmarks := by
  have noted : (session.note (.result result)).landmarks = session.landmarks :=
    (landmarks_note _).trans (List.append_nil _)
  unfold publishResult
  dsimp only
  split
  · exact (landmarks_note _).trans ((List.append_nil _).trans noted)
  · exact noted

@[simp] theorem landmarks_settleQueue (now : Int) (answer : Option CommandResult × Queue) :
    (session.settleQueue now answer).landmarks = session.landmarks := by
  unfold settleQueue
  dsimp only
  split
  · exact landmarks_publishResult now _
  · rfl

/-! ## What an operation leaves -/

/-- A session changes by leaving a landmark or none. If that is an event of the link, the link
stands as the event is stamped, and otherwise as before. -/
structure Leaves (session : Session) (notice : Option Notice) (next : Session) : Prop where
  /-- The landmark comes after those before. -/
  landmarks : next.landmarks = session.landmarks ++ notice.toList
  /-- The link stands as the landmark says. -/
  linkState : next.linkState =
    (notice.bind Notice.linkEvent?).elim session.linkState Event.linkState

/-- What leaves the record and the link as they were leaves no landmark. -/
theorem leaves_of_eq (record : next.landmarks = session.landmarks)
    (link : next.link = session.link) : session.Leaves none next :=
  ⟨record.trans (List.append_nil _).symm, congrArg Prod.fst link⟩

/-- What stays as it is leaves no landmark. -/
theorem leaves_self (session : Session) : session.Leaves none session := leaves_of_eq rfl rfl

/-- What follows without a landmark changes nothing of them. -/
theorem Leaves.before (leaves : session.Leaves notice middle) (silent : middle.Leaves none next) :
    session.Leaves notice next :=
  ⟨(silent.landmarks.trans (List.append_nil _)).trans leaves.landmarks,
    silent.linkState.trans leaves.linkState⟩

/-- What comes first without a landmark changes nothing of them. -/
theorem Leaves.after (leaves : middle.Leaves notice next) (silent : session.Leaves none middle) :
    session.Leaves notice next := by
  have same : middle.linkState = session.linkState := silent.linkState
  refine ⟨?_, ?_⟩
  · rw [leaves.landmarks, silent.landmarks, Option.toList_none, List.append_nil]
  · rw [leaves.linkState, same]

/-- Publishing an event of the link leaves it, stamped with how the link stands. -/
theorem landmarks_announce {happening : Happening} (ofLink : happening.kind.isOfLink = true) :
    (session.announce happening).landmarks =
      session.landmarks ++ [.event ⟨happening, session.linkState⟩] := by
  have marked : (Notice.event ⟨happening, session.linkState⟩).isLandmark = true := by
    simp [Notice.isLandmark, Notice.linkEvent?, ofLink]
  rw [announce, landmarks_note, if_pos marked]

/-- A failure of the link leaves its event. -/
theorem leaves_failLink (running : session.running = true) (now : Int) (fault : SessionFault) :
    session.Leaves (some (.failure fault)) (session.failLink now fault) := by
  have link : (session.failLink now fault).link = (.error, false) := by
    unfold failLink
    rw [if_pos running, link_announce, link_holdPending, link_settleQueue]
    rfl
  refine ⟨?_, congrArg Prod.fst link⟩
  unfold failLink at link ⊢
  rw [if_pos running] at link ⊢
  have stamp := congrArg Prod.fst link
  rw [landmarks_announce rfl, landmarks_holdPending, landmarks_settleQueue]
  exact congrArg (fun state => session.landmarks ++ [.event ⟨.failed fault, state⟩]) stamp

/-- Opening the link leaves its event, and so does a refusal to open. -/
theorem leaves_connect (session : Session) (refusal : Option Bytes) :
    session.Leaves (session.landmark? (.request (.connect refusal)))
      (session.connect refusal).2 := by
  have quiet {other : Session} (record : other.record = session.record)
      (link : other.link = session.link) : session.Leaves none other :=
    leaves_of_eq (congrArg (List.filter Notice.isLandmark ∘ List.reverse) record) link
  unfold connect landmark?
  cases connected : session.isConnected with
  | true => exact quiet rfl rfl
  | false =>
    cases session.transport with
    | none =>
      cases session.settings.isValid <;> exact quiet rfl rfl
    | some description =>
      cases session.settings.isValid with
      | false => exact quiet rfl rfl
      | true =>
        cases refusal with
        | some reason => exact ⟨landmarks_announce rfl, rfl⟩
        | none => exact ⟨landmarks_announce rfl, rfl⟩

/-- Closing the link leaves its event, unless the link was closed. -/
theorem leaves_disconnect (session : Session) (now : Int) :
    session.Leaves (session.landmark? (.request (.disconnect now))) (session.disconnect now) := by
  have kept : (({ session with running := false } : Session).settleQueue now
      (session.queue.failSend now (ascii "Disconnected"))).holdPending.landmarks =
        session.landmarks := landmarks_settleQueue now _
  have state : (({ session with running := false } : Session).settleQueue now
      (session.queue.failSend now (ascii "Disconnected"))).holdPending.linkState =
        session.linkState := congrArg Prod.fst (link_settleQueue now _)
  unfold disconnect landmark?
  dsimp only
  split
  · exact ⟨kept.trans (List.append_nil _).symm, state⟩
  · refine ⟨?_, rfl⟩
    rw [landmarks_announce rfl]
    exact congrArg (· ++ _) kept

/-- A real-time command leaves its byte, or the failure to write it. -/
theorem leaves_sendRealtime (sound : session.Sound) (now : Int) (command : RealtimeCommand)
    (refusal : Option Bytes) :
    session.Leaves (session.landmark? (.request (.realtime now command refusal)))
      (session.sendRealtime now command refusal).2 := by
  unfold sendRealtime landmark?
  cases connected : session.isConnected with
  | false => exact leaves_of_eq rfl rfl
  | true =>
    cases refusal with
    | none => exact ⟨landmarks_note _, rfl⟩
    | some reason => exact leaves_failLink (sound.running.trans connected) now _

/-- Putting in the queue leaves no landmark. -/
theorem leaves_takeQueue {α : Type} (answer : Option α × Queue) :
    session.Leaves none (session.takeQueue answer).2 := by
  unfold takeQueue
  dsimp only
  split <;> exact leaves_of_eq rfl rfl

/-- A request leaves its landmark. -/
theorem leaves_serve (sound : session.Sound) (request : Request) :
    session.Leaves (session.landmark? (.request request)) (session.serve request) := by
  cases request with
  | connect refusal => exact leaves_connect session refusal
  | disconnect now => exact leaves_disconnect session now
  | realtime now command refusal => exact leaves_sendRealtime sound now command refusal
  | command command =>
    show session.Leaves none (session.sendCommand command).2
    unfold sendCommand
    split
    · exact leaves_of_eq rfl rfl
    · exact leaves_takeQueue _
  | program now segments =>
    show session.Leaves none (session.sendProgram now segments).2
    have queued := @leaves_takeQueue session _ (session.queue.enqueueBatch (printPath segments))
    unfold sendProgram
    split
    · exact leaves_of_eq rfl rfl
    · dsimp only
      split
      · exact queued
      · exact queued.before (leaves_of_eq rfl rfl)
  | pause => exact leaves_of_eq rfl rfl
  | resume => exact leaves_of_eq rfl rfl
  | clear now => exact leaves_of_eq rfl rfl

/-- A status report leaves the change of the machine state, if there is one. -/
theorem leaves_observe (session : Session) (response : Response) :
    session.Leaves (response.report?.bind fun report =>
      if session.machineState = report.state then none
      else some (.event ⟨.machineStateChanged session.machineState report.state,
        session.linkState⟩)) (session.observe response) := by
  cases response with
  | status report =>
    have noted : session.Leaves none (({ session with
        latestStatus := some report
        machineState := report.state
        overrides := report.overrides.getD session.overrides } : Session).note
          (.status report)) := ⟨landmarks_note _, rfl⟩
    unfold observe observeStatus
    dsimp only [Response.report?, Option.bind_some]
    split
    · exact noted
    · refine Leaves.after ?_ noted
      exact ⟨landmarks_note _, rfl⟩
  | welcome version text =>
    have reset : session.Leaves none { session with overrides := {} } := leaves_of_eq rfl rfl
    exact Leaves.after ⟨landmarks_note _, rfl⟩ reset
  | _ => exact leaves_of_eq rfl rfl

/-- A line leaves the change of the machine state that it reports, if there is one. -/
theorem leaves_receive (session : Session) (now : Int) (received : Received) :
    session.Leaves (session.landmark? (.receive now received)) (session.receive now received) := by
  unfold receive landmark?
  cases running : session.running with
  | false =>
    cases received <;> simpa [report?, hears?, running] using leaves_self session
  | true =>
    cases received with
    | closed => exact leaves_failLink running now _
    | failed reason => exact leaves_failLink running now _
    | line text =>
      unfold handleLine
      cases empty : text.isEmpty with
      | true => simpa [report?, hears?, empty] using leaves_self session
      | false =>
        have observed := leaves_observe session (.ofLine text)
        have answered : (session.observe (.ofLine text)).Leaves none
            (((session.observe (.ofLine text)).settleQueue now
              ((session.observe (.ofLine text)).queue.respond now (.ofLine text))).note
                (.response (trim text) (.ofLine text))) :=
          leaves_of_eq ((landmarks_note _).trans ((List.append_nil _).trans
            (landmarks_settleQueue now _))) (link_settleQueue now _)
        simpa [report?, hears?, running, empty] using observed.before answered

/-- A command that is written leaves its line, or the failure to write it. -/
theorem leaves_writeCommand (running : session.running = true) (now : Int)
    (command : SentCommand) (refusal : Option Bytes) :
    session.Leaves
      (some (refusal.elim (.wrote (command.text ++ [Byte.newline])) fun reason =>
        .failure (.writeFailed reason))) (session.writeCommand now command refusal) := by
  cases refusal with
  | none => exact ⟨landmarks_note _, rfl⟩
  | some reason =>
    have ended : session.Leaves none (session.settleQueue now
        (session.queue.failSend now (SessionFault.writeFailed reason).message)) :=
      leaves_of_eq (landmarks_settleQueue now _) (link_settleQueue now _)
    have still : (session.settleQueue now (session.queue.failSend now
        (SessionFault.writeFailed reason).message)).running = true :=
      (running_congr (link_settleQueue now _)).trans running
    exact (leaves_failLink still now (.writeFailed reason)).after ended

/-- A command comes out of the queue only while the loops run. -/
theorem running_of_takeCommand {now : Int} {command : SentCommand}
    (found : (session.takeCommand now).1 = some command) : session.running = true := by
  by_contra ended
  rw [takeCommand_of_not_running (Bool.eq_false_iff.mpr ended)] at found
  cases found

/-- A turn of the sending loop leaves the line that it writes, or the failure to write it. -/
theorem leaves_send (session : Session) (checked expired now : Int) (refusal : Option Bytes) :
    session.Leaves (session.landmark? (.send checked expired now refusal))
      ((session.expire checked expired).sendNext now refusal) := by
  have looked : session.Leaves none (session.expire checked expired) := by
    refine leaves_of_eq ?_ (link_expire checked expired)
    unfold expire
    split
    · exact landmarks_settleQueue expired _
    · rfl
  have taken : (session.expire checked expired).Leaves none
      ((session.expire checked expired).takeCommand now).2 := by
    refine leaves_of_eq ?_ (link_takeCommand now)
    unfold takeCommand
    split <;> rfl
  have before := taken.after looked
  show session.Leaves (((session.expire checked expired).takeCommand now).1.map _) _
  unfold sendNext
  cases found : (session.expire checked expired).takeCommand now with
  | mk command next =>
    rw [found] at before
    cases command with
    | none => exact before
    | some command =>
      have running : next.running = true := by
        have same : ((session.expire checked expired).takeCommand now).2.running =
            (session.expire checked expired).running := running_congr (link_takeCommand now)
        rw [found] at same
        exact same.trans (running_of_takeCommand (congrArg Prod.fst found))
      exact (leaves_writeCommand running now command refusal).after before

/-- A turn of the polling loop leaves its query, or the failure to write it. -/
theorem leaves_poll (session : Session) (now : Int) (refusal : Option Bytes) :
    session.Leaves (session.landmark? (.poll now refusal)) (session.poll now refusal) := by
  unfold poll landmark?
  cases running : session.running with
  | false => exact leaves_self session
  | true =>
    cases refusal with
    | none => exact ⟨landmarks_note _, rfl⟩
    | some reason => exact leaves_failLink running now _

/-- A step leaves its landmark. -/
theorem leaves_step (sound : session.Sound) (taken : Step) :
    session.Leaves (session.landmark? taken) (session.step taken) := by
  cases taken with
  | request request => exact leaves_serve sound request
  | receive now received => exact leaves_receive session now received
  | send checked expired now refusal => exact leaves_send session checked expired now refusal
  | poll now refusal => exact leaves_poll session now refusal

end Session

end GcodeSender
