import Mathlib.Data.List.Destutter
import GcodeSender.Proofs.Session.Knowledge
import GcodeSender.Proofs.Session.LinkEvents

/-!
# Changes of the machine state

The status reports that a session reads and the changes of the machine state that it publishes are
both cut where the link is opened. Piece by piece the changes retell the reports
(`MachineState.Retells`): they lead from the unknown state through the states of the reports, with
repeats left out. What carries this along a run is that the session keeps the last report of the
latest piece and stands at the state to which the changes of that piece have led
(`Session.Recounts`).
-/
namespace GcodeSender

/-! ## Notes in pieces -/

section Pieces

variable {α : Type}

/-- A note is the last of the piece in front. Where there is none, a new piece comes in front. -/
def placeNote (pieces : List (List α)) : Option α → List (List α)
  | none => [] :: pieces
  | some note => pieces.modifyHead (· ++ [note])

/-- The pieces of notes that are cut where there is none, the last piece first. -/
def inPieces (notes : List (Option α)) : List (List α) := notes.foldl placeNote [[]]

theorem inPieces_append_singleton (notes : List (Option α)) (last : Option α) :
    inPieces (notes ++ [last]) = placeNote (inPieces notes) last := by
  rw [inPieces, List.foldl_append]
  rfl

/-- Each cut makes one more piece. -/
theorem length_inPieces (notes : List (Option α)) :
    (inPieces notes).length = notes.countP Option.isNone + 1 := by
  induction notes using List.reverseRecOn with
  | nil => rfl
  | append_singleton notes last ih =>
    rw [inPieces_append_singleton, List.countP_append]
    cases last with
    | none => simpa [placeNote] using ih
    | some note => simpa [placeNote] using ih

/-- The element that is left last by `destutter'` decides what becomes of one more. -/
theorem destutter'_append_singleton (R : α → α → Prop) [DecidableRel R] (list : List α)
    {first last : α} (ends : (list.destutter' R first).getLast? = some last) (next : α) :
    (list ++ [next]).destutter' R first =
      list.destutter' R first ++ if R last next then [next] else [] := by
  induction list generalizing first with
  | nil =>
    obtain rfl : first = last := by simpa using ends
    rw [List.nil_append, List.destutter'_singleton, List.destutter'_nil]
    split <;> rfl
  | cons head list ih =>
    rw [List.cons_append]
    by_cases related : R first head
    · rw [List.destutter'_cons_pos list related] at ends ⊢
      rw [List.destutter'_cons_pos _ related]
      rw [List.getLast?_cons_of_ne_nil (List.destutter'_ne_nil list R)] at ends
      rw [ih ends, List.cons_append]
    · rw [List.destutter'_cons_neg list related] at ends ⊢
      rw [List.destutter'_cons_neg _ related]
      exact ih ends

end Pieces

/-! ## Changes that retell reports -/

namespace MachineState

/-- Where changes have led from the unknown state. -/
def lastOf (changes : List (MachineState × MachineState)) : MachineState :=
  (changes.map Prod.snd).getLast?.getD .unknown

/-- Changes of the machine state retell status reports. -/
structure Retells (changes : List (MachineState × MachineState)) (reports : List Status) :
    Prop where
  /-- They begin with the unknown state. -/
  first : ∀ change ∈ changes.head?, change.1 = .unknown
  /-- Each begins where the one before ends. -/
  chain : changes.IsChain fun change next => next.1 = change.2
  /-- Each ends elsewhere than it begins. -/
  apart : ∀ change ∈ changes, change.1 ≠ change.2
  /-- They lead through the states of the reports, with repeats left out. -/
  visits : .unknown :: changes.map Prod.snd =
    (.unknown :: reports.map Status.state).destutter (· ≠ ·)

variable {changes : List (MachineState × MachineState)} {reports : List Status}

theorem retells_nil : Retells [] [] := ⟨nofun, List.IsChain.nil, nofun, rfl⟩

/-- A change that ends a list of changes leads to where they have led. -/
theorem snd_of_mem_getLast? {change : MachineState × MachineState}
    (ends : change ∈ changes.getLast?) : lastOf changes = change.2 := by
  rw [lastOf, List.getLast?_map, show changes.getLast? = some change from ends]
  rfl

/-- Changes with one to a state, unless they have led there, lead there. -/
theorem lastOf_append (changes : List (MachineState × MachineState)) (state : MachineState) :
    lastOf (changes ++ if lastOf changes = state then [] else [(lastOf changes, state)]) =
      state := by
  by_cases same : lastOf changes = state
  · rw [if_pos same, List.append_nil, same]
  · rw [if_neg same]
    exact snd_of_mem_getLast? (List.getLast?_concat ..)

/-- One more report is retold by a change from where the changes have led, if it is elsewhere. -/
theorem Retells.append (retells : Retells changes reports) (report : Status) :
    Retells
      (changes ++ if lastOf changes = report.state then [] else [(lastOf changes, report.state)])
      (reports ++ [report]) := by
  have led : (List.destutter' (· ≠ ·) .unknown (reports.map Status.state)).getLast? =
      some (lastOf changes) := by
    rw [← List.destutter_cons', ← retells.visits, List.getLast?_cons]
    rfl
  have visits := destutter'_append_singleton (· ≠ ·) _ led report.state
  rw [← List.destutter_cons', ← List.destutter_cons', ← retells.visits] at visits
  by_cases same : lastOf changes = report.state
  · rw [if_pos same, List.append_nil]
    refine ⟨retells.first, retells.chain, retells.apart, ?_⟩
    rw [List.map_append, List.map_singleton, visits, if_neg (not_not.mpr same), List.append_nil]
  · rw [if_neg same]
    refine ⟨?first, ?chain, ?apart, ?visits⟩
    case first =>
      cases changes with
      | nil => rintro _ ⟨⟩; rfl
      | cons change changes => exact retells.first
    case chain =>
      refine List.isChain_append.mpr ⟨retells.chain, List.isChain_singleton _, ?_⟩
      rintro change ends _ ⟨⟩
      exact snd_of_mem_getLast? ends
    case apart =>
      intro change member
      rcases List.mem_append.mp member with before | only
      · exact retells.apart change before
      · cases List.mem_singleton.mp only
        exact same
    case visits =>
      rw [List.map_append, List.map_append, List.map_singleton, List.map_singleton, visits,
        if_pos same, List.cons_append]

end MachineState

/-! ## Pieces of a session -/

/-- The last status report and its machine state. -/
def Known.machine (known : Known) : Option Status × MachineState :=
  (known.latestStatus, known.machineState)

/-- What a notice says of the changes of the machine state: that there is one, or that the link is
opened and they begin anew. -/
def Notice.changeMark? : Notice → Option (Option (MachineState × MachineState))
  | .event ⟨.connected _, _⟩ => some none
  | notice => notice.machineChange?.map some

namespace Session

variable {session : Session} {settings : SessionSettings} {transport : Option Bytes}

/-- What a step says of the status reports: that one is read, or that the link is opened and they
begin anew. A link that is open is not opened anew. -/
def statusMark? (session : Session) : Step → Option (Option Status)
  | .request (.connect refusal) =>
    if !session.isConnected && (session.connect refusal).1 then some none else none
  | taken => (session.report? taken).map some

/-- What a step publishes of the changes of the machine state. -/
def changeOf (session : Session) : Option Status → Option (Option (MachineState × MachineState))
  | none => some none
  | some report =>
    if session.machineState = report.state then none
    else some (some (session.machineState, report.state))

/-- The changes of the machine state that were published since each opening of the link, those
since the latest first and those before every opening last. -/
def changePieces (session : Session) : List (List (MachineState × MachineState)) :=
  inPieces (session.record.reverse.filterMap Notice.changeMark?)

/-- The status reports that steps read since each opening of the link, those since the latest
first and those before every opening last. -/
def reportPieces (session : Session) (steps : List Step) : List (List Status) :=
  inPieces (collect step (fun session taken => (session.statusMark? taken).toList) session steps)

/-- A landmark says of the changes what the step says of the reports. -/
theorem changeMark?_landmark (session : Session) (taken : Step) :
    (session.landmark? taken).bind Notice.changeMark? =
      (session.statusMark? taken).bind session.changeOf := by
  cases taken with
  | request request =>
    cases request with
    | connect refusal =>
      unfold landmark? statusMark? connect
      cases session.isConnected with
      | true => rfl
      | false =>
        cases session.transport with
        | none => cases session.settings.isValid <;> rfl
        | some description =>
          cases session.settings.isValid with
          | false => rfl
          | true => cases refusal <;> rfl
    | disconnect now =>
      show (ite _ _ _ : Option Notice).bind _ = none
      split <;> rfl
    | realtime now command refusal =>
      show (ite _ _ _ : Option Notice).bind _ = none
      split
      · cases refusal <;> rfl
      · rfl
    | _ => rfl
  | receive now received =>
    cases received with
    | line text =>
      show ((session.report? (.receive now (.line text))).bind _).bind _ =
        ((session.report? (.receive now (.line text))).map some).bind _
      cases session.report? (.receive now (.line text)) with
      | none => rfl
      | some report =>
        show (ite _ _ _ : Option Notice).bind _ = ite _ _ _
        split <;> rfl
    | closed =>
      show (ite _ _ _ : Option Notice).bind _ = none
      split <;> rfl
    | failed reason =>
      show (ite _ _ _ : Option Notice).bind _ = none
      split <;> rfl
  | send checked expired now refusal =>
    show ((session.takes (.send checked expired now refusal)).map _).bind _ = none
    cases session.takes (.send checked expired now refusal) with
    | none => rfl
    | some command => cases refusal <;> rfl
  | poll now refusal =>
    show (ite _ _ _ : Option Notice).bind _ = none
    split
    · cases refusal <;> rfl
    · rfl

/-- What says something of the changes is a landmark. -/
theorem filterMap_changeMark? (notices : List Notice) :
    (notices.filter Notice.isLandmark).filterMap Notice.changeMark? =
      notices.filterMap Notice.changeMark? := by
  refine filterMap_filter_isLandmark (fun notice marked => ?_) notices
  unfold Notice.changeMark? at marked
  split at marked
  · rfl
  · rw [Option.isSome_map] at marked
    simp [Notice.isLandmark, marked]

/-- A step changes the pieces by what it says. -/
theorem changePieces_step (sound : session.Sound) (taken : Step) :
    (session.step taken).changePieces =
      ((session.statusMark? taken).bind session.changeOf).elim session.changePieces
        (placeNote session.changePieces) := by
  have left := congrArg (List.filterMap Notice.changeMark?) (leaves_step sound taken).landmarks
  rw [List.filterMap_append, landmarks, landmarks, filterMap_changeMark?, filterMap_changeMark?]
    at left
  have mark : (session.landmark? taken).toList.filterMap Notice.changeMark? =
      ((session.statusMark? taken).bind session.changeOf).toList := by
    rw [← changeMark?_landmark]
    cases session.landmark? taken with
    | none => rfl
    | some notice => cases found : notice.changeMark? <;> simp [found]
  rw [changePieces, left, mark]
  cases (session.statusMark? taken).bind session.changeOf with
  | none => exact congrArg inPieces (List.append_nil _)
  | some mark => exact inPieces_append_singleton _ mark

/-! ## What the session keeps -/

/-- A response is kept if it is a report. -/
theorem machine_learn (known : Known) (response : Response) :
    (known.learn response).machine =
      response.report?.elim known.machine fun report => (some report, report.state) := by
  cases response <;> rfl

/-- What is heard is kept if it is a report. -/
theorem machine_receive (now : Int) (received : Received) :
    (session.receive now received).known.machine =
      (session.report? (.receive now received)).elim session.known.machine
        fun report => (some report, report.state) := by
  rw [known_receive, report?]
  cases session.hears? (.receive now received) with
  | none => rfl
  | some response => exact machine_learn session.known response

/-- A step changes what is kept of the last report as it says. -/
theorem machine_step (session : Session) (taken : Step) :
    (session.step taken).known.machine =
      (session.statusMark? taken).elim session.known.machine
        fun mark => (mark, mark.elim .unknown Status.state) := by
  cases teaches : taken.teaches with
  | false =>
    have silent : session.statusMark? taken = none := by
      cases taken with
      | request request => cases request <;> first | rfl | cases teaches
      | receive now received => cases teaches
      | send checked expired now refusal => rfl
      | poll now refusal => rfl
    rw [silent, known_step teaches]
    rfl
  | true =>
    cases taken with
    | receive now received =>
      refine (machine_receive now received).trans ?_
      show _ = ((session.report? (.receive now received)).map some).elim _ _
      cases session.report? (.receive now received) <;> rfl
    | send checked expired now refusal => cases teaches
    | poll now refusal => cases teaches
    | request request =>
      cases request with
      | connect refusal =>
        refine (congrArg Known.machine (known_connect refusal)).trans ?_
        simp only [statusMark?]
        split <;> rfl
      | realtime now command refusal =>
        refine (congrArg Known.machine (known_sendRealtime now command refusal)).trans ?_
        split <;> rfl
      | _ => cases teaches

/-! ## Along a run -/

/-- A report is read only while the loops run. -/
theorem running_of_statusMark? {taken : Step} {report : Status}
    (mark : session.statusMark? taken = some (some report)) : session.running = true := by
  unfold statusMark? at mark
  split at mark
  · split at mark <;> cases mark
  · obtain ⟨_, read, _⟩ := Option.map_eq_some_iff.mp mark
    obtain ⟨response, heard, _⟩ := Option.bind_eq_some_iff.mp read
    exact running_of_hears? heard

/-- While the loops run the link has been opened. -/
theorem two_le_length_changePieces {steps : List Step}
    (running : (after settings transport steps).running = true) :
    2 ≤ (after settings transport steps).changePieces.length := by
  have orderly := orderly_linkEvents settings transport steps
  rw [(sound_after settings transport steps).linkState_of_running running] at orderly
  obtain ⟨event, last, opens⟩ := orderly.exists_opening
  obtain ⟨notice, member, published⟩ := List.mem_filterMap.mp (List.mem_of_getLast? last)
  have cut : notice.changeMark? = some none := by
    unfold Notice.linkEvent? at published
    split at published
    · next event =>
      split at published
      · cases published
        obtain ⟨happening, linkState⟩ := event
        cases happening with
        | connected description => rfl
        | _ => cases opens
      · cases published
    · cases published
  have counted : 0 < ((after settings transport steps).record.reverse.filterMap
      Notice.changeMark?).countP Option.isNone :=
    List.countP_pos_iff.mpr ⟨none, List.mem_filterMap.mpr ⟨notice, member, cut⟩, rfl⟩
  rw [changePieces, length_inPieces]
  omega

/-- The changes that a session has published retell the reports that it has read, and the session
has the last report since the link was opened. -/
structure Recounts (session : Session) (reports : List (List Status)) : Prop where
  /-- The changes retell the reports, piece by piece. -/
  retold : List.Forall₂ MachineState.Retells session.changePieces reports
  /-- Nothing is read before the link is opened. -/
  silent : reports.getLast? = some []
  /-- The session has the last report since the link was opened. -/
  kept : session.known.machine = ((reports.headD []).getLast?,
    (reports.headD []).getLast?.elim .unknown Status.state)
  /-- The changes since the link was opened have led to its state. -/
  led : MachineState.lastOf (session.changePieces.headD []) = session.machineState

variable {next : Session} {reports : List (List Status)}

/-- It is kept where nothing is read and nothing published. -/
theorem Recounts.keep (recounts : session.Recounts reports)
    (pieces : next.changePieces = session.changePieces)
    (machine : next.known.machine = session.known.machine) : next.Recounts reports where
  retold := pieces ▸ recounts.retold
  silent := recounts.silent
  kept := machine.trans recounts.kept
  led := by
    rw [pieces]
    exact recounts.led.trans (congrArg Prod.snd machine).symm

/-- Where the link is opened, a piece of reports and a piece of changes begin. -/
theorem Recounts.opening (recounts : session.Recounts reports)
    (pieces : next.changePieces = [] :: session.changePieces)
    (machine : next.known.machine = (none, .unknown)) : next.Recounts ([] :: reports) where
  retold := pieces ▸ .cons MachineState.retells_nil recounts.retold
  silent := by
    have silent := recounts.silent
    cases reports with
    | nil => cases silent
    | cons now earlier => exact (List.getLast?_cons_cons ..).trans silent
  kept := machine
  led := by
    rw [pieces]
    exact (congrArg Prod.snd machine).symm

/-- Where a report is read, it goes on with the piece in front, and so does the change that it
brings. As the link was opened before, that is not the earliest piece. -/
theorem Recounts.report (recounts : session.Recounts reports)
    (long : 2 ≤ session.changePieces.length) (report : Status)
    (pieces : next.changePieces = (session.changeOf (some report)).elim session.changePieces
      (placeNote session.changePieces))
    (machine : next.known.machine = (some report, report.state)) :
    next.Recounts (placeNote reports (some report)) := by
  have retold := recounts.retold
  have silent := recounts.silent
  have led := recounts.led
  cases split : session.changePieces with
  | nil => simp [split] at long
  | cons changes others =>
    rw [split] at retold led long
    cases retold with
    | @cons _ now _ earlier first rest =>
      have further := first.append report
      have state := MachineState.lastOf_append changes report.state
      rw [show MachineState.lastOf changes = session.machineState from led] at further state
      have placed : next.changePieces =
          (changes ++ if session.machineState = report.state then []
            else [(session.machineState, report.state)]) :: others := by
        rw [pieces, split]
        show ((ite _ _ _ : Option (Option _)).elim _ _) = _
        split <;> simp [placeNote]
      refine ⟨?_, ?_, ?_, ?_⟩
      · rw [placed]
        exact .cons further rest
      · cases rest with
        | nil => simp at long
        | cons _ _ =>
          rw [List.getLast?_cons_cons] at silent
          exact (List.getLast?_cons_cons ..).trans silent
      · refine machine.trans ?_
        simp [placeNote]
      · rw [placed]
        exact state.trans (congrArg Prod.snd machine).symm

/-- Every step keeps it. -/
theorem Recounts.step (recounts : session.Recounts reports) (sound : session.Sound)
    (opened : session.running = true → 2 ≤ session.changePieces.length) (taken : Step) :
    (session.step taken).Recounts
      ((session.statusMark? taken).elim reports (placeNote reports)) := by
  have pieces := changePieces_step sound taken
  have machine := machine_step session taken
  cases found : session.statusMark? taken with
  | none =>
    rw [found] at pieces machine
    exact recounts.keep pieces machine
  | some mark =>
    rw [found] at pieces machine
    cases mark with
    | none => exact recounts.opening pieces machine
    | some report =>
      exact recounts.report (opened (running_of_statusMark? found)) report pieces machine

/-- Every run keeps it. -/
theorem recounts_after (settings : SessionSettings) (transport : Option Bytes)
    (steps : List Step) :
    (after settings transport steps).Recounts
      ((create settings transport).reportPieces steps) := by
  induction steps using List.reverseRecOn with
  | nil =>
    exact ⟨.cons MachineState.retells_nil .nil, rfl, rfl, rfl⟩
  | append_singleton steps taken ih =>
    have marks : (create settings transport).reportPieces (steps ++ [taken]) =
        ((after settings transport steps).statusMark? taken).elim
          ((create settings transport).reportPieces steps)
          (placeNote ((create settings transport).reportPieces steps)) := by
      rw [reportPieces, collect_append_singleton]
      show inPieces (_ ++ ((after settings transport steps).statusMark? taken).toList) = _
      cases (after settings transport steps).statusMark? taken with
      | none => exact congrArg inPieces (List.append_nil _)
      | some mark => exact inPieces_append_singleton _ mark
    rw [after_append_singleton, marks]
    exact ih.step (sound_after settings transport steps) two_le_length_changePieces taken

/-- Cut where the link is opened, the changes of the machine state that any run of a session
publishes retell the status reports that it reads: they begin with the unknown state, each begins
where the one before ends and ends elsewhere, and they lead through the states of the reports,
with repeats left out. The session has the last report that it has read since the link was opened,
and none if there is none, and its state is where the changes since then have led. Asking to open
a link that is open opens none. -/
theorem machine_states_retell_reports (settings : SessionSettings) (transport : Option Bytes)
    (steps : List Step) :
    let last := after settings transport steps
    let reports := (create settings transport).reportPieces steps
    List.Forall₂ MachineState.Retells last.changePieces reports ∧
      reports.getLast? = some [] ∧
      last.latestStatus = (reports.headD []).getLast? ∧
      MachineState.lastOf (last.changePieces.headD []) =
        last.latestStatus.elim .unknown Status.state := by
  intro last reports
  have recounts := recounts_after settings transport steps
  have latest : last.latestStatus = (reports.headD []).getLast? := congrArg Prod.fst recounts.kept
  refine ⟨recounts.retold, recounts.silent, latest, ?_⟩
  rw [latest, recounts.led]
  exact congrArg Prod.snd recounts.kept

end Session

end GcodeSender
