import Mathlib.Data.List.Chain
import GcodeSender.Proofs.Session.Landmarks

/-!
# The order of the events of a link

How the link stands decides which landmark may come next (`Notice.Fits`), and the landmark decides
how the link stands then, so the landmarks of a session form a course from a closed link
(`Session.course_after`). What may follow what in the events of the link is read off the course:
of two neighbours not both open the link and not both close it, and a failure follows an opening.
The main statement adds where bytes are written: only while the link is open, so the last event of
the link before them is its opening.
-/
namespace GcodeSender

/-! ## Events of the link -/

/-- A fault is a failure of a link that was open. -/
def SessionFault.breaksLink : SessionFault → Bool
  | writeFailed _ | pollFailed _ | closedByController | readFailed _ => true
  | noTransport | invalidSettings | notConnected | connectFailed _ | queue _ => false

namespace Event

/-- An event is the failure of a link that was open. -/
def breaksLink (event : Event) : Bool :=
  match event.happening with
  | .failed fault => fault.breaksLink
  | _ => false

/-- An event is stamped with the state of its own name. -/
def IsStamped (event : Event) : Prop := event.linkState.name = event.happening.kind.name

/-- Between two events of one sort there is one of another. -/
def Separated (ends parts : Event → Prop) (events : List Event) : Prop :=
  ∀ front first between second back, events = front ++ first :: (between ++ second :: back) →
    ends first → ends second → ∃ event ∈ between, parts event

/-- An event of the link may come right after another. -/
structure MayFollow (event next : Event) : Prop where
  /-- An opening follows a failure or a closing. -/
  opening : next.happening.kind = .connected →
    event.happening.kind = .error ∨ event.happening.kind = .disconnected
  /-- A closing follows an opening or a failure. -/
  closing : next.happening.kind = .disconnected →
    event.happening.kind = .connected ∨ event.happening.kind = .error
  /-- The failure of an open link follows its opening. -/
  failure : next.breaksLink = true → event.happening.kind = .connected

/-- If each event of one sort has one of another right before it, that one separates it from the
events of its sort before. -/
theorem separated_of_isChain {ends parts : Event → Prop} {events : List Event}
    (chain : events.IsChain MayFollow)
    (before : ∀ event next, MayFollow event next → ends next → parts event)
    (apart : ∀ event, ends event → ¬ parts event) : Separated ends parts events := by
  intro front first between second back split early late
  rw [split] at chain
  have inner := (List.isChain_append.mp chain).2.1
  rcases List.eq_nil_or_concat between with rfl | ⟨between, event, rfl⟩
  · have follows := (List.isChain_cons_cons.mp inner).1
    exact absurd (before first second follows late) (apart first early)
  · rw [List.concat_eq_append, List.append_assoc, ← List.cons_append] at inner
    have follows := (List.isChain_cons_cons.mp (List.isChain_append.mp inner).2.1).1
    exact ⟨event, by simp, before event second follows late⟩

/-- An event is stamped as open exactly if it is an opening. -/
theorem IsStamped.linkState_eq_connected_iff {event : Event} (stamped : event.IsStamped) :
    event.linkState = .connected ↔ event.happening.kind = .connected := by
  unfold IsStamped at stamped
  revert stamped
  cases event.linkState <;> cases event.happening.kind <;> decide

/-- An event that is not stamped as open is a failure or a closing. -/
theorem IsStamped.kind_of_linkState_ne_connected {event : Event} (stamped : event.IsStamped)
    (apart : event.linkState ≠ .connected) :
    event.happening.kind = .error ∨ event.happening.kind = .disconnected := by
  unfold IsStamped at stamped
  revert stamped apart
  cases event.linkState <;> cases event.happening.kind <;> decide

/-- An event that is not stamped as closed is an opening or a failure. -/
theorem IsStamped.kind_of_linkState_ne_disconnected {event : Event} (stamped : event.IsStamped)
    (apart : event.linkState ≠ .disconnected) :
    event.happening.kind = .connected ∨ event.happening.kind = .error := by
  unfold IsStamped at stamped
  revert stamped apart
  cases event.linkState <;> cases event.happening.kind <;> decide

/-- The failure of a link is an error. -/
theorem kind_of_breaksLink {event : Event} (breaks : event.breaksLink = true) :
    event.happening.kind = .error := by
  unfold breaksLink at breaks
  split at breaks
  · next fault failed =>
    rw [failed]
    rfl
  · cases breaks

/-- Events of the link in an order that leaves the link in a state. -/
structure Orderly (events : List Event) (state : LinkState) : Prop where
  /-- The link stands as the last event is stamped. -/
  last : state = events.getLast?.elim .disconnected Event.linkState
  /-- Each event is stamped with the state of its own name. -/
  stamped : ∀ event ∈ events, event.IsStamped
  /-- Neighbours may follow one another. -/
  chain : events.IsChain MayFollow

variable {events : List Event} {state : LinkState}

/-- One more event that fits how the link stands keeps the order. -/
theorem Orderly.append (orderly : Orderly events state) {next : Event} (stamped : next.IsStamped)
    (opening : next.happening.kind = .connected → state ≠ .connected)
    (closing : next.happening.kind = .disconnected → state ≠ .disconnected)
    (failure : next.breaksLink = true → state = .connected) :
    Orderly (events ++ [next]) next.linkState where
  last := by simp
  stamped event member := by
    rcases List.mem_append.mp member with before | only
    · exact orderly.stamped event before
    · exact List.mem_singleton.mp only ▸ stamped
  chain := by
    refine List.isChain_append.mpr ⟨orderly.chain, List.isChain_singleton next, ?_⟩
    rintro event last _ ⟨⟩
    have state_eq : state = event.linkState := by
      rw [orderly.last, show events.getLast? = some event from last]
      rfl
    have own := orderly.stamped event (List.mem_of_getLast? last)
    rw [state_eq] at opening closing failure
    exact ⟨fun opens => own.kind_of_linkState_ne_connected (opening opens),
      fun closes => own.kind_of_linkState_ne_disconnected (closing closes),
      fun breaks => own.linkState_eq_connected_iff.mp (failure breaks)⟩

/-- While the link is open, the last event is its opening. -/
theorem Orderly.exists_opening (orderly : Orderly events .connected) :
    ∃ event, events.getLast? = some event ∧ event.happening.kind = .connected := by
  have last := orderly.last
  cases found : events.getLast? with
  | none =>
    rw [found] at last
    cases last
  | some event =>
    rw [found] at last
    have own := orderly.stamped event (List.mem_of_getLast? found)
    exact ⟨event, rfl, own.linkState_eq_connected_iff.mp last.symm⟩

end Event

/-! ## Courses of landmarks -/

namespace Notice

/-- A landmark may come while the link stands in a state. -/
inductive Fits (state : LinkState) : Notice → Prop where
  /-- The link is opened. -/
  | opened (description : Bytes) (apart : state ≠ .connected) :
    Fits state (.event ⟨.connected description, .connected⟩)
  /-- The link cannot be opened. -/
  | refused (reason : Bytes) (apart : state ≠ .connected) :
    Fits state (.failure (.connectFailed reason))
  /-- The link fails. -/
  | broken {fault : SessionFault} (breaks : fault.breaksLink = true)
    (connected : state = .connected) : Fits state (.failure fault)
  /-- The link is closed. -/
  | closed (apart : state ≠ .disconnected) : Fits state (.event ⟨.disconnected, .disconnected⟩)
  /-- The machine state changes. -/
  | changed (previous current : MachineState) (connected : state = .connected) :
    Fits state (.event ⟨.machineStateChanged previous current, state⟩)
  /-- Bytes are written. -/
  | wrote (bytes : Bytes) (connected : state = .connected) : Fits state (.wrote bytes)

/-- Landmarks from a closed link to a link in a state, each of which may come where it does. -/
inductive Course : List Notice → LinkState → Prop where
  /-- The link is closed at first. -/
  | start : Course [] .disconnected
  /-- A landmark that may come comes. -/
  | next {passed : List Notice} {state : LinkState} {notice : Notice} (course : Course passed state)
    (fits : notice.Fits state) :
    Course (passed ++ [notice]) (notice.linkEvent?.elim state Event.linkState)

variable {passed : List Notice} {state : LinkState}

/-- The events of the link on a course are in order. -/
theorem Course.orderly (course : Course passed state) :
    Event.Orderly (passed.filterMap linkEvent?) state := by
  induction course with
  | start => exact ⟨rfl, nofun, List.IsChain.nil⟩
  | next course fits ih =>
    rw [List.filterMap_append]
    cases fits with
    | opened description apart => exact ih.append rfl (fun _ => apart) nofun nofun
    | refused reason apart => exact ih.append rfl nofun nofun nofun
    | broken breaks connected => exact ih.append rfl nofun nofun fun _ => connected
    | closed apart => exact ih.append rfl nofun (fun _ => apart) nofun
    | changed previous current connected => exact (List.append_nil _).symm ▸ ih
    | wrote bytes connected => exact (List.append_nil _).symm ▸ ih

/-- What comes before a landmark of a course is a course to a state that the landmark fits. -/
theorem Course.exists_before {before later : List Notice} {notice : Notice}
    (course : Course passed state) (split : passed = before ++ notice :: later) :
    ∃ stand, Course before stand ∧ notice.Fits stand := by
  induction course generalizing later with
  | start => simp at split
  | @next front stand last course fits ih =>
    rcases List.eq_nil_or_concat later with rfl | ⟨later, final, rfl⟩
    · obtain ⟨rfl, same⟩ := List.append_inj' split rfl
      cases List.singleton_inj.mp same
      exact ⟨stand, course, fits⟩
    · rw [List.concat_eq_append, ← List.cons_append, ← List.append_assoc] at split
      exact ih (List.append_inj' split rfl).1

end Notice

namespace Session

variable {session : Session} {notice : Notice}

/-- The events of the link, the earliest first. -/
def linkEvents (session : Session) : List Event :=
  session.record.reverse.filterMap Notice.linkEvent?

/-- The same step where the link takes the bytes that it is given. -/
def Step.granted : Step → Step
  | .request (.realtime now command _) => .request (.realtime now command none)
  | .send checked expired now _ => .send checked expired now none
  | .poll now _ => .poll now none
  | taken => taken

/-- An event of the link is a landmark. -/
theorem filterMap_linkEvent? (notices : List Notice) :
    (notices.filter Notice.isLandmark).filterMap Notice.linkEvent? =
      notices.filterMap Notice.linkEvent? :=
  filterMap_filter_isLandmark (fun notice marked => by simp [Notice.isLandmark, marked]) notices

/-- The link is open while the loops run. -/
theorem Sound.linkState_of_running (sound : session.Sound) (runs : session.running = true) :
    session.linkState = .connected :=
  isConnected_iff.mp (sound.running.symm.trans runs)

/-- Bytes are given to the link only while it is open. -/
theorem linkState_of_transmits_granted (sound : session.Sound) {taken : Step}
    (gives : (session.transmits taken.granted).isSome = true) :
    session.linkState = .connected := by
  cases taken with
  | request request =>
    cases request with
    | realtime now command refusal =>
      by_cases connected : session.isConnected = true
      · exact isConnected_iff.mp connected
      · simp [Step.granted, transmits, connected] at gives
    | _ => cases gives
  | receive now received => cases gives
  | send checked expired now refusal =>
    have takes : (((session.expire checked expired).takeCommand now).1).isSome = true := by
      simpa [Step.granted, transmits, Session.takes] using gives
    obtain ⟨command, found⟩ := Option.isSome_iff_exists.mp takes
    have same : (session.expire checked expired).running = session.running :=
      running_congr (link_expire checked expired)
    exact sound.linkState_of_running (same.symm.trans (running_of_takeCommand found))
  | poll now refusal =>
    by_cases running : session.running = true
    · exact sound.linkState_of_running running
    · simp [Step.granted, transmits, running] at gives

/-- While the link is open it may take bytes or fail to. -/
theorem fits_transmission (connected : session.linkState = .connected) (bytes : Bytes)
    (refusal : Option Bytes) {fault : Bytes → SessionFault}
    (breaks : ∀ reason, (fault reason).breaksLink = true) :
    (refusal.elim (Notice.wrote bytes) fun reason => .failure (fault reason)).Fits
      session.linkState := by
  cases refusal with
  | none => exact .wrote bytes connected
  | some reason => exact .broken (breaks reason) connected

/-- The landmark of a step may come while the link stands as it does. -/
theorem fits_landmark (sound : session.Sound) {taken : Step}
    (left : notice ∈ session.landmark? taken) : notice.Fits session.linkState := by
  cases taken with
  | request request =>
    cases request with
    | connect refusal =>
      by_cases closed : (session.isConnected || !session.settings.isValid) = true
      · simp [landmark?, closed] at left
      · rw [landmark?, if_neg closed] at left
        obtain ⟨description, -, rfl⟩ := Option.map_eq_some_iff.mp left
        have apart : session.linkState ≠ .connected := fun connected =>
          closed (by rw [isConnected_iff.mpr connected, Bool.true_or])
        cases refusal with
        | none => exact .opened description apart
        | some reason => exact .refused reason apart
    | disconnect now =>
      by_cases closed : session.linkState = .disconnected
      · simp [landmark?, closed] at left
      · rw [landmark?, if_neg closed] at left
        cases left
        exact .closed closed
    | realtime now command refusal =>
      by_cases connected : session.isConnected = true
      · rw [landmark?, if_pos connected] at left
        cases left
        exact fits_transmission (isConnected_iff.mp connected) _ refusal fun _ => rfl
      · simp [landmark?, connected] at left
    | _ => cases left
  | receive now received =>
    by_cases running : session.running = true
    · have connected := sound.linkState_of_running running
      cases received with
      | line text =>
        obtain ⟨report, -, changed⟩ := Option.bind_eq_some_iff.mp left
        split at changed
        · cases changed
        · cases changed
          exact .changed _ _ connected
      | closed =>
        rw [landmark?, if_pos running] at left
        cases left
        exact .broken rfl connected
      | failed reason =>
        rw [landmark?, if_pos running] at left
        cases left
        exact .broken rfl connected
    · cases received <;> simp [landmark?, report?, hears?, running] at left
  | send checked expired now refusal =>
    obtain ⟨command, found, rfl⟩ := Option.map_eq_some_iff.mp left
    have gives :
        (session.transmits (Step.granted (.send checked expired now refusal))).isSome = true := by
      show ((session.takes (.send checked expired now refusal)).map Transmission.line).isSome = true
      rw [found]
      rfl
    exact fits_transmission (linkState_of_transmits_granted sound gives) _ refusal fun _ => rfl
  | poll now refusal =>
    by_cases running : session.running = true
    · rw [landmark?, if_pos running] at left
      cases left
      exact fits_transmission (sound.linkState_of_running running) _ refusal fun _ => rfl
    · simp [landmark?, running] at left

/-- The landmarks of a run are a course to how the link stands. -/
theorem course_after (settings : SessionSettings) (transport : Option Bytes) (steps : List Step) :
    Notice.Course (after settings transport steps).landmarks
      (after settings transport steps).linkState := by
  induction steps using List.reverseRecOn with
  | nil => exact .start
  | append_singleton steps taken ih =>
    have sound := sound_after settings transport steps
    have leaves := leaves_step sound taken
    rw [after_append_singleton, leaves.landmarks, leaves.linkState]
    cases left : (after settings transport steps).landmark? taken with
    | none => exact (List.append_nil _).symm ▸ ih
    | some notice => exact ih.next (fits_landmark sound left)

/-- The events of the link in any run are in order. -/
theorem orderly_linkEvents (settings : SessionSettings) (transport : Option Bytes)
    (steps : List Step) :
    Event.Orderly (after settings transport steps).linkEvents
      (after settings transport steps).linkState := by
  have orderly := (course_after settings transport steps).orderly
  rwa [landmarks, filterMap_linkEvent?] at orderly

/-- The last event of the link before bytes are written is its opening. -/
theorem exists_opening_before_write {settings : SessionSettings} {transport : Option Bytes}
    {steps : List Step} {before later : List Notice} {bytes : Bytes}
    (split : (after settings transport steps).record.reverse = before ++ .wrote bytes :: later) :
    ∃ event, (before.filterMap Notice.linkEvent?).getLast? = some event ∧
      event.happening.kind = .connected := by
  have filtered : (after settings transport steps).landmarks =
      before.filter Notice.isLandmark ++ .wrote bytes :: later.filter Notice.isLandmark := by
    rw [landmarks, split, List.filter_append, List.filter_cons_of_pos rfl]
  obtain ⟨stand, course, fits⟩ :=
    (course_after settings transport steps).exists_before filtered
  have orderly := course.orderly
  rw [filterMap_linkEvent?] at orderly
  cases fits with
  | wrote _ connected =>
    rw [connected] at orderly
    exact orderly.exists_opening

/-- In every run of a session, two openings of the link have a failure or a closing between them,
two failures of an open link have an opening between them, two closings have an opening or a
failure between them, and each of these events is stamped with the state of its own name. Every
write comes after an opening and no event of the link since. So does every attempt to write: the
link is open when it is made. -/
theorem link_events_in_order (settings : SessionSettings) (transport : Option Bytes)
    (steps : List Step) :
    Event.Separated (·.happening.kind = .connected)
        (fun event => event.happening.kind = .error ∨ event.happening.kind = .disconnected)
        (after settings transport steps).linkEvents ∧
      Event.Separated (·.breaksLink = true) (·.happening.kind = .connected)
        (after settings transport steps).linkEvents ∧
      Event.Separated (·.happening.kind = .disconnected)
        (fun event => event.happening.kind = .connected ∨ event.happening.kind = .error)
        (after settings transport steps).linkEvents ∧
      (∀ event ∈ (after settings transport steps).linkEvents,
        event.linkState.name = event.happening.kind.name) ∧
      (∀ before bytes later,
        (after settings transport steps).record.reverse = before ++ .wrote bytes :: later →
        ∃ event, (before.filterMap Notice.linkEvent?).getLast? = some event ∧
          event.happening.kind = .connected) ∧
      ∀ before taken later, steps = before ++ taken :: later →
        ((after settings transport before).transmits taken.granted).isSome = true →
        (after settings transport before).linkState = .connected ∧
          ∃ event, (after settings transport before).linkEvents.getLast? = some event ∧
            event.happening.kind = .connected := by
  have orderly := orderly_linkEvents settings transport steps
  refine ⟨?openings, ?failures, ?closings, orderly.stamped,
    fun _ _ _ split => exists_opening_before_write split, ?attempts⟩
  case openings =>
    refine Event.separated_of_isChain orderly.chain (fun _ _ follows => follows.opening) ?_
    intro event opens
    simp [opens]
  case failures =>
    refine Event.separated_of_isChain orderly.chain (fun _ _ follows => follows.failure) ?_
    intro event breaks
    simp [Event.kind_of_breaksLink breaks]
  case closings =>
    refine Event.separated_of_isChain orderly.chain (fun _ _ follows => follows.closing) ?_
    intro event closes
    simp [closes]
  case attempts =>
    intro before taken later _ gives
    have connected := linkState_of_transmits_granted (sound_after settings transport before) gives
    have earlier := orderly_linkEvents settings transport before
    rw [connected] at earlier
    exact ⟨connected, earlier.exists_opening⟩

end Session

end GcodeSender
