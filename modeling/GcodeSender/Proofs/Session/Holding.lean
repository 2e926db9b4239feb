import GcodeSender.Proofs.Session.Requests

/-!
# Commands held from one session to the next

A session runs in steps: requests of its user, and turns of the loops that receive, send and
poll. Whatever ends a session, a request or a failure met by any of the steps, fails the command
on its way and holds the commands that wait (`Session.Closed`). Between sessions nothing is
taken in, and nothing but a resumption ends the hold, so each step keeps the invariant
(`Session.Sound`) and, unless it is a resumption, the hold. The main statement follows for every
sequence of steps: what was held when a session ended is not written in a later one before the
session is resumed.
-/
namespace GcodeSender

namespace Session

/-! ## Steps -/

/-- One step of a session. -/
inductive Step where
  /-- A request of its user. -/
  | request (request : Request)
  /-- One turn of the receiving loop that meets something. -/
  | receive (now : Int) (received : Received)
  /-- One turn of the sending loop: end a command that was not answered in time, then take out
  the next command and write it, which the link may refuse. The clock is read to check for that
  end, when it comes and for the next command. -/
  | send (checked expired now : Int) (refusal : Option Bytes)
  /-- One turn of the polling loop. -/
  | poll (now : Int) (refusal : Option Bytes)

/-- The request that a step is, unless it is the turn of a loop. -/
def Step.request? : Step → Option Request
  | .request asked => some asked
  | _ => none

/-- The session after a step. -/
def step (session : Session) : Step → Session
  | .request request => session.serve request
  | .receive now received => session.receive now received
  | .send checked expired now refusal => (session.expire checked expired).sendNext now refusal
  | .poll now refusal => session.poll now refusal

/-- A new session after steps. -/
def after (settings : SessionSettings) (transport : Option Bytes) (steps : List Step) : Session :=
  steps.foldl step (create settings transport)

/-- The link was open before a step and is not after it, or the step is a request to close
it. -/
def EndedBy (session : Session) (taken : Step) : Prop :=
  (session.linkState = .connected ∧ (session.step taken).linkState ≠ .connected) ∨
    ∃ now, taken = .request (.disconnect now)

variable {session next : Session}

/-! ## Calls of a step -/

/-- Sending makes calls that it warrants, and writes no command line under a pause. -/
theorem makes_sendNext (session : Session) (now : Int) (refusal : Option Bytes) :
    ∃ calls lines, session.Makes calls lines (session.sendNext now refusal) ∧
      (∀ call ∈ calls, session.Warrants none call) ∧
      (session.queue.paused = true → lines = []) := by
  by_cases running : session.running = true
  · have taken := makes_takeCommand running now
    have warranted : session.Warrants none (.dequeue now) := ⟨rfl, running⟩
    cases step : session.takeCommand now with
    | mk command next =>
      rw [step] at taken
      cases command with
      | none =>
        refine ⟨[.dequeue now], [], ?_, by simpa using warranted, fun _ => rfl⟩
        simpa [sendNext, step] using taken
      | some command =>
        -- A command comes out, so the queue is not paused.
        have free : session.queue.paused ≠ true := fun held => by
          rw [takeCommand_of_paused held] at step
          cases step
        cases refusal with
        | none =>
          refine ⟨[.dequeue now], [command.line], ?_, by simpa using warranted,
            fun held => absurd held free⟩
          simpa [sendNext, step] using taken.trans (makes_writeCommand next now command)
        | some reason =>
          obtain ⟨calls, failed, settle⟩ := makes_writeCommand_refused next now command reason
          refine ⟨[.dequeue now] ++ calls, [], ?_, ?_, fun _ => rfl⟩
          · simpa [sendNext, step] using taken.trans failed
          · intro call member
            rcases List.mem_append.mp member with first | later
            · rw [List.mem_singleton.mp first]
              exact warranted
            · exact warrants_of_settles (settle call later)
  · have same : session.sendNext now refusal = session :=
      sendNext_of_not_running (Bool.eq_false_iff.mpr running)
    rw [same]
    exact ⟨[], [], makes_self session, by simp, fun _ => rfl⟩

/-- What a session warrants hangs on its link. -/
theorem warrants_congr {request : Option Request} {call : Queue.Call}
    (same : next.link = session.link) (warranted : next.Warrants request call) :
    session.Warrants request call := by
  obtain ⟨state, running⟩ := Prod.mk.inj same
  cases call <;> simp_all [Warrants, isConnected]

/-- A step makes calls that it warrants, and writes no command line under a pause. -/
theorem makes_step (session : Session) (taken : Step) :
    ∃ calls lines, session.Makes calls lines (session.step taken) ∧
      (∀ call ∈ calls, session.Warrants taken.request? call) ∧
      (session.queue.paused = true → lines = []) := by
  cases taken with
  | request request =>
    obtain ⟨calls, made, warranted⟩ := makes_serve session request
    exact ⟨calls, [], made, warranted, fun _ => rfl⟩
  | receive now received =>
    obtain ⟨calls, made, settle⟩ := makes_receive session now received
    exact ⟨calls, [], made, fun call member => warrants_of_settles (settle call member),
      fun _ => rfl⟩
  | poll now refusal =>
    obtain ⟨calls, made, settle⟩ := makes_poll session now refusal
    exact ⟨calls, [], made, fun call member => warrants_of_settles (settle call member),
      fun _ => rfl⟩
  | send checked expired now refusal =>
    obtain ⟨ended, looked, settle⟩ := exists_makes_expire session checked expired
    obtain ⟨calls, lines, made, warranted, silent⟩ :=
      makes_sendNext (session.expire checked expired) now refusal
    refine ⟨_, _, looked.trans made, ?_, fun held => ?_⟩
    · intro call member
      rcases List.mem_append.mp member with first | later
      · exact warrants_of_settles (settle call first)
      · exact warrants_congr (link_expire checked expired) (warranted call later)
    · have still := looked.paused held fun call member =>
        Queue.Call.ne_resume_of_settles (settle call member)
      exact silent still

/-- A step that is no resumption keeps a pause and writes no command line under it. -/
theorem paused_step (held : session.queue.paused = true) {taken : Step}
    (other : taken ≠ .request .resume) :
    (session.step taken).queue.paused = true ∧
      (session.step taken).commandLines = session.commandLines := by
  obtain ⟨calls, lines, made, warranted, silent⟩ := makes_step session taken
  refine ⟨made.paused held fun call member resumed => ?_, ?_⟩
  · have asked := warranted call member
    rw [resumed] at asked
    cases taken with
    | request request => exact other (congrArg Step.request (Option.some.inj asked))
    | receive now received => cases asked
    | send checked expired now refusal => cases asked
    | poll now refusal => cases asked
  · rw [made.lines, silent held, List.append_nil]

/-- Steps without a resumption keep a pause and write no command line under it. -/
theorem paused_foldl (held : session.queue.paused = true) {steps : List Step}
    (others : .request .resume ∉ steps) :
    (steps.foldl step session).queue.paused = true ∧
      (steps.foldl step session).commandLines = session.commandLines := by
  induction steps generalizing session with
  | nil => exact ⟨held, rfl⟩
  | cons taken steps ih =>
    obtain ⟨other, later⟩ := not_or.mp (mt List.mem_cons.mpr others)
    obtain ⟨still, same⟩ := paused_step held (Ne.symm other)
    obtain ⟨last, kept⟩ := ih still later
    exact ⟨last, kept.trans same⟩

/-- While the loops do not run, a step takes no command out. -/
theorem idle_step (idle : session.queue.inFlight = none) (stopped : session.running = false)
    (taken : Step) : (session.step taken).queue.inFlight = none := by
  obtain ⟨calls, lines, made, warranted, _⟩ := makes_step session taken
  refine made.inFlight idle fun call member => ?_
  have asked := warranted call member
  cases call with
  | dequeue now => exact absurd (stopped.symm.trans asked.2) (by decide)
  | _ => rfl

/-- While the link is not open, a step takes no command in. -/
theorem empty_step (empty : session.queue.pending = []) (apart : session.isConnected = false)
    (taken : Step) : (session.step taken).queue.pending = [] := by
  obtain ⟨calls, lines, made, warranted, _⟩ := makes_step session taken
  refine made.pending empty fun call member => ?_
  have asked := warranted call member
  cases call with
  | enqueue text => exact absurd (apart.symm.trans asked) (by decide)
  | enqueueBatch texts => exact absurd (apart.symm.trans asked) (by decide)
  | _ => rfl

/-! ## What a step does to the link -/

theorem isConnected_iff : session.isConnected = true ↔ session.linkState = .connected := by
  unfold isConnected
  exact beq_iff_eq

theorem isConnected_congr (same : next.link = session.link) :
    next.isConnected = session.isConnected := congrArg (·.1 == LinkState.connected) same

theorem running_congr (same : next.link = session.link) : next.running = session.running :=
  congrArg Prod.snd same

/-- The session has ended: nothing is on its way, and the commands that wait are held. -/
structure Closed (session : Session) : Prop where
  /-- The link is not open. -/
  apart : session.isConnected = false
  /-- The loops do not run. -/
  stopped : session.running = false
  /-- No command is on its way. -/
  idle : session.queue.inFlight = none
  /-- The commands that wait are held. -/
  held : session.queue.Held

/-- What one step can do to the link. -/
inductive Passes (session next : Session) : Prop where
  /-- Nothing. -/
  | stays (same : next.link = session.link)
  /-- It opens the link. -/
  | opens (link : next.link = (.connected, true))
  /-- The link, which is not open, refuses to open. -/
  | refuses (apart : session.isConnected = false) (link : next.link = (.error, false))
  /-- It ends the session. -/
  | ends (closed : next.Closed)

/-- A failure while the loops run ends the session. -/
theorem closed_failLink (running : session.running = true) (now : Int) (fault : SessionFault) :
    (session.failLink now fault).Closed := by
  have ended : (session.failLink now fault).link = (.error, false) := by
    unfold failLink
    rw [if_pos running, link_announce, link_holdPending, link_settleQueue]
    rfl
  have queue : (session.failLink now fault).queue =
      (session.queue.failSend now fault.message).2.pauseIfPending.2 := by
    simp [failLink, running, holdPending, announce]
  refine ⟨congrArg (·.1 == LinkState.connected) ended, congrArg Prod.snd ended, ?_, ?_⟩
  · rw [queue, Queue.inFlight_pauseIfPending, Queue.inFlight_failSend]
  · rw [queue]
    exact Queue.held_pauseIfPending _

/-- A failure ends the session or changes nothing. -/
theorem passes_failLink (session : Session) (now : Int) (fault : SessionFault) :
    session.Passes (session.failLink now fault) := by
  by_cases running : session.running = true
  · exact .ends (closed_failLink running now fault)
  · have same : session.failLink now fault = session :=
      failLink_of_not_running (Bool.eq_false_iff.mpr running)
    exact .stays (by rw [same])

/-- Closing the link ends the session. -/
theorem closed_disconnect (session : Session) (now : Int) : (session.disconnect now).Closed := by
  have queue : (session.disconnect now).queue =
      (session.queue.failSend now (ascii "Disconnected")).2.pauseIfPending.2 := by
    unfold disconnect
    dsimp only
    split <;> simp [holdPending, announce]
  have stopped : (({ session with running := false } : Session).settleQueue now
      (session.queue.failSend now (ascii "Disconnected"))).holdPending.link =
        (session.linkState, false) := by
    rw [link_holdPending, link_settleQueue]
    rfl
  have ended : (session.disconnect now).link = (.disconnected, false) := by
    unfold disconnect
    dsimp only
    split
    · next already => exact stopped.trans (congrArg (·, false) already)
    · exact congrArg (LinkState.disconnected, ·) (congrArg Prod.snd stopped)
  refine ⟨congrArg (·.1 == LinkState.connected) ended, congrArg Prod.snd ended, ?_, ?_⟩
  · rw [queue, Queue.inFlight_pauseIfPending, Queue.inFlight_failSend]
  · rw [queue]
    exact Queue.held_pauseIfPending _

/-- What follows a step that leaves the link as it is passes as after the step. -/
theorem Passes.after {middle : Session} (passes : middle.Passes next)
    (same : middle.link = session.link) : session.Passes next := by
  cases passes with
  | stays still => exact .stays (still.trans same)
  | opens link => exact .opens link
  | refuses apart link => exact .refuses ((isConnected_congr same).symm.trans apart) link
  | ends closed => exact .ends closed

/-- A request leaves the link as it is, opens it, meets its refusal or ends the session. -/
theorem passes_serve (session : Session) (request : Request) :
    session.Passes (session.serve request) := by
  cases request with
  | connect refusal =>
    show session.Passes (session.connect refusal).2
    unfold connect
    split
    · exact .stays rfl
    · next apart =>
      split
      · exact .stays rfl
      · split
        · exact .stays rfl
        · split
          · exact .refuses (Bool.eq_false_iff.mpr apart) rfl
          · exact .opens rfl
  | disconnect now => exact .ends (closed_disconnect session now)
  | realtime now command refusal =>
    show session.Passes (session.sendRealtime now command refusal).2
    unfold sendRealtime
    split
    · exact .stays rfl
    · split
      · exact passes_failLink session now _
      · exact .stays rfl
  | command command =>
    refine .stays ?_
    show (session.sendCommand command).2.link = session.link
    unfold sendCommand
    split
    · rfl
    · exact link_takeQueue _
  | program now segments =>
    refine .stays ?_
    show (session.sendProgram now segments).2.link = session.link
    unfold sendProgram
    split
    · rfl
    · dsimp only
      split
      · exact link_takeQueue _
      · exact link_takeQueue (session.queue.enqueueBatch (printPath segments))
  | pause => exact .stays rfl
  | resume => exact .stays rfl
  | clear now => exact .stays rfl

/-- Writing a command leaves the link as it is or ends the session. -/
theorem passes_writeCommand (session : Session) (now : Int) (command : SentCommand)
    (refusal : Option Bytes) : session.Passes (session.writeCommand now command refusal) := by
  cases refusal with
  | none => exact .stays rfl
  | some reason => exact (passes_failLink _ now _).after (link_settleQueue now _)

/-- A step leaves the link as it is, opens it, meets its refusal or ends the session. -/
theorem passes_step (session : Session) (taken : Step) :
    session.Passes (session.step taken) := by
  cases taken with
  | request request => exact passes_serve session request
  | receive now received =>
    show session.Passes (session.receive now received)
    unfold receive
    split
    · exact .stays rfl
    · cases received with
      | line text => exact .stays (link_handleLine now text)
      | closed => exact passes_failLink session now _
      | failed reason => exact passes_failLink session now _
  | send checked expired now refusal =>
    show session.Passes ((session.expire checked expired).sendNext now refusal)
    have looked : (session.expire checked expired).link = session.link :=
      link_expire checked expired
    have taken : ((session.expire checked expired).takeCommand now).2.link =
        (session.expire checked expired).link := link_takeCommand now
    unfold sendNext
    split
    · next command next step =>
      rw [step] at taken
      exact (passes_writeCommand next now command refusal).after (taken.trans looked)
    · next next step =>
      rw [step] at taken
      exact .stays (taken.trans looked)
  | poll now refusal =>
    show session.Passes (session.poll now refusal)
    unfold poll
    split
    · exact .stays rfl
    · cases refusal with
      | none => exact .stays rfl
      | some reason => exact passes_failLink session now _

/-! ## The invariant -/

/-- The loops run while the link is open, and only then a command is on its way. -/
structure Sound (session : Session) : Prop where
  /-- The loops run while the link is open. -/
  running : session.running = session.isConnected
  /-- A command is on its way only while the link is open. -/
  idle : session.isConnected = false → session.queue.inFlight = none

/-- Every step keeps the invariant. -/
theorem Sound.step (sound : session.Sound) (taken : Step) : (session.step taken).Sound := by
  cases passes_step session taken with
  | stays same =>
    have connected := isConnected_congr same
    refine ⟨(running_congr same).trans (sound.running.trans connected.symm), fun apart => ?_⟩
    rw [connected] at apart
    exact idle_step (sound.idle apart) (sound.running.trans apart) taken
  | opens link =>
    have connected : (session.step taken).isConnected = true :=
      congrArg (·.1 == LinkState.connected) link
    have running : (session.step taken).running = true := congrArg Prod.snd link
    exact ⟨running.trans connected.symm, fun apart => by rw [connected] at apart; cases apart⟩
  | refuses apart link =>
    have closed : (session.step taken).isConnected = false :=
      congrArg (·.1 == LinkState.connected) link
    have stopped : (session.step taken).running = false := congrArg Prod.snd link
    exact ⟨stopped.trans closed.symm, fun _ =>
      idle_step (sound.idle apart) (sound.running.trans apart) taken⟩
  | ends closed =>
    exact ⟨closed.stopped.trans closed.apart.symm, fun _ => closed.idle⟩

variable (settings : SessionSettings) (transport : Option Bytes)

/-- The last step is taken by the session after those before it. -/
theorem after_append_singleton (steps : List Step) (last : Step) :
    after settings transport (steps ++ [last]) = (after settings transport steps).step last := by
  rw [after, List.foldl_append]
  rfl

/-- Later steps are taken by the session after those before them. -/
theorem after_append_cons (before later : List Step) (last : Step) :
    after settings transport (before ++ last :: later) =
      later.foldl step (after settings transport (before ++ [last])) := by
  rw [List.append_cons, after, after, List.foldl_append]

/-- A new session has nothing on its way and nothing that waits. -/
theorem empty_create : (create settings transport).queue.pending = [] ∧
    (create settings transport).queue.inFlight = none := by
  unfold create Queue.create
  dsimp only
  split <;> exact ⟨rfl, rfl⟩

/-- The invariant holds after any steps of a new session. -/
theorem sound_after (steps : List Step) : (after settings transport steps).Sound := by
  induction steps using List.reverseRecOn with
  | nil => exact ⟨rfl, fun _ => (empty_create settings transport).2⟩
  | append_singleton steps last ih =>
    rw [after_append_singleton]
    exact ih.step last

/-! ## Endings -/

/-- A step that ends a session holds the commands that wait. -/
theorem held_of_endedBy {taken : Step} (ended : session.EndedBy taken) :
    (session.step taken).queue.Held := by
  rcases ended with ⟨connected, apart⟩ | ⟨now, rfl⟩
  · rw [← isConnected_iff] at connected
    rw [Ne, ← isConnected_iff, Bool.not_eq_true] at apart
    cases passes_step session taken with
    | stays same =>
      rw [isConnected_congr same, connected] at apart
      cases apart
    | opens link =>
      rw [show (session.step taken).isConnected = true from
        congrArg (·.1 == LinkState.connected) link] at apart
      cases apart
    | refuses closed _ =>
      rw [connected] at closed
      cases closed
    | ends closed => exact closed.held
  · exact (closed_disconnect session now).held

/-- After an ending that leaves commands waiting nothing is written before a resumption. -/
theorem silent_after_ending {before later : List Step} {last : Step}
    (ended : (after settings transport before).EndedBy last)
    (waiting : (after settings transport (before ++ [last])).queue.pending ≠ [])
    (others : .request .resume ∉ later) :
    (after settings transport (before ++ last :: later)).queue.paused = true ∧
      (after settings transport (before ++ last :: later)).commandLines =
        (after settings transport (before ++ [last])).commandLines := by
  have held := held_of_endedBy ended
  rw [← after_append_singleton] at held
  rw [after_append_cons]
  exact paused_foldl (held.resolve_left waiting) others

/-- Where commands wait while the link is not open, a session has ended, no other has begun
since, and the queue is paused unless it was resumed since. -/
theorem exists_ending (steps : List Step)
    (apart : (after settings transport steps).linkState ≠ .connected)
    (waiting : (after settings transport steps).queue.pending ≠ []) :
    ∃ before last later, steps = before ++ last :: later ∧
      (after settings transport before).linkState = .connected ∧
      (∀ more, more <+: later →
        (after settings transport (before ++ last :: more)).linkState ≠ .connected) ∧
      (.request .resume ∉ later → (after settings transport steps).queue.paused = true) := by
  induction steps using List.reverseRecOn with
  | nil => exact absurd (empty_create settings transport).1 waiting
  | append_singleton steps last ih =>
    by_cases connected : (after settings transport steps).linkState = .connected
    · -- The last step is the ending.
      refine ⟨steps, last, [], rfl, connected, ?_, fun _ => ?_⟩
      · intro more front
        rw [List.prefix_nil.mp front]
        exact apart
      · have ended : (after settings transport steps).EndedBy last :=
          .inl ⟨connected, by rw [← after_append_singleton]; exact apart⟩
        have held := held_of_endedBy ended
        rw [← after_append_singleton] at held
        exact held.resolve_left waiting
    · -- The link was not open before the last step, so commands were waiting then.
      have before : (after settings transport steps).isConnected = false := by
        rw [← Bool.not_eq_true, isConnected_iff]
        exact connected
      have full : (after settings transport steps).queue.pending ≠ [] := fun empty => by
        rw [after_append_singleton] at waiting
        exact waiting (empty_step empty before last)
      obtain ⟨front, ending, later, rfl, opened, since, held⟩ := ih connected full
      refine ⟨front, ending, later ++ [last], by simp, opened, ?_, fun others => ?_⟩
      · intro more initial
        rcases List.prefix_concat_iff.mp initial with rfl | initial
        · simpa using apart
        · exact since more initial
      · obtain ⟨early, final⟩ := not_or.mp (mt List.mem_append.mpr others)
        rw [after_append_singleton]
        exact (paused_step (held early) fun resumed => final (by simp [resumed])).1

/-- Whatever steps a new session takes, a command is on its way only while the link is open,
and the loops run exactly then. Where commands wait while the link is not open, the queue is
paused unless it was resumed since the last session ended. And after a step that ends a session
or closes the link, with commands that wait, no command line is written by any steps without a
resumption. -/
theorem held_until_resumed (steps : List Step) :
    ((after settings transport steps).queue.inFlight ≠ none →
        (after settings transport steps).linkState = .connected) ∧
      ((after settings transport steps).running = true ↔
        (after settings transport steps).linkState = .connected) ∧
      ((after settings transport steps).linkState ≠ .connected →
        (after settings transport steps).queue.pending ≠ [] →
        ∃ before last later, steps = before ++ last :: later ∧
          (after settings transport before).linkState = .connected ∧
          (∀ more, more <+: later →
            (after settings transport (before ++ last :: more)).linkState ≠ .connected) ∧
          (.request .resume ∉ later → (after settings transport steps).queue.paused = true)) ∧
      ∀ before last later, steps = before ++ last :: later →
        (after settings transport before).EndedBy last →
        (after settings transport (before ++ [last])).queue.pending ≠ [] →
        .request .resume ∉ later →
        (after settings transport steps).commandLines =
          (after settings transport (before ++ [last])).commandLines := by
  have sound := sound_after settings transport steps
  refine ⟨fun way => ?_, ?_, exists_ending settings transport steps, ?_⟩
  · rw [← isConnected_iff, ← Bool.not_eq_false]
    exact fun apart => way (sound.idle apart)
  · rw [sound.running, isConnected_iff]
  · rintro before last later rfl ended waiting others
    exact (silent_after_ending settings transport ended waiting others).2

end Session

end GcodeSender
