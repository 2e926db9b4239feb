import GcodeSender.Link.Stream

/-!
# Lines however a stream is cut

A stream is a list of runs, each closed by a line feed, and a tail that none closes
(`Framed`). Reads cut it anywhere and may fall silent anywhere. A read ends in one of four ways
(`LineBuffer.Ends`), and each of them keeps the account of what is buffered and what has not
arrived. It follows that a stream of short runs gives exactly its lines, in order, whatever the
cuts.
-/
namespace GcodeSender

/-- The text of a line that was read. -/
def ReadOutcome.text? : ReadOutcome → Option Bytes
  | .line text => some text
  | _ => none

/-- A stream is closed runs and then a tail. -/
structure Framed (stream : Bytes) (runs : List Bytes) (tail : Bytes) : Prop where
  /-- A line feed closes each run. -/
  joined : stream = runs.flatMap (· ++ [Byte.newline]) ++ tail
  /-- No run holds a line feed. -/
  runs : ∀ run ∈ runs, Byte.newline ∉ run
  /-- The tail holds none. -/
  tail : Byte.newline ∉ tail

namespace Framed

variable {stream later run dropped tail : Bytes} {runs : List Bytes}

/-- A stream without a line feed has no closed run. -/
theorem runs_eq_nil (framed : Framed stream runs tail) (bare : Byte.newline ∉ stream) :
    runs = [] := by
  cases runs with
  | nil => rfl
  | cons run others =>
    rw [framed.joined] at bare
    simp at bare

/-- What comes before the first line feed is the first run. -/
theorem of_first (framed : Framed stream runs tail) (clean : Byte.newline ∉ run)
    (first : stream = run ++ Byte.newline :: later) :
    ∃ others, runs = run :: others ∧ Framed later others tail := by
  cases runs with
  | nil =>
    have bare := framed.tail
    rw [← show stream = tail by simpa using framed.joined, first] at bare
    simp at bare
  | cons head others =>
    have split : stream = head ++ Byte.newline ::
        (others.flatMap (· ++ [Byte.newline]) ++ tail) := by
      simpa using framed.joined
    have once := cut?_eq_some.mpr ⟨first, clean⟩
    rw [cut?_eq_some.mpr ⟨split, framed.runs head List.mem_cons_self⟩] at once
    obtain ⟨rfl, rfl⟩ := Prod.mk.inj (Option.some.inj once)
    exact ⟨others, rfl, rfl, fun run member => framed.runs run (List.mem_cons_of_mem _ member),
      framed.tail⟩

/-- A front of the stream without a line feed is no longer than the first run or the tail. -/
theorem length_front_le (framed : Framed stream runs tail) {bound : Nat}
    (short : ∀ run ∈ runs, run.length ≤ bound) (brief : tail.length ≤ bound)
    (clean : Byte.newline ∉ dropped) (front : stream = dropped ++ later) :
    dropped.length ≤ bound := by
  have joined := front.symm.trans framed.joined
  cases runs with
  | nil =>
    have whole := congrArg List.length joined
    simp only [List.flatMap_nil, List.nil_append, List.length_append] at whole
    omega
  | cons run others =>
    have bounded := short run List.mem_cons_self
    rw [List.flatMap_cons, List.append_assoc, List.append_assoc, List.singleton_append,
      List.append_eq_append_iff] at joined
    rcases joined with ⟨rest, inside, _⟩ | ⟨rest, whole, feed⟩
    · rw [inside, List.length_append] at bounded
      omega
    · cases rest with
      | nil =>
        rw [whole, List.append_nil]
        exact bounded
      | cons c rest =>
        -- The line feed of the run would stand in the front.
        rw [whole, ← (List.cons.inj feed).1] at clean
        simp at clean

end Framed

namespace LineBuffer

/-! ## How a read ends -/

/-- The bytes that arrive before the stream ends. -/
def arriving : List Arrival → Bytes
  | [] => []
  | .bytes chunk :: later => chunk ++ arriving later
  | .silence :: later => arriving later
  | .ended :: _ => []

/-- How often a stream falls silent. -/
def silences (arrivals : List Arrival) : Nat := arrivals.count .silence

@[simp] theorem silences_silence (later : List Arrival) :
    silences (.silence :: later) = silences later + 1 := by simp [silences]

@[simp] theorem silences_bytes (chunk : Bytes) (later : List Arrival) :
    silences (.bytes chunk :: later) = silences later := by simp [silences]

/-- How a read can end, with the buffer and the arrivals that it leaves. -/
inductive Ends (buffer : Bytes) (arrivals : List Arrival) :
    ReadOutcome × Bytes × List Arrival → Prop
  /-- With the first line. -/
  | line {run rest : Bytes} {later : List Arrival} (clean : Byte.newline ∉ run)
      (stream : buffer ++ arriving arrivals = run ++ Byte.newline :: (rest ++ arriving later))
      (left : later <:+ arrivals) (quiet : silences later ≤ silences arrivals) :
      Ends buffer arrivals (.line (stripReturn run), rest, later)
  /-- In silence. -/
  | timeout {kept : Bytes} {later : List Arrival} (clean : Byte.newline ∉ kept)
      (stream : buffer ++ arriving arrivals = kept ++ arriving later)
      (left : later <:+ arrivals) (spent : later = [] ∨ silences later < silences arrivals) :
      Ends buffer arrivals (.timeout, kept, later)
  /-- At the end of the stream. -/
  | closed {kept : Bytes} {later : List Arrival} (clean : Byte.newline ∉ kept)
      (stream : buffer ++ arriving arrivals = kept ++ arriving later)
      (left : later <:+ arrivals) (spent : arriving later = []) :
      Ends buffer arrivals (.closed, kept, later)
  /-- With more bytes than are kept. -/
  | lineTooLong {dropped : Bytes} {later : List Arrival} (clean : Byte.newline ∉ dropped)
      (stream : buffer ++ arriving arrivals = dropped ++ arriving later)
      (left : later <:+ arrivals) (long : limit < dropped.length) :
      Ends buffer arrivals (.lineTooLong, [], later)

variable {buffer text rest : Bytes} {arrivals : List Arrival}

/-- A line is taken exactly up to the first line feed. -/
theorem takeLine?_eq_some : takeLine? buffer = some (text, rest) ↔
    ∃ run, buffer = run ++ Byte.newline :: rest ∧ Byte.newline ∉ run ∧ stripReturn run = text := by
  simp only [takeLine?, Option.map_eq_some_iff, Prod.exists, Prod.mk.injEq]
  constructor
  · rintro ⟨run, after, found, rfl, rfl⟩
    obtain ⟨split, clean⟩ := cut?_eq_some.mp found
    exact ⟨run, split, clean, rfl⟩
  · rintro ⟨run, split, clean, rfl⟩
    exact ⟨run, rest, cut?_eq_some.mpr ⟨split, clean⟩, rfl, rfl⟩

/-- No line is taken exactly where there is no line feed. -/
theorem takeLine?_eq_none : takeLine? buffer = none ↔ Byte.newline ∉ buffer := by
  constructor
  · intro bare member
    obtain ⟨run, after, split, clean⟩ := List.eq_append_cons_of_mem member
    have taken := takeLine?_eq_some.mpr ⟨run, split, clean, rfl⟩
    rw [bare] at taken
    cases taken
  · intro bare
    cases found : takeLine? buffer with
    | none => rfl
    | some taken =>
      obtain ⟨run, split, _, _⟩ := takeLine?_eq_some.mp found
      rw [split] at bare
      simp at bare

/-- What a read can do with another piece in the buffer, it can do with the piece to come. -/
theorem Ends.of_bytes {chunk : Bytes} {ending : ReadOutcome × Bytes × List Arrival}
    (ends : Ends (buffer ++ chunk) arrivals ending) :
    Ends buffer (.bytes chunk :: arrivals) ending := by
  have moved : buffer ++ arriving (.bytes chunk :: arrivals) =
      buffer ++ chunk ++ arriving arrivals := (List.append_assoc _ _ _).symm
  have quiet := silences_bytes chunk arrivals
  cases ends with
  | line clean stream left less =>
    exact .line clean (moved.trans stream) (left.trans (List.suffix_cons _ _)) (quiet ▸ less)
  | timeout clean stream left spent =>
    exact .timeout clean (moved.trans stream) (left.trans (List.suffix_cons _ _)) (quiet ▸ spent)
  | closed clean stream left spent =>
    exact .closed clean (moved.trans stream) (left.trans (List.suffix_cons _ _)) spent
  | lineTooLong clean stream left long =>
    exact .lineTooLong clean (moved.trans stream) (left.trans (List.suffix_cons _ _)) long

/-- Waiting for a line ends in one of the four ways. -/
theorem ends_await (bare : Byte.newline ∉ buffer) (arrivals : List Arrival) :
    Ends buffer arrivals (await buffer arrivals) := by
  induction arrivals generalizing buffer with
  | nil => exact .timeout bare rfl List.suffix_rfl (.inl rfl)
  | cons arrival later ih =>
    cases arrival with
    | silence =>
      exact .timeout bare rfl (List.suffix_cons _ _) (.inr (by simp))
    | ended => exact .closed bare rfl List.suffix_rfl rfl
    | bytes chunk =>
      refine .of_bytes ?_
      unfold await
      dsimp only
      cases taken : takeLine? (buffer ++ chunk) with
      | some found =>
        obtain ⟨text, rest⟩ := found
        obtain ⟨run, split, clean, rfl⟩ := takeLine?_eq_some.mp taken
        exact .line clean (by rw [split]; simp) List.suffix_rfl (Nat.le_refl _)
      | none =>
        have still := takeLine?_eq_none.mp taken
        dsimp only
        split
        · next long => exact .lineTooLong still rfl List.suffix_rfl long
        · exact ih still

/-- A read ends in one of the four ways. -/
theorem ends_read (buffer : Bytes) (arrivals : List Arrival) :
    Ends buffer arrivals (read buffer arrivals) := by
  unfold read
  cases taken : takeLine? buffer with
  | some found =>
    obtain ⟨text, rest⟩ := found
    obtain ⟨run, split, clean, rfl⟩ := takeLine?_eq_some.mp taken
    exact .line clean (by rw [split]; simp) List.suffix_rfl (Nat.le_refl _)
  | none => exact ends_await (takeLine?_eq_none.mp taken) arrivals

/-- A read leaves a later part of the arrivals. -/
theorem Ends.suffix {outcome : ReadOutcome} {kept : Bytes} {later : List Arrival}
    (ends : Ends buffer arrivals (outcome, kept, later)) : later <:+ arrivals := by
  cases ends <;> assumption

/-- A read of a stream of short runs gives the first of them, or ends in silence or at the end
of the stream and leaves the stream as it is. -/
theorem Ends.of_framed {outcome : ReadOutcome} {kept tail : Bytes} {later : List Arrival}
    {runs : List Bytes} (ends : Ends buffer arrivals (outcome, kept, later))
    (framed : Framed (buffer ++ arriving arrivals) runs tail)
    (short : ∀ run ∈ runs, run.length ≤ limit) (brief : tail.length ≤ limit) :
    outcome ≠ .lineTooLong ∧ ∃ read others, runs = read ++ others ∧
      outcome.text?.toList = read.map stripReturn ∧
      Framed (kept ++ arriving later) others tail ∧ (outcome = .closed → others = []) ∧
      (others = [] ∨ others.length + silences later < runs.length + silences arrivals) := by
  cases ends with
  | line clean stream left quiet =>
    rename_i run
    obtain ⟨others, rfl, rest⟩ := framed.of_first clean stream
    refine ⟨by simp, [run], others, rfl, rfl, rest, by simp, .inr ?_⟩
    rw [List.length_cons]
    omega
  | timeout clean stream left spent =>
    rw [stream] at framed
    refine ⟨by simp, [], runs, rfl, rfl, framed, by simp, ?_⟩
    rcases spent with rfl | less
    · exact .inl (framed.runs_eq_nil (by simpa [arriving] using clean))
    · exact .inr (by omega)
  | closed clean stream left spent =>
    rw [stream] at framed
    have none : runs = [] := framed.runs_eq_nil (by simpa [spent] using clean)
    exact ⟨by simp, [], runs, rfl, rfl, framed, fun _ => none, .inl none⟩
  | lineTooLong clean stream left long =>
    have bounded := framed.length_front_le short brief clean stream
    exact absurd long (Nat.not_lt.mpr bounded)

end LineBuffer

/-- An open link reads from its buffer and stays open. -/
theorem StreamLink.exists_readLine_of_isOpen {link : StreamLink} (opened : link.isOpen = true)
    (arrivals : List Arrival) : ∃ last : StreamLink,
      link.readLine arrivals = ((LineBuffer.read link.buffer arrivals).1, last,
        (LineBuffer.read link.buffer arrivals).2.2) ∧
      last.isOpen = true ∧ last.buffer = (LineBuffer.read link.buffer arrivals).2.1 := by
  unfold readLine
  rw [if_pos opened]
  obtain ⟨outcome, buffer, later⟩ := LineBuffer.read link.buffer arrivals
  by_cases long : outcome = .lineTooLong
  · exact ⟨_, rfl, by simp [long, fail, opened], by simp [long, fail]⟩
  · exact ⟨_, rfl, by simp [long, opened], by simp [long]⟩

/-! ## One read after the other -/

/-- Reads of a link: how they ended, and what they leave. -/
structure Readings where
  /-- How they ended, the first one first. -/
  outcomes : List ReadOutcome := []
  /-- The link after them. -/
  link : StreamLink
  /-- What has not arrived yet. -/
  later : List Arrival

namespace Readings

open LineBuffer

/-- One more read. -/
def next (readings : Readings) : Readings :=
  let (outcome, link, later) := readings.link.readLine readings.later
  ⟨readings.outcomes ++ [outcome], link, later⟩

/-- So many more reads. -/
def after (readings : Readings) : Nat → Readings
  | 0 => readings
  | calls + 1 => readings.next.after calls

/-- The texts of the lines that were read. -/
def texts (readings : Readings) : List Bytes := readings.outcomes.filterMap ReadOutcome.text?

/-- The bytes that were not read as lines: those buffered, and those that arrive. -/
def unread (readings : Readings) : Bytes := readings.link.buffer ++ arriving readings.later

variable {readings : Readings} {runs : List Bytes} {tail : Bytes}

/-- One more read of an open link is a read of its buffer, and leaves it open. -/
theorem next_of_isOpen (opened : readings.link.isOpen = true) :
    readings.next.outcomes = readings.outcomes ++
        [(LineBuffer.read readings.link.buffer readings.later).1] ∧
      readings.next.link.isOpen = true ∧
      readings.next.link.buffer = (LineBuffer.read readings.link.buffer readings.later).2.1 ∧
      readings.next.later = (LineBuffer.read readings.link.buffer readings.later).2.2 := by
  obtain ⟨last, made, still, buffer⟩ :=
    StreamLink.exists_readLine_of_isOpen opened readings.later
  rw [next, made]
  exact ⟨rfl, still, buffer, rfl⟩

/-- One more read of an open link ends in one of the four ways. -/
theorem exists_ends_next (opened : readings.link.isOpen = true) : ∃ outcome,
    readings.next.outcomes = readings.outcomes ++ [outcome] ∧
      readings.next.link.isOpen = true ∧
      Ends readings.link.buffer readings.later
        (outcome, readings.next.link.buffer, readings.next.later) := by
  obtain ⟨outcomes, still, buffer, later⟩ := next_of_isOpen opened
  refine ⟨_, outcomes, still, ?_⟩
  rw [buffer, later]
  exact ends_read readings.link.buffer readings.later

/-- One more outcome gives one more line, if it is one. -/
theorem texts_next {outcome : ReadOutcome}
    (outcomes : readings.next.outcomes = readings.outcomes ++ [outcome]) :
    readings.next.texts = readings.texts ++ outcome.text?.toList := by
  cases text : outcome.text? <;> simp [texts, outcomes, text]

/-- Reads add to the outcomes before them. -/
theorem exists_outcomes_after (readings : Readings) (calls : Nat) :
    ∃ more, more.length = calls ∧
      (readings.after calls).outcomes = readings.outcomes ++ more := by
  induction calls generalizing readings with
  | zero => exact ⟨[], rfl, (List.append_nil _).symm⟩
  | succ calls ih =>
    obtain ⟨more, count, outcomes⟩ := ih readings.next
    refine ⟨(readings.link.readLine readings.later).1 :: more, by simp [count], ?_⟩
    rw [after, outcomes, next, List.append_assoc]
    rfl

/-! ## Short runs -/

/-- Reads of short runs so far: some runs were read as lines, and the others are unread. -/
structure OnCourse (runs : List Bytes) (tail : Bytes) (budget : Nat) (readings : Readings) :
    Prop where
  /-- The link is open. -/
  opened : readings.link.isOpen = true
  /-- Nothing was too long. -/
  accepted : .lineTooLong ∉ readings.outcomes
  /-- What was read and what is unread are the runs, and nothing was lost on the way. -/
  account : ∃ read others, runs = read ++ others ∧ readings.texts = read.map stripReturn ∧
    Framed readings.unread others tail ∧ (.closed ∈ readings.outcomes → others = []) ∧
    (others = [] ∨
      others.length + silences readings.later + readings.outcomes.length ≤ budget)

variable {budget : Nat}

/-- One more read stays on course. -/
theorem OnCourse.next (course : OnCourse runs tail budget readings)
    (short : ∀ run ∈ runs, run.length ≤ limit) (brief : tail.length ≤ limit) :
    OnCourse runs tail budget readings.next := by
  obtain ⟨read, others, split, texts, framed, closed, pace⟩ := course.account
  obtain ⟨outcome, outcomes, opened, ends⟩ := exists_ends_next course.opened
  have shorter : ∀ run ∈ others, run.length ≤ limit := fun run member =>
    short run (split ▸ List.mem_append_right read member)
  obtain ⟨other, more, rest, parted, text, left, spent, faster⟩ :=
    ends.of_framed framed shorter brief
  refine ⟨opened, ?_, read ++ more, rest, ?_, ?_, left, ?_, ?_⟩
  · rw [outcomes, List.mem_append, List.mem_singleton]
    exact fun member => member.elim course.accepted fun same => other same.symm
  · rw [split, parted, List.append_assoc]
  · rw [texts_next outcomes, texts, text, List.map_append]
  · rw [outcomes, List.mem_append, List.mem_singleton]
    rintro (before | now)
    · exact (List.append_eq_nil_iff.mp (parted.symm.trans (closed before))).2
    · exact spent now.symm
  · have count : readings.next.outcomes.length = readings.outcomes.length + 1 := by
      rw [outcomes, List.length_append, List.length_singleton]
    rcases faster with none | less
    · exact .inl none
    · rcases pace with none | within
      · exact .inl (List.append_eq_nil_iff.mp (parted.symm.trans none)).2
      · exact .inr (by omega)

/-- Many reads stay on course. -/
theorem OnCourse.after (course : OnCourse runs tail budget readings)
    (short : ∀ run ∈ runs, run.length ≤ limit) (brief : tail.length ≤ limit) (calls : Nat) :
    OnCourse runs tail budget (readings.after calls) := by
  induction calls generalizing readings with
  | zero => exact course
  | succ calls ih => exact ih (course.next short brief)

/-- However a stream of short runs is cut and wherever it falls silent, reads of it give its
lines in order, each without one carriage return at its end, and leave the other runs and the
tail unread. Nothing is too long. Everything is read when the reads find the stream at its end,
or when there are as many of them as runs and silences. -/
theorem short_runs_read_in_order (link : StreamLink) {arrivals : List Arrival}
    {runs : List Bytes} {tail : Bytes} (framed : Framed (arriving arrivals) runs tail)
    (short : ∀ run ∈ runs, run.length ≤ limit) (brief : tail.length ≤ limit) (calls : Nat) :
    let readings : Readings := { link := link.attach, later := arrivals }
    .lineTooLong ∉ (readings.after calls).outcomes ∧
      ∃ read others, runs = read ++ others ∧
        (readings.after calls).texts = read.map stripReturn ∧
        Framed (readings.after calls).unread others tail ∧
        (.closed ∈ (readings.after calls).outcomes → others = []) ∧
        (runs.length + silences arrivals ≤ calls → others = []) := by
  intro readings
  have start : OnCourse runs tail (runs.length + silences arrivals) readings :=
    ⟨rfl, by simp [readings], [], runs, rfl, rfl, framed, by simp [readings],
      .inr (by simp [readings])⟩
  have course := start.after short brief calls
  obtain ⟨read, others, split, texts, left, closed, pace⟩ := course.account
  refine ⟨course.accepted, read, others, split, texts, left, closed, fun enough => ?_⟩
  rcases pace with none | within
  · exact none
  · obtain ⟨more, count, outcomes⟩ := exists_outcomes_after readings calls
    have used : others.length = 0 := by
      rw [outcomes, List.length_append, count] at within
      omega
    exact List.eq_nil_of_length_eq_zero used

/-- A carriage return and its line feed in two pieces with a silence between them, and a line
that is never closed. -/
theorem short_runs_read_in_order_of_parted_return :
    let arrivals : List Arrival := [.bytes (ascii "ok" ++ [Byte.carriageReturn]), .silence,
      .bytes (Byte.newline :: ascii "<Idle>" ++ Byte.newline :: ascii "err")]
    let runs := [ascii "ok" ++ [Byte.carriageReturn], ascii "<Idle>"]
    Framed (arriving arrivals) runs (ascii "err") ∧ (∀ run ∈ runs, run.length ≤ limit) ∧
      (ascii "err").length ≤ limit ∧
      (({ link := StreamLink.attach {}, later := arrivals } : Readings).after 3).texts =
        [ascii "ok", ascii "<Idle>"] := by
  intro arrivals runs
  have framed : Framed (arriving arrivals) runs (ascii "err") :=
    ⟨by decide, by decide, by decide⟩
  have short : ∀ run ∈ runs, run.length ≤ limit := by decide
  have brief : (ascii "err").length ≤ limit := by decide
  obtain ⟨_, read, others, split, texts, _, _, enough⟩ :=
    short_runs_read_in_order {} framed short brief 3
  obtain rfl : others = [] := enough (by decide)
  refine ⟨framed, short, brief, texts.trans ?_⟩
  rw [← List.append_nil read, ← split]
  decide

end Readings

end GcodeSender
