import GcodeSender.Proofs.Link.Framing

/-!
# Long runs

A stream arrives in pieces, and the limit of a line is tested on what is kept of a run that no
piece has closed yet. So how a long run ends hangs on how the stream is cut. The main statement
says exactly how: a run is refused if more than the limit has come before the piece that closes
it, and is given as a line otherwise, up to the limit and one piece together.
-/
namespace GcodeSender

/-- An arrival that neither closes a run nor ends the stream. -/
def Arrival.Continues : Arrival → Prop
  | .bytes chunk => Byte.newline ∉ chunk
  | .silence => True
  | .ended => False

instance : DecidablePred Arrival.Continues
  | .bytes chunk => inferInstanceAs (Decidable (Byte.newline ∉ chunk))
  | .silence => inferInstanceAs (Decidable True)
  | .ended => inferInstanceAs (Decidable False)

/-- The most bytes that arrive in one piece. -/
def LineBuffer.pieceSize : Nat := 256

/-- A piece is no longer than pieces can be. -/
def Arrival.Fits : Arrival → Prop
  | .bytes chunk => chunk.length ≤ LineBuffer.pieceSize
  | .silence | .ended => True

instance : DecidablePred Arrival.Fits
  | .bytes chunk => inferInstanceAs (Decidable (chunk.length ≤ LineBuffer.pieceSize))
  | .silence | .ended => inferInstanceAs (Decidable True)

namespace LineBuffer

variable {buffer rest : Bytes} {arrivals : List Arrival}

/-! ## A read piece by piece -/

/-- A read without a line in the buffer ends in a silence that comes first. -/
theorem read_silence (bare : Byte.newline ∉ buffer) :
    read buffer (.silence :: arrivals) = (.timeout, buffer, arrivals) := by
  rw [read, takeLine?_eq_none.mpr bare]
  rfl

/-- A piece that closes the run makes it a line, whatever its length. -/
theorem read_closing {front : Bytes} (bare : Byte.newline ∉ buffer)
    (clean : Byte.newline ∉ front) :
    read buffer (.bytes (front ++ Byte.newline :: rest) :: arrivals) =
      (.line (stripReturn (buffer ++ front)), rest, arrivals) := by
  have taken : takeLine? (buffer ++ (front ++ Byte.newline :: rest)) =
      some (stripReturn (buffer ++ front), rest) :=
    takeLine?_eq_some.mpr ⟨_, (List.append_assoc _ _ _).symm,
      fun member => (List.mem_append.mp member).elim bare clean, rfl⟩
  rw [read, takeLine?_eq_none.mpr bare]
  simp only [await, taken]

/-- A piece that does not close the run is kept, if the limit allows it. -/
theorem read_bytes (arrivals : List Arrival) {chunk : Bytes}
    (bare : Byte.newline ∉ buffer ++ chunk) :
    read buffer (.bytes chunk :: arrivals) =
      if limit < (buffer ++ chunk).length then (.lineTooLong, [], arrivals)
      else read (buffer ++ chunk) arrivals := by
  have before : Byte.newline ∉ buffer := fun member => bare (List.mem_append_left _ member)
  rw [read, takeLine?_eq_none.mpr before, read, takeLine?_eq_none.mpr bare]
  simp only [await, takeLine?_eq_none.mpr bare]

/-! ## How long a line can be -/

/-- Stripping makes no line longer. -/
theorem length_stripReturn_le (run : Bytes) : (stripReturn run).length ≤ run.length := by
  unfold stripReturn
  split
  · rw [List.length_dropLast]
    omega
  · exact Nat.le_refl _

/-- What a read gives is shorter than the limit and a piece, and what it keeps is within the
limit. -/
structure Bounded (ending : ReadOutcome × Bytes × List Arrival) : Prop where
  /-- The piece that closes a line brings a line feed, too. -/
  text : ∀ text ∈ ending.1.text?, text.length < limit + pieceSize
  /-- What is kept is within the limit. -/
  kept : ending.2.1.length ≤ limit

/-- Taking a line from what is no longer than the limit and a piece keeps the bounds. -/
theorem bounded_line {run : Bytes} (split : buffer = run ++ Byte.newline :: rest)
    (within : buffer.length ≤ limit + pieceSize) (left : rest.length ≤ limit) :
    Bounded (.line (stripReturn run), rest, arrivals) := by
  refine ⟨fun text given => ?_, left⟩
  obtain rfl : stripReturn run = text := Option.some.inj given
  have shorter := length_stripReturn_le run
  rw [split, List.length_append, List.length_cons] at within
  omega

/-- Ending without a line keeps the bounds. -/
theorem bounded_of_none {outcome : ReadOutcome} {kept : Bytes} (none : outcome.text? = none)
    (within : kept.length ≤ limit) : Bounded (outcome, kept, arrivals) :=
  ⟨fun _ given => absurd (none.symm.trans given) (Option.some_ne_none _).symm, within⟩

/-- A read keeps the bounds where every piece fits. -/
theorem bounded_read (within : buffer.length ≤ limit)
    (fits : ∀ arrival ∈ arrivals, arrival.Fits) : Bounded (read buffer arrivals) := by
  cases taken : takeLine? buffer with
  | some found =>
    obtain ⟨text, rest⟩ := found
    obtain ⟨run, split, clean, rfl⟩ := takeLine?_eq_some.mp taken
    rw [read_of_takeLine? taken]
    have whole := congrArg List.length split
    rw [List.length_append, List.length_cons] at whole
    exact bounded_line split (Nat.le_add_right_of_le within) (by omega)
  | none =>
    have bare := takeLine?_eq_none.mp taken
    clear taken
    induction arrivals generalizing buffer with
    | nil =>
      rw [read, takeLine?_eq_none.mpr bare]
      exact bounded_of_none rfl within
    | cons arrival later ih =>
      have here := fits arrival List.mem_cons_self
      have others : ∀ arrival ∈ later, arrival.Fits := fun other member =>
        fits other (List.mem_cons_of_mem _ member)
      cases arrival with
      | silence =>
        rw [read_silence bare]
        exact bounded_of_none rfl within
      | ended =>
        rw [read, takeLine?_eq_none.mpr bare]
        exact bounded_of_none rfl within
      | bytes chunk =>
        have size : chunk.length ≤ limit := here
        by_cases closes : Byte.newline ∈ chunk
        · obtain ⟨front, rest, rfl, clean⟩ := List.eq_append_cons_of_mem closes
          rw [read_closing bare clean]
          rw [List.length_append, List.length_cons] at size
          have total : (buffer ++ (front ++ Byte.newline :: rest)).length ≤ limit + pieceSize := by
            rw [List.length_append]
            exact Nat.add_le_add within here
          exact bounded_line (List.append_assoc _ _ _).symm total (by omega)
        · have open_ : Byte.newline ∉ buffer ++ chunk :=
            fun member => (List.mem_append.mp member).elim bare closes
          rw [read_bytes _ open_]
          split
          · exact bounded_of_none rfl (Nat.zero_le _)
          · next brief => exact ih (Nat.not_lt.mp brief) others open_

end LineBuffer

namespace Readings

open LineBuffer

variable {readings : Readings} {arrivals : List Arrival}

/-! ## Reads up to the closing piece -/

/-- A piece that is kept might as well have been in the buffer before. -/
theorem next_of_bytes {chunk : Bytes} (readings : Readings)
    (opened : readings.link.isOpen = true)
    (bare : Byte.newline ∉ readings.link.buffer ++ chunk)
    (within : (readings.link.buffer ++ chunk).length ≤ limit)
    (later : readings.later = .bytes chunk :: arrivals) :
    readings.next = ({ readings with
      link := { readings.link with buffer := readings.link.buffer ++ chunk }
      later := arrivals } : Readings).next := by
  have read := read_bytes arrivals bare
  rw [if_neg (Nat.not_lt.mpr within)] at read
  simp only [next, StreamLink.readLine, opened, later, read]
  rfl

/-- While no run is closed and the buffer holds no line, reads fall silent as often as the
stream does, and then the piece that closes the run makes it a line: the limit is tested on what
came before that piece only. -/
theorem exists_outcomes_of_fragments (readings : Readings)
    (opened : readings.link.isOpen = true) (bare : Byte.newline ∉ readings.link.buffer)
    (within : readings.link.buffer.length ≤ limit)
    {fragments beyond : List Arrival} {front rest : Bytes}
    (continues : ∀ arrival ∈ fragments, arrival.Continues) (clean : Byte.newline ∉ front)
    (later : readings.later = fragments ++ .bytes (front ++ Byte.newline :: rest) :: beyond) :
    ∃ outcomes, (readings.after (silences fragments + 1)).outcomes =
        readings.outcomes ++ outcomes ∧
      ((readings.link.buffer ++ arriving fragments).length ≤ limit →
        outcomes = List.replicate (silences fragments) .timeout ++
          [.line (stripReturn (readings.link.buffer ++ arriving fragments ++ front))]) ∧
      (limit < (readings.link.buffer ++ arriving fragments).length →
        .lineTooLong ∈ outcomes) := by
  induction fragments generalizing readings with
  | nil =>
    refine ⟨[.line (stripReturn (readings.link.buffer ++ front))], ?_, fun _ => ?_,
      fun long => ?_⟩
    · show readings.next.outcomes = _
      rw [(next_of_isOpen opened).1, later, List.nil_append, read_closing bare clean]
    · simp [silences, arriving]
    · rw [arriving, List.append_nil] at long
      omega
  | cons arrival fragments ih =>
    have here := continues arrival List.mem_cons_self
    have others : ∀ arrival ∈ fragments, arrival.Continues := fun other member =>
      continues other (List.mem_cons_of_mem _ member)
    obtain ⟨before, still, buffer, left⟩ := next_of_isOpen opened
    rw [List.cons_append] at later
    cases arrival with
    | ended => exact here.elim
    | silence =>
      rw [later, read_silence bare] at before buffer left
      dsimp only at buffer left
      obtain ⟨outcomes, made, line, long⟩ := ih readings.next still (buffer ▸ bare)
        (buffer ▸ within) others left
      rw [buffer] at line long
      refine ⟨.timeout :: outcomes, ?_, fun brief => ?_, fun most =>
        List.mem_cons_of_mem _ (long most)⟩
      · rw [silences_silence, Readings.after, made, before, List.append_assoc]
        rfl
      · rw [line brief, silences_silence, List.replicate_succ]
        rfl
    | bytes chunk =>
      have joined : readings.link.buffer ++ arriving (.bytes chunk :: fragments) =
          readings.link.buffer ++ chunk ++ arriving fragments := (List.append_assoc _ _ _).symm
      have open_ : Byte.newline ∉ readings.link.buffer ++ chunk :=
        fun member => (List.mem_append.mp member).elim bare here
      rw [silences_bytes, joined]
      by_cases long : limit < (readings.link.buffer ++ chunk).length
      · rw [later, read_bytes _ open_, if_pos long] at before
        obtain ⟨more, _, outcomes⟩ := exists_outcomes_after readings.next (silences fragments)
        refine ⟨.lineTooLong :: more, ?_, fun brief => ?_, fun _ => List.mem_cons_self⟩
        · rw [Readings.after, outcomes, before, List.append_assoc]
          rfl
        · rw [List.length_append] at brief
          omega
      · have kept := Nat.not_lt.mp long
        rw [Readings.after, next_of_bytes readings opened open_ kept later]
        exact ih _ opened open_ kept others rfl

/-! ## Reads of any stream -/

/-- Reads within the bounds so far. -/
structure Within (readings : Readings) : Prop where
  /-- The link is open. -/
  opened : readings.link.isOpen = true
  /-- The pieces to come fit. -/
  fits : ∀ arrival ∈ readings.later, arrival.Fits
  /-- What is buffered is within the limit. -/
  buffer : readings.link.buffer.length ≤ limit
  /-- What was given is shorter than the limit and a piece. -/
  texts : ∀ text ∈ readings.texts, text.length < limit + pieceSize

/-- One more read stays within the bounds. -/
theorem Within.next (within : Within readings) : Within readings.next := by
  obtain ⟨outcomes, opened, buffer, later⟩ := next_of_isOpen within.opened
  have bounded := bounded_read within.buffer within.fits
  have left : readings.next.later <:+ readings.later := by
    obtain ⟨outcome, _, _, ends⟩ := exists_ends_next within.opened
    exact ends.suffix
  refine ⟨opened, fun arrival member => within.fits arrival (left.subset member), ?_, ?_⟩
  · rw [buffer]
    exact bounded.kept
  · intro text member
    rw [texts_next outcomes] at member
    rcases List.mem_append.mp member with before | now
    · exact within.texts text before
    · exact bounded.text text (Option.mem_toList.mp now)

/-- A line in the buffer is read at once and is within the limit. -/
theorem Within.next_of_mem (within : Within readings)
    (buffered : Byte.newline ∈ readings.link.buffer) : ∃ text, text.length < limit ∧
      readings.next.outcomes = readings.outcomes ++ [.line text] := by
  obtain ⟨run, rest, split, clean⟩ := List.eq_append_cons_of_mem buffered
  refine ⟨stripReturn run, ?_, ?_⟩
  · have shorter := length_stripReturn_le run
    have small := within.buffer
    rw [split, List.length_append, List.length_cons] at small
    omega
  · have taken := takeLine?_eq_some.mpr ⟨run, split, clean, rfl⟩
    rw [(next_of_isOpen within.opened).1, read_of_takeLine? taken]

/-- Reads stay within the bounds. -/
theorem Within.after (within : Within readings) (calls : Nat) : Within (readings.after calls) := by
  induction calls generalizing readings with
  | zero => exact within
  | succ calls ih => exact ih within.next

/-- However a stream is cut and wherever it falls silent, no line that is read is as long as the
limit and a piece together, and one that was buffered whole is within the limit. A run that no
piece has closed yet is refused by the reads up to the one that meets the piece closing it
exactly if more than the limit comes before that piece; otherwise the last of these reads gives
the run as a line, however long it is, and the others fall silent. -/
theorem long_run_refused_iff (link : StreamLink) {arrivals : List Arrival}
    (fits : ∀ arrival ∈ arrivals, arrival.Fits) (calls : Nat) :
    let readings := ({ link := link.attach, later := arrivals } : Readings).after calls
    (∀ text ∈ readings.texts, text.length < limit + pieceSize) ∧
      (Byte.newline ∈ readings.link.buffer → ∃ text, text.length < limit ∧
        readings.next.outcomes = readings.outcomes ++ [.line text]) ∧
      ∀ (fragments beyond : List Arrival) (front rest : Bytes),
        Byte.newline ∉ readings.link.buffer → (∀ arrival ∈ fragments, arrival.Continues) →
        Byte.newline ∉ front →
        readings.later = fragments ++ .bytes (front ++ Byte.newline :: rest) :: beyond →
        ∃ outcomes, (readings.after (silences fragments + 1)).outcomes =
            readings.outcomes ++ outcomes ∧
          (.lineTooLong ∈ outcomes ↔
            limit < (readings.link.buffer ++ arriving fragments).length) ∧
          (.lineTooLong ∉ outcomes → outcomes = List.replicate (silences fragments) .timeout ++
            [.line (stripReturn (readings.link.buffer ++ arriving fragments ++ front))]) := by
  intro readings
  have start : Within ({ link := link.attach, later := arrivals } : Readings) :=
    ⟨rfl, fits, Nat.zero_le _, by simp [Readings.texts]⟩
  have within := start.after calls
  refine ⟨within.texts, within.next_of_mem, fun fragments beyond front rest bare continues clean
    later => ?_⟩
  obtain ⟨outcomes, made, line, long⟩ :=
    exists_outcomes_of_fragments readings within.opened bare within.buffer continues clean later
  have refused : .lineTooLong ∈ outcomes ↔
      limit < (readings.link.buffer ++ arriving fragments).length := by
    refine ⟨fun member => Nat.lt_of_not_le fun brief => ?_, long⟩
    rw [line brief] at member
    simp at member
  exact ⟨outcomes, made, refused, fun none => line (Nat.le_of_not_lt (mt refused.mpr none))⟩

/-- Two hundred bytes, a silence, a hundred more and then a line feed by itself: the second read
refuses them. -/
theorem long_run_refused_before_closing_piece :
    let fragments : List Arrival :=
      [.bytes (List.replicate 200 0x41), .silence, .bytes (List.replicate 100 0x41)]
    let arrivals := fragments ++ [.bytes [Byte.newline]]
    (∀ arrival ∈ arrivals, arrival.Fits) ∧ ∃ outcomes,
      (({ link := StreamLink.attach {}, later := arrivals } : Readings).after 2).outcomes =
        outcomes ∧ .lineTooLong ∈ outcomes := by
  intro fragments arrivals
  have fits : ∀ arrival ∈ arrivals, arrival.Fits := by decide +kernel
  have continues : ∀ arrival ∈ fragments, arrival.Continues := by decide +kernel
  obtain ⟨outcomes, made, refused, _⟩ := (long_run_refused_iff {} fits 0).2.2 fragments [] [] []
    (by decide) continues (by decide) rfl
  exact ⟨fits, outcomes, made, refused.mpr (by decide +kernel)⟩

/-- Three hundred bytes and a line feed, cut after the first 256 of them: the first read gives
them all as a line. -/
theorem long_run_read_as_line :
    (({ link := StreamLink.attach {}, later :=
        [.bytes (List.replicate 256 0x41),
          .bytes (List.replicate 44 0x41 ++ [Byte.newline])] } : Readings).after 1).outcomes =
      [.line (List.replicate 300 0x41)] ∧
      limit < (List.replicate 300 (0x41 : UInt8)).length := by
  decide +kernel

end Readings

end GcodeSender
