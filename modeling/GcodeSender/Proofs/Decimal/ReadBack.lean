import Mathlib.Data.List.Induction
import Mathlib.Tactic.Ring
import GcodeSender.Proofs.Floats

/-!
# Reading written numbers back

A number written with a fixed number of places, its last zeros trimmed or not, is a numeral
that the reader takes whole, whatever follows it that could not go on with the number
(`Numeral.Ends`). A numeral with few places whose whole part is in the range of floats has a
float, so every finite float reads back as some float once it is written; which one depends on
the float only up to the sign of zero. A float from zero on is written without a sign and reads
back as a float that does not stand below zero.
-/
namespace GcodeSender.Decimal

/-- The float that a text gives when all of it reads as a number. -/
def readBack? (text : Bytes) : Option Float :=
  match Numeral.read? text with
  | some (numeral, []) => numeral.value?
  | _ => none

namespace Numeral

/-! ## Reading a numeral from its text -/

/-- A numeral that can be written: its bytes are what they should be, and one of them is a
digit. -/
structure Spelled (numeral : Numeral) : Prop where
  /-- A sign is plus or minus. -/
  sign : ∀ c ∈ numeral.sign, c = Byte.plus ∨ c = Byte.minus
  /-- Digits stand before the point. -/
  whole : ∀ c ∈ numeral.whole, Byte.isDigit c = true
  /-- Digits stand behind the point. -/
  fraction : ∀ places ∈ numeral.fraction, ∀ c ∈ places, Byte.isDigit c = true
  /-- There is a digit before or behind the point. -/
  solid : numeral.whole ≠ [] ∨ numeral.fraction.getD [] ≠ []

/-- A numeral whose bytes are what they should be, with a digit before its point. -/
structure Sound (numeral : Numeral) : Prop where
  /-- A sign is plus or minus. -/
  sign : ∀ c ∈ numeral.sign, c = Byte.plus ∨ c = Byte.minus
  /-- Digits stand before the point. -/
  whole : ∀ c ∈ numeral.whole, Byte.isDigit c = true
  /-- There is a digit before the point. -/
  solid : numeral.whole ≠ []
  /-- Digits stand behind the point. -/
  fraction : ∀ places ∈ numeral.fraction, ∀ c ∈ places, Byte.isDigit c = true

/-- A text that a number cannot go on with. -/
def Ends (rest : Bytes) : Prop :=
  ∀ c ∈ rest.head?, Byte.isDigit c = false ∧ c ≠ Byte.dot

variable {numeral : Numeral} {rest : Bytes}

/-- A number cannot go on where the text ends. -/
theorem ends_nil : Ends [] := by
  intro c first
  cases first

/-- Of digits and a text that starts with no digit, the digits are taken. -/
theorem span_digits {front : Bytes} (digits : ∀ c ∈ front, Byte.isDigit c = true)
    (stops : ∀ c ∈ rest.head?, Byte.isDigit c = false) :
    (front ++ rest).takeWhile Byte.isDigit = front ∧
      (front ++ rest).dropWhile Byte.isDigit = rest := by
  rw [List.takeWhile_append_of_pos digits, List.dropWhile_append_of_pos digits]
  cases rest with
  | nil => simp
  | cons c rest =>
    have stop := stops c rfl
    simp [stop]

/-- A sound numeral can be written. -/
theorem Sound.spelled (sound : numeral.Sound) : numeral.Spelled :=
  ⟨sound.sign, sound.whole, sound.fraction, .inl sound.solid⟩

/-- Behind its sign the text of a numeral starts with a digit or with the point. -/
theorem head_unsigned (spelled : numeral.Spelled) :
    ∃ c others, numeral.whole ++ fractionText numeral.fraction = c :: others ∧
      (Byte.isDigit c = true ∨ c = Byte.dot) := by
  cases whole : numeral.whole with
  | cons c others => exact ⟨c, _, rfl, .inl (spelled.whole c (by simp [whole]))⟩
  | nil =>
    cases fraction : numeral.fraction with
    | some places => exact ⟨_, places, rfl, .inr rfl⟩
    | none =>
      have empty : numeral.fraction.getD [] = [] := by rw [fraction, Option.getD_none]
      exact absurd empty (spelled.solid.resolve_left fun solid => solid whole)

/-- The sign of a numeral is taken from the front of its text. -/
theorem takeSign_text (spelled : numeral.Spelled) (rest : Bytes) :
    takeSign (numeral.text ++ rest) =
      (numeral.sign, numeral.whole ++ (fractionText numeral.fraction ++ rest)) := by
  unfold text
  cases sign : numeral.sign with
  | some c =>
    have known := spelled.sign c (by rw [sign]; rfl)
    simp [takeSign, known]
  | none =>
    obtain ⟨c, others, start, known⟩ := head_unsigned spelled
    have plain : ¬ (c = Byte.plus ∨ c = Byte.minus) := by
      rintro (rfl | rfl) <;> rcases known with digit | point <;> contradiction
    show takeSign (numeral.whole ++ fractionText numeral.fraction ++ rest) = _
    rw [← List.append_assoc, start, List.cons_append, takeSign, if_neg plain]

/-- The point of a numeral is taken with its digits, and nothing after them. -/
theorem takeFraction_text (spelled : numeral.Spelled) (ends : Ends rest) :
    takeFraction (fractionText numeral.fraction ++ rest) = (numeral.fraction, rest) := by
  cases fraction : numeral.fraction with
  | some places =>
    have digits := spelled.fraction places (by rw [fraction]; rfl)
    obtain ⟨taken, left⟩ := span_digits digits fun c first => (ends c first).1
    simp [takeFraction, fractionText, taken, left]
  | none =>
    cases rest with
    | nil => rfl
    | cons c rest =>
      have other := (ends c rfl).2
      simp [takeFraction, fractionText, other]

/-- A numeral is read from its text, whatever follows it that it could not go on with. -/
theorem read?_text_append (spelled : numeral.Spelled) (ends : Ends rest) :
    read? (numeral.text ++ rest) = some (numeral, rest) := by
  have stops : ∀ c ∈ (fractionText numeral.fraction ++ rest).head?, Byte.isDigit c = false := by
    intro c first
    cases fraction : numeral.fraction with
    | some places =>
      rw [fraction] at first
      cases first
      decide
    | none =>
      rw [fraction] at first
      exact (ends c first).1
  obtain ⟨taken, left⟩ := span_digits spelled.whole stops
  have some_digit : (numeral.whole.isEmpty && (numeral.fraction.getD []).isEmpty) = false := by
    simpa [or_iff_not_imp_left] using spelled.solid
  unfold read?
  rw [takeSign_text spelled]
  dsimp only
  rw [taken, left, takeFraction_text spelled ends]
  simp [some_digit]

/-- Only plus and minus are taken as a sign. -/
theorem eq_of_mem_takeSign {input : Bytes} {c : UInt8} (taken : c ∈ (takeSign input).1) :
    c = Byte.plus ∨ c = Byte.minus := by
  unfold takeSign at taken
  split at taken
  · split at taken
    · next known =>
      cases taken
      exact known
    · cases taken
  · cases taken

/-- Only digits are taken behind a point. -/
theorem isDigit_of_mem_takeFraction {input places : Bytes} {c : UInt8}
    (taken : places ∈ (takeFraction input).1) (written : c ∈ places) :
    Byte.isDigit c = true := by
  unfold takeFraction at taken
  split at taken
  · split at taken
    · cases taken
      exact List.mem_takeWhile_imp written
    · cases taken
  · cases taken

/-- Only a numeral that can be written is read. -/
theorem spelled_of_read? {input : Bytes} (found : read? input = some (numeral, rest)) :
    numeral.Spelled := by
  unfold read? at found
  dsimp only at found
  split at found
  · cases found
  · next solid =>
    cases found
    exact ⟨fun _ taken => eq_of_mem_takeSign taken, fun _ taken => List.mem_takeWhile_imp taken,
      fun _ taken _ written => isDigit_of_mem_takeFraction taken written,
      by simpa [or_iff_not_imp_left] using solid⟩

/-- A numeral is read whole from its text. -/
theorem read?_text (spelled : numeral.Spelled) : read? numeral.text = some (numeral, []) := by
  have read := read?_text_append spelled ends_nil
  rwa [List.append_nil] at read

/-- The text of a numeral reads back as its float. -/
theorem readBack?_text (sound : numeral.Sound) : readBack? numeral.text = numeral.value? := by
  rw [readBack?, read?_text sound.spelled]

/-- A sign, a digit or the point starts the text of a numeral. -/
theorem head_text (spelled : numeral.Spelled) :
    ∃ c others, numeral.text = c :: others ∧
      ((Byte.isDigit c = true ∨ c = Byte.dot) ∨ c = Byte.plus ∨ c = Byte.minus) := by
  unfold text
  cases sign : numeral.sign with
  | some c =>
    have known := spelled.sign c (by rw [sign]; rfl)
    exact ⟨c, _, rfl, .inr known⟩
  | none =>
    obtain ⟨c, others, start, known⟩ := head_unsigned spelled
    exact ⟨c, others, start, .inl known⟩

/-- The bytes of a numeral: its sign, its digits and its point. -/
theorem mem_text_iff {c : UInt8} :
    c ∈ numeral.text ↔ c ∈ numeral.sign ∨ c ∈ numeral.whole ++ numeral.fraction.getD [] ∨
      (c = Byte.dot ∧ numeral.fraction.isSome = true) := by
  unfold text
  cases numeral.fraction with
  | none => simp [fractionText]
  | some places => simp [fractionText]; tauto

/-- Only digits stand behind the point, if there is one. -/
theorem Sound.isDigit_fraction (sound : numeral.Sound) :
    ∀ c ∈ numeral.fraction.getD [], Byte.isDigit c = true := by
  cases fraction : numeral.fraction with
  | some places => exact sound.fraction places (by rw [fraction]; rfl)
  | none => simp

/-- Only digits stand on both sides of the point. -/
theorem Sound.isDigit_digits (sound : numeral.Sound) :
    ∀ c ∈ numeral.whole ++ numeral.fraction.getD [], Byte.isDigit c = true :=
  List.forall_mem_append.mpr ⟨sound.whole, sound.isDigit_fraction⟩

/-- The text of a numeral is made of signs, digits and points. -/
theorem Sound.mem_text (sound : numeral.Sound) {c : UInt8} (member : c ∈ numeral.text) :
    (c = Byte.plus ∨ c = Byte.minus) ∨ Byte.isDigit c = true ∨ c = Byte.dot := by
  rcases mem_text_iff.mp member with sign | digit | ⟨point, -⟩
  · exact .inl (sound.sign c sign)
  · exact .inr (.inl (sound.isDigit_digits c digit))
  · exact .inr (.inr point)

/-! ## Numerals with a float -/

/-- A numeral with at most four places whose whole part is in the range of floats. -/
structure InRange (numeral : Numeral) : Prop where
  /-- There are few places. -/
  short : (numeral.fraction.getD []).length ≤ 4
  /-- The whole part is in range. -/
  below : valueOf numeral.whole < Scientific.rangeEnd

/-- The value of two rows of digits. -/
theorem valueOf_append (front back : Bytes) :
    valueOf (front ++ back) = valueOf front * Nat.pow 10 back.length + valueOf back := by
  induction back using List.reverseRecOn with
  | nil => simp [valueOf]
  | append_singleton back c ih =>
    have power : Nat.pow 10 (back.length + 1) = Nat.pow 10 back.length * 10 := rfl
    rw [← List.append_assoc, valueOf_append_singleton, valueOf_append_singleton, ih,
      List.length_append, List.length_singleton, power]
    ring

/-- A digit stands for less than ten. -/
theorem digitValue_lt {c : UInt8} (digit : Byte.isDigit c = true) : Byte.digitValue c < 10 := by
  unfold Byte.isDigit at digit
  rw [Bool.and_eq_true, decide_eq_true_eq, decide_eq_true_eq] at digit
  have high : c.toNat ≤ 57 := UInt8.le_iff_toNat_le.mp digit.2
  show c.toNat - 48 < 10
  omega

/-- Digits stand for less than the next power of ten. -/
theorem valueOf_lt {places : Bytes} (digits : ∀ c ∈ places, Byte.isDigit c = true) :
    valueOf places < Nat.pow 10 places.length := by
  induction places using List.reverseRecOn with
  | nil => exact Nat.one_pos
  | append_singleton places c ih =>
    have front := ih fun d member => digits d (by simp [member])
    have digit : Byte.isDigit c = true := digits c (by simp)
    have small := digitValue_lt digit
    have power : Nat.pow 10 (places.length + 1) = Nat.pow 10 places.length * 10 := rfl
    rw [valueOf_append_singleton, List.length_append, List.length_singleton, power]
    omega

/-- A numeral in range does not overflow. -/
theorem overflows_of_inRange (sound : numeral.Sound) (range : numeral.InRange) :
    numeral.number.overflows = false := by
  have tail := valueOf_lt sound.isDigit_fraction
  have coefficient := valueOf_append numeral.whole (numeral.fraction.getD [])
  have below : (valueOf numeral.whole + 1) * Nat.pow 10 (numeral.fraction.getD []).length ≤
      Scientific.rangeEnd * Nat.pow 10 (numeral.fraction.getD []).length :=
    Nat.mul_le_mul_right _ range.below
  rw [Nat.add_mul, Nat.one_mul] at below
  have whole : (-((numeral.fraction.getD []).length : Int)).toNat = 0 := by omega
  have places : (- -((numeral.fraction.getD []).length : Int)).toNat =
      (numeral.fraction.getD []).length := by omega
  unfold Scientific.overflows number
  dsimp only
  rw [whole, places, coefficient, decide_eq_false_iff_not, Nat.not_le]
  show (_ + _) * 1 < _
  omega

/-- A numeral with few places loses no digits. -/
theorem losesDigits_of_inRange (range : numeral.InRange) (solid : numeral.number.coefficient ≠ 0) :
    numeral.number.losesDigits = false := by
  have whole : (-((numeral.fraction.getD []).length : Int)).toNat = 0 := by omega
  have places : (- -((numeral.fraction.getD []).length : Int)).toNat =
      (numeral.fraction.getD []).length := by omega
  have power : Nat.pow 10 (numeral.fraction.getD []).length ≤ Nat.pow 10 4 :=
    Nat.pow_le_pow_right (by decide) range.short
  have wide : (Nat.pow 2 54 - 1) * Nat.pow 10 4 ≤ Nat.pow 2 1076 := by decide +kernel
  have least : Nat.pow 2 1076 ≤ numeral.number.coefficient * Nat.pow 10 0 * Nat.pow 2 1076 :=
    Nat.le_mul_of_pos_left _ (Nat.mul_pos (Nat.pos_of_ne_zero solid) Nat.one_pos)
  have scaled : (Nat.pow 2 54 - 1) * Nat.pow 10 (numeral.fraction.getD []).length ≤
      (Nat.pow 2 54 - 1) * Nat.pow 10 4 := Nat.mul_le_mul_left _ power
  have large := Nat.le_trans (Nat.le_trans scaled wide) least
  unfold Scientific.losesDigits
  dsimp only
  rw [show numeral.number.exponent.toNat = 0 from whole,
    show (-numeral.number.exponent).toNat = (numeral.fraction.getD []).length from places,
    decide_eq_false (Nat.not_lt.mpr large), Bool.false_and]

/-- A numeral in range has the float nearest to its number. -/
theorem value?_of_inRange (sound : numeral.Sound) (range : numeral.InRange) :
    numeral.value? = some numeral.number.toFloat := by
  rw [value?, Scientific.toFloat?_eq, if_neg]
  rintro ⟨solid, lost⟩
  rw [overflows_of_inRange sound range, losesDigits_of_inRange range solid] at lost
  exact Bool.false_ne_true lost

/-- A numeral without a sign does not stand below zero. -/
theorem not_lt_zero_of_value? {value : Float} (plain : numeral.sign = none)
    (found : numeral.value? = some value) : ¬ value < 0.0 := by
  have positive : numeral.number.negative = false := by
    rw [number, plain]
    rfl
  rw [value?, Scientific.toFloat?_eq] at found
  split at found
  · cases found
  · cases found
    rw [Scientific.toFloat, positive]
    exact IsUnsigned.not_lt_zero (IsUnsigned.ofScientific _ _ _)

/-! ## Numerals as they are written -/

/-- A sign, and a number of units of the last place. -/
def ofUnits (negative : Bool) (places units : Nat) : Numeral :=
  ⟨if negative then some Byte.minus else none, digits (units / Nat.pow 10 places),
    if places = 0 then none else some (lastDigits places units)⟩

/-- The numeral without the zeros that end its fraction, and without a point that nothing
follows. -/
def trimmed (numeral : Numeral) : Numeral :=
  { numeral with
    fraction := numeral.fraction.bind fun places =>
      match places.reverse.dropWhile (· == Byte.zero) with
      | [] => none
      | kept => some kept.reverse }

/-- Units are written as their numeral. -/
theorem text_ofUnits (negative : Bool) (places units : Nat) :
    (ofUnits negative places units).text = placed negative places units := by
  by_cases whole : places = 0 <;> cases negative <;>
    simp [text, ofUnits, placed, fractionText, whole]

/-- Units make a sound numeral. -/
theorem sound_ofUnits (negative : Bool) (places units : Nat) :
    (ofUnits negative places units).Sound where
  sign c known := by
    cases negative with
    | false => cases known
    | true =>
      cases known
      exact .inr rfl
  whole _ written := isDigit_of_mem_digits written
  solid := digits_ne_nil _
  fraction taken known c written := by
    unfold ofUnits at known
    dsimp only at known
    split at known
    · cases known
    · cases known
      exact isDigit_of_mem_lastDigits written

/-- Units whose whole part is in the range of floats make a numeral in range. -/
theorem inRange_ofUnits (negative : Bool) {places units : Nat} (short : places ≤ 4)
    (below : units / Nat.pow 10 places < Scientific.rangeEnd) :
    (ofUnits negative places units).InRange where
  short := by
    unfold ofUnits
    dsimp only
    split
    · exact Nat.zero_le 4
    · rw [Option.getD_some, length_lastDigits]
      exact short
  below := by
    show valueOf (digits _) < _
    rw [valueOf_digits]
    exact below

/-- Trimming keeps a numeral sound. -/
theorem Sound.trimmed (sound : numeral.Sound) : numeral.trimmed.Sound where
  sign := sound.sign
  whole := sound.whole
  solid := sound.solid
  fraction kept known c written := by
    obtain ⟨places, fraction, same⟩ := Option.bind_eq_some_iff.mp known
    split at same
    · cases same
    · next solid =>
      cases same
      refine sound.fraction places fraction c ?_
      have reversed := (List.dropWhile_sublist _).subset (List.mem_reverse.mp written)
      exact List.mem_reverse.mp reversed

/-- Trimming keeps a numeral in range. -/
theorem InRange.trimmed (range : numeral.InRange) : numeral.trimmed.InRange where
  below := range.below
  short := by
    refine Nat.le_trans ?_ range.short
    cases fraction : numeral.fraction with
    | none => simp [Numeral.trimmed, fraction]
    | some places =>
      have shorter := (List.dropWhile_sublist (· == Byte.zero)
        (l := places.reverse)).length_le
      simp only [Numeral.trimmed, fraction, Option.bind_some]
      split
      · exact Nat.zero_le _
      · simpa using shorter

/-- Trimming a numeral trims its text. -/
theorem trimFraction_text (sound : numeral.Sound) :
    trimFraction numeral.text = numeral.trimmed.text := by
  have clear : Byte.dot ∉ numeral.sign.toList ++ numeral.whole := by
    intro member
    rcases List.mem_append.mp member with sign | whole
    · rcases sound.sign _ (Option.mem_toList.mp sign) with plus | minus
      · exact absurd plus (by decide)
      · exact absurd minus (by decide)
    · exact absurd (sound.whole _ whole) (by decide)
  generalize front : numeral.sign.toList ++ numeral.whole = row at clear
  unfold text trimmed
  rw [front]
  dsimp only
  cases fraction : numeral.fraction with
  | none =>
    show trimFraction (row ++ []) = row ++ []
    rw [List.append_nil]
    exact trimFraction_of_not_mem clear
  | some places =>
    have digits := sound.fraction places (by rw [fraction]; rfl)
    have point : (Byte.dot :: row.reverse).dropWhile (· == Byte.zero) =
        Byte.dot :: row.reverse := List.dropWhile_cons_of_neg (by decide)
    show trimFraction (row ++ Byte.dot :: places) = row ++ fractionText _
    have reversed : (row ++ Byte.dot :: places).reverse =
        places.reverse ++ Byte.dot :: row.reverse := by simp
    unfold trimFraction
    rw [if_pos (by simp), reversed, List.dropWhile_append]
    dsimp only
    cases kept : places.reverse.dropWhile (· == Byte.zero) with
    | nil =>
      rw [if_pos List.isEmpty_nil, point]
      simp [fractionText, kept]
    | cons last others =>
      have written : last ∈ places :=
        List.mem_reverse.mp ((List.dropWhile_sublist _).subset (kept ▸ List.mem_cons_self))
      have digit : last ≠ Byte.dot := by
        rintro rfl
        exact absurd (digits _ written) (by decide)
      simp [fractionText, kept, digit]

end Numeral

/-! ## Finite floats as they are written -/

/-- A text is a numeral, and the float of the numeral is a value. -/
def IsNumber (text : Bytes) (value : Float) : Prop :=
  ∃ numeral : Numeral, numeral.Sound ∧ numeral.text = text ∧ numeral.value? = some value

/-- A text that is a number reads back as its value. -/
theorem IsNumber.readBack? {text : Bytes} {value : Float} (number : IsNumber text value) :
    readBack? text = some value := by
  obtain ⟨numeral, sound, rfl, found⟩ := number
  rw [Numeral.readBack?_text sound, found]

variable {value : Float} {places : Nat}

/-- The numeral that an exact value is written as. -/
def numeralOf (exact : Dyadic) (places : Nat) : Numeral :=
  if exact.sizeBelow (halfUnit places) then .ofUnits false places 0
  else .ofUnits exact.negative places (units exact places)

/-- An exact value is written as its numeral. -/
theorem text_numeralOf (exact : Dyadic) (places : Nat) :
    (numeralOf exact places).text = fixedExact exact places := by
  unfold numeralOf fixedExact
  split <;> exact Numeral.text_ofUnits _ _ _

/-- The numeral of an exact value is sound. -/
theorem sound_numeralOf (exact : Dyadic) (places : Nat) : (numeralOf exact places).Sound := by
  unfold numeralOf
  split <;> exact Numeral.sound_ofUnits _ _ _

/-- The size of a float is no more than that of the greatest one, which is below the range
end. -/
theorem exists_numerator_le {exact : Dyadic} (found : Dyadic.ofFloat? value = some exact) :
    ∃ top, top < Scientific.rangeEnd ∧ exact.numerator ≤ top * exact.denominator := by
  obtain ⟨bits, high⟩ := Dyadic.bounds_of_ofFloat? found
  have shift : exact.exponent.toNat ≤ 971 := by omega
  have below : (Nat.pow 2 53 - 1) * Nat.pow 2 971 < Scientific.rangeEnd := by decide +kernel
  refine ⟨_, below, ?_⟩
  generalize 971 = top at shift
  generalize Nat.pow 2 53 = limit at bits
  calc exact.numerator
      ≤ (limit - 1) * Nat.pow 2 top :=
        Nat.mul_le_mul (by omega) (Nat.pow_le_pow_right (by decide) shift)
    _ ≤ (limit - 1) * Nat.pow 2 top * exact.denominator :=
        Nat.le_mul_of_pos_right _ exact.denominator_pos

/-- A float rounded to some places stays in the range of floats. -/
theorem whole_lt {exact : Dyadic} (found : Dyadic.ofFloat? value = some exact) (places : Nat) :
    units exact places / Nat.pow 10 places < Scientific.rangeEnd := by
  obtain ⟨top, below, greatest⟩ := exists_numerator_le found
  have rounded := (units_within_half exact places).2
  have positive := exact.denominator_pos
  have power : 0 < Nat.pow 10 places := Nat.pow_pos (by decide)
  generalize Nat.pow 10 places = scale at rounded power ⊢
  generalize units exact places = units at rounded ⊢
  generalize exact.numerator = numerator at greatest rounded
  generalize exact.denominator = denominator at greatest rounded positive
  refine Nat.div_lt_of_lt_mul ?_
  by_contra far
  have above : (top + 1) * scale ≤ units := by
    rw [Nat.mul_comm]
    exact Nat.le_trans (Nat.mul_le_mul_left _ below) (Nat.not_lt.mp far)
  have scaled : 2 * ((top + 1) * scale) * denominator ≤ 2 * units * denominator :=
    Nat.mul_le_mul_right _ (Nat.mul_le_mul_left _ above)
  have size : 2 * (numerator * scale) ≤ 2 * (top * denominator * scale) :=
    Nat.mul_le_mul_left _ (Nat.mul_le_mul_right _ greatest)
  have rest : denominator ≤ scale * denominator := Nat.le_mul_of_pos_left _ power
  have split : 2 * ((top + 1) * scale) * denominator =
      2 * (top * denominator * scale) + 2 * (scale * denominator) := by
    ring
  omega

/-- The numeral of a float with few places is in range. -/
theorem inRange_numeralOf {exact : Dyadic} (found : Dyadic.ofFloat? value = some exact)
    (short : places ≤ 4) : (numeralOf exact places).InRange := by
  unfold numeralOf
  split
  · have below : 0 / Nat.pow 10 places < Scientific.rangeEnd := by
      rw [Nat.zero_div]
      decide +kernel
    exact Numeral.inRange_ofUnits false short below
  · exact Numeral.inRange_ofUnits exact.negative short (whole_lt found places)

/-- A finite float is written as the numeral of its exact value. -/
theorem exists_fixed (finite : value.isFinite = true) (places : Nat) :
    ∃ exact, Dyadic.ofFloat? value = some exact ∧
      fixed value places = (numeralOf exact places).text := by
  obtain ⟨exact, found⟩ := Dyadic.exists_of_isFinite finite
  exact ⟨exact, found, by rw [text_numeralOf, fixed, found]⟩

/-- A finite float written with few places reads back. -/
theorem exists_isNumber_fixed (finite : value.isFinite = true) (short : places ≤ 4) :
    ∃ read, IsNumber (fixed value places) read := by
  obtain ⟨exact, found, same⟩ := exists_fixed finite places
  have sound := sound_numeralOf exact places
  exact ⟨_, _, sound, same.symm, Numeral.value?_of_inRange sound (inRange_numeralOf found short)⟩

/-- Half a unit of one of the first places is more than nothing. -/
theorem halfUnit_pos (short : places ≤ 4) : 0 < (halfUnit places).numerator := by
  have all : ∀ places < 5, 0 < (halfUnit places).numerator := by decide +kernel
  exact all places (Nat.lt_succ_of_le short)

/-- A zero is below half a unit. -/
theorem sizeBelow_of_zero {exact : Dyadic} (short : places ≤ 4) (zero : exact.significand = 0) :
    exact.sizeBelow (halfUnit places) = true := by
  have nothing : exact.numerator = 0 := by rw [Dyadic.numerator, zero, Nat.zero_mul]
  unfold Dyadic.sizeBelow
  rw [nothing, Nat.zero_mul, decide_eq_true_eq]
  exact Nat.mul_pos (halfUnit_pos short) exact.denominator_pos

/-- A float from zero on is written without a sign. -/
theorem sign_numeralOf {exact : Dyadic} (found : Dyadic.ofFloat? value = some exact)
    (short : places ≤ 4) (floor : 0.0 ≤ value) : (numeralOf exact places).sign = none := by
  unfold numeralOf
  cases negative : exact.negative with
  | false => split <;> rfl
  | true =>
    have zero := Dyadic.significand_of_negative found floor negative
    rw [if_pos (sizeBelow_of_zero short zero)]
    rfl

/-- A finite float written with few places and trimmed reads back, and not as a float below
zero if it does not stand there itself. -/
theorem exists_isNumber_fixedTrimmed (finite : value.isFinite = true) (short : places ≤ 4) :
    ∃ read, IsNumber (fixedTrimmed value places) read ∧ (0.0 ≤ value → ¬ read < 0.0) := by
  obtain ⟨exact, found, same⟩ := exists_fixed finite places
  have sound := sound_numeralOf exact places
  have number := Numeral.value?_of_inRange sound.trimmed (inRange_numeralOf found short).trimmed
  refine ⟨_, ⟨_, sound.trimmed, ?_, number⟩, fun floor => ?_⟩
  · rw [fixedTrimmed, same, Numeral.trimFraction_text sound]
  · have plain : (numeralOf exact places).trimmed.sign = none := sign_numeralOf found short floor
    exact Numeral.not_lt_zero_of_value? plain number

/-- Equal floats are written alike. -/
theorem fixed_of_beq {other : Float} (same : (value == other) = true)
    (finite : value.isFinite = true) (short : places ≤ 4) :
    fixed value places = fixed other places := by
  obtain ⟨exact, found⟩ := Dyadic.exists_of_isFinite finite
  rcases Dyadic.ofFloat?_of_beq same with equal | ⟨left, right, first, second⟩
  · rw [fixed, fixed, ← equal, found]
  · rw [fixed, fixed, first, second]
    dsimp only
    rw [fixedExact, fixedExact, if_pos (sizeBelow_of_zero short rfl),
      if_pos (sizeBelow_of_zero short rfl)]

end GcodeSender.Decimal
