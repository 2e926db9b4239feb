import GcodeSender.Proofs.Toolpath.Angles

/-!
# The sweep of an arc

The sweep of an arc is its angle, or its angle and a full turn if the angle does not lie on the
side to which the arc turns; then the arc wraps (`Segment.Wraps`). An arc whose ends coincide
wraps, and is a full circle. So two arcs of one kind whose ends and centers lie near each other
need not have sweeps near each other. The main statement is that their sweeps are within half a
turn of each other exactly if one of two things holds: both wrap or neither does, and their
angles are within half a turn of each other; or only one wraps, and their angles are not.
-/
namespace GcodeSender

open Angle (straight reach)

/-- Two floats are angles at most half a turn apart. -/
def WithinHalfTurn (value other : Float) : Prop :=
  ∃ number another, IsExactly value number ∧ IsExactly other another ∧
    |another - number| ≤ straight

/-- The number that bounds the angle between ends that coincide. -/
def coincidence : ℚ := 4722366482869645 / 2 ^ 73

theorem isExactly_coincidenceAngle : IsExactly Segment.coincidenceAngle coincidence := by
  have found : Dyadic.ofFloat? Segment.coincidenceAngle =
      some ⟨false, 4722366482869645, -73⟩ := by decide +kernel
  refine ⟨_, found, ?_⟩
  unfold Dyadic.toRat signed size coincidence
  norm_num

theorem slack_le_coincidence : 1 / 2 ^ 48 ≤ coincidence := by
  unfold coincidence
  norm_num

theorem isExactly_fullTurn : IsExactly (2.0 * Segment.halfTurn) (2 * straight) := by
  have found : Dyadic.ofFloat? (2.0 * Segment.halfTurn) =
      some ⟨false, 7074237752028440, -50⟩ := by decide +kernel
  refine ⟨_, found, ?_⟩
  unfold Dyadic.toRat signed size straight
  norm_num

namespace Segment

/-- How far the end of an arc lies to the left of its start, seen from the center: the product of
both distances and the sine of the angle. -/
def crossing (arc : Segment) : Float :=
  let first := arc.plane.first
  let second := arc.plane.second
  (arc.start.along first - arc.center.along first) *
      (arc.finish.along second - arc.center.along second) -
    (arc.start.along second - arc.center.along second) *
      (arc.finish.along first - arc.center.along first)

/-- How far the end of an arc lies toward its start, seen from the center: the product of both
distances and the cosine of the angle. -/
def facing (arc : Segment) : Float :=
  let first := arc.plane.first
  let second := arc.plane.second
  (arc.start.along first - arc.center.along first) *
      (arc.finish.along first - arc.center.along first) +
    (arc.start.along second - arc.center.along second) *
      (arc.finish.along second - arc.center.along second)

/-- The angle from the start of an arc to its end, between minus and plus half a turn. -/
def angle (arc : Segment) : Float := Angle.ofVector arc.crossing arc.facing

/-- The coordinates of an arc are not so great that its angle is lost. -/
def HasAngle (arc : Segment) : Prop := (arc.crossing.isNaN || arc.facing.isNaN) = false

/-- The angle of an arc does not lie on the side to which the arc turns, so that it turns the
other way round, or all the way. -/
def Wraps (arc : Segment) : Prop :=
  match arc.motion with
  | .clockwise => -coincidenceAngle ≤ arc.angle
  | _ => arc.angle ≤ coincidenceAngle

/-- A full turn to the side to which an arc turns. -/
def fullTurn (arc : Segment) : ℚ :=
  match arc.motion with
  | .clockwise => -(2 * straight)
  | _ => 2 * straight

/-- The ends of an arc agree along both axes of its plane. -/
def IsClosed (arc : Segment) : Prop :=
  arc.finish.along arc.plane.first = arc.start.along arc.plane.first ∧
    arc.finish.along arc.plane.second = arc.start.along arc.plane.second

/-- The angles of two arcs are half a turn apart, up to the rounding. -/
def AnglesOpposed (arc other : Segment) : Prop :=
  ∃ a b, IsExactly arc.angle a ∧ IsExactly other.angle b ∧
    |(|b - a|) - straight| < 1 / 2 ^ 40

variable {arc other : Segment} {a b : ℚ}

/-! ## The sweep and the angle -/

/-- An arc whose coordinates are below a million millions has an angle. -/
theorem hasAngle_of_bounded (bounded : ∀ point ∈ [arc.start, arc.finish, arc.center], ∀ axis,
    IsBounded (point.along axis) (2 ^ 40)) : arc.HasAngle := by
  have center := bounded arc.center (by simp)
  have start (axis : Axis) := (bounded arc.start (by simp) axis).sub (center axis) (by norm_num)
  have finish (axis : Axis) := (bounded arc.finish (by simp) axis).sub (center axis) (by norm_num)
  have product (axis other : Axis) := (start axis).mul (finish other) (by norm_num)
  have crossing : arc.crossing.isNaN = false :=
    ((product _ _).sub (product _ _) (by norm_num)).isNaN_eq_false
  have facing : arc.facing.isNaN = false :=
    ((product _ _).add (product _ _) (by norm_num)).isNaN_eq_false
  unfold HasAngle
  rw [crossing, facing]
  rfl

/-- An arc has an angle within half a turn to either side. -/
theorem HasAngle.isBounded (known : arc.HasAngle) : IsBounded arc.angle reach :=
  Angle.isBounded_ofVector known

/-- Whether an arc wraps, said of its angle as a number. -/
theorem wraps_iff (exact : IsExactly arc.angle a) :
    arc.Wraps ↔ match arc.motion with
      | .clockwise => -coincidence ≤ a
      | _ => a ≤ coincidence := by
  unfold Wraps
  cases arc.motion
  · exact exact.le_iff isExactly_coincidenceAngle
  · exact exact.le_iff isExactly_coincidenceAngle
  · exact isExactly_coincidenceAngle.neg.le_iff exact
  · exact exact.le_iff isExactly_coincidenceAngle

/-- The sweep of an arc that does not wrap is its angle. -/
theorem sweep_of_not_wraps (apart : ¬ arc.Wraps) : arc.sweep = arc.angle := by
  unfold Wraps at apart
  unfold sweep
  cases motion : arc.motion <;> rw [motion] at apart <;> exact if_neg apart

/-- The sweep of an arc that wraps is its angle and a full turn, up to the rounding. -/
theorem exists_isExactly_sweep_of_wraps (wraps : arc.Wraps) (exact : IsExactly arc.angle a)
    (bound : |a| ≤ reach) :
    ∃ s, IsExactly arc.sweep s ∧ |s - (a + arc.fullTurn)| ≤ 1 / 2 ^ 48 := by
  have turned {value : Float} {number : ℚ} (rounded : IsRounded value number)
      (small : |number| ≤ 3 * straight + 1 / 2 ^ 48) :
      ∃ s, IsExactly value s ∧ |s - number| ≤ 1 / 2 ^ 48 := by
    have top := Angle.straight_le
    have small : |number| ≤ 10 := by
      norm_num at small
      linarith
    obtain ⟨s, exact, near⟩ := rounded.exists_isExactly (small.trans (by norm_num))
    have error : roundingError number ≤ 10 / 2 ^ 52 + 1 / 2 ^ 60 :=
      add_le_add (div_le_div_of_nonneg_right small (by positivity)) Angle.smallest_le
    exact ⟨s, exact, by linarith⟩
  have solid := Angle.three_le_straight
  have far : |2 * straight| = 2 * straight := abs_of_nonneg (by linarith)
  unfold reach at bound
  unfold Wraps at wraps
  unfold sweep fullTurn
  cases motion : arc.motion <;> rw [motion] at wraps <;> dsimp only at wraps ⊢
  case clockwise =>
    rw [← sub_eq_add_neg]
    refine (if_pos wraps).symm ▸ turned (exact.sub isExactly_fullTurn) ?_
    have triangle := abs_sub a (2 * straight)
    linarith
  all_goals
    refine (if_pos wraps).symm ▸ turned (exact.add isExactly_fullTurn) ?_
    have triangle := abs_add_le a (2 * straight)
    linarith

/-! ## Two sweeps -/

/-- The sweeps of arcs that both wrap, or both do not, are as far apart as their angles. -/
theorem sweeps_of_alike (same : other.motion = arc.motion) (alike : arc.Wraps ↔ other.Wraps)
    (exact : IsExactly arc.angle a) (bound : |a| ≤ reach) (again : IsExactly other.angle b)
    (bounded : |b| ≤ reach) :
    ∃ s t, IsExactly arc.sweep s ∧ IsExactly other.sweep t ∧
      |(t - s) - (b - a)| ≤ 1 / 2 ^ 47 := by
  have turn : other.fullTurn = arc.fullTurn := by
    unfold fullTurn
    rw [same]
  by_cases wraps : arc.Wraps
  · obtain ⟨s, first, near⟩ := exists_isExactly_sweep_of_wraps wraps exact bound
    obtain ⟨t, second, close⟩ := exists_isExactly_sweep_of_wraps (alike.mp wraps) again bounded
    rw [turn] at close
    refine ⟨s, t, first, second, ?_⟩
    rw [abs_le] at near close ⊢
    constructor <;> linarith
  · have apart : ¬ other.Wraps := fun turned => wraps (alike.mpr turned)
    rw [sweep_of_not_wraps wraps, sweep_of_not_wraps apart]
    refine ⟨a, b, exact, again, ?_⟩
    rw [sub_self, abs_zero]
    positivity

/-- Where the second of two arcs wraps and the first does not, the sweeps and the angles are a full
turn apart together: the angles lie on either side, and the turn goes the other way. -/
theorem exists_sweep_of_turned (same : other.motion = arc.motion) (apart : ¬ arc.Wraps)
    (wraps : other.Wraps) (exact : IsExactly arc.angle a) (bound : |a| ≤ reach)
    (again : IsExactly other.angle b) (bounded : |b| ≤ reach) :
    ∃ t, IsExactly other.sweep t ∧ |(|t - a| + |b - a|) - 2 * straight| ≤ 1 / 2 ^ 45 := by
  obtain ⟨t, turned, near⟩ := exists_isExactly_sweep_of_wraps wraps again bounded
  refine ⟨t, turned, ?_⟩
  rw [wraps_iff exact] at apart
  rw [wraps_iff again] at wraps
  unfold fullTurn at near
  unfold reach at bound bounded
  rw [same] at wraps near
  rw [abs_le] at near bound bounded
  have solid := Angle.three_le_straight
  norm_num at near bound bounded ⊢
  cases motion : arc.motion <;> rw [motion] at apart wraps near <;>
    dsimp only at apart wraps near <;> rw [not_le] at apart
  case clockwise =>
    have order : |b - a| = b - a := abs_of_pos (by linarith)
    rw [order, abs_le]
    rcases abs_cases (t - a) with ⟨size, _⟩ | ⟨size, _⟩ <;> rw [size] <;> constructor <;> linarith
  all_goals
    have order : |b - a| = -(b - a) := abs_of_neg (by linarith)
    rw [order, abs_le]
    rcases abs_cases (t - a) with ⟨size, _⟩ | ⟨size, _⟩ <;> rw [size] <;> constructor <;> linarith

/-- Arcs of which only one wraps have sweeps and angles that are a full turn apart together. -/
theorem sweeps_of_unlike (same : other.motion = arc.motion) (unlike : ¬ (arc.Wraps ↔ other.Wraps))
    (exact : IsExactly arc.angle a) (bound : |a| ≤ reach) (again : IsExactly other.angle b)
    (bounded : |b| ≤ reach) :
    ∃ s t, IsExactly arc.sweep s ∧ IsExactly other.sweep t ∧
      |(|t - s| + |b - a|) - 2 * straight| ≤ 1 / 2 ^ 45 := by
  by_cases wraps : arc.Wraps
  · have apart : ¬ other.Wraps := fun turned => unlike (iff_of_true wraps turned)
    obtain ⟨s, turned, near⟩ :=
      exists_sweep_of_turned same.symm apart wraps again bounded exact bound
    rw [abs_sub_comm s b, abs_sub_comm a b] at near
    rw [sweep_of_not_wraps apart]
    exact ⟨s, b, turned, again, near⟩
  · have turns : other.Wraps := by
      by_contra apart
      exact unlike (iff_of_false wraps apart)
    obtain ⟨t, turned, near⟩ := exists_sweep_of_turned same wraps turns exact bound again bounded
    rw [sweep_of_not_wraps wraps]
    exact ⟨a, t, exact, turned, near⟩

/-- The sweeps of two arcs that do not wrap are at most half a turn apart. -/
theorem withinHalfTurn_of_not_wraps (same : other.motion = arc.motion) (apart : ¬ arc.Wraps)
    (distant : ¬ other.Wraps) (known : arc.HasAngle) (found : other.HasAngle) :
    WithinHalfTurn arc.sweep other.sweep := by
  obtain ⟨a, exact, bound⟩ := known.isBounded
  obtain ⟨b, again, bounded⟩ := found.isBounded
  rw [sweep_of_not_wraps apart, sweep_of_not_wraps distant]
  refine ⟨a, b, exact, again, ?_⟩
  rw [wraps_iff exact] at apart
  rw [wraps_iff again, same] at distant
  unfold reach at bound bounded
  rw [abs_le] at bound bounded ⊢
  have slack := slack_le_coincidence
  cases motion : arc.motion <;> rw [motion] at apart distant <;> dsimp only at apart distant <;>
    rw [not_le] at apart distant <;> constructor <;> linarith

/-- The sweeps of two arcs of one kind are at most half a turn apart exactly if their angles are
and both wrap or neither does, or neither of the two is so. -/
theorem withinHalfTurn_sweep_iff (same : other.motion = arc.motion) (known : arc.HasAngle)
    (found : other.HasAngle) (clear : ¬ arc.AnglesOpposed other) :
    WithinHalfTurn arc.sweep other.sweep ↔
      ((arc.Wraps ↔ other.Wraps) ↔ WithinHalfTurn arc.angle other.angle) := by
  obtain ⟨a, exact, bound⟩ := known.isBounded
  obtain ⟨b, again, bounded⟩ := found.isBounded
  have clear : 1 / 2 ^ 40 ≤ |(|b - a|) - straight| :=
    le_of_not_gt fun near => clear ⟨a, b, exact, again, near⟩
  have said {value value' : Float} {number number' : ℚ} (first : IsExactly value number)
      (second : IsExactly value' number') :
      WithinHalfTurn value value' ↔ |number' - number| ≤ straight := by
    constructor
    · rintro ⟨_, _, one, two, near⟩
      rwa [one.unique first, two.unique second] at near
    · exact fun near => ⟨_, _, first, second, near⟩
  rw [said exact again]
  by_cases alike : arc.Wraps ↔ other.Wraps
  · obtain ⟨s, t, first, second, near⟩ := sweeps_of_alike same alike exact bound again bounded
    rw [said first second, iff_true_left alike]
    have close := (abs_abs_sub_abs_le (t - s) (b - a)).trans near
    norm_num at clear close
    rw [abs_le] at close
    rcases le_abs.mp clear with more | less
    · exact iff_of_false (by linarith) (by linarith)
    · exact iff_of_true (by linarith) (by linarith)
  · obtain ⟨s, t, first, second, near⟩ := sweeps_of_unlike same alike exact bound again bounded
    rw [said first second, iff_false_left alike]
    norm_num at clear near
    rw [abs_le] at near
    rcases le_abs.mp clear with more | less
    · exact iff_of_true (by linarith) (by linarith)
    · exact iff_of_false (by linarith) (not_not.mpr (by linarith))

/-! ## Full circles -/

/-- An arc whose ends agree along both axes of its plane has no angle left: its sweep is a full
turn. -/
theorem IsClosed.exists_sweep (closed : arc.IsClosed) (known : arc.HasAngle) :
    arc.Wraps ∧ ∃ s, IsExactly arc.sweep s ∧ |(|s|) - 2 * straight| ≤ 1 / 2 ^ 40 := by
  obtain ⟨sameFirst, sameSecond⟩ := closed
  have zero : IsExactly arc.crossing 0 := by
    have left : arc.crossing.isNaN = false := (Bool.or_eq_false_iff.mp known).1
    unfold crossing at left ⊢
    dsimp only at left ⊢
    rw [sameFirst, sameSecond, mul_comm_float] at left ⊢
    rcases sub_self_float _ with zero | none
    · exact zero
    · exact absurd (left.symm.trans none) Bool.false_ne_true
  have unsigned : IsUnsigned arc.facing.toModel.unpack := by
    unfold facing
    dsimp only
    rw [sameFirst, sameSecond]
    exact ((IsUnsigned.mul_self _).unpack_pack.add (IsUnsigned.mul_self _).unpack_pack).unpack_pack
  obtain ⟨a, exact, small⟩ := Angle.isBounded_ofVector_along zero known unsigned
  have slack := slack_le_coincidence
  have solid := Angle.three_le_straight
  have wide : (1 : ℚ) / 2 ^ 49 ≤ reach := by
    unfold reach
    norm_num
    linarith
  have wraps : arc.Wraps := by
    rw [wraps_iff exact]
    rw [abs_le] at small
    cases arc.motion <;> dsimp only <;> linarith
  obtain ⟨s, turned, near⟩ := exists_isExactly_sweep_of_wraps wraps exact (small.trans wide)
  refine ⟨wraps, s, turned, ?_⟩
  have far : |arc.fullTurn| = 2 * straight := by
    have floor : 0 ≤ 2 * straight := by linarith
    unfold fullTurn
    cases arc.motion <;> simp only [abs_neg, abs_of_nonneg floor]
  have triangle := abs_abs_sub_abs_le s arc.fullTurn
  have moved := abs_sub_le s (a + arc.fullTurn) arc.fullTurn
  rw [add_sub_cancel_right] at moved
  rw [← far]
  norm_num at near small ⊢
  linarith

/-- The sweep of an arc that does not wrap, and turns through less than half a turn, is more than
half a turn away from that of an arc whose ends agree. -/
theorem IsClosed.not_withinHalfTurn (closed : other.IsClosed) (known : other.HasAngle)
    (apart : ¬ arc.Wraps) (exact : IsExactly arc.angle a)
    (short : |a| < straight - 1 / 2 ^ 40) : ¬ WithinHalfTurn arc.sweep other.sweep := by
  obtain ⟨_, t, turned, near⟩ := closed.exists_sweep known
  rintro ⟨s, again, first, second, within⟩
  rw [sweep_of_not_wraps apart] at first
  rw [first.unique exact, second.unique turned] at within
  have triangle := abs_sub_abs_le_abs_sub t a
  rw [abs_le] at near
  linarith

end Segment

end GcodeSender
