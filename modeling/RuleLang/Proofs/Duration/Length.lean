import Mathlib.Algebra.Ring.Int.Defs
import Mathlib.Data.Int.Order.Basic
import Mathlib.Tactic.Tauto
import RuleLang.Eval.Compare

/-!
# The length of durations

The length of a duration counts a year as 365 days and a month as 30, and adds up the amounts of
all units in milliseconds.  Durations are ordered by a length in which the units below months
are added up within the range of words: a product or a sum that leaves the range is held at its
end.  Where none does, so that the checked sum is there, this is the length.
-/

namespace RuleLang

/-! ### Sums that are held in a range -/

/-- The integer nearest to `n` that has a word. -/
def held (n : Int) : Int := max (-9223372036854775808) (min n 9223372036854775807)

theorem toInt_clamp64
    (n : Int) :
  (clamp64 n).toInt = held n
  := by
  apply Int64.toInt_ofInt_of_le
  · apply le_max_left
  · have hle : held n ≤ 9223372036854775807 := max_le (by decide) (min_le_right _ _)
    exact Int.lt_of_le_of_lt hle (by decide)

/-- An integer that has a word is not moved. -/
theorem clamp64_of_int64?
    {n : Int} {w : Int64} (h : int64? n = some w) :
  clamp64 n = w
  := by
  unfold int64? at h
  split at h
  · rename_i hn
    rw [clamp64, min_eq_left hn.2, max_eq_right hn.1]
    exact Option.some.inj h
  · contradiction

/-- The sum of integers, each of them and each sum on the way held in the range of words. -/
def heldSum (ns : List Int) : Int := ns.foldl (fun sum n => held (sum + held n)) 0

/-- For two integers of one sign it makes no difference whether they are held before their sum
is. -/
theorem held_add_held {m n : Int} (h : (0 ≤ m ∧ 0 ≤ n) ∨ (m ≤ 0 ∧ n ≤ 0)) :
  held (held m + held n) = held (m + n)
  := by
  unfold held
  omega

/-- The held sum of integers of one sign is their sum, held at the end. -/
theorem heldSum_of_sign {ns : List Int} (h : (∀ n ∈ ns, 0 ≤ n) ∨ ∀ n ∈ ns, n ≤ 0) :
  heldSum ns = held ns.sum
  := by
  -- from a sum `s` of the same sign the fold moves on in one direction, so that it is held once
  have hfold : ∀ s, ((0 ≤ s ∧ ∀ n ∈ ns, 0 ≤ n) ∨ (s ≤ 0 ∧ ∀ n ∈ ns, n ≤ 0)) →
      ns.foldl (fun sum n => held (sum + held n)) (held s) = held (s + ns.sum) := by
    clear h
    induction ns with
    | nil => simp
    | cons n ns ih =>
      intro s h
      simp only [List.forall_mem_cons] at h
      rw [List.foldl_cons, List.sum_cons, held_add_held (by tauto), ih (s + n), Int.add_assoc]
      obtain ⟨hs, hn, hns⟩ | ⟨hs, hn, hns⟩ := h
      · exact .inl ⟨Int.add_nonneg hs hn, hns⟩
      · exact .inr ⟨by omega, hns⟩
  have hzero := hfold 0 (by simpa using h)
  rw [Int.zero_add] at hzero
  exact hzero

/-! ### Lengths -/

/-- The milliseconds of one of a unit, a year counting 365 days and a month 30. -/
def DurationUnit.millis : DurationUnit → Int
  | years => 31536000000
  | months => 2592000000
  | weeks => 604800000
  | days => 86400000
  | hours => 3600000
  | minutes => 60000
  | seconds => 1000
  | milliseconds => 1

/-- The units below months, the longest first. -/
def DurationUnit.fixed : List DurationUnit :=
  [weeks, days, hours, minutes, seconds, milliseconds]

namespace Duration

/-- The milliseconds that the amount of a unit makes. -/
def part (d : Duration) (u : DurationUnit) : Int := (d.get u).toInt * u.millis

theorem part_milliseconds
    (d : Duration) :
  d.part .milliseconds = d.milliseconds.toInt
  := Int.mul_one _

/-- The length of a duration in milliseconds. -/
def length (d : Duration) : Int := (DurationUnit.all.map d.part).sum

/-- The length of the years and months of a duration. -/
def calendarLength (d : Duration) : Int := d.part .years + d.part .months

/-- The length of the amounts below months. -/
def fixedLength (d : Duration) : Int := (DurationUnit.fixed.map d.part).sum

theorem length_eq
    (d : Duration) :
  d.length = d.calendarLength + d.fixedLength
  := by
  simp only [length, calendarLength, fixedLength, DurationUnit.all, DurationUnit.fixed,
    List.map_cons, List.sum_cons, Int.add_assoc]

/-- The length by which durations are ordered: that of the years and months, and the held sum
of the other parts. -/
def heldLength (d : Duration) : Int :=
  d.calendarLength + heldSum (DurationUnit.fixed.map d.part)

/-- The milliseconds below months are summed up within the range of words.  The first part is
added to zero, and the milliseconds are a word already. -/
theorem toInt_fixedMillisClamped
    (d : Duration) :
  d.fixedMillisClamped.toInt = heldSum (DurationUnit.fixed.map d.part)
  := by
  have hweeks : held (d.part .weeks) = held (0 + held (d.part .weeks)) := by
    unfold held
    omega
  have hmillis : d.milliseconds.toInt = held (d.part .milliseconds) := by
    have hlow := Int64.le_toInt d.milliseconds
    have hhigh := Int64.toInt_lt d.milliseconds
    rw [part_milliseconds, held]
    omega
  simp only [fixedMillisClamped, Word.addClamped, Word.mulClamped, toInt_clamp64]
  rw [hmillis]
  change held (held (held (held (held (held (d.part .weeks) + held (d.part .days))
    + held (d.part .hours)) + held (d.part .minutes)) + held (d.part .seconds))
    + held (d.part .milliseconds)) = _
  rw [hweeks]
  rfl

theorem approxMillis_eq
    (d : Duration) :
  d.approxMillis = d.heldLength
  := by
  rw [approxMillis, toInt_fixedMillisClamped, heldLength, calendarLength]
  unfold part DurationUnit.millis get
  dsimp only
  omega

/-- The checked sum of the parts below months is exact, and holding the parts and sums on the
way changes nothing. -/
theorem fixedMillis?_eq_some
    {d : Duration} {w : Int64} (h : d.fixedMillis? = some w) :
  w.toInt = d.fixedLength ∧ d.fixedMillisClamped = w
  := by
  simp only [fixedMillis?, Option.bind_eq_bind, Option.bind_eq_some_iff] at h
  obtain ⟨weeks, hweeks, days, hdays, toDays, htoDays, hours, hhours, toHours, htoHours,
    minutes, hminutes, toMinutes, htoMinutes, seconds, hseconds, toSeconds, htoSeconds, hw⟩ := h
  constructor
  · rw [toInt_of_int64?_eq_some hw, toInt_of_int64?_eq_some htoSeconds,
      toInt_of_int64?_eq_some htoMinutes, toInt_of_int64?_eq_some htoHours,
      toInt_of_int64?_eq_some htoDays, toInt_of_int64?_eq_some hweeks,
      toInt_of_int64?_eq_some hdays, toInt_of_int64?_eq_some hhours,
      toInt_of_int64?_eq_some hminutes, toInt_of_int64?_eq_some hseconds]
    change d.part .weeks + d.part .days + d.part .hours + d.part .minutes + d.part .seconds
      + d.milliseconds.toInt = _
    simp only [fixedLength, DurationUnit.fixed, List.map_cons, List.map_nil, List.sum_cons,
      List.sum_nil, part_milliseconds, Int.add_zero, Int.add_assoc]
  · simp only [fixedMillisClamped, Word.mulClamped, Word.addClamped, clamp64_of_int64? hweeks,
      clamp64_of_int64? hdays, clamp64_of_int64? htoDays, clamp64_of_int64? hhours,
      clamp64_of_int64? htoHours, clamp64_of_int64? hminutes, clamp64_of_int64? htoMinutes,
      clamp64_of_int64? hseconds, clamp64_of_int64? htoSeconds, clamp64_of_int64? hw]

/-- The held length is the length where the checked sum of the parts below months is there. -/
theorem heldLength_of_fixedMillis?
    {d : Duration} (h : d.fixedMillis?.isSome) :
  d.heldLength = d.length
  := by
  obtain ⟨w, hw⟩ := Option.isSome_iff_exists.mp h
  obtain ⟨hexact, hheld⟩ := fixedMillis?_eq_some hw
  rw [heldLength, ← toInt_fixedMillisClamped, hheld, hexact, length_eq]

/-- Where the amounts below months are of one sign, only their sum is held. -/
theorem heldLength_of_sign
    {d : Duration}
    (h : (∀ u ∈ DurationUnit.fixed, 0 ≤ d.get u) ∨ ∀ u ∈ DurationUnit.fixed, d.get u ≤ 0) :
  d.heldLength = d.calendarLength + held d.fixedLength
  := by
  have hmillis (u : DurationUnit) : 0 ≤ u.millis := by cases u <;> decide
  rw [heldLength, heldSum_of_sign, fixedLength]
  obtain h | h := h
  · left
    intro n hn
    obtain ⟨u, hu, rfl⟩ := List.mem_map.mp hn
    exact Int.mul_nonneg (Int64.le_iff_toInt_le.mp (h u hu)) (hmillis u)
  · right
    intro n hn
    obtain ⟨u, hu, rfl⟩ := List.mem_map.mp hn
    exact Int.mul_nonpos_of_nonpos_of_nonneg (Int64.le_iff_toInt_le.mp (h u hu)) (hmillis u)

end Duration

namespace Value

/-! ### The order of durations -/

/-- Durations are ordered by their held lengths.  The held length of a duration is its length where
no product and no sum of the amounts below months leaves the range of words, and where these
amounts are of one sign, nothing but their sum is held. -/
theorem compare_duration
    (d e : Duration) :
  (compare .greater (.duration d) (.duration e) = .bool (decide (e.heldLength < d.heldLength)) ∧
    compare .greaterEqual (.duration d) (.duration e)
      = .bool (decide (e.heldLength ≤ d.heldLength)) ∧
    compare .less (.duration d) (.duration e) = .bool (decide (d.heldLength < e.heldLength)) ∧
    compare .lessEqual (.duration d) (.duration e)
      = .bool (decide (d.heldLength ≤ e.heldLength))) ∧
  (d.fixedMillis?.isSome → d.heldLength = d.length) ∧
  ((∀ u ∈ DurationUnit.fixed, 0 ≤ d.get u) ∨ (∀ u ∈ DurationUnit.fixed, d.get u ≤ 0) →
    d.heldLength = d.calendarLength + held d.fixedLength)
  := by
  refine ⟨?_, Duration.heldLength_of_fixedMillis?, Duration.heldLength_of_sign⟩
  rw [← Duration.approxMillis_eq, ← Duration.approxMillis_eq]
  have hgt : (Ord.compare d.approxMillis e.approxMillis).isGT
      = decide (e.approxMillis < d.approxMillis) := by
    rw [Bool.eq_iff_iff, decide_eq_true_iff, Ordering.isGT_iff_eq_gt, compare_gt_iff_gt]
  have hge : (Ord.compare d.approxMillis e.approxMillis).isGE
      = decide (e.approxMillis ≤ d.approxMillis) := by
    rw [Bool.eq_iff_iff, decide_eq_true_iff, Std.isGE_compare]
  have hlt : (Ord.compare d.approxMillis e.approxMillis).isLT
      = decide (d.approxMillis < e.approxMillis) := by
    rw [Bool.eq_iff_iff, decide_eq_true_iff, Ordering.isLT_iff_eq_lt, compare_lt_iff_lt]
  have hle : (Ord.compare d.approxMillis e.approxMillis).isLE
      = decide (d.approxMillis ≤ e.approxMillis) := by
    rw [Bool.eq_iff_iff, decide_eq_true_iff, Std.isLE_compare]
  rw [← hgt, ← hge, ← hlt, ← hle]
  exact ⟨rfl, rfl, rfl, rfl⟩

/-- A month is shorter than 31 days, for their amounts make no sum that is held. -/
theorem compare_duration_month :
  compare .less (.duration { months := 1 }) (.duration { days := 31 }) = .bool true
  := by
  obtain ⟨⟨-, -, hless, -⟩, hmonth, -⟩ := compare_duration { months := 1 } { days := 31 }
  obtain ⟨-, hdays, -⟩ := compare_duration { days := 31 } { months := 1 }
  rw [hless, hmonth (by decide), hdays (by decide)]
  rfl

/-- Weeks beyond the range of words are held alike, and the longer of them is not greater. -/
theorem not_compare_duration_length :
  ¬∀ d e : Duration,
    compare .greater (.duration d) (.duration e) = .bool (decide (e.length < d.length))
  := by
  intro h
  have hweeks := h { weeks := 9223372036854775807 } { weeks := 9223372036854775806 }
  have hheld : compare .greater (.duration { weeks := 9223372036854775807 })
      (.duration { weeks := 9223372036854775806 }) = .bool false := rfl
  have hlength : decide (Duration.length { weeks := 9223372036854775806 }
      < Duration.length { weeks := 9223372036854775807 }) = true := rfl
  rw [hheld, hlength] at hweeks
  exact absurd (bool.inj hweeks) (by decide)

end Value

end RuleLang
