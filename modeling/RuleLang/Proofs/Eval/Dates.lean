import RuleLang.Eval.Arithmetic
import RuleLang.Eval.Compare
import RuleLang.Proofs.Duration.Shift
import RuleLang.Proofs.Outcome

/-!
# Arithmetic of dates

The difference of two dates, added to the second, gives the first, and dates keep their order when
a duration is added to them or subtracted from them.
-/

namespace RuleLang.Value

/-! ### Order -/

theorem compare_lessEqual_date {a b : Date} :
  compare .lessEqual (.date a) (.date b) = .bool true ↔ a.number ≤ b.number
  := by
  change bool (Ord.compare a.number b.number).isLE = .bool true ↔ _
  rw [bool.injEq, Std.isLE_compare]

theorem compare_lessEqual_dateTime {t u : DateTime} (ht : t.time.isLeap = false)
    (hu : u.time.isLeap = false) :
  compare .lessEqual (.dateTime t) (.dateTime u) = .bool true ↔ t.nanos ≤ u.nanos
  := by
  change bool (Ord.compare t u).isLE = .bool true ↔ _
  rw [bool.injEq, DateTime.isLE_compare_iff ht hu]

/-- A day that is moved is a day or a date-time, as the duration has it. -/
theorem shiftDate_eq_ok_iff {move : DateMove} {moved : DateTime → Option DateTime} {d : Duration}
    {a : Date} {v : Value} :
  shiftDate move moved d a = .ok v
    ↔ ∃ t, moved a.midnight = some t ∧ v = if d.isDateOnly then .date t.date else .dateTime t
  := by
  rw [shiftDate]
  cases moved a.midnight with
  | none => exact iff_of_false nofun (by rintro ⟨t, ⟨⟩, -⟩)
  | some t =>
    constructor
    · rintro ⟨⟩
      use t, rfl
    · rintro ⟨_, ⟨⟩, rfl⟩
      rfl

/-- Days that are moved keep their order. -/
theorem compare_shiftDate {move : DateMove} {moved : DateTime → Option DateTime} {d : Duration}
    {a b : Date} {v w : Value} (hmoved : Duration.KeepsOrder moved)
    (hle : compare .lessEqual (.date a) (.date b) = .bool true)
    (hv : shiftDate move moved d a = .ok v) (hw : shiftDate move moved d b = .ok w) :
  compare .lessEqual v w = .bool true
  := by
  obtain ⟨t, ha, rfl⟩ := shiftDate_eq_ok_iff.mp hv
  obtain ⟨u, hb, rfl⟩ := shiftDate_eq_ok_iff.mp hw
  obtain ⟨ht, hu, htu⟩ := hmoved (compare_lessEqual_date.mp hle) ha hb
  split
  · rw [compare_lessEqual_date, DateTime.number_date_eq ht, DateTime.number_date_eq hu]
    apply Int.ediv_le_ediv (by decide) htu
  · rw [compare_lessEqual_dateTime ht hu]
    exact htu

/-- No day overtakes another when a duration is added to both or subtracted from both. -/
theorem compare_moved {a b : Date} (hle : compare .lessEqual (.date a) (.date b) = .bool true)
    (d : Duration) :
  (∀ v w, add (.date a) (.duration d) = .ok v → add (.date b) (.duration d) = .ok w →
    compare .lessEqual v w = .bool true)
  ∧ ∀ v w, subtract (.date a) (.duration d) = .ok v → subtract (.date b) (.duration d) = .ok w →
    compare .lessEqual v w = .bool true
  := by
  constructor
  · intro v w
    apply compare_shiftDate d.keepsOrder_addTo? hle
  · intro v w
    apply compare_shiftDate d.keepsOrder_subtractFrom? hle

/-- From 30 and from 31 January 2024 a month and an hour lead to one instant of 29 February, and a
month back leads to different days of December. -/
theorem compare_moved_february :
  let a : Date := { number := 19752 }
  let b : Date := { number := 19753 }
  let month : Duration := { months := 1 }
  let later : Duration := { months := 1, hours := 1, milliseconds := 5 }
  let t : DateTime := ⟨{ number := 19782 }, { second := 3600, nano := 5000000 }⟩
  compare .lessEqual (.date a) (.date b) = .bool true
    ∧ (add (.date a) (.duration later) = .ok (.dateTime t)
      ∧ add (.date b) (.duration later) = .ok (.dateTime t)
      ∧ compare .lessEqual (.dateTime t) (.dateTime t) = .bool true)
    ∧ ∃ v w, subtract (.date a) (.duration month) = .ok v
      ∧ subtract (.date b) (.duration month) = .ok w
      ∧ compare .lessEqual v w = .bool true
  := by
  intro a b month later t
  have hle : compare .lessEqual (.date a) (.date b) = .bool true := rfl
  have ha : add (.date a) (.duration later) = .ok (.dateTime t) := by
    rw [add, shiftDate_eq_ok_iff]
    exact ⟨t, by decide +kernel, rfl⟩
  have hb : add (.date b) (.duration later) = .ok (.dateTime t) := by
    rw [add, shiftDate_eq_ok_iff]
    exact ⟨t, by decide +kernel, rfl⟩
  have hback : subtract (.date a) (.duration month) = .ok (.date { number := 19721 }) := by
    rw [subtract, shiftDate_eq_ok_iff]
    exact ⟨Date.midnight { number := 19721 }, by decide +kernel, rfl⟩
  have hback' : subtract (.date b) (.duration month) = .ok (.date { number := 19722 }) := by
    rw [subtract, shiftDate_eq_ok_iff]
    exact ⟨Date.midnight { number := 19722 }, by decide +kernel, rfl⟩
  exact ⟨hle, ⟨ha, hb, (compare_moved hle later).1 _ _ ha hb⟩, _, _, hback, hback',
    (compare_moved hle month).2 _ _ hback hback'⟩

/-! ### Differences -/

/-- The difference of two days, added to the second, gives the first; so does that of two
date-times of whole milliseconds outside leap seconds. -/
theorem add_difference :
  (∀ a b : Date, ∃ d, subtract (.date a) (.date b) = .ok (.duration d)
    ∧ add (.date b) (.duration d) = .ok (.date a))
  ∧ ∀ a b : DateTime, a.time.isLeap = false → b.time.isLeap = false →
      a.time.nano % 1000000 = 0 → b.time.nano % 1000000 = 0 →
      ∃ d, subtract (.dateTime a) (.dateTime b) = .ok (.duration d)
        ∧ add (.dateTime b) (.duration d) = .ok (.dateTime a)
  := by
  constructor
  · intro a b
    use .betweenDates b a, rfl
    exact shiftDate_eq_ok_iff.mpr ⟨a.midnight, Duration.addTo?_betweenDates a b, rfl⟩
  · intro a b ha hb hamillis hbmillis
    use .between b a, rfl
    rw [add, shiftDateTime, Duration.addTo?_between ha hb hamillis hbmillis]
    rfl

/-- The first and the last day are 191491528 days apart, and the first and the last millisecond a
day more but for a millisecond. -/
theorem add_difference_first_last :
  let first : Date := { number := -96465292 }
  let last : Date := { number := 95026236 }
  let t : DateTime := ⟨last, { second := 86399, nano := 999000000 }⟩
  let days : Duration := { days := -191491528 }
  let whole : Duration :=
    { days := 191491528, hours := 23, minutes := 59, seconds := 59, milliseconds := 999 }
  (subtract (.date first) (.date last) = .ok (.duration days)
    ∧ add (.date last) (.duration days) = .ok (.date first))
  ∧ subtract (.dateTime t) (.dateTime first.midnight) = .ok (.duration whole)
    ∧ add (.dateTime first.midnight) (.duration whole) = .ok (.dateTime t)
  := by
  intro first last t days whole
  obtain ⟨d, hd, hadd⟩ := add_difference.1 first last
  obtain ⟨e, he, hadd'⟩ :=
    add_difference.2 t first.midnight rfl rfl (by decide) rfl
  have hdays : subtract (.date first) (.date last) = .ok (.duration days) := rfl
  have hbetween : Duration.between first.midnight t = whole := by decide +kernel
  have hwhole : subtract (.dateTime t) (.dateTime first.midnight) = .ok (.duration whole) := by
    rw [subtract, hbetween]
    rfl
  obtain rfl := duration.inj (Except.ok.inj (hd.symm.trans hdays))
  obtain rfl := duration.inj (Except.ok.inj (he.symm.trans hwhole))
  exact ⟨⟨hdays, hadd⟩, hwhole, hadd'⟩

end RuleLang.Value
