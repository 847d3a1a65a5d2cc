import Mathlib.Algebra.Order.BigOperators.Group.List
import RuleLang.Duration.Shift
import RuleLang.Proofs.Calendar.Months
import RuleLang.Proofs.Calendar.Timeline
import RuleLang.Proofs.Duration.Length
import RuleLang.Proofs.Number.Word

/-!
# Moves by durations

A date-time moves by the months of a duration first and by the milliseconds below them after that,
and whether a duration has these does not depend on the date-time.  So days keep their order when
they move by one duration.  The way from one date-time to another has no months and amounts of one
sign, and leads from the one back to the other.
-/

namespace RuleLang

/-! ### Checked sums -/

/-- The sum of integers, each of them and each sum on the way checked to have a word. -/
def checkedSum (ns : List Int) : Option Int64 :=
  ns.foldlM (fun sum n => do Word.add? sum (← int64? n)) 0

/-- For two integers of one sign it is enough to check the sum. -/
theorem add?_of_sign {w : Int64} {n : Int}
    (h : (0 ≤ w.toInt ∧ 0 ≤ n) ∨ (w.toInt ≤ 0 ∧ n ≤ 0)) :
  (do Word.add? w (← int64? n)) = int64? (w.toInt + n)
  := by
  cases hn : int64? n with
  | none =>
    symm
    rw [int64?_eq_none_iff] at hn
    apply int64?_eq_none_iff.mpr
    have hlow := Int64.le_toInt w
    have hhigh := Int64.toInt_lt w
    omega
  | some v =>
    rw [← toInt_of_int64?_eq_some hn]
    rfl

/-- From a word of the same sign on, a checked sum moves in one direction, so no sum on the way is
farther from zero than the last. -/
theorem foldlM_add?_of_sign {w : Int64} {ns : List Int}
    (h : (0 ≤ w.toInt ∧ ∀ n ∈ ns, 0 ≤ n) ∨ (w.toInt ≤ 0 ∧ ∀ n ∈ ns, n ≤ 0)) :
  ns.foldlM (fun sum n => do Word.add? sum (← int64? n)) w = int64? (w.toInt + ns.sum)
  := by
  induction ns generalizing w with
  | nil => simp
  | cons n ns ih =>
    simp only [List.forall_mem_cons] at h
    rw [List.foldlM_cons, List.sum_cons, add?_of_sign (by tauto), ← Int.add_assoc]
    have hrest : (0 ≤ w.toInt + n ∧ ∀ m ∈ ns, 0 ≤ m) ∨ (w.toInt + n ≤ 0 ∧ ∀ m ∈ ns, m ≤ 0) := by
      obtain ⟨hw, hn, hns⟩ | ⟨hw, hn, hns⟩ := h
      · exact .inl ⟨Int.add_nonneg hw hn, hns⟩
      · exact .inr ⟨by omega, hns⟩
    cases hsum : int64? (w.toInt + n) with
    | some v =>
      rw [← toInt_of_int64?_eq_some hsum] at hrest ⊢
      exact ih hrest
    | none =>
      symm
      apply int64?_eq_none_iff.mpr
      rw [int64?_eq_none_iff] at hsum
      obtain ⟨hw, hns⟩ | ⟨hw, hns⟩ := hrest
      · have hnonneg := List.sum_nonneg hns
        omega
      · have hnonpos : ns.sum ≤ 0 := by simpa using List.sum_le_card_nsmul ns 0 hns
        omega

/-- The checked sum of integers of one sign is their sum, if that has a word. -/
theorem checkedSum_of_sign {ns : List Int} (h : (∀ n ∈ ns, 0 ≤ n) ∨ ∀ n ∈ ns, n ≤ 0) :
  checkedSum ns = int64? ns.sum
  := by
  rw [checkedSum, foldlM_add?_of_sign (by simpa using h), Int64.toInt_zero, Int.zero_add]

namespace Duration

/-- The milliseconds below months are a checked sum.  The first part is added to zero, and the
milliseconds are a word already. -/
theorem fixedMillis?_eq
    (d : Duration) :
  d.fixedMillis? = checkedSum (DurationUnit.fixed.map d.part)
  := by
  have hzero (w : Int64) : Word.add? 0 w = some w := by simp [Word.add?]
  have hmillis : int64? (d.part .milliseconds) = some d.milliseconds := by
    rw [part_milliseconds, int64?_toInt]
  simp only [checkedSum, DurationUnit.fixed, List.map_cons, List.map_nil, List.foldlM_cons,
    List.foldlM_nil, hmillis, hzero, Option.bind_eq_bind, Option.bind_assoc, Option.bind_some,
    Option.bind_fun_some, Option.pure_def]
  rfl

/-! ### Moves -/

/-- A date-time moves by the months of a duration and then by its milliseconds. -/
theorem addTo?_eq_some_iff {d : Duration} {t u : DateTime} :
  d.addTo? t = some u
    ↔ ∃ months millis shifted, d.wholeMonths? = some months ∧ d.fixedMillis? = some millis
      ∧ millis ≠ Int64.minValue ∧ t.addMonths? months.toInt = some shifted
      ∧ shifted.addMillis? millis.toInt = some u
  := by
  simp only [addTo?, Option.bind_eq_bind, Option.bind_eq_some_iff]
  constructor
  · rintro ⟨months, hmonths, shifted, hshifted, millis, hmillis, h⟩
    split at h
    · cases h
    · exact ⟨months, millis, shifted, hmonths, hmillis, ‹_›, hshifted, h⟩
  · rintro ⟨months, millis, shifted, hmonths, hmillis, hleast, hshifted, h⟩
    refine ⟨months, hmonths, shifted, hshifted, millis, hmillis, ?_⟩
    rw [if_neg hleast, h]

/-- A duration without years and months moves a date-time by its milliseconds. -/
theorem addTo?_of_no_months {d : Duration} {millis : Int64} (hyears : d.years = 0)
    (hmonths : d.months = 0) (hmillis : d.fixedMillis? = some millis)
    (hleast : millis ≠ Int64.minValue) (t : DateTime) :
  d.addTo? t = t.addMillis? millis.toInt
  := by
  have hwhole : d.wholeMonths? = some 0 := by
    rw [wholeMonths?, hyears, hmonths]
    rfl
  have hstay : t.addMonths? 0 = some t := by
    rw [DateTime.addMonths?, Date.addMonths?_eq, Date.numberAfter_zero, Date.ofNumber?_number]
    rfl
  simp only [addTo?, hwhole, hmillis, Option.bind_eq_bind, Option.bind_some, Int64.toInt_zero,
    hstay, if_neg hleast]

/-! ### Ways -/

/-- The milliseconds that the amounts of a duration of milliseconds make. -/
theorem map_part_ofMillis {millis : Int} (h : millis.natAbs < 2 ^ 63) :
  DurationUnit.fixed.map (ofMillis millis).part
    = [0, millis.tdiv 86400000 * 86400000, (millis.tmod 86400000).tdiv 3600000 * 3600000,
      (millis.tmod 3600000).tdiv 60000 * 60000, (millis.tmod 60000).tdiv 1000 * 1000,
      millis.tmod 1000]
  := by
  have hdiv (k : Int) : (millis.tdiv k).natAbs ≤ millis.natAbs := by
    rw [Int.natAbs_tdiv]
    apply Nat.div_le_self
  have hmod (k : Int) : (millis.tmod k).natAbs ≤ millis.natAbs := by
    rw [Int.natAbs_tmod]
    apply Nat.mod_le
  have hdivmod (k l : Int) : ((millis.tmod k).tdiv l).natAbs ≤ millis.natAbs := by
    rw [Int.natAbs_tdiv]
    exact (Nat.div_le_self _ _).trans (hmod k)
  simp only [DurationUnit.fixed, List.map_cons, List.map_nil, part, get, ofMillis,
    DurationUnit.millis, toInt_ofInt_of_natAbs_le h (hdiv _), toInt_ofInt_of_natAbs_le h (hmod _),
    toInt_ofInt_of_natAbs_le h (hdivmod _ _), Int64.toInt_zero, Int.mul_one, Int.zero_mul]

/-- The milliseconds of a duration of milliseconds are the given ones: its amounts are of one sign,
and each takes up what the one before it leaves. -/
theorem fixedMillis?_ofMillis {millis : Int} (h : millis.natAbs < 2 ^ 63) :
  (ofMillis millis).fixedMillis? = int64? millis
  := by
  have hdays := Int.tdiv_mul_add_tmod millis 86400000
  have hhours := Int.tdiv_mul_add_tmod (millis.tmod 86400000) 3600000
  have hminutes := Int.tdiv_mul_add_tmod (millis.tmod 3600000) 60000
  have hseconds := Int.tdiv_mul_add_tmod (millis.tmod 60000) 1000
  rw [Int.tmod_tmod_of_dvd _ (by decide)] at hhours hminutes hseconds
  rw [fixedMillis?_eq, map_part_ofMillis h, checkedSum_of_sign]
  · congr 1
    simp only [List.sum_cons, List.sum_nil]
    omega
  · -- all amounts have the sign of the milliseconds
    obtain hsign | hsign := Int.le_total 0 millis
    · left
      have hmod (k : Int) := Int.tmod_nonneg k hsign
      have hpart {n k : Int} (hn : 0 ≤ n) (hk : 0 ≤ k) : 0 ≤ n.tdiv k * k :=
        Int.mul_nonneg (Int.tdiv_nonneg hn hk) hk
      simp [hmod, hpart, hsign]
    · right
      have hmod (k : Int) := tmod_nonpos hsign k
      have hpart {n k : Int} (hn : n ≤ 0) (hk : 0 ≤ k) : n.tdiv k * k ≤ 0 :=
        Int.mul_nonpos_of_nonpos_of_nonneg (tdiv_nonpos hn hk) hk
      simp [hmod, hpart, hsign]

/-- A duration of milliseconds moves a date-time by them. -/
theorem addTo?_ofMillis {millis : Int} (h : millis.natAbs < 2 ^ 63) (t : DateTime) :
  (ofMillis millis).addTo? t = t.addMillis? millis
  := by
  obtain ⟨w, hw⟩ : HasWord millis := hasWord_iff.mpr (by omega)
  have hleast : w ≠ Int64.minValue := by
    rintro rfl
    rw [← hw] at h
    exact absurd h (by decide)
  rw [addTo?_of_no_months rfl rfl _ hleast, hw]
  rw [fixedMillis?_ofMillis h, int64?_eq_some_iff, hw]

/-- The way from one date-time to another in whole milliseconds leads to the latter. -/
theorem addTo?_between {a b : DateTime} (ha : a.time.isLeap = false) (hb : b.time.isLeap = false)
    (hamillis : a.time.nano % 1000000 = 0) (hbmillis : b.time.nano % 1000000 = 0) :
  (between b a).addTo? b = some a
  := by
  have hdays := a.date.natAbs_sub_le b.date
  have hasecond := a.time.second_lt
  have hbsecond := b.time.second_lt
  have hanano := DateTime.nano_lt ha
  have hbnano := DateTime.nano_lt hb
  -- the distance is one of whole milliseconds, and far from the ends of the range of words
  obtain ⟨millis, hmillis⟩ : ∃ millis, a.nanos - b.nanos = millis * 1000000 := by
    use (a.nanos - b.nanos) / 1000000
    unfold DateTime.nanos
    omega
  have hsince : a.millisSince b = millis := by
    rw [DateTime.millisSince, DateTime.nanosSince_eq ha hb, hmillis]
    apply Int.mul_tdiv_cancel _ (by decide)
  have hbound : millis.natAbs < 2 ^ 63 := by
    unfold DateTime.nanos DateTime.seconds at hmillis
    omega
  rw [between, hsince, addTo?_ofMillis hbound, DateTime.addMillis?_eq hb, ← hmillis,
    add_sub_cancel, DateTime.ofNanos?_nanos ha]

/-- The way from one day to another is made of whole days. -/
theorem betweenDates_eq
    (a b : Date) :
  betweenDates b a = ofMillis ((a.number - b.number) * 86400000)
  := by
  have hmod {k : Int} (hk : k ∣ 86400000) : ((a.number - b.number) * 86400000).tmod k = 0 :=
    Int.tmod_eq_zero_of_dvd (Dvd.dvd.mul_left hk _)
  rw [ofMillis, Int.mul_tdiv_cancel _ (by decide), hmod (by decide), hmod (by decide),
    hmod (by decide), hmod (by decide)]
  rfl

/-- The way from one day to another leads to the latter. -/
theorem addTo?_betweenDates
    (a b : Date) :
  (betweenDates b a).addTo? b.midnight = some a.midnight
  := by
  have hdays := a.natAbs_sub_le b
  have hsum : b.midnight.nanos + (a.number - b.number) * 86400000 * 1000000 = a.midnight.nanos := by
    rw [Date.nanos_midnight, Date.nanos_midnight, dayNanos]
    omega
  rw [betweenDates_eq, addTo?_ofMillis (by omega), DateTime.addMillis?_eq b.isLeap_midnight, hsum,
    DateTime.ofNanos?_nanos a.isLeap_midnight]

/-! ### The order of days -/

/-- Whether a move of days leads outside leap seconds, and the earlier day not behind the later
one. -/
def KeepsOrder (moved : DateTime → Option DateTime) : Prop :=
  ∀ {a b : Date} {t u : DateTime}, a.number ≤ b.number → moved a.midnight = some t →
    moved b.midnight = some u → t.time.isLeap = false ∧ u.time.isLeap = false ∧ t.nanos ≤ u.nanos

/-- Where a day comes to depends on the day as far as its month and its place in that do. -/
theorem of_addTo?_midnight {d : Duration} {months millis : Int64} {a : Date} {t : DateTime}
    (hmonths : d.wholeMonths? = some months) (hmillis : d.fixedMillis? = some millis)
    (h : d.addTo? a.midnight = some t) :
  t.time.isLeap = false
    ∧ t.nanos = a.numberAfter months.toInt * dayNanos + millis.toInt * 1000000
  := by
  obtain ⟨months', millis', shifted, hmonths', hmillis', -, hshifted, hmoved⟩ :=
    addTo?_eq_some_iff.mp h
  obtain rfl := Option.some.inj (hmonths.symm.trans hmonths')
  obtain rfl := Option.some.inj (hmillis.symm.trans hmillis')
  obtain ⟨day, hday, rfl⟩ := Option.map_eq_some_iff.mp hshifted
  rw [Date.midnight, Date.addMonths?_eq] at hday
  rw [← Date.number_of_ofNumber?_eq_some hday, ← Date.nanos_midnight]
  apply DateTime.of_ofNanos?_eq_some
  rw [← DateTime.addMillis?_eq day.isLeap_midnight]
  apply hmoved

theorem keepsOrder_addTo?
    (d : Duration) :
  KeepsOrder d.addTo?
  := by
  intro a b t u hle ha hb
  obtain ⟨months, millis, -, hmonths, hmillis, -⟩ := addTo?_eq_some_iff.mp ha
  obtain ⟨ht, htnanos⟩ := of_addTo?_midnight hmonths hmillis ha
  obtain ⟨hu, hunanos⟩ := of_addTo?_midnight hmonths hmillis hb
  have hafter := Date.numberAfter_mono hle months.toInt
  use ht, hu
  rw [htnanos, hunanos, dayNanos]
  omega

theorem keepsOrder_subtractFrom?
    (d : Duration) :
  KeepsOrder d.subtractFrom?
  := by
  intro a b t u hle ha hb
  obtain ⟨opposite, hopposite, ha⟩ := Option.bind_eq_some_iff.mp ha
  obtain ⟨opposite', hopposite', hb⟩ := Option.bind_eq_some_iff.mp hb
  obtain rfl := Option.some.inj (hopposite.symm.trans hopposite')
  apply keepsOrder_addTo? opposite hle ha hb

end Duration

end RuleLang
