import Mathlib.Data.List.TakeWhile
import RuleLang.Calendar.Printer
import RuleLang.Calendar.Reader
import RuleLang.Proofs.Number.Digits
import RuleLang.Proofs.Outcome

/-!
# Dates read back

The text of a day is read as that day, and the text of a date-time as that date-time.
`Scan.Takes scan cs a rest` says that a scan reads `a` from the text `cs` and leaves `rest`
of it; each scan takes what the printer writes for its part.
-/

namespace RuleLang

namespace Scan

variable {α β : Type}

/-- The scan reads `a` from the text `cs` and leaves `rest`. -/
def Takes (scan : Scan α) (cs : List Char) (a : α) (rest : List Char) : Prop :=
  scan cs = .ok (a, rest)

theorem Takes.bind {scan : Scan α} {next : α → Scan β} {a : α} {b : β}
    {cs behind rest : List Char} (h : Takes scan cs a behind)
    (hnext : Takes (next a) behind b rest) :
  Takes (scan >>= next) cs b rest
  := Except.bind_eq_ok_iff.mpr ⟨(a, behind), h, hnext⟩

theorem Takes.pure
    (a : α) (cs : List Char) :
  Takes (pure a) cs a cs
  := rfl

theorem takes_literal
    (c : Char) (cs : List Char) :
  Takes (literal c) (c :: cs) () cs
  := by
  rw [Takes, literal, if_pos rfl]
  rfl

/-- A text that does not begin with a blank has none taken away. -/
theorem takes_blanks {cs : List Char} (h : ∀ c ∈ cs.head?, ¬Text.isBlank c) :
  Takes blanks cs () cs
  := by
  cases cs with
  | nil => rfl
  | cons c cs =>
    have hc : Text.isBlank c = false := by simpa using h c rfl
    rw [Takes, blanks, Text.trimStart, List.dropWhile_cons, hc]
    rfl

theorem not_isBlank_of_isDigit {c : Char} (h : c.isDigit) :
  ¬Text.isBlank c
  := by
  simp only [Char.isDigit, Bool.and_eq_true, decide_eq_true_eq, UInt32.le_iff_toNat_le] at h
  have hge : 48 ≤ c.toNat := h.1
  have hle : c.toNat ≤ 57 := h.2
  simp only [Text.isBlank, Bool.or_eq_true, Bool.and_eq_true, decide_eq_true_eq]
  omega

/-- As many digits as may be taken are taken, or fewer before something else. -/
theorem takes_digits {least most n : Nat} {ds rest : List Char} (hds : AreDigits ds)
    (hvalue : digitsValue ds = n) (hn : n < 9223372036854775808) (hleast : least ≤ ds.length)
    (hmost : ds.length = most ∨ (ds.length ≤ most ∧ ∀ c ∈ rest.head?, ¬c.isDigit)) :
  Takes (digits least most) (ds ++ rest) n rest
  := by
  have htaken : ((ds ++ rest).take most).takeWhile Char.isDigit = ds := by
    obtain rfl | ⟨hle, hrest⟩ := hmost
    · have h : (ds ++ []).takeWhile Char.isDigit = ds :=
        takeWhile_append_of_head hds (by rintro c ⟨⟩)
      rw [List.take_left]
      rwa [List.append_nil] at h
    · rw [List.take_append, List.take_of_length_le hle]
      apply takeWhile_append_of_head hds
      intro c hc
      cases rest with
      | nil => simp at hc
      | cons d rest =>
        cases hk : most - ds.length with
        | zero => simp [hk] at hc
        | succ k =>
          rw [hk] at hc
          apply hrest c hc
  rw [Takes, digits]
  simp only [htaken, List.drop_left, hvalue]
  rw [if_neg (by rw [List.length_append]; omega), if_neg (by omega), if_neg (by omega)]
  rfl

/-! ### Days -/

/-- A number filled up to two digits is taken as a field. -/
theorem takes_field {least most n : Nat} (h : least ≤ n ∧ n ≤ most) (hn : n < 100)
    (rest : List Char) :
  Takes (field least most) (padded 2 n ++ rest) n rest
  := by
  have hlength : (padded 2 n).length = 2 := length_padded (by decide) hn
  have hdigits : Takes (digits 1 2) (padded 2 n ++ rest) n rest :=
    takes_digits (areDigits_padded 2 n) (digitsValue_padded 2 n) (by omega) (by omega)
      (.inl hlength)
  have hhead := (areDigits_padded 2 n).head (padded_ne_nil 2 n) rest
  apply (takes_blanks fun c hc => not_isBlank_of_isDigit (hhead c hc)).bind
  apply hdigits.bind
  rw [if_pos h]
  apply Takes.pure

/-- The number of a year is taken with its sign. -/
theorem takes_signed {y : Int} {rest : List Char} (hy : y.natAbs < 2147483648)
    (hrest : ∀ c ∈ rest.head?, ¬c.isDigit) :
  Takes year.signed (Civil.yearText y ++ rest) y rest
  := by
  have hdigits := areDigits_padded 4 y.natAbs
  have hpos := List.length_pos_iff.mpr (padded_ne_nil 4 y.natAbs)
  have hany : Takes (digits 1 (padded 4 y.natAbs ++ rest).length) (padded 4 y.natAbs ++ rest)
      y.natAbs rest :=
    takes_digits hdigits (digitsValue_padded 4 _) (by omega) hpos
      (.inr ⟨by rw [List.length_append]; omega, hrest⟩)
  unfold Civil.yearText
  split
  · have hneg : -(y.natAbs : Int) = y := by omega
    have h : Takes year.signed ('-' :: (padded 4 y.natAbs ++ rest)) (-(y.natAbs : Int)) rest :=
      Except.bind_eq_ok_iff.mpr ⟨(y.natAbs, rest), hany, rfl⟩
    rwa [hneg] at h
  · have hnat : (y.natAbs : Int) = y := by omega
    split
    · have h : Takes year.signed ('+' :: (padded 4 y.natAbs ++ rest)) (y.natAbs : Int) rest :=
        Except.bind_eq_ok_iff.mpr ⟨(y.natAbs, rest), hany, rfl⟩
      rwa [hnat] at h
    · have hlength : (padded 4 y.natAbs).length = 4 := length_padded (by decide) (by omega)
      have hfour : Takes (digits 1 4) (padded 4 y.natAbs ++ rest) y.natAbs rest :=
        takes_digits hdigits (digitsValue_padded 4 _) (by omega) hpos (.inl hlength)
      have hhead := hdigits.head (padded_ne_nil 4 y.natAbs) rest
      have h : Takes year.signed (padded 4 y.natAbs ++ rest) (y.natAbs : Int) rest := by
        unfold Takes year.signed
        split
        · rename_i hcs
          rw [hcs] at hhead
          cases hhead '-' rfl
        · rename_i hcs
          rw [hcs] at hhead
          cases hhead '+' rfl
        · exact Except.bind_eq_ok_iff.mpr ⟨(y.natAbs, rest), hfour, rfl⟩
      rwa [hnat] at h

/-- The text of a year is taken, before a character that is no digit. -/
theorem takes_year {y : Int} {rest : List Char} (hy : y.natAbs < 2147483648)
    (hrest : ∀ c ∈ rest.head?, ¬c.isDigit) :
  Takes year (Civil.yearText y ++ rest) y rest
  := by
  have hblank : ∀ c ∈ (Civil.yearText y ++ rest).head?, ¬Text.isBlank c := by
    have hhead := (areDigits_padded 4 y.natAbs).head (padded_ne_nil 4 y.natAbs) rest
    unfold Civil.yearText
    split
    · rintro c ⟨⟩
      decide
    · split
      · rintro c ⟨⟩
        decide
      · intro c hc
        apply not_isBlank_of_isDigit (hhead c hc)
  apply (takes_blanks hblank).bind
  apply (takes_signed hy hrest).bind
  rw [if_pos (by omega)]
  apply Takes.pure

/-- The text of a day is taken as its name. -/
theorem takes_civil {c : Civil} (hyear : c.year.natAbs < 2147483648)
    (hmonth : 1 ≤ c.month ∧ c.month ≤ 12) (hday : 1 ≤ c.day ∧ c.day ≤ 31) (rest : List Char) :
  Takes civil (c.text ++ rest) c rest
  := by
  rw [Civil.text, List.append_assoc, List.append_assoc]
  apply (takes_year hyear _).bind
  · apply (takes_literal '-' _).bind
    apply (takes_field hmonth (by omega) _).bind
    apply (takes_literal '-' _).bind
    apply (takes_field hday (by omega) rest).bind
    apply Takes.pure
  · rintro c ⟨⟩
    decide

end Scan

/-! ### Whole dates -/

/-- The year of a day has few digits, and its month and day are those of a calendar. -/
theorem Date.civil_bounds
    (d : Date) :
  d.civil.year.natAbs < 2147483648 ∧ (1 ≤ d.civil.month ∧ d.civil.month ≤ 12)
    ∧ 1 ≤ d.civil.day ∧ d.civil.day ≤ 31
  := by
  have hvalid := Civil.isValid_ofDayNumber d.number
  simp only [Civil.isValid, decide_eq_true_eq] at hvalid
  obtain ⟨hmonth, hmonth', hday, hday'⟩ := hvalid
  constructor
  · have hfirst := d.first_le
    have hlast := d.le_last
    unfold civil Civil.ofDayNumber
    extract_lets shifted dayOfEra century dayOfCentury span dayOfSpan yearOfSpan dayOfYear
      month day year
    split
    · dsimp only
      omega
    · dsimp only
      omega
  · use ⟨hmonth, hmonth'⟩, hday
    apply Nat.le_trans hday'
    unfold daysInMonth
    split
    · split
      · decide
      · decide
    · split
      · decide
      · decide

/-- A text taken to its end is read. -/
theorem Scan.Takes.whole {α : Type} {scan : Scan α} {cs : List Char} {a : α}
    (h : Takes scan cs a []) :
  Scan.whole scan cs = .ok a
  := Except.bind_eq_ok_iff.mpr ⟨(a, []), h, rfl⟩

/-- The name of a day names it. -/
theorem Date.toDate_civil
    (d : Date) :
  d.civil.toDate = .ok d
  := by
  rw [Civil.toDate, ofCivil?_civil]
  rfl

/-- The text of a day is read as that day. -/
@[simp]
theorem Date.read_text
    (d : Date) :
  Date.read d.text = .ok d
  := by
  obtain ⟨hyear, hmonth, hday⟩ := d.civil_bounds
  have htakes := Scan.takes_civil hyear hmonth hday []
  rw [List.append_nil] at htakes
  apply Except.bind_eq_ok_iff.mpr
  exact ⟨d.civil, htakes.whole, d.toDate_civil⟩

/-! ### Times of day -/

/-- What a clock shows at a time of day. -/
def TimeOfDay.clock (t : TimeOfDay) : Clock where
  hour := t.second / 3600
  minute := t.second / 60 % 60
  second := t.second % 60 + t.nano / 1000000000
  nano := t.nano % 1000000000

namespace Scan

/-- Digits of a fraction are taken as nanoseconds. -/
theorem takes_nanos {k n : Nat} (hk : 0 < k) (hk' : k ≤ 9) (hn : n < 10 ^ k) :
  Takes nanos (padded k n) (n * power 10 (9 - k)) []
  := by
  have hdigits := areDigits_padded k n
  have hlength : (padded k n).length = k := length_padded hk hn
  have htaken : ((padded k n).take 9).takeWhile Char.isDigit = padded k n := by
    have h : (padded k n ++ []).takeWhile Char.isDigit = padded k n :=
      takeWhile_append_of_head hdigits (by rintro c ⟨⟩)
    rw [List.take_of_length_le (by omega)]
    rwa [List.append_nil] at h
  have hbehind : (padded k n).dropWhile Char.isDigit = [] :=
    List.dropWhile_eq_nil_iff.mpr hdigits
  have hempty : (padded k n).isEmpty = false := by simpa using padded_ne_nil k n
  rw [Takes, nanos]
  simp only [htaken, hempty, hbehind, digitsValue_padded, hlength, Bool.false_eq_true, if_false]
  rfl

/-- The fraction of a second is taken. -/
theorem takes_fraction {n : Nat} (hn : n < 1000000000) :
  Takes fraction (fractionText n) n []
  := by
  have hgroup : ∀ {k m : Nat}, 0 < k → k ≤ 9 → m < 10 ^ k → m * power 10 (9 - k) = n →
      Takes fraction ('.' :: padded k m) n [] := by
    rintro k m hk hk' hm rfl
    apply takes_nanos hk hk' hm
  unfold fractionText
  split
  · rename_i hzero
    obtain rfl : n = 0 := hzero
    rfl
  · split
    · apply hgroup
      · decide
      · decide
      · omega
      · change n / 1000000 * 1000000 = n
        omega
    · split
      · apply hgroup
        · decide
        · decide
        · omega
        · change n / 1000 * 1000 = n
          omega
      · apply hgroup
        · decide
        · decide
        · omega
        · apply Nat.mul_one n

/-- The text of a time is taken as what a clock shows then. -/
theorem takes_seconds
    (t : TimeOfDay) :
  Takes seconds t.text t.clock []
  := by
  have hsecond := t.second_lt
  have hnano := t.nano_lt
  have hleap := t.leap
  have hminutes : ∀ rest, Takes minutes
      (padded 2 (t.second / 3600) ++ ':' :: (padded 2 (t.second / 60 % 60) ++ rest))
      { hour := t.second / 3600, minute := t.second / 60 % 60 } rest := by
    intro rest
    apply (takes_field (by omega) (by omega) _).bind
    apply (takes_literal ':' _).bind
    apply (takes_field (by omega) (by omega) rest).bind
    apply Takes.pure
  rw [TimeOfDay.text]
  simp only [List.append_assoc, List.cons_append]
  apply (hminutes _).bind
  apply (takes_literal ':' _).bind
  apply (takes_field (by omega) (by omega) _).bind
  apply (takes_fraction (by omega)).bind
  apply Takes.pure

end Scan

/-- A time is read off the clock that shows it. -/
theorem TimeOfDay.toTime_clock
    (t : TimeOfDay) :
  t.clock.toTime = .ok t
  := by
  have hsecond := t.second_lt
  have hnano := t.nano_lt
  have hleap := t.leap
  have hcount : 3600 * (t.second / 3600) + 60 * (t.second / 60 % 60)
      + min (t.second % 60 + t.nano / 1000000000) 59 = t.second := by omega
  have hfraction : (if t.second % 60 + t.nano / 1000000000 = 60
      then t.nano % 1000000000 + 1000000000 else t.nano % 1000000000) = t.nano := by
    split <;> omega
  unfold Clock.toTime clock
  dsimp only
  rw [hcount, hfraction, of?_self]
  dsimp only
  rw [if_pos (by omega)]
  rfl

/-! ### Whole date-times -/

/-- Whether a character occurs in the texts of days and of times of day. -/
def isStampChar (c : Char) : Bool :=
  c.isDigit || c = '-' || c = '+' || c = ':' || c = '.'

/-- Whether a text has only characters of days and times of day. -/
def IsStamp (cs : List Char) : Prop := ∀ c ∈ cs, isStampChar c

theorem AreDigits.isStamp {ds : List Char} (h : AreDigits ds) :
  IsStamp ds
  := by
  intro c hc
  simp [isStampChar, h c hc]

theorem IsStamp.append {as bs : List Char} (has : IsStamp as) (hbs : IsStamp bs) :
  IsStamp (as ++ bs)
  := by
  intro c hc
  obtain hc | hc := List.mem_append.mp hc
  · apply has c hc
  · apply hbs c hc

theorem IsStamp.cons {c : Char} {cs : List Char} (hc : isStampChar c) (hcs : IsStamp cs) :
  IsStamp (c :: cs)
  := by
  intro d hd
  obtain rfl | hd := List.mem_cons.mp hd
  · apply hc
  · apply hcs d hd

theorem isStamp_nil :
  IsStamp []
  := by
  rintro c ⟨⟩

theorem isStamp_padded
    (width n : Nat) :
  IsStamp (padded width n)
  := (areDigits_padded width n).isStamp

theorem Date.isStamp_text
    (d : Date) :
  IsStamp d.text
  := by
  have hyear : IsStamp (Civil.yearText d.civil.year) := by
    unfold Civil.yearText
    split
    · exact .cons rfl (isStamp_padded _ _)
    · split
      · exact .cons rfl (isStamp_padded _ _)
      · apply isStamp_padded
  exact (hyear.append (.cons rfl (isStamp_padded _ _))).append (.cons rfl (isStamp_padded _ _))

theorem TimeOfDay.isStamp_text
    (t : TimeOfDay) :
  IsStamp t.text
  := by
  have hfraction : IsStamp (fractionText (t.nano % 1000000000)) := by
    unfold fractionText
    split
    · apply isStamp_nil
    · split
      · exact .cons rfl (isStamp_padded _ _)
      · split
        · exact .cons rfl (isStamp_padded _ _)
        · exact .cons rfl (isStamp_padded _ _)
  exact (((isStamp_padded _ _).append (.cons rfl (isStamp_padded _ _))).append
    (.cons rfl (isStamp_padded _ _))).append hfraction

/-- Beside the characters of days and times a date-time has its `T`. -/
theorem DateTime.isStampChar_of_mem_text {t : DateTime} {c : Char} (h : c ∈ t.text) :
  isStampChar c ∨ c = 'T'
  := by
  obtain h | h := List.mem_append.mp h
  · exact .inl (t.date.isStamp_text c h)
  · obtain rfl | h := List.mem_cons.mp h
    · exact .inr rfl
    · exact .inl (t.time.isStamp_text c h)

/-- A text without spaces has nothing to put a `T` in place of. -/
theorem DateTime.joinWithT_eq_self {cs : List Char} (h : ' ' ∉ cs) :
  joinWithT cs = cs
  := by
  induction cs with
  | nil => rfl
  | cons c cs ih =>
    simp only [List.mem_cons, not_or] at h
    rw [joinWithT, if_neg (Ne.symm h.1), ih h.2]

/-- The text of a date-time is read as that date-time. -/
@[simp]
theorem DateTime.read?_text
    (t : DateTime) :
  DateTime.read? t.text = some t
  := by
  have hspace : ' ' ∉ t.text := by
    intro h
    obtain hc | hc := isStampChar_of_mem_text h
    · cases hc
    · cases hc
  obtain ⟨hyear, hmonth, hday⟩ := t.date.civil_bounds
  have hlocal : readLocal Scan.seconds t.text = .ok t := by
    apply Except.bind_eq_ok_iff.mpr
    refine ⟨(t.date.civil, t.time.clock), Scan.Takes.whole ?_, ?_⟩
    · apply (Scan.takes_civil hyear hmonth hday _).bind
      apply (Scan.takes_literal 'T' _).bind
      apply (Scan.takes_seconds t.time).bind
      apply Scan.Takes.pure
    · dsimp only
      rw [Date.toDate_civil, TimeOfDay.toTime_clock]
      rfl
  rw [read?, joinWithT_eq_self hspace, hlocal]
  rfl

end RuleLang
