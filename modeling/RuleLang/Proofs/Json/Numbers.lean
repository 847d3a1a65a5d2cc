import RuleLang.Json.Printer
import RuleLang.Json.Reader
import RuleLang.Proofs.Number.Digits

/-!
# Numbers of documents read back

A number that ends a text is read in the same way in front of any other text that does not
go on with it.  The texts of integers are read as the integers.
-/

namespace RuleLang

namespace Decimal

/-- The digits of a number begin with a zero only if the number is zero. -/
theorem head?_digitsOf_ne_zero {n : Nat} (hn : 0 < n) :
  (digitsOf n).head? ≠ some '0'
  := by
  induction n using Nat.strongRecOn with
  | ind n ih =>
    by_cases hsmall : n < 10
    · have hall : ∀ n < 10, 0 < n → ([Nat.digitChar n]).head? ≠ some '0' := by decide
      rw [digitsOf, Nat.toDigits_of_lt_base hsmall]
      apply hall n hsmall hn
    · have htens := ih (n / 10) (by omega) (by omega)
      rw [digitsOf, Nat.toDigits_of_base_le (by decide) (by omega)]
      cases hdigits : digitsOf (n / 10) with
      | nil => exact absurd hdigits (digitsOf_ne_nil _)
      | cons d ds =>
        rw [hdigits] at htens
        rwa [show Nat.toDigits 10 (n / 10) = d :: ds from hdigits]

end Decimal

/-! ### The text of floats -/

/-- Whether a text consists of visible characters. -/
def IsSolid (cs : List Char) : Prop := ∀ c ∈ cs, ' ' < c

namespace IsSolid

variable {as bs : List Char} {c : Char}

theorem cons (hc : ' ' < c) (h : IsSolid as) :
  IsSolid (c :: as)
  := List.forall_mem_cons.mpr ⟨hc, h⟩

theorem append (has : IsSolid as) (hbs : IsSolid bs) :
  IsSolid (as ++ bs)
  := List.forall_mem_append.mpr ⟨has, hbs⟩

theorem of_sublist (has : IsSolid as) (h : bs.Sublist as) :
  IsSolid bs
  := fun c hc => has c (h.subset hc)

end IsSolid

theorem AreDigits.isSolid {ds : List Char} (hds : AreDigits ds) :
  IsSolid ds
  := by
  intro c hc
  have hdigit := hds c hc
  simp only [Char.isDigit, Bool.and_eq_true, decide_eq_true_eq] at hdigit
  exact Nat.lt_of_lt_of_le (by decide : ' '.toNat < '0'.toNat) hdigit.1

namespace FloatNotation

variable (n : FloatNotation)

theorem isSolid_writePositional {digits : List Char} (hdigits : IsSolid digits) (e : Int) :
  IsSolid (n.writePositional digits e)
  := by
  have hzeros (k : Nat) := (areDigits_replicate_zero k).isSolid
  unfold writePositional
  dsimp only
  split
  · apply (hdigits.append (hzeros _)).append
    split <;> simp [IsSolid]
  · split
    · apply (hdigits.of_sublist (List.take_sublist ..)).append
      apply IsSolid.cons (by decide)
      apply hdigits.of_sublist (List.drop_sublist ..)
    · apply IsSolid.cons (by decide)
      apply IsSolid.cons (by decide)
      apply (hzeros _).append hdigits

theorem isSolid_writeScientific {digits : List Char} (hdigits : IsSolid digits) (e : Int) :
  IsSolid (n.writeScientific digits e)
  := by
  have hexponent := (Decimal.areDigits_digitsOf e.natAbs).isSolid
  unfold writeScientific
  dsimp only
  apply IsSolid.append
  · apply (hdigits.of_sublist (List.take_sublist ..)).append
    split
    · simp [IsSolid]
    · simp [IsSolid]
    · apply IsSolid.cons (by decide)
      apply hdigits.of_sublist (List.sublist_cons_self ..)
  · apply IsSolid.cons (by decide)
    apply IsSolid.append _ hexponent
    split
    · simp [IsSolid]
    · split <;> simp [IsSolid]

theorem isSolid_writeDecimal
    (d : Decimal) :
  IsSolid (n.writeDecimal d)
  := by
  have hdigits := (Decimal.areDigits_digitsOf d.coefficient).isSolid
  unfold writeDecimal
  dsimp only
  split
  · apply isSolid_writePositional n hdigits
  · apply isSolid_writeScientific n hdigits

/-- The text of a float consists of visible characters. -/
theorem isSolid_write
    (x : Float) :
  IsSolid (n.write x).toList
  := by
  unfold write
  split
  · simp [IsSolid]
  · split <;> simp [IsSolid]
  · rename_i negative m q _
    have hmagnitude : IsSolid (if m = 0 then n.writePositional ['0'] 0
        else n.writeDecimal (Decimal.shortest n.tie m q)) := by
      split
      · apply isSolid_writePositional
        simp [IsSolid]
      · apply isSolid_writeDecimal
    rw [String.toList_ofList]
    split
    · apply IsSolid.cons (by decide) hmagnitude
    · apply hmagnitude

end FloatNotation

namespace Json

/-! ### Where numbers end -/

/-- Whether a text does not go on with a number in front of it. -/
def EndsNumber (rest : List Char) : Prop :=
  ∀ c ∈ rest.head?, ¬c.isDigit ∧ c ≠ '.' ∧ c ≠ 'e' ∧ c ≠ 'E'

theorem EndsNumber.nil : EndsNumber [] := by
  simp [EndsNumber]

/-- Whether a reader leaves an end of its text, and reads the same when a text follows that does
not go on with a number. -/
def Scan.Extends {α : Type} (scan : Scan α) : Prop :=
  ∀ {cs tail : List Char} {a : α}, scan cs = some (a, tail) →
    tail <:+ cs ∧ ∀ rest, EndsNumber rest → scan (cs ++ rest) = some (a, tail ++ rest)

/-- Digits are read up to the first character that is none. -/
theorem digits_eq_some_iff {cs ds tail : List Char} :
  digits cs = some (ds, tail)
    ↔ cs = ds ++ tail ∧ ds ≠ [] ∧ AreDigits ds ∧ ∀ c ∈ tail.head?, ¬c.isDigit
  := by
  unfold digits
  dsimp only
  constructor
  · intro h
    split at h
    · contradiction
    · rename_i hne
      obtain ⟨rfl, rfl⟩ := Prod.mk.inj (Option.some.inj h)
      have hdrop : cs.drop (cs.takeWhile Char.isDigit).length = cs.dropWhile Char.isDigit := by
        have hwhole := @List.takeWhile_append_dropWhile _ Char.isDigit cs
        apply @List.append_cancel_left _ (cs.takeWhile Char.isDigit)
        rw [hwhole, List.prefix_iff_eq_append.mp (List.takeWhile_prefix _)]
      rw [hdrop, List.takeWhile_append_dropWhile]
      refine ⟨rfl, by simpa using hne, List.all_eq_true.mp List.all_takeWhile, ?_⟩
      intro c hc
      have hfalse := List.head?_dropWhile_not Char.isDigit cs
      rw [hc] at hfalse
      simpa using hfalse
  · rintro ⟨rfl, hne, hds, htail⟩
    rw [takeWhile_append_of_head hds htail]
    simp [hne]

/-- What stands at the end of a text that does not go on with a number is behind the same
characters when another one follows it. -/
theorem head?_append_of_ends {p : Char → Prop} {tail rest : List Char}
    (htail : ∀ c ∈ tail.head?, p c) (hrest : ∀ c ∈ rest.head?, p c) :
  ∀ c ∈ (tail ++ rest).head?, p c
  := by
  cases tail with
  | nil => apply hrest
  | cons c tail => apply htail

theorem digits_extends : Scan.Extends digits := by
  intro cs tail ds h
  obtain ⟨rfl, hne, hds, htail⟩ := digits_eq_some_iff.mp h
  constructor
  · apply List.suffix_append
  · intro rest hrest
    rw [digits_eq_some_iff]
    refine ⟨List.append_assoc .., hne, hds, ?_⟩
    apply head?_append_of_ends htail
    intro c hc
    apply (hrest c hc).1

theorem fraction_extends : Scan.Extends fraction := by
  intro cs tail ds h
  unfold fraction at h
  split at h
  case h_1 cs' =>
    obtain ⟨hsuffix, hmore⟩ := digits_extends h
    constructor
    · apply hsuffix.trans
      apply List.suffix_cons
    · intro rest hrest
      apply hmore rest hrest
  case h_2 hpoint =>
    obtain ⟨rfl, rfl⟩ := Prod.mk.inj (Option.some.inj h)
    constructor
    · apply List.suffix_rfl
    · intro rest hrest
      unfold fraction
      split
      case h_1 cs' hcs =>
        exfalso
        have hends : ∀ c ∈ (cs ++ rest).head?, c ≠ '.' := by
          apply head?_append_of_ends
          · rintro c hc rfl
            cases cs with
            | nil => contradiction
            | cons c' cs =>
              obtain rfl := Option.some.inj hc
              apply hpoint cs rfl
          · intro c hc
            apply (hrest c hc).2.1
        rw [hcs] at hends
        apply hends '.' rfl rfl
      case h_2 => rfl

/-- Whether an exponent is negative, and its text behind the sign. -/
def splitSign : List Char → Bool × List Char
  | '-' :: cs => (true, cs)
  | '+' :: cs => (false, cs)
  | cs => (false, cs)

theorem splitSign_suffix
    (cs : List Char) :
  (splitSign cs).2 <:+ cs
  := by
  unfold splitSign
  split
  · apply List.suffix_cons
  · apply List.suffix_cons
  · apply List.suffix_rfl

theorem splitSign_append {cs : List Char} (hcs : cs ≠ []) (rest : List Char) :
  splitSign (cs ++ rest) = ((splitSign cs).1, (splitSign cs).2 ++ rest)
  := by
  cases cs with
  | nil => contradiction
  | cons sign cs =>
    by_cases hminus : sign = '-'
    · rw [hminus]
      rfl
    · by_cases hplus : sign = '+'
      · rw [hplus]
        rfl
      · simp [splitSign, hminus, hplus]

/-- An exponent is read behind its mark from its sign and its digits. -/
theorem exponent_of_mark {c : Char} (hc : c = 'e' ∨ c = 'E') (cs : List Char) :
  exponent (c :: cs)
    = (digits (splitSign cs).2).map fun r =>
      (some (if (splitSign cs).1 then -(digitsValue r.1 : Int) else digitsValue r.1), r.2)
  := by
  unfold exponent
  dsimp only
  rw [if_pos hc]
  change (digits (splitSign cs).2).bind _ = _
  rw [Option.map_eq_bind]
  rfl

theorem exponent_of_no_mark {cs : List Char} (hcs : ∀ c ∈ cs.head?, c ≠ 'e' ∧ c ≠ 'E') :
  exponent cs = some (none, cs)
  := by
  cases cs with
  | nil => rfl
  | cons c cs =>
    obtain ⟨he, hE⟩ := hcs c rfl
    simp [exponent, he, hE]

theorem exponent_extends : Scan.Extends exponent := by
  intro cs tail e h
  by_cases hmark : ∀ c ∈ cs.head?, c ≠ 'e' ∧ c ≠ 'E'
  · rw [exponent_of_no_mark hmark] at h
    obtain ⟨rfl, rfl⟩ := Prod.mk.inj (Option.some.inj h)
    constructor
    · apply List.suffix_rfl
    · intro rest hrest
      apply exponent_of_no_mark
      apply head?_append_of_ends hmark
      intro c hc
      apply (hrest c hc).2.2
  · cases cs with
    | nil => simp at hmark
    | cons c cs =>
      have hc : c = 'e' ∨ c = 'E' := by
        simpa [Classical.or_iff_not_imp_left] using hmark
      rw [exponent_of_mark hc] at h
      obtain ⟨⟨ds, tail'⟩, hdigits, hresult⟩ := Option.map_eq_some_iff.mp h
      obtain ⟨rfl, rfl⟩ := Prod.mk.inj hresult
      obtain ⟨hsuffix, hmore⟩ := digits_extends hdigits
      have hcs : cs ≠ [] := by
        rintro rfl
        contradiction
      constructor
      · apply hsuffix.trans
        apply (splitSign_suffix cs).trans
        apply List.suffix_cons
      · intro rest hrest
        rw [List.cons_append, exponent_of_mark hc, splitSign_append hcs, hmore rest hrest]
        rfl

/-- A number behind its sign. -/
def magnitude (negative : Bool) : Scan Json := fun cs => do
  let (whole, cs) ← digits cs
  if whole.head? = some '0' ∧ 1 < whole.length then none
  let (fraction, cs) ← fraction cs
  let (exponent, cs) ← exponent cs
  let j ← ofNumber? negative whole fraction exponent
  return (j, cs)

theorem number_minus
    (cs : List Char) :
  number ('-' :: cs) = magnitude true cs
  := rfl

theorem number_of_no_minus {cs : List Char} (h : ∀ c ∈ cs.head?, c ≠ '-') :
  number cs = magnitude false cs
  := by
  unfold number
  split
  rename_i heq
  split at heq
  case h_1 tail => exact absurd rfl (h '-' rfl)
  case h_2 =>
    obtain ⟨rfl, rfl⟩ := Prod.mk.inj heq
    rfl

/-- A number is read from its digits, its fraction and its exponent. -/
theorem magnitude_eq_some_iff {negative : Bool} {cs tail : List Char} {j : Json} :
  magnitude negative cs = some (j, tail)
    ↔ ∃ whole cs₁ ds cs₂ e, digits cs = some (whole, cs₁)
      ∧ ¬(whole.head? = some '0' ∧ 1 < whole.length) ∧ fraction cs₁ = some (ds, cs₂)
      ∧ exponent cs₂ = some (e, tail) ∧ ofNumber? negative whole ds e = some j
  := by
  unfold magnitude
  constructor
  · intro h
    obtain ⟨⟨whole, cs₁⟩, hwhole, h⟩ := Option.bind_eq_some_iff.mp h
    dsimp only at h
    split at h
    · contradiction
    · rename_i hzero
      obtain ⟨⟨ds, cs₂⟩, hds, h⟩ := Option.bind_eq_some_iff.mp h
      obtain ⟨⟨e, cs₃⟩, he, h⟩ := Option.bind_eq_some_iff.mp h
      obtain ⟨j', hj, h⟩ := Option.bind_eq_some_iff.mp h
      obtain ⟨rfl, rfl⟩ := Prod.mk.inj (Option.some.inj h)
      exact ⟨whole, cs₁, ds, cs₂, e, hwhole, hzero, hds, he, hj⟩
  · rintro ⟨whole, cs₁, ds, cs₂, e, hwhole, hzero, hds, he, hj⟩
    simp [hwhole, hzero, hds, he, hj]

theorem magnitude_extends
    (negative : Bool) :
  (magnitude negative).Extends
  := by
  intro cs tail j h
  obtain ⟨whole, cs₁, ds, cs₂, e, hwhole, hzero, hds, he, hj⟩ := magnitude_eq_some_iff.mp h
  obtain ⟨hsuffix₁, hwhole'⟩ := digits_extends hwhole
  obtain ⟨hsuffix₂, hds'⟩ := fraction_extends hds
  obtain ⟨hsuffix₃, he'⟩ := exponent_extends he
  constructor
  · apply hsuffix₃.trans
    apply hsuffix₂.trans hsuffix₁
  · intro rest hrest
    rw [magnitude_eq_some_iff]
    exact ⟨whole, _, ds, _, e, hwhole' rest hrest, hzero, hds' rest hrest, he' rest hrest, hj⟩

theorem number_extends : Scan.Extends number := by
  intro cs tail j h
  by_cases hminus : ∀ c ∈ cs.head?, c ≠ '-'
  · rw [number_of_no_minus hminus] at h
    obtain ⟨hsuffix, hmore⟩ := magnitude_extends false h
    apply And.intro hsuffix
    intro rest hrest
    rw [number_of_no_minus]
    · apply hmore rest hrest
    · cases cs with
      | nil => simp [magnitude, digits] at h
      | cons c cs => apply hminus
  · obtain ⟨cs, rfl⟩ : ∃ cs', cs = '-' :: cs' := by
      cases cs with
      | nil => simp at hminus
      | cons c cs => simpa using hminus
    obtain ⟨hsuffix, hmore⟩ := magnitude_extends true h
    constructor
    · apply hsuffix.trans
      apply List.suffix_cons
    · intro rest hrest
      apply hmore rest hrest

/-! ### Integers -/

/-- The digits of a number are read up to a text that does not go on with them. -/
theorem digits_digitsOf
    (n : Nat) {rest : List Char} (hrest : EndsNumber rest) :
  digits (Decimal.digitsOf n ++ rest) = some (Decimal.digitsOf n, rest)
  := by
  have htaken : (Decimal.digitsOf n ++ rest).takeWhile Char.isDigit = Decimal.digitsOf n :=
    takeWhile_append_of_head (Decimal.areDigits_digitsOf n) (fun c hc => (hrest c hc).1)
  have hne := Decimal.digitsOf_ne_nil n
  unfold digits
  dsimp only
  rw [htaken]
  simp [hne]

/-- Digits behind a sign, which a text follows that does not go on with a number, are an integer
if it fits. -/
theorem magnitude_digitsOf {negative : Bool} {n : Nat} {j : Json} {rest : List Char}
    (hrest : EndsNumber rest)
    (hj : ofNumber? negative (Decimal.digitsOf n) [] none = some j) :
  magnitude negative (Decimal.digitsOf n ++ rest) = some (j, rest)
  := by
  rw [magnitude_eq_some_iff]
  refine ⟨_, rest, [], rest, none, digits_digitsOf n hrest, ?_, ?_, ?_, hj⟩
  · rintro ⟨hzero, hlength⟩
    cases n with
    | zero => contradiction
    | succ n => apply Decimal.head?_digitsOf_ne_zero n.succ_pos hzero
  · cases rest with
    | nil => rfl
    | cons c rest => simp [fraction, (hrest c rfl).2.1]
  · apply exponent_of_no_mark
    intro c hc
    apply (hrest c hc).2.2

/-- An integer that fits is read from the text that it is written as. -/
theorem number_toString {n : Int} (hlow : -9223372036854775808 ≤ n)
    (hhigh : n < 18446744073709551616) {rest : List Char} (hrest : EndsNumber rest) :
  number ((toString n).toList ++ rest) = some (int n, rest)
  := by
  cases n with
  | ofNat n =>
    rw [Decimal.toList_toString_natCast, number_of_no_minus]
    · apply magnitude_digitsOf hrest
      have hn : (n : Int) < 18446744073709551616 := hhigh
      unfold ofNumber?
      rw [Decimal.digitsValue_digitsOf]
      rw [if_pos ⟨rfl, rfl, Bool.false_ne_true, hn⟩]
      rfl
    · rintro c hc rfl
      have hdigit := (Decimal.areDigits_digitsOf n).head (Decimal.digitsOf_ne_nil n) rest _ hc
      revert hdigit
      decide
  | negSucc n =>
    rw [Decimal.toList_toString_negSucc, List.cons_append, number_minus]
    apply magnitude_digitsOf hrest
    have hn : 0 < ((n + 1 : Nat) : Int) ∧ ((n + 1 : Nat) : Int) ≤ 9223372036854775808 := by omega
    unfold ofNumber?
    rw [Decimal.digitsValue_digitsOf]
    apply (if_neg (by simp)).trans
    apply if_pos ⟨rfl, rfl, rfl, hn.1, hn.2⟩

/-- What is read as a number starts with a minus sign or a digit. -/
theorem head?_of_number {cs : List Char} {r : Json × List Char} (h : number cs = some r) :
  ∃ c rest, cs = c :: rest ∧ (c = '-' ∨ c.isDigit)
  := by
  cases cs with
  | nil => contradiction
  | cons c cs =>
    refine ⟨c, cs, rfl, ?_⟩
    by_cases hminus : c = '-'
    · exact .inl hminus
    · rw [number_of_no_minus (by rintro _ ⟨⟩; exact hminus)] at h
      obtain ⟨j, _⟩ := r
      obtain ⟨ds, tail, _, _, _, hdigits, -⟩ := magnitude_eq_some_iff.mp h
      obtain ⟨hcs, hne, hds, -⟩ := digits_eq_some_iff.mp hdigits
      right
      apply hds.head hne tail
      rw [← hcs]
      rfl

end Json

end RuleLang
