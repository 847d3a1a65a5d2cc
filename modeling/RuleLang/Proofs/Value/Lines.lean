import RuleLang.Proofs.Calendar.Reading
import RuleLang.Proofs.Json.Numbers
import RuleLang.Proofs.Text.Lines
import RuleLang.Proofs.Value.Parts
import RuleLang.Value.Text

/-!
# Values in one line

The text of a value stands in one line, except that a line feed of a string is shown as it is,
and so is one of a key.  The strings inside a list or a map are quoted, and their line feeds are
escapes.
-/

namespace RuleLang

open Text

/-! ### Texts without line feeds -/

theorem IsSolid.isLine {cs : List Char} (h : IsSolid cs) :
  IsLine cs
  := fun hmem => absurd (h '\n' hmem) (by decide)

theorem IsStamp.isLine {cs : List Char} (h : IsStamp cs) :
  IsLine cs
  := fun hmem => absurd (h '\n' hmem) (by decide)

@[simp]
theorem isLine_digits
    (n : Nat) :
  IsLine (Nat.toDigits 10 n)
  := (Decimal.areDigits_digitsOf n).isSolid.isLine

@[simp]
theorem Word.isLine_text
    (w : Int64) :
  IsLine (text w).toList
  := by
  unfold text
  cases w.toInt with
  | ofNat n =>
    rw [Decimal.toList_toString_natCast]
    apply isLine_digits
  | negSucc n =>
    rw [Decimal.toList_toString_negSucc]
    exact isLine_cons_iff.mpr ⟨by decide, isLine_digits (n + 1)⟩

@[simp]
theorem Date.isLine_text
    (d : Date) :
  IsLine d.text
  := d.isStamp_text.isLine

@[simp]
theorem DateTime.isLine_text
    (t : DateTime) :
  IsLine t.text
  := by
  unfold text
  simp [t.time.isStamp_text.isLine]

@[simp]
theorem Duration.isLine_text
    (d : Duration) :
  IsLine d.text.toList
  := by
  unfold text
  split
  · decide
  · apply isLine_intercalate (by decide)
    intro part hpart
    obtain ⟨u, -, rfl⟩ := List.mem_map.mp hpart
    have hword : IsLine (u.wordFor (d.get u)).toList := by
      unfold DurationUnit.wordFor
      split <;> cases u <;> decide
    simp [hword]

namespace Text

/-! ### Quoted text -/

theorem isLine_hexDigits
    (n : Nat) :
  IsLine (Nat.toDigits 16 n)
  := by
  have hdigit : ∀ d < 16, IsLine [Nat.digitChar d] := by decide
  induction n using Nat.strongRecOn with
  | ind n ih =>
    obtain hn | hn := Nat.lt_or_ge n 16
    · rw [Nat.toDigits_of_lt_base hn]
      apply hdigit n hn
    · rw [Nat.toDigits_of_base_le (by decide) hn]
      apply isLine_append_iff.mpr
      exact ⟨ih (n / 16) (by omega), hdigit (n % 16) (Nat.mod_lt n (by decide))⟩

/-- Every character is written in one line between quotes, a line feed as an escape. -/
theorem isLine_quotedChar
    (c : Char) :
  IsLine (quotedChar c)
  := by
  unfold quotedChar
  split
  · rename_i letter hletter
    have hletters : ∀ escape ∈ letterEscapes, IsLine ['\\', escape.2] := by decide
    obtain ⟨before, behind, hescapes, -⟩ := List.lookup_eq_some_iff.mp hletter
    apply hletters (c, letter)
    simp [hescapes]
  · rename_i hnone
    split
    · have hc : c ≠ '\n' := by
        rintro rfl
        cases hnone
      exact isLine_cons_iff.mpr ⟨hc, isLine_nil⟩
    · simp [isLine_hexDigits]

/-- A quoted text stands in one line. -/
@[simp]
theorem isLine_quoted
    (cs : List Char) :
  IsLine (quoted cs)
  := by
  have hchars : IsLine (cs.flatMap quotedChar) := by
    intro hmem
    obtain ⟨c, -, hc⟩ := List.mem_flatMap.mp hmem
    apply isLine_quotedChar c hc
  simp [quoted, hchars]

end Text

namespace Value

/-! ### Texts of values -/

theorem isLine_itemChars_iff {items : List Value} :
  IsLine (itemChars items) ↔ ∀ v ∈ items, IsLine (v.charsWithin true)
  := by
  induction items with
  | nil => simp [itemChars]
  | cons v rest ih =>
    cases rest with
    | nil => simp [itemChars]
    | cons w rest => simp_all [itemChars]

theorem isLine_entryChars_iff {entries : List (MapKey × Value)} :
  IsLine (entryChars entries)
    ↔ ∀ entry ∈ entries, IsLine entry.1.text.toList ∧ IsLine (entry.2.charsWithin true)
  := by
  induction entries with
  | nil => simp [entryChars]
  | cons entry rest ih =>
    cases rest with
    | nil => simp [entryChars]
    | cons next rest => simp_all [entryChars, and_assoc]

/-- Whether a value is no map of which a key has a line feed. -/
def HasLineKeys : Value → Prop
  | map entries => ∀ entry ∈ entries, IsLine entry.1.text.toList
  | _ => True

/-- Whether a value can be shown in one line: it is no string with a line feed, and no map in it
has such a key. -/
def FitsLine (v : Value) : Prop :=
  (∀ s, v = str s → IsLine s.toList) ∧ ∀ w ∈ v.parts, w.HasLineKeys

theorem charsWithin_list
    (inner : Bool) (items : List Value) :
  (list items).charsWithin inner = '[' :: (itemChars items ++ [']'])
  := rfl

theorem charsWithin_map
    (inner : Bool) (entries : List (MapKey × Value)) :
  (map entries).charsWithin inner = '\x7b' :: (entryChars entries ++ ['\x7d'])
  := rfl

/-- Only a string is shown in another way inside a list or a map. -/
theorem charsWithin_eq_of_ne_str {v : Value} (h : ∀ s, v ≠ str s) (inner : Bool) :
  v.charsWithin inner = v.charsWithin true
  := by
  cases v with
  | str s => exact absurd rfl (h s)
  | _ => rfl

/-- Inside a list or a map only the keys of maps are shown with their line feeds. -/
theorem isLine_charsWithin_true_iff {v : Value} :
  IsLine (v.charsWithin true) ↔ ∀ w ∈ v.parts, w.HasLineKeys
  := by
  have hplain {w : Value} (hline : IsLine (w.charsWithin true)) (hkeys : w.HasLineKeys)
      (hparts : w.parts = [w]) :
      IsLine (w.charsWithin true) ↔ ∀ w' ∈ w.parts, w'.HasLineKeys := by
    rw [hparts]
    exact iff_of_true hline (List.forall_mem_singleton.mpr hkeys)
  induction v with
  | int n => exact hplain (Word.isLine_text n) trivial rfl
  | float x => exact hplain (FloatNotation.fractional.isSolid_write x).isLine trivial rfl
  | str s => exact hplain (isLine_quoted s.toList) trivial rfl
  | bool b =>
    refine hplain ?_ trivial rfl
    cases b <;> decide
  | date d => exact hplain d.isLine_text trivial rfl
  | dateTime t => exact hplain t.isLine_text trivial rfl
  | duration d => exact hplain d.isLine_text trivial rfl
  | undefined => exact hplain (by decide) trivial rfl
  | list items ih =>
    have hitems := forall₂_congr ih
    rw [forall_mem_parts_list, charsWithin_list]
    simp [isLine_itemChars_iff, hitems, HasLineKeys]
  | map entries ih =>
    have hentries := forall₂_congr ih
    rw [forall_mem_parts_map, charsWithin_map]
    simp only [isLine_cons_iff, isLine_append_iff, isLine_entryChars_iff, forall_and, hentries]
    simp [HasLineKeys]

/-- A value is shown in one line exactly if it fits in one. -/
theorem isLine_text_iff {v : Value} :
  IsLine v.text.toList ↔ v.FitsLine
  := by
  rw [text, String.toList_ofList, FitsLine]
  by_cases h : ∃ s, v = str s
  · obtain ⟨s, rfl⟩ := h
    have hparts : ∀ w ∈ (str s).parts, w.HasLineKeys := List.forall_mem_singleton.mpr trivial
    change IsLine s.toList ↔ _
    simpa using fun _ => hparts
  · have hne := not_exists.mp h
    rw [charsWithin_eq_of_ne_str hne, isLine_charsWithin_true_iff]
    simp [hne]

end Value

end RuleLang
