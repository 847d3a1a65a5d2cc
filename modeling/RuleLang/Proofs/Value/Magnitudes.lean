import RuleLang.Eval.Arithmetic
import RuleLang.Proofs.Value.Parts
import RuleLang.Value.Wire

/-!
# Magnitudes in the texts of values

The one operation on integers in the text of a value is the magnitude of an amount, which decides
between the singular and the plural of its unit.  `Value.text?` computes the text with magnitudes
that are checked.  They are words except for the least word, whose magnitude is too great by one;
where no duration holds it, the checked text is the text of the value.
-/

namespace RuleLang

/-- The value `x`, which is checked, is `a` if `fits`, and is not there if not. -/
structure GivesIf {α : Type} (fits : Prop) (x : Option α) (a : α) : Prop where
  eq_some : fits → x = some a
  eq_none : ¬fits → x = none

namespace GivesIf

variable {α β : Type} {fits fits' : Prop} {x : Option α} {a : α}

theorem of_true (h : fits) (a : α) :
  GivesIf fits (some a) a
  := ⟨fun _ => rfl, fun h' => absurd h h'⟩

theorem congr (h : GivesIf fits x a) (hfits : fits ↔ fits') :
  GivesIf fits' x a
  := propext hfits ▸ h

theorem map (h : GivesIf fits x a) (f : α → β) :
  GivesIf fits (do let a ← x; return f a) (f a)
  := by
  constructor
  · intro hfits
    rw [h.eq_some hfits]
    rfl
  · intro hfits
    rw [h.eq_none hfits]
    rfl

/-- Two checked values are there if both of them are. -/
theorem map₂ {γ : Type} {y : Option β} {b : β} (h : GivesIf fits x a) (h' : GivesIf fits' y b)
    (f : α → β → γ) :
  GivesIf (fits ∧ fits') (do let a ← x; let b ← y; return f a b) (f a b)
  := by
  by_cases hfits : fits
  · rw [h.eq_some hfits, propext (and_iff_right hfits)]
    exact h'.map (f a)
  · rw [h.eq_none hfits]
    exact ⟨fun hboth => absurd hboth.1 hfits, fun _ => rfl⟩

/-- Several checked values are there if all of them are. -/
theorem mapM {P : α → Prop} {f : α → Option β} {g : α → β} {as : List α}
    (h : ∀ a ∈ as, GivesIf (P a) (f a) (g a)) :
  GivesIf (∀ a ∈ as, P a) (as.mapM f) (as.map g)
  := by
  induction as with
  | nil => exact of_true nofun []
  | cons a as ih =>
    obtain ⟨ha, has⟩ := List.forall_mem_cons.mp h
    rw [List.mapM_cons, List.forall_mem_cons]
    apply ha.map₂ (ih has) List.cons

end GivesIf

/-! ### Amounts -/

/-- The magnitude of a word, if it is a word. -/
def Word.abs? (a : Int64) : Option Int64 := int64? a.toInt.natAbs

/-- The magnitude of every word but the least one is a word. -/
theorem Word.givesIf_abs?
    (a : Int64) :
  GivesIf (a ≠ Int64.minValue) (abs? a) a.abs
  := by
  constructor
  · intro hleast
    have hbits : a.toBitVec ≠ BitVec.intMin 64 := by
      intro h
      apply hleast
      apply Int64.toBitVec_inj.mp h
    have habs : (a.toInt.natAbs : Int) = a.abs.toInt :=
      (BitVec.toInt_abs_eq_natAbs_of_ne_intMin hbits).symm
    rw [abs?, habs, int64?_toInt]
  · intro hleast
    rw [Decidable.not_not.mp hleast]
    decide

/-- The word for an amount of a unit, if the magnitude of the amount is a word. -/
def DurationUnit.wordFor? (u : DurationUnit) (amount : Int64) : Option String := do
  let magnitude ← Word.abs? amount
  return if magnitude = 1 then u.singular else u.name

theorem DurationUnit.givesIf_wordFor?
    (u : DurationUnit) (amount : Int64) :
  GivesIf (amount ≠ Int64.minValue) (u.wordFor? amount) (u.wordFor amount)
  := (Word.givesIf_abs? amount).map _

namespace Duration

/-- The magnitudes of all amounts are words. -/
def HasMagnitudes (d : Duration) : Prop := ∀ u, d.get u ≠ Int64.minValue

/-- The text of a duration, if the magnitudes of its amounts are words. -/
def text? (d : Duration) : Option String :=
  if d = zero then some "0 seconds"
  else do
    let part? (u : DurationUnit) : Option String := do
      let word ← u.wordFor? (d.get u)
      return Word.text (d.get u) ++ " " ++ word
    let parts ← (DurationUnit.all.filter (d.get · ≠ 0)).mapM part?
    return String.intercalate " " parts

/-- The magnitudes that are taken are those of the amounts other than zero, of which the least
word is one. -/
theorem givesIf_text?
    (d : Duration) :
  GivesIf d.HasMagnitudes d.text? d.text
  := by
  unfold text? text
  split
  · rename_i hzero
    apply GivesIf.of_true
    intro u
    rw [hzero, get_zero]
    decide
  · have hpart (u : DurationUnit) (_ : u ∈ DurationUnit.all.filter (d.get · ≠ 0)) :=
      (u.givesIf_wordFor? (d.get u)).map (Word.text (d.get u) ++ " " ++ ·)
    apply ((GivesIf.mapM hpart).map (String.intercalate " ")).congr
    -- Amounts of zero are left out of the text, but zero is not the least word.
    constructor
    · intro h u hleast
      have hmem : u ∈ DurationUnit.all.filter (d.get · ≠ 0) := by
        rw [List.mem_filter, hleast]
        exact ⟨u.mem_all, by decide⟩
      apply h u hmem hleast
    · intro h u _
      apply h u

end Duration

/-! ### Values -/

namespace Value

mutual

/-- The text of a value, if the magnitudes of all amounts in it are words. -/
def charsWithin? (inner : Bool) : Value → Option (List Char)
  | list items => do
    let cs ← itemChars? items
    return '[' :: (cs ++ [']'])
  | map entries => do
    let cs ← entryChars? entries
    return '\x7b' :: (cs ++ ['\x7d'])
  | duration d => do
    let text ← d.text?
    return text.toList
  | v => some (v.charsWithin inner)

/-- Values with commas between them. -/
def itemChars? : List Value → Option (List Char)
  | [] => some []
  | [v] => v.charsWithin? true
  | v :: rest => do
    let cs ← v.charsWithin? true
    let ds ← itemChars? rest
    return cs ++ ',' :: ' ' :: ds

/-- Entries with commas between them. -/
def entryChars? : List (MapKey × Value) → Option (List Char)
  | [] => some []
  | [(k, v)] => do
    let cs ← v.charsWithin? true
    return k.text.toList ++ ':' :: ' ' :: cs
  | (k, v) :: rest => do
    let cs ← v.charsWithin? true
    let ds ← entryChars? rest
    return k.text.toList ++ ':' :: ' ' :: (cs ++ ',' :: ' ' :: ds)

end

/-- The text of a value, if the magnitudes of all amounts in it are words. -/
def text? (v : Value) : Option String := do
  let cs ← v.charsWithin? false
  return String.ofList cs

@[simp]
theorem text_str
    (s : String) :
  (str s).text = s
  := String.ofList_toList

/-- The magnitudes of the amounts of a value that is a duration are words. -/
def HasMagnitudes (v : Value) : Prop := ∀ d, v = duration d → d.HasMagnitudes

/-- Items are shown if each of them is. -/
theorem givesIf_itemChars? {P : Value → Prop} {items : List Value}
    (h : ∀ v ∈ items, GivesIf (P v) (v.charsWithin? true) (v.charsWithin true)) :
  GivesIf (∀ v ∈ items, P v) (itemChars? items) (itemChars items)
  := by
  induction items with
  | nil =>
    unfold itemChars? itemChars
    exact .of_true nofun []
  | cons v rest ih =>
    obtain ⟨hv, hrest⟩ := List.forall_mem_cons.mp h
    cases rest with
    | nil =>
      unfold itemChars? itemChars
      exact hv.congr List.forall_mem_singleton.symm
    | cons w rest =>
      unfold itemChars? itemChars
      exact (hv.map₂ (ih hrest) _).congr List.forall_mem_cons.symm

/-- Entries are shown if the value of each of them is. -/
theorem givesIf_entryChars? {P : MapKey × Value → Prop} {entries : List (MapKey × Value)}
    (h : ∀ entry ∈ entries,
      GivesIf (P entry) (entry.2.charsWithin? true) (entry.2.charsWithin true)) :
  GivesIf (∀ entry ∈ entries, P entry) (entryChars? entries) (entryChars entries)
  := by
  induction entries with
  | nil =>
    unfold entryChars? entryChars
    exact .of_true nofun []
  | cons entry rest ih =>
    obtain ⟨hv, hrest⟩ := List.forall_mem_cons.mp h
    cases rest with
    | nil =>
      unfold entryChars? entryChars
      exact (hv.map _).congr List.forall_mem_singleton.symm
    | cons next rest =>
      unfold entryChars? entryChars
      exact (hv.map₂ (ih hrest) _).congr List.forall_mem_cons.symm

theorem givesIf_charsWithin?
    (v : Value) (inner : Bool) :
  GivesIf (∀ w ∈ v.parts, w.HasMagnitudes) (v.charsWithin? inner) (v.charsWithin inner)
  := by
  induction v generalizing inner with
  | list items ih =>
    rw [forall_mem_parts_list, and_iff_right (by rintro d ⟨⟩)]
    unfold charsWithin? charsWithin
    exact (givesIf_itemChars? fun v hv => ih v hv true).map _
  | map entries ih =>
    rw [forall_mem_parts_map, and_iff_right (by rintro d ⟨⟩)]
    unfold charsWithin? charsWithin
    exact (givesIf_entryChars? (P := fun entry => ∀ w ∈ entry.2.parts, w.HasMagnitudes)
      fun entry hentry => ih entry hentry true).map _
  | duration d =>
    unfold charsWithin? charsWithin
    apply (d.givesIf_text?.map String.toList).congr
    simp [parts, HasMagnitudes]
  | _ =>
    unfold charsWithin?
    apply GivesIf.of_true
    simp [parts, HasMagnitudes]

/-- The text of a value, which is also what joins it to a string, is computed without a magnitude
that is no word exactly if no duration in the value holds the least word. -/
theorem text?_eq_none_iff
    (v : Value) :
  (v.text? = none ↔ ∃ d u, duration d ∈ v.parts ∧ d.get u = Int64.minValue)
    ∧ (∀ t, v.text? = some t → t = v.text)
    ∧ ∀ s, add (str s) v = .ok (str (s ++ v.text)) ∧ add v (str s) = .ok (str (v.text ++ s))
  := by
  have h : GivesIf (∀ w ∈ v.parts, w.HasMagnitudes) v.text? v.text :=
    (v.givesIf_charsWithin? false).map String.ofList
  have hleast : ¬(∀ w ∈ v.parts, w.HasMagnitudes)
      ↔ ∃ d u, duration d ∈ v.parts ∧ d.get u = Int64.minValue := by
    constructor
    · intro hnot
      apply Classical.byContradiction
      intro hnone
      apply hnot
      rintro _ hmem d rfl u hleast
      exact hnone ⟨d, u, hmem, hleast⟩
    · rintro ⟨d, u, hmem, hleast⟩ hall
      exact hall _ hmem d rfl u hleast
  refine ⟨?_, ?_, ?_⟩
  · rw [← hleast]
    constructor
    · intro hnone hfits
      rw [h.eq_some hfits] at hnone
      cases hnone
    · apply h.eq_none
  · intro t ht
    by_cases hfits : ∀ w ∈ v.parts, w.HasMagnitudes
    · exact (Option.some.inj ((h.eq_some hfits).symm.trans ht)).symm
    · rw [h.eq_none hfits] at ht
      cases ht
  · intro s
    constructor
    · rfl
    · cases v with
      | str s' =>
        change Except.ok (str (s' ++ (str s).text)) = _
        rw [text_str, text_str]
      | _ => rfl

/-- The least word is an amount of days that a document can hold.  Its magnitude is no word, and
its text has the plural nevertheless. -/
theorem text?_eq_none_days :
  let payload := Json.obj [("days", .int (-9223372036854775808))]
  let d : Duration := { days := Int64.minValue }
  ofJson (.obj [(durationTag, payload)]) = .ok (duration d)
    ∧ (duration d).text? = none
    ∧ (duration d).text = "-9223372036854775808 days"
    ∧ add (str "") (duration d) = .ok (str "-9223372036854775808 days")
  := by
  intro payload d
  obtain ⟨hnone, -, hjoin⟩ := text?_eq_none_iff (duration d)
  have htext : (duration d).text = "-9223372036854775808 days" := by decide +kernel
  refine ⟨rfl, hnone.mpr ⟨d, .days, by simp [parts], rfl⟩, htext, ?_⟩
  rw [(hjoin "").1, htext]
  rfl

end Value

end RuleLang
