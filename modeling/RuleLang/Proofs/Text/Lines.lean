import Mathlib.Data.List.DropRight
import RuleLang.Proofs.Token.Tiling
import RuleLang.Text.Split

/-!
# The lines of a text

A text cut at its line feeds.  The line in which a place of a text lies is found by the number of
line feeds before that place; texts that are written behind each other, each with a line feed,
are cut apart again unless one of them has a line feed itself.
-/

namespace RuleLang.Text

variable {sep : Char} {cs : List Char}

/-- The first part ends where the character first occurs. -/
theorem head?_split
    (sep : Char) (cs : List Char) :
  (split sep cs).head? = some (cs.takeWhile (· ≠ sep))
  := by
  induction cs with
  | nil => rfl
  | cons c cs ih =>
    unfold split
    split
    · rename_i hc
      simp [hc]
    · rename_i hc
      cases hparts : split sep cs with
      | nil => cases split_ne_nil sep cs hparts
      | cons part parts =>
        rw [hparts] at ih
        have hpart := Option.some.inj ih
        simp [hc, hpart]

/-- The parts on both sides of an occurrence are the parts of the text. -/
theorem split_append_sep
    (sep : Char) (as bs : List Char) :
  split sep (as ++ sep :: bs) = split sep as ++ split sep bs
  := by
  induction as with
  | nil => simp [split]
  | cons a as ih =>
    rw [List.cons_append, split, split, ih]
    split
    · rfl
    · cases hparts : split sep as with
      | nil => cases split_ne_nil sep as hparts
      | cons part parts => rfl

/-- A text is one part exactly if the character does not occur in it. -/
theorem split_eq_singleton_iff :
  split sep cs = [cs] ↔ sep ∉ cs
  := by
  constructor
  · intro h
    have hmem : cs ∈ split sep cs := h ▸ List.mem_singleton_self cs
    apply not_mem_of_mem_split hmem
  · intro h
    have hlength := length_split sep cs
    rw [List.count_eq_zero_of_not_mem h] at hlength
    obtain ⟨part, hpart⟩ := List.length_eq_one_iff.mp hlength
    have hhead := head?_split sep cs
    rw [hpart] at hhead ⊢
    rw [Option.some.inj hhead, List.takeWhile_eq_self_iff.mpr]
    intro c hc
    simpa using ne_of_mem_of_not_mem hc h

/-- A text has no line feed, or one behind which there is no other. -/
theorem cases_lastLine
    (cs : List Char) :
  '\n' ∉ cs ∧ lastLine cs = cs
    ∨ ∃ as bs, cs = as ++ '\n' :: bs ∧ '\n' ∉ bs ∧ lastLine cs = bs
  := by
  induction cs using List.reverseRecOn with
  | nil => exact .inl ⟨List.not_mem_nil, rfl⟩
  | append_singleton cs c ih =>
    unfold lastLine at ih ⊢
    rw [List.rtakeWhile_concat]
    by_cases hc : c = '\n'
    · subst hc
      exact .inr ⟨cs, [], rfl, List.not_mem_nil, by simp⟩
    · rw [if_pos (by simpa using hc)]
      obtain ⟨hmem, heq⟩ | ⟨as, bs, rfl, hmem, heq⟩ := ih
      · left
        rw [heq]
        simpa [Ne.symm hc] using hmem
      · right
        rw [heq]
        refine ⟨as, bs ++ [c], by simp, ?_, rfl⟩
        simpa [Ne.symm hc] using hmem

/-- The line in which a place lies has as many lines before it as there are line feeds. -/
theorem getElem?_split_count
    (before behind : List Char) :
  (split '\n' (before ++ behind))[before.count '\n']?
    = some (lastLine before ++ behind.takeWhile (· ≠ '\n'))
  := by
  have hfirst : ∀ as : List Char, '\n' ∉ as →
      (split '\n' (as ++ behind))[0]? = some (as ++ behind.takeWhile (· ≠ '\n')) := by
    intro as has
    rw [← List.head?_eq_getElem?, head?_split, List.takeWhile_append_of_pos]
    intro c hc
    simpa using ne_of_mem_of_not_mem hc has
  obtain ⟨hmem, heq⟩ | ⟨as, bs, rfl, hmem, heq⟩ := cases_lastLine before
  · rw [heq, List.count_eq_zero_of_not_mem hmem, hfirst before hmem]
  · have hcount : (as ++ '\n' :: bs).count '\n' = (split '\n' as).length := by
      simp [length_split, List.count_eq_zero_of_not_mem hmem]
    rw [heq, hcount, List.append_assoc, List.cons_append, split_append_sep,
      List.getElem?_append_right (Nat.le_refl _), Nat.sub_self, hfirst bs hmem]

/-! ### Texts in one line -/

/-- Whether a text stands in one line. -/
def IsLine (cs : List Char) : Prop := '\n' ∉ cs

instance : DecidablePred IsLine := fun cs => inferInstanceAs (Decidable ('\n' ∉ cs))

@[simp]
theorem isLine_nil :
  IsLine []
  := List.not_mem_nil

@[simp]
theorem isLine_cons_iff {c : Char} {cs : List Char} :
  IsLine (c :: cs) ↔ c ≠ '\n' ∧ IsLine cs
  := by
  simp [IsLine, eq_comm]

@[simp]
theorem isLine_append_iff {as bs : List Char} :
  IsLine (as ++ bs) ↔ IsLine as ∧ IsLine bs
  := by
  simp [IsLine]

/-- Texts with a text between them are in one line if all of them are. -/
theorem isLine_intercalate {between : String} {parts : List String}
    (hbetween : IsLine between.toList) (hparts : ∀ part ∈ parts, IsLine part.toList) :
  IsLine (between.intercalate parts).toList
  := by
  induction parts with
  | nil => exact isLine_nil
  | cons part parts ih =>
    obtain ⟨hpart, hparts⟩ := List.forall_mem_cons.mp hparts
    cases parts with
    | nil => simpa using hpart
    | cons next parts =>
      rw [String.intercalate_cons_cons, String.toList_append, String.toList_append]
      simp only [isLine_append_iff]
      exact ⟨⟨hpart, hbetween⟩, ih hparts⟩

/-- Texts, each with a line feed behind it, are cut at their ends and at their own line feeds. -/
theorem split_flatMap_concat
    (parts : List (List Char)) :
  split '\n' (parts.flatMap (· ++ ['\n'])) = parts.flatMap (split '\n') ++ [[]]
  := by
  induction parts with
  | nil => rfl
  | cons part parts ih =>
    rw [List.flatMap_cons, List.flatMap_cons, List.append_assoc, List.singleton_append,
      split_append_sep, ih, List.append_assoc]

/-- Cutting leaves texts as they are exactly if each of them is in one line. -/
theorem flatMap_split_eq_self_iff {parts : List (List Char)} :
  parts.flatMap (split '\n') = parts ↔ ∀ part ∈ parts, IsLine part
  := by
  constructor
  · intro h part hpart
    rw [← h] at hpart
    obtain ⟨_, -, hmem⟩ := List.mem_flatMap.mp hpart
    apply not_mem_of_mem_split hmem
  · intro h
    induction parts with
    | nil => rfl
    | cons part parts ih =>
      obtain ⟨hpart, hparts⟩ := List.forall_mem_cons.mp h
      rw [List.flatMap_cons, split_eq_singleton_iff.mpr hpart, ih hparts, List.singleton_append]

end RuleLang.Text
