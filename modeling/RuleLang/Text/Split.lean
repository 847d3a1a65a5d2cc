/-!
# Parts of texts

A text cut at every occurrence of a character, and its lines.
-/

namespace RuleLang.Text

/-- The parts of a text between the occurrences of `sep`; there is always one more part
than there are occurrences. -/
def split (sep : Char) : List Char → List (List Char)
  | [] => [[]]
  | c :: cs =>
    if c = sep then [] :: split sep cs
    else
      match split sep cs with
      | [] => [[c]]
      | part :: parts => (c :: part) :: parts

/-- There is always one more part than there are occurrences. -/
theorem length_split
    (sep : Char) (cs : List Char) :
  (split sep cs).length = cs.count sep + 1
  := by
  induction cs with
  | nil => rfl
  | cons c cs ih =>
    unfold split
    split
    · simp_all
    · rename_i h
      split <;> simp_all

/-- There is always a first part. -/
theorem split_ne_nil
    (sep : Char) (cs : List Char) :
  split sep cs ≠ []
  := by
  intro h
  have hlength := length_split sep cs
  rw [h] at hlength
  contradiction

/-- No part holds the character that separates the parts. -/
theorem not_mem_of_mem_split
    {sep : Char} {cs part : List Char} (h : part ∈ split sep cs) :
  sep ∉ part
  := by
  induction cs generalizing part with
  | nil => simp_all [split]
  | cons c cs ih =>
    unfold split at h
    split at h
    · rcases List.mem_cons.mp h with rfl | h
      · exact List.not_mem_nil
      · exact ih h
    · rename_i hc
      split at h
      · rename_i hnil
        exact absurd hnil (split_ne_nil sep cs)
      · rename_i first parts hcons
        rcases List.mem_cons.mp h with rfl | h
        · intro hmem
          rcases List.mem_cons.mp hmem with rfl | hmem
          · exact hc rfl
          · exact ih (by rw [hcons]; exact List.mem_cons_self) hmem
        · exact ih (by rw [hcons]; exact List.mem_cons_of_mem _ h)

theorem split_eq_splitOn
    (sep : Char) (cs : List Char) :
  split sep cs = cs.splitOn sep
  := by
  induction cs with
  | nil => rfl
  | cons c cs ih =>
    unfold split
    rw [ih]
    unfold List.splitOn
    rw [List.splitOnP_cons_eq_if_modifyHead]
    simp only [beq_iff_eq]
    congr 1
    split
    · rename_i hnil
      cases List.splitOnP_ne_nil _ _ hnil
    · rename_i hparts
      rw [hparts, List.modifyHead_cons]

/-- What stands before and behind each occurrence of `sep`, from the first to the last. -/
def cuts (sep : Char) : List Char → List (List Char × List Char)
  | [] => []
  | c :: cs =>
    let later := (cuts sep cs).map fun (before, behind) => (c :: before, behind)
    if c = sep then ([], cs) :: later else later

/-- The cuts of a text are its partitions at an occurrence of `sep`. -/
theorem mem_cuts_iff
    {sep : Char} {cs before behind : List Char} :
  (before, behind) ∈ cuts sep cs ↔ cs = before ++ sep :: behind
  := by
  induction cs generalizing before with
  | nil => simp [cuts]
  | cons c cs ih =>
    have hlater : (before, behind) ∈ (cuts sep cs).map (fun cut => (c :: cut.1, cut.2))
        ↔ ∃ rest, before = c :: rest ∧ cs = rest ++ sep :: behind := by
      simp only [← ih, List.mem_map, Prod.exists, Prod.mk.injEq]
      constructor
      · rintro ⟨rest, _, hmem, rfl, rfl⟩
        exact ⟨rest, rfl, hmem⟩
      · rintro ⟨rest, rfl, hmem⟩
        exact ⟨rest, behind, hmem, rfl, rfl⟩
    have hcuts : (before, behind) ∈ cuts sep (c :: cs)
        ↔ c = sep ∧ before = [] ∧ behind = cs
          ∨ ∃ rest, before = c :: rest ∧ cs = rest ++ sep :: behind := by
      rw [← hlater, cuts]
      split <;> simp [*]
    rw [hcuts]
    cases before with
    | nil => simp [eq_comm]
    | cons d rest => simp [eq_comm, and_assoc]

/-- A text without a character has no cuts. -/
theorem cuts_eq_nil
    {sep : Char} {cs : List Char} (h : sep ∉ cs) :
  cuts sep cs = []
  := by
  rw [List.eq_nil_iff_forall_not_mem]
  rintro ⟨before, behind⟩ hmem
  apply h
  rw [mem_cuts_iff.mp hmem]
  exact List.mem_append_right _ List.mem_cons_self

/-- The first cut of a text, and those behind it. -/
theorem cuts_append_sep
    {sep : Char} {before : List Char} (h : sep ∉ before) (behind : List Char) :
  cuts sep (before ++ sep :: behind)
    = (before, behind)
      :: (cuts sep behind).map fun cut => (before ++ sep :: cut.1, cut.2)
  := by
  induction before with
  | nil => simp [cuts]
  | cons c before ih =>
    obtain ⟨hc, hbefore⟩ := not_or.mp (mt List.mem_cons.mpr h)
    rw [List.cons_append, cuts, if_neg (Ne.symm hc), ih hbefore]
    simp

/-- A line that a line feed ends, without the carriage return before that. -/
def dropReturn (line : List Char) : List Char :=
  if line.getLast? = some '\r' then line.dropLast else line

/-- The lines of a text.  Behind its last line feed there is a line only if there is a
character. -/
def lines (cs : List Char) : List (List Char) :=
  let parts := split '\n' cs
  let last := parts.getLastD []
  parts.dropLast.map dropReturn ++ if last.isEmpty then [] else [last]

end RuleLang.Text
