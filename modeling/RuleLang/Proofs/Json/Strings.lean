import RuleLang.Json.Reader

/-!
# Strings of documents read back

Every character of a string is read from the text that it is written as, and the string from
the text between its quotes.
-/

namespace RuleLang.Json

/-! ### Characters -/

/-- A hexadecimal digit is read as its value. -/
theorem hexDigit?_digitChar {n : Nat} (h : n < 16) :
  hexDigit? n.digitChar = some n
  := by
  have hall : ∀ n < 16, hexDigit? (Nat.digitChar n) = some n := by decide
  apply hall n h

/-- Four hexadecimal digits are read as the number that they are written for. -/
theorem hexUnit?_hexText {n : Nat} (h : n < 65536) (rest : List Char) :
  hexUnit? (hexText n ++ rest) = some (n, rest)
  := by
  have hsum : 4096 * (n / 4096 % 16) + 256 * (n / 256 % 16) + 16 * (n / 16 % 16) + n % 16
      = n := by omega
  simp only [hexText, List.map_cons, List.map_nil, List.cons_append, List.nil_append, hexUnit?]
  have hdigit (m : Nat) : hexDigit? (m % 16).digitChar = some (m % 16) :=
    hexDigit?_digitChar (Nat.mod_lt m (by decide))
  rw [hdigit, hdigit, hdigit, hdigit]
  simp [hsum]

/-- The letter of an escape is read as the character that it is written for. -/
theorem escape?_of_lookup {c letter : Char} (h : shortEscapes.lookup c = some letter)
    (rest : List Char) :
  escape? (letter :: rest) = some (c, rest)
  := by
  have hall : ∀ entry ∈ shortEscapes, escape? (entry.2 :: rest) = some (entry.1, rest) := by
    simp [shortEscapes, escape?]
  obtain ⟨before, after, hentries, _⟩ := List.lookup_eq_some_iff.mp h
  apply hall (c, letter)
  simp [hentries]

/-- A control is written by four hexadecimal digits, and read from them. -/
theorem unicodeEscape?_hexText {c : Char} (h : c.toNat < 32) (rest : List Char) :
  unicodeEscape? (hexText c.toNat ++ rest) = some (c, rest)
  := by
  have hunit := hexUnit?_hexText (by omega : c.toNat < 65536) rest
  have hhigh : ¬(0xD800 ≤ c.toNat ∧ c.toNat < 0xDC00) := by omega
  have hlow : ¬(0xDC00 ≤ c.toNat ∧ c.toNat < 0xE000) := by omega
  unfold unicodeEscape?
  rw [hunit]
  simp [hhigh, hlow]

/-- A character is read from the text that it is written as. -/
theorem stringChar?_escapeChar
    (c : Char) (rest : List Char) :
  stringChar? (escapeChar c ++ rest) = some (c, rest)
  := by
  unfold escapeChar
  split
  case h_1 letter hletter =>
    apply escape?_of_lookup hletter
  case h_2 hnone =>
    split
    · rename_i hc
      apply unicodeEscape?_hexText hc
    · rename_i hc
      have hbackslash : c ≠ '\\' := by
        rintro rfl
        simp [shortEscapes] at hnone
      simp [stringChar?, hc]

/-- The text of a character between quotes does not start with a quote. -/
theorem head?_escapeChar
    (c : Char) :
  ∃ a rest, escapeChar c = a :: rest ∧ a ≠ '"'
  := by
  unfold escapeChar
  split
  case h_1 letter _ =>
    exact ⟨'\\', [letter], rfl, by decide⟩
  case h_2 hnone =>
    split
    · exact ⟨'\\', _, rfl, by decide⟩
    · refine ⟨c, [], rfl, ?_⟩
      rintro rfl
      simp [shortEscapes] at hnone

/-! ### Strings -/

/-- The inside of a string is read up to its closing quote, for which its length is `fuel`
enough. -/
theorem unquote?_flatMap_escapeChar
    (s rest : List Char) :
  ∀ fuel, s.length ≤ fuel →
    unquote? fuel (s.flatMap escapeChar ++ '"' :: rest) = some (s, rest)
  := by
  induction s with
  | nil =>
    intro fuel _
    cases fuel <;> rfl
  | cons c s ih =>
    intro fuel hfuel
    obtain ⟨a, text, htext, ha⟩ := head?_escapeChar c
    have hchar := stringChar?_escapeChar c (s.flatMap escapeChar ++ '"' :: rest)
    cases fuel with
    | zero => simp at hfuel
    | succ fuel =>
      have hs := ih fuel (by simpa using hfuel)
      rw [List.flatMap_cons, List.append_assoc]
      rw [htext] at hchar ⊢
      rw [List.cons_append] at hchar ⊢
      rw [unquote?]
      · simp [hchar, hs]
      · intro tail htail
        injection htail with hquote _
        apply ha hquote

/-- The characters of a string are no more than those of its text. -/
theorem length_le_flatMap_escapeChar
    (s : List Char) :
  s.length ≤ (s.flatMap escapeChar).length
  := by
  induction s with
  | nil => simp
  | cons c s ih =>
    obtain ⟨a, text, htext, _⟩ := head?_escapeChar c
    simp only [List.flatMap_cons, List.length_append, htext, List.length_cons]
    omega

/-- A string is read behind its opening quote from the text that it is written as. -/
theorem string_quote
    (s : String) (rest : List Char) :
  string (s.toList.flatMap escapeChar ++ '"' :: rest) = some (s, rest)
  := by
  unfold string
  rw [unquote?_flatMap_escapeChar]
  · simp
  · have hlength := length_le_flatMap_escapeChar s.toList
    simp only [List.length_append]
    omega

end RuleLang.Json
