import RuleLang.Proofs.Json.Numbers
import RuleLang.Proofs.Json.Strings

/-!
# Documents read back

The text of a document is read as the document, unless its arrays and objects lie too deep in
each other.  `Json.nesting` is how deep they lie, and `Json.Readable` is what its numbers and
its objects have to be like.
-/

namespace RuleLang

namespace Json

/-! ### Documents and their depth -/

mutual

/-- How many arrays and objects of a document lie in each other. -/
def nesting : Json → Nat
  | arr items => itemsNesting items + 1
  | obj entries => entriesNesting entries + 1
  | _ => 0

/-- How many arrays and objects of several documents lie in each other. -/
def itemsNesting : List Json → Nat
  | [] => 0
  | j :: rest => max j.nesting (itemsNesting rest)

/-- How many arrays and objects of the values of an object lie in each other. -/
def entriesNesting : List (String × Json) → Nat
  | [] => 0
  | (_, j) :: rest => max j.nesting (entriesNesting rest)

end

theorem itemsNesting_le_iff {items : List Json} {d : Nat} :
  itemsNesting items ≤ d ↔ ∀ j ∈ items, j.nesting ≤ d
  := by
  induction items with
  | nil => simp [itemsNesting]
  | cons j rest ih => rw [itemsNesting, Nat.max_le, ih, List.forall_mem_cons]

theorem entriesNesting_le_iff {entries : List (String × Json)} {d : Nat} :
  entriesNesting entries ≤ d ↔ ∀ entry ∈ entries, entry.2.nesting ≤ d
  := by
  induction entries with
  | nil => simp [entriesNesting]
  | cons entry rest ih => rw [entriesNesting, Nat.max_le, ih, List.forall_mem_cons]

/-- An array lies less than `d + 1` deep if its items lie less than `d` deep. -/
theorem nesting_arr_lt_iff {items : List Json} {d : Nat} :
  (arr items).nesting < d + 1 ↔ 0 < d ∧ ∀ j ∈ items, j.nesting < d
  := by
  cases d with
  | zero => simp [nesting]
  | succ d =>
    simp only [nesting, Nat.lt_succ_iff, Nat.add_le_add_iff_right, itemsNesting_le_iff,
      Nat.zero_le, true_and]

/-- An object lies less than `d + 1` deep if its values lie less than `d` deep. -/
theorem nesting_obj_lt_iff {entries : List (String × Json)} {d : Nat} :
  (obj entries).nesting < d + 1 ↔ 0 < d ∧ ∀ entry ∈ entries, entry.2.nesting < d
  := by
  cases d with
  | zero => simp [nesting]
  | succ d =>
    simp only [nesting, Nat.lt_succ_iff, Nat.add_le_add_iff_right, entriesNesting_le_iff,
      Nat.zero_le, true_and]

mutual

/-- The floats of a document. -/
def floats : Json → List Float
  | float x => [x]
  | arr items => itemsFloats items
  | obj entries => entriesFloats entries
  | _ => []

/-- The floats of several documents. -/
def itemsFloats : List Json → List Float
  | [] => []
  | j :: rest => j.floats ++ itemsFloats rest

/-- The floats of the values of an object. -/
def entriesFloats : List (String × Json) → List Float
  | [] => []
  | (_, j) :: rest => j.floats ++ entriesFloats rest

end

theorem mem_itemsFloats_of_mem {items : List Json} {j : Json} (hj : j ∈ items) {x : Float}
    (hx : x ∈ j.floats) :
  x ∈ itemsFloats items
  := by
  induction items with
  | nil => contradiction
  | cons j' rest ih =>
    rw [itemsFloats, List.mem_append]
    obtain rfl | hj := List.mem_cons.mp hj
    · exact .inl hx
    · exact .inr (ih hj)

/-- Whether a float of a document is read from the text that it is written as. -/
def ReadsBack (x : Float) : Prop :=
  read? (FloatNotation.document.write x).toList = some (float x)

/-- Whether the integers of a document fit, its floats are read back and the keys of its objects
increase. -/
inductive Readable : Json → Prop
  | null : Readable null
  | bool (b : Bool) : Readable (bool b)
  | int {n : Int} : -9223372036854775808 ≤ n → n < 18446744073709551616 → Readable (int n)
  | float {x : Float} : ReadsBack x → Readable (float x)
  | str (s : String) : Readable (str s)
  | arr {items : List Json} : (∀ j ∈ items, Readable j) → Readable (arr items)
  | obj {entries : List (String × Json)} : Keyed.Sorted entries →
    (∀ entry ∈ entries, Readable entry.2) → Readable (obj entries)

theorem Readable.single
    (k : String) {j : Json} (h : j.Readable) :
  (Json.obj [(k, j)]).Readable
  := by
  apply Readable.obj
  · apply List.pairwise_singleton
  · rintro entry hentry
    obtain rfl := List.mem_singleton.mp hentry
    apply h

/-! ### Values -/

theorem skipBlanks_of_head {cs : List Char} (h : ∀ c ∈ cs.head?, ' ' < c) :
  skipBlanks cs = cs
  := by
  cases cs with
  | nil => rfl
  | cons c cs =>
    have hc := h c rfl
    apply List.dropWhile_cons_of_neg
    simp only [decide_eq_true_eq]
    rintro (rfl | rfl | rfl | rfl) <;> revert hc <;> decide

theorem skipBlanks_cons {c : Char} (hc : ' ' < c) (cs : List Char) :
  skipBlanks (c :: cs) = c :: cs
  := by
  apply skipBlanks_of_head
  rintro _ ⟨⟩
  apply hc

theorem blank_lt_of_sign_or_digit {c : Char} (h : c = '-' ∨ c.isDigit) :
  ' ' < c
  := by
  obtain rfl | h := h
  · decide
  · have hsolid : IsSolid [c] := AreDigits.isSolid (by simpa [AreDigits] using h)
    apply hsolid c List.mem_cons_self

/-- What is read as a number is read as a value. -/
theorem value_of_number {cs tail : List Char} {j : Json} (h : number cs = some (j, tail))
    (d : Nat) :
  value (d + 1) cs = some (j, tail)
  := by
  obtain ⟨c, rest, rfl, hc⟩ := head?_of_number h
  unfold value
  rw [skipBlanks_cons (blank_lt_of_sign_or_digit hc)]
  split
  case h_8 heq =>
    rw [heq] at h
    apply h
  case h_1 heq => contradiction
  all_goals
    rename_i heq
    obtain ⟨rfl, rfl⟩ := List.cons.inj heq
    exfalso
    revert hc
    decide

/-- A float that is read as a value is read as a number. -/
theorem number_of_value_float {cs tail : List Char} {x : Float} {d : Nat}
    (hsolid : ∀ c ∈ cs.head?, ' ' < c) (h : value d cs = some (float x, tail)) :
  number cs = some (float x, tail)
  := by
  cases d with
  | zero => contradiction
  | succ d =>
    unfold value at h
    rw [skipBlanks_of_head hsolid] at h
    split at h
    case h_1 => cases h
    case h_2 =>
      obtain ⟨r, -, hr⟩ := Option.bind_eq_some_iff.mp h
      cases hr
    case h_3 | h_4 =>
      split at h
      · contradiction
      · obtain ⟨r, -, hr⟩ := Option.bind_eq_some_iff.mp h
        cases hr
    case h_5 | h_6 | h_7 =>
      unfold keyword at h
      split at h
      · cases h
      · cases h
    case h_8 => apply h

/-- A float that is read back is read from its text in front of any other text that does not go
on with a number. -/
theorem ReadsBack.number {x : Float} (h : ReadsBack x) {rest : List Char}
    (hrest : EndsNumber rest) :
  number ((FloatNotation.document.write x).toList ++ rest) = some (float x, rest)
  := by
  have hsolid := FloatNotation.document.isSolid_write x
  obtain ⟨⟨j, tail⟩, hvalue, hend⟩ := Option.bind_eq_some_iff.mp h
  dsimp only at hend
  split at hend
  · rename_i hblank
    obtain rfl := Option.some.inj hend
    have hnumber := number_of_value_float (fun c hc => hsolid c (List.mem_of_mem_head? hc)) hvalue
    obtain ⟨hsuffix, hmore⟩ := number_extends hnumber
    have htail : tail = [] := by
      rw [skipBlanks_of_head] at hblank
      · simpa using hblank
      · intro c hc
        apply hsolid c (hsuffix.subset (List.mem_of_mem_head? hc))
    rw [hmore rest hrest, htail, List.nil_append]
  · contradiction

/-- The text of a half is read as the half. -/
theorem readsBack_half :
  ReadsBack (.ofBits 0x3FE0000000000000)
  := by
  have hscaled : (⟨5, -1⟩ : Decimal).scaled? false = some (.ofBits 0x3FE0000000000000) := by
    unfold Decimal.scaled?
    dsimp only
    rw [Decimal.scaledDown_of_le (by decide)]
    decide +kernel
  have htext : (FloatNotation.document.write (.ofBits 0x3FE0000000000000)).toList
      = ['0', '.', '5'] := by
    decide +kernel
  have hnumber : number ['0', '.', '5'] = some (float (.ofBits 0x3FE0000000000000), []) := by
    apply magnitude_eq_some_iff.mpr
    refine ⟨['0'], ['.', '5'], ['5'], [], none, rfl, by decide, rfl, rfl, ?_⟩
    change ((⟨5, -1⟩ : Decimal).scaled? false).map float = _
    rw [hscaled]
    rfl
  rw [ReadsBack, htext, read?, depthLimit, value_of_number hnumber]
  rfl

/-! ### Sequences -/

/-- Texts with commas between them, up to the character `close`. -/
def separated (close : Char) : List (List Char) → List Char
  | [] => [close]
  | [text] => text ++ [close]
  | text :: rest => text ++ ',' :: separated close rest

theorem separated_cons_cons
    (close : Char) (text next : List Char) (rest : List (List Char)) :
  separated close (text :: next :: rest) = text ++ ',' :: separated close (next :: rest)
  := rfl

theorem length_le_separated
    (close : Char) (texts : List (List Char)) :
  texts.length ≤ (separated close texts).length
  := by
  induction texts with
  | nil => simp
  | cons text rest ih =>
    cases rest with
    | nil => simp [separated]
    | cons next rest =>
      simp only [separated, List.length_cons, List.length_append] at ih ⊢
      omega

section

variable {α : Type} {item : Scan α} {close : Char} {text : α → List Char} {ok : α → Prop}
  [DecidablePred ok]

/-- Whether `item` reads the text of `a` in front of a comma or of `close`, provided that
`ok a`. -/
def Reads (item : Scan α) (close : Char) (text : α → List Char) (ok : α → Prop)
    [DecidablePred ok] (a : α) : Prop :=
  ∀ c rest, c = ',' ∨ c = close →
    item (text a ++ c :: rest) = if ok a then some (a, c :: rest) else none

/-- Items that are read one by one are read in a sequence. -/
theorem sequence_separated
    (hclose : ' ' < close) (hcomma : close ≠ ',') {as : List α} (hne : as ≠ [])
    (has : ∀ a ∈ as, Reads item close text ok a) (rest : List Char) :
  ∀ fuel, as.length ≤ fuel →
    sequence item close fuel (separated close (as.map text) ++ rest)
      = if ∀ a ∈ as, ok a then some (as, rest) else none
  := by
  induction as with
  | nil => contradiction
  | cons a as ih =>
    intro fuel hfuel
    obtain ⟨ha, has⟩ := List.forall_mem_cons.mp has
    cases fuel with
    | zero => simp at hfuel
    | succ fuel =>
      cases as with
      | nil =>
        have hitem := ha close rest (.inr rfl)
        have hblanks := skipBlanks_cons hclose rest
        simp only [List.map_cons, List.map_nil, separated, List.append_assoc, List.cons_append,
          List.nil_append, sequence]
        rw [hitem]
        by_cases hok : ok a
        · simp [hok, hblanks]
        · simp [hok]
      | cons next as =>
        have hitem := ha ',' (separated close ((next :: as).map text) ++ rest) (.inl rfl)
        have hrest := ih (by simp) has fuel (by simpa using hfuel)
        have hblanks := skipBlanks_cons (by decide : ' ' < ',')
          (separated close ((next :: as).map text) ++ rest)
        rw [List.map_cons, List.map_cons] at *
        rw [separated_cons_cons, List.append_assoc, List.cons_append, sequence, hitem]
        by_cases hok : ok a
        · by_cases hall : ∀ a ∈ next :: as, ok a
          · rw [if_pos hall] at hrest
            rw [if_pos hok, if_pos (List.forall_mem_cons.mpr ⟨hok, hall⟩)]
            simp [hblanks, hcomma.symm, hrest]
          · rw [if_neg hall] at hrest
            rw [if_pos hok, if_neg fun h => hall (List.forall_mem_cons.mp h).2]
            simp [hblanks, hcomma.symm, hrest]
        · rw [if_neg hok, if_neg fun h => hok (List.forall_mem_cons.mp h).1]
          rfl

/-- A sequence that may be empty is read from the texts of its items, which start neither with
a blank nor with the end of the sequence. -/
theorem sequence?_separated
    (hclose : ' ' < close) (hcomma : close ≠ ',') {as : List α}
    (hhead : ∀ a ∈ as, ∃ c cs, text a = c :: cs ∧ ' ' < c ∧ c ≠ close)
    (has : ∀ a ∈ as, Reads item close text ok a) (rest : List Char) :
  sequence? item close (separated close (as.map text) ++ rest)
    = if ∀ a ∈ as, ok a then some (as, rest) else none
  := by
  cases as with
  | nil => simp [sequence?, separated, skipBlanks_cons hclose]
  | cons a as =>
    obtain ⟨c, cs, htext, hc, hne⟩ := hhead a List.mem_cons_self
    obtain ⟨tail, htail⟩ : ∃ tail, separated close ((a :: as).map text) ++ rest = c :: tail := by
      cases as with
      | nil => simp [separated, htext]
      | cons next as => simp [separated_cons_cons, htext]
    have hlength : (a :: as).length ≤ (c :: tail).length := by
      have h := length_le_separated close ((a :: as).map text)
      rw [← htail, List.length_append]
      simp only [List.length_map] at h
      omega
    have hsequence := sequence_separated hclose hcomma (by simp) has rest _ hlength
    rw [htail] at hsequence ⊢
    rw [← hsequence]
    unfold sequence?
    rw [skipBlanks_cons hc]
    apply if_neg hne

end

/-! ### Arrays and objects -/

theorem value_bracket
    (d : Nat) (cs : List Char) :
  value (d + 1) ('[' :: cs)
    = if d = 0 then none else (sequence? (value d) ']' cs).map fun r => (arr r.1, r.2)
  := by
  rw [value]
  simp only [skipBlanks_cons (by decide : ' ' < '[')]
  split
  · rfl
  · rw [Option.map_eq_bind]
    rfl

theorem value_brace
    (d : Nat) (cs : List Char) :
  value (d + 1) ('\x7b' :: cs)
    = if d = 0 then none
      else (sequence? (entry (value d)) '\x7d' cs).map fun r => (obj (Keyed.ofList r.1), r.2)
  := by
  rw [value]
  simp only [skipBlanks_cons (by decide : ' ' < '\x7b')]
  split
  · rfl
  · rw [Option.map_eq_bind]
    rfl

/-! ### Texts of documents -/

theorem itemChars_eq
    (items : List Json) :
  itemChars items = separated ']' (items.map chars)
  := by
  induction items with
  | nil => rfl
  | cons j rest ih =>
    cases rest with
    | nil => rfl
    | cons next rest =>
      rw [itemChars, ih]
      · rfl
      · simp

/-- The text of an entry of an object. -/
def entryText (entry : String × Json) : List Char :=
  quote entry.1.toList ++ ':' :: entry.2.chars

/-- An entry is read as its value is read. -/
theorem entry_entryText {e : String × Json} {d : Nat} {rest : List Char}
    (h : value d (e.2.chars ++ rest) = if e.2.nesting < d then some (e.2, rest) else none) :
  entry (value d) (entryText e ++ rest) = if e.2.nesting < d then some (e, rest) else none
  := by
  have hkey := string_quote e.1 (':' :: (e.2.chars ++ rest))
  simp only [entry, entryText, quote, List.cons_append, List.append_assoc, List.nil_append,
    skipBlanks_cons (by decide : ' ' < '"'), skipBlanks_cons (by decide : ' ' < ':'), hkey, h,
    Option.bind_eq_bind, Option.bind_some]
  by_cases hd : e.2.nesting < d
  · simp [hd]
  · simp [hd]

theorem entryChars_eq
    (entries : List (String × Json)) :
  entryChars entries = separated '\x7d' (entries.map entryText)
  := by
  induction entries with
  | nil => rfl
  | cons entry rest ih =>
    obtain ⟨k, j⟩ := entry
    cases rest with
    | nil => simp [entryChars, separated, entryText]
    | cons next rest =>
      rw [entryChars, ih]
      · simp [separated_cons_cons, entryText]
      · simp

theorem head_of_number {cs rest : List Char} {j : Json} (h : number (cs ++ []) = some (j, rest)) :
  ∃ c tail, cs = c :: tail ∧ ' ' < c ∧ c ≠ ']'
  := by
  obtain ⟨c, tail, hcs, hc⟩ := head?_of_number h
  rw [List.append_nil] at hcs
  refine ⟨c, tail, hcs, blank_lt_of_sign_or_digit hc, ?_⟩
  rintro rfl
  revert hc
  decide

/-- The text of a readable document starts with a visible character, which does not end an
array. -/
theorem Readable.head_chars {j : Json} (h : j.Readable) :
  ∃ c cs, j.chars = c :: cs ∧ ' ' < c ∧ c ≠ ']'
  := by
  cases h with
  | null => exact ⟨'n', _, rfl, by decide, by decide⟩
  | bool b =>
    cases b
    · exact ⟨'f', _, rfl, by decide, by decide⟩
    · exact ⟨'t', _, rfl, by decide, by decide⟩
  | int hlow hhigh => apply head_of_number (number_toString hlow hhigh .nil)
  | float hx => apply head_of_number (hx.number .nil)
  | str s => exact ⟨'"', _, rfl, by decide, by decide⟩
  | arr => exact ⟨'[', _, rfl, by decide, by decide⟩
  | obj => exact ⟨'\x7b', _, rfl, by decide, by decide⟩

/-- Whether a document is read from its text exactly if its arrays and objects lie less than `d`
deep. -/
def ReadBelow (d : Nat) (j : Json) : Prop :=
  ∀ rest, EndsNumber rest →
    value d (j.chars ++ rest) = if j.nesting < d then some (j, rest) else none

theorem readBelow_zero
    (j : Json) :
  ReadBelow 0 j
  := fun _ _ => rfl

/-- An array is read if its items are. -/
theorem ReadBelow.arr {items : List Json} {d : Nat} (hitems : ∀ j ∈ items, Readable j)
    (h : ∀ j ∈ items, ReadBelow d j) :
  ReadBelow (d + 1) (arr items)
  := by
  intro rest _
  have hreads : ∀ j ∈ items, Reads (value d) ']' chars (fun j => j.nesting < d) j := by
    intro j hj c rest' hc
    apply h j hj
    rintro _ ⟨⟩
    obtain rfl | rfl := hc <;> decide
  have hhead : ∀ j ∈ items, ∃ c cs, j.chars = c :: cs ∧ ' ' < c ∧ c ≠ ']' :=
    fun j hj => (hitems j hj).head_chars
  have hsequence := sequence?_separated (by decide) (by decide) hhead hreads rest
  rw [chars, itemChars_eq, List.cons_append, value_bracket, hsequence]
  simp only [nesting_arr_lt_iff]
  by_cases hd : d = 0
  · simp [hd]
  · by_cases hall : ∀ j ∈ items, j.nesting < d
    · rw [if_neg hd, if_pos hall, if_pos ⟨Nat.pos_of_ne_zero hd, hall⟩, Option.map_some]
    · rw [if_neg hd, if_neg hall, if_neg fun h => hall h.2]
      rfl

/-- An object is read if its values are. -/
theorem ReadBelow.obj {entries : List (String × Json)} {d : Nat} (hsorted : Keyed.Sorted entries)
    (h : ∀ entry ∈ entries, ReadBelow d entry.2) :
  ReadBelow (d + 1) (obj entries)
  := by
  intro rest _
  have hreads : ∀ e ∈ entries,
      Reads (entry (value d)) '\x7d' entryText (fun e => e.2.nesting < d) e := by
    intro e he c rest' hc
    apply entry_entryText
    apply h e he
    rintro _ ⟨⟩
    obtain rfl | rfl := hc <;> decide
  have hhead : ∀ e ∈ entries, ∃ c cs, entryText e = c :: cs ∧ ' ' < c ∧ c ≠ '\x7d' :=
    fun e _ => ⟨'"', _, rfl, by decide, by decide⟩
  have hsequence := sequence?_separated (by decide) (by decide) hhead hreads rest
  rw [chars, entryChars_eq, List.cons_append, value_brace, hsequence]
  simp only [nesting_obj_lt_iff]
  by_cases hd : d = 0
  · simp [hd]
  · by_cases hall : ∀ e ∈ entries, e.2.nesting < d
    · rw [if_neg hd, if_pos hall, if_pos ⟨Nat.pos_of_ne_zero hd, hall⟩, Option.map_some,
        Keyed.ofList_of_sorted hsorted]
    · rw [if_neg hd, if_neg hall, if_neg fun h => hall h.2]
      rfl

/-- A readable document is read from its text exactly if its arrays and objects do not lie too
deep. -/
theorem Readable.readBelow {j : Json} (h : j.Readable)
    (d : Nat) :
  ReadBelow d j
  := by
  induction h generalizing d with
  | null => cases d <;> exact fun _ _ => rfl
  | bool b => cases d <;> cases b <;> exact fun _ _ => rfl
  | int hlow hhigh =>
    cases d with
    | zero => apply readBelow_zero
    | succ d =>
      intro rest hrest
      apply value_of_number (number_toString hlow hhigh hrest)
  | float hx =>
    cases d with
    | zero => apply readBelow_zero
    | succ d =>
      intro rest hrest
      apply value_of_number (hx.number hrest)
  | str s =>
    cases d with
    | zero => apply readBelow_zero
    | succ d =>
      intro rest _
      have hstring := string_quote s rest
      simp [chars, quote, value, nesting, skipBlanks_cons, hstring]
  | arr hitems ih =>
    cases d with
    | zero => apply readBelow_zero
    | succ d => apply ReadBelow.arr hitems fun j hj => ih j hj d
  | obj hsorted hentries ih =>
    cases d with
    | zero => apply readBelow_zero
    | succ d => apply ReadBelow.obj hsorted fun entry he => ih entry he d

/-- A readable document is read from its text, blanks behind it passed over, if its arrays and
objects do not lie too deep. -/
theorem Readable.read?_chars {j : Json} (h : j.Readable) {blanks : List Char}
    (hends : EndsNumber blanks) (hblanks : skipBlanks blanks = []) :
  read? (j.chars ++ blanks) = if j.nesting < depthLimit then some j else none
  := by
  unfold read?
  rw [h.readBelow depthLimit blanks hends]
  by_cases hdepth : j.nesting < depthLimit
  · simp [hdepth, hblanks]
  · simp [hdepth]

end Json

end RuleLang
