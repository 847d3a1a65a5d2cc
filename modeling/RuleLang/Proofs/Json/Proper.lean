import RuleLang.Json.Reader
import RuleLang.Proofs.Number.Finite
import RuleLang.Proofs.Outcome

/-!
# Proper documents

The type of documents has more trees than there are documents.  `Json.IsProper` are the trees
that are one, and every text is read as such.
-/

namespace RuleLang.Json

/-- Whether a document is one that can be: its integers are between `-2 ^ 63` and `2 ^ 64`, its
floats are finite and the keys of its objects increase, at every depth. -/
inductive IsProper : Json → Prop
  | null : IsProper null
  | bool (b : Bool) : IsProper (bool b)
  | int {n : Int} : -9223372036854775808 ≤ n → n < 18446744073709551616 → IsProper (int n)
  | float {x : Float} : x.isFinite → IsProper (float x)
  | str (s : String) : IsProper (str s)
  | arr {items : List Json} : (∀ j ∈ items, IsProper j) → IsProper (arr items)
  | obj {entries : List (String × Json)} : Keyed.Sorted entries →
    (∀ entry ∈ entries, IsProper entry.2) → IsProper (obj entries)

/-! ### Numbers -/

/-- What a scaled decimal is read as is finite. -/
theorem isFinite_of_scaled? {negative : Bool} {d : Decimal} {x : Float}
    (h : d.scaled? negative = some x) :
  x.isFinite
  := by
  obtain ⟨y, hy, rfl⟩ := Option.map_eq_some_iff.mp h
  obtain ⟨-, hfinite⟩ := Option.filter_eq_some_iff.mp hy
  split
  · apply isFinite_neg hfinite
  · apply hfinite

theorem isProper_of_ofNumber? {negative : Bool} {whole fraction : List Char}
    {exponent : Option Int} {j : Json} (h : ofNumber? negative whole fraction exponent = some j) :
  j.IsProper
  := by
  unfold ofNumber? at h
  dsimp only at h
  split_ifs at h with hnatural hnegative
  · obtain rfl := Option.some.inj h
    exact .int (by omega) hnatural.2.2.2
  · obtain rfl := Option.some.inj h
    exact .int (by omega) (by omega)
  · obtain ⟨x, hx, rfl⟩ := Option.map_eq_some_iff.mp h
    exact .float (isFinite_of_scaled? hx)

theorem isProper_of_number {cs rest : List Char} {j : Json} (h : number cs = some (j, rest)) :
  j.IsProper
  := by
  obtain ⟨⟨whole, cs₁⟩, -, h⟩ := Option.bind_eq_some_iff.mp h
  dsimp only at h
  split_ifs at h
  · cases h
  · obtain ⟨⟨fraction, cs₂⟩, -, h⟩ := Option.bind_eq_some_iff.mp h
    obtain ⟨⟨exponent, cs₃⟩, -, h⟩ := Option.bind_eq_some_iff.mp h
    obtain ⟨j', hj, h⟩ := Option.bind_eq_some_iff.mp h
    cases h
    apply isProper_of_ofNumber? hj

/-! ### Sequences -/

variable {α : Type} {P : α → Prop} {item : Scan α}

/-- What holds of every item that is read holds of those of a sequence. -/
theorem forall_of_sequence (hitem : ∀ cs a rest, item cs = some (a, rest) → P a) {close : Char}
    {fuel : Nat} {cs rest : List Char} {items : List α}
    (h : sequence item close fuel cs = some (items, rest)) :
  ∀ a ∈ items, P a
  := by
  induction fuel generalizing cs items with
  | zero => cases h
  | succ fuel ih =>
    obtain ⟨⟨a, cs'⟩, ha, h⟩ := Option.bind_eq_some_iff.mp h
    have ha := hitem _ _ _ ha
    dsimp only at h
    split at h
    · cases h
    · split_ifs at h
      · cases h
        exact List.forall_mem_singleton.mpr ha
      · obtain ⟨⟨as, cs''⟩, has, h⟩ := Option.bind_eq_some_iff.mp h
        cases h
        exact List.forall_mem_cons.mpr ⟨ha, ih has⟩

theorem forall_of_sequence? (hitem : ∀ cs a rest, item cs = some (a, rest) → P a) {close : Char}
    {cs rest : List Char} {items : List α} (h : sequence? item close cs = some (items, rest)) :
  ∀ a ∈ items, P a
  := by
  unfold sequence? at h
  split at h
  · cases h
  · split_ifs at h
    · cases h
      rintro a ⟨⟩
    · apply forall_of_sequence hitem h

/-! ### Documents -/

theorem isProper_of_keyword {word : String} {cs rest : List Char} {j j' : Json} (hj : j.IsProper)
    (h : keyword word j cs = some (j', rest)) :
  j'.IsProper
  := by
  unfold keyword at h
  split_ifs at h
  cases h
  apply hj

theorem isProper_of_entry {value : Scan Json}
    (hvalue : ∀ cs j rest, value cs = some (j, rest) → j.IsProper) {cs rest : List Char}
    {e : String × Json} (h : entry value cs = some (e, rest)) :
  e.2.IsProper
  := by
  unfold entry at h
  split at h
  · obtain ⟨⟨k, cs₁⟩, -, h⟩ := Option.bind_eq_some_iff.mp h
    dsimp only at h
    split at h
    · obtain ⟨⟨j, cs₂⟩, hj, h⟩ := Option.bind_eq_some_iff.mp h
      cases h
      apply hvalue _ _ _ hj
    · cases h
  · cases h

/-- Every document that is read is proper. -/
theorem isProper_of_value {depth : Nat} {cs rest : List Char} {j : Json}
    (h : value depth cs = some (j, rest)) :
  j.IsProper
  := by
  induction depth generalizing cs rest j with
  | zero => cases h
  | succ depth ih =>
    unfold value at h
    split at h
    · cases h
    · obtain ⟨⟨s, cs'⟩, -, h⟩ := Option.bind_eq_some_iff.mp h
      cases h
      exact .str s
    · split_ifs at h
      · cases h
      · obtain ⟨⟨items, cs'⟩, hitems, h⟩ := Option.bind_eq_some_iff.mp h
        cases h
        exact .arr (forall_of_sequence? (fun _ _ _ => ih) hitems)
    · split_ifs at h
      · cases h
      · obtain ⟨⟨entries, cs'⟩, hentries, h⟩ := Option.bind_eq_some_iff.mp h
        cases h
        have hproper : ∀ e ∈ entries, e.2.IsProper :=
          forall_of_sequence? (fun _ _ _ => isProper_of_entry fun _ _ _ => ih) hentries
        apply IsProper.obj (Keyed.sorted_ofList entries)
        intro e he
        apply hproper e (Keyed.mem_of_mem_ofList he)
    · apply isProper_of_keyword .null h
    · apply isProper_of_keyword (.bool true) h
    · apply isProper_of_keyword (.bool false) h
    · apply isProper_of_number h

/-- Every document that a text holds is proper. -/
theorem isProper_of_read? {cs : List Char} {j : Json} (h : read? cs = some j) :
  j.IsProper
  := by
  obtain ⟨⟨j', rest⟩, hj, h⟩ := Option.bind_eq_some_iff.mp h
  dsimp only at h
  split_ifs at h
  obtain rfl := Option.some.inj h
  apply isProper_of_value hj

end RuleLang.Json
