/-!
# Keyed entries

Finite maps as lists of entries with increasing keys.  `Keyed.insert` puts an entry in
its place or replaces the one with the same key, `Keyed.find?` looks a key up, and
`Keyed.Sorted` says that the keys increase, which every operation here keeps.
-/

namespace RuleLang.Keyed

variable {κ α β : Type} [Ord κ]

/-- The entries with the entry of `k` put in its place; one with the same key is
replaced. -/
def insert (k : κ) (a : α) : List (κ × α) → List (κ × α)
  | [] => [(k, a)]
  | (k', a') :: rest =>
    match compare k k' with
    | .lt => (k, a) :: (k', a') :: rest
    | .eq => (k, a) :: rest
    | .gt => (k', a') :: insert k a rest

/-- The value of a key. -/
def find? (k : κ) : List (κ × α) → Option α
  | [] => none
  | (k', a) :: rest => if compare k k' = .eq then some a else find? k rest

/-- Whether a key has a value. -/
def contains (k : κ) (entries : List (κ × α)) : Bool := (find? k entries).isSome

/-- The entries inserted one after the other, so that of two with one key the later
one stays. -/
def ofList (entries : List (κ × α)) : List (κ × α) :=
  entries.foldl (fun m (k, a) => insert k a m) []

/-- The keys increase. -/
def Sorted (entries : List (κ × α)) : Prop :=
  entries.Pairwise fun a b => compare a.1 b.1 = .lt

@[simp]
theorem find?_nil
    (k : κ) :
  find? k ([] : List (κ × α)) = none
  := rfl

/-- An insertion brings in no other entry. -/
theorem eq_or_mem_of_mem_insert {k : κ} {a : α} {entries : List (κ × α)} {e : κ × α}
    (h : e ∈ insert k a entries) :
  e = (k, a) ∨ e ∈ entries
  := by
  induction entries with
  | nil => exact .inl (List.mem_singleton.mp h)
  | cons e' rest ih =>
    unfold insert at h
    split at h
    · apply List.mem_cons.mp h
    · apply (List.mem_cons.mp h).imp_right
      apply List.mem_cons_of_mem
    · obtain rfl | h := List.mem_cons.mp h
      · exact .inr List.mem_cons_self
      · apply (ih h).imp_right
        apply List.mem_cons_of_mem

/-- Insertions bring in no other entries. -/
theorem mem_of_mem_ofList {entries : List (κ × α)} {e : κ × α} (h : e ∈ ofList entries) :
  e ∈ entries
  := by
  have hfold : ∀ before, e ∈ entries.foldl (fun m (k, a) => insert k a m) before →
      e ∈ entries ∨ e ∈ before := by
    clear h
    induction entries with
    | nil => exact fun before => .inr
    | cons e' rest ih =>
      intro before h
      obtain h | h := ih _ h
      · exact .inl (List.mem_cons_of_mem e' h)
      · obtain rfl | h := eq_or_mem_of_mem_insert h
        · exact .inl List.mem_cons_self
        · exact .inr h
  obtain h | h := hfold [] h
  · apply h
  · cases h

/-- An insertion of another key brings in the entry and leaves none out. -/
theorem insert_perm
    {k : κ} (a : α) {entries : List (κ × α)} (h : ∀ e ∈ entries, compare k e.1 ≠ .eq) :
  (insert k a entries).Perm ((k, a) :: entries)
  := by
  induction entries with
  | nil => apply List.Perm.refl
  | cons e rest ih =>
    unfold insert
    split
    · apply List.Perm.refl
    · rename_i hk
      cases h e List.mem_cons_self hk
    · have hrest := ih fun e' he' => h e' (List.mem_cons_of_mem e he')
      exact (hrest.cons e).trans (.swap _ _ rest)

/-- Insertions of different keys bring in all entries and leave none out. -/
theorem ofList_perm
    {entries : List (κ × α)} (h : entries.Pairwise fun a b => compare b.1 a.1 ≠ .eq) :
  (ofList entries).Perm entries
  := by
  have hfold : ∀ before rest m : List (κ × α), m.Perm before →
      ((before ++ rest).Pairwise fun a b => compare b.1 a.1 ≠ .eq) →
      (rest.foldl (fun m (k, a) => insert k a m) m).Perm (before ++ rest) := by
    intro before rest
    induction rest generalizing before with
    | nil =>
      intro m hm _
      rw [List.append_nil]
      apply hm
    | cons e rest ih =>
      intro m hm hdifferent
      have hne : ∀ e' ∈ m, compare e.1 e'.1 ≠ .eq := fun e' he' =>
        (List.pairwise_append.mp hdifferent).2.2 e' (hm.mem_iff.mp he') e List.mem_cons_self
      have hnext : (insert e.1 e.2 m).Perm (before ++ [e]) :=
        (insert_perm e.2 hne).trans ((hm.cons e).trans (List.perm_append_singleton e before).symm)
      have hassoc : before ++ e :: rest = before ++ [e] ++ rest := by simp
      rw [hassoc] at hdifferent ⊢
      apply ih (before ++ [e]) _ hnext hdifferent
  exact hfold [] entries [] (.refl _) h

/-- What is found is the value of an entry. -/
theorem mem_of_find? [Std.LawfulEqOrd κ] {k : κ} {a : α} {entries : List (κ × α)}
    (h : find? k entries = some a) :
  (k, a) ∈ entries
  := by
  induction entries with
  | nil => cases h
  | cons e rest ih =>
    obtain ⟨j, b⟩ := e
    unfold find? at h
    split at h
    · rename_i hcompare
      obtain rfl := Option.some.inj h
      obtain rfl := Std.LawfulEqOrd.eq_of_compare hcompare
      exact List.mem_cons_self
    · exact List.mem_cons_of_mem _ (ih h)

variable [Std.TransOrd κ]

/-- After an insertion a key has the inserted value, and the others what they had. -/
theorem find?_insert
    (k j : κ) (a : α) (entries : List (κ × α)) :
  find? j (insert k a entries) = if compare j k = .eq then some a else find? j entries
  := by
  induction entries with
  | nil => rfl
  | cons e rest ih =>
    obtain ⟨k', a'⟩ := e
    unfold insert
    split
    · rfl
    · rename_i h
      simp only [find?]
      rw [Std.TransCmp.congr_right h]
      split <;> rfl
    · rename_i h
      simp only [find?, ih]
      split
      · rename_i hj
        rw [if_neg]
        intro hk
        rw [← Std.TransCmp.congr_left hk, hj] at h
        contradiction
      · rfl

/-- After an insertion the keys increase. -/
theorem sorted_insert
    (k : κ) (a : α) {entries : List (κ × α)} (h : Sorted entries) :
  Sorted (insert k a entries)
  := by
  induction entries with
  | nil => apply List.pairwise_singleton
  | cons e rest ih =>
    obtain ⟨k', a'⟩ := e
    obtain ⟨hfirst, hrest⟩ := List.pairwise_cons.mp h
    unfold insert
    split
    · rename_i hk
      apply List.pairwise_cons.mpr
      refine ⟨?_, h⟩
      intro e he
      obtain rfl | he := List.mem_cons.mp he
      · apply hk
      · apply Std.TransCmp.lt_trans hk (hfirst e he)
    · rename_i hk
      apply List.pairwise_cons.mpr
      refine ⟨?_, hrest⟩
      intro e he
      rw [Std.TransCmp.congr_left hk]
      apply hfirst e he
    · rename_i hk
      apply List.pairwise_cons.mpr
      refine ⟨?_, ih hrest⟩
      intro e he
      obtain rfl | he := eq_or_mem_of_mem_insert he
      · apply Std.OrientedCmp.lt_of_gt hk
      · apply hfirst e he

/-- The keys of entries that are inserted one after the other increase. -/
theorem sorted_ofList
    (entries : List (κ × α)) :
  Sorted (ofList entries)
  := by
  have hfold : ∀ before, Sorted before →
      Sorted (entries.foldl (fun m (k, a) => insert k a m) before) := by
    induction entries with
    | nil => exact fun before h => h
    | cons e rest ih => exact fun before h => ih _ (sorted_insert _ _ h)
  exact hfold [] .nil

/-- An entry behind all the others is put at the end. -/
theorem insert_of_forall_lt
    {k : κ} (a : α) {entries : List (κ × α)} (h : ∀ e ∈ entries, compare e.1 k = .lt) :
  insert k a entries = entries ++ [(k, a)]
  := by
  induction entries with
  | nil => rfl
  | cons e rest ih =>
    have hfirst : compare k e.1 = .gt :=
      Std.OrientedCmp.gt_of_lt (h e List.mem_cons_self)
    have hrest := ih fun e' he' => h e' (List.mem_cons_of_mem e he')
    rw [insert, hfirst]
    simp [hrest]

/-- Entries whose keys increase are put behind each other. -/
theorem ofList_of_sorted
    {entries : List (κ × α)} (h : Sorted entries) :
  ofList entries = entries
  := by
  have hfold : ∀ before rest : List (κ × α), Sorted (before ++ rest) →
      rest.foldl (fun m (k, a) => insert k a m) before = before ++ rest := by
    intro before rest
    induction rest generalizing before with
    | nil => simp
    | cons e rest ih =>
      intro hsorted
      have hlast : ∀ e' ∈ before, compare e'.1 e.1 = .lt := fun e' he' =>
        (List.pairwise_append.mp hsorted).2.2 e' he' e List.mem_cons_self
      obtain ⟨k, a⟩ := e
      rw [List.foldl_cons]
      dsimp only
      rw [insert_of_forall_lt a hlast, ih]
      · simp
      · simpa using hsorted
  exact hfold [] entries h

variable [Std.LawfulEqOrd κ]

/-- Among entries with increasing keys each is found. -/
theorem find?_eq_some_iff {k : κ} {a : α} {entries : List (κ × α)} (h : Sorted entries) :
  find? k entries = some a ↔ (k, a) ∈ entries
  := by
  refine ⟨mem_of_find?, ?_⟩
  intro hmem
  induction entries with
  | nil => cases hmem
  | cons e rest ih =>
    obtain ⟨hfirst, hrest⟩ := List.pairwise_cons.mp h
    unfold find?
    obtain rfl | hmem := List.mem_cons.mp hmem
    · rw [if_pos (Std.ReflOrd.compare_self)]
    · have hgt := Std.OrientedCmp.gt_of_lt (hfirst _ hmem)
      rw [if_neg (by simp [hgt]), ih hrest hmem]

/-- Where each key has one value only, each entry is found that was inserted. -/
theorem find?_ofList_eq_some_iff {k : κ} {a : α} {entries : List (κ × α)}
    (h : ∀ a b, (k, a) ∈ entries → (k, b) ∈ entries → a = b) :
  find? k (ofList entries) = some a ↔ (k, a) ∈ entries
  := by
  have hfold : ∀ before : List (κ × α), (find? k before).isSome ∨ (∃ b, (k, b) ∈ entries) →
      (find? k (entries.foldl (fun m (k, a) => insert k a m) before)).isSome := by
    clear h
    induction entries with
    | nil =>
      rintro before (hbefore | ⟨b, hb⟩)
      · exact hbefore
      · cases hb
    | cons e rest ih =>
      intro before hor
      apply ih
      dsimp only
      rw [find?_insert]
      by_cases hkey : k = e.1
      · simp [hkey]
      · simp only [Std.LawfulEqOrd.compare_eq_iff_eq, hkey, if_false]
        refine hor.imp_right ?_
        rintro ⟨b, hb⟩
        obtain rfl | hb := List.mem_cons.mp hb
        · cases hkey rfl
        · exact ⟨b, hb⟩
  constructor
  · intro hfind
    exact mem_of_mem_ofList (mem_of_find? hfind)
  · intro hmem
    obtain ⟨b, hb⟩ := Option.isSome_iff_exists.mp (hfold [] (.inr ⟨a, hmem⟩))
    rw [h a b hmem (mem_of_mem_ofList (mem_of_find? hb))]
    exact hb

end RuleLang.Keyed
