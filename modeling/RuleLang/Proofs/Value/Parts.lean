import RuleLang.Value.Basic

/-!
# Parts of values

`Value.parts` are a value and all the values in it, at every depth.  `Value.induct` is
induction on values, in which what is assumed of the items of a list and of the values of a map
is assumed of each member.
-/

namespace RuleLang.Value

/-- A property that passes from the members of lists and maps to the lists and maps holds of
every value. -/
@[elab_as_elim, induction_eliminator]
theorem induct {motive : Value → Prop}
    (int : ∀ n, motive (.int n))
    (float : ∀ x, motive (.float x))
    (str : ∀ s, motive (.str s))
    (bool : ∀ b, motive (.bool b))
    (list : ∀ items, (∀ v ∈ items, motive v) → motive (.list items))
    (map : ∀ entries, (∀ entry ∈ entries, motive entry.2) → motive (.map entries))
    (date : ∀ d, motive (.date d))
    (dateTime : ∀ t, motive (.dateTime t))
    (duration : ∀ d, motive (.duration d))
    (undefined : motive .undefined) :
    ∀ v, motive v
  := by
  intro v
  refine @Value.rec motive (fun items => ∀ v ∈ items, motive v)
    (fun entries => ∀ entry ∈ entries, motive entry.2) (fun entry => motive entry.2)
    int float str bool list map date dateTime duration undefined ?_ ?_ ?_ ?_ ?_ v
  · rintro _ ⟨⟩
  · intro v items hv hitems
    exact List.forall_mem_cons.mpr ⟨hv, hitems⟩
  · rintro _ ⟨⟩
  · intro entry entries hentry hentries
    exact List.forall_mem_cons.mpr ⟨hentry, hentries⟩
  · intro key v hv
    apply hv

mutual

/-- A value and the values in it. -/
def parts : Value → List Value
  | list items => .list items :: itemsParts items
  | map entries => .map entries :: entriesParts entries
  | v => [v]

/-- The values in a list. -/
def itemsParts : List Value → List Value
  | [] => []
  | v :: rest => v.parts ++ itemsParts rest

/-- The values in a map. -/
def entriesParts : List (MapKey × Value) → List Value
  | [] => []
  | (_, v) :: rest => v.parts ++ entriesParts rest

end

variable {P : Value → Prop}

/-- The parts of a list are the list and the parts of its items. -/
theorem forall_mem_parts_list {items : List Value} :
  (∀ w ∈ (list items).parts, P w) ↔ P (list items) ∧ ∀ v ∈ items, ∀ w ∈ v.parts, P w
  := by
  have hitems : (∀ w ∈ itemsParts items, P w) ↔ ∀ v ∈ items, ∀ w ∈ v.parts, P w := by
    induction items with
    | nil => exact ⟨nofun, nofun⟩
    | cons v rest ih => rw [itemsParts, List.forall_mem_append, ih, List.forall_mem_cons]
  rw [parts, List.forall_mem_cons, hitems]

/-- The parts of a map are the map and the parts of its values. -/
theorem forall_mem_parts_map {entries : List (MapKey × Value)} :
  (∀ w ∈ (map entries).parts, P w)
    ↔ P (map entries) ∧ ∀ entry ∈ entries, ∀ w ∈ entry.2.parts, P w
  := by
  have hentries : (∀ w ∈ entriesParts entries, P w)
      ↔ ∀ entry ∈ entries, ∀ w ∈ entry.2.parts, P w := by
    induction entries with
    | nil => exact ⟨nofun, nofun⟩
    | cons entry rest ih => rw [entriesParts, List.forall_mem_append, ih, List.forall_mem_cons]
  rw [parts, List.forall_mem_cons, hentries]

end RuleLang.Value
