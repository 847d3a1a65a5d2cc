import RuleLang.Proofs.Eval.Path
import RuleLang.Proofs.Value.Parts

/-!
# Flat contexts

A context with maps in it can be made flat: whatever a chain of keys leads to through the maps is
given to one name, the keys of the chain with dots between them.  This keeps the value of every
path that does not lead to a map with entries, if the keys are strings without dots.
-/

namespace RuleLang

/-! ### Keys without dots -/

namespace MapKey

/-- Whether a key is a string without dots. -/
def IsPlain : MapKey → Prop
  | str key => '.' ∉ key.toList
  | int _ => False

instance : DecidablePred IsPlain
  | str key => inferInstanceAs (Decidable ('.' ∉ key.toList))
  | int _ => isFalse nofun

theorem IsPlain.eq_str {k : MapKey} (h : k.IsPlain) :
  ∃ key, k = str key ∧ '.' ∉ key.toList
  := by
  cases k with
  | str key => exact ⟨key, rfl, h⟩
  | int n => cases h

end MapKey

namespace Value

variable {v w : Value} {key : String} {keys : List String}

/-! ### Chains of keys -/

/-- Whether a chain of keys leads from a value through maps to another. -/
inductive Leads : Value → List String → Value → Prop
  | nil (v : Value) : Leads v [] v
  | cons {entries : List (MapKey × Value)} {key : String} {v : Value} {keys : List String}
      {w : Value} : (.str key, v) ∈ entries → Leads v keys w →
    Leads (.map entries) (key :: keys) w

theorem leads_nil_iff :
  v.Leads [] w ↔ v = w
  := by
  constructor
  · rintro ⟨⟩
    rfl
  · rintro rfl
    exact .nil v

theorem leads_cons_iff :
  v.Leads (key :: keys) w
    ↔ ∃ entries u, v = map entries ∧ (.str key, u) ∈ entries ∧ u.Leads keys w
  := by
  constructor
  · rintro (_ | ⟨hmem, hleads⟩)
    exact ⟨_, _, rfl, hmem, hleads⟩
  · rintro ⟨entries, u, rfl, hmem, hleads⟩
    exact .cons hmem hleads

/-- Whether a value is no map with entries. -/
def IsLeaf : Value → Prop
  | map entries => entries = []
  | _ => True

/-- No key leads away from a leaf. -/
theorem IsLeaf.step?_eq_none (h : v.IsLeaf) (part : List Char) :
  v.step? part = none
  := by
  cases v with
  | map entries =>
    obtain rfl : entries = [] := h
    simp [Value.step?]
  | _ => rfl

theorem IsLeaf.walk?_eq_none (h : v.IsLeaf) {parts : List (List Char)} (hne : parts ≠ []) :
  v.walk? parts = none
  := by
  cases parts with
  | nil => cases hne rfl
  | cons part parts => rw [Value.walk?, h.step?_eq_none, Option.bind_none]

theorem IsLeaf.leads_iff (h : v.IsLeaf) :
  v.Leads keys w ↔ keys = [] ∧ w = v
  := by
  cases keys with
  | nil => simp [leads_nil_iff, eq_comm]
  | cons key keys =>
    rw [leads_cons_iff]
    refine iff_of_false ?_ nofun
    rintro ⟨entries, u, rfl, hmem, -⟩
    obtain rfl : entries = [] := h
    cases hmem

mutual

/-- The leaves of a value with the chains of keys that lead to them. -/
def leaves : Value → List (List String × Value)
  | map entries => if entries.isEmpty then [([], map entries)] else entriesLeaves entries
  | v => [([], v)]

/-- The leaves of the values of a map. -/
def entriesLeaves : List (MapKey × Value) → List (List String × Value)
  | [] => []
  | (key, v) :: rest =>
    v.leaves.map (fun (keys, w) => (key.text :: keys, w)) ++ entriesLeaves rest

end

theorem IsLeaf.leaves_eq (h : v.IsLeaf) :
  v.leaves = [([], v)]
  := by
  cases v with
  | map entries =>
    obtain rfl : entries = [] := h
    rfl
  | _ => rfl

/-! ### Maps without dots in their keys -/

/-- Whether a value is no map but one whose keys, which increase as those of every map do that is
made, are strings without dots. -/
def HasPlainKeys : Value → Prop
  | map entries => Keyed.Sorted entries ∧ ∀ entry ∈ entries, entry.1.IsPlain
  | _ => True

instance : DecidablePred HasPlainKeys
  | map entries => inferInstanceAs (Decidable (entries.Pairwise _ ∧ ∀ entry ∈ entries, _))
  | int _ | float _ | str _ | bool _ | list _ | date _ | dateTime _ | duration _ | undefined =>
    isTrue trivial

/-- Whether every map to which a chain of keys leads from a value has keys without dots. -/
def IsPlain (v : Value) : Prop := ∀ keys w, v.Leads keys w → w.HasPlainKeys

theorem IsPlain.hasPlainKeys (h : v.IsPlain) :
  v.HasPlainKeys
  := h [] v (.nil v)

/-- It is enough that the maps among the parts of a value have keys without dots. -/
theorem isPlain_of_parts (h : ∀ w ∈ v.parts, w.HasPlainKeys) :
  v.IsPlain
  := by
  intro keys w hleads
  induction hleads with
  | nil v =>
    apply h
    cases v <;> exact List.mem_cons_self
  | cons hmem hleads ih => exact ih ((forall_mem_parts_map.mp h).2 _ hmem)

theorem IsPlain.of_mem {entries : List (MapKey × Value)} (h : (map entries).IsPlain)
    (hmem : (.str key, v) ∈ entries) :
  v.IsPlain
  := fun keys w hleads => h (key :: keys) w (.cons hmem hleads)

theorem Leads.not_mem_dot (hleads : v.Leads keys w) (h : v.IsPlain) :
  ∀ key ∈ keys, '.' ∉ key.toList
  := by
  induction hleads with
  | nil v => rintro key ⟨⟩
  | cons hmem hleads ih =>
    exact List.forall_mem_cons.mpr ⟨h.hasPlainKeys.2 _ hmem, ih (h.of_mem hmem)⟩

/-- A part of a path leads to the value of an entry with that key. -/
theorem HasPlainKeys.step?_eq_some_iff (h : v.HasPlainKeys) {part : List Char} :
  v.step? part = some w ↔ ∃ entries, v = map entries ∧ (.str (String.ofList part), w) ∈ entries
  := by
  cases v with
  | map entries =>
    obtain ⟨hsorted, hkeys⟩ := h
    rw [step?_map fun n u hmem => hkeys _ hmem, Keyed.find?_eq_some_iff hsorted]
    simp
  | _ => exact iff_of_false nofun (by rintro ⟨entries, ⟨⟩, -⟩)

/-- The parts of a path lead to the value to which the chain of them as keys leads. -/
theorem IsPlain.walk?_eq_some_iff (h : v.IsPlain) {parts : List (List Char)} :
  v.walk? parts = some w ↔ v.Leads (parts.map String.ofList) w
  := by
  induction parts generalizing v with
  | nil => rw [List.map_nil, leads_nil_iff, walk?, Option.some.injEq]
  | cons part parts ih =>
    rw [List.map_cons, leads_cons_iff, walk?, Option.bind_eq_some_iff]
    constructor
    · rintro ⟨u, hstep, hwalk⟩
      obtain ⟨entries, rfl, hmem⟩ := h.hasPlainKeys.step?_eq_some_iff.mp hstep
      exact ⟨entries, u, rfl, hmem, (ih (h.of_mem hmem)).mp hwalk⟩
    · rintro ⟨entries, u, rfl, hmem, hleads⟩
      use u, h.hasPlainKeys.step?_eq_some_iff.mpr ⟨entries, rfl, hmem⟩
      exact (ih (h.of_mem hmem)).mpr hleads

/-! ### Leaves -/

theorem mem_entriesLeaves_iff {entries : List (MapKey × Value)} :
  (keys, w) ∈ entriesLeaves entries
    ↔ ∃ entry ∈ entries, ∃ rest, (rest, w) ∈ entry.2.leaves ∧ entry.1.text :: rest = keys
  := by
  induction entries with
  | nil => simp [entriesLeaves]
  | cons entry entries ih =>
    obtain ⟨k, u⟩ := entry
    simp [entriesLeaves, ih]

theorem IsLeaf.mem_leaves_iff (h : v.IsLeaf) :
  (keys, w) ∈ v.leaves ↔ v.Leads keys w ∧ w.IsLeaf
  := by
  rw [h.leaves_eq, h.leads_iff, List.mem_singleton, Prod.mk.injEq, iff_self_and]
  rintro ⟨-, rfl⟩
  exact h

/-- The leaves of the values of a map are the leaves to which chains of keys lead from it, if this
is so of each of the values. -/
theorem mem_entriesLeaves_iff_leads {entries : List (MapKey × Value)}
    (h : (map entries).IsPlain)
    (hleaves : ∀ entry ∈ entries, ∀ keys, entry.2.IsPlain →
      ((keys, w) ∈ entry.2.leaves ↔ entry.2.Leads keys w ∧ w.IsLeaf)) :
  (keys, w) ∈ entriesLeaves entries ↔ keys ≠ [] ∧ (map entries).Leads keys w ∧ w.IsLeaf
  := by
  rw [mem_entriesLeaves_iff]
  constructor
  · rintro ⟨⟨k, u⟩, hmem, rest, hrest, rfl⟩
    obtain ⟨key, rfl, -⟩ := (h.hasPlainKeys.2 _ hmem).eq_str
    obtain ⟨hleads, hleaf⟩ := (hleaves _ hmem rest (h.of_mem hmem)).mp hrest
    exact ⟨List.cons_ne_nil _ _, .cons hmem hleads, hleaf⟩
  · rintro ⟨hne, hleads, hleaf⟩
    cases hleads with
    | nil => cases hne rfl
    | @cons _ key u rest _ hmem hleads =>
      exact ⟨_, hmem, rest, (hleaves _ hmem rest (h.of_mem hmem)).mpr ⟨hleads, hleaf⟩, rfl⟩

/-- The leaves of a value are the leaves to which chains of keys lead from it. -/
theorem IsPlain.mem_leaves_iff (h : v.IsPlain) :
  (keys, w) ∈ v.leaves ↔ v.Leads keys w ∧ w.IsLeaf
  := by
  induction v generalizing keys with
  | map entries ih =>
    cases entries with
    | nil => exact IsLeaf.mem_leaves_iff rfl
    | cons entry entries =>
      apply (mem_entriesLeaves_iff_leads h fun entry hmem keys hplain => ih entry hmem hplain).trans
      -- the empty chain leads to the map itself, which is no leaf
      apply and_iff_right_of_imp
      rintro ⟨hleads, hw⟩ rfl
      obtain rfl := leads_nil_iff.mp hleads
      cases hw
  | _ => exact IsLeaf.mem_leaves_iff trivial

/-- The leaves of the values of a map are the leaves to which chains of keys lead from it. -/
theorem IsPlain.mem_entriesLeaves_iff {entries : List (MapKey × Value)}
    (h : (map entries).IsPlain) :
  (keys, w) ∈ entriesLeaves entries ↔ keys ≠ [] ∧ (map entries).Leads keys w ∧ w.IsLeaf
  := mem_entriesLeaves_iff_leads h fun _ _ _ hplain => hplain.mem_leaves_iff

end Value

/-! ### Dotted names -/

/-- The keys of a chain with dots between them. -/
def dotted (keys : List String) : String := ".".intercalate keys

/-- The keys are the parts of the dotted name. -/
theorem split_dotted {keys : List String} (hne : keys ≠ [])
    (h : ∀ key ∈ keys, '.' ∉ key.toList) :
  Text.split '.' (dotted keys).toList = keys.map String.toList
  := by
  rw [dotted, String.toList_intercalate, Text.split_eq_splitOn]
  apply List.splitOn_intercalate '.'
  · rw [List.forall_mem_map]
    exact h
  · simpa using hne

/-- A path is the dotted name of its parts. -/
theorem dotted_split
    (path : String) :
  dotted ((Text.split '.' path.toList).map String.ofList) = path
  := by
  apply String.toList_inj.mp
  rw [dotted, String.toList_intercalate, Text.split_eq_splitOn, List.map_map]
  have hparts : (String.toList ∘ String.ofList) = id := funext fun _ => String.toList_ofList
  rw [hparts, List.map_id]
  apply List.intercalate_splitOn '.'

namespace Context

variable {c f : Context} {path : String} {v : Value}

/-- Whether the names of `c` and the keys of the maps that chains of keys lead to are strings
without dots. -/
def IsPlain (c : Context) : Prop := (Value.map c.entries).IsPlain

/-- Whether `f` gives values to the dotted names of the chains that lead from the names of `c` to
leaves, and to no other names. -/
def Flattens (f c : Context) : Prop :=
  ∀ name v, f.find? name = some v
    ↔ ∃ keys, keys ≠ [] ∧ (Value.map c.entries).Leads keys v ∧ v.IsLeaf ∧ dotted keys = name

/-- The leaves of the values of names, with their dotted names. -/
def dottedLeaves (c : Context) : List (String × Value) :=
  (Value.entriesLeaves c.entries).map fun (keys, v) => (dotted keys, v)

/-- The context in which the leaves of the values of names have their dotted names. -/
def flatten (c : Context) : Context := ⟨Keyed.ofList c.dottedLeaves⟩

theorem IsPlain.hasPlainNames (h : c.IsPlain) :
  c.HasPlainNames
  := by
  intro b hb
  have hmem : (MapKey.str b.1, b.2) ∈ c.entries := List.mem_map.mpr ⟨b, hb, rfl⟩
  exact h.hasPlainKeys.2 _ hmem

/-- A chain leads where the parts of its dotted name lead. -/
theorem IsPlain.walk?_dotted (h : c.IsPlain) {keys : List String} (hne : keys ≠ [])
    (hleads : (Value.map c.entries).Leads keys v) :
  (Value.map c.entries).walk? (Text.split '.' (dotted keys).toList) = some v
  := by
  have hkeys : (keys.map String.toList).map String.ofList = keys := by simp
  rw [split_dotted hne (hleads.not_mem_dot h), Value.IsPlain.walk?_eq_some_iff h, hkeys]
  exact hleads

theorem IsPlain.mem_dottedLeaves_iff (h : c.IsPlain) {name : String} :
  (name, v) ∈ c.dottedLeaves
    ↔ ∃ keys, keys ≠ [] ∧ (Value.map c.entries).Leads keys v ∧ v.IsLeaf ∧ dotted keys = name
  := by
  rw [dottedLeaves, List.mem_map]
  constructor
  · rintro ⟨⟨keys, v⟩, hmem, ⟨⟩⟩
    obtain ⟨hne, hleads, hleaf⟩ := (Value.IsPlain.mem_entriesLeaves_iff h).mp hmem
    exact ⟨keys, hne, hleads, hleaf, rfl⟩
  · rintro ⟨keys, hne, hleads, hleaf, rfl⟩
    exact ⟨(keys, v), (Value.IsPlain.mem_entriesLeaves_iff h).mpr ⟨hne, hleads, hleaf⟩, rfl⟩

/-- No two leaves have one dotted name. -/
theorem IsPlain.flattens_flatten (h : c.IsPlain) :
  c.flatten.Flattens c
  := by
  intro name v
  rw [← h.mem_dottedLeaves_iff]
  apply Keyed.find?_ofList_eq_some_iff
  intro v w hv hw
  obtain ⟨keys, hne, hleads, -, rfl⟩ := h.mem_dottedLeaves_iff.mp hv
  obtain ⟨keys', hne', hleads', -, heq⟩ := h.mem_dottedLeaves_iff.mp hw
  have hwalk := h.walk?_dotted hne' hleads'
  rw [heq, h.walk?_dotted hne hleads] at hwalk
  exact Option.some.inj hwalk

/-- A flat context gives a name the leaf to which its parts lead. -/
theorem Flattens.find?_eq_some_iff (hf : f.Flattens c) (h : c.IsPlain) :
  f.find? path = some v
    ↔ (Value.map c.entries).walk? (Text.split '.' path.toList) = some v ∧ v.IsLeaf
  := by
  rw [hf path v]
  constructor
  · rintro ⟨keys, hne, hleads, hleaf, rfl⟩
    exact ⟨h.walk?_dotted hne hleads, hleaf⟩
  · rintro ⟨hwalk, hleaf⟩
    refine ⟨_, ?_, (Value.IsPlain.walk?_eq_some_iff h).mp hwalk, hleaf, dotted_split path⟩
    simpa using Text.split_ne_nil '.' path.toList

theorem Flattens.find?_eq_none (hf : f.Flattens c) (h : c.IsPlain)
    (hnot : ∀ v, (Value.map c.entries).walk? (Text.split '.' path.toList) = some v → ¬v.IsLeaf) :
  f.find? path = none
  := by
  rw [Option.eq_none_iff_forall_not_mem]
  intro v hv
  obtain ⟨hwalk, hleaf⟩ := (hf.find?_eq_some_iff h).mp hv
  exact hnot v hwalk hleaf

/-- In a flat context no path leads on from the value of a name. -/
theorem Flattens.resolve_eq (hf : f.Flattens c) (path : String) :
  f.resolve path = (f.find? path).getD .undefined
  := by
  have hwalk : f.walkFromName? path.toList = none := by
    rw [walkFromName?, List.findSome?_eq_none_iff]
    rintro ⟨before, behind⟩ -
    rw [Option.bind_eq_none_iff]
    intro v hv
    obtain ⟨_, -, -, hleaf, -⟩ := (hf _ v).mp hv
    apply hleaf.walk?_eq_none (Text.split_ne_nil '.' behind)
  rw [resolve, hwalk]
  cases f.find? path <;> rfl

/-- A context and one that has its leaves under their dotted names give the same value to every
path, except that the paths to maps with entries are undefined in the latter. -/
theorem resolve_flatten (h : c.IsPlain) :
  c.flatten.Flattens c
    ∧ ∀ f : Context, f.Flattens c → ∀ path,
        ((c.resolve path).IsLeaf → f.resolve path = c.resolve path)
        ∧ (¬(c.resolve path).IsLeaf → f.resolve path = .undefined)
  := by
  use h.flattens_flatten
  intro f hf path
  rw [hf.resolve_eq, h.hasPlainNames.resolve_eq]
  cases hwalk : (Value.map c.entries).walk? (Text.split '.' path.toList) with
  | none =>
    rw [hf.find?_eq_none h (by rw [hwalk]; nofun)]
    exact ⟨fun _ => rfl, fun _ => rfl⟩
  | some v =>
    constructor
    · intro hleaf
      rw [(hf.find?_eq_some_iff h).mpr ⟨hwalk, hleaf⟩]
    · intro hleaf
      rw [hf.find?_eq_none h]
      · rfl
      · intro w hw
        rwa [← Option.some.inj (hwalk.symm.trans hw)]

/-- The empty key of a map counts as a part of a path, and nothing lies behind a string. -/
theorem resolve_flatten_user :
  let user : Value := .map [(.str "", .map [(.str "1", .bool true)]), (.str "name", .str "Ann"),
    (.str "tags", .map [])]
  let c : Context := ⟨[("age", .int 20), ("user", user)]⟩
  c.IsPlain
    ∧ ((c.resolve "user..1").IsLeaf ∧ c.flatten.resolve "user..1" = .bool true)
    ∧ ((c.resolve "user.name.1").IsLeaf ∧ c.flatten.resolve "user.name.1" = .undefined)
    ∧ (¬(c.resolve "user").IsLeaf ∧ c.flatten.resolve "user" = .undefined)
  := by
  intro user c
  have hc : c.IsPlain := Value.isPlain_of_parts (by decide)
  obtain ⟨hflat, hresolve⟩ := resolve_flatten hc
  have hflatten := hresolve c.flatten hflat
  exact ⟨hc, ⟨trivial, (hflatten "user..1").1 trivial⟩,
    ⟨trivial, (hflatten "user.name.1").1 trivial⟩, nofun, (hflatten "user").2 nofun⟩

end Context

end RuleLang
