import Mathlib.Data.List.Perm.Basic
import RuleLang.Proofs.Value.Constant
import RuleLang.Proofs.Value.Parts

/-!
# Values read from their documents

A value is read from the document that it is written as exactly if JSON has a form for every
part of it.  JSON has none for floats that are no finite numbers, which are written as `null`,
for keys that are integers, which are written as strings, and for a map with one entry whose key
is a tag, which is read as the tagged value.
-/

namespace RuleLang

/-! ### Durations -/

namespace Duration

/-- The entries of units, each with its amount. -/
def entryOf (d : Duration) (u : DurationUnit) : String × Json := (u.name, .int (d.get u).toInt)

theorem addEntry_entryOf
    {d e : Duration} {u : DurationUnit} (h : e.get u = 0) :
  ofJson.addEntry e (d.entryOf u) = .ok (e.set u (d.get u))
  := by
  have hadd : Word.add? 0 (d.get u) = some (d.get u) := by
    rw [Word.add?]
    have hzero : (0 : Int64).toInt = 0 := rfl
    rw [hzero, Int.zero_add, int64?_toInt]
  simp only [entryOf, ofJson.addEntry, DurationUnit.ofName?_name, Json.asInt64?, int64?_toInt,
    addPart?, h, hadd]
  rfl

/-- Entries of different units give the amounts of these units. -/
theorem foldlM_addEntry
    (d : Duration) {units : List DurationUnit} (hunits : units.Nodup) (e : Duration)
    (h : ∀ u ∈ units, e.get u = 0) :
  ∃ e', (units.map d.entryOf).foldlM ofJson.addEntry e = .ok e'
    ∧ ∀ u, e'.get u = if u ∈ units then d.get u else e.get u
  := by
  induction units generalizing e with
  | nil => exact ⟨e, rfl, fun u => rfl⟩
  | cons u rest ih =>
    obtain ⟨hnew, hrest⟩ := List.nodup_cons.mp hunits
    obtain ⟨hu, h⟩ := List.forall_mem_cons.mp h
    have hset : ∀ v ∈ rest, (e.set u (d.get u)).get v = 0 := by
      intro v hv
      rw [get_set, if_neg (ne_of_mem_of_not_mem hv hnew), h v hv]
    obtain ⟨e', hfold, he'⟩ := ih hrest (e.set u (d.get u)) hset
    use e'
    constructor
    · rw [List.map_cons, List.foldlM_cons, addEntry_entryOf hu]
      apply hfold
    · intro v
      rw [he', get_set]
      by_cases hv : v = u
      · obtain rfl := hv
        simp
      · simp [hv]

/-- A duration is read from the document that it is written as. -/
theorem ofJson_toJson
    (d : Duration) :
  ofJson d.toJson = .ok d
  := by
  let units := DurationUnit.all.filter (d.get · ≠ 0)
  have hnames : (units.map d.entryOf).Pairwise fun a b => compare b.1 a.1 ≠ .eq := by
    apply List.pairwise_map.mpr
    apply List.Pairwise.filter
    change DurationUnit.all.Pairwise fun u v => compare v.name u.name ≠ .eq
    decide
  have hperm := Keyed.ofList_perm hnames
  obtain ⟨sorted, heq, hsorted⟩ : Relation.Comp (fun a b => a = b.map d.entryOf) List.Perm
      (Keyed.ofList (units.map d.entryOf)) units := by
    rw [List.eq_map_comp_perm]
    apply hperm
  have hnodup : sorted.Nodup := by
    apply hsorted.nodup_iff.mpr
    apply List.Nodup.filter
    decide
  obtain ⟨e, hfold, he⟩ := foldlM_addEntry d hnodup zero fun u _ => get_zero u
  have hd : e = d := by
    apply ext_get
    intro u
    rw [he, get_zero]
    split
    · rfl
    · rename_i hu
      by_cases hzero : d.get u = 0
      · rw [hzero]
      · have hmem : u ∈ units :=
          List.mem_filter.mpr ⟨DurationUnit.mem_all u, decide_eq_true hzero⟩
        cases hu (hsorted.mem_iff.mpr hmem)
  rw [hd, ← heq] at hfold
  apply hfold

end Duration

namespace Value

/-! ### Forms -/

/-- Whether the entries of a map are a tag and its value alone. -/
def IsTagged : List (MapKey × Value) → Prop
  | [(.str tag, _)] => tag = dateTag ∨ tag = dateTimeTag ∨ tag = durationTag
  | _ => False

/-- Whether JSON has a form for a value, given that it has one for the values in it. -/
def HasForm : Value → Prop
  | float x => x.isFinite
  | map entries => (∀ entry ∈ entries, ∃ s, entry.1 = .str s) ∧ ¬IsTagged entries
  | _ => True

/-- Whether the keys of a map increase, as those of every map do that is made. -/
def IsOrdered : Value → Prop
  | map entries => Keyed.Sorted entries
  | _ => True

/-- Whether JSON has a form for every part of a value, at every depth. -/
def Portable (v : Value) : Prop :=
  ∀ w ∈ v.parts, w.IsOrdered ∧ w.HasForm

theorem portable_list_iff {items : List Value} :
  (list items).Portable ↔ ∀ v ∈ items, v.Portable
  := by
  apply Iff.trans forall_mem_parts_list
  exact and_iff_right ⟨trivial, trivial⟩

theorem portable_map_iff {entries : List (MapKey × Value)} :
  (map entries).Portable
    ↔ (Keyed.Sorted entries ∧ (∀ entry ∈ entries, ∃ s, entry.1 = .str s) ∧ ¬IsTagged entries)
      ∧ ∀ entry ∈ entries, entry.2.Portable
  := forall_mem_parts_map

/-! ### Lists -/

/-- Values are read together exactly if they are read one by one. -/
theorem itemsOfJson_eq_ok_iff {items : List Value} :
  itemsOfJson (items.map toJson) = .ok items ↔ ∀ v ∈ items, ofJson v.toJson = .ok v
  := by
  constructor
  · intro h
    induction items with
    | nil => rintro v ⟨⟩
    | cons v rest ih =>
      obtain ⟨w, hw, h⟩ := Except.bind_eq_ok_iff.mp h
      obtain ⟨ws, hws, h⟩ := Except.bind_eq_ok_iff.mp h
      obtain ⟨rfl, rfl⟩ := List.cons.inj (Except.ok.inj h)
      exact List.forall_mem_cons.mpr ⟨hw, ih hws⟩
  · apply itemsOfJson_map

/-! ### Maps -/

/-- The entries of a map in a document. -/
theorem entriesToJson_eq_map
    (entries : List (MapKey × Value)) :
  entriesToJson entries = entries.map fun entry => (entry.1.text, entry.2.toJson)
  := by
  induction entries with
  | nil => rfl
  | cons entry rest ih => rw [entriesToJson, ih, List.map_cons]

/-- Keys that are strings increase in a map as they do in its document. -/
theorem sorted_entriesToJson_iff {entries : List (MapKey × Value)}
    (hkeys : ∀ entry ∈ entries, ∃ s, entry.1 = .str s) :
  Keyed.Sorted (entriesToJson entries) ↔ Keyed.Sorted entries
  := by
  rw [entriesToJson_eq_map, Keyed.Sorted, List.pairwise_map]
  apply List.Pairwise.iff_of_mem
  intro a b ha hb
  obtain ⟨s, hs⟩ := hkeys a ha
  obtain ⟨t, ht⟩ := hkeys b hb
  rw [hs, ht]
  rfl

/-- What is read of the entries of an object has their keys. -/
theorem keys_of_entriesOfJson {entries : List (String × Json)} {vs : List (MapKey × Value)}
    (h : entriesOfJson entries = .ok vs) :
  vs.map Prod.fst = entries.map fun entry => .str entry.1
  := by
  induction entries generalizing vs with
  | nil =>
    obtain rfl := Except.ok.inj h
    rfl
  | cons entry rest ih =>
    obtain ⟨v, -, h⟩ := Except.bind_eq_ok_iff.mp h
    obtain ⟨ws, hws, h⟩ := Except.bind_eq_ok_iff.mp h
    obtain rfl := Except.ok.inj h
    rw [List.map_cons, List.map_cons, ih hws]

/-- What is read of the entries of an object is in order, and its keys are strings. -/
theorem sorted_of_entriesOfJson {entries : List (String × Json)} {vs : List (MapKey × Value)}
    (hsorted : Keyed.Sorted entries) (h : entriesOfJson entries = .ok vs) :
  Keyed.Sorted vs ∧ ∀ entry ∈ vs, ∃ s, entry.1 = .str s
  := by
  have hkeys := keys_of_entriesOfJson h
  constructor
  · have hfirst : (vs.map Prod.fst).Pairwise fun a b => Ord.compare a b = .lt := by
      rw [hkeys]
      exact List.pairwise_map.mpr hsorted
    exact List.pairwise_map.mp hfirst
  · intro entry hentry
    have hkey := List.mem_map_of_mem (f := Prod.fst) hentry
    rw [hkeys] at hkey
    obtain ⟨e, -, he⟩ := List.mem_map.mp hkey
    exact ⟨e.1, he.symm⟩

/-- Entries whose keys are strings are read from their document exactly if their values are. -/
theorem entriesOfJson_eq_ok_iff {entries : List (MapKey × Value)}
    (hkeys : ∀ entry ∈ entries, ∃ s, entry.1 = .str s) :
  entriesOfJson (entriesToJson entries) = .ok entries
    ↔ ∀ entry ∈ entries, ofJson entry.2.toJson = .ok entry.2
  := by
  induction entries with
  | nil => exact ⟨nofun, fun _ => rfl⟩
  | cons entry rest ih =>
    obtain ⟨key, v⟩ := entry
    obtain ⟨⟨s, hs⟩, hrest⟩ := List.forall_mem_cons.mp hkeys
    obtain rfl : key = .str s := hs
    rw [List.forall_mem_cons, ← ih hrest]
    constructor
    · intro h
      obtain ⟨w, hw, h⟩ := Except.bind_eq_ok_iff.mp h
      obtain ⟨ws, hws, h⟩ := Except.bind_eq_ok_iff.mp h
      obtain ⟨hentry, rfl⟩ := List.cons.inj (Except.ok.inj h)
      obtain ⟨-, rfl⟩ := Prod.mk.inj hentry
      exact ⟨hw, hws⟩
    · rintro ⟨hv, hws⟩
      dsimp only at hv
      rw [entriesToJson, entriesOfJson, hv, hws]
      rfl

/-- What is read of a tag is no map. -/
theorem ofTagged?_ne_map {entries : List (String × Json)} {vs : List (MapKey × Value)} :
  ofTagged? entries ≠ some (.ok (map vs))
  := by
  match entries with
  | [] => nofun
  | [(tag, payload)] =>
    intro h
    change ofTag? tag payload = _ at h
    unfold ofTag? at h
    split at h
    · split at h
      · split at h <;> cases h
      · cases h
    · split at h
      · split at h
        · split at h <;> cases h
        · cases h
      · split at h
        · cases hd : Duration.ofJson payload with
          | ok d =>
            rw [hd] at h
            cases h
          | error fault =>
            rw [hd] at h
            cases h
        · cases h
  | _ :: _ :: _ => nofun

theorem ofTag?_eq_none_iff {tag : String} {payload : Json} :
  ofTag? tag payload = none ↔ ¬(tag = dateTag ∨ tag = dateTimeTag ∨ tag = durationTag)
  := by
  unfold ofTag?
  by_cases hdate : tag = dateTag
  · rw [if_pos hdate]
    refine ⟨?_, fun h => absurd (.inl hdate) h⟩
    split
    · split <;> nofun
    · nofun
  · by_cases hdateTime : tag = dateTimeTag
    · rw [if_neg hdate, if_pos hdateTime]
      refine ⟨?_, fun h => absurd (.inr (.inl hdateTime)) h⟩
      split
      · split <;> nofun
      · nofun
    · rw [if_neg hdate, if_neg hdateTime]
      simp [hdate, hdateTime]

/-- The document of a map is tried as a tagged value exactly if its entries are a tag and its
value alone. -/
theorem ofTagged?_eq_none_iff {entries : List (MapKey × Value)}
    (hkeys : ∀ entry ∈ entries, ∃ s, entry.1 = .str s) :
  ofTagged? (entriesToJson entries) = none ↔ ¬IsTagged entries
  := by
  match entries with
  | [] => exact ⟨fun _ => id, fun _ => rfl⟩
  | [(key, v)] =>
    obtain ⟨s, hs⟩ := hkeys (key, v) List.mem_cons_self
    obtain rfl : key = .str s := hs
    apply ofTag?_eq_none_iff
  | _ :: _ :: _ => exact ⟨fun _ => by simp [IsTagged], fun _ => rfl⟩

/-- A map is read from its document exactly if JSON has a form for it and its values are read. -/
theorem ofJson_toJson_map_iff {entries : List (MapKey × Value)} :
  ofJson (map entries).toJson = .ok (map entries)
    ↔ (Keyed.Sorted entries ∧ (∀ entry ∈ entries, ∃ s, entry.1 = .str s) ∧ ¬IsTagged entries)
      ∧ ∀ entry ∈ entries, ofJson entry.2.toJson = .ok entry.2
  := by
  constructor
  · intro h
    rw [toJson, ofJson] at h
    cases htag : ofTagged? (Keyed.ofList (entriesToJson entries)) with
    | some found =>
      rw [htag] at h
      cases ofTagged?_ne_map (htag.trans (congrArg some h))
    | none =>
      rw [htag] at h
      obtain ⟨vs, hvs, h⟩ := Except.bind_eq_ok_iff.mp h
      have hentries : Keyed.ofList vs = entries := Value.map.inj (Except.ok.inj h)
      -- The entries are those that are read, since these are in order.
      have hdocument := Keyed.sorted_ofList (entriesToJson entries)
      obtain ⟨hsorted, hkeys⟩ := sorted_of_entriesOfJson hdocument hvs
      obtain rfl : vs = entries := (Keyed.ofList_of_sorted hsorted).symm.trans hentries
      rw [Keyed.ofList_of_sorted ((sorted_entriesToJson_iff hkeys).mpr hsorted)] at hvs htag
      exact ⟨⟨hsorted, hkeys, (ofTagged?_eq_none_iff hkeys).mp htag⟩,
        (entriesOfJson_eq_ok_iff hkeys).mp hvs⟩
  · rintro ⟨⟨hsorted, hkeys, htag⟩, hvalues⟩
    have hdocument := Keyed.ofList_of_sorted ((sorted_entriesToJson_iff hkeys).mpr hsorted)
    rw [toJson, hdocument, ofJson, (ofTagged?_eq_none_iff hkeys).mpr htag,
      (entriesOfJson_eq_ok_iff hkeys).mpr hvalues]
    change Except.ok (map (Keyed.ofList entries)) = _
    rw [Keyed.ofList_of_sorted hsorted]

/-! ### Values -/

/-- A value is read from the document that it is written as exactly if JSON has a form for all of
its parts. -/
theorem ofJson_toJson_iff
    (v : Value) :
  ofJson v.toJson = .ok v ↔ v.Portable
  := by
  have hleaf {v : Value} (hparts : v.parts = [v]) (hordered : v.IsOrdered)
      (hread : ofJson v.toJson = .ok v ↔ v.HasForm) : ofJson v.toJson = .ok v ↔ v.Portable := by
    rw [hread, Portable, hparts, List.forall_mem_singleton]
    exact (and_iff_right hordered).symm
  induction v with
  | int n => exact hleaf rfl trivial (iff_of_true (IsConstant.int n).ofJson_toJson trivial)
  | float x =>
    refine hleaf rfl trivial ⟨?_, ?_⟩
    · intro h
      by_cases hx : x.isFinite
      · apply hx
      · rw [toJson, if_neg hx] at h
        cases h
    · intro hx
      exact (IsConstant.float hx).ofJson_toJson
  | str s => exact hleaf rfl trivial (iff_of_true rfl trivial)
  | bool b => exact hleaf rfl trivial (iff_of_true rfl trivial)
  | list items ih =>
    rw [portable_list_iff, ← forall₂_congr ih, ← itemsOfJson_eq_ok_iff, toJson,
      itemsToJson_eq_map, ofJson]
    constructor
    · intro h
      obtain ⟨vs, hvs, h⟩ := Except.bind_eq_ok_iff.mp h
      obtain rfl := Value.list.inj (Except.ok.inj h)
      apply hvs
    · intro h
      rw [h]
      rfl
  | map entries ih =>
    rw [portable_map_iff, ofJson_toJson_map_iff]
    apply and_congr_right
    intro _
    exact forall₂_congr ih
  | date d => exact hleaf rfl trivial (iff_of_true (IsConstant.date d).ofJson_toJson trivial)
  | dateTime t =>
    exact hleaf rfl trivial (iff_of_true (IsConstant.dateTime t).ofJson_toJson trivial)
  | duration d =>
    have htag : ofTag? durationTag d.toJson = some (.ok (duration d)) := by
      unfold ofTag?
      rw [if_neg (by decide), if_neg (by decide), if_pos rfl, d.ofJson_toJson]
      rfl
    have hread : ofJson (duration d).toJson = .ok (duration d) := by
      rw [toJson, ofJson, ofTagged?, htag]
    exact hleaf rfl trivial (iff_of_true hread trivial)
  | undefined => exact hleaf rfl trivial (iff_of_true rfl trivial)

end Value

end RuleLang
