import RuleLang.Proofs.Json.Proper
import RuleLang.Proofs.Value.RoundTrip

/-!
# Values of proper documents

The reader of values accepts more documents than the printer writes: dates without padding,
date-times with an offset, integers that are no words, durations with amounts of zero.  Whatever
it accepts, the value has a form, so that it is read again from the document that it is written
as.
-/

namespace RuleLang

namespace Value

/-- A value with no other in it is portable if JSON has a form for it. -/
theorem portable_of_parts {v : Value} (hparts : v.parts = [v]) (hordered : v.IsOrdered)
    (hform : v.HasForm) :
  v.Portable
  := by
  unfold Portable
  rw [hparts, List.forall_mem_singleton]
  exact ⟨hordered, hform⟩

/-- What a tag stands for is a date, a date-time or a duration. -/
theorem portable_of_ofTagged? {entries : List (String × Json)} {v : Value}
    (h : ofTagged? entries = some (.ok v)) :
  v.Portable
  := by
  obtain ⟨tag, payload, rfl⟩ : ∃ tag payload, entries = [(tag, payload)] := by
    match entries with
    | [(tag, payload)] => use tag, payload
    | [] | _ :: _ :: _ => cases h
  change ofTag? tag payload = _ at h
  unfold ofTag? at h
  split_ifs at h
  · split at h
    · split at h
      · cases h
        exact portable_of_parts rfl trivial trivial
      · cases h
    · cases h
  · split at h
    · split at h
      · cases h
        exact portable_of_parts rfl trivial trivial
      · cases h
    · cases h
  · obtain ⟨d, -, rfl⟩ := Except.map_eq_ok_iff.mp (Option.some.inj h)
    exact portable_of_parts rfl trivial trivial

/-- Values that are read together are read one by one. -/
theorem exists_of_itemsOfJson {items : List Json} {vs : List Value}
    (h : itemsOfJson items = .ok vs) :
  ∀ v ∈ vs, ∃ j ∈ items, ofJson j = .ok v
  := by
  induction items generalizing vs with
  | nil =>
    obtain rfl := Except.ok.inj h
    rintro v ⟨⟩
  | cons j rest ih =>
    obtain ⟨w, hw, h⟩ := Except.bind_eq_ok_iff.mp h
    obtain ⟨ws, hws, h⟩ := Except.bind_eq_ok_iff.mp h
    obtain rfl := Except.ok.inj h
    refine List.forall_mem_cons.mpr ⟨⟨j, List.mem_cons_self, hw⟩, ?_⟩
    intro v hv
    obtain ⟨j', hj', hv⟩ := ih hws v hv
    exact ⟨j', List.mem_cons_of_mem j hj', hv⟩

/-- Entries that are read together are read one by one. -/
theorem exists_of_entriesOfJson {entries : List (String × Json)} {vs : List (MapKey × Value)}
    (h : entriesOfJson entries = .ok vs) :
  ∀ entry ∈ vs, ∃ e ∈ entries, ofJson e.2 = .ok entry.2
  := by
  induction entries generalizing vs with
  | nil =>
    obtain rfl := Except.ok.inj h
    rintro entry ⟨⟩
  | cons e rest ih =>
    obtain ⟨w, hw, h⟩ := Except.bind_eq_ok_iff.mp h
    obtain ⟨ws, hws, h⟩ := Except.bind_eq_ok_iff.mp h
    obtain rfl := Except.ok.inj h
    refine List.forall_mem_cons.mpr ⟨⟨e, List.mem_cons_self, hw⟩, ?_⟩
    intro entry hentry
    obtain ⟨e', he', hentry⟩ := ih hws entry hentry
    exact ⟨e', List.mem_cons_of_mem e he', hentry⟩

/-- Entries that are no tagged value are read as a map that is none. -/
theorem not_isTagged_of_entriesOfJson {entries : List (String × Json)}
    {vs : List (MapKey × Value)} (htag : ofTagged? entries = none)
    (h : entriesOfJson entries = .ok vs) :
  ¬IsTagged vs
  := by
  intro htagged
  have hkeys := keys_of_entriesOfJson h
  match vs, htagged with
  | [(.str tag, v)], htagged =>
    match entries, hkeys with
    | [(tag', payload)], hkeys =>
      obtain rfl : tag = tag' := MapKey.str.inj (List.cons.inj hkeys).1
      exact ofTag?_eq_none_iff.mp htag htagged

/-- What is read from a proper document has a form. -/
theorem portable_of_ofJson {j : Json} (hj : j.IsProper) {v : Value} (h : ofJson j = .ok v) :
  v.Portable
  := by
  induction hj generalizing v with
  | null =>
    obtain rfl := Except.ok.inj h
    exact portable_of_parts rfl trivial trivial
  | bool b =>
    obtain rfl := Except.ok.inj h
    exact portable_of_parts rfl trivial trivial
  | int hlow hhigh =>
    unfold ofJson at h
    split at h
    · obtain rfl := Except.ok.inj h
      exact portable_of_parts rfl trivial trivial
    · rename_i hword
      obtain rfl := Except.ok.inj h
      exact portable_of_parts rfl trivial (isFinite_ofInt_of_int64?_eq_none hlow hhigh hword)
  | float hfinite =>
    obtain rfl := Except.ok.inj h
    exact portable_of_parts rfl trivial hfinite
  | str s =>
    obtain rfl := Except.ok.inj h
    exact portable_of_parts rfl trivial trivial
  | arr hitems ih =>
    obtain ⟨vs, hvs, h⟩ := Except.bind_eq_ok_iff.mp h
    obtain rfl := Except.ok.inj h
    apply portable_list_iff.mpr
    intro w hw
    obtain ⟨j, hj, hw⟩ := exists_of_itemsOfJson hvs w hw
    apply ih j hj hw
  | obj hsorted hentries ih =>
    unfold ofJson at h
    split at h
    · rename_i htag
      rw [h] at htag
      apply portable_of_ofTagged? htag
    · rename_i htag
      obtain ⟨vs, hvs, h⟩ := Except.bind_eq_ok_iff.mp h
      obtain rfl := Except.ok.inj h
      obtain ⟨hvsSorted, hkeys⟩ := sorted_of_entriesOfJson hsorted hvs
      rw [Keyed.ofList_of_sorted hvsSorted]
      apply portable_map_iff.mpr
      refine ⟨⟨hvsSorted, hkeys, not_isTagged_of_entriesOfJson htag hvs⟩, ?_⟩
      intro entry hentry
      obtain ⟨e, he, hread⟩ := exists_of_entriesOfJson hvs entry hentry
      apply ih e he hread

end Value

end RuleLang
