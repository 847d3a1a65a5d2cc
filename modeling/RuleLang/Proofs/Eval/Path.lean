import RuleLang.Eval.Context
import RuleLang.Proofs.Text.Lines

/-!
# Paths

A path is cut at its dots.  In a context whose names have no dots its first part is the only name
from which it can lead, and its value is the one to which its parts lead from the context taken as
a map.  Longer names count in other contexts only.
-/

namespace RuleLang

/-- In a map without integers among its keys a part of a path counts as a string only. -/
theorem Value.step?_map {entries : List (MapKey × Value)} (h : ∀ n v, (.int n, v) ∉ entries)
    (part : List Char) :
  (map entries).step? part = Keyed.find? (.str (String.ofList part)) entries
  := by
  have hint : ∀ n, Keyed.find? (.int n) entries = none := by
    intro n
    rw [Option.eq_none_iff_forall_not_mem]
    intro v hv
    exact h n v (Keyed.mem_of_find? hv)
  rw [step?]
  cases Keyed.find? (.str (String.ofList part)) entries with
  | some v => rfl
  | none => simp [hint]

namespace Context

variable {c : Context}

/-- The names of a context with their values, as the entries of a map. -/
def entries (c : Context) : List (MapKey × Value) :=
  c.bindings.map fun (name, v) => (.str name, v)

/-- A name of a context is a key of its map. -/
theorem step?_map_entries
    (c : Context) (part : List Char) :
  (Value.map c.entries).step? part = c.find? (String.ofList part)
  := by
  rw [Value.step?_map (by simp [entries])]
  unfold entries find?
  induction c.bindings with
  | nil => rfl
  | cons b rest ih =>
    rw [List.map_cons, Keyed.find?, Keyed.find?, ih]
    rfl

/-- Whether no name of a context has a dot. -/
def HasPlainNames (c : Context) : Prop := ∀ b ∈ c.bindings, '.' ∉ b.1.toList

theorem HasPlainNames.find?_eq_none (h : c.HasPlainNames) {name : String}
    (hdot : '.' ∈ name.toList) :
  c.find? name = none
  := by
  rw [Option.eq_none_iff_forall_not_mem]
  intro v hv
  apply h _ (Keyed.mem_of_find? hv) hdot

/-- A path with a dot can lead only from the name before the first dot. -/
theorem HasPlainNames.walkFromName?_eq (h : c.HasPlainNames) {before : List Char}
    (hbefore : '.' ∉ before) (behind : List Char) :
  c.walkFromName? (before ++ '.' :: behind)
    = (c.find? (String.ofList before)).bind (Value.walk? (Text.split '.' behind))
  := by
  -- the longer names are tried first, but each of them has a dot
  have hlater : ((Text.cuts '.' behind).map fun cut =>
      (before ++ '.' :: cut.1, cut.2)).reverse.findSome? (fun cut =>
        (c.find? (String.ofList cut.1)).bind (Value.walk? (Text.split '.' cut.2))) = none := by
    rw [List.findSome?_eq_none_iff]
    intro cut hcut
    obtain ⟨later, -, rfl⟩ := List.mem_map.mp (List.mem_reverse.mp hcut)
    rw [h.find?_eq_none (by simp)]
    rfl
  rw [walkFromName?, Text.cuts_append_sep hbefore, List.reverse_cons, List.findSome?_append, hlater]
  simp

/-- The value of a path in a context whose names have no dots. -/
theorem HasPlainNames.resolve_eq (h : c.HasPlainNames) (path : String) :
  c.resolve path
    = ((Value.map c.entries).walk? (Text.split '.' path.toList)).getD .undefined
  := by
  by_cases hdot : '.' ∈ path.toList
  · obtain ⟨before, behind, hpath, hbefore⟩ := List.eq_append_cons_of_mem hdot
    rw [resolve, h.find?_eq_none hdot, hpath, h.walkFromName?_eq hbefore, Text.split_append_sep,
      Text.split_eq_singleton_iff.mpr hbefore, List.singleton_append, Value.walk?,
      step?_map_entries]
  · rw [resolve, walkFromName?, Text.cuts_eq_nil hdot, Text.split_eq_singleton_iff.mpr hdot,
      Value.walk?, step?_map_entries, String.ofList_toList]
    cases c.find? path <;> rfl

end Context

end RuleLang
