import Mathlib.Data.List.Induction
import RuleLang.Eval.Builtin

/-!
# Tables built up by registrations

What a name has in a table after any sequence of registrations: the function that the caller
gave it last, and else the built-in function of that name, if the built-in functions were added
at all.  So it does not matter where they are added, or how often.
-/

namespace RuleLang

namespace Registration

/-- The function that a registration by the caller gives to a name. -/
def given? (name : String) : Registration → Option Function
  | function other f => if other = name then some f else none
  | builtins => none

/-- Whether a registration adds the built-in functions. -/
def isBuiltins : Registration → Bool
  | function .. => false
  | builtins => true

/-- The registrations by the caller. -/
def given (steps : List Registration) : List Registration := steps.filter (!·.isBuiltins)

/-- The function that the caller gives to a name last. -/
def lastGiven? (name : String) (steps : List Registration) : Option Function :=
  steps.reverse.findSome? (given? name)

variable {name : String}

theorem given?_eq_some_iff {s : Registration} {f : Function} :
  s.given? name = some f ↔ s = function name f
  := by
  cases s with
  | function other g => simp [given?]
  | builtins => simp [given?]

/-- Registrations of other names behind the last one of a name do not count. -/
theorem lastGiven?_eq_some_iff {steps : List Registration} {f : Function} :
  lastGiven? name steps = some f
    ↔ ∃ before after, steps = before ++ function name f :: after ∧ ∀ g, function name g ∉ after
  := by
  rw [lastGiven?, List.findSome?_eq_some_iff]
  constructor
  · rintro ⟨after, s, before, hsteps, hs, hafter⟩
    obtain rfl := given?_eq_some_iff.mp hs
    refine ⟨before.reverse, after.reverse, ?_, ?_⟩
    · rw [← List.reverse_reverse steps, hsteps]
      simp
    · intro g hg
      have hnone := hafter _ (List.mem_reverse.mp hg)
      rw [given?_eq_some_iff.mpr rfl] at hnone
      cases hnone
  · rintro ⟨before, after, rfl, hafter⟩
    refine ⟨after.reverse, function name f, before.reverse, by simp,
      given?_eq_some_iff.mpr rfl, ?_⟩
    intro s hs
    rw [Option.eq_none_iff_forall_ne_some]
    intro g hg
    rw [given?_eq_some_iff.mp hg] at hs
    exact hafter g (List.mem_reverse.mp hs)

theorem lastGiven?_append
    (name : String) (steps : List Registration) (s : Registration) :
  lastGiven? name (steps ++ [s]) = (s.given? name).or (lastGiven? name steps)
  := by
  rw [lastGiven?, List.reverse_append, List.reverse_singleton, List.singleton_append,
    List.findSome?_cons]
  cases s.given? name <;> rfl

/-- Only the registrations by the caller tell which is the last one. -/
theorem lastGiven?_given
    (name : String) (steps : List Registration) :
  lastGiven? name (given steps) = lastGiven? name steps
  := by
  induction steps using List.reverseRecOn with
  | nil => rfl
  | append_singleton steps s ih =>
    rw [given, List.filter_append, lastGiven?_append, ← ih]
    cases s with
    | function other f => exact lastGiven?_append name _ _
    | builtins => simp [given, isBuiltins, given?]

/-- A name that the caller registers has a last registration. -/
theorem isSome_lastGiven? {steps : List Registration} {f : Function}
    (h : function name f ∈ steps) :
  (lastGiven? name steps).isSome
  := by
  rw [lastGiven?, List.isSome_findSome?, List.any_eq_true]
  exact ⟨_, List.mem_reverse.mpr h, by rw [given?_eq_some_iff.mpr rfl]; rfl⟩

end Registration

namespace FunctionTable

open Registration

/-- The built-in functions fill the names that are free. -/
theorem find?_addBuiltins
    (t : FunctionTable) (name : String) :
  t.addBuiltins.find? name = (t.find? name).or (Builtin.all.lookup name)
  := by
  unfold addBuiltins
  induction Builtin.all generalizing t with
  | nil => simp
  | cons entry entries ih =>
    obtain ⟨other, f⟩ := entry
    rw [List.foldl_cons, ih, find?_insertNew, Option.or_assoc, List.lookup_cons]
    by_cases hname : name = other
    · simp [hname]
    · simp [hname, beq_eq_false_iff_ne.mpr hname]

/-- A table has for every name the function that the caller gave it last, or else the built-in
one if the built-in functions were added. -/
theorem find?_build_eq
    (steps : List Registration) (name : String) :
  (build steps).find? name
    = (lastGiven? name steps).or
      (if steps.any isBuiltins then Builtin.all.lookup name else none)
  := by
  induction steps using List.reverseRecOn with
  | nil => rfl
  | append_singleton steps s ih =>
    have hbuild : build (steps ++ [s]) = (build steps).register s := by simp [build]
    rw [hbuild, lastGiven?_append, List.any_append, Option.or_assoc]
    cases s with
    | function other f =>
      rw [register, find?_insert, ih]
      by_cases hname : other = name
      · simp [given?, hname]
      · simp [given?, isBuiltins, hname, Ne.symm hname]
    | builtins =>
      rw [register, find?_addBuiltins, ih]
      cases steps.any isBuiltins <;> simp [given?, isBuiltins, Option.or_assoc]

/-- The table that registrations build up maps a name to the last function that the caller
registered for it, if there is one, else to the built-in function of that name if the built-in
ones are added anywhere, and else to none.  Where they are added, and how often, makes no
difference to the names that the caller registers, and none at all if they are added in both. -/
theorem find?_build
    (steps : List Registration) (name : String) :
  (build steps).find? name
      = (lastGiven? name steps).or
        (if steps.any isBuiltins then Builtin.all.lookup name else none)
    ∧ (∀ f, lastGiven? name steps = some f
      ↔ ∃ before after, steps = before ++ .function name f :: after
        ∧ ∀ g, .function name g ∉ after)
    ∧ ∀ steps' : List Registration, given steps' = given steps →
      (∃ f, .function name f ∈ steps) ∨ steps'.any isBuiltins = steps.any isBuiltins →
      (build steps').find? name = (build steps).find? name
        ∧ ∀ args context clock,
          (build steps').call name args context clock = (build steps).call name args context clock
  := by
  refine ⟨find?_build_eq steps name, fun f => lastGiven?_eq_some_iff, ?_⟩
  intro steps' hgiven hname
  have hlast : lastGiven? name steps' = lastGiven? name steps := by
    rw [← lastGiven?_given, hgiven, lastGiven?_given]
  have hfind : (build steps').find? name = (build steps).find? name := by
    rw [find?_build_eq, find?_build_eq, hlast]
    obtain ⟨f, hf⟩ | hbuiltins := hname
    · rw [Option.or_of_isSome (isSome_lastGiven? hf), Option.or_of_isSome (isSome_lastGiven? hf)]
    · rw [hbuiltins]
  refine ⟨hfind, ?_⟩
  intro args context clock
  unfold call
  rw [hfind]

/-- A `min` of the caller is the one that is called, before and behind the built-in functions,
and the built-in `max` is there beside it. -/
theorem find?_build_min :
  let f := Builtin.nullary fun clock => .date clock.date
  let steps : List Registration := [.function "min" f, .builtins]
  let steps' : List Registration := [.builtins, .function "min" f, .builtins]
  given steps' = given steps ∧ (build steps).find? "min" = some f
    ∧ (build steps').find? "min" = (build steps).find? "min"
    ∧ (build steps).find? "max" = some (Builtin.binary (Builtin.pick "max" (· ≥ ·)))
    ∧ (build steps).find? "median" = none
  := by
  intro f steps steps'
  have hgiven : given steps' = given steps := rfl
  obtain ⟨hmin, -, hsame⟩ := find?_build steps "min"
  have hmin' : lastGiven? "min" steps = some f := rfl
  rw [hmin'] at hmin
  refine ⟨hgiven, hmin, (hsame steps' hgiven (.inl ⟨f, List.mem_cons_self⟩)).1, ?_, ?_⟩
  · rw [(find?_build steps "max").1]
    rfl
  · rw [(find?_build steps "median").1]
    rfl

end FunctionTable

end RuleLang
