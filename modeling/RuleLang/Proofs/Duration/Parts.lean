import Mathlib.Data.List.Induction
import Mathlib.Tactic.Choose
import Mathlib.Tactic.Use
import RuleLang.Proofs.Duration.Shift
import RuleLang.Proofs.Value.Constant

/-!
# Sums of the parts of a duration

The amounts of each unit are added up on their own, in the order of the parts, and every sum on
the way is checked.  So a sum is refused if any of the running sums has no word, even if the
whole sum has one, and the order of the parts counts.  It does not count where the amounts of
each unit are of one sign, as in expressions that are read from texts, and never for the amounts
of the sum.
-/

namespace RuleLang

/-! ### Running sums -/

/-- Whether integers are of one sign. -/
def OneSign (ns : List Int) : Prop := (∀ n ∈ ns, 0 ≤ n) ∨ ∀ n ∈ ns, n ≤ 0

theorem checkedSum_append
    (ns : List Int) (n : Int) :
  checkedSum (ns ++ [n]) = (checkedSum ns).bind fun sum => (int64? n).bind (Word.add? sum)
  := by
  unfold checkedSum
  rw [List.foldlM_append]
  simp only [List.foldlM_cons, List.foldlM_nil, Option.pure_def, Option.bind_eq_bind,
    Option.bind_fun_some]

/-- A checked sum of words is there exactly if every running sum has a word. -/
theorem checkedSum_eq_some_iff {ns : List Int} {w : Int64} (hns : ∀ n ∈ ns, HasWord n) :
  checkedSum ns = some w
    ↔ w.toInt = ns.sum ∧ ∀ running, running <+: ns → HasWord running.sum
  := by
  induction ns using List.reverseRecOn generalizing w with
  | nil =>
    have hzero : checkedSum [] = some w ↔ w.toInt = 0 := by
      rw [← Int64.toInt_zero, Int64.toInt_inj]
      exact Option.some_inj.trans eq_comm
    rw [hzero, List.sum_nil]
    refine ⟨fun hw => ⟨hw, ?_⟩, And.left⟩
    intro running hrunning
    rw [List.prefix_nil.mp hrunning]
    exact ⟨w, hw⟩
  | append_singleton ns n ih =>
    obtain ⟨v, rfl⟩ := hns n (by simp)
    have hfirst : ∀ m ∈ ns, HasWord m := fun m hm => hns m (List.mem_append_left _ hm)
    simp only [checkedSum_append, int64?_toInt, Option.bind_some, Option.bind_eq_some_iff,
      ih hfirst, Word.add?, int64?_eq_some_iff, List.sum_append, List.sum_singleton,
      List.prefix_concat_iff]
    constructor
    · rintro ⟨sum, ⟨hsum, hrunning⟩, hw⟩
      rw [hsum] at hw
      refine ⟨hw, ?_⟩
      rintro running (rfl | hprefix)
      · exact ⟨w, by simpa using hw⟩
      · exact hrunning running hprefix
    · rintro ⟨hw, hrunning⟩
      obtain ⟨sum, hsum⟩ := hrunning ns (.inr List.prefix_rfl)
      exact ⟨sum, ⟨hsum, fun running hprefix => hrunning running (.inr hprefix)⟩, hsum ▸ hw⟩

theorem isSome_checkedSum_iff {ns : List Int} (hns : ∀ n ∈ ns, HasWord n) :
  (checkedSum ns).isSome ↔ ∀ running, running <+: ns → HasWord running.sum
  := by
  simp only [Option.isSome_iff_exists, checkedSum_eq_some_iff hns]
  constructor
  · rintro ⟨w, -, hrunning⟩
    exact hrunning
  · intro hrunning
    obtain ⟨w, hw⟩ := hrunning ns List.prefix_rfl
    exact ⟨w, hw, hrunning⟩

namespace Duration

variable {parts parts' : List (Int64 × DurationUnit)} {d : Duration}

/-- The amounts of a unit among the parts, in their order. -/
def amounts (u : DurationUnit) (parts : List (Int64 × DurationUnit)) : List Int :=
  (parts.filter (·.2 = u)).map (·.1.toInt)

theorem hasWord_of_mem_amounts {u : DurationUnit} :
  ∀ n ∈ amounts u parts, HasWord n
  := by
  intro n hn
  obtain ⟨part, -, rfl⟩ := List.mem_map.mp hn
  exact ⟨part.1, rfl⟩

theorem amounts_append
    (u : DurationUnit) (parts : List (Int64 × DurationUnit)) (n : Int64) (v : DurationUnit) :
  amounts u (parts ++ [(n, v)])
    = if v = u then amounts u parts ++ [n.toInt] else amounts u parts
  := by
  unfold amounts
  rw [List.filter_append]
  split <;> simp [*]

/-- Parts in another order have the same amounts of each unit in another order. -/
theorem amounts_perm (h : parts.Perm parts') (u : DurationUnit) :
  (amounts u parts).Perm (amounts u parts')
  := (h.filter _).map _

/-- A part is added to the amount of its unit. -/
theorem addPart?_eq_some_iff {e : Duration} {n : Int64} {v : DurationUnit} :
  d.addPart? n v = some e
    ↔ Word.add? (d.get v) n = some (e.get v) ∧ ∀ u, u ≠ v → d.get u = e.get u
  := by
  rw [addPart?, Option.map_eq_some_iff]
  constructor
  · rintro ⟨w, hw, rfl⟩
    refine ⟨by simpa using hw, ?_⟩
    intro u hu
    simp [hu]
  · rintro ⟨hv, hothers⟩
    refine ⟨e.get v, hv, ext_get fun u => ?_⟩
    by_cases hu : u = v
    · simp [hu]
    · simp [hu, hothers u hu]

/-- The sum of the parts has the checked sum of the amounts of each unit. -/
theorem ofParts?_eq_some_iff :
  ofParts? parts = some d ↔ ∀ u, checkedSum (amounts u parts) = some (d.get u)
  := by
  induction parts using List.reverseRecOn generalizing d with
  | nil =>
    have hnone : ∀ u, checkedSum (amounts u []) = some 0 := fun _ => rfl
    simp only [hnone, Option.some_inj]
    constructor
    · rintro h u
      rw [← Option.some.inj h, get_zero]
    · intro h
      exact congrArg some (ext_get fun u => (get_zero u).trans (h u))
  | append_singleton parts part ih =>
    obtain ⟨n, v⟩ := part
    have hlast : ofParts? (parts ++ [(n, v)])
        = (ofParts? parts).bind fun before => before.addPart? n v := by
      unfold ofParts?
      rw [List.foldlM_append]
      simp only [List.foldlM_cons, List.foldlM_nil, Option.pure_def, Option.bind_eq_bind,
        Option.bind_fun_some]
    simp only [hlast, Option.bind_eq_some_iff, ih, addPart?_eq_some_iff, amounts_append]
    constructor
    · rintro ⟨before, hbefore, hv, hothers⟩ u
      by_cases hu : v = u
      · subst hu
        rw [if_pos rfl, checkedSum_append, hbefore, int64?_toInt]
        exact hv
      · rw [if_neg hu, hbefore, hothers u (Ne.symm hu)]
    · intro h
      have hv := h v
      rw [if_pos rfl, checkedSum_append, int64?_toInt, Option.bind_eq_some_iff] at hv
      obtain ⟨sum, hsum, hadd⟩ := hv
      refine ⟨d.set v sum, ?_, by simpa using hadd, ?_⟩
      · intro u
        by_cases hu : u = v
        · simp [hu, hsum]
        · have hu' := h u
          rw [if_neg (Ne.symm hu)] at hu'
          simp [hu, hu']
      · intro u hu
        simp [hu]

/-- The amounts of a sum of parts are the sums of the amounts of the parts. -/
theorem toInt_get_ofParts? (h : ofParts? parts = some d) (u : DurationUnit) :
  (d.get u).toInt = (amounts u parts).sum
  := ((checkedSum_eq_some_iff hasWord_of_mem_amounts).mp (ofParts?_eq_some_iff.mp h u)).1

/-- There is a sum of the parts exactly if there is a checked sum of the amounts of each unit. -/
theorem isSome_ofParts? :
  (ofParts? parts).isSome ↔ ∀ u, (checkedSum (amounts u parts)).isSome
  := by
  simp only [Option.isSome_iff_exists]
  constructor
  · rintro ⟨d, hd⟩ u
    exact ⟨_, ofParts?_eq_some_iff.mp hd u⟩
  · intro h
    choose amount hamount using h
    use DurationUnit.all.foldl (fun d u => d.set u (amount u)) zero
    apply ofParts?_eq_some_iff.mpr
    intro u
    rw [hamount u]
    cases u <;> rfl

/-- Where the amounts of each unit are of one sign, the parts are added up exactly if the whole
sums have words. -/
theorem isSome_ofParts?_of_sign (hsign : ∀ u, OneSign (amounts u parts)) :
  (ofParts? parts).isSome ↔ ∀ u, HasWord (amounts u parts).sum
  := by
  rw [isSome_ofParts?]
  refine forall_congr' fun u => ?_
  rw [checkedSum_of_sign (hsign u), ← not_iff_not, Option.not_isSome_iff_eq_none,
    int64?_eq_none_iff_not_hasWord]

/-- Where the amounts of each unit are of one sign, the order of the parts does not count. -/
theorem ofParts?_eq_of_sign (hperm : parts.Perm parts')
    (hsign : ∀ u, OneSign (amounts u parts)) :
  ofParts? parts' = ofParts? parts
  := by
  have hsum (u : DurationUnit) :
      checkedSum (amounts u parts') = checkedSum (amounts u parts) := by
    have hperm' := amounts_perm hperm u
    have hsign' : OneSign (amounts u parts') := by
      simpa only [OneSign, hperm'.mem_iff] using hsign u
    rw [checkedSum_of_sign (hsign u), checkedSum_of_sign hsign', hperm'.sum_eq]
  apply Option.ext
  intro d
  simp only [ofParts?_eq_some_iff, hsum]

/-- The parts of a duration are added up exactly if for each unit every running sum of its
amounts, in the order of the parts, has a word; the amounts of the sum are the sums of the amounts.
So two orders of the parts have the same sum if both have one, and they have the same outcome if
the amounts of each unit are of one sign, when it is enough that the whole sums have words. -/
theorem ofParts?_perm
    (parts : List (Int64 × DurationUnit)) :
  ((ofParts? parts).isSome
      ↔ ∀ u running, running <+: amounts u parts → HasWord running.sum)
    ∧ (∀ d, ofParts? parts = some d → ∀ u, (d.get u).toInt = (amounts u parts).sum)
    ∧ ∀ parts', parts.Perm parts' →
      ((ofParts? parts).isSome → (ofParts? parts').isSome → ofParts? parts' = ofParts? parts)
        ∧ ((∀ u, OneSign (amounts u parts)) →
          ofParts? parts' = ofParts? parts
            ∧ ((ofParts? parts).isSome ↔ ∀ u, HasWord (amounts u parts).sum))
  := by
  have hrunning : (ofParts? parts).isSome
      ↔ ∀ u running, running <+: amounts u parts → HasWord running.sum := by
    rw [isSome_ofParts?]
    exact forall_congr' fun u => isSome_checkedSum_iff hasWord_of_mem_amounts
  refine ⟨hrunning, fun d => toInt_get_ofParts?, ?_⟩
  intro parts' hperm
  constructor
  · intro hsome hsome'
    obtain ⟨d, hd⟩ := Option.isSome_iff_exists.mp hsome
    obtain ⟨d', hd'⟩ := Option.isSome_iff_exists.mp hsome'
    rw [hd, hd', Option.some_inj]
    apply ext_get
    intro u
    rw [← Int64.toInt_inj, toInt_get_ofParts? hd', toInt_get_ofParts? hd,
      (amounts_perm hperm u).sum_eq]
  · intro hsign
    exact ⟨ofParts?_eq_of_sign hperm hsign, isSome_ofParts?_of_sign hsign⟩

/-- Years before and behind a number of months are added up whatever their order. -/
theorem ofParts?_perm_year_month :
  let parts : List (Int64 × DurationUnit) := [(1, .years), (2, .months), (3, .years)]
  let parts' : List (Int64 × DurationUnit) := [(3, .years), (1, .years), (2, .months)]
  parts.Perm parts' ∧ (∀ u, OneSign (amounts u parts))
    ∧ ofParts? parts' = ofParts? parts ∧ ofParts? parts = some { years := 4, months := 2 }
  := by
  intro parts parts'
  have hperm : parts.Perm parts' := by decide
  have hsign : ∀ u, OneSign (amounts u parts) := by
    intro u
    left
    cases u <;> decide
  exact ⟨hperm, hsign, (((ofParts?_perm parts).2.2 parts' hperm).2 hsign).1, by decide⟩

/-- The greatest amount of a unit, one more and one less are refused for the sum on the way, though
in another order they have a sum. -/
theorem not_ofParts?_perm :
  let greatest : Int64 × DurationUnit := (Int64.maxValue, .years)
  let parts : List (Int64 × DurationUnit) := [greatest, (1, .years), (-1, .years)]
  let parts' : List (Int64 × DurationUnit) := [greatest, (-1, .years), (1, .years)]
  parts.Perm parts' ∧ (∀ u, HasWord (amounts u parts).sum)
    ∧ ofParts? parts = none ∧ ofParts? parts' = some { years := Int64.maxValue }
  := by
  intro greatest parts parts'
  refine ⟨by decide, ?_, by decide, by decide⟩
  intro u
  cases u with
  | years => exact ⟨Int64.maxValue, by decide⟩
  | _ => exact ⟨0, by decide⟩

/-! ### Durations in texts -/

section

variable {limit : Nat} {source : List Char} {e : Expr}

/-- The amounts of each unit in a duration that stands in a text are of one sign. -/
theorem oneSign_amounts_of_read (h : Expr.read limit source = .ok e)
    (hparts : .duration parts ∈ e.lower) (u : DurationUnit) :
  OneSign (amounts u parts)
  := by
  left
  intro n hn
  obtain ⟨part, hpart, rfl⟩ := List.mem_map.mp hn
  have hwritten := (Expr.written_of_read h).lower (.duration parts) hparts
  exact hwritten part (List.mem_of_mem_filter hpart)

/-- The parts of a duration that stands in a text have the same sum in every order. -/
theorem ofParts?_eq_of_read (h : Expr.read limit source = .ok e)
    (hparts : .duration parts ∈ e.lower) (hperm : parts.Perm parts') :
  ofParts? parts' = ofParts? parts
  := ofParts?_eq_of_sign hperm (oneSign_amounts_of_read h hparts)

end

end Duration

end RuleLang
