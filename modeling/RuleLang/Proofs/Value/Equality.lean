import Mathlib.Tactic.Use
import RuleLang.Eval.Access
import RuleLang.Eval.Compare
import RuleLang.Proofs.Number.Equality
import RuleLang.Proofs.Value.Parts

/-!
# Strict and loose equality

Strict equality takes an undefined value in a list or a map for equal to another, loose equality
takes it for equal to nothing.  Apart from that, values that are strictly equal are loosely
equal.

Loose equality is symmetric, and reflexive for the values that hold nothing undefined and no NaN.
It compares an integer to a float by the float to which the integer is rounded, and two integers
exactly.  A float is therefore equal to all integers that are rounded to it, which are not equal
to each other.  This is the one way in which loose equality fails to be transitive, and it needs
an integer of a magnitude above `2 ^ 53`.
-/

namespace RuleLang.Value

/-! ### Equality of lists and maps -/

/-- Maps are the same when their keys are and their values are, in order. -/
theorem sameEntries_eq
    (as bs : List (MapKey × Value)) :
  sameEntries as bs
    = (decide (as.map (·.1) = bs.map (·.1)) && sameItems (as.map (·.2)) (bs.map (·.2)))
  := by
  induction as generalizing bs with
  | nil => cases bs <;> rfl
  | cons a as ih =>
    cases bs with
    | nil => rfl
    | cons b bs =>
      simp only [sameEntries, sameItems, ih, List.map_cons, List.cons.injEq, Bool.decide_and]
      grind

/-- Maps are loosely equal when their keys are the same and their values are loosely equal, in
order. -/
theorem looseEqEntries_eq
    (as bs : List (MapKey × Value)) :
  looseEqEntries as bs
    = (decide (as.map (·.1) = bs.map (·.1)) && looseEqItems (as.map (·.2)) (bs.map (·.2)))
  := by
  induction as generalizing bs with
  | nil => cases bs <;> rfl
  | cons a as ih =>
    cases bs with
    | nil => rfl
    | cons b bs =>
      simp only [looseEqEntries, looseEqItems, ih, List.map_cons, List.cons.injEq, Bool.decide_and]
      grind

/-! ### Values that can be compared -/

theorem asFloat?_isSome_iff
    {v : Value} :
  v.asFloat?.isSome = true ↔ v.kind = .int ∨ v.kind = .float
  := by
  cases v <;> simp [asFloat?, kind]

/-- Whether two values are both numbers, or of one kind. -/
def Comparable (a b : Value) : Prop := (a.asFloat?.isSome ∧ b.asFloat?.isSome) ∨ a.kind = b.kind

theorem Comparable.trans {a b c : Value} (hab : a.Comparable b) (hbc : b.Comparable c) :
  a.Comparable c
  := by
  simp only [Comparable, asFloat?_isSome_iff] at *
  grind

/-- The comparison of values that can be compared is their loose equality. -/
theorem compare_equal_of_comparable {a b : Value} (ha : a.isUndefined = false)
    (hb : b.isUndefined = false) (h : a.Comparable b) :
  compare .equal a b = .bool (a.looseEq b)
  := by
  have hloose : looseEq? a b = some (a.looseEq b) := if_pos h
  unfold compare
  rw [ha, hb]
  change ofBool? (looseEq? a b) = _
  rw [hloose]
  rfl

/-! ### Undefined values -/

/-- Whether no value in a value, at any depth, is undefined. -/
def IsDefinite (v : Value) : Prop := ∀ w ∈ v.parts, w.isUndefined = false

instance (v : Value) : Decidable v.IsDefinite :=
  inferInstanceAs (Decidable (∀ w ∈ v.parts, w.isUndefined = false))

theorem isDefinite_list {items : List Value} :
  (list items).IsDefinite ↔ ∀ v ∈ items, v.IsDefinite
  := by
  unfold IsDefinite
  rw [forall_mem_parts_list]
  exact and_iff_right rfl

theorem isDefinite_map {entries : List (MapKey × Value)} :
  (map entries).IsDefinite ↔ ∀ v ∈ entries.map (·.2), v.IsDefinite
  := by
  unfold IsDefinite
  rw [forall_mem_parts_map, List.forall_mem_map]
  exact and_iff_right rfl

/-- Lists with the same items are loosely equal exactly when no item holds an undefined value,
if this is so for each of the items. -/
theorem looseEqItems_of_sameItems {as bs : List Value}
    (h : ∀ a ∈ as, ∀ b, same a b = true → a.looseEq b = decide a.IsDefinite)
    (hsame : sameItems as bs = true) :
  looseEqItems as bs = decide (∀ a ∈ as, a.IsDefinite)
  := by
  induction as generalizing bs with
  | nil =>
    cases bs with
    | nil => rfl
    | cons b bs => cases hsame
  | cons a as ih =>
    cases bs with
    | nil => cases hsame
    | cons b bs =>
      obtain ⟨hfirst, hrest⟩ := List.forall_mem_cons.mp h
      rw [sameItems, Bool.and_eq_true] at hsame
      rw [looseEqItems, hfirst b hsame.1, ih hrest hsame.2, ← Bool.decide_and]
      simp only [List.forall_mem_cons]

/-- The same values are loosely equal exactly when they hold no undefined value. -/
theorem looseEq_of_same {a b : Value} (h : same a b = true) :
  a.looseEq b = decide a.IsDefinite
  := by
  induction a generalizing b with
  | list as ih =>
    cases b with
    | list bs =>
      rw [same] at h
      rw [looseEq, looseEqItems_of_sameItems (fun a ha b => ih a ha) h]
      simp only [isDefinite_list]
    | _ => cases h
  | map as ih =>
    cases b with
    | map bs =>
      rw [same, sameEntries_eq, Bool.and_eq_true] at h
      have hitems := looseEqItems_of_sameItems
        (List.forall_mem_map.mpr fun entry hentry b => ih entry hentry) h.2
      rw [looseEq, looseEqEntries_eq, h.1, hitems]
      simp only [isDefinite_map, Bool.true_and]
    | _ => cases h
  | int m =>
    cases b with
    | float y => cases h
    | _ => exact h
  | float x =>
    cases b with
    | int n => cases h
    | _ => exact h
  | undefined => cases b <;> rfl
  | _ => cases b <;> exact h

/-! ### Strict equality against loose equality -/

/-- Values that are strictly equal are loosely equal exactly when they hold no undefined
value. -/
theorem compare_equal_of_strictEqual {a b : Value} (h : compare .strictEqual a b = .bool true) :
  compare .equal a b = .bool (decide a.IsDefinite)
  := by
  unfold compare at h
  split at h
  · cases h
  · rename_i hdefined
    obtain ⟨ha, hb⟩ := Bool.or_eq_false_iff.mp (Bool.eq_false_iff.mpr hdefined)
    obtain ⟨hkind, hsame⟩ := Bool.and_eq_true_iff.mp (Value.bool.inj h)
    rw [compare_equal_of_comparable ha hb (.inr (of_decide_eq_true hkind)), looseEq_of_same hsame]

/-- A list that holds a map is loosely equal to itself. -/
theorem compare_equal_of_strictEqual_nested :
  let v : Value := .list [.int 1, .map [(.str "k", .float 1.5)]]
  compare .strictEqual v v = .bool true ∧ compare .equal v v = .bool true
  := by
  intro v
  have hstrict : compare .strictEqual v v = .bool true := rfl
  exact ⟨hstrict, compare_equal_of_strictEqual hstrict⟩

/-- Two lists of an undefined value are strictly equal, but not loosely. -/
theorem not_compare_equal_of_strictEqual :
  ¬∀ a b : Value, compare .strictEqual a b = .bool true → compare .equal a b = .bool true
  := by
  intro h
  have hloose := h (.list [.undefined]) (.list [.undefined]) rfl
  cases hloose

/-! ### Reflexivity and symmetry -/

/-- Whether a value is a float that is no number. -/
def isNaN : Value → Bool
  | float x => x.isNaN
  | _ => false

/-- Whether no value in a value, at any depth, is undefined or no number. -/
def IsRegular (v : Value) : Prop := ∀ w ∈ v.parts, w.isUndefined = false ∧ w.isNaN = false

theorem isRegular_list {items : List Value} :
  (list items).IsRegular ↔ ∀ v ∈ items, v.IsRegular
  := by
  unfold IsRegular
  rw [forall_mem_parts_list]
  exact and_iff_right ⟨rfl, rfl⟩

theorem isRegular_map {entries : List (MapKey × Value)} :
  (map entries).IsRegular ↔ ∀ v ∈ entries.map (·.2), v.IsRegular
  := by
  unfold IsRegular
  rw [forall_mem_parts_map, List.forall_mem_map]
  exact and_iff_right ⟨rfl, rfl⟩

theorem looseEqItems_self_iff
    {items : List Value} :
  looseEqItems items items = true ↔ ∀ v ∈ items, v.looseEq v = true
  := by
  induction items with
  | nil => exact ⟨nofun, fun _ => rfl⟩
  | cons v rest ih => rw [looseEqItems, Bool.and_eq_true, ih, List.forall_mem_cons]

/-- A value is loosely equal to itself exactly when nothing in it is undefined or no number. -/
theorem looseEq_self_iff
    {v : Value} :
  v.looseEq v = true ↔ v.IsRegular
  := by
  have hsingle : ∀ w : Value, w.parts = [w] →
      (w.IsRegular ↔ w.isUndefined = false ∧ w.isNaN = false) := by
    intro w hw
    rw [IsRegular, hw, List.forall_mem_singleton]
  induction v with
  | list items ih =>
    rw [looseEq, looseEqItems_self_iff, isRegular_list]
    exact forall₂_congr ih
  | map entries ih =>
    rw [looseEq, looseEqEntries_eq, decide_eq_true rfl, Bool.true_and, looseEqItems_self_iff,
      isRegular_map]
    exact forall₂_congr (List.forall_mem_map.mpr ih)
  | float x =>
    change (x == x) = true ↔ _
    rw [hsingle _ rfl, float_beq_self, Bool.not_eq_true']
    exact (and_iff_right rfl).symm
  | undefined =>
    rw [hsingle _ rfl]
    exact ⟨nofun, nofun⟩
  | _ => exact iff_of_true (decide_eq_true rfl) ((hsingle _ rfl).mpr ⟨rfl, rfl⟩)

theorem looseEqItems_comm {as bs : List Value}
    (h : ∀ a ∈ as, ∀ b, a.looseEq b = b.looseEq a) :
  looseEqItems as bs = looseEqItems bs as
  := by
  induction as generalizing bs with
  | nil => cases bs <;> rfl
  | cons a as ih =>
    cases bs with
    | nil => rfl
    | cons b bs =>
      obtain ⟨hfirst, hrest⟩ := List.forall_mem_cons.mp h
      rw [looseEqItems, looseEqItems, hfirst, ih hrest]

/-- Loose equality does not depend on the order of its sides. -/
theorem looseEq_comm
    (a b : Value) :
  a.looseEq b = b.looseEq a
  := by
  induction a generalizing b with
  | list as ih =>
    cases b with
    | list bs => exact looseEqItems_comm fun a ha b => ih a ha b
    | _ => rfl
  | map as ih =>
    cases b with
    | map bs =>
      rw [looseEq, looseEq, looseEqEntries_eq, looseEqEntries_eq,
        looseEqItems_comm (List.forall_mem_map.mpr ih)]
      simp only [eq_comm]
    | _ => rfl
  | float x =>
    cases b with
    | float y => apply float_beq_comm
    | _ => rfl
  | undefined => cases b <;> rfl
  | _ => cases b <;> simp [looseEq, same, eq_comm]

/-! ### Transitivity -/

mutual

/-- Whether two values hold the same integer wherever both hold one in the same place. -/
def agreeOnIntegers : Value → Value → Bool
  | int m, int n => m = n
  | list as, list bs => itemsAgreeOnIntegers as bs
  | map as, map bs => entriesAgreeOnIntegers as bs
  | _, _ => true

/-- Whether two lists hold the same integer wherever both hold one in the same place. -/
def itemsAgreeOnIntegers : List Value → List Value → Bool
  | a :: as, b :: bs => agreeOnIntegers a b && itemsAgreeOnIntegers as bs
  | _, _ => true

/-- Whether two maps hold the same integer wherever both hold one in the same place. -/
def entriesAgreeOnIntegers : List (MapKey × Value) → List (MapKey × Value) → Bool
  | (_, a) :: as, (_, b) :: bs => agreeOnIntegers a b && entriesAgreeOnIntegers as bs
  | _, _ => true

end

theorem entriesAgreeOnIntegers_eq
    (as bs : List (MapKey × Value)) :
  entriesAgreeOnIntegers as bs = itemsAgreeOnIntegers (as.map (·.2)) (bs.map (·.2))
  := by
  induction as generalizing bs with
  | nil => rfl
  | cons a as ih =>
    cases bs with
    | nil => rfl
    | cons b bs =>
      rw [entriesAgreeOnIntegers, ih, List.map_cons, List.map_cons, itemsAgreeOnIntegers]

/-- Whether a value is no integer of a magnitude above `2 ^ 53`. -/
def isExact : Value → Bool
  | int n => n.toInt.natAbs ≤ 2 ^ 53
  | _ => true

/-- Whether no integer in a value, at any depth, has a magnitude above `2 ^ 53`. -/
def IsExact (v : Value) : Prop := ∀ w ∈ v.parts, w.isExact = true

theorem isExact_list {items : List Value} :
  (list items).IsExact ↔ ∀ v ∈ items, v.IsExact
  := by
  unfold IsExact
  rw [forall_mem_parts_list]
  exact and_iff_right rfl

theorem isExact_map {entries : List (MapKey × Value)} :
  (map entries).IsExact ↔ ∀ v ∈ entries.map (·.2), v.IsExact
  := by
  unfold IsExact
  rw [forall_mem_parts_map, List.forall_mem_map]
  exact and_iff_right rfl

/-- What loose equality by way of a value says of the values on both sides of it. -/
def Joins (b : Value) : Prop :=
  ∀ {a c : Value}, a.looseEq b = true → b.looseEq c = true →
    a.looseEq c = a.agreeOnIntegers c
      ∧ (a.IsExact → c.IsExact → a.agreeOnIntegers c = true)

/-- Integers equal to an integer are that integer, and the floats equal to it its rounded
float. -/
theorem joins_int
    (n : Int64) :
  (int n).Joins
  := by
  intro a c ha hc
  cases a with
  | int m =>
    obtain rfl : m = n := of_decide_eq_true ha
    cases c with
    | int k => exact ⟨rfl, fun _ _ => hc⟩
    | float z => exact ⟨hc, fun _ _ => rfl⟩
    | _ => cases hc
  | float x =>
    cases c with
    | int k =>
      obtain rfl : n = k := of_decide_eq_true hc
      exact ⟨ha, fun _ _ => rfl⟩
    | float z => exact ⟨float_beq_trans (float_beq_symm ha) hc, fun _ _ => rfl⟩
    | _ => cases hc
  | _ => cases ha

/-- Integers equal to a float are rounded to it, but need not be the same. -/
theorem joins_float
    (y : Float) :
  (float y).Joins
  := by
  intro a c ha hc
  cases a with
  | int m =>
    cases c with
    | int k =>
      -- both are rounded to `y`, and without rounding they are the same
      refine ⟨rfl, fun hm hk => decide_eq_true ?_⟩
      have hm : m.toInt.natAbs ≤ 2 ^ 53 := of_decide_eq_true (hm _ List.mem_cons_self)
      have hk : k.toInt.natAbs ≤ 2 ^ 53 := of_decide_eq_true (hk _ List.mem_cons_self)
      exact eq_of_toFloat_beq hm hk (float_beq_trans ha (float_beq_symm hc))
    | float z => exact ⟨float_beq_trans ha hc, fun _ _ => rfl⟩
    | _ => cases hc
  | float x =>
    cases c with
    | int k => exact ⟨float_beq_trans hc (float_beq_symm ha), fun _ _ => rfl⟩
    | float z => exact ⟨float_beq_trans ha hc, fun _ _ => rfl⟩
    | _ => cases hc
  | _ => cases ha

/-- A value to which nothing else is loosely equal has nothing else on either side. -/
theorem joins_of_eq_self {b : Value} (h : ∀ a : Value, a.looseEq b = true → a = b)
    (hself : b.agreeOnIntegers b = true) :
  b.Joins
  := by
  intro a c ha hc
  obtain rfl := h a ha
  rw [looseEq_comm] at hc
  obtain rfl := h c hc
  exact ⟨hc.trans hself.symm, fun _ _ => hself⟩

/-- What loose equality by way of the items of a list says of the lists on both sides of it. -/
theorem joinsItems {as bs cs : List Value} (h : ∀ b ∈ bs, b.Joins)
    (has : looseEqItems as bs = true) (hcs : looseEqItems bs cs = true) :
  looseEqItems as cs = itemsAgreeOnIntegers as cs
    ∧ ((∀ a ∈ as, a.IsExact) → (∀ c ∈ cs, c.IsExact) → itemsAgreeOnIntegers as cs = true)
  := by
  induction bs generalizing as cs with
  | nil =>
    obtain rfl : as = [] := by cases as with
      | nil => rfl
      | cons a as => cases has
    cases cs with
    | nil => exact ⟨rfl, fun _ _ => rfl⟩
    | cons c cs => cases hcs
  | cons b bs ih =>
    cases as with
    | nil => cases has
    | cons a as =>
    cases cs with
    | nil => cases hcs
    | cons c cs =>
    obtain ⟨hfirst, hrest⟩ := List.forall_mem_cons.mp h
    rw [looseEqItems, Bool.and_eq_true] at has hcs
    obtain ⟨heq, hexact⟩ := hfirst has.1 hcs.1
    obtain ⟨hequal, hexacts⟩ := ih hrest has.2 hcs.2
    rw [looseEqItems, itemsAgreeOnIntegers, heq, hequal]
    refine ⟨rfl, ?_⟩
    intro ha hc
    rw [List.forall_mem_cons] at ha hc
    rw [hexact ha.1 hc.1, hexacts ha.2 hc.2]
    rfl

/-- Values that are loosely equal to one value are loosely equal exactly when they agree on
integers, and they agree if their integers have magnitudes of at most `2 ^ 53`. -/
theorem joins
    (b : Value) :
  b.Joins
  := by
  induction b with
  | int n => apply joins_int
  | float y => apply joins_float
  | list bs ih =>
    intro a c ha hc
    cases a with
    | list as =>
      cases c with
      | list cs =>
        rw [isExact_list, isExact_list]
        exact joinsItems ih ha hc
      | _ => cases hc
    | _ => cases ha
  | map bs ih =>
    intro a c ha hc
    cases a with
    | map as =>
      cases c with
      | map cs =>
        rw [looseEq, looseEqEntries_eq, Bool.and_eq_true, decide_eq_true_iff] at ha hc
        rw [looseEq, looseEqEntries_eq, ha.1, hc.1, agreeOnIntegers, entriesAgreeOnIntegers_eq,
          isExact_map, isExact_map, decide_eq_true rfl, Bool.true_and]
        exact joinsItems (List.forall_mem_map.mpr ih) ha.2 hc.2
      | _ => cases hc
    | _ => cases ha
  | undefined =>
    intro a c ha hc
    cases hc
  | _ =>
    refine joins_of_eq_self ?_ rfl
    intro a ha
    cases a <;> simp_all [looseEq, same]

/-! ### Loose equality as an equivalence -/

theorem kind_eq_of_same {a b : Value} (h : same a b = true) :
  a.kind = b.kind
  := by
  unfold same at h
  split at h
  case h_11 => cases h
  all_goals rfl

/-- Values that are loosely equal can be compared. -/
theorem comparable_of_looseEq {a b : Value} (h : a.looseEq b = true) :
  a.Comparable b
  := by
  unfold looseEq at h
  split at h
  · cases h
  · cases h
  · exact .inl ⟨rfl, rfl⟩
  · exact .inl ⟨rfl, rfl⟩
  · exact .inr rfl
  · exact .inr rfl
  · exact .inr (kind_eq_of_same h)

theorem isUndefined_of_looseEq {a b : Value} (h : a.looseEq b = true) :
  a.isUndefined = false ∧ b.isUndefined = false
  := by
  have hleft : ∀ {v w : Value}, v.looseEq w = true → v.isUndefined = false := by
    intro v w h
    cases v with
    | undefined => cases w <;> cases h
    | _ => rfl
  exact ⟨hleft h, hleft ((looseEq_comm b a).trans h)⟩

/-- A comparison gives that two values are equal exactly when they are loosely equal. -/
theorem compare_equal_eq_true_iff
    {a b : Value} :
  compare .equal a b = .bool true ↔ a.looseEq b = true
  := by
  constructor
  · intro h
    unfold compare at h
    split at h
    · cases h
    · dsimp only at h
      unfold looseEq? at h
      split at h
      · exact Value.bool.inj h
      · cases h
  · intro h
    obtain ⟨ha, hb⟩ := isUndefined_of_looseEq h
    rw [compare_equal_of_comparable ha hb (comparable_of_looseEq h), h]

/-- What is defined is in a list of one item or not, as it is loosely equal to the item or not. -/
theorem membership_singleton
    {a v : Value} (hv : v.isUndefined = false) :
  membership .isIn v (.list [a]) = .ok (.bool (a.looseEq v))
  := by
  change contains (.list [a]) v = _
  unfold contains
  rw [hv]
  change Except.ok (Value.bool (a.looseEq v || false)) = _
  rw [Bool.or_false]

/-- A value is in a list of one item exactly when it is loosely equal to that item. -/
theorem membership_singleton_iff
    {a v : Value} :
  membership .isIn v (.list [a]) = .ok (.bool true) ↔ a.looseEq v = true
  := by
  cases hv : v.isUndefined with
  | false => rw [membership_singleton hv, Except.ok.injEq, Value.bool.injEq]
  | true =>
    constructor
    · intro h
      change contains (.list [a]) v = _ at h
      unfold contains at h
      rw [hv] at h
      cases h
    · intro h
      rw [(isUndefined_of_looseEq h).2] at hv
      cases hv

/-- Loose equality is symmetric, and reflexive for the values that hold nothing undefined and
no NaN.  Values that are equal to one value are equal to each other exactly when they hold the
same integers, wherever both hold one: of different integers that are rounded to one float, each
is equal to the float.  Comparison and membership follow loose equality in this.  Among values
whose integers have magnitudes of at most `2 ^ 53` it is transitive. -/
theorem looseEq_equivalence
    (a b c : Value) :
  (a.looseEq a = true ↔ a.IsRegular)
    ∧ a.looseEq b = b.looseEq a
    ∧ (a.looseEq b = true → b.looseEq c = true → a.looseEq c = a.agreeOnIntegers c)
    ∧ (compare .equal a b = .bool true → compare .equal b c = .bool true →
        compare .equal a c = .bool (a.agreeOnIntegers c))
    ∧ (membership .isIn c (.list [b]) = .ok (.bool true) → compare .equal b a = .bool true →
        membership .isIn c (.list [a]) = .ok (.bool (a.agreeOnIntegers c)))
    ∧ (a.IsExact → c.IsExact → a.looseEq b = true → b.looseEq c = true → a.looseEq c = true)
  := by
  refine ⟨looseEq_self_iff, looseEq_comm a b, fun hab hbc => (joins b hab hbc).1, ?_, ?_, ?_⟩
  · intro hab hbc
    rw [compare_equal_eq_true_iff] at hab hbc
    have hcomparable := (comparable_of_looseEq hab).trans (comparable_of_looseEq hbc)
    rw [compare_equal_of_comparable (isUndefined_of_looseEq hab).1 (isUndefined_of_looseEq hbc).2
      hcomparable, (joins b hab hbc).1]
  · intro hbc hba
    rw [membership_singleton_iff] at hbc
    rw [compare_equal_eq_true_iff, looseEq_comm] at hba
    rw [membership_singleton (isUndefined_of_looseEq hbc).2, (joins b hba hbc).1]
  · intro ha hc hab hbc
    obtain ⟨heq, hexact⟩ := joins b hab hbc
    rw [heq, hexact ha hc]

/-- Two lists with different integers are both equal to the list of the float to which the
integers are rounded. -/
theorem looseEq_equivalence_rounded :
  let a : Value := .list [.int 9007199254740993]
  let b : Value := .list [.float 9007199254740992]
  let c : Value := .list [.int 9007199254740992]
  a.looseEq b = true ∧ b.looseEq c = true ∧ a.looseEq c = false
  := by
  intro a b c
  have hab : a.looseEq b = true := by decide +kernel
  have hbc : b.looseEq c = true := by decide +kernel
  exact ⟨hab, hbc, (looseEq_equivalence a b c).2.2.1 hab hbc⟩

end RuleLang.Value
