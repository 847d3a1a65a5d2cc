import RuleLang.Proofs.Grammar.Recognition

/-!
# Heights of expressions

The height of an expression that is read can exceed the limit of the depth.  A chain counts its
steps and gives them back when it ends, although the expression that it hands on as an operand
keeps its height; so each of the seven chains around a primary can use up what is left of the
depth anew, and the depth is counted neither for what begins a chain nor for the step from a
duration to a date.  `Expr.tallest` is how high an expression can be for what is left of the
depth.

The bound is read off the descent of a derivation, by induction on the derivation.
-/

namespace RuleLang

namespace Expr

/-! ### The height of a tree -/

mutual

/-- The height of an expression as a tree, whose leaves have height one. -/
def height : Expr → Nat
  | literal _ | var _ | duration _ => 1
  | property e _ | unary _ e | not e | relative e _ => e.height + 1
  | index l r | compare _ l r | arithmetic _ l r | and l r | or l r | membership _ l r =>
    max l.height r.height + 1
  | list items | call _ items => itemsHeight items + 1
  | object entries => entriesHeight entries + 1

/-- The height of the highest of several expressions. -/
def itemsHeight : List Expr → Nat
  | [] => 0
  | e :: rest => max e.height (itemsHeight rest)

/-- The height of the highest value of an object. -/
def entriesHeight : List (String × Expr) → Nat
  | [] => 0
  | (_, e) :: rest => max e.height (entriesHeight rest)

end

/-- How high an expression can be that is read in a step deeper, if `room` such steps are left
of the depth.  It is a primary around an expression with less room, or a date counted from the
present, and seven chains around it. -/
def tallest : (room : Nat) → Nat
  | 0 => 0
  | room + 1 => max 2 (tallest room + 1) + 7 * room

/-- How high an expression can be grows with the square of the room. -/
theorem two_mul_tallest
    (room : Nat) :
  2 * tallest (room + 1) = 4 + 2 * room + 7 * (room * (room + 1))
  := by
  induction room with
  | zero => rfl
  | succ room ih =>
    have hsquare : (room + 1) * (room + 1 + 1) = room * (room + 1) + 2 * (room + 1) := by
      rw [Nat.mul_comm, ← Nat.add_mul]
    rw [tallest, hsquare]
    omega

theorem tallest_mono {room room' : Nat} (h : room ≤ room') :
  tallest room ≤ tallest room'
  := by
  induction room generalizing room' with
  | zero => apply Nat.zero_le
  | succ room ih =>
    cases room' with
    | zero => cases h
    | succ room' =>
      have hroom : room ≤ room' := Nat.le_of_succ_le_succ h
      have hinside := ih hroom
      rw [tallest, tallest]
      omega

end Expr

/-! ### Heights of phrases -/

namespace Nonterminal

/-- How many chains stand one in the other around a primary. -/
def chains : Nonterminal → Nat
  | disjunction => 7
  | conjunction => 6
  | negation | comparison => 5
  | membership => 4
  | sum => 3
  | product => 2
  | sign | access => 1
  | operand => 0

/-- How high an expression of a nonterminal can be whose reading comes `depth` steps deeper. -/
def tallest (n : Nonterminal) (depth : Nat) : Nat :=
  max 2 (Expr.tallest depth + 1) + n.chains * depth

variable {n m : Nonterminal} {depth depth' : Nat}

theorem tallest_mono (h : depth ≤ depth') :
  n.tallest depth ≤ n.tallest depth'
  := by
  have hinside := Expr.tallest_mono h
  have hchains := Nat.mul_le_mul_left n.chains h
  rw [tallest, tallest]
  omega

/-- A primary is a node around an expression. -/
theorem tallest_lt_tallest
    (n : Nonterminal) (depth : Nat) :
  Expr.tallest depth < n.tallest depth
  := by
  rw [tallest]
  omega

/-- A chain adds its steps to an operand. -/
theorem tallest_of_operand? (h : n.operand? = some m) :
  n.tallest depth = m.tallest depth + depth
  := by
  have hchains : n.chains = m.chains + 1 := by
    cases n <;> cases h <;> rfl
  rw [tallest, tallest, hchains, Nat.succ_mul, Nat.add_assoc]

/-- Where there is a chain, a step deeper leaves room for a node. -/
theorem tallest_lt_tallest_succ (h : 0 < n.chains) :
  n.tallest depth < n.tallest (depth + 1)
  := by
  have hinside := Expr.tallest_mono (Nat.le_add_right depth 1)
  rw [tallest, tallest, Nat.mul_succ]
  omega

end Nonterminal

/-- A connective adds a node for each of its symbols. -/
theorem Connective.height_combine {n : Nonterminal} {op : List Symbol}
    {combine : Expr → Expr → Expr} (h : Connective n op combine) (l r : Expr) :
  (combine l r).height = max l.height r.height + op.length
  := by
  cases h <;> rfl

/-- The trees of a phrase are no higher than its descent allows.  A tail adds to what it begins
with what it keeps of the depth. -/
def Descent.BoundsHeight (d : Descent) : Phrase → Prop
  | .tree n e => e.height ≤ n.tallest d.deepest
  | .tail n left e =>
    ∀ m, n.operand? = some m → e.height ≤ max left.height (m.tallest d.deepest) + d.kept
  | .items es | .moreItems es => Expr.itemsHeight es ≤ Expr.tallest d.deepest
  | .entries entries | .moreEntries entries =>
    Expr.entriesHeight entries ≤ Expr.tallest d.deepest

namespace Descent.BoundsHeight

variable {a b d : Descent} {n m : Nonterminal} {e left : Expr}

/-- A chain keeps what the tail adds to an operand. -/
theorem chain (hn : n.operand? = some m) (hleft : a.BoundsHeight (.tree m left))
    (htail : b.BoundsHeight (.tail n left e)) :
  (a.closed ++ b).BoundsHeight (.tree n e)
  := by
  have hheight := htail m hn
  have hdeepest : (a.closed ++ b).deepest = max a.deepest b.deepest := by simp
  have hfirst : m.tallest a.deepest ≤ m.tallest (max a.deepest b.deepest) :=
    Nonterminal.tallest_mono (Nat.le_max_left _ _)
  have hbehind : m.tallest b.deepest ≤ m.tallest (max a.deepest b.deepest) :=
    Nonterminal.tallest_mono (Nat.le_max_right _ _)
  have hkept := b.kept_le
  rw [BoundsHeight] at hleft ⊢
  rw [hdeepest, Nonterminal.tallest_of_operand? hn]
  omega

/-- A step of a chain adds no more than it counts to what it begins with and to its operands. -/
theorem tail {next : Expr} {k : Nat} (hn : n.operand? = some m)
    (hnext : next.height ≤ max left.height (m.tallest (k + a.deepest)) + k)
    (htail : b.BoundsHeight (.tail n next e)) :
  (step k a ++ b).BoundsHeight (.tail n left e)
  := by
  intro m' hn'
  obtain rfl : m = m' := Option.some.inj (hn.symm.trans hn')
  have hheight := htail m hn
  have hoperand : m.tallest (k + a.deepest) ≤ m.tallest (step k a ++ b).deepest :=
    Nonterminal.tallest_mono (Nat.le_max_left _ _)
  have hbehind : m.tallest b.deepest ≤ m.tallest (step k a ++ b).deepest :=
    Nonterminal.tallest_mono (Nat.le_trans (Nat.le_add_left _ k) (Nat.le_max_right _ _))
  rw [kept_append, kept_step]
  omega

/-- A node around an expression in a step deeper is as high as that step allows. -/
theorem prefixed {e' : Expr} (hn : 0 < n.chains) (he : d.BoundsHeight (.tree n e))
    (hheight : e'.height = e.height + 1) :
  d.nested.BoundsHeight (.tree n e')
  := by
  rw [BoundsHeight] at he ⊢
  rw [hheight, deepest_nested]
  apply Nat.lt_of_le_of_lt he
  apply Nonterminal.tallest_lt_tallest_succ hn

/-- A leaf, or a node around one, is a primary. -/
theorem operand_of_le_two (h : e.height ≤ 2) :
  d.BoundsHeight (.tree .operand e)
  := Nat.le_trans h (Nat.le_trans (Nat.le_max_left _ _) (Nat.le_add_right _ _))

/-- A node around expressions in a step deeper is a primary. -/
theorem operand {h : Nat} (hinside : h ≤ Expr.tallest d.deepest) (hheight : e.height ≤ h + 1) :
  d.BoundsHeight (.tree .operand e)
  := by
  apply Nat.le_trans hheight
  apply Nat.lt_of_le_of_lt hinside
  apply Nonterminal.tallest_lt_tallest

/-- Of an expression in a step deeper and what stands behind it each is as high as the descent of
both allows. -/
theorem max_le {h : Nat} (he : a.BoundsHeight (.tree .disjunction e))
    (hbehind : h ≤ Expr.tallest b.deepest) :
  max e.height h ≤ Expr.tallest (a.nested ++ b).deepest
  := by
  rw [deepest_append, kept_nested, Nat.zero_add]
  apply Nat.max_le.mpr
  constructor
  · exact Nat.le_trans he (Expr.tallest_mono (Nat.le_max_left (a.deepest + 1) _))
  · exact Nat.le_trans hbehind (Expr.tallest_mono (Nat.le_max_right _ _))

end Descent.BoundsHeight

open Descent in
/-- The trees of every phrase are no higher than its descent allows. -/
theorem Descends.boundsHeight {p : Phrase} {d : Descent} {ks : List TokenKind}
    (h : Descends p d ks) :
  d.BoundsHeight p
  := by
  induction h with
  | chain hn hleft htail ihleft ihtail => exact BoundsHeight.chain hn ihleft ihtail
  | nil n e =>
    intro m hn
    apply Nat.le_max_left
  | @binary n m op combine left right e a b ks ls hn hop hright htail ihright ihtail =>
    apply BoundsHeight.tail hn _ ihtail
    have hdeeper : m.tallest a.deepest ≤ m.tallest (op.length + a.deepest) :=
      Nonterminal.tallest_mono (Nat.le_add_left _ _)
    rw [BoundsHeight] at ihright
    rw [hop.height_combine]
    omega
  | property htail ih =>
    apply BoundsHeight.tail rfl _ ih
    exact Nat.succ_le_succ (Nat.le_max_left _ _)
  | @qualified base e path name args a b ks ls hpath hargs htail ihargs ihtail =>
    apply BoundsHeight.tail rfl _ ihtail
    have hcall : a.BoundsHeight (.tree .operand (.call (path ++ "." ++ name) args)) :=
      BoundsHeight.operand ihargs (Nat.le_refl _)
    have hdeeper := Nonterminal.tallest_mono (n := .operand) (Nat.le_add_left a.deepest 1)
    rw [BoundsHeight] at hcall
    omega
  | @index base key e a b ks ls hkey htail ihkey ihtail =>
    apply BoundsHeight.tail rfl _ ihtail
    have hkey : key.height ≤ Expr.tallest (1 + a.nested.deepest) :=
      Nat.le_trans ihkey (Expr.tallest_mono (Nat.le_add_left (a.deepest + 1) 1))
    have hoperand := Nonterminal.tallest_lt_tallest .operand (1 + a.nested.deepest)
    rw [Expr.height]
    omega
  | not he ih => exact BoundsHeight.prefixed (by decide) ih rfl
  | notNegated he ih => exact ih
  | signed op he ih => exact BoundsHeight.prefixed (by decide) ih rfl
  | unsigned he ih => exact ih
  | terminal h => exact BoundsHeight.operand_of_le_two (by cases h <;> exact Nat.le_succ 1)
  | duration hparts => exact BoundsHeight.operand_of_le_two (Nat.le_succ 1)
  | relative hparts hdirection => exact BoundsHeight.operand_of_le_two (Nat.le_refl 2)
  | call name hargs ih => exact BoundsHeight.operand ih (Nat.le_refl _)
  | list hitems ih => exact BoundsHeight.operand ih (Nat.le_refl _)
  | object hentries ih => exact BoundsHeight.operand ih (Nat.le_refl _)
  | @group e d ks he ih =>
    exact BoundsHeight.operand (h := e.height) ih (Nat.le_succ _)
  | noItems => exact Nat.zero_le _
  | someItems he hes ihe ihes => exact BoundsHeight.max_le ihe ihes
  | noMoreItems => exact Nat.zero_le _
  | oneMoreItem he hes ihe ihes => exact BoundsHeight.max_le ihe ihes
  | noEntries => exact Nat.zero_le _
  | someEntries hkey he hentries ihe ihentries => exact BoundsHeight.max_le ihe ihentries
  | noMoreEntries => exact Nat.zero_le _
  | oneMoreEntry hkey he hentries ihe ihentries => exact BoundsHeight.max_le ihe ihentries

/-- An expression that is read is as high as the limit of the depth allows, which grows with the
square of the limit. -/
theorem Expr.height_le_of_ofTokens {limit : Nat} {tokens : List Token} {e : Expr}
    (h : ofTokens limit tokens = .ok e) :
  e.height ≤ tallest limit
  := by
  obtain ⟨d, ks, hd, hlt⟩ := exists_descends_of_ofTokens h
  calc e.height
    _ ≤ Nonterminal.disjunction.tallest d.deepest := hd.boundsHeight
    _ = tallest (d.deepest + 1) := rfl
    _ ≤ tallest limit := tallest_mono hlt

end RuleLang
