import Mathlib.Algebra.Order.Monoid.Defs
import RuleLang.Proofs.Expr.Induction
import RuleLang.Proofs.Grammar.Joining

/-!
# How deep the operators of a derivation lie in parentheses

`Nests ks a` counts the operators among tokens and the pairs of parentheses around them, every
pair once for each operator inside.  `Expr.nesting` reads off an expression how many pairs there
are if only the operands that bind too loosely are put in parentheses.  No tokens from which the
grammar derives the expression have fewer, unless a `NOT` directly before an `IN` negates the
test of membership behind its first operand.
-/

namespace RuleLang

/-! ### Counting parentheses around operators -/

/-- A number of operators, and the number of pairs of parentheses around them, where a pair counts
once for each operator inside. -/
@[ext]
structure Nesting where
  operators : Nat
  pairs : Nat
deriving DecidableEq, Repr

namespace Nesting

instance : Zero Nesting := ⟨⟨0, 0⟩⟩

instance : Add Nesting := ⟨fun a b => ⟨a.operators + b.operators, a.pairs + b.pairs⟩⟩

@[simp] theorem operators_zero : (0 : Nesting).operators = 0 := rfl

@[simp] theorem pairs_zero : (0 : Nesting).pairs = 0 := rfl

@[simp]
theorem operators_add (a b : Nesting) :
  (a + b).operators = a.operators + b.operators
  := rfl

@[simp] theorem pairs_add (a b : Nesting) : (a + b).pairs = a.pairs + b.pairs := rfl

instance : AddCommMonoid Nesting where
  add_assoc a b c := by ext <;> simp [Nat.add_assoc]
  zero_add a := by ext <;> simp
  add_zero a := by ext <;> simp
  add_comm a b := by ext <;> simp [Nat.add_comm]
  nsmul := nsmulRec

/-- The same operators are in no more parentheses. -/
instance : PartialOrder Nesting where
  le a b := a.operators = b.operators ∧ a.pairs ≤ b.pairs
  le_refl a := ⟨rfl, Nat.le_refl _⟩
  le_trans _ _ _ hab hbc := ⟨hab.1.trans hbc.1, Nat.le_trans hab.2 hbc.2⟩
  le_antisymm _ _ hab hba := Nesting.ext hab.1 (Nat.le_antisymm hab.2 hba.2)

instance : IsOrderedAddMonoid Nesting where
  add_le_add_left _ _ hab c :=
    ⟨congrArg (· + c.operators) hab.1, Nat.add_le_add_right hab.2 c.pairs⟩

/-- An operator outside all parentheses. -/
def single : Nesting := ⟨1, 0⟩

/-- A pair of parentheses around some operators that are counted elsewhere. -/
def pair (operators : Nat) : Nesting := ⟨0, operators⟩

/-- What is in a pair of parentheses. -/
def enclosed (a : Nesting) : Nesting := a + pair a.operators

/-- An operand, in parentheses if they are needed. -/
def enclosedIf (needed : Bool) (a : Nesting) : Nesting := if needed then a.enclosed else a

/-- A binary operator between its operands, each given with its precedence. -/
def binary (precedence : Nat) (left right : Nat × Nesting) : Nesting :=
  left.2.enclosedIf (precedence < left.1) + single + right.2.enclosedIf (precedence ≤ right.1)

@[simp] theorem operators_single : single.operators = 1 := rfl

@[simp] theorem pairs_single : single.pairs = 0 := rfl

@[simp] theorem operators_enclosed (a : Nesting) : a.enclosed.operators = a.operators := rfl

@[simp] theorem pairs_enclosed (a : Nesting) : a.enclosed.pairs = a.pairs + a.operators := rfl

/-- A pair more inside is a pair more outside. -/
theorem enclosed_add_pair (a : Nesting) (n : Nat) :
  (a + pair n).enclosed = a.enclosed + pair n
  := add_right_comm _ _ _

theorem enclosed_mono {a b : Nesting} (h : a ≤ b) :
  a.enclosed ≤ b.enclosed
  := ⟨h.1, Nat.add_le_add h.2 (Nat.le_of_eq h.1)⟩

theorem le_enclosed (a : Nesting) : a ≤ a.enclosed := ⟨rfl, Nat.le_add_right _ _⟩

theorem enclosedIf_le_enclosed (a : Nesting) (needed : Bool) :
  a.enclosedIf needed ≤ a.enclosed
  := by
  cases needed with
  | true => apply le_refl
  | false => apply le_enclosed

/-- Parentheses that are left out count for nothing. -/
theorem enclosedIf_le {needed needed' : Bool} (a : Nesting) (h : needed → needed') :
  a.enclosedIf needed ≤ a.enclosedIf needed'
  := by
  cases needed' with
  | true => apply enclosedIf_le_enclosed
  | false =>
    obtain rfl : needed = false := by simpa using h
    apply le_refl

end Nesting

/-- Whether a symbol is an operator, and no bracket and no mark between parts. -/
def Symbol.isOperator : Symbol → Bool
  | leftParen | rightParen | leftBracket | rightBracket | leftBrace | rightBrace | colon | comma
  | dot => false
  | _ => true

/-- Whether a token is an operator. -/
def TokenKind.isOperator : TokenKind → Bool
  | symbol s => s.isOperator
  | _ => false

/-- The pairs of parentheses around the operators among tokens that lie in `depth` pairs
already. -/
def pairsAround (depth : Nat) : List TokenKind → Nat
  | [] => 0
  | .symbol .leftParen :: ks => pairsAround (depth + 1) ks
  | .symbol .rightParen :: ks => pairsAround (depth - 1) ks
  | k :: ks => (if k.isOperator then depth else 0) + pairsAround depth ks

/-- Tokens with as many operators and pairs of parentheses around them as counted, in whatever
pairs they lie and whatever stands behind them. -/
def Nests (ks : List TokenKind) (a : Nesting) : Prop :=
  ∀ depth rest, pairsAround depth (ks ++ rest)
    = depth * a.operators + a.pairs + pairsAround depth rest

namespace Nests

variable {ks ls : List TokenKind} {a b : Nesting}

/-- Tokens have one count. -/
theorem unique (ha : Nests ks a) (hb : Nests ks b) :
  a = b
  := by
  have hzero : 0 * a.operators + a.pairs + 0 = 0 * b.operators + b.pairs + 0 :=
    (ha 0 []).symm.trans (hb 0 [])
  have hone : 1 * a.operators + a.pairs + 0 = 1 * b.operators + b.pairs + 0 :=
    (ha 1 []).symm.trans (hb 1 [])
  ext <;> omega

theorem nil : Nests [] 0
  := by
  intro depth rest
  simp

theorem append (ha : Nests ks a) (hb : Nests ls b) :
  Nests (ks ++ ls) (a + b)
  := by
  intro depth rest
  rw [List.append_assoc, ha, hb, Nesting.operators_add, Nesting.pairs_add, Nat.mul_add]
  omega

/-- A token that is no parenthesis. -/
theorem token {k : TokenKind} (hleft : k ≠ .symbol .leftParen) (hright : k ≠ .symbol .rightParen) :
  Nests [k] (if k.isOperator then .single else 0)
  := by
  intro depth rest
  rw [List.singleton_append, pairsAround.eq_4 depth k rest hleft hright]
  split <;> simp

/-- A token that is no symbol. -/
theorem plain {k : TokenKind} (hk : ∀ s, k ≠ .symbol s) :
  Nests [k] 0
  := by
  have h := token (hk .leftParen) (hk .rightParen)
  have hoperator : k.isOperator = false := by
    cases k
    case symbol s => cases hk s rfl
    all_goals rfl
  rwa [hoperator] at h

/-- An operator. -/
theorem operator {s : Symbol} (hs : s.isOperator) :
  Nests [.symbol s] .single
  := by
  have h : Nests [.symbol s] (if s.isOperator then .single else 0) := by
    apply token
    · rintro ⟨⟩
      cases hs
    · rintro ⟨⟩
      cases hs
  rwa [hs] at h

theorem dot : Nests [.symbol .dot] 0 := token (k := .symbol .dot) nofun nofun

theorem comma : Nests [.symbol .comma] 0 := token (k := .symbol .comma) nofun nofun

theorem colon : Nests [.symbol .colon] 0 := token (k := .symbol .colon) nofun nofun

/-- Tokens in a pair of parentheses. -/
theorem parens (h : Nests ks a) :
  Nests (.symbol .leftParen :: ks ++ [.symbol .rightParen]) a.enclosed
  := by
  intro depth rest
  have hinside := h (depth + 1) (.symbol .rightParen :: rest)
  simp only [List.cons_append, List.append_assoc, List.nil_append, pairsAround,
    Nat.add_sub_cancel] at hinside ⊢
  rw [hinside, Nesting.operators_enclosed, Nesting.pairs_enclosed, Nat.add_mul]
  omega

/-- Tokens in brackets. -/
theorem brackets (h : Nests ks a) :
  Nests (.symbol .leftBracket :: ks ++ [.symbol .rightBracket]) a
  := by
  have hleft : Nests [.symbol .leftBracket] 0 := token (k := .symbol .leftBracket) nofun nofun
  have hright : Nests [.symbol .rightBracket] 0 := token (k := .symbol .rightBracket) nofun nofun
  simpa using (hleft.append h).append hright

/-- Tokens in braces. -/
theorem braces (h : Nests ks a) :
  Nests (.symbol .leftBrace :: ks ++ [.symbol .rightBrace]) a
  := by
  have hleft : Nests [.symbol .leftBrace] 0 := token (k := .symbol .leftBrace) nofun nofun
  have hright : Nests [.symbol .rightBrace] 0 := token (k := .symbol .rightBrace) nofun nofun
  simpa using (hleft.append h).append hright

end Nests

/-! ### Tokens of leaves -/

/-- Whether a token can be a part of a leaf of a tree, which holds no symbol but the dots of a
path. -/
def TokenKind.InLeaf (k : TokenKind) : Prop := ∀ s, k = .symbol s → s = .dot

theorem Nests.leaf {ks : List TokenKind} (h : ∀ k ∈ ks, k.InLeaf) :
  Nests ks 0
  := by
  induction ks with
  | nil => exact .nil
  | cons k ks ih =>
    obtain ⟨hk, hks⟩ := List.forall_mem_cons.mp h
    have hfirst : Nests [k] 0 := by
      cases k
      case symbol s =>
        obtain rfl := hk s rfl
        exact .dot
      all_goals exact .plain nofun
    exact hfirst.append (ih hks)

theorem Terminal.inLeaf {k : TokenKind} {e : Expr} (h : Terminal k e) :
  k.InLeaf
  := by
  cases h <;> exact nofun

theorem KeyToken.inLeaf {k : TokenKind} {key : String} (h : KeyToken k key) :
  k.InLeaf
  := by
  cases h <;> exact nofun

/-- The numbers and units of a duration are no symbols. -/
theorem Amounts.inLeaf {parts : List (Int64 × DurationUnit)} {ks : List TokenKind}
    (h : Amounts parts ks) :
  ∀ k ∈ ks, k.InLeaf
  := by
  induction h with
  | nil => exact List.forall_mem_nil _
  | @cons n word unit parts ks hunit hparts ih =>
    have hword : word.InLeaf := by
      rintro s rfl
      cases hunit
    exact List.forall_mem_cons.mpr ⟨nofun, List.forall_mem_cons.mpr ⟨hword, ih⟩⟩

theorem Heading.inLeaf {direction : Direction} {ks : List TokenKind} (h : Heading direction ks) :
  ∀ k ∈ ks, k.InLeaf
  := by
  have hword : ∀ {k : TokenKind} {word : String}, k.isWord word → k.InLeaf := by
    rintro k word hk s rfl
    cases hk
  cases h with
  | ago hago => simpa using hword hago
  | fromNow hfrom hnow => simpa using And.intro (hword hfrom) (hword hnow)

/-! ### The least nesting of an expression -/

namespace Expr

mutual

/-- The operators of an expression, and the pairs of parentheses around them if the operands
that bind too loosely are in parentheses, and the arguments of calls. -/
def nesting : Expr → Nesting
  | literal _ | var _ | duration _ | relative .. => 0
  | property base _ => base.nesting.enclosedIf (1 < base.precedence)
  | index base key => base.nesting.enclosedIf (1 < base.precedence) + key.nesting
  | compare _ l r => .binary 6 (l.precedence, l.nesting) (r.precedence, r.nesting)
  | arithmetic op l r =>
    .binary op.precedence (l.precedence, l.nesting) (r.precedence, r.nesting)
  | unary _ e => .single + e.nesting.enclosedIf (2 < e.precedence)
  | and l r => .binary 8 (l.precedence, l.nesting) (r.precedence, r.nesting)
  | or l r => .binary 9 (l.precedence, l.nesting) (r.precedence, r.nesting)
  | not e => .single + e.nesting.enclosedIf (7 < e.precedence)
  | membership _ l r => .binary 5 (l.precedence, l.nesting) (r.precedence, r.nesting)
  | list items => itemsNesting items
  | object entries => entriesNesting entries
  | call _ args => (itemsNesting args).enclosed

/-- The count for expressions with commas between them. -/
def itemsNesting : List Expr → Nesting
  | [] => 0
  | e :: rest => e.nesting + itemsNesting rest

/-- The count for entries of an object with commas between them. -/
def entriesNesting : List (String × Expr) → Nesting
  | [] => 0
  | (_, e) :: rest => e.nesting + entriesNesting rest

end

/-- The count for an operand of a level, in parentheses if it binds more loosely. -/
def nestingOn (n : Nonterminal) (e : Expr) : Nesting :=
  e.nesting.enclosedIf (n.rank < e.precedence)

/-- An operand is in no more parentheses on a level that is no tighter. -/
theorem nestingOn_le {n m : Nonterminal} (hle : m.rank ≤ n.rank) (e : Expr) :
  e.nestingOn n ≤ e.nestingOn m
  := by
  apply Nesting.enclosedIf_le
  simp only [decide_eq_true_eq]
  apply Nat.lt_of_le_of_lt hle

/-- An operand that binds tightly enough needs no parentheses. -/
theorem nestingOn_of_le {n : Nonterminal} {e : Expr} (h : e.precedence ≤ n.rank) :
  e.nestingOn n = e.nesting
  := by
  rw [nestingOn, decide_eq_false (Nat.not_lt.mpr h)]
  rfl

@[simp]
theorem nestingOn_disjunction (e : Expr) :
  e.nestingOn .disjunction = e.nesting
  := nestingOn_of_le e.precedence_le

/-- The path of a chain of properties holds no operator. -/
theorem nestingOn_of_path? {e : Expr} {path : String} (h : e.path? = some path) :
  e.nestingOn .access = 0
  := by
  induction e generalizing path with
  | var name => rfl
  | property base name ih =>
    obtain ⟨basePath, hbase, -⟩ := Option.map_eq_some_iff.mp h
    exact ih hbase
  | _ => cases h

end Expr

/-! ### Every derivation nests at least as deep -/

/-- The count for two operands and the operator between them is what their level asks for. -/
theorem Connective.nestingOn_combine {n m : Nonterminal} {s : Symbol}
    {combine : Expr → Expr → Expr} (hn : n.operand? = some m) (h : Connective n [s] combine)
    (l r : Expr) :
  (combine l r).nestingOn n = l.nestingOn n + .single + r.nestingOn m
  := by
  generalize hop : [s] = op at h
  cases h with
  | notIn => cases hop
  | _ =>
    cases hn
    rfl

/-- The symbol between two operands is an operator, and negates nothing. -/
theorem Connective.isOperator {n : Nonterminal} {s : Symbol} {combine : Expr → Expr → Expr}
    (h : Connective n [s] combine) :
  s.isOperator ∧ s ≠ .wordNot
  := by
  generalize hop : [s] = op at h
  cases h with
  | compare op =>
    obtain rfl := List.singleton_inj.mp hop
    cases op <;> decide
  | member op =>
    obtain rfl := List.singleton_inj.mp hop
    cases op <;> decide
  | notIn => cases hop
  | _ =>
    obtain rfl := List.singleton_inj.mp hop
    decide

/-- Whether no `NOT` stands directly before an `IN`. -/
def Unmerged (ks : List TokenKind) : Prop :=
  ¬[.symbol .wordNot, .symbol .wordIn] <:+: ks

theorem Unmerged.part {ks ls : List TokenKind} (h : Unmerged ks) (hls : ls <:+: ks) :
  Unmerged ls
  := fun hmerged => h (hmerged.trans hls)

/-- Tokens in which a token other than `IN` stands behind every `NOT`. -/
inductive Apart : List TokenKind → Prop where
  | nil : Apart []
  | cons {k : TokenKind} {ks : List TokenKind} (hk : k ≠ .symbol .wordNot) (h : Apart ks) :
    Apart (k :: ks)
  | not {k : TokenKind} {ks : List TokenKind} (hk : k ≠ .symbol .wordIn) (h : Apart (k :: ks)) :
    Apart (.symbol .wordNot :: k :: ks)

namespace Apart

variable {ks ls : List TokenKind}

theorem append (hks : Apart ks) (hls : Apart ls) :
  Apart (ks ++ ls)
  := by
  induction hks with
  | nil => exact hls
  | cons hk h ih => exact .cons hk ih
  | not hk h ih => exact .not hk ih

/-- Two parts with a symbol between them. -/
theorem join {s : Symbol} (hs : s ≠ .wordNot) (hks : Apart ks) (hls : Apart ls) :
  Apart (ks ++ .symbol s :: ls)
  := hks.append (.cons (by simpa using hs) hls)

/-- A part between two symbols. -/
theorem enclose {s t : Symbol} (hs : s ≠ .wordNot) (ht : t ≠ .wordNot) (h : Apart ks) :
  Apart (.symbol s :: ks ++ [.symbol t])
  := .cons (by simpa using hs) (h.join ht .nil)

theorem leaf (h : ∀ k ∈ ks, k.InLeaf) :
  Apart ks
  := by
  induction ks with
  | nil => exact .nil
  | cons k ks ih =>
    obtain ⟨hk, hks⟩ := List.forall_mem_cons.mp h
    refine .cons ?_ (ih hks)
    rintro rfl
    cases hk .wordNot rfl

theorem unmerged (h : Apart ks) :
  Unmerged ks
  := by
  induction h with
  | nil => simp [Unmerged]
  | cons hk h ih =>
    rintro hinfix
    obtain hprefix | htail := List.infix_cons_iff.mp hinfix
    · exact hk (List.cons_prefix_cons.mp hprefix).1.symm
    · exact ih htail
  | not hk h ih =>
    rintro hinfix
    obtain hprefix | htail := List.infix_cons_iff.mp hinfix
    · exact hk (List.cons_prefix_cons.mp (List.cons_prefix_cons.mp hprefix).2).1.symm
    · exact ih htail

end Apart

/-- What the count for a phrase is at least: its trees' operators are in no fewer parentheses. -/
def Phrase.NestsAtLeast : Phrase → Nesting → Prop
  | tree n e, a => e.nestingOn n ≤ a
  | tail n left e, a => e.nestingOn n ≤ left.nestingOn n + a
  | items es, a | moreItems es, a => Expr.itemsNesting es ≤ a
  | entries members, a | moreEntries members, a => Expr.entriesNesting members ≤ a

/-- Whatever derives a phrase, the operators of its trees lie in at least as many parentheses as
their operands need. -/
theorem Derives.exists_nests {p : Phrase} {ks : List TokenKind} (h : Derives p ks)
    (hks : Unmerged ks) :
  ∃ a, Nests ks a ∧ p.NestsAtLeast a
  := by
  induction h with
  | @chain n m left e ks ls hn hleft htail ihleft ihtail =>
    obtain ⟨a, ha, hleft⟩ := ihleft (hks.part ⟨[], ls, by simp⟩)
    obtain ⟨b, hb, htail⟩ := ihtail (hks.part ⟨ks, [], by simp⟩)
    have hle : m.rank ≤ n.rank := Nat.le_of_lt (Nonterminal.rank_lt_of_operand? hn)
    refine ⟨_, ha.append hb, ?_⟩
    exact htail.trans (add_le_add_left ((left.nestingOn_le hle).trans hleft) b)
  | nil n e => exact ⟨0, .nil, (add_zero _).ge⟩
  | @binary n m op combine left right e ks ls hn hop hright htail ihright ihtail =>
    obtain ⟨a, ha, (hright : right.nestingOn m ≤ a)⟩ :=
      ihright (hks.part ⟨op.map .symbol, ls, by simp⟩)
    obtain ⟨b, hb, htail⟩ := ihtail (hks.part ⟨op.map .symbol ++ ks, [], by simp⟩)
    obtain ⟨s, rfl⟩ | ⟨-, rfl, -⟩ := hop.single_or_notIn
    · refine ⟨_, ((Nests.operator hop.isOperator.1).append ha).append hb, ?_⟩
      calc e.nestingOn n
        _ ≤ (combine left right).nestingOn n + b := htail
        _ = left.nestingOn n + (.single + right.nestingOn m + b) := by
          rw [hop.nestingOn_combine hn, add_assoc, add_assoc, add_assoc]
        _ ≤ left.nestingOn n + (.single + a + b) := by gcongr
    · -- a negated test of membership would need fewer parentheses, but is ruled out
      cases hks ⟨[], ks ++ ls, by simp⟩
  | @property base e name ks htail ih =>
    obtain ⟨a, ha, htail⟩ := ih (hks.part ⟨[.symbol .dot, .ident name], [], by simp⟩)
    have hname : Nests [.ident name] 0 := .plain nofun
    exact ⟨a, by simpa using Nests.dot.append (hname.append ha), htail⟩
  | @qualified base e path name args ks ls hpath hargs htail ihargs ihtail =>
    obtain ⟨a, ha, (hargs : Expr.itemsNesting args ≤ a)⟩ :=
      ihargs (hks.part ⟨[.symbol .dot, .functionName name, .symbol .leftParen],
        .symbol .rightParen :: ls, by simp⟩)
    obtain ⟨b, hb, htail⟩ :=
      ihtail (hks.part ⟨.symbol .dot :: .functionName name :: .symbol .leftParen :: ks
        ++ [.symbol .rightParen], [], by simp⟩)
    have hname : Nests [.functionName name] 0 := .plain nofun
    refine ⟨a.enclosed + b, ?_, ?_⟩
    · simpa using Nests.dot.append (hname.append (ha.parens.append hb))
    · calc e.nestingOn .access
        _ ≤ (Expr.call (path ++ "." ++ name) args).nestingOn .access + b := htail
        _ ≤ a.enclosed + b := add_le_add_left (Nesting.enclosed_mono hargs) b
        _ = base.nestingOn .access + (a.enclosed + b) := by
          rw [Expr.nestingOn_of_path? hpath, zero_add]
  | @index base key e ks ls hkey htail ihkey ihtail =>
    obtain ⟨a, ha, (hkey : key.nestingOn .disjunction ≤ a)⟩ :=
      ihkey (hks.part ⟨[.symbol .leftBracket], .symbol .rightBracket :: ls, by simp⟩)
    obtain ⟨b, hb, htail⟩ :=
      ihtail (hks.part ⟨.symbol .leftBracket :: ks ++ [.symbol .rightBracket], [], by simp⟩)
    rw [Expr.nestingOn_disjunction] at hkey
    refine ⟨a + b, by simpa using ha.brackets.append hb, ?_⟩
    calc e.nestingOn .access
      _ ≤ (Expr.index base key).nestingOn .access + b := htail
      _ = base.nestingOn .access + (key.nesting + b) := add_assoc _ _ _
      _ ≤ base.nestingOn .access + (a + b) := by gcongr
  | not he ih =>
    obtain ⟨a, ha, he⟩ := ih (hks.part ⟨[.symbol .wordNot], [], by simp⟩)
    exact ⟨_, (Nests.operator rfl).append ha, add_le_add_right he .single⟩
  | @notNegated e ks he ih =>
    obtain ⟨a, ha, he⟩ := ih hks
    exact ⟨a, ha, (e.nestingOn_le (by decide)).trans he⟩
  | @signed op e ks he ih =>
    obtain ⟨a, ha, he⟩ := ih (hks.part ⟨[.symbol op.mark], [], by simp⟩)
    have hop : op.mark.isOperator := by cases op <;> rfl
    exact ⟨_, (Nests.operator hop).append ha, add_le_add_right he .single⟩
  | @unsigned e ks he ih =>
    obtain ⟨a, ha, he⟩ := ih hks
    exact ⟨a, ha, (e.nestingOn_le (by decide)).trans he⟩
  | terminal h =>
    have hk : Nests [_] 0 := .leaf (List.forall_mem_singleton.mpr h.inLeaf)
    exact ⟨0, hk, by cases h <;> exact le_refl 0⟩
  | duration hparts => exact ⟨0, .leaf hparts.inLeaf, le_refl 0⟩
  | relative hparts hdirection =>
    exact ⟨_, (Nests.leaf hparts.inLeaf).append (.leaf hdirection.inLeaf), le_refl 0⟩
  | @call name args ks hargs ih =>
    obtain ⟨a, ha, hargs⟩ :=
      ih (hks.part ⟨[.functionName name, .symbol .leftParen], [.symbol .rightParen], by simp⟩)
    have hname : Nests [.functionName name] 0 := .plain nofun
    exact ⟨a.enclosed, by simpa using hname.append ha.parens, Nesting.enclosed_mono hargs⟩
  | list hitems ih =>
    obtain ⟨a, ha, hitems⟩ :=
      ih (hks.part ⟨[.symbol .leftBracket], [.symbol .rightBracket], by simp⟩)
    exact ⟨a, ha.brackets, hitems⟩
  | object hentries ih =>
    obtain ⟨a, ha, hentries⟩ :=
      ih (hks.part ⟨[.symbol .leftBrace], [.symbol .rightBrace], by simp⟩)
    exact ⟨a, ha.braces, hentries⟩
  | @group e ks he ih =>
    obtain ⟨a, ha, he⟩ := ih (hks.part ⟨[.symbol .leftParen], [.symbol .rightParen], by simp⟩)
    have he : e.nesting ≤ a := e.nestingOn_disjunction ▸ he
    refine ⟨a.enclosed, ha.parens, ?_⟩
    calc e.nestingOn .operand
      _ ≤ e.nesting.enclosed := e.nesting.enclosedIf_le_enclosed _
      _ ≤ a.enclosed := Nesting.enclosed_mono he
  | noItems => exact ⟨0, .nil, le_refl 0⟩
  | @someItems e es ks ls he hes ihe ihes =>
    obtain ⟨a, ha, he⟩ := ihe (hks.part ⟨[], ls, by simp⟩)
    obtain ⟨b, hb, hes⟩ := ihes (hks.part ⟨ks, [], by simp⟩)
    have he : e.nesting ≤ a := e.nestingOn_disjunction ▸ he
    exact ⟨_, ha.append hb, add_le_add he hes⟩
  | noMoreItems => exact ⟨0, .nil, le_refl 0⟩
  | @oneMoreItem e es ks ls he hes ihe ihes =>
    obtain ⟨a, ha, he⟩ := ihe (hks.part ⟨[.symbol .comma], ls, by simp⟩)
    obtain ⟨b, hb, hes⟩ := ihes (hks.part ⟨.symbol .comma :: ks, [], by simp⟩)
    have he : e.nesting ≤ a := e.nestingOn_disjunction ▸ he
    exact ⟨a + b, by simpa using Nests.comma.append (ha.append hb), add_le_add he hes⟩
  | noEntries => exact ⟨0, .nil, le_refl 0⟩
  | @someEntries k key e entries ks ls hkey he hentries ihe ihentries =>
    obtain ⟨a, ha, he⟩ := ihe (hks.part ⟨[k, .symbol .colon], ls, by simp⟩)
    obtain ⟨b, hb, hentries⟩ := ihentries (hks.part ⟨k :: .symbol .colon :: ks, [], by simp⟩)
    have he : e.nesting ≤ a := e.nestingOn_disjunction ▸ he
    have hk : Nests [k] 0 := .leaf (List.forall_mem_singleton.mpr hkey.inLeaf)
    have hnests := hk.append (Nests.colon.append (ha.append hb))
    exact ⟨a + b, by simpa using hnests, add_le_add he hentries⟩
  | noMoreEntries => exact ⟨0, .nil, le_refl 0⟩
  | @oneMoreEntry k key e entries ks ls hkey he hentries ihe ihentries =>
    obtain ⟨a, ha, he⟩ := ihe (hks.part ⟨[.symbol .comma, k, .symbol .colon], ls, by simp⟩)
    obtain ⟨b, hb, hentries⟩ :=
      ihentries (hks.part ⟨.symbol .comma :: k :: .symbol .colon :: ks, [], by simp⟩)
    have he : e.nesting ≤ a := e.nestingOn_disjunction ▸ he
    have hk : Nests [k] 0 := .leaf (List.forall_mem_singleton.mpr hkey.inLeaf)
    have hnests := Nests.comma.append (hk.append (Nests.colon.append (ha.append hb)))
    exact ⟨a + b, by simpa using hnests, add_le_add he hentries⟩

end RuleLang
