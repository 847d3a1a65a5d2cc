import RuleLang.Proofs.Grammar.Rules

/-!
# Where expressions begin and end

The tokens with which the phrases of the grammar can begin, and those in front of which an
expression ends.  Every symbol that extends an expression has a rank, and an expression of a
nonterminal ends in front of a symbol that binds more loosely than the nonterminal does.
-/

namespace RuleLang

/-! ### Tokens that end an expression -/

/-- How loosely the operator binds that begins with a symbol; ten for a symbol that extends
no expression. -/
def Symbol.rank : Symbol → Nat
  | dot | leftBracket => 1
  | star | slash | percent => 3
  | plus | minus => 4
  | wordIn | wordContains | wordNot => 5
  | equal | strictEqual | notEqual | strictNotEqual | greater | greaterEqual | less
  | lessEqual => 6
  | wordAnd | ampersands => 8
  | wordOr | bars => 9
  | _ => 10

namespace Nonterminal

/-- How loosely the constructs of a nonterminal bind. -/
def rank : Nonterminal → Nat
  | operand => 0
  | access => 1
  | sign => 2
  | product => 3
  | sum => 4
  | membership => 5
  | comparison => 6
  | negation => 7
  | conjunction => 8
  | disjunction => 9

/-- Whether an expression of a nonterminal ends before a token of the given kind. -/
def Stops (n : Nonterminal) : TokenKind → Prop
  | .symbol s => n.rank < s.rank
  | .eof => True
  | _ => False

theorem Stops.mono {n m : Nonterminal} {k : TokenKind}
    (hle : m.rank ≤ n.rank) (h : n.Stops k) :
  m.Stops k
  := by
  cases k
  case symbol s => apply Nat.lt_of_le_of_lt hle h
  case eof => trivial
  all_goals exact h

theorem rank_lt_of_operand? {n m : Nonterminal} (h : n.operand? = some m) :
  m.rank < n.rank
  := by
  cases n <;> cases h <;> decide

end Nonterminal

/-- The first symbol of a connective binds as loosely as its level. -/
theorem Connective.exists_head {n : Nonterminal} {op : List Symbol}
    {combine : Expr → Expr → Expr} (h : Connective n op combine) :
  ∃ s rest, op = s :: rest ∧ s.rank = n.rank
  := by
  cases h
  case compare op => cases op <;> exact ⟨_, _, rfl, rfl⟩
  case member op => cases op <;> exact ⟨_, _, rfl, rfl⟩
  all_goals exact ⟨_, _, rfl, rfl⟩

/-- A connective is one symbol, or a negated test of membership. -/
theorem Connective.single_or_notIn {n : Nonterminal} {op : List Symbol}
    {combine : Expr → Expr → Expr} (h : Connective n op combine) :
  (∃ s, op = [s])
    ∨ (n = .membership ∧ op = [.wordNot, .wordIn]
      ∧ combine = fun l r => .not (.membership .isIn l r))
  := by
  cases h
  case notIn => exact .inr ⟨rfl, rfl, rfl⟩
  all_goals exact .inl ⟨_, rfl⟩

/-- Whether an expression of a nonterminal can begin with a token of the given kind. -/
def Nonterminal.Begins (n : Nonterminal) : TokenKind → Prop
  | .symbol .wordNot => Nonterminal.negation.rank ≤ n.rank
  | .symbol .minus | .symbol .bang => Nonterminal.sign.rank ≤ n.rank
  | .symbol .leftParen | .symbol .leftBracket | .symbol .leftBrace => True
  | .symbol _ | .eof => False
  | _ => True

theorem Nonterminal.Begins.mono {n m : Nonterminal} {k : TokenKind}
    (hle : m.rank ≤ n.rank) (h : m.Begins k) :
  n.Begins k
  := by
  unfold Begins at h ⊢
  split at h
  · apply Nat.le_trans h hle
  · apply Nat.le_trans h hle
  · apply Nat.le_trans h hle
  · trivial
  · trivial
  · trivial
  · cases h
  · cases h
  · trivial

/-- An expression begins with a token that can begin one. -/
theorem Derives.tree_head {p : Phrase} {ks : List TokenKind} (h : Derives p ks) :
  match p with
  | .tree n _ => ∃ k rest, ks = k :: rest ∧ n.Begins k
  | _ => True
  := by
  induction h with
  | chain hn hleft htail ihleft ihtail =>
    obtain ⟨k, rest, rfl, hk⟩ := ihleft
    exact ⟨k, _, rfl, hk.mono (Nat.le_of_lt (Nonterminal.rank_lt_of_operand? hn))⟩
  | not he ih => exact ⟨_, _, rfl, Nat.le_refl _⟩
  | notNegated he ih =>
    obtain ⟨k, rest, rfl, hk⟩ := ih
    exact ⟨k, _, rfl, hk.mono (by decide)⟩
  | signed op he ih =>
    cases op with
    | minus => exact ⟨_, _, rfl, Nat.le_refl _⟩
    | bang => exact ⟨_, _, rfl, Nat.le_refl _⟩
  | unsigned he ih =>
    obtain ⟨k, rest, rfl, hk⟩ := ih
    exact ⟨k, _, rfl, hk.mono (by decide)⟩
  | terminal h => cases h <;> exact ⟨_, _, rfl, trivial⟩
  | duration hparts =>
    cases hparts
    exact ⟨_, _, rfl, trivial⟩
  | relative hparts hdirection =>
    cases hparts
    exact ⟨_, _, rfl, trivial⟩
  | call name hargs ih => exact ⟨_, _, rfl, trivial⟩
  | list hitems ih => exact ⟨_, _, rfl, trivial⟩
  | object hentries ih => exact ⟨_, _, rfl, trivial⟩
  | group he ih => exact ⟨_, _, rfl, trivial⟩
  | _ => trivial

theorem Amounts.eof_not_mem {parts : List (Int64 × DurationUnit)} {ks : List TokenKind}
    (h : Amounts parts ks) :
  .eof ∉ ks
  := by
  induction h with
  | nil => simp
  | cons hunit hparts ih =>
    simp only [List.mem_cons, reduceCtorEq, false_or, not_or]
    constructor
    · rintro rfl
      cases hunit
    · apply ih

/-- No phrase goes over the end of the tokens. -/
theorem Derives.eof_not_mem {p : Phrase} {ks : List TokenKind} (h : Derives p ks) :
  .eof ∉ ks
  := by
  induction h with
  | terminal h => cases h <;> simp
  | duration hparts => apply hparts.eof_not_mem
  | relative hparts hdirection =>
    have hwords := hparts.eof_not_mem
    cases hdirection with
    | ago hago =>
      simp only [List.mem_append, hwords, List.mem_singleton, false_or]
      rintro rfl
      cases hago
    | fromNow hfrom hnow =>
      simp only [List.mem_append, hwords, List.mem_cons, List.not_mem_nil, false_or, or_false]
      rintro (rfl | rfl)
      · cases hfrom
      · cases hnow
  | someEntries hkey he hentries ihe ihentries => cases hkey <;> simp_all
  | oneMoreEntry hkey he hentries ihe ihentries => cases hkey <;> simp_all
  | _ => simp_all

/-- A tail that goes over tokens begins with a symbol of its level. -/
theorem Derives.tail_head {n : Nonterminal} {left e : Expr} {ks : List TokenKind}
    (h : Derives (.tail n left e) ks) :
  ks = [] ∨ ∃ s rest, ks = .symbol s :: rest ∧ s.rank = n.rank
  := by
  cases h with
  | nil => exact .inl rfl
  | binary hn hop hright htail =>
    obtain ⟨s, rest, rfl, hs⟩ := hop.exists_head
    exact .inr ⟨s, _, rfl, hs⟩
  | property htail => exact .inr ⟨.dot, _, rfl, rfl⟩
  | qualified hpath hargs htail => exact .inr ⟨.dot, _, rfl, rfl⟩
  | index hkey htail => exact .inr ⟨.leftBracket, _, rfl, rfl⟩

end RuleLang
