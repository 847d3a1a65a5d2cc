import RuleLang.Proofs.Expr.RoundTrip

/-!
# Limits under which formatted expressions are read back

The text that a format with parentheses writes for a tree is read under the limits of the depth
from `Expr.reach` on, and under the others it is too deep.  The reach is told by the tree and
the format alone, and not by the limit under which the tree was read: parentheses that are not
needed count one step, but without them every operator of a chain counts one for all that stand
behind it.  From three on there is for every limit a text that is read, but not its canonical
form.
-/

namespace RuleLang

namespace Expr

/-- The text of a tree that can be written is read exactly under the limits from its reach
on. -/
theorem Written.exists_tokens {t : Expr} {f : Format} (ht : t.Written) (hf : f.parens ≠ .none) :
  ∃ tokens, tokenize (t.format f) = .ok tokens
    ∧ (∀ limit, ofTokens limit tokens = .ok t ↔ t.reach f ≤ limit)
    ∧ ∀ limit, limit < t.reach f →
      ∃ e, ofTokens limit tokens = .error e ∧ e.cause = .tooDeep limit
  := by
  obtain ⟨d, ks, hd, hks, hprints⟩ := (ht.shows hf).exists_nested
  have hspells := hprints [] [] closes_nil .nil
  rw [List.append_nil, List.append_nil] at hspells
  obtain ⟨tokens, htokens, hkinds⟩ := spells_iff.mp hspells
  obtain ⟨body, last, rfl, hlast, -⟩ := exists_spells_of_tokenize htokens
  have hbody : body.map Token.kind = ks := by
    rw [List.map_append] at hkinds
    exact (List.append_inj' hkinds rfl).1
  have hreach : d.deepest + 1 = t.reach f := congrArg Descent.deepest hd
  have hread : ∀ limit, ofTokens limit (body ++ [last]) = .ok t ↔ t.reach f ≤ limit := by
    intro limit
    rw [ofTokens_eq_ok_iff_of_descends hlast (hbody.symm ▸ hks), ← hreach]
    apply Nat.lt_iff_add_one_le
  use body ++ [last], htokens, hread
  intro limit hlt
  obtain h | h := ofTokens_of_great (fun limit => (hread limit).mpr) limit
  · have hle := (hread limit).mp h
    omega
  · apply h

/-- The text that a format with parentheses writes for a tree that was read from a text is read
as that tree exactly under the limits from the reach of the tree on, and is too deep under the
others. -/
theorem ofTokens_format_iff {source : List Char} {tokens : List Token} {limit : Nat} {t : Expr}
    {f : Format} (htokens : tokenize source = .ok tokens) (ht : ofTokens limit tokens = .ok t)
    (hf : f.parens ≠ .none) :
  ∃ tokens', tokenize (t.format f) = .ok tokens'
    ∧ (∀ limit', ofTokens limit' tokens' = .ok t ↔ t.reach f ≤ limit')
    ∧ ∀ limit', limit' < t.reach f →
      ∃ e, ofTokens limit' tokens' = .error e ∧ e.cause = .tooDeep limit'
  := (written_of_ofTokens htokens ht).exists_tokens hf

/-- The canonical form of `(a + b) + -c` goes one step deeper. -/
theorem ofTokens_format_iff_group :
  let tokens : List Token :=
    [⟨.symbol .leftParen, ⟨0, 1⟩, 1, 1, 1⟩, ⟨.ident "a", ⟨1, 2⟩, 1, 2, 1⟩,
      ⟨.symbol .plus, ⟨3, 4⟩, 1, 4, 1⟩, ⟨.ident "b", ⟨5, 6⟩, 1, 6, 1⟩,
      ⟨.symbol .rightParen, ⟨6, 7⟩, 1, 7, 1⟩, ⟨.symbol .plus, ⟨8, 9⟩, 1, 9, 1⟩,
      ⟨.symbol .minus, ⟨10, 11⟩, 1, 11, 1⟩, ⟨.ident "c", ⟨11, 12⟩, 1, 12, 1⟩,
      ⟨.eof, ⟨12, 12⟩, 1, 13, 0⟩]
  let t : Expr :=
    .arithmetic .add (.arithmetic .add (.var "a") (.var "b")) (.unary .minus (.var "c"))
  tokenize "(a + b) + -c".toList = .ok tokens ∧ ofTokens 3 tokens = .ok t
    ∧ t.canonical = "a + b + -c".toList
    ∧ ∃ tokens', tokenize t.canonical = .ok tokens' ∧ ofTokens 4 tokens' = .ok t
      ∧ ∃ e, ofTokens 3 tokens' = .error e ∧ e.cause = .tooDeep 3
  := by
  intro tokens t
  have htokens : tokenize "(a + b) + -c".toList = .ok tokens := by rfl
  have ht : ofTokens 3 tokens = .ok t := by rfl
  have hreach : t.reach {} = 4 := by rfl
  obtain ⟨tokens', htokens', hread, hdeep⟩ := ofTokens_format_iff (f := {}) htokens ht (by decide)
  use htokens, ht, by decide, tokens', htokens'
  constructor
  · exact (hread 4).mpr (Nat.le_of_eq hreach)
  · exact hdeep 3 (by rw [hreach]; decide)

/-! ### Canonical forms that are too deep -/

/-- A sum of `k + 1` truth values, which reads from the left. -/
def sum : Nat → Expr
  | 0 => .literal (.bool true)
  | k + 1 => .arithmetic .add (sum k) (.literal (.bool true))

theorem written_sum
    (k : Nat) :
  (sum k).Written
  := by
  induction k with
  | zero => exact .bool true
  | succ k ih => exact .arithmetic .add ih (.bool true)

/-- Without parentheses every addition counts for those behind it. -/
theorem descent_sum
    (k : Nat) :
  (sum k).descent {} = .step k .flat
  := by
  induction k with
  | zero => rfl
  | succ k ih =>
    have hfirst : Format.firstDescent {} 4 ((sum k).precedence, (sum k).descent {}) =
        .step k .flat := by
      cases k with
      | zero => rfl
      | succ k => rw [ih]; rfl
    have hdescent : (sum (k + 1)).descent {} =
        Format.firstDescent {} 4 ((sum k).precedence, (sum k).descent {}) ++ .step 1 .flat := rfl
    rw [hdescent, hfirst]
    ext
    · simp
    · simp

/-- With all parentheses every addition counts for those around it. -/
theorem deepest_descent_sum
    (k : Nat) :
  ((sum k).descent ⟨.explicit, .normal⟩).deepest = k
  := by
  induction k with
  | zero => rfl
  | succ k ih =>
    cases k with
    | zero => rfl
    | succ k =>
      have hdeepest : ((sum (k + 2)).descent ⟨.explicit, .normal⟩).deepest =
          max (((sum (k + 1)).descent ⟨.explicit, .normal⟩).deepest + 1) 1 := rfl
      rw [hdeepest, ih]
      omega

/-- From three on there is for every limit a text that is read as a tree whose canonical form is
too deep. -/
theorem exists_canonical_tooDeep {limit : Nat} (hlimit : 3 ≤ limit) :
  ∃ source tokens t, tokenize source = .ok tokens ∧ ofTokens limit tokens = .ok t
    ∧ ∃ tokens', tokenize t.canonical = .ok tokens'
      ∧ ∃ e, ofTokens limit tokens' = .error e ∧ e.cause = .tooDeep limit
  := by
  obtain ⟨k, rfl⟩ := Nat.exists_eq_add_of_le' hlimit
  let t : Expr := .arithmetic .add (sum (k + 1)) (.list [.literal (.bool true)])
  have ht : t.Written := by
    apply Written.arithmetic .add (written_sum (k + 1))
    apply Written.list
    intro e he
    rw [List.mem_singleton.mp he]
    exact .bool true
  -- the parentheses end the chain before its last step
  have hexplicit : t.reach ⟨.explicit, .normal⟩ ≤ k + 3 := by
    have hreach : t.reach ⟨.explicit, .normal⟩ =
        max (((sum (k + 1)).descent ⟨.explicit, .normal⟩).deepest + 1) 2 + 1 := rfl
    rw [hreach, deepest_descent_sum]
    omega
  have hcanonical : k + 3 < t.reach {} := by
    have hreach : t.reach {} = max ((sum (k + 1)).descent {}).deepest
        (((sum (k + 1)).descent {}).kept + 2) + 1 := rfl
    rw [hreach, descent_sum, Descent.kept_step]
    omega
  obtain ⟨tokens, htokens, hread, -⟩ := ht.exists_tokens (f := ⟨.explicit, .normal⟩) (by decide)
  obtain ⟨tokens', htokens', -, hdeep⟩ := ht.exists_tokens (f := {}) (by decide)
  exact ⟨_, tokens, t, htokens, (hread _).mpr hexplicit, tokens', htokens', hdeep _ hcanonical⟩

end Expr

end RuleLang
