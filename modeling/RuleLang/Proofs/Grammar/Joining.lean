import RuleLang.Proofs.Grammar.Descent

/-!
# Derivations joined

Tails follow tails, and an expression of a level is one of every looser level.
-/

namespace RuleLang

namespace Descends

/-- A tail behind a tail is a tail. -/
theorem tail_append {n : Nonterminal} {left mid e : Expr} {a b : Descent}
    {ks ls : List TokenKind} (h : Descends (.tail n left mid) a ks)
    (h' : Descends (.tail n mid e) b ls) :
  Descends (.tail n left e) (a ++ b) (ks ++ ls)
  := by
  generalize hp : Phrase.tail n left mid = p at h
  induction h generalizing left with
  | nil n e =>
    cases hp
    rw [Descent.flat_append]
    apply h'
  | binary hn hop hright htail ihright ihtail =>
    cases hp
    rw [Descent.append_assoc, List.append_assoc]
    exact .binary hn hop hright (ihtail rfl)
  | property htail ih =>
    cases hp
    rw [Descent.append_assoc]
    exact .property (ih rfl)
  | qualified hpath hargs htail ihargs ihtail =>
    cases hp
    have h := qualified hpath hargs (ihtail rfl)
    rw [Descent.append_assoc]
    simpa using h
  | index hkey htail ihkey ihtail =>
    cases hp
    have h := index hkey (ihtail rfl)
    rw [Descent.append_assoc]
    simpa using h
  | _ => cases hp

/-- A tail behind an expression of its level extends the expression. -/
theorem extend {n m : Nonterminal} {left e : Expr} {a b : Descent} {ks ls : List TokenKind}
    (hn : n.operand? = some m) (h : Descends (.tree n left) a ks)
    (htail : Descends (.tail n left e) b ls) :
  Descends (.tree n e) (a ++ b) (ks ++ ls)
  := by
  cases h with
  | chain hn' hleft htail' =>
    rw [Descent.append_assoc, List.append_assoc]
    exact .chain hn' hleft (htail'.tail_append htail)
  | _ => cases hn

/-- A right operand behind an expression of its level. -/
theorem join {n m : Nonterminal} {op : List Symbol} {combine : Expr → Expr → Expr}
    {left right : Expr} {a b : Descent} {ks ls : List TokenKind} (hn : n.operand? = some m)
    (hop : Connective n op combine) (hleft : Descends (.tree n left) a ks)
    (hright : Descends (.tree m right) b ls) :
  Descends (.tree n (combine left right)) (a ++ .step op.length b)
    (ks ++ (op.map .symbol ++ ls))
  := by
  have h := hleft.extend hn (.binary hn hop hright (.nil n (combine left right)))
  simpa using h

/-- The operands of a level are expressions of the level. -/
theorem single {n m : Nonterminal} {e : Expr} {d : Descent} {ks : List TokenKind}
    (hn : n.operand? = some m) (h : Descends (.tree m e) d ks) :
  Descends (.tree n e) d.closed ks
  := by
  have h := chain hn h (.nil n e)
  simpa using h

end Descends

theorem Nonterminal.rank_injective : Function.Injective rank
  := by
  intro n m h
  cases n <;> cases m <;> first | rfl | cases h

theorem Nonterminal.rank_le
    (n : Nonterminal) :
  n.rank ≤ disjunction.rank
  := by
  cases n <;> decide

theorem Expr.precedence_le
    (e : Expr) :
  e.precedence ≤ 9
  := by
  cases e with
  | arithmetic op l r => cases op <;> simp [precedence, ArithmeticOp.precedence]
  | _ => simp [precedence]

namespace Descends

/-- An expression of a level is one of the next looser level. -/
theorem exists_looser {n : Nonterminal} (hn : n.rank < Nonterminal.disjunction.rank) :
  ∃ m : Nonterminal, m.rank = n.rank + 1
    ∧ ∀ {e : Expr} {d : Descent} {ks : List TokenKind},
      Descends (.tree n e) d ks → Descends (.tree m e) d.closed ks
  := by
  cases n with
  | disjunction => cases Nat.lt_irrefl _ hn
  | conjunction => exact ⟨.disjunction, rfl, single rfl⟩
  | negation => exact ⟨.conjunction, rfl, single rfl⟩
  | comparison => exact ⟨.negation, rfl, notNegated⟩
  | membership => exact ⟨.comparison, rfl, single rfl⟩
  | sum => exact ⟨.membership, rfl, single rfl⟩
  | product => exact ⟨.sum, rfl, single rfl⟩
  | sign => exact ⟨.product, rfl, single rfl⟩
  | access => exact ⟨.sign, rfl, unsigned⟩
  | operand => exact ⟨.access, rfl, single rfl⟩

/-- An expression of a level is one of every looser level, on which its chain has ended. -/
theorem raise {n m : Nonterminal} {e : Expr} {d : Descent} {ks : List TokenKind}
    (hlt : n.rank < m.rank) (h : Descends (.tree n e) d ks) :
  Descends (.tree m e) d.closed ks
  := by
  have hm := m.rank_le
  obtain ⟨n', hn', hlooser⟩ := exists_looser (by omega : n.rank < Nonterminal.disjunction.rank)
  induction hk : m.rank - n'.rank generalizing n n' d with
  | zero =>
    obtain rfl := Nonterminal.rank_injective (by omega : n'.rank = m.rank)
    apply hlooser h
  | succ k ih =>
    obtain ⟨n'', hn'', hlooser'⟩ :=
      exists_looser (by omega : n'.rank < Nonterminal.disjunction.rank)
    rw [← Descent.closed_closed]
    exact ih (by omega) (hlooser h) n'' hn'' hlooser' (by omega)

/-- An expression of a level is one of every level that is not tighter.  It leads as deep. -/
theorem exists_raise {n m : Nonterminal} {e : Expr} {d : Descent} {ks : List TokenKind}
    (hle : n.rank ≤ m.rank) (h : Descends (.tree n e) d ks) :
  ∃ d', d'.closed = d.closed ∧ Descends (.tree m e) d' ks
  := by
  obtain hlt | heq := Nat.lt_or_eq_of_le hle
  · exact ⟨d.closed, rfl, h.raise hlt⟩
  · obtain rfl := Nonterminal.rank_injective heq
    exact ⟨d, rfl, h⟩

/-- Expressions behind a first one are further ones behind a comma. -/
theorem further {e : Expr} {es : List Expr} {d : Descent} {ks : List TokenKind}
    (h : Descends (.items (e :: es)) d ks) :
  Descends (.moreItems (e :: es)) d (.symbol .comma :: ks)
  := by
  cases h with
  | someItems he hes => exact .oneMoreItem he hes

theorem furtherEntries {entry : String × Expr} {entries : List (String × Expr)} {d : Descent}
    {ks : List TokenKind} (h : Descends (.entries (entry :: entries)) d ks) :
  Descends (.moreEntries (entry :: entries)) d (.symbol .comma :: ks)
  := by
  cases h with
  | someEntries hkey he hentries => exact .oneMoreEntry hkey he hentries

end Descends

namespace Derives

/-- An expression of a level is one of every level that is not tighter. -/
theorem raise {n m : Nonterminal} {e : Expr} {ks : List TokenKind} (hle : n.rank ≤ m.rank)
    (h : Derives (.tree n e) ks) :
  Derives (.tree m e) ks
  := by
  obtain ⟨d, hd⟩ := h.exists_descends
  obtain ⟨d', -, hd'⟩ := hd.exists_raise hle
  exact hd'.derives

/-- A tail behind an expression of its level extends the expression. -/
theorem extend {n m : Nonterminal} {left e : Expr} {ks ls : List TokenKind}
    (hn : n.operand? = some m) (h : Derives (.tree n left) ks)
    (htail : Derives (.tail n left e) ls) :
  Derives (.tree n e) (ks ++ ls)
  := by
  obtain ⟨a, ha⟩ := h.exists_descends
  obtain ⟨b, hb⟩ := htail.exists_descends
  exact (ha.extend hn hb).derives

/-- A right operand behind an expression of its level. -/
theorem join {n m : Nonterminal} {op : List Symbol} {combine : Expr → Expr → Expr}
    {left right : Expr} {ks ls : List TokenKind} (hn : n.operand? = some m)
    (hop : Connective n op combine) (hleft : Derives (.tree n left) ks)
    (hright : Derives (.tree m right) ls) :
  Derives (.tree n (combine left right)) (ks ++ (op.map .symbol ++ ls))
  := by
  have h := hleft.extend hn (.binary hn hop hright (.nil n (combine left right)))
  simpa using h

/-- Expressions behind a first one are further ones behind a comma. -/
theorem further {e : Expr} {es : List Expr} {ks : List TokenKind}
    (h : Derives (.items (e :: es)) ks) :
  Derives (.moreItems (e :: es)) (.symbol .comma :: ks)
  := by
  cases h with
  | someItems he hes => exact .oneMoreItem he hes

theorem furtherEntries {entry : String × Expr} {entries : List (String × Expr)}
    {ks : List TokenKind} (h : Derives (.entries (entry :: entries)) ks) :
  Derives (.moreEntries (entry :: entries)) (.symbol .comma :: ks)
  := by
  cases h with
  | someEntries hkey he hentries => exact .oneMoreEntry hkey he hentries

end Derives

end RuleLang
