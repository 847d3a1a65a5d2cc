import Mathlib.Tactic.IntervalCases
import RuleLang.Proofs.Expr.Descent
import RuleLang.Proofs.Expr.Pieces
import RuleLang.Proofs.Expr.Written
import RuleLang.Proofs.Grammar.Joining
import RuleLang.Proofs.Number.Shortest

/-!
# What formats write

`Shows n e d ps` says that pieces spell tokens from which the grammar derives the expression
`e` on the level `n` with the descent `d`.  There is a lemma for every construct, and with
parentheses where they are needed what a format writes for an expression that can be written
shows it.
-/

namespace RuleLang

open Lexeme

/-! ### Printed expressions -/

/-- The pieces print an expression of a level with a descent. -/
structure Shows (n : Nonterminal) (e : Expr) (d : Descent) (ps : List Piece) : Prop where
  opens : Opening ps
  prints : ∃ ks, Descends (.tree n e) d ks ∧ Prints ps ks

namespace Shows

variable {n m : Nonterminal} {e : Expr} {d : Descent} {ps : List Piece}

theorem raise (hlt : n.rank < m.rank) (h : Shows n e d ps) :
  Shows m e d.closed ps
  := by
  obtain ⟨hopens, ks, hks, hps⟩ := h
  exact ⟨hopens, ks, hks.raise hlt, hps⟩

theorem exists_raise (hle : n.rank ≤ m.rank) (h : Shows n e d ps) :
  ∃ d', d'.closed = d.closed ∧ Shows m e d' ps
  := by
  obtain ⟨hopens, ks, hks, hps⟩ := h
  obtain ⟨d', hd, hks'⟩ := hks.exists_raise hle
  exact ⟨d', hd, hopens, ks, hks', hps⟩

/-- What is printed on any level is an expression. -/
theorem loosen (h : Shows n e d ps) :
  Opening ps ∧ ∃ ks, DerivesTree e ks ∧ Prints ps ks
  := by
  obtain ⟨d', -, hopens, ks, hks, hps⟩ := h.exists_raise n.rank_le
  exact ⟨hopens, ks, hks.derives, hps⟩

/-- An expression in parentheses is an operand, one step deeper. -/
theorem group (h : Shows n e d ps) :
  Shows .operand e d.nested (.openGroup :: (ps ++ [.closeGroup]))
  := by
  obtain ⟨d', hd, -, ks, hks, hps⟩ := h.exists_raise n.rank_le
  have hnested : d.nested = d'.nested := (Descent.nested_congr hd).symm
  constructor
  · exact ⟨'(', _, rfl, by decide, by decide⟩
  · exact ⟨_, hnested ▸ .group hks, brackets_parens.prints rfl rfl hps⟩

/-- An operand is one of a level when it is put in parentheses wherever it binds more
loosely. -/
theorem operand {f : Format} {required : Bool} (precedence : Nat) (hf : f.parens ≠ .none)
    (h : Shows m e d ps) (hrequired : required = false → m.rank ≤ n.rank) :
  ∃ d', d'.closed = (f.operandDescent required precedence d).closed
    ∧ Shows n e d' (f.operand required precedence ps)
  := by
  rw [f.operand_eq, Format.operandDescent]
  cases hwrap : f.wraps required precedence with
  | true => exact h.group.exists_raise (Nat.zero_le _)
  | false => exact h.exists_raise (hrequired (f.eq_false_of_wraps hf hwrap))

end Shows

/-- The level of the expressions of a precedence. -/
def levelOf : Nat → Nonterminal
  | 0 | 1 => .access
  | 2 => .sign
  | 3 => .product
  | 4 => .sum
  | 5 => .membership
  | 6 => .comparison
  | 7 => .negation
  | 8 => .conjunction
  | _ + 9 => .disjunction

theorem rank_levelOf {p : Nat} (hp : p ≤ 9) :
  (levelOf p).rank = max p 1
  := by
  interval_cases p <;> rfl

namespace Shows

variable {f : Format} {n m : Nonterminal} {e l r : Expr} {d a b : Descent}
  {ps ls rs : List Piece}

/-- Every expression is on a level above that of the operands. -/
theorem atLevel (h : Shows .operand e d ps) :
  Shows (levelOf e.precedence) e d.closed ps
  := by
  apply h.raise
  rw [rank_levelOf e.precedence_le]
  exact Nat.le_max_right _ _

/-- An operand is one of a level when it is put in parentheses wherever its precedence asks
for them. -/
theorem below {p : Nat} {required : Bool} (hf : f.parens ≠ .none)
    (h : Shows (levelOf e.precedence) e d ps) (hn : 1 ≤ n.rank)
    (hrequired : required = false → e.precedence ≤ n.rank) :
  ∃ d', d'.closed = (f.operandDescent required p d).closed
    ∧ Shows n e d' (f.operand required p ps)
  := by
  apply h.operand p hf
  intro hplain
  rw [rank_levelOf e.precedence_le]
  exact Nat.max_le.mpr ⟨hrequired hplain, hn⟩

/-- A first operand hands on its chain if it is on the level of the operator. -/
theorem first {p : Nat} (hf : f.parens ≠ .none) (hn : n.rank = p) (hp : 1 ≤ p)
    (h : Shows (levelOf e.precedence) e d ps) :
  Shows n e (f.firstDescent p (e.precedence, d))
    (f.operand (p < e.precedence) e.precedence ps)
  := by
  have hrank := rank_levelOf e.precedence_le
  rw [f.operand_eq, Format.firstDescent, Format.operandDescent]
  dsimp only
  cases hwrap : f.wraps (p < e.precedence) e.precedence with
  | true =>
    have hgroup : Shows n e d.nested.closed (.openGroup :: (ps ++ [.closeGroup])) := by
      apply h.group.raise
      change 0 < n.rank
      omega
    simpa using hgroup
  | false =>
    have hle := of_decide_eq_false (f.eq_false_of_wraps hf hwrap)
    simp only [Bool.false_eq_true, if_false]
    split
    · rename_i hsame
      obtain rfl : levelOf e.precedence = n := Nonterminal.rank_injective (by omega)
      apply h
    · apply h.raise
      omega

/-- Two operands of a level with an operator between them. -/
theorem binary {s : Symbol} {combine : Expr → Expr → Expr} {word : Bool} {text : String}
    {p : Nat} (hf : f.parens ≠ .none) (hn : n.operand? = some m) (hp : n.rank = p) (hp' : 2 ≤ p)
    (hop : Connective n [s] combine) (hs : IsOperator word text s)
    (hl : Shows (levelOf l.precedence) l a ls) (hr : Shows (levelOf r.precedence) r b rs) :
  Shows n (combine l r) (f.binaryDescent p (l.precedence, a) (r.precedence, b))
    (f.binary p (f.operator word text) (l.precedence, ls) (r.precedence, rs))
  := by
  have hm : m.rank + 1 = n.rank := by cases n <;> cases hn <;> rfl
  obtain ⟨hopens, ks, hks, hprints⟩ := hl.first hf hp (by omega)
  obtain ⟨d, hd, hright⟩ : ∃ d, d.closed
      = (f.operandDescent (p ≤ r.precedence) r.precedence b).closed
      ∧ Shows m r d (f.operand (p ≤ r.precedence) r.precedence rs) := by
    apply hr.below hf (by omega)
    intro hplain
    simp only [decide_eq_false_iff_not] at hplain
    omega
  obtain ⟨ks', hks', hprints'⟩ := hright.prints
  constructor
  · exact (hopens.append _).append _
  · rw [Format.binaryDescent, ← Descent.step_congr 1 hd]
    exact ⟨_, .join hn hop hks hks', hprints.operator f hs hright.opens hprints'⟩

/-- The operand of a prefix operator is on the level of the operator. -/
theorem behindPrefix {p : Nat} (hf : f.parens ≠ .none) (hn : n.rank = p) (hp : 1 ≤ p)
    (h : Shows (levelOf e.precedence) e d ps) :
  ∃ d', d'.nested = (f.operandDescent (p < e.precedence) e.precedence d).nested
    ∧ Shows n e d' (f.operand (p < e.precedence) e.precedence ps)
  := by
  obtain ⟨d', hd, hoperand⟩ : ∃ d', d'.closed
      = (f.operandDescent (p < e.precedence) e.precedence d).closed
      ∧ Shows n e d' (f.operand (p < e.precedence) e.precedence ps) := by
    apply h.below hf (by omega)
    intro hplain
    rw [hn]
    exact Nat.le_of_not_lt (decide_eq_false_iff_not.mp hplain)
  exact ⟨d', Descent.nested_congr hd, hoperand⟩

/-- An operand of a level behind a prefix operator. -/
theorem unary (op : UnaryOp) (hf : f.parens ≠ .none)
    (h : Shows (levelOf e.precedence) e d ps) :
  Shows .sign (.unary op e) (f.operandDescent (2 < e.precedence) e.precedence d).nested
    (.text op.symbol.toList :: f.operand (2 < e.precedence) e.precedence ps)
  := by
  obtain ⟨d', hd, hoperand⟩ := h.behindPrefix (n := .sign) (p := 2) hf rfl (by decide)
  obtain ⟨ks, hks, hprints⟩ := hoperand.prints
  constructor
  · cases op <;> exact ⟨_, _, rfl, by decide, by decide⟩
  · rw [← hd]
    exact ⟨_, .signed op hks, hprints.signed op hoperand.opens⟩

/-- A negated operand. -/
theorem not (hf : f.parens ≠ .none) (h : Shows (levelOf e.precedence) e d ps) :
  Shows .negation (.not e) (f.operandDescent (7 < e.precedence) e.precedence d).nested
    (.text "NOT".toList :: .gap :: f.operand (7 < e.precedence) e.precedence ps)
  := by
  obtain ⟨d', hd, hoperand⟩ := h.behindPrefix (n := .negation) (p := 7) hf rfl (by decide)
  obtain ⟨ks, hks, hprints⟩ := hoperand.prints
  constructor
  · exact ⟨'N', _, rfl, by decide, by decide⟩
  · rw [← hd]
    exact ⟨_, .not hks, hprints.negated⟩

/-! ### Names and brackets behind operands -/

/-- A property behind its base. -/
theorem property {name : String} (hname : IsName name.toList) (h : Shows .access e d ps) :
  Shows .access (.property e name) (d ++ .step 1 .flat)
    (ps ++ [.text ['.'], .text name.toList])
  := by
  obtain ⟨hopens, ks, hks, hprints⟩ := h
  constructor
  · apply hopens.append _
  · have hderives := hks.extend rfl (.property (.nil _ (.property e name)))
    rw [Descent.append_flat] at hderives
    exact ⟨_, hderives, hprints.property hname⟩

/-- A computed key behind its base. -/
theorem index {key : Expr} {qs : List Piece} (h : Shows .access e a ps) (hkey : Shows n key b qs) :
  Shows .access (.index e key) (a ++ .step 1 b.nested) (ps ++ f.enclose '[' ']' false qs)
  := by
  obtain ⟨hopens, ks, hks, hprints⟩ := h
  obtain ⟨b', hb, -, ls, hls, hprints'⟩ := hkey.exists_raise n.rank_le
  constructor
  · apply hopens.append _
  · have hderives := hks.extend rfl (.index hls (.nil _ _))
    rw [Descent.append_flat, Descent.nested_congr hb] at hderives
    exact ⟨_, hderives, hprints.index f hprints'⟩

/-! ### Calls -/

/-- A name is printed as the variable that it is. -/
theorem var {name : String} (hname : IsName name.toList) :
  Shows .operand (.var name) .flat [.text name.toList]
  := by
  exact ⟨.name hname, _, .terminal (.var name), .ident hname⟩

end Shows

/-- A name holds no dot. -/
theorem IsName.count_dot {name : List Char} (h : IsName name) :
  name.count '.' = 0
  := by
  apply List.count_eq_zero.mpr
  intro hdot
  cases h.chars _ hdot

/-- A name behind a path is one step more. -/
theorem IsName.step_dot {name : String} (h : IsName name.toList) (path : String) (d : Descent) :
  Descent.step ((path ++ "." ++ name).toList.count '.') d
    = .step (path.toList.count '.') .flat ++ .step 1 d
  := by
  have hcount := h.count_dot
  ext
  · simp [hcount, Nat.add_assoc]
  · simp [hcount]

/-- A dotted path is printed as the properties that it is the path of. -/
theorem IsPath.exists_prints {path : String} (h : IsPath path) :
  ∃ (e : Expr) (ks : List TokenKind), e.path? = some path
    ∧ Descends (.tree .access e) (.step (path.toList.count '.') .flat) ks
    ∧ Opening [.text path.toList] ∧ Prints [.text path.toList] ks
    ∧ ∀ k ∈ ks, k = .symbol .dot ∨ ∃ name, k = .ident name
  := by
  induction h with
  | @name name h =>
    refine ⟨.var name, [.ident name], rfl, ?_, .name h, .ident h, by simp⟩
    rw [h.count_dot]
    exact (Descends.terminal (.var name)).raise (by decide)
  | @dot path name hpath hname ih =>
    obtain ⟨base, ks, hbase, hks, hopens, hprints, hdots⟩ := ih
    refine ⟨.property base name, ks ++ [.symbol .dot, .ident name], by simp [Expr.path?, hbase],
      ?_, ?_, ?_, ?_⟩
    · rw [hname.step_dot]
      have hderives := hks.extend rfl (.property (.nil _ (.property base name)))
      rwa [Descent.append_flat] at hderives
    · rw [Opening, joined_dot]
      apply hopens.append _
    · have hproperty := hprints.property hname
      unfold Prints at *
      rw [joined_dot]
      apply hproperty
    · simpa [or_imp, forall_and] using hdots

namespace Shows

variable {f : Format} {n m : Nonterminal} {e : Expr} {d : Descent} {ps : List Piece}

/-- A call by a dotted path. -/
theorem call {name : String} {args : List Expr} {ks : List TokenKind} (empty : Bool)
    (hname : IsPath name) (hargs : Descends (.items args) d ks) (hps : Prints ps ks) :
  Shows .access (.call name args) (.step (name.toList.count '.') d)
    (.text name.toList :: f.enclose '(' ')' empty ps)
  := by
  have hinside := brackets_parens.prints_enclose f empty hps
  cases hname with
  | name hname =>
    have hcall : Shows .operand (.call name args) d
        (.text name.toList :: f.enclose '(' ')' empty ps) :=
      ⟨(Opening.name hname).append _, _, .call name hargs, hinside.functionName hname⟩
    have hflat : Descent.step 0 d = d.closed := by ext <;> simp
    rw [hname.count_dot, hflat]
    exact hcall.raise (by decide)
  | @dot path name hpath hname =>
    obtain ⟨base, ls, hbase, hls, hopens, hprints, -⟩ := hpath.exists_prints
    rw [hname.step_dot]
    constructor
    · rw [Opening, joined_dot]
      apply hopens.append _
    · have hderives :=
        hls.extend rfl (.qualified hbase hargs (.nil _ (.call (path ++ "." ++ name) args)))
      rw [Descent.append_flat] at hderives
      exact ⟨_, hderives, hprints.qualified hname hinside⟩

/-- What is printed on any level is an expression, whose text leads one step deeper where it is
a part. -/
theorem exists_nested (h : Shows n e d ps) :
  ∃ d' ks, d'.nested = d.nested ∧ Descends (.tree .disjunction e) d' ks ∧ Prints ps ks
  := by
  obtain ⟨d', hd, -, ks, hks, hps⟩ := h.exists_raise n.rank_le
  exact ⟨d', ks, Descent.nested_congr hd, hks, hps⟩

end Shows

/-! ### Sequences -/

/-- The members of a list or the arguments of a call are printed with commas between
them. -/
theorem exists_prints_items {f : Format} {es : List Expr}
    (h : ∀ e ∈ es, ∃ n, Shows n e (e.descent f) (e.pieces f)) :
  ∃ ks, Descends (.items es) (Expr.itemsDescent f es) ks ∧ Prints (Expr.itemPieces f es) ks
  := by
  induction es with
  | nil => exact ⟨[], .noItems, .nil⟩
  | cons e es ih =>
    obtain ⟨⟨n, he⟩, hes⟩ := List.forall_mem_cons.mp h
    obtain ⟨d, ks, hd, hks, hprints⟩ := he.exists_nested
    rw [Expr.itemsDescent, ← hd]
    cases es with
    | nil =>
      have hone := Descends.someItems hks .noMoreItems
      rw [List.append_nil] at hone
      exact ⟨ks, hone, hprints⟩
    | cons e' es =>
      obtain ⟨ls, hls, hprints'⟩ := ih hes
      have hcomma := hprints.separated (f := f) isMark_comma (by decide) (by decide) hprints'
      exact ⟨_, .someItems hks hls.further, hcomma⟩

theorem isName_of_isBareKey {key : List Char} (h : isBareKey key) :
  IsName key
  := by
  unfold isBareKey at h
  split at h
  · cases h
  · rename_i c rest
    simp only [Bool.and_eq_true, List.all_eq_true, decide_eq_true_eq] at h
    obtain ⟨⟨hstart, hrest⟩, hkind⟩ := h
    constructor
    · constructor
      · exact ⟨c, rest, rfl, hstart⟩
      · intro d hd
        obtain rfl | hd := List.mem_cons.mp hd
        · rw [isWordChar, hstart, Bool.true_or]
        · apply hrest d hd
    · apply hkind

/-- A key is printed as a name where it is one, and else as a string. -/
theorem exists_prints_key
    (key : String) :
  ∃ k, KeyToken k key ∧ Prints [.text (Format.keyText key.toList)] [k]
  := by
  unfold Format.keyText
  split
  · rename_i hbare
    exact ⟨_, .ident key, .ident (isName_of_isBareKey hbare)⟩
  · refine ⟨_, .str key, ?_⟩
    apply Prints.text
    intro rest rs hrest h
    apply spells_str h

/-- The entries of an object are printed with commas between them. -/
theorem exists_prints_entries {f : Format} {entries : List (String × Expr)}
    (h : ∀ entry ∈ entries, ∃ n, Shows n entry.2 (entry.2.descent f) (entry.2.pieces f)) :
  ∃ ks, Descends (.entries entries) (Expr.entriesDescent f entries) ks
    ∧ Prints (Expr.entryPieces f entries) ks
  := by
  induction entries with
  | nil => exact ⟨[], .noEntries, .nil⟩
  | cons entry entries ih =>
    obtain ⟨key, e⟩ := entry
    obtain ⟨⟨n, he⟩, hentries⟩ := List.forall_mem_cons.mp h
    obtain ⟨d, ks, hd, hks, hprints⟩ := he.exists_nested
    obtain ⟨k, hk, hkey⟩ := exists_prints_key key
    have hentry := hkey.separated (f := f) isMark_colon (by decide) (by decide) hprints
    rw [Expr.entriesDescent, ← hd]
    cases entries with
    | nil =>
      have hone := Descends.someEntries hk hks .noMoreEntries
      rw [List.append_nil] at hone
      exact ⟨_, hone, hentry⟩
    | cons entry' entries =>
      obtain ⟨ls, hls, hprints'⟩ := ih hentries
      have hcomma := hentry.separated (f := f) isMark_comma (by decide) (by decide) hprints'
      exact ⟨_, .someEntries hk hks hls.furtherEntries, hcomma⟩

namespace Shows

variable {f : Format}

theorem list {es : List Expr} (h : ∀ e ∈ es, ∃ n, Shows n e (e.descent f) (e.pieces f)) :
  Shows .operand (.list es) (Expr.itemsDescent f es) (Expr.pieces f (.list es))
  := by
  obtain ⟨ks, hks, hprints⟩ := exists_prints_items h
  constructor
  · exact ⟨'[', _, rfl, by decide, by decide⟩
  · exact ⟨_, .list hks, brackets_square.prints_enclose f es.isEmpty hprints⟩

theorem object {entries : List (String × Expr)}
    (h : ∀ entry ∈ entries, ∃ n, Shows n entry.2 (entry.2.descent f) (entry.2.pieces f)) :
  Shows .operand (.object entries) (Expr.entriesDescent f entries)
    (Expr.pieces f (.object entries))
  := by
  obtain ⟨ks, hks, hprints⟩ := exists_prints_entries h
  constructor
  · exact ⟨'\x7b', _, rfl, by decide, by decide⟩
  · exact ⟨_, .object hks, brackets_braces.prints_enclose f entries.isEmpty hprints⟩

end Shows

/-! ### Literals -/

theorem opening_digits {ds : List Char} (hds : AreDigits ds) (hne : ds ≠ []) (rest : List Char)
    (ps : List Piece) :
  Opening (.text (ds ++ rest) :: ps)
  := by
  cases ds with
  | nil => contradiction
  | cons d ds =>
    have hd := hds d List.mem_cons_self
    refine ⟨d, _, rfl, ?_, ?_⟩
    · rintro rfl
      cases hd
    · rintro rfl
      cases hd

/-- A literal that can be written is printed as one token. -/
theorem exists_prints_literal {l : Literal} (h : (Expr.literal l).Written) :
  ∃ k, Terminal k (.literal l) ∧ Opening [.text l.source] ∧ Prints [.text l.source] [k]
  := by
  cases h with
  | @int n h =>
    refine ⟨_, .int n, ?_, ?_⟩
    · rw [Literal.source, toList_text h]
      simpa using opening_digits (Decimal.areDigits_digitsOf n.toInt.toNat)
        (Decimal.digitsOf_ne_nil _) [] []
    · apply Prints.text
      intro rest rs hrest hspells
      apply spells_int h hrest hspells
  | @float x h =>
    obtain ⟨text, hx⟩ := h
    obtain ⟨whole, fraction, hplain, hread⟩ := exists_readDecimal_write hx
    refine ⟨_, .float x, ?_, ?_⟩
    · rw [Literal.source, hplain.eq]
      apply opening_digits hplain.areDigits_whole hplain.whole_ne_nil _ _
    · rw [Literal.source, hplain.eq]
      apply Prints.text
      intro rest rs hrest hspells
      exact spells_float hplain.areDigits_whole hplain.whole_ne_nil hplain.areDigits_fraction
        hplain.fraction_ne_nil hread hrest hspells
  | str s =>
    refine ⟨_, .str s, ⟨'"', _, rfl, by decide, by decide⟩, ?_⟩
    apply Prints.text
    intro rest rs hrest hspells
    apply spells_str hspells
  | bool b =>
    refine ⟨_, .bool b, by cases b <;> exact ⟨_, _, rfl, by decide, by decide⟩, ?_⟩
    apply Prints.text
    intro rest rs hrest hspells
    have hword : IsWord (toString b).toList := by
      cases b <;> exact isWord_of_check (by decide)
    have hkind : kindBefore (wordKind (toString b).toList) (toString b).toList rs
        = .ok (.bool b) := by cases b <;> rfl
    apply spells_word hword hrest.word hkind hspells
  | date d =>
    refine ⟨_, .date d, ⟨'#', _, rfl, by decide, by decide⟩, ?_⟩
    apply Prints.text
    intro rest rs hrest hspells
    apply spells_dateOf hspells
  | dateTime t =>
    refine ⟨_, .dateTime t, ⟨'#', _, rfl, by decide, by decide⟩, ?_⟩
    apply Prints.text
    intro rest rs hrest hspells
    apply spells_dateTimeOf hspells

theorem Shows.literal {l : Literal} (h : (Expr.literal l).Written) :
  Shows .operand (.literal l) .flat [.text l.source]
  := by
  obtain ⟨k, hk, hopens, hprints⟩ := exists_prints_literal h
  exact ⟨hopens, _, .terminal hk, hprints⟩

/-! ### Durations -/

/-- A blank ends a word or a number that stands before no parenthesis. -/
theorem closes_blank {rest : List Char} {ks : List TokenKind} (h : beforeParen ks = false) :
  Closes (' ' :: rest) ks
  := by
  constructor
  · rintro c ⟨⟩
    decide
  · rintro c cs hcs
    cases hcs
  · apply h

/-- Two printed texts with a blank between them. -/
theorem Prints.gap {ps qs : List Piece} {ks ls : List TokenKind} (hps : Prints ps ks)
    (hqs : Prints qs ls) (hparen : ∀ rs, beforeParen (ls ++ rs) = false) :
  Prints (ps ++ .gap :: qs) (ks ++ ls)
  := by
  apply hps.append
  · intro rest rs hrest h
    exact .blank (by decide : isSeparator ' ') (hqs rest rs hrest h)
  · intro rest rs hrest
    apply closes_blank (hparen rs)

/-- The word for an amount of a unit names the unit. -/
theorem wordFor_spec
    (u : DurationUnit) (n : Int64) :
  IsName (u.wordFor n).toList ∧ (TokenKind.ident (u.wordFor n)).unit? = some u
  := by
  have hword : ∀ word ∈ [u.singular, u.name],
      isBareKey word.toList ∧ (TokenKind.ident word).unit? = some u := by
    cases u <;> decide
  have hmem : u.wordFor n ∈ [u.singular, u.name] := by
    unfold DurationUnit.wordFor
    split <;> simp
  obtain ⟨hbare, hunit⟩ := hword _ hmem
  exact ⟨isName_of_isBareKey hbare, hunit⟩

/-- An amount is printed with the word of its unit. -/
theorem prints_amount {n : Int64} (u : DurationUnit) (hn : 0 ≤ n.toInt) :
  Prints (Format.durationPieces.amount n u) [.int n, .ident (u.wordFor n)]
  := by
  have hint : Prints [.text (Word.text n).toList] [.int n] := by
    apply Prints.text
    intro rest rs hrest h
    apply spells_int hn hrest h
  exact hint.gap (.ident (wordFor_spec u n).1) fun _ => rfl

/-- Amounts are printed with blanks between them. -/
theorem exists_prints_amounts {part : Int64 × DurationUnit}
    {parts : List (Int64 × DurationUnit)} (h : ∀ p ∈ part :: parts, 0 ≤ p.1.toInt) :
  ∃ ks, Amounts (part :: parts) ks ∧ Prints (Format.durationPieces (part :: parts)) ks
    ∧ ∀ rs, beforeParen (ks ++ rs) = false
  := by
  induction parts generalizing part with
  | nil =>
    obtain ⟨n, u⟩ := part
    have hn : 0 ≤ n.toInt := h _ List.mem_cons_self
    exact ⟨_, .cons (wordFor_spec u n).2 .nil, prints_amount u hn, fun _ => rfl⟩
  | cons part' parts ih =>
    obtain ⟨n, u⟩ := part
    obtain ⟨hn, hparts⟩ := List.forall_mem_cons.mp h
    obtain ⟨ks, hks, hprints, hparen⟩ := ih hparts
    exact ⟨_, .cons (wordFor_spec u n).2 hks, (prints_amount u hn).gap hprints hparen,
      fun _ => rfl⟩

/-- The direction of a duration is printed. -/
theorem exists_prints_direction
    (direction : Direction) :
  ∃ ks, Heading direction ks ∧ Prints [.text direction.words.toList] ks
    ∧ ∀ rs, beforeParen (ks ++ rs) = false
  := by
  have hname : ∀ {name : String}, isBareKey name.toList → IsName name.toList :=
    isName_of_isBareKey
  cases direction with
  | ago =>
    exact ⟨_, .ago (by decide : (TokenKind.ident "ago").isWord "ago"),
      .ident (hname (by decide)), fun _ => rfl⟩
  | fromNow =>
    have hfrom : Prints [.text "from".toList] [.ident "from"] := .ident (hname (by decide))
    have hnow : Prints [.text "now".toList] [.ident "now"] := .ident (hname (by decide))
    exact ⟨_, .fromNow (by decide : (TokenKind.ident "from").isWord "from")
      (by decide : (TokenKind.ident "now").isWord "now"), hfrom.gap hnow fun _ => rfl,
      fun _ => rfl⟩

/-- A duration begins with a digit. -/
theorem opening_duration (f : Format) {part : Int64 × DurationUnit}
    {parts : List (Int64 × DurationUnit)} (h : ∀ p ∈ part :: parts, 0 ≤ p.1.toInt) :
  Opening (Expr.pieces f (.duration (part :: parts)))
  := by
  obtain ⟨n, u⟩ := part
  have hn : 0 ≤ n.toInt := h _ List.mem_cons_self
  have hdigits : ∀ ps, Opening (.text (Word.text n).toList :: ps) := by
    intro ps
    rw [toList_text hn]
    simpa using opening_digits (Decimal.areDigits_digitsOf n.toInt.toNat)
      (Decimal.digitsOf_ne_nil _) [] ps
  cases parts with
  | nil => apply hdigits _
  | cons part' parts => apply hdigits _

namespace Shows

theorem duration (f : Format) {part : Int64 × DurationUnit}
    {parts : List (Int64 × DurationUnit)} (h : ∀ p ∈ part :: parts, 0 ≤ p.1.toInt) :
  Shows .operand (.duration (part :: parts)) .flat (Expr.pieces f (.duration (part :: parts)))
  := by
  obtain ⟨ks, hks, hprints, -⟩ := exists_prints_amounts h
  exact ⟨opening_duration f h, ks, .duration hks, hprints⟩

theorem relative (f : Format) {part : Int64 × DurationUnit}
    {parts : List (Int64 × DurationUnit)} (direction : Direction)
    (h : ∀ p ∈ part :: parts, 0 ≤ p.1.toInt) :
  Shows .operand (.relative (.duration (part :: parts)) direction) .flat
    (Expr.pieces f (.relative (.duration (part :: parts)) direction))
  := by
  obtain ⟨ks, hks, hprints, -⟩ := exists_prints_amounts h
  obtain ⟨ls, hls, hprints', hparen⟩ := exists_prints_direction direction
  constructor
  · exact (opening_duration f h).append _
  · exact ⟨_, .relative hks hls, hprints.gap hprints' hparen⟩

end Shows

/-! ### All expressions -/

/-- With parentheses where they are needed, what is written for an expression prints it, and
its descent is that of the expression. -/
theorem Expr.Written.shows {f : Format} {e : Expr} (hf : f.parens ≠ .none) (h : e.Written) :
  Shows (levelOf e.precedence) e (e.descent f) (e.pieces f)
  := by
  induction h with
  | int h => exact (Shows.literal (.int h)).atLevel
  | float h => exact (Shows.literal (.float h)).atLevel
  | str s => exact (Shows.literal (.str s)).atLevel
  | bool b => exact (Shows.literal (.bool b)).atLevel
  | date d => exact (Shows.literal (.date d)).atLevel
  | dateTime t => exact (Shows.literal (.dateTime t)).atLevel
  | var h => exact (Shows.var h).atLevel
  | property hbase hname ih => exact (ih.first hf rfl (by decide)).property hname
  | index hbase hkey ihbase ihkey => exact (ihbase.first hf rfl (by decide)).index ihkey
  | compare op hl hr ihl ihr =>
    exact .binary hf rfl rfl (by decide) (.compare op) op.isOperator ihl ihr
  | arithmetic op hl hr ihl ihr =>
    have hop := op.isOperator
    cases op with
    | add => exact .binary hf rfl rfl (by decide) .add hop ihl ihr
    | subtract => exact .binary hf rfl rfl (by decide) .subtract hop ihl ihr
    | multiply => exact .binary hf rfl rfl (by decide) .multiply hop ihl ihr
    | divide => exact .binary hf rfl rfl (by decide) .divide hop ihl ihr
    | modulo => exact .binary hf rfl rfl (by decide) .modulo hop ihl ihr
  | unary op he ih => exact .unary op hf ih
  | and hl hr ihl ihr => exact .binary hf rfl rfl (by decide) .and isOperator_and ihl ihr
  | or hl hr ihl ihr => exact .binary hf rfl rfl (by decide) .or isOperator_or ihl ihr
  | not he ih => exact .not hf ih
  | membership op hl hr ihl ihr =>
    exact .binary hf rfl rfl (by decide) (.member op) op.isOperator ihl ihr
  | list h ih => exact (Shows.list fun e he => ⟨_, ih e he⟩).atLevel
  | object h ih => exact (Shows.object fun entry he => ⟨_, ih entry he⟩).atLevel
  | call hname h ih =>
    obtain ⟨ks, hks, hprints⟩ := exists_prints_items fun e he => ⟨_, ih e he⟩
    exact .call _ hname hks hprints
  | duration h => exact (Shows.duration f h).atLevel
  | relative direction h => exact (Shows.relative f direction h).atLevel

end RuleLang
