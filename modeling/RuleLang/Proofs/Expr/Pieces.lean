import RuleLang.Proofs.Grammar.Rules
import RuleLang.Proofs.Token.Lexing

/-!
# Pieces of formatted texts

`Prints ps ks` says that pieces spell tokens of the kinds `ks` in front of whatever ends a
word or a number.  There are lemmas for blanks, for marks that are symbols whatever follows
them, for operators, and for every construct that puts printed texts together.
-/

namespace RuleLang

open Lexeme

/-! ### Printed tokens -/

/-- The characters of pieces. -/
def joined (ps : List Piece) : List Char := ps.flatMap Piece.chars

@[simp]
theorem joined_nil : joined [] = [] := rfl

@[simp]
theorem joined_cons
    (p : Piece) (ps : List Piece) :
  joined (p :: ps) = p.chars ++ joined ps
  := List.flatMap_cons

@[simp]
theorem joined_append
    (ps qs : List Piece) :
  joined (ps ++ qs) = joined ps ++ joined qs
  := List.flatMap_append

/-- The pieces spell tokens of the kinds `ks` in front of whatever ends a word or a
number. -/
def Prints (ps : List Piece) (ks : List TokenKind) : Prop :=
  ∀ rest rs, Closes rest rs → Spells rest rs → Spells (joined ps ++ rest) (ks ++ rs)

/-- Pieces that are blanks. -/
def AreGaps (ps : List Piece) : Prop := ∀ p ∈ ps, p = .gap

theorem areGaps_wideGap
    (f : Format) :
  AreGaps f.wideGap
  := by
  unfold Format.wideGap
  split
  · rintro p ⟨⟩
  · simp [AreGaps]

theorem areGaps_innerGap
    (f : Format) (empty : Bool) :
  AreGaps (f.innerGap empty)
  := by
  unfold Format.innerGap
  split
  · simp [AreGaps]
  · rintro p ⟨⟩

section

variable {ps : List Piece} (hps : AreGaps ps) {rest : List Char} {rs : List TokenKind}
include hps

/-- Blanks spell nothing. -/
theorem AreGaps.spells (h : Spells rest rs) :
  Spells (joined ps ++ rest) rs
  := by
  induction ps with
  | nil => apply h
  | cons p ps ih =>
    obtain ⟨rfl, hrest⟩ := List.forall_mem_cons.mp hps
    exact .blank (by decide) (ih hrest)

theorem AreGaps.closes (h : Closes rest rs) :
  Closes (joined ps ++ rest) rs
  := by
  cases ps with
  | nil => apply h
  | cons p ps =>
    obtain ⟨rfl, -⟩ := List.forall_mem_cons.mp hps
    constructor
    · rintro c ⟨⟩
      decide
    · rintro c cs hcs
      cases hcs
    · apply h.paren

theorem AreGaps.opens (h : Opens rest) :
  Opens (joined ps ++ rest)
  := by
  cases ps with
  | nil => apply h
  | cons p ps =>
    obtain ⟨rfl, -⟩ := List.forall_mem_cons.mp hps
    rintro c ⟨⟩
    decide

end

namespace Prints

theorem nil : Prints [] [] := fun _ _ _ h => h

theorem text {cs : List Char} {ks : List TokenKind}
    (h : ∀ rest rs, Closes rest rs → Spells rest rs → Spells (cs ++ rest) (ks ++ rs)) :
  Prints [.text cs] ks
  := by
  intro rest rs hrest hspells
  rw [joined_cons, joined_nil, List.append_nil]
  apply h rest rs hrest hspells

theorem ident {name : String} (hname : IsName name.toList) :
  Prints [.text name.toList] [.ident name]
  := by
  apply text
  intro rest rs hrest h
  have hident := spells_ident hname hrest h
  rwa [String.ofList_toList] at hident

theorem append {ps qs : List Piece} {ks ls : List TokenKind} (hps : Prints ps ks)
    (hqs : Prints qs ls)
    (hcloses : ∀ rest rs, Closes rest rs → Closes (joined qs ++ rest) (ls ++ rs)) :
  Prints (ps ++ qs) (ks ++ ls)
  := by
  intro rest rs hrest h
  rw [joined_append, List.append_assoc, List.append_assoc]
  apply hps _ _ (hcloses rest rs hrest) (hqs rest rs hrest h)

theorem gaps_append {gs ps : List Piece} {ks : List TokenKind} (hgs : AreGaps gs)
    (hps : Prints ps ks) :
  Prints (gs ++ ps) ks
  := by
  intro rest rs hrest h
  rw [joined_append, List.append_assoc]
  apply hgs.spells (hps rest rs hrest h)

theorem append_gaps {gs ps : List Piece} {ks : List TokenKind} (hgs : AreGaps gs)
    (hps : Prints ps ks) :
  Prints (ps ++ gs) ks
  := by
  intro rest rs hrest h
  rw [joined_append, List.append_assoc]
  apply hps _ _ (hgs.closes hrest) (hgs.spells h)

end Prints

/-! ### Marks -/

/-- In front of a symbol that is no opening parenthesis a word or a number ends, unless the
symbol begins with a character of theirs. -/
theorem closes_symbol {c : Char} {rest : List Char} {s : Symbol} {ks : List TokenKind}
    (hword : ¬isWordChar c) (hpoint : c ≠ '.') (hs : s ≠ .leftParen) :
  Closes (c :: rest) (.symbol s :: ks)
  := by
  constructor
  · rintro d ⟨⟩
    apply hword
  · rintro d cs hcs
    exact absurd (List.cons.inj hcs).1 hpoint
  · simpa [beforeParen] using hs

/-- Whether a character is a symbol whatever follows it. -/
structure IsMark (c : Char) (s : Symbol) : Prop where
  find : ∀ rest, Symbol.spellings.find? (·.1.isPrefixOf ([c] ++ rest)) = some ([c], s)
  word : ¬isWordChar c

theorem IsMark.spells {c : Char} {s : Symbol} {rest : List Char} {ks : List TokenKind}
    (hc : IsMark c s) (h : Spells rest ks) :
  Spells (c :: rest) (.symbol s :: ks)
  := spells_of_find? (hc.find rest) h

theorem isMark_comma : IsMark ',' .comma := ⟨fun _ => rfl, by decide⟩

theorem isMark_colon : IsMark ':' .colon := ⟨fun _ => rfl, by decide⟩

theorem isMark_dot : IsMark '.' .dot := ⟨fun _ => rfl, by decide⟩

/-- Two marks that enclose something. -/
structure Brackets (c d : Char) (s t : Symbol) : Prop where
  opening : IsMark c s
  closing : IsMark d t
  point : d ≠ '.'
  paren : t ≠ .leftParen

theorem brackets_parens : Brackets '(' ')' .leftParen .rightParen where
  opening := ⟨fun _ => rfl, by decide⟩
  closing := ⟨fun _ => rfl, by decide⟩
  point := by decide
  paren := by decide

theorem brackets_square : Brackets '[' ']' .leftBracket .rightBracket where
  opening := ⟨fun _ => rfl, by decide⟩
  closing := ⟨fun _ => rfl, by decide⟩
  point := by decide
  paren := by decide

theorem brackets_braces : Brackets '\x7b' '\x7d' .leftBrace .rightBrace where
  opening := ⟨fun _ => rfl, by decide⟩
  closing := ⟨fun _ => rfl, by decide⟩
  point := by decide
  paren := by decide

section

variable {c d : Char} {s t : Symbol} (hb : Brackets c d s t) {ps : List Piece}
  {ks : List TokenKind}
include hb

/-- What is enclosed in brackets is printed with them. -/
theorem Brackets.prints {p q : Piece} (hp : p.chars = [c]) (hq : q.chars = [d])
    (hps : Prints ps ks) :
  Prints (p :: (ps ++ [q])) (.symbol s :: ks ++ [.symbol t])
  := by
  intro rest rs hrest h
  have hclosing := hb.closing.spells h
  have hcloses : Closes (d :: rest) (.symbol t :: rs) :=
    closes_symbol hb.closing.word hb.point hb.paren
  have hinside := hb.opening.spells (hps _ _ hcloses hclosing)
  simpa [hp, hq] using hinside

theorem Brackets.prints_enclose (f : Format) (empty : Bool) (hps : Prints ps ks) :
  Prints (f.enclose c d empty ps) (.symbol s :: ks ++ [.symbol t])
  := by
  have hgaps := areGaps_innerGap f empty
  apply hb.prints rfl rfl ((hps.gaps_append hgaps).append_gaps hgaps)

end

/-- Two printed texts with a mark between them. -/
theorem Prints.separated {f : Format} {c : Char} {s : Symbol} {ps qs : List Piece}
    {ks ls : List TokenKind} (hc : IsMark c s) (hpoint : c ≠ '.') (hs : s ≠ .leftParen)
    (hps : Prints ps ks) (hqs : Prints qs ls) :
  Prints (ps ++ f.separator c ++ qs) (ks ++ .symbol s :: ls)
  := by
  intro rest rs hrest h
  have hright := (areGaps_wideGap f).spells (hqs rest rs hrest h)
  have hleft := hps _ _ (closes_symbol hc.word hpoint hs) (hc.spells hright)
  simpa [Format.separator, Piece.chars] using hleft

/-! ### Operators -/

/-- Whether an operator is written as a symbol, and whether that is a word. -/
inductive IsOperator : Bool → String → Symbol → Prop where
  | mark {text : String} {s : Symbol} (h : (text.toList, s) ∈ Symbol.spellings)
      (hdot : s ≠ .dot) (hparen : s ≠ .leftParen) :
    IsOperator false text s
  | word {text : String} {s : Symbol} (h : IsWord text.toList)
      (hkind : wordKind text.toList = .symbol s) (hparen : s ≠ .leftParen) :
    IsOperator true text s

theorem CompareOp.isOperator
    (op : CompareOp) :
  IsOperator false op.symbol op.mark
  := by
  cases op <;> exact .mark (by decide) (by decide) (by decide)

theorem ArithmeticOp.isOperator
    (op : ArithmeticOp) :
  IsOperator false op.symbol op.mark
  := by
  cases op <;> exact .mark (by decide) (by decide) (by decide)

theorem MembershipOp.isOperator
    (op : MembershipOp) :
  IsOperator true op.symbol op.mark
  := by
  cases op <;> exact .word (isWord_of_check (by decide)) rfl (by decide)

theorem isOperator_and : IsOperator true "AND" .wordAnd :=
  .word (isWord_of_check (by decide)) rfl (by decide)

theorem isOperator_or : IsOperator true "OR" .wordOr :=
  .word (isWord_of_check (by decide)) rfl (by decide)

/-- The first character of a spelling ends a word or a number. -/
theorem closes_spelling {text rest : List Char} {s : Symbol} {ks : List TokenKind}
    (hs : (text, s) ∈ Symbol.spellings) (hdot : s ≠ .dot) (hparen : s ≠ .leftParen) :
  Closes (text ++ rest) (.symbol s :: ks)
  := by
  have hne : ∀ p ∈ Symbol.spellings, p.1 ≠ [] := by decide
  have hhead : ∀ p ∈ Symbol.spellings, p.2 ≠ .dot →
      p.1.head?.all fun c => ¬isWordChar c ∧ c ≠ '.' := by decide
  cases text with
  | nil => cases hne _ hs rfl
  | cons c cs =>
    obtain ⟨hword, hpoint⟩ := of_decide_eq_true (hhead _ hs hdot)
    apply closes_symbol hword hpoint hparen

/-- An operator spells its symbol, and ends what stands before it. -/
theorem IsOperator.spells {word : Bool} {text : String} {s : Symbol} (f : Format)
    (h : IsOperator word text s) {rest : List Char} {ks : List TokenKind} (hrest : Opens rest)
    (hspells : Spells rest ks) :
  Closes (joined (f.operator word text) ++ rest) (.symbol s :: ks)
    ∧ Spells (joined (f.operator word text) ++ rest) (.symbol s :: ks)
  := by
  cases h with
  | mark htext hdot hparen =>
    have hgaps := areGaps_wideGap f
    have hs := spells_symbol htext (hgaps.opens hrest) (hgaps.spells hspells)
    have hcloses : Closes (text.toList ++ (joined f.wideGap ++ rest)) (.symbol s :: ks) :=
      closes_spelling htext hdot hparen
    have hboth := And.intro (hgaps.closes hcloses) (hgaps.spells hs)
    simpa [Format.operator, Piece.chars] using hboth
  | word hword hkind hparen =>
    have hs : Spells (text.toList ++ ' ' :: rest) (.symbol s :: ks) := by
      apply spells_word hword _ _ (.blank (by decide) hspells)
      · rintro c ⟨⟩
        decide
      · rw [hkind]
        rfl
    have hcloses : Closes (' ' :: (text.toList ++ ' ' :: rest)) (.symbol s :: ks) :=
      closes_symbol (by decide) (by decide) hparen
    have hboth := And.intro hcloses (Spells.blank (by decide : isSeparator ' ') hs)
    simpa [Format.operator, Piece.chars] using hboth

/-! ### Constructs -/

/-- Whether pieces begin with a character that takes nothing away from a symbol before
them. -/
def Opening (ps : List Piece) : Prop := ∃ c cs, joined ps = c :: cs ∧ c ≠ '=' ∧ c ≠ '>'

namespace Opening

variable {ps : List Piece}

theorem append (h : Opening ps) (qs : List Piece) :
  Opening (ps ++ qs)
  := by
  obtain ⟨c, cs, hps, hc⟩ := h
  refine ⟨c, cs ++ joined qs, ?_, hc⟩
  rw [joined_append, hps, List.cons_append]

theorem opens (h : Opening ps) (rest : List Char) :
  Opens (joined ps ++ rest)
  := by
  obtain ⟨c, cs, hps, hc⟩ := h
  rw [hps]
  rintro d ⟨⟩
  apply hc

theorem name {name : String} (hname : IsName name.toList) :
  Opening [.text name.toList]
  := by
  obtain ⟨c, cs, hcs, hc⟩ := hname.start
  refine ⟨c, cs, ?_, ?_, ?_⟩
  · simp [Piece.chars, hcs]
  · rintro rfl
    cases hc
  · rintro rfl
    cases hc

end Opening

/-- A point before a name ends the word or the number before it. -/
theorem closes_dot {name rest : List Char} {ks : List TokenKind} (hname : IsWord name) :
  Closes ('.' :: (name ++ rest)) (.symbol .dot :: ks)
  := by
  obtain ⟨⟨c, cs, rfl, hc⟩, -⟩ := hname
  constructor
  · rintro d ⟨⟩
    decide
  · rintro d ds hds hdigit
    obtain ⟨rfl, -⟩ := List.cons.inj (List.cons.inj hds).2
    apply not_isWordStart_of_isDigit hdigit hc
  · rfl

/-- A path is printed as its parts are. -/
theorem joined_dot
    (path name : String) (ps : List Piece) :
  joined (.text (path ++ "." ++ name).toList :: ps)
    = joined ([.text path.toList] ++ .text ['.'] :: .text name.toList :: ps)
  := by
  simp [Piece.chars]

namespace Prints

variable {ps qs : List Piece} {ks ls : List TokenKind}

/-- Two printed texts with an operator between them. -/
theorem operator {word : Bool} {text : String} {s : Symbol} (f : Format)
    (hs : IsOperator word text s) (hopens : Opening qs) (hps : Prints ps ks)
    (hqs : Prints qs ls) :
  Prints (ps ++ f.operator word text ++ qs) (ks ++ ([.symbol s] ++ ls))
  := by
  intro rest ts hrest h
  obtain ⟨hcloses, hspells⟩ := hs.spells f (hopens.opens rest) (hqs rest ts hrest h)
  have hboth := hps _ _ hcloses hspells
  simpa using hboth

/-- A text behind a prefix operator. -/
theorem signed (op : UnaryOp) (hopens : Opening ps) (hps : Prints ps ks) :
  Prints (.text op.symbol.toList :: ps) (.symbol op.mark :: ks)
  := by
  intro rest rs hrest h
  have hop : (op.symbol.toList, op.mark) ∈ Symbol.spellings := by cases op <;> decide
  have hspells := spells_symbol hop (hopens.opens rest) (hps rest rs hrest h)
  simpa [Piece.chars] using hspells

/-- A text behind the word that negates it. -/
theorem negated (hps : Prints ps ks) :
  Prints (.text "NOT".toList :: .gap :: ps) (.symbol .wordNot :: ks)
  := by
  intro rest rs hrest h
  have hword : IsWord "NOT".toList := isWord_of_check (by decide)
  apply spells_word hword _ _ (.blank (by decide : isSeparator ' ') (hps rest rs hrest h))
  · rintro c ⟨⟩
    decide
  · rfl

/-- A property behind its base. -/
theorem property {name : String} (hname : IsName name.toList) (hps : Prints ps ks) :
  Prints (ps ++ [.text ['.'], .text name.toList]) (ks ++ [.symbol .dot, .ident name])
  := by
  intro rest rs hrest h
  have hident := spells_ident hname hrest h
  rw [String.ofList_toList] at hident
  have hspells := hps _ _ (closes_dot hname.toIsWord) (isMark_dot.spells hident)
  simpa [Piece.chars] using hspells

/-- A computed key behind its base. -/
theorem index (f : Format) (hps : Prints ps ks) (hqs : Prints qs ls) :
  Prints (ps ++ f.enclose '[' ']' false qs)
    (ks ++ (.symbol .leftBracket :: ls ++ [.symbol .rightBracket]))
  := by
  apply hps.append (brackets_square.prints_enclose f false hqs)
  intro rest rs hrest
  exact closes_symbol (by decide) (by decide) (by decide)

/-- The name of a function before its arguments. -/
theorem functionName {f : Format} {name : String} {empty : Bool} (hname : IsName name.toList)
    (h : Prints (f.enclose '(' ')' empty ps) (.symbol .leftParen :: ks)) :
  Prints (.text name.toList :: f.enclose '(' ')' empty ps)
    (.functionName name :: .symbol .leftParen :: ks)
  := by
  intro rest rs hrest hspells
  have hcall := spells_functionName hname (h rest rs hrest hspells)
  rw [String.ofList_toList] at hcall
  rw [joined_cons, List.append_assoc]
  apply hcall

/-- The name of a function behind a path. -/
theorem qualified {f : Format} {path name : String} {empty : Bool} (hname : IsName name.toList)
    (hpath : Prints [.text path.toList] ls)
    (h : Prints (f.enclose '(' ')' empty ps) (.symbol .leftParen :: ks)) :
  Prints (.text (path ++ "." ++ name).toList :: f.enclose '(' ')' empty ps)
    (ls ++ .symbol .dot :: .functionName name :: .symbol .leftParen :: ks)
  := by
  intro rest rs hrest hspells
  have hdot := isMark_dot.spells (h.functionName hname rest rs hrest hspells)
  rw [joined_cons, List.append_assoc] at hdot
  have hcall := hpath _ _ (closes_dot hname.toIsWord) hdot
  rw [joined_dot, joined_append, List.append_assoc]
  simpa [Piece.chars] using hcall

end Prints

end RuleLang
