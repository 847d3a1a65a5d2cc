import RuleLang.Token.Cursor
import RuleLang.Expr.Basic

/-!
# The grammar of expressions

`Derives p ks` says that the grammar derives the tokens `ks` from the phrase `p`, which
carries the tree that the tokens form.  On every level of binary operators a phrase is an
operand and a tail of further operands.  A tail `Phrase.tail n left e` begins behind the
tree `left`, and `e` is that tree with all operands of the tail folded into it from the
left.  The rules know nothing of the depth of expressions and nothing of the order in which
tokens are read.
-/

namespace RuleLang

/-! ### Symbols of operators -/

/-- The symbol of a comparison. -/
def CompareOp.mark : CompareOp → Symbol
  | equal => .equal
  | notEqual => .notEqual
  | strictEqual => .strictEqual
  | strictNotEqual => .strictNotEqual
  | greater => .greater
  | greaterEqual => .greaterEqual
  | less => .less
  | lessEqual => .lessEqual

/-- The symbol of an operation of arithmetic. -/
def ArithmeticOp.mark : ArithmeticOp → Symbol
  | add => .plus
  | subtract => .minus
  | multiply => .star
  | divide => .slash
  | modulo => .percent

/-- The symbol of a prefix operator. -/
def UnaryOp.mark : UnaryOp → Symbol
  | minus => .minus
  | bang => .bang

/-- The symbol of a test of membership. -/
def MembershipOp.mark : MembershipOp → Symbol
  | isIn => .wordIn
  | contains => .wordContains

/-! ### Nonterminals -/

/-- The nonterminals that derive trees, from the loosest to the tightest. -/
inductive Nonterminal where
  | disjunction
  | conjunction
  | negation
  | comparison
  | membership
  | sum
  | product
  | sign
  | access
  | operand
deriving DecidableEq, Repr

/-- What the operands on a level of chains are. -/
def Nonterminal.operand? : Nonterminal → Option Nonterminal
  | disjunction => some conjunction
  | conjunction => some negation
  | comparison => some membership
  | membership => some sum
  | sum => some product
  | product => some sign
  | access => some operand
  | negation | sign | operand => none

/-- The symbols that join two operands on a level, and how the trees are joined. -/
inductive Connective : Nonterminal → List Symbol → (Expr → Expr → Expr) → Prop where
  | or : Connective .disjunction [.wordOr] .or
  | bars : Connective .disjunction [.bars] .or
  | and : Connective .conjunction [.wordAnd] .and
  | ampersands : Connective .conjunction [.ampersands] .and
  | compare (op : CompareOp) : Connective .comparison [op.mark] (.compare op)
  | member (op : MembershipOp) : Connective .membership [op.mark] (.membership op)
  | notIn : Connective .membership [.wordNot, .wordIn] fun l r => .not (.membership .isIn l r)
  | add : Connective .sum [ArithmeticOp.add.mark] (.arithmetic .add)
  | subtract : Connective .sum [ArithmeticOp.subtract.mark] (.arithmetic .subtract)
  | multiply : Connective .product [ArithmeticOp.multiply.mark] (.arithmetic .multiply)
  | divide : Connective .product [ArithmeticOp.divide.mark] (.arithmetic .divide)
  | modulo : Connective .product [ArithmeticOp.modulo.mark] (.arithmetic .modulo)

/-! ### Terminals -/

/-- A token that is an operand by itself. -/
inductive Terminal : TokenKind → Expr → Prop where
  | int (n : Int64) : Terminal (.int n) (.literal (.int n))
  | float (x : Float) : Terminal (.float x) (.literal (.float x))
  | str (s : String) : Terminal (.str s) (.literal (.str s))
  | bool (b : Bool) : Terminal (.bool b) (.literal (.bool b))
  | date (d : Date) : Terminal (.date d) (.literal (.date d))
  | dateTime (t : DateTime) : Terminal (.dateTime t) (.literal (.dateTime t))
  | var (name : String) : Terminal (.ident name) (.var name)

/-- A token that is a key of an object. -/
inductive KeyToken : TokenKind → String → Prop where
  | ident (name : String) : KeyToken (.ident name) name
  | str (s : String) : KeyToken (.str s) s

/-- Amounts of a duration, each with the word of its unit behind it. -/
inductive Amounts : List (Int64 × DurationUnit) → List TokenKind → Prop where
  | nil : Amounts [] []
  | cons {n : Int64} {word : TokenKind} {unit : DurationUnit}
      {parts : List (Int64 × DurationUnit)} {ks : List TokenKind} (hunit : word.unit? = some unit)
      (hparts : Amounts parts ks) :
    Amounts ((n, unit) :: parts) (.int n :: word :: ks)

/-- The words that count a duration from the present. -/
inductive Heading : Direction → List TokenKind → Prop where
  | ago {k : TokenKind} (h : k.isWord "ago") : Heading .ago [k]
  | fromNow {k l : TokenKind} (hk : k.isWord "from") (hl : l.isWord "now") :
    Heading .fromNow [k, l]

/-! ### Phrases -/

/-- What the grammar derives, with the trees that the tokens form. -/
inductive Phrase where
  /-- An expression of a level. -/
  | tree (n : Nonterminal) (e : Expr)
  /-- What extends the expression `left` to the expression `e` on a level. -/
  | tail (n : Nonterminal) (left e : Expr)
  /-- Expressions with commas between them. -/
  | items (es : List Expr)
  /-- Expressions with a comma before each. -/
  | moreItems (es : List Expr)
  /-- Entries of an object with commas between them. -/
  | entries (entries : List (String × Expr))
  /-- Entries of an object with a comma before each. -/
  | moreEntries (entries : List (String × Expr))

/-- The rules of the grammar. -/
inductive Derives : Phrase → List TokenKind → Prop where
  /-- An operand and the tail of a level. -/
  | chain {n m : Nonterminal} {left e : Expr} {ks ls : List TokenKind} (hn : n.operand? = some m)
      (hleft : Derives (.tree m left) ks) (htail : Derives (.tail n left e) ls) :
    Derives (.tree n e) (ks ++ ls)
  | nil (n : Nonterminal) (e : Expr) : Derives (.tail n e e) []
  | binary {n m : Nonterminal} {op : List Symbol} {combine : Expr → Expr → Expr}
      {left right e : Expr} {ks ls : List TokenKind} (hn : n.operand? = some m)
      (hop : Connective n op combine) (hright : Derives (.tree m right) ks)
      (htail : Derives (.tail n (combine left right) e) ls) :
    Derives (.tail n left e) (op.map .symbol ++ ks ++ ls)
  | property {base e : Expr} {name : String} {ks : List TokenKind}
      (htail : Derives (.tail .access (.property base name) e) ks) :
    Derives (.tail .access base e) (.symbol .dot :: .ident name :: ks)
  | qualified {base e : Expr} {path name : String} {args : List Expr} {ks ls : List TokenKind}
      (hpath : base.path? = some path) (hargs : Derives (.items args) ks)
      (htail : Derives (.tail .access (.call (path ++ "." ++ name) args) e) ls) :
    Derives (.tail .access base e)
      (.symbol .dot :: .functionName name :: .symbol .leftParen :: ks
        ++ .symbol .rightParen :: ls)
  | index {base key e : Expr} {ks ls : List TokenKind} (hkey : Derives (.tree .disjunction key) ks)
      (htail : Derives (.tail .access (.index base key) e) ls) :
    Derives (.tail .access base e)
      (.symbol .leftBracket :: ks ++ .symbol .rightBracket :: ls)
  | not {e : Expr} {ks : List TokenKind} (he : Derives (.tree .negation e) ks) :
    Derives (.tree .negation (.not e)) (.symbol .wordNot :: ks)
  | notNegated {e : Expr} {ks : List TokenKind} (he : Derives (.tree .comparison e) ks) :
    Derives (.tree .negation e) ks
  | signed (op : UnaryOp) {e : Expr} {ks : List TokenKind} (he : Derives (.tree .sign e) ks) :
    Derives (.tree .sign (.unary op e)) (.symbol op.mark :: ks)
  | unsigned {e : Expr} {ks : List TokenKind} (he : Derives (.tree .access e) ks) :
    Derives (.tree .sign e) ks
  | terminal {k : TokenKind} {e : Expr} (h : Terminal k e) : Derives (.tree .operand e) [k]
  | duration {part : Int64 × DurationUnit} {parts : List (Int64 × DurationUnit)}
      {ks : List TokenKind} (hparts : Amounts (part :: parts) ks) :
    Derives (.tree .operand (.duration (part :: parts))) ks
  | relative {part : Int64 × DurationUnit} {parts : List (Int64 × DurationUnit)}
      {direction : Direction} {ks ls : List TokenKind} (hparts : Amounts (part :: parts) ks)
      (hdirection : Heading direction ls) :
    Derives (.tree .operand (.relative (.duration (part :: parts)) direction)) (ks ++ ls)
  | call (name : String) {args : List Expr} {ks : List TokenKind}
      (hargs : Derives (.items args) ks) :
    Derives (.tree .operand (.call name args))
      (.functionName name :: .symbol .leftParen :: ks ++ [.symbol .rightParen])
  | list {es : List Expr} {ks : List TokenKind} (hitems : Derives (.items es) ks) :
    Derives (.tree .operand (.list es))
      (.symbol .leftBracket :: ks ++ [.symbol .rightBracket])
  | object {entries : List (String × Expr)} {ks : List TokenKind}
      (hentries : Derives (.entries entries) ks) :
    Derives (.tree .operand (.object entries))
      (.symbol .leftBrace :: ks ++ [.symbol .rightBrace])
  | group {e : Expr} {ks : List TokenKind} (he : Derives (.tree .disjunction e) ks) :
    Derives (.tree .operand e) (.symbol .leftParen :: ks ++ [.symbol .rightParen])
  | noItems : Derives (.items []) []
  | someItems {e : Expr} {es : List Expr} {ks ls : List TokenKind}
      (he : Derives (.tree .disjunction e) ks) (hes : Derives (.moreItems es) ls) :
    Derives (.items (e :: es)) (ks ++ ls)
  | noMoreItems : Derives (.moreItems []) []
  | oneMoreItem {e : Expr} {es : List Expr} {ks ls : List TokenKind}
      (he : Derives (.tree .disjunction e) ks) (hes : Derives (.moreItems es) ls) :
    Derives (.moreItems (e :: es)) (.symbol .comma :: ks ++ ls)
  | noEntries : Derives (.entries []) []
  | someEntries {k : TokenKind} {key : String} {e : Expr} {entries : List (String × Expr)}
      {ks ls : List TokenKind} (hkey : KeyToken k key) (he : Derives (.tree .disjunction e) ks)
      (hentries : Derives (.moreEntries entries) ls) :
    Derives (.entries ((key, e) :: entries)) (k :: .symbol .colon :: ks ++ ls)
  | noMoreEntries : Derives (.moreEntries []) []
  | oneMoreEntry {k : TokenKind} {key : String} {e : Expr} {entries : List (String × Expr)}
      {ks ls : List TokenKind} (hkey : KeyToken k key) (he : Derives (.tree .disjunction e) ks)
      (hentries : Derives (.moreEntries entries) ls) :
    Derives (.moreEntries ((key, e) :: entries))
      (.symbol .comma :: k :: .symbol .colon :: ks ++ ls)

/-! ### Sequences -/

section

variable {α : Type}

/-- Members with a comma before each. -/
inductive Further (D : α → List TokenKind → Prop) : List α → List TokenKind → Prop where
  | nil : Further D [] []
  | cons {a : α} {as : List α} {ks ls : List TokenKind} (ha : D a ks) (has : Further D as ls) :
    Further D (a :: as) (.symbol .comma :: ks ++ ls)

/-- Members with commas between them. -/
inductive Separated (D : α → List TokenKind → Prop) : List α → List TokenKind → Prop where
  | nil : Separated D [] []
  | cons {a : α} {as : List α} {ks ls : List TokenKind} (ha : D a ks) (has : Further D as ls) :
    Separated D (a :: as) (ks ++ ls)

end

/-- A key of an object and the expression behind its colon, of which `D` holds. -/
inductive EntryOf (D : Expr → List TokenKind → Prop) : String × Expr → List TokenKind → Prop where
  | colon {k : TokenKind} {key : String} {e : Expr} {ks : List TokenKind} (hkey : KeyToken k key)
      (he : D e ks) :
    EntryOf D (key, e) (k :: .symbol .colon :: ks)

/-- What the grammar derives as an expression. -/
abbrev DerivesTree (e : Expr) (ks : List TokenKind) : Prop :=
  Derives (.tree .disjunction e) ks

namespace Derives

theorem moreItems {es : List Expr} {ks : List TokenKind}
    (h : Further DerivesTree es ks) :
  Derives (.moreItems es) ks
  := by
  induction h with
  | nil => apply noMoreItems
  | cons he _ ih => apply oneMoreItem he ih

theorem items {es : List Expr} {ks : List TokenKind}
    (h : Separated DerivesTree es ks) :
  Derives (.items es) ks
  := by
  cases h with
  | nil => apply noItems
  | cons he hes => apply someItems he (moreItems hes)

theorem moreEntries {entries : List (String × Expr)} {ks : List TokenKind}
    (h : Further (EntryOf DerivesTree) entries ks) :
  Derives (.moreEntries entries) ks
  := by
  induction h with
  | nil => apply noMoreEntries
  | cons hentry _ ih =>
    obtain ⟨hkey, he⟩ := hentry
    apply oneMoreEntry hkey he ih

theorem entries {entries : List (String × Expr)} {ks : List TokenKind}
    (h : Separated (EntryOf DerivesTree) entries ks) :
  Derives (.entries entries) ks
  := by
  cases h with
  | nil => apply noEntries
  | cons hentry hentries =>
    obtain ⟨hkey, he⟩ := hentry
    apply someEntries hkey he (moreEntries hentries)

end Derives

end RuleLang
