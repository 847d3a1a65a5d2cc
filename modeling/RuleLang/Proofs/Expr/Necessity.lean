import RuleLang.Proofs.Expr.Layout
import RuleLang.Proofs.Expr.RoundTrip

/-!
# Which parentheses are needed

With minimal parentheses the text of an expression is a layout that nests its operators as little
as any tokens that form the expression.  Without a pair around an operand that holds an operator,
it would nest them less, so that it is not read as the expression.  The only other operands that
are ever put in parentheses are durations, and theirs are not needed.
-/

namespace RuleLang

/-! ### Minimal parentheses -/

namespace Expr

/-- An operand that binds tightly enough for a level is read on it without parentheses. -/
theorem readsOn_of_precedence_le {n : Nonterminal} {e : Expr} (hn : 1 ≤ n.rank)
    (h : e.precedence ≤ n.rank) :
  e.ReadsOn n
  := by
  have hlevel : (levelOf e.precedence).rank ≤ n.rank := by
    rw [rank_levelOf e.precedence_le]
    exact Nat.max_le.mpr ⟨h, hn⟩
  cases e with
  | duration parts => exact Nat.zero_le _
  | relative d direction => exact Nat.zero_le _
  | _ => exact hlevel

/-- A duration is read on every level without parentheses. -/
theorem IsDuration.readsOn {e : Expr} (h : e.IsDuration) (n : Nonterminal) :
  e.ReadsOn n
  := by
  cases e with
  | duration parts => exact Nat.zero_le _
  | relative d direction => exact Nat.zero_le _
  | _ => cases h

end Expr

namespace Layout

variable {f : Format} {n m : Nonterminal} {e l r : Expr} {ps ls rs : List Piece}

/-- An operand in parentheses exactly if it binds too loosely. -/
theorem minimalOperand (hf : f.parens = .minimal) {required : Bool} (precedence : Nat)
    (hn : 1 ≤ n.rank) (hrequired : required = decide (n.rank < e.precedence))
    (h : Layout f Expr.ReadsOn (.whole e) e.nesting ps) :
  Layout f Expr.ReadsOn (.operand n e) (e.nestingOn n) (f.operand required precedence ps)
  := by
  have hwraps : f.wraps required precedence = required := by
    rw [Format.wraps, hf]
  rw [f.operand_eq, hwraps, Expr.nestingOn, ← hrequired]
  cases required with
  | true => exact .group hn (of_decide_eq_true hrequired.symm) h
  | false =>
    have hle := Nat.not_lt.mp (of_decide_eq_false hrequired.symm)
    exact .bare (Expr.readsOn_of_precedence_le hn hle) h

theorem minimalBinary {s : Symbol} {combine : Expr → Expr → Expr} {word : Bool} {text : String}
    (hf : f.parens = .minimal) (hop : Connective n [s] combine) (hn : n.operand? = some m)
    (hm : 1 ≤ m.rank) (hs : IsOperator word text s)
    (hl : Layout f Expr.ReadsOn (.whole l) l.nesting ls)
    (hr : Layout f Expr.ReadsOn (.whole r) r.nesting rs) :
  Layout f Expr.ReadsOn (.whole (combine l r)) (l.nestingOn n + .single + r.nestingOn m)
    (f.binary n.rank (f.operator word text) (l.precedence, ls) (r.precedence, rs))
  := by
  have hrank : m.rank + 1 = n.rank := by cases n <;> cases hn <;> rfl
  refine .binary hn hop hs (hl.minimalOperand hf _ (by omega) rfl) (hr.minimalOperand hf _ hm ?_)
  rw [← hrank]
  rfl

theorem minimalItems {es : List Expr}
    (h : ∀ e ∈ es, Layout f Expr.ReadsOn (.whole e) e.nesting (e.pieces f)) :
  Layout f Expr.ReadsOn (.items es) (Expr.itemsNesting es) (Expr.itemPieces f es)
  := by
  induction es with
  | nil => exact .noItems
  | cons e es ih =>
    obtain ⟨he, hes⟩ := List.forall_mem_cons.mp h
    cases es with
    | nil => exact .oneItem he
    | cons e' es => exact .someItems he (ih hes)

theorem minimalEntries {entries : List (String × Expr)}
    (h : ∀ entry ∈ entries,
      Layout f Expr.ReadsOn (.whole entry.2) entry.2.nesting (entry.2.pieces f)) :
  Layout f Expr.ReadsOn (.entries entries) (Expr.entriesNesting entries)
    (Expr.entryPieces f entries)
  := by
  induction entries with
  | nil => exact .noEntries
  | cons entry entries ih =>
    obtain ⟨key, e⟩ := entry
    obtain ⟨he, hentries⟩ := List.forall_mem_cons.mp h
    cases entries with
    | nil => exact .oneEntry he
    | cons entry' entries => exact .someEntries he (ih hentries)

end Layout

namespace Expr

/-- With minimal parentheses, an expression is written in a layout that nests no deeper than its
operands need. -/
theorem Written.layout {f : Format} {e : Expr} (hf : f.parens = .minimal) (h : e.Written) :
  Layout f ReadsOn (.whole e) e.nesting (e.pieces f)
  := by
  induction h with
  | int h => exact .leaf (.literal _) (.int h)
  | float h => exact .leaf (.literal _) (.float h)
  | str s => exact .leaf (.literal _) (.str s)
  | bool b => exact .leaf (.literal _) (.bool b)
  | date d => exact .leaf (.literal _) (.date d)
  | dateTime t => exact .leaf (.literal _) (.dateTime t)
  | var h => exact .leaf (.var _) (.var h)
  | property hbase hname ih =>
    exact .property hname (ih.minimalOperand hf _ (Nat.le_refl 1) rfl)
  | index hbase hkey ihbase ihkey =>
    exact .index (ihbase.minimalOperand hf _ (Nat.le_refl 1) rfl) ihkey
  | compare op hl hr ihl ihr =>
    exact (Layout.minimalBinary hf (.compare op) rfl (by decide) op.isOperator ihl ihr :)
  | arithmetic op hl hr ihl ihr =>
    have hop := op.isOperator
    cases op with
    | add => exact (Layout.minimalBinary hf .add rfl (by decide) hop ihl ihr :)
    | subtract => exact (Layout.minimalBinary hf .subtract rfl (by decide) hop ihl ihr :)
    | multiply => exact (Layout.minimalBinary hf .multiply rfl (by decide) hop ihl ihr :)
    | divide => exact (Layout.minimalBinary hf .divide rfl (by decide) hop ihl ihr :)
    | modulo => exact (Layout.minimalBinary hf .modulo rfl (by decide) hop ihl ihr :)
  | unary op he ih => exact .unary op (ih.minimalOperand hf _ (by decide) rfl)
  | and hl hr ihl ihr =>
    exact (Layout.minimalBinary hf .and rfl (by decide) isOperator_and ihl ihr :)
  | or hl hr ihl ihr =>
    exact (Layout.minimalBinary hf .or rfl (by decide) isOperator_or ihl ihr :)
  | not he ih => exact .not (ih.minimalOperand hf _ (by decide) rfl)
  | membership op hl hr ihl ihr =>
    exact (Layout.minimalBinary hf (.member op) rfl (by decide) op.isOperator ihl ihr :)
  | list h ih => exact .list (.minimalItems ih)
  | object h ih => exact .object (.minimalEntries ih)
  | call hname h ih => exact .call hname (.minimalItems ih)
  | duration h => exact .leaf (.duration _) (.duration h)
  | relative direction h => exact .leaf (.relative _ direction) (.relative direction h)

end Expr

/-- An operand that is put in parentheses holds an operator, unless it is a duration. -/
theorem Layout.operators_pos {f : Format} {Bare : Nonterminal → Expr → Prop} {e : Expr}
    {a : Nesting} {ps : List Piece} (h : Layout f Bare (.whole e) a ps) (hloose : 1 < e.precedence)
    (he : ¬e.IsDuration) :
  0 < a.operators
  := by
  cases h with
  | leaf hleaf _ =>
    cases hleaf with
    | literal l => cases hloose
    | var name => cases hloose
    | duration parts => cases he trivial
    | relative parts direction => cases he trivial
  | binary _ _ _ _ _ =>
    simp only [Nesting.operators_add, Nesting.operators_single]
    omega
  | unary _ _ =>
    simp only [Nesting.operators_add, Nesting.operators_single]
    omega
  | not _ =>
    simp only [Nesting.operators_add, Nesting.operators_single]
    omega
  | _ => simp [Expr.precedence] at hloose

/-! ### Texts without a pair -/

/-- A text is read as an expression, under every limit of the depth that is no less than the
number of its tokens. -/
def ReadsAs (cs : List Char) (e : Expr) : Prop :=
  ∃ tokens, tokenize cs = .ok tokens
    ∧ ∀ limit, tokens.length ≤ limit → Expr.ofTokens limit tokens = .ok e

theorem ReadsAs.unique {cs : List Char} {e e' : Expr} (h : ReadsAs cs e) (h' : ReadsAs cs e') :
  e = e'
  := by
  obtain ⟨tokens, htokens, hread⟩ := h
  obtain ⟨tokens', htokens', hread'⟩ := h'
  obtain rfl := Except.ok.inj (htokens.symm.trans htokens')
  have hle := Nat.le_refl tokens.length
  exact Except.ok.inj ((hread _ hle).symm.trans (hread' _ hle))

namespace Prints

variable {ps : List Piece} {ks : List TokenKind} {e : Expr}

/-- Printed pieces are divided into the tokens that they print, and the end of input. -/
theorem exists_tokens (h : Prints ps ks) :
  ∃ body last, tokenize (joined ps) = .ok (body ++ [last]) ∧ last.kind = .eof
    ∧ body.map Token.kind = ks ∧ ∀ t ∈ body, t.kind ≠ .eof
  := by
  have hspells := h [] [] closes_nil .nil
  rw [List.append_nil, List.append_nil] at hspells
  obtain ⟨tokens, htokens, hkinds⟩ := spells_iff.mp hspells
  obtain ⟨body, last, rfl, hlast, hbody⟩ := exists_spells_of_tokenize htokens
  rw [List.map_append] at hkinds
  exact ⟨body, last, htokens, hlast, (List.append_inj' hkinds rfl).1, ne_eof_of_spells hbody⟩

theorem readsAs (h : Prints ps ks) (hks : DerivesTree e ks) :
  ReadsAs (joined ps) e
  := by
  obtain ⟨body, last, htokens, hlast, rfl, -⟩ := h.exists_tokens
  exact ⟨_, htokens, fun limit hlimit => Expr.ofTokens_of_derives hlast hlimit hks⟩

theorem derives_of_read (h : Prints ps ks) {tokens : List Token} {limit : Nat}
    (htokens : tokenize (joined ps) = .ok tokens) (he : Expr.ofTokens limit tokens = .ok e) :
  DerivesTree e ks
  := by
  obtain ⟨body, last, htokens', hlast, rfl, hbody⟩ := h.exists_tokens
  obtain rfl := Except.ok.inj (htokens'.symm.trans htokens)
  exact Expr.derives_of_ofTokens hlast hbody he

end Prints

/-- A text of an expression that nests its operators less than the expression asks for is not
read as the expression. -/
theorem Layout.ofTokens_ne {f : Format} {Bare : Nonterminal → Expr → Prop} {e : Expr}
    {a : Nesting} {ps : List Piece} (h : Layout f Bare (.whole e) a ps)
    (hlt : a.pairs < e.nesting.pairs) {tokens : List Token} {limit : Nat}
    (htokens : tokenize (joined ps) = .ok tokens) :
  Expr.ofTokens limit tokens ≠ .ok e
  := by
  intro he
  obtain ⟨ks, hks⟩ := h.exists_lays
  obtain ⟨b, hb, hleast⟩ :=
    (hks.prints.derives_of_read htokens he).exists_nests hks.apart.unmerged
  obtain rfl := hks.nests.unique hb
  have hle : e.nestingOn .disjunction ≤ a := hleast
  rw [Expr.nestingOn_disjunction] at hle
  exact Nat.not_le_of_lt hlt hle.2

/-- A text of an expression in which only those operands are bare that are read so is read as the
expression. -/
theorem Layout.readsAs {f : Format} {e : Expr} {a : Nesting} {ps : List Piece}
    (h : Layout f Expr.ReadsOn (.whole e) a ps) :
  ReadsAs (joined ps) e
  := by
  obtain ⟨ks, hks⟩ := h.exists_lays
  exact hks.prints.readsAs ((hks.derives fun _ _ => id).raise (Nonterminal.rank_le _))

namespace Expr

/-- Every pair of minimal parentheses around an operand encloses the text of an expression.
Without the pair, the text of an expression that was read from some text is read as the expression
still if the pair encloses a duration, and under no limit of the depth otherwise. -/
theorem reads_without_pair {source : List Char} {tokens : List Token} {limit : Nat} {t : Expr}
    {f : Format} {before inside behind : List Piece} (htokens : tokenize source = .ok tokens)
    (ht : ofTokens limit tokens = .ok t) (hf : f.parens = .minimal)
    (hpieces : t.pieces f = before ++ .openGroup :: (inside ++ .closeGroup :: behind))
    (hinside : Balanced inside) :
  ∃ x, ReadsAs (joined inside) x
    ∧ (x.IsDuration → ReadsAs (joined (before ++ (inside ++ behind))) t)
    ∧ (¬x.IsDuration → ∀ tokens' limit',
      tokenize (joined (before ++ (inside ++ behind))) = .ok tokens' →
        ofTokens limit' tokens' ≠ .ok t)
  := by
  have hlayout := (written_of_ofTokens htokens ht).layout hf
  have homits : Omits inside (t.pieces f) (before ++ (inside ++ behind)) :=
    ⟨hinside, before, behind, hpieces, rfl⟩
  obtain ⟨n, x, b, hx, hloose, hrest⟩ := hlayout.loses homits
  refine ⟨x, hx.readsAs, ?_, ?_⟩
  · intro hduration
    obtain ⟨c, hc, -⟩ := hrest ReadsOn (fun _ _ => id) (hduration.readsOn n)
    exact hc.readsAs
  · intro hduration tokens' limit' htokens'
    -- wherever the operand stands bare, some operators have lost a pair
    obtain ⟨c, hc, heq⟩ := hrest (fun _ _ => True) (fun _ _ _ => trivial) trivial
    have hpairs : t.nesting.pairs = c.pairs + b.operators := congrArg Nesting.pairs heq
    have hoperators := hx.operators_pos hloose hduration
    exact hc.ofTokens_ne (by omega) htokens'

/-- The property of a duration is written with parentheses, and read without them. -/
theorem reads_without_pair_duration :
  let source := "1 day.x".toList
  let tokens : List Token := [⟨.int 1, ⟨0, 1⟩, 1, 1, 1⟩, ⟨.ident "day", ⟨2, 5⟩, 1, 3, 3⟩,
    ⟨.symbol .dot, ⟨5, 6⟩, 1, 6, 1⟩, ⟨.ident "x", ⟨6, 7⟩, 1, 7, 1⟩, ⟨.eof, ⟨7, 7⟩, 1, 8, 0⟩]
  let t : Expr := .property (.duration [(1, .days)]) "x"
  let inside : List Piece := [.text ['1'], .gap, .text ['d', 'a', 'y']]
  let behind : List Piece := [.text ['.'], .text ['x']]
  tokenize source = .ok tokens ∧ ofTokens defaultDepth tokens = .ok t
    ∧ t.canonical = "(1 day).x".toList
    ∧ t.pieces {} = [] ++ .openGroup :: (inside ++ .closeGroup :: behind) ∧ Balanced inside
    ∧ joined ([] ++ (inside ++ behind)) = source ∧ ReadsAs source t
  := by
  intro source tokens t inside behind
  have htokens : tokenize source = .ok tokens := rfl
  have ht : ofTokens defaultDepth tokens = .ok t := rfl
  have hpieces : t.pieces {} = [] ++ .openGroup :: (inside ++ .closeGroup :: behind) := rfl
  have hinside : Balanced inside := .flat (by simp [Flat, inside])
  obtain ⟨x, hx, hread, -⟩ := reads_without_pair htokens ht rfl hpieces hinside
  have hduration : Layout {} ReadsOn (.whole (.duration [(1, .days)])) 0 inside :=
    .leaf (.duration _) (.duration (by decide))
  obtain rfl := hx.unique hduration.readsAs
  exact ⟨htokens, ht, by decide, hpieces, hinside, rfl, hread trivial⟩

end Expr

end RuleLang
