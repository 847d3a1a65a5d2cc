import RuleLang.Proofs.Expr.Balance
import RuleLang.Proofs.Expr.Printing
import RuleLang.Proofs.Grammar.Nesting

/-!
# Layouts of expressions

`Layout f Bare p a ps` says that the pieces `ps` are a text for the portion `p` of a tree in which
every operand is either bare, where `Bare` allows it, or in parentheses, where it binds too loosely
for its place; `a` counts the operators of the text and the pairs of parentheses around them.  What
formats write is one such text.  Without a pair of its parentheses a layout is a layout again, and
where only such operands are bare as are read without parentheses, it is derived from its tree.
-/

namespace RuleLang

/-! ### Portions of trees -/

/-- What a part of the text of an expression is written for. -/
inductive Portion where
  /-- An expression, with no parentheses of its own. -/
  | whole (e : Expr)
  /-- An operand of a level. -/
  | operand (n : Nonterminal) (e : Expr)
  /-- Expressions with commas between them. -/
  | items (es : List Expr)
  /-- Entries of an object with commas between them. -/
  | entries (entries : List (String × Expr))

namespace Expr

/-- Whether an expression is a duration, or a duration counted from the present. -/
def IsDuration : Expr → Prop
  | duration _ | relative .. => True
  | _ => False

/-- The tightest level on which the text of an expression is read. -/
def level : Expr → Nonterminal
  | duration _ | relative .. => .operand
  | e => levelOf e.precedence

/-- The expressions that are written without operands. -/
inductive IsLeaf : Expr → Prop where
  | literal (l : Literal) : IsLeaf (literal l)
  | var (name : String) : IsLeaf (var name)
  | duration (parts : List (Int64 × DurationUnit)) : IsLeaf (duration parts)
  | relative (parts : List (Int64 × DurationUnit)) (direction : Direction) :
    IsLeaf (relative (duration parts) direction)

/-- Whether an operand of a level is read without parentheses. -/
def ReadsOn (n : Nonterminal) (e : Expr) : Prop := e.level.rank ≤ n.rank

end Expr

/-- The phrase from which a portion is derived. -/
def Portion.phrase : Portion → Phrase
  | whole e => .tree e.level e
  | operand n e => .tree n e
  | items es => .items es
  | entries members => .entries members

/-! ### Layouts -/

/-- Texts with parentheses around some of the operands that bind too loosely for their place. -/
inductive Layout (f : Format) (Bare : Nonterminal → Expr → Prop) :
    Portion → Nesting → List Piece → Prop where
  | leaf {e : Expr} (hleaf : e.IsLeaf) (he : e.Written) : Layout f Bare (.whole e) 0 (e.pieces f)
  | property {base : Expr} {name : String} {a : Nesting} {ps : List Piece}
      (hname : IsName name.toList) (hbase : Layout f Bare (.operand .access base) a ps) :
    Layout f Bare (.whole (.property base name)) a (ps ++ [.text ['.'], .text name.toList])
  | index {base key : Expr} {a b : Nesting} {ps qs : List Piece}
      (hbase : Layout f Bare (.operand .access base) a ps)
      (hkey : Layout f Bare (.whole key) b qs) :
    Layout f Bare (.whole (.index base key)) (a + b) (ps ++ f.enclose '[' ']' false qs)
  | binary {n m : Nonterminal} {s : Symbol} {combine : Expr → Expr → Expr} {word : Bool}
      {text : String} {l r : Expr} {a b : Nesting} {ps qs : List Piece}
      (hn : n.operand? = some m) (hop : Connective n [s] combine) (hs : IsOperator word text s)
      (hl : Layout f Bare (.operand n l) a ps) (hr : Layout f Bare (.operand m r) b qs) :
    Layout f Bare (.whole (combine l r)) (a + .single + b) (ps ++ f.operator word text ++ qs)
  | unary (op : UnaryOp) {e : Expr} {a : Nesting} {ps : List Piece}
      (he : Layout f Bare (.operand .sign e) a ps) :
    Layout f Bare (.whole (.unary op e)) (.single + a) (.text op.symbol.toList :: ps)
  | not {e : Expr} {a : Nesting} {ps : List Piece}
      (he : Layout f Bare (.operand .negation e) a ps) :
    Layout f Bare (.whole (.not e)) (.single + a) (.text "NOT".toList :: .gap :: ps)
  | list {es : List Expr} {a : Nesting} {ps : List Piece} (hes : Layout f Bare (.items es) a ps) :
    Layout f Bare (.whole (.list es)) a (f.enclose '[' ']' es.isEmpty ps)
  | object {entries : List (String × Expr)} {a : Nesting} {ps : List Piece}
      (hentries : Layout f Bare (.entries entries) a ps) :
    Layout f Bare (.whole (.object entries)) a (f.enclose '\x7b' '\x7d' entries.isEmpty ps)
  | call {name : String} {args : List Expr} {a : Nesting} {ps : List Piece} (hname : IsPath name)
      (hargs : Layout f Bare (.items args) a ps) :
    Layout f Bare (.whole (.call name args)) a.enclosed
      (.text name.toList :: f.enclose '(' ')' args.isEmpty ps)
  | bare {n : Nonterminal} {e : Expr} {a : Nesting} {ps : List Piece} (hbare : Bare n e)
      (he : Layout f Bare (.whole e) a ps) :
    Layout f Bare (.operand n e) a ps
  | group {n : Nonterminal} {e : Expr} {a : Nesting} {ps : List Piece}
      (hn : 1 ≤ n.rank) (hloose : n.rank < e.precedence) (he : Layout f Bare (.whole e) a ps) :
    Layout f Bare (.operand n e) a.enclosed (.openGroup :: (ps ++ [.closeGroup]))
  | noItems : Layout f Bare (.items []) 0 []
  | oneItem {e : Expr} {a : Nesting} {ps : List Piece} (he : Layout f Bare (.whole e) a ps) :
    Layout f Bare (.items [e]) a ps
  | someItems {e e' : Expr} {es : List Expr} {a b : Nesting} {ps qs : List Piece}
      (he : Layout f Bare (.whole e) a ps) (hes : Layout f Bare (.items (e' :: es)) b qs) :
    Layout f Bare (.items (e :: e' :: es)) (a + b) (ps ++ f.separator ',' ++ qs)
  | noEntries : Layout f Bare (.entries []) 0 []
  | oneEntry {key : String} {e : Expr} {a : Nesting} {ps : List Piece}
      (he : Layout f Bare (.whole e) a ps) :
    Layout f Bare (.entries [(key, e)]) a
      (.text (Format.keyText key.toList) :: f.separator ':' ++ ps)
  | someEntries {key : String} {e : Expr} {entry : String × Expr}
      {entries : List (String × Expr)} {a b : Nesting} {ps qs : List Piece}
      (he : Layout f Bare (.whole e) a ps)
      (hentries : Layout f Bare (.entries (entry :: entries)) b qs) :
    Layout f Bare (.entries ((key, e) :: entry :: entries)) (a + b)
      (.text (Format.keyText key.toList) :: f.separator ':' ++ ps ++ f.separator ',' ++ qs)

/-! ### Pieces of layouts -/

namespace Flat

variable {ps qs : List Piece}

theorem append (hps : Flat ps) (hqs : Flat qs) :
  Flat (ps ++ qs)
  := List.forall_mem_append.mpr ⟨hps, hqs⟩

theorem text (cs : List Char) : Flat [.text cs] := by simp [Flat]

theorem gap : Flat [.gap] := by simp [Flat]

theorem gaps (h : AreGaps ps) :
  Flat ps
  := by
  intro p hp
  rw [h p hp]
  simp

theorem separator (f : Format) (c : Char) :
  Flat (f.separator c)
  := (text [c]).append (.gaps (areGaps_wideGap f))

theorem operator (f : Format) (word : Bool) (text : String) :
  Flat (f.operator word text)
  := by
  have hwide : Flat f.wideGap := .gaps (areGaps_wideGap f)
  cases word with
  | true => exact gap.append ((Flat.text text.toList).append gap)
  | false => exact hwide.append ((Flat.text text.toList).append hwide)

theorem duration (parts : List (Int64 × DurationUnit)) :
  Flat (Format.durationPieces parts)
  := by
  fun_induction Format.durationPieces parts with
  | case1 => exact List.forall_mem_nil _
  | case2 n u => simp [Flat, Format.durationPieces.amount]
  | case3 n u rest hrest ih => simpa [Flat, Format.durationPieces.amount] using ih

theorem leaf {e : Expr} (f : Format) (h : e.IsLeaf) :
  Flat (e.pieces f)
  := by
  cases h with
  | literal l => apply text
  | var name => apply text
  | duration parts => apply duration
  | relative parts direction =>
    exact (duration parts).append (gap.append (text direction.words.toList))

end Flat

/-- Pieces in brackets stand between flat ones. -/
theorem enclose_eq (f : Format) (c d : Char) (empty : Bool) :
  ∃ as bs, Flat as ∧ Flat bs ∧ ∀ ps, f.enclose c d empty ps = as ++ (ps ++ bs)
  := by
  have hgap : Flat (f.innerGap empty) := .gaps (areGaps_innerGap f empty)
  refine ⟨_, _, (Flat.text [c]).append hgap, hgap.append (Flat.text [d]), ?_⟩
  intro ps
  simp [Format.enclose]

theorem Balanced.enclose {ps : List Piece} (f : Format) (c d : Char) (empty : Bool)
    (h : Balanced ps) :
  Balanced (f.enclose c d empty ps)
  := by
  obtain ⟨as, bs, has, hbs, heq⟩ := enclose_eq f c d empty
  rw [heq]
  exact (Balanced.flat has).append (h.append (.flat hbs))

/-- A pair in brackets. -/
theorem Omits.of_enclose {f : Format} {c d : Char} {empty : Bool} {inside ps rs : List Piece}
    (hps : Balanced ps) (h : Omits inside (f.enclose c d empty ps) rs) :
  ∃ qs, Omits inside ps qs ∧ rs = f.enclose c d empty qs
  := by
  obtain ⟨as, bs, has, hbs, heq⟩ := enclose_eq f c d empty
  rw [heq] at h
  obtain ⟨_, hbehind, rfl⟩ := h.of_flat_append as has
  obtain ⟨qs, hqs, rfl⟩ := hbehind.of_append_flat hps hbs
  exact ⟨qs, hqs, (heq qs).symm⟩

namespace Layout

variable {f : Format} {Bare Bare' : Nonterminal → Expr → Prop} {p : Portion} {a : Nesting}
  {ps : List Piece}

/-- A layout is one also if more operands may be bare. -/
theorem mono (hbare : ∀ n e, Bare n e → Bare' n e) (h : Layout f Bare p a ps) :
  Layout f Bare' p a ps
  := by
  induction h with
  | leaf hleaf he => exact .leaf hleaf he
  | property hname hbase ih => exact .property hname ih
  | index hbase hkey ihbase ihkey => exact .index ihbase ihkey
  | binary hn hop hs hl hr ihl ihr => exact .binary hn hop hs ihl ihr
  | unary op he ih => exact .unary op ih
  | not he ih => exact .not ih
  | list hes ih => exact .list ih
  | object hentries ih => exact .object ih
  | call hname hargs ih => exact .call hname ih
  | bare h he ih => exact .bare (hbare _ _ h) ih
  | group hn hloose he ih => exact .group hn hloose ih
  | noItems => exact .noItems
  | oneItem he ih => exact .oneItem ih
  | someItems he hes ihe ihes => exact .someItems ihe ihes
  | noEntries => exact .noEntries
  | oneEntry he ih => exact .oneEntry ih
  | someEntries he hentries ihe ihentries => exact .someEntries ihe ihentries

theorem balanced (h : Layout f Bare p a ps) :
  Balanced ps
  := by
  have htext : ∀ cs, Balanced [.text cs] := fun cs => .flat (.text cs)
  have hseparator : ∀ c, Balanced (f.separator c) := fun c => .flat (.separator f c)
  induction h with
  | leaf hleaf he => exact .flat (.leaf f hleaf)
  | property hname hbase ih => exact ih.append ((htext _).append (htext _))
  | index hbase hkey ihbase ihkey => exact ihbase.append (ihkey.enclose f _ _ _)
  | binary hn hop hs hl hr ihl ihr => exact (ihl.append (.flat (.operator f _ _))).append ihr
  | unary op he ih => exact (htext _).append ih
  | not he ih => exact (htext _).append ((Balanced.flat .gap).append ih)
  | list hes ih => exact ih.enclose f _ _ _
  | object hentries ih => exact ih.enclose f _ _ _
  | call hname hargs ih => exact (htext _).append (ih.enclose f _ _ _)
  | bare hbare he ih => exact ih
  | group hn hloose he ih => exact ih.group
  | noItems => exact .flat (List.forall_mem_nil _)
  | oneItem he ih => exact ih
  | someItems he hes ihe ihes => exact (ihe.append (hseparator _)).append ihes
  | noEntries => exact .flat (List.forall_mem_nil _)
  | oneEntry he ih => exact ((htext _).append (hseparator _)).append ih
  | someEntries he hentries ihe ihentries =>
    exact ((((htext _).append (hseparator _)).append ihe).append (hseparator _)).append ihentries

/-! ### Layouts without a pair -/

/-- What is left of a layout without one pair of its parentheses: the pair encloses a layout of an
operand `x`, and where that may be bare, the pieces `qs` are a layout of the portion still, which
counts less by what the pair counts. -/
def Loses (f : Format) (Bare : Nonterminal → Expr → Prop) (p : Portion) (a : Nesting)
    (inside qs : List Piece) : Prop :=
  ∃ (n : Nonterminal) (x : Expr) (b : Nesting), Layout f Bare (.whole x) b inside
    ∧ 1 < x.precedence
    ∧ ∀ Bare' : Nonterminal → Expr → Prop, (∀ n e, Bare n e → Bare' n e) → Bare' n x →
      ∃ c, Layout f Bare' p c qs ∧ a = c + .pair b.operators

/-- What a portion loses, a larger one loses too. -/
theorem Loses.of_part {p' : Portion} {inside qs rs : List Piece} {F : Nesting → Nesting}
    (hF : ∀ c k, F (c + .pair k) = F c + .pair k) (h : Loses f Bare p a inside qs)
    (hbuild : ∀ (Bare' : Nonterminal → Expr → Prop) c, (∀ n e, Bare n e → Bare' n e) →
      Layout f Bare' p c qs → Layout f Bare' p' (F c) rs) :
  Loses f Bare p' (F a) inside rs
  := by
  obtain ⟨n, x, b, hx, hloose, hrest⟩ := h
  refine ⟨n, x, b, hx, hloose, ?_⟩
  intro Bare' hbare hx'
  obtain ⟨c, hc, rfl⟩ := hrest Bare' hbare hx'
  exact ⟨F c, hbuild Bare' c hbare hc, hF c b.operators⟩

/-- A layout without one pair of its parentheses. -/
theorem loses (h : Layout f Bare p a ps) {inside qs : List Piece} (ho : Omits inside ps qs) :
  Loses f Bare p a inside qs
  := by
  have hleft : ∀ (b c : Nesting) k, c + .pair k + b = c + b + .pair k :=
    fun b c k => add_right_comm c (.pair k) b
  have hright : ∀ (b c : Nesting) k, b + (c + .pair k) = b + c + .pair k :=
    fun b c k => (add_assoc b c (.pair k)).symm
  induction h generalizing qs with
  | leaf hleaf he => cases Omits.not_flat (.leaf f hleaf) ho
  | property hname hbase ih =>
    obtain ⟨rs, hrs, rfl⟩ := ho.of_append_flat hbase.balanced ((Flat.text _).append (.text _))
    exact (ih hrs).of_part (F := id) (fun _ _ => rfl) fun _ _ _ h => .property hname h
  | index hbase hkey ihbase ihkey =>
    obtain ⟨rs, hrs, rfl⟩ | ⟨rs, hrs, rfl⟩ := ho.of_append hbase.balanced
    · exact (ihbase hrs).of_part (F := (· + _)) (hleft _)
        fun _ _ hbare h => .index h (hkey.mono hbare)
    · obtain ⟨ls, hls, rfl⟩ := hrs.of_enclose hkey.balanced
      exact (ihkey hls).of_part (F := (_ + ·)) (hright _)
        fun _ _ hbare h => .index (hbase.mono hbare) h
  | @binary n m s combine word text l r a b ps qs hn hop hs hl hr ihl ihr =>
    have hoperator : Flat (f.operator word text) := .operator f word text
    obtain ⟨rs, hrs, rfl⟩ | ⟨rs, hrs, rfl⟩ := ho.of_append (hl.balanced.append (.flat hoperator))
    · obtain ⟨ls, hls, rfl⟩ := hrs.of_append_flat hl.balanced hoperator
      exact (ihl hls).of_part (F := (· + .single + b)) (fun c k => by rw [hleft, hleft])
        fun _ _ hbare h => .binary hn hop hs h (hr.mono hbare)
    · exact (ihr hrs).of_part (F := (a + .single + ·)) (hright _)
        fun _ _ hbare h => .binary hn hop hs (hl.mono hbare) h
  | unary op he ih =>
    obtain ⟨rs, hrs, rfl⟩ := Omits.of_flat_append [_] (.text _) ho
    exact (ih hrs).of_part (F := (.single + ·)) (hright _) fun _ _ _ h => .unary op h
  | not he ih =>
    obtain ⟨rs, hrs, rfl⟩ :=
      Omits.of_flat_append [_, _] ((Flat.text _).append .gap) ho
    exact (ih hrs).of_part (F := (.single + ·)) (hright _) fun _ _ _ h => .not h
  | list hes ih =>
    obtain ⟨rs, hrs, rfl⟩ := ho.of_enclose hes.balanced
    exact (ih hrs).of_part (F := id) (fun _ _ => rfl) fun _ _ _ h => .list h
  | object hentries ih =>
    obtain ⟨rs, hrs, rfl⟩ := ho.of_enclose hentries.balanced
    exact (ih hrs).of_part (F := id) (fun _ _ => rfl) fun _ _ _ h => .object h
  | call hname hargs ih =>
    obtain ⟨rs, hrs, rfl⟩ := Omits.of_flat_append [_] (.text _) ho
    obtain ⟨ls, hls, rfl⟩ := hrs.of_enclose hargs.balanced
    exact (ih hls).of_part Nesting.enclosed_add_pair fun _ _ _ h => .call hname h
  | bare hbare he ih =>
    exact (ih ho).of_part (F := id) (fun _ _ => rfl) fun _ _ hmono h => .bare (hmono _ _ hbare) h
  | @group n e a ps hn hloose he ih =>
    obtain ⟨rfl, rfl⟩ | ⟨rs, hrs, rfl⟩ := ho.of_group he.balanced
    · -- the pair is the one around this operand
      refine ⟨n, e, a, he, Nat.lt_of_le_of_lt hn hloose, ?_⟩
      intro Bare' hmono hbare
      exact ⟨a, .bare hbare (he.mono hmono), rfl⟩
    · exact (ih hrs).of_part Nesting.enclosed_add_pair fun _ _ _ h => .group hn hloose h
  | noItems => cases Omits.not_flat (List.forall_mem_nil _) ho
  | oneItem he ih => exact (ih ho).of_part (F := id) (fun _ _ => rfl) fun _ _ _ h => .oneItem h
  | someItems he hes ihe ihes =>
    have hcomma : Flat (f.separator ',') := .separator f ','
    obtain ⟨rs, hrs, rfl⟩ | ⟨rs, hrs, rfl⟩ := ho.of_append (he.balanced.append (.flat hcomma))
    · obtain ⟨ls, hls, rfl⟩ := hrs.of_append_flat he.balanced hcomma
      exact (ihe hls).of_part (F := (· + _)) (hleft _)
        fun _ _ hbare h => .someItems h (hes.mono hbare)
    · exact (ihes hrs).of_part (F := (_ + ·)) (hright _)
        fun _ _ hbare h => .someItems (he.mono hbare) h
  | noEntries => cases Omits.not_flat (List.forall_mem_nil _) ho
  | @oneEntry key e a ps he ih =>
    have hkey : Flat (.text (Format.keyText key.toList) :: f.separator ':') :=
      (Flat.text _).append (.separator f ':')
    obtain ⟨rs, hrs, rfl⟩ := ho.of_flat_append _ hkey
    exact (ih hrs).of_part (F := id) (fun _ _ => rfl) fun _ _ _ h => .oneEntry h
  | @someEntries key e entry entries a b ps qs he hentries ihe ihentries =>
    have hkey : Flat (.text (Format.keyText key.toList) :: f.separator ':') :=
      (Flat.text _).append (.separator f ':')
    have hcomma : Flat (f.separator ',') := .separator f ','
    have hfirst := (Balanced.flat hkey).append he.balanced
    obtain ⟨rs, hrs, rfl⟩ | ⟨rs, hrs, rfl⟩ := ho.of_append (hfirst.append (.flat hcomma))
    · obtain ⟨ls, hls, rfl⟩ := hrs.of_append_flat hfirst hcomma
      obtain ⟨ts, hts, rfl⟩ := hls.of_flat_append _ hkey
      exact (ihe hts).of_part (F := (· + _)) (hleft _)
        fun _ _ hbare h => .someEntries h (hentries.mono hbare)
    · exact (ihentries hrs).of_part (F := (_ + ·)) (hright _)
        fun _ _ hbare h => .someEntries (he.mono hbare) h

end Layout

/-! ### Tokens of layouts -/

/-- What the text of a tree begins with: a character that no symbol before it takes along, and a
token that makes no negated test of a `NOT` before it. -/
def Portion.Starts : Portion → List Piece → List TokenKind → Prop
  | whole _, ps, ks | operand _ _, ps, ks =>
    Opening ps ∧ ∃ k rest, ks = k :: rest ∧ k ≠ .symbol .wordIn
  | items _, _, _ | entries _, _, _ => True

/-- The tokens `ks` are printed by a layout of a portion, with the operators and parentheses that
it counts, and they are derived from the portion if all its bare operands are read so. -/
structure Lays (Bare : Nonterminal → Expr → Prop) (p : Portion) (a : Nesting) (ps : List Piece)
    (ks : List TokenKind) : Prop where
  starts : p.Starts ps ks
  prints : Prints ps ks
  nests : Nests ks a
  apart : Apart ks
  derives : (∀ n e, Bare n e → e.ReadsOn n) → Derives p.phrase ks

theorem Connective.level_combine {n : Nonterminal} {s : Symbol} {combine : Expr → Expr → Expr}
    (h : Connective n [s] combine) (l r : Expr) :
  (combine l r).level = n
  := by
  generalize hop : [s] = op at h
  cases h with
  | notIn => cases hop
  | _ => rfl

theorem TokenKind.InLeaf.ne_wordIn {k : TokenKind} (h : k.InLeaf) :
  k ≠ .symbol .wordIn
  := by
  rintro rfl
  cases h .wordIn rfl

/-- The text of an operand with more behind it. -/
theorem Portion.Starts.append {n : Nonterminal} {e e' : Expr} {ps : List Piece}
    {ks : List TokenKind} (h : (operand n e).Starts ps ks) (qs : List Piece)
    (ls : List TokenKind) :
  (whole e').Starts (ps ++ qs) (ks ++ ls)
  := by
  obtain ⟨hopens, k, rest, rfl, hk⟩ := h
  exact ⟨hopens.append qs, k, rest ++ ls, rfl, hk⟩

namespace Lays

variable {f : Format} {Bare : Nonterminal → Expr → Prop} {n m : Nonterminal} {e l r : Expr}
  {a b : Nesting} {ps qs : List Piece} {ks ls : List TokenKind}

/-! ### Leaves -/

/-- The tokens of a leaf are no operators. -/
theorem leaf {k : TokenKind} (hks : ∀ l ∈ k :: ks, l.InLeaf) (hopens : Opening ps)
    (hprints : Prints ps (k :: ks)) (hderives : Derives (.tree .operand e) (k :: ks)) :
  Lays Bare (.whole e) 0 ps (k :: ks)
  where
  starts := ⟨hopens, k, ks, rfl, (hks k List.mem_cons_self).ne_wordIn⟩
  prints := hprints
  nests := .leaf hks
  apart := .leaf hks
  derives := fun _ => hderives.raise (Nat.zero_le _)

theorem exists_leaf (hleaf : e.IsLeaf) (he : e.Written) :
  ∃ ks, Lays Bare (.whole e) 0 (e.pieces f) ks
  := by
  cases hleaf with
  | literal l =>
    obtain ⟨k, hk, hopens, hprints⟩ := exists_prints_literal he
    exact ⟨[k], leaf (List.forall_mem_singleton.mpr hk.inLeaf) hopens hprints (.terminal hk)⟩
  | var name =>
    cases he with
    | var hname =>
      have hk : Terminal (.ident name) (.var name) := .var name
      exact ⟨[.ident name], leaf (List.forall_mem_singleton.mpr hk.inLeaf) (.name hname)
        (.ident hname) (.terminal hk)⟩
  | duration parts =>
    cases he with
    | duration h =>
      obtain ⟨ks, hks, hprints, -⟩ := exists_prints_amounts h
      obtain ⟨k, ks, rfl⟩ := List.exists_cons_of_ne_nil hks.ne_nil
      exact ⟨_, leaf hks.inLeaf (opening_duration f h) hprints (.duration hks)⟩
  | relative parts direction =>
    cases he with
    | relative _ h =>
      obtain ⟨ks, hks, hprints, -⟩ := exists_prints_amounts h
      obtain ⟨ls, hls, hprints', hparen⟩ := exists_prints_direction direction
      have hleaves := List.forall_mem_append.mpr ⟨hks.inLeaf, hls.inLeaf⟩
      have hopens := (opening_duration f h).append [.gap, .text direction.words.toList]
      have hderives := Derives.relative hks hls
      obtain ⟨k, ks, rfl⟩ := List.exists_cons_of_ne_nil hks.ne_nil
      exact ⟨_, leaf hleaves hopens (hprints.gap hprints' hparen) hderives⟩

/-! ### Operators and what stands behind operands -/

theorem property {name : String} (hname : IsName name.toList)
    (h : Lays Bare (.operand .access e) a ps ks) :
  Lays Bare (.whole (.property e name)) a (ps ++ [.text ['.'], .text name.toList])
    (ks ++ [.symbol .dot, .ident name])
  := by
  have hleaf : ∀ k ∈ [TokenKind.symbol .dot, .ident name], k.InLeaf := by
    simp [TokenKind.InLeaf]
  refine ⟨h.starts.append _ _, h.prints.property hname, ?_, h.apart.append (.leaf hleaf), ?_⟩
  · simpa using h.nests.append (.leaf hleaf)
  · intro hbare
    exact (h.derives hbare).extend rfl (.property (.nil _ (.property e name)))

theorem index {key : Expr} (h : Lays Bare (.operand .access e) a ps ks)
    (hkey : Lays Bare (.whole key) b qs ls) :
  Lays Bare (.whole (.index e key)) (a + b) (ps ++ f.enclose '[' ']' false qs)
    (ks ++ (.symbol .leftBracket :: ls ++ [.symbol .rightBracket]))
  := by
  refine ⟨h.starts.append _ _, h.prints.index f hkey.prints, h.nests.append hkey.nests.brackets,
    h.apart.append (hkey.apart.enclose (by decide) (by decide)), ?_⟩
  intro hbare
  have hkey := (hkey.derives hbare).raise (Nonterminal.rank_le _)
  exact (h.derives hbare).extend rfl (.index hkey (.nil _ (.index e key)))

theorem binary {s : Symbol} {combine : Expr → Expr → Expr} {word : Bool} {text : String}
    (hn : n.operand? = some m) (hop : Connective n [s] combine) (hs : IsOperator word text s)
    (hl : Lays Bare (.operand n l) a ps ks) (hr : Lays Bare (.operand m r) b qs ls) :
  Lays Bare (.whole (combine l r)) (a + .single + b) (ps ++ f.operator word text ++ qs)
    (ks ++ ([.symbol s] ++ ls))
  := by
  refine ⟨?_, hl.prints.operator f hs hr.starts.1 hr.prints, ?_,
    hl.apart.join hop.isOperator.2 hr.apart, ?_⟩
  · rw [List.append_assoc]
    exact hl.starts.append _ _
  · rw [add_assoc]
    exact hl.nests.append ((Nests.operator hop.isOperator.1).append hr.nests)
  · intro hbare
    rw [Portion.phrase, hop.level_combine]
    exact (hl.derives hbare).join hn hop (hr.derives hbare)

theorem unary (op : UnaryOp) (h : Lays Bare (.operand .sign e) a ps ks) :
  Lays Bare (.whole (.unary op e)) (.single + a) (.text op.symbol.toList :: ps)
    (.symbol op.mark :: ks)
  := by
  have hop : op.mark.isOperator := by cases op <;> rfl
  have hmark : op.mark ≠ .wordNot ∧ op.mark ≠ .wordIn := by cases op <;> decide
  refine ⟨⟨?_, _, ks, rfl, by simpa using hmark.2⟩, h.prints.signed op h.starts.1,
    (Nests.operator hop).append h.nests, .cons (by simpa using hmark.1) h.apart, ?_⟩
  · cases op <;> exact ⟨_, _, rfl, by decide, by decide⟩
  · intro hbare
    exact .signed op (h.derives hbare)

theorem not (h : Lays Bare (.operand .negation e) a ps ks) :
  Lays Bare (.whole (.not e)) (.single + a) (.text "NOT".toList :: .gap :: ps)
    (.symbol .wordNot :: ks)
  := by
  obtain ⟨-, k, rest, rfl, hk⟩ := h.starts
  refine ⟨⟨⟨'N', _, rfl, by decide, by decide⟩, _, _, rfl, by decide⟩, h.prints.negated,
    (Nests.operator rfl).append h.nests, .not hk h.apart, ?_⟩
  intro hbare
  exact .not (h.derives hbare)

/-! ### Brackets and sequences -/

theorem list {es : List Expr} {empty : Bool} (h : Lays Bare (.items es) a ps ks) :
  Lays Bare (.whole (.list es)) a (f.enclose '[' ']' empty ps)
    (.symbol .leftBracket :: ks ++ [.symbol .rightBracket])
  := by
  refine ⟨⟨⟨'[', _, rfl, by decide, by decide⟩, _, _, rfl, by decide⟩,
    brackets_square.prints_enclose f empty h.prints, h.nests.brackets,
    h.apart.enclose (by decide) (by decide), ?_⟩
  intro hbare
  exact (Derives.list (h.derives hbare)).raise (Nat.zero_le _)

theorem object {entries : List (String × Expr)} {empty : Bool}
    (h : Lays Bare (.entries entries) a ps ks) :
  Lays Bare (.whole (.object entries)) a (f.enclose '\x7b' '\x7d' empty ps)
    (.symbol .leftBrace :: ks ++ [.symbol .rightBrace])
  := by
  refine ⟨⟨⟨'\x7b', _, rfl, by decide, by decide⟩, _, _, rfl, by decide⟩,
    brackets_braces.prints_enclose f empty h.prints, h.nests.braces,
    h.apart.enclose (by decide) (by decide), ?_⟩
  intro hbare
  exact (Derives.object (h.derives hbare)).raise (Nat.zero_le _)

theorem exists_call {name : String} {args : List Expr} {empty : Bool} (hname : IsPath name)
    (h : Lays Bare (.items args) a ps ks) :
  ∃ ls, Lays Bare (.whole (.call name args)) a.enclosed
    (.text name.toList :: f.enclose '(' ')' empty ps) ls
  := by
  have hinside := brackets_parens.prints_enclose f empty h.prints
  have hapart := h.apart.enclose (s := .leftParen) (t := .rightParen) (by decide) (by decide)
  cases hname with
  | name hname =>
    have hleaf : ∀ k ∈ [TokenKind.functionName name], k.InLeaf := by simp [TokenKind.InLeaf]
    refine ⟨_, ⟨(Opening.name hname).append _, _, _, rfl, by simp⟩, hinside.functionName hname,
      ?_, .cons (by simp) hapart, ?_⟩
    · simpa using (Nests.leaf hleaf).append h.nests.parens
    · intro hbare
      exact (Derives.call name (h.derives hbare)).raise (Nat.zero_le _)
  | @dot path name hpath hname =>
    obtain ⟨base, ls, hbase, hls, hopens, hprints, hpathTokens⟩ := hpath.exists_prints
    obtain ⟨k, rest, rfl, -⟩ := hls.derives.tree_head
    have hpathLeaf : ∀ l ∈ k :: rest, l.InLeaf := by
      intro l hl
      obtain rfl | ⟨name, rfl⟩ := hpathTokens l hl
      · simp [TokenKind.InLeaf]
      · exact nofun
    have hleaf : ∀ l ∈ k :: rest ++ [.symbol .dot, .functionName name], l.InLeaf :=
      List.forall_mem_append.mpr ⟨hpathLeaf, by simp [TokenKind.InLeaf]⟩
    refine ⟨_, ⟨?_, k, _, rfl, (hpathLeaf k List.mem_cons_self).ne_wordIn⟩,
      hprints.qualified hname hinside, ?_, ?_, ?_⟩
    · rw [Opening, joined_dot]
      exact hopens.append _
    · simpa using (Nests.leaf hleaf).append h.nests.parens
    · simpa using (Apart.leaf hleaf).append hapart
    · intro hbare
      have hqualified := Derives.qualified hbase (h.derives hbare)
        (.nil _ (.call (path ++ "." ++ name) args))
      exact hls.derives.extend rfl hqualified

theorem bare (hbare : Bare n e) (h : Lays Bare (.whole e) a ps ks) :
  Lays Bare (.operand n e) a ps ks
  where
  starts := h.starts
  prints := h.prints
  nests := h.nests
  apart := h.apart
  derives := fun hall => (h.derives hall).raise (hall n e hbare)

theorem group (h : Lays Bare (.whole e) a ps ks) :
  Lays Bare (.operand n e) a.enclosed (.openGroup :: (ps ++ [.closeGroup]))
    (.symbol .leftParen :: ks ++ [.symbol .rightParen])
  := by
  refine ⟨⟨⟨'(', _, rfl, by decide, by decide⟩, _, _, rfl, by decide⟩,
    brackets_parens.prints rfl rfl h.prints, h.nests.parens,
    h.apart.enclose (by decide) (by decide), ?_⟩
  intro hbare
  exact (Derives.group ((h.derives hbare).raise (Nonterminal.rank_le _))).raise (Nat.zero_le _)

theorem oneItem (h : Lays Bare (.whole e) a ps ks) :
  Lays Bare (.items [e]) a ps ks
  := by
  refine ⟨trivial, h.prints, h.nests, h.apart, ?_⟩
  intro hbare
  have hone := Derives.someItems ((h.derives hbare).raise (Nonterminal.rank_le _)) .noMoreItems
  rwa [List.append_nil] at hone

theorem someItems {e' : Expr} {es : List Expr} (h : Lays Bare (.whole e) a ps ks)
    (hes : Lays Bare (.items (e' :: es)) b qs ls) :
  Lays Bare (.items (e :: e' :: es)) (a + b) (ps ++ f.separator ',' ++ qs)
    (ks ++ .symbol .comma :: ls)
  := by
  refine ⟨trivial, h.prints.separated isMark_comma (by decide) (by decide) hes.prints, ?_,
    h.apart.join (by decide) hes.apart, ?_⟩
  · simpa using h.nests.append (Nests.comma.append hes.nests)
  · intro hbare
    have he := (h.derives hbare).raise (Nonterminal.rank_le _)
    exact .someItems he (hes.derives hbare).further

theorem exists_oneEntry (key : String) (h : Lays Bare (.whole e) a ps ks) :
  ∃ ls, Lays Bare (.entries [(key, e)]) a
    (.text (Format.keyText key.toList) :: f.separator ':' ++ ps) ls
  := by
  obtain ⟨k, hk, hkey⟩ := exists_prints_key key
  have hleaf : ∀ l ∈ [k], l.InLeaf := List.forall_mem_singleton.mpr hk.inLeaf
  refine ⟨_, trivial, hkey.separated isMark_colon (by decide) (by decide) h.prints, ?_,
    (Apart.leaf hleaf).join (by decide) h.apart, ?_⟩
  · simpa using (Nests.leaf hleaf).append (Nests.colon.append h.nests)
  · intro hbare
    have he := (h.derives hbare).raise (Nonterminal.rank_le _)
    have hone := Derives.someEntries hk he .noMoreEntries
    rwa [List.append_nil] at hone

theorem exists_someEntries (key : String) {entry : String × Expr} {entries : List (String × Expr)}
    (h : Lays Bare (.whole e) a ps ks)
    (hentries : Lays Bare (.entries (entry :: entries)) b qs ls) :
  ∃ ts, Lays Bare (.entries ((key, e) :: entry :: entries)) (a + b)
    (.text (Format.keyText key.toList) :: f.separator ':' ++ ps ++ f.separator ',' ++ qs) ts
  := by
  obtain ⟨k, hk, hkey⟩ := exists_prints_key key
  have hleaf : ∀ l ∈ [k], l.InLeaf := List.forall_mem_singleton.mpr hk.inLeaf
  have hentry := hkey.separated (f := f) isMark_colon (by decide) (by decide) h.prints
  have hapart := (Apart.leaf hleaf).join (s := .colon) (by decide) h.apart
  have hnests := (Nests.leaf hleaf).append (Nests.colon.append h.nests)
  refine ⟨_, trivial, hentry.separated isMark_comma (by decide) (by decide) hentries.prints, ?_,
    hapart.join (by decide) hentries.apart, ?_⟩
  · simpa using hnests.append (Nests.comma.append hentries.nests)
  · intro hbare
    have he := (h.derives hbare).raise (Nonterminal.rank_le _)
    exact .someEntries hk he (hentries.derives hbare).furtherEntries

end Lays

/-- Every layout prints tokens. -/
theorem Layout.exists_lays {f : Format} {Bare : Nonterminal → Expr → Prop} {p : Portion}
    {a : Nesting} {ps : List Piece} (h : Layout f Bare p a ps) :
  ∃ ks, Lays Bare p a ps ks
  := by
  induction h with
  | leaf hleaf he => exact Lays.exists_leaf hleaf he
  | property hname hbase ih =>
    obtain ⟨ks, hks⟩ := ih
    exact ⟨_, hks.property hname⟩
  | index hbase hkey ihbase ihkey =>
    obtain ⟨⟨ks, hks⟩, ls, hls⟩ := And.intro ihbase ihkey
    exact ⟨_, hks.index hls⟩
  | binary hn hop hs hl hr ihl ihr =>
    obtain ⟨⟨ks, hks⟩, ls, hls⟩ := And.intro ihl ihr
    exact ⟨_, .binary hn hop hs hks hls⟩
  | unary op he ih =>
    obtain ⟨ks, hks⟩ := ih
    exact ⟨_, hks.unary op⟩
  | not he ih =>
    obtain ⟨ks, hks⟩ := ih
    exact ⟨_, hks.not⟩
  | list hes ih =>
    obtain ⟨ks, hks⟩ := ih
    exact ⟨_, hks.list⟩
  | object hentries ih =>
    obtain ⟨ks, hks⟩ := ih
    exact ⟨_, hks.object⟩
  | call hname hargs ih =>
    obtain ⟨ks, hks⟩ := ih
    exact hks.exists_call hname
  | bare hbare he ih =>
    obtain ⟨ks, hks⟩ := ih
    exact ⟨_, hks.bare hbare⟩
  | group hn hloose he ih =>
    obtain ⟨ks, hks⟩ := ih
    exact ⟨_, hks.group⟩
  | noItems => exact ⟨[], trivial, .nil, .nil, .nil, fun _ => .noItems⟩
  | oneItem he ih =>
    obtain ⟨ks, hks⟩ := ih
    exact ⟨_, hks.oneItem⟩
  | someItems he hes ihe ihes =>
    obtain ⟨⟨ks, hks⟩, ls, hls⟩ := And.intro ihe ihes
    exact ⟨_, hks.someItems hls⟩
  | noEntries => exact ⟨[], trivial, .nil, .nil, .nil, fun _ => .noEntries⟩
  | oneEntry he ih =>
    obtain ⟨ks, hks⟩ := ih
    exact hks.exists_oneEntry _
  | someEntries he hentries ihe ihentries =>
    obtain ⟨⟨ks, hks⟩, ls, hls⟩ := And.intro ihe ihentries
    exact hks.exists_someEntries _ hls

end RuleLang
