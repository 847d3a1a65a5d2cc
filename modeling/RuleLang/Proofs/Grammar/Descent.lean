import RuleLang.Proofs.Grammar.Ends

/-!
# Derivations with their depth

`Descends p d ks` says that the grammar derives the tokens `ks` from the phrase `p`, and that
`d` is what reading them counts of the depth.  A `Descent` tells how many steps deeper than its
beginning a phrase leads, and how many of these its own chain keeps as long as it goes on; what
stands behind the phrase in the chain is read that much deeper.  Every derivation has a descent,
which leads no deeper than it goes over tokens.
-/

namespace RuleLang

/-- What is counted of the depth: how many steps deeper one comes, and how many steps deeper
one stays. -/
@[ext]
structure Descent where
  deepest : Nat
  kept : Nat
  kept_le : kept ≤ deepest
deriving DecidableEq, Repr

namespace Descent

/-- The descent that counts nothing. -/
def flat : Descent := ⟨0, 0, Nat.le_refl 0⟩

/-- One descent behind another begins where that stays. -/
instance : Append Descent where
  append a b :=
    ⟨max a.deepest (a.kept + b.deepest), a.kept + b.kept,
      Nat.le_trans (Nat.add_le_add_left b.kept_le _) (Nat.le_max_right _ _)⟩

/-- The descent of a chain that has ended. -/
def closed (d : Descent) : Descent := ⟨d.deepest, 0, Nat.zero_le _⟩

/-- The descent of what is read one step deeper. -/
def nested (d : Descent) : Descent := ⟨d.deepest + 1, 0, Nat.zero_le _⟩

/-- The descent of a step of a chain that counts `n` and comes to `d` from there. -/
def step (n : Nat) (d : Descent) : Descent := ⟨n + d.deepest, n, Nat.le_add_right _ _⟩

@[simp] theorem deepest_flat : flat.deepest = 0 := rfl

@[simp] theorem kept_flat : flat.kept = 0 := rfl

@[simp]
theorem deepest_append (a b : Descent) :
  (a ++ b).deepest = max a.deepest (a.kept + b.deepest)
  := rfl

@[simp] theorem kept_append (a b : Descent) : (a ++ b).kept = a.kept + b.kept := rfl

@[simp] theorem deepest_closed (d : Descent) : d.closed.deepest = d.deepest := rfl

@[simp] theorem kept_closed (d : Descent) : d.closed.kept = 0 := rfl

@[simp] theorem deepest_nested (d : Descent) : d.nested.deepest = d.deepest + 1 := rfl

@[simp] theorem kept_nested (d : Descent) : d.nested.kept = 0 := rfl

@[simp] theorem deepest_step (n : Nat) (d : Descent) : (step n d).deepest = n + d.deepest := rfl

@[simp] theorem kept_step (n : Nat) (d : Descent) : (step n d).kept = n := rfl

@[simp] theorem closed_closed (d : Descent) : d.closed.closed = d.closed := rfl

@[simp] theorem closed_nested (d : Descent) : d.nested.closed = d.nested := rfl

/-- How deep a chain comes that has ended is all that counts one step deeper. -/
theorem nested_congr {a b : Descent} (h : a.closed = b.closed) :
  a.nested = b.nested
  := by
  have hnested : a.closed.nested = b.closed.nested := by rw [h]
  exact hnested

theorem step_congr {a b : Descent} (n : Nat) (h : a.closed = b.closed) :
  step n a = step n b
  := by
  have hstep : step n a.closed = step n b.closed := by rw [h]
  exact hstep

@[simp]
theorem flat_append (d : Descent) :
  flat ++ d = d
  := by
  ext <;> simp

@[simp]
theorem append_flat (d : Descent) :
  d ++ flat = d
  := by
  have hle := d.kept_le
  ext
  · simp [hle]
  · simp

theorem append_assoc (a b c : Descent) :
  a ++ b ++ c = a ++ (b ++ c)
  := by
  ext
  · simp only [deepest_append, kept_append]
    omega
  · simp only [kept_append]
    omega

end Descent

/-- The rules of the grammar, with the descents of the phrases. -/
inductive Descends : Phrase → Descent → List TokenKind → Prop where
  | chain {n m : Nonterminal} {left e : Expr} {a b : Descent} {ks ls : List TokenKind}
      (hn : n.operand? = some m) (hleft : Descends (.tree m left) a ks)
      (htail : Descends (.tail n left e) b ls) :
    Descends (.tree n e) (a.closed ++ b) (ks ++ ls)
  | nil (n : Nonterminal) (e : Expr) : Descends (.tail n e e) .flat []
  | binary {n m : Nonterminal} {op : List Symbol} {combine : Expr → Expr → Expr}
      {left right e : Expr} {a b : Descent} {ks ls : List TokenKind} (hn : n.operand? = some m)
      (hop : Connective n op combine) (hright : Descends (.tree m right) a ks)
      (htail : Descends (.tail n (combine left right) e) b ls) :
    Descends (.tail n left e) (.step op.length a ++ b) (op.map .symbol ++ ks ++ ls)
  | property {base e : Expr} {name : String} {d : Descent} {ks : List TokenKind}
      (htail : Descends (.tail .access (.property base name) e) d ks) :
    Descends (.tail .access base e) (.step 1 .flat ++ d) (.symbol .dot :: .ident name :: ks)
  | qualified {base e : Expr} {path name : String} {args : List Expr} {a b : Descent}
      {ks ls : List TokenKind} (hpath : base.path? = some path)
      (hargs : Descends (.items args) a ks)
      (htail : Descends (.tail .access (.call (path ++ "." ++ name) args) e) b ls) :
    Descends (.tail .access base e) (.step 1 a ++ b)
      (.symbol .dot :: .functionName name :: .symbol .leftParen :: ks
        ++ .symbol .rightParen :: ls)
  | index {base key e : Expr} {a b : Descent} {ks ls : List TokenKind}
      (hkey : Descends (.tree .disjunction key) a ks)
      (htail : Descends (.tail .access (.index base key) e) b ls) :
    Descends (.tail .access base e) (.step 1 a.nested ++ b)
      (.symbol .leftBracket :: ks ++ .symbol .rightBracket :: ls)
  | not {e : Expr} {d : Descent} {ks : List TokenKind}
      (he : Descends (.tree .negation e) d ks) :
    Descends (.tree .negation (.not e)) d.nested (.symbol .wordNot :: ks)
  | notNegated {e : Expr} {d : Descent} {ks : List TokenKind}
      (he : Descends (.tree .comparison e) d ks) :
    Descends (.tree .negation e) d.closed ks
  | signed (op : UnaryOp) {e : Expr} {d : Descent} {ks : List TokenKind}
      (he : Descends (.tree .sign e) d ks) :
    Descends (.tree .sign (.unary op e)) d.nested (.symbol op.mark :: ks)
  | unsigned {e : Expr} {d : Descent} {ks : List TokenKind}
      (he : Descends (.tree .access e) d ks) :
    Descends (.tree .sign e) d.closed ks
  | terminal {k : TokenKind} {e : Expr} (h : Terminal k e) :
    Descends (.tree .operand e) .flat [k]
  | duration {part : Int64 × DurationUnit} {parts : List (Int64 × DurationUnit)}
      {ks : List TokenKind} (hparts : Amounts (part :: parts) ks) :
    Descends (.tree .operand (.duration (part :: parts))) .flat ks
  | relative {part : Int64 × DurationUnit} {parts : List (Int64 × DurationUnit)}
      {direction : Direction} {ks ls : List TokenKind} (hparts : Amounts (part :: parts) ks)
      (hdirection : Heading direction ls) :
    Descends (.tree .operand (.relative (.duration (part :: parts)) direction)) .flat (ks ++ ls)
  | call (name : String) {args : List Expr} {d : Descent} {ks : List TokenKind}
      (hargs : Descends (.items args) d ks) :
    Descends (.tree .operand (.call name args)) d
      (.functionName name :: .symbol .leftParen :: ks ++ [.symbol .rightParen])
  | list {es : List Expr} {d : Descent} {ks : List TokenKind}
      (hitems : Descends (.items es) d ks) :
    Descends (.tree .operand (.list es)) d
      (.symbol .leftBracket :: ks ++ [.symbol .rightBracket])
  | object {entries : List (String × Expr)} {d : Descent} {ks : List TokenKind}
      (hentries : Descends (.entries entries) d ks) :
    Descends (.tree .operand (.object entries)) d
      (.symbol .leftBrace :: ks ++ [.symbol .rightBrace])
  | group {e : Expr} {d : Descent} {ks : List TokenKind}
      (he : Descends (.tree .disjunction e) d ks) :
    Descends (.tree .operand e) d.nested (.symbol .leftParen :: ks ++ [.symbol .rightParen])
  | noItems : Descends (.items []) .flat []
  | someItems {e : Expr} {es : List Expr} {a b : Descent} {ks ls : List TokenKind}
      (he : Descends (.tree .disjunction e) a ks) (hes : Descends (.moreItems es) b ls) :
    Descends (.items (e :: es)) (a.nested ++ b) (ks ++ ls)
  | noMoreItems : Descends (.moreItems []) .flat []
  | oneMoreItem {e : Expr} {es : List Expr} {a b : Descent} {ks ls : List TokenKind}
      (he : Descends (.tree .disjunction e) a ks) (hes : Descends (.moreItems es) b ls) :
    Descends (.moreItems (e :: es)) (a.nested ++ b) (.symbol .comma :: ks ++ ls)
  | noEntries : Descends (.entries []) .flat []
  | someEntries {k : TokenKind} {key : String} {e : Expr} {entries : List (String × Expr)}
      {a b : Descent} {ks ls : List TokenKind} (hkey : KeyToken k key)
      (he : Descends (.tree .disjunction e) a ks)
      (hentries : Descends (.moreEntries entries) b ls) :
    Descends (.entries ((key, e) :: entries)) (a.nested ++ b) (k :: .symbol .colon :: ks ++ ls)
  | noMoreEntries : Descends (.moreEntries []) .flat []
  | oneMoreEntry {k : TokenKind} {key : String} {e : Expr} {entries : List (String × Expr)}
      {a b : Descent} {ks ls : List TokenKind} (hkey : KeyToken k key)
      (he : Descends (.tree .disjunction e) a ks)
      (hentries : Descends (.moreEntries entries) b ls) :
    Descends (.moreEntries ((key, e) :: entries)) (a.nested ++ b)
      (.symbol .comma :: k :: .symbol .colon :: ks ++ ls)

/-- What descends is derived. -/
theorem Descends.derives {p : Phrase} {d : Descent} {ks : List TokenKind}
    (h : Descends p d ks) :
  Derives p ks
  := by
  induction h with
  | chain hn hleft htail ihleft ihtail => exact .chain hn ihleft ihtail
  | nil n e => exact .nil n e
  | binary hn hop hright htail ihright ihtail => exact .binary hn hop ihright ihtail
  | property htail ih => exact .property ih
  | qualified hpath hargs htail ihargs ihtail => exact .qualified hpath ihargs ihtail
  | index hkey htail ihkey ihtail => exact .index ihkey ihtail
  | not he ih => exact .not ih
  | notNegated he ih => exact .notNegated ih
  | signed op he ih => exact .signed op ih
  | unsigned he ih => exact .unsigned ih
  | terminal h => exact .terminal h
  | duration hparts => exact .duration hparts
  | relative hparts hdirection => exact .relative hparts hdirection
  | call name hargs ih => exact .call name ih
  | list hitems ih => exact .list ih
  | object hentries ih => exact .object ih
  | group he ih => exact .group ih
  | noItems => exact .noItems
  | someItems he hes ihe ihes => exact .someItems ihe ihes
  | noMoreItems => exact .noMoreItems
  | oneMoreItem he hes ihe ihes => exact .oneMoreItem ihe ihes
  | noEntries => exact .noEntries
  | someEntries hkey he hentries ihe ihentries => exact .someEntries hkey ihe ihentries
  | noMoreEntries => exact .noMoreEntries
  | oneMoreEntry hkey he hentries ihe ihentries => exact .oneMoreEntry hkey ihe ihentries

/-- What is derived descends. -/
theorem Derives.exists_descends {p : Phrase} {ks : List TokenKind} (h : Derives p ks) :
  ∃ d, Descends p d ks
  := by
  induction h with
  | chain hn hleft htail ihleft ihtail =>
    obtain ⟨⟨a, ha⟩, b, hb⟩ := And.intro ihleft ihtail
    exact ⟨_, .chain hn ha hb⟩
  | nil n e => exact ⟨_, .nil n e⟩
  | binary hn hop hright htail ihright ihtail =>
    obtain ⟨⟨a, ha⟩, b, hb⟩ := And.intro ihright ihtail
    exact ⟨_, .binary hn hop ha hb⟩
  | property htail ih =>
    obtain ⟨d, hd⟩ := ih
    exact ⟨_, .property hd⟩
  | qualified hpath hargs htail ihargs ihtail =>
    obtain ⟨⟨a, ha⟩, b, hb⟩ := And.intro ihargs ihtail
    exact ⟨_, .qualified hpath ha hb⟩
  | index hkey htail ihkey ihtail =>
    obtain ⟨⟨a, ha⟩, b, hb⟩ := And.intro ihkey ihtail
    exact ⟨_, .index ha hb⟩
  | not he ih =>
    obtain ⟨d, hd⟩ := ih
    exact ⟨_, .not hd⟩
  | notNegated he ih =>
    obtain ⟨d, hd⟩ := ih
    exact ⟨_, .notNegated hd⟩
  | signed op he ih =>
    obtain ⟨d, hd⟩ := ih
    exact ⟨_, .signed op hd⟩
  | unsigned he ih =>
    obtain ⟨d, hd⟩ := ih
    exact ⟨_, .unsigned hd⟩
  | terminal h => exact ⟨_, .terminal h⟩
  | duration hparts => exact ⟨_, .duration hparts⟩
  | relative hparts hdirection => exact ⟨_, .relative hparts hdirection⟩
  | call name hargs ih =>
    obtain ⟨d, hd⟩ := ih
    exact ⟨_, .call name hd⟩
  | list hitems ih =>
    obtain ⟨d, hd⟩ := ih
    exact ⟨_, .list hd⟩
  | object hentries ih =>
    obtain ⟨d, hd⟩ := ih
    exact ⟨_, .object hd⟩
  | group he ih =>
    obtain ⟨d, hd⟩ := ih
    exact ⟨_, .group hd⟩
  | noItems => exact ⟨_, .noItems⟩
  | someItems he hes ihe ihes =>
    obtain ⟨⟨a, ha⟩, b, hb⟩ := And.intro ihe ihes
    exact ⟨_, .someItems ha hb⟩
  | noMoreItems => exact ⟨_, .noMoreItems⟩
  | oneMoreItem he hes ihe ihes =>
    obtain ⟨⟨a, ha⟩, b, hb⟩ := And.intro ihe ihes
    exact ⟨_, .oneMoreItem ha hb⟩
  | noEntries => exact ⟨_, .noEntries⟩
  | someEntries hkey he hentries ihe ihentries =>
    obtain ⟨⟨a, ha⟩, b, hb⟩ := And.intro ihe ihentries
    exact ⟨_, .someEntries hkey ha hb⟩
  | noMoreEntries => exact ⟨_, .noMoreEntries⟩
  | oneMoreEntry hkey he hentries ihe ihentries =>
    obtain ⟨⟨a, ha⟩, b, hb⟩ := And.intro ihe ihentries
    exact ⟨_, .oneMoreEntry hkey ha hb⟩

theorem Amounts.ne_nil {part : Int64 × DurationUnit} {parts : List (Int64 × DurationUnit)}
    {ks : List TokenKind} (h : Amounts (part :: parts) ks) :
  ks ≠ []
  := by
  rintro rfl
  cases h

/-- Every step deeper goes over a token, and a tree has a token besides. -/
theorem Descends.deepest_le {p : Phrase} {d : Descent} {ks : List TokenKind}
    (h : Descends p d ks) :
  match p with
  | .tree _ _ => d.deepest < ks.length
  | _ => d.deepest ≤ ks.length
  := by
  induction h with
  | duration hparts => exact List.length_pos_iff.mpr hparts.ne_nil
  | relative hparts hdirection =>
    have hlength := List.length_pos_iff.mpr hparts.ne_nil
    simp only [Descent.deepest_flat, List.length_append]
    omega
  | _ =>
    simp only [Descent.deepest_append, Descent.deepest_closed, Descent.kept_closed,
      Descent.deepest_nested, Descent.kept_nested, Descent.deepest_step, Descent.kept_step,
      Descent.deepest_flat, List.length_append, List.length_cons, List.length_nil,
      List.length_map] at *
    omega

end RuleLang
