import RuleLang.Proofs.Grammar.Height

/-!
# Highest expressions

How high an expression can be under a limit of the depth is attained.  `Parser.tower` is such an
expression for what is left of the depth: a date counted from the present, and for every further
step of the depth a list around it and seven chains around the list, each with as many steps as
are left.
-/

namespace RuleLang

namespace Expr

theorem height_pos
    (e : Expr) :
  0 < e.height
  := by
  cases e <;> simp [height]

/-- An expression with `k` steps around it. -/
def pile (join : Expr → Expr) : (k : Nat) → Expr → Expr
  | 0, e => e
  | k + 1, e => pile join k (join e)

theorem height_pile {join : Expr → Expr} (h : ∀ e, (join e).height = e.height + 1)
    (k : Nat) (e : Expr) :
  (pile join k e).height = e.height + k
  := by
  induction k generalizing e with
  | zero => rfl
  | succ k ih =>
    rw [pile, ih, h]
    omega

end Expr

namespace Parser

/-! ### Steps of chains -/

/-- A token at no place. -/
def bare (k : TokenKind) : Token := ⟨k, .point 0, 1, 1, 0⟩

/-- The right operand of every step. -/
def yes : Expr := .literal (.bool true)

/-- The tokens of `k` steps. -/
def links (link : List Token) (k : Nat) : List Token := (List.replicate k link).flatten

/-- A step of a nonterminal whose operands are of the nonterminal `m`: what it makes of an
expression, and its tokens. -/
inductive Link : (n m : Nonterminal) → (Expr → Expr) → List Token → Prop where
  | property : Link .access .operand (.property · "a") [bare (.symbol .dot), bare (.ident "a")]
  | connective {n m : Nonterminal} {s : Symbol} {combine : Expr → Expr → Expr}
      (hn : n.operand? = some m) (hop : Connective n [s] combine) :
    Link n m (combine · yes) [bare (.symbol s), bare (.bool true)]

variable {limit depth k : Nat} {last : Token} {nest : Level → Parser Expr} {n m : Nonterminal}
  {join : Expr → Expr} {link read rest : List Token} {e left : Expr}

theorem Link.operand?_eq (h : Link n m join link) :
  n.operand? = some m
  := by
  cases h with
  | property => rfl
  | connective hn hop => apply hn

theorem Link.length_pos (h : Link n m join link) :
  0 < link.length
  := by
  cases h with
  | property => apply Nat.succ_pos
  | connective hn hop => apply Nat.succ_pos

/-- A step begins with a symbol of its level. -/
theorem Link.kindAhead_eq (h : Link n m join link) (last : Token) (rest : List Token) :
  ∃ s, kindAhead last (link ++ rest) = .symbol s ∧ s.rank = n.rank
  := by
  cases h with
  | property => exact ⟨.dot, rfl, rfl⟩
  | @connective n m s combine hn hop =>
    obtain ⟨s', _, hsymbol, hrank⟩ := hop.exists_head
    obtain rfl := (List.cons.inj hsymbol).1
    exact ⟨s, rfl, hrank⟩

/-- Before steps the operands end. -/
theorem Link.stops (h : Link n m join link) (hstops : n.Stops (kindAhead last rest)) (k : Nat) :
  m.Stops (kindAhead last (links link k ++ rest))
  := by
  have hrank := Nonterminal.rank_lt_of_operand? h.operand?_eq
  cases k with
  | zero => exact hstops.mono (Nat.le_of_lt hrank)
  | succ k =>
    obtain ⟨s, hs, hsrank⟩ := h.kindAhead_eq last (links link k ++ rest)
    have hlinks : links link (k + 1) ++ rest = link ++ (links link k ++ rest) := by
      simp [links, List.replicate_succ]
    rw [hlinks, hs]
    change m.rank < s.rank
    rw [hsrank]
    apply hrank

/-! ### Readings at one depth -/

variable (limit last nest depth) in
/-- At the depth, the nonterminal `n` reads `e` from the tokens `read`, whatever stands behind
them and ends it. -/
def ReadsAt (n : Nonterminal) (e : Expr) (read : List Token) : Prop :=
  ∀ rest, n.Stops (kindAhead last rest) →
    (ofNonterminal nest n).Yields limit ⟨⟨read ++ rest, last⟩, depth⟩ e ⟨⟨rest, last⟩, depth⟩

/-- A step goes one step deeper. -/
theorem Link.yields_step (h : Link n m join link)
    (hyes : ∀ d ≤ limit, ReadsAt limit d last nest m yes [bare (.bool true)])
    (hdepth : depth < limit) (hstops : m.Stops (kindAhead last rest)) (left : Expr) :
  (stepOf nest n left).Yields limit ⟨⟨link ++ rest, last⟩, depth⟩ (some (join left))
    ⟨⟨rest, last⟩, depth + 1⟩
  := by
  cases h with
  | property =>
    apply yields_bind_current.mpr
    apply yields_bind_deepen.mpr
    use hdepth
    apply yields_bind_advance.mpr
    apply yields_bind.mpr
    use .property left "a", ⟨⟨rest, last⟩, depth + 1⟩
    constructor
    · apply yields_bind_current.mpr
      apply yields_bind_advance.mpr
      exact yields_pure.mpr ⟨rfl, rfl⟩
    · exact yields_pure.mpr ⟨rfl, rfl⟩
  | @connective n m s combine hn hop =>
    have hsymbol : [bare (.symbol s)].map Token.kind = [s].map .symbol := rfl
    have hright := hyes (depth + 1) hdepth rest hstops
    change Yields _ limit ⟨⟨[bare (.symbol s)] ++ (bare (.bool true) :: rest), last⟩, depth⟩ _ _
    exact yields_stepOf_connective hn hop hsymbol hdepth hright

/-- Steps are taken as long as the depth allows. -/
theorem Link.yields_steps (h : Link n m join link)
    (hyes : ∀ d ≤ limit, ReadsAt limit d last nest m yes [bare (.bool true)])
    (hdepth : depth + k ≤ limit) (hstops : n.Stops (kindAhead last rest)) {ahead : List Token}
    (hahead : k ≤ ahead.length) (left : Expr) :
  ∃ d, (steps (stepOf nest n) ahead left).Yields limit ⟨⟨links link k ++ rest, last⟩, depth⟩
    (Expr.pile join k left) ⟨⟨rest, last⟩, d⟩
  := by
  induction k generalizing depth ahead left with
  | zero =>
    use depth
    cases ahead with
    | nil => exact yields_pure.mpr ⟨rfl, rfl⟩
    | cons token ahead =>
      apply yields_bind.mpr
      use none, ⟨⟨rest, last⟩, depth⟩, yields_stepOf_none hstops
      exact yields_pure.mpr ⟨rfl, rfl⟩
  | succ k ih =>
    cases ahead with
    | nil => cases hahead
    | cons token ahead =>
      have hdeeper : depth + 1 + k ≤ limit := by omega
      obtain ⟨d, hsteps⟩ := ih hdeeper (Nat.le_of_succ_le_succ hahead) (join left)
      have hstep := h.yields_step hyes (by omega : depth < limit) (h.stops hstops k) left
      have hlinks : links link (k + 1) ++ rest = link ++ (links link k ++ rest) := by
        simp [links, List.replicate_succ]
      use d
      rw [hlinks]
      apply yields_bind.mpr
      use some (join left), ⟨⟨links link k ++ rest, last⟩, depth + 1⟩, hstep
      apply hsteps

/-- A chain is read around an operand. -/
theorem Link.readsAt (h : Link n m join link)
    (hyes : ∀ d ≤ limit, ReadsAt limit d last nest m yes [bare (.bool true)])
    (hdepth : depth + k ≤ limit) (hread : ReadsAt limit depth last nest m e read) :
  ReadsAt limit depth last nest n (Expr.pile join k e) (read ++ links link k)
  := by
  intro rest hstops
  have hlength : k ≤ (links link k ++ rest).length := by
    have hpos := Nat.mul_le_mul_left k h.length_pos
    simp only [links, List.length_append, List.length_flatten, List.map_replicate,
      List.sum_replicate_nat]
    omega
  obtain ⟨d, hsteps⟩ := h.yields_steps hyes hdepth hstops hlength e
  rw [ofNonterminal_eq_chain _ h.operand?_eq, List.append_assoc]
  apply yields_chain.mpr
  use e, ⟨⟨links link k ++ rest, last⟩, depth⟩, ⟨⟨rest, last⟩, d⟩
  use hread _ (h.stops hstops k), hsteps

/-! ### Chains on all levels -/

/-- Whether tokens begin as an operand does. -/
def Opens (read : List Token) : Prop :=
  ∃ token rest, read = token :: rest ∧ Nonterminal.operand.Begins token.kind

theorem ReadsAt.sign (h : ReadsAt limit depth last nest .access e read) (hopens : Opens read) :
  ReadsAt limit depth last nest .sign e read
  := by
  intro rest hstops
  have haccess := h rest (hstops.mono (by decide))
  obtain ⟨⟨kind, _⟩, behind, rfl, hbegins⟩ := hopens
  apply yields_bind_current.mpr
  cases kind
  case symbol s =>
    cases s
    case minus => cases (by decide : ¬2 ≤ 0) hbegins
    case bang => cases (by decide : ¬2 ≤ 0) hbegins
    all_goals exact haccess
  all_goals exact haccess

theorem ReadsAt.negation (h : ReadsAt limit depth last nest .comparison e read)
    (hopens : Opens read) :
  ReadsAt limit depth last nest .negation e read
  := by
  intro rest hstops
  have hcomparison := h rest (hstops.mono (by decide))
  obtain ⟨⟨kind, _⟩, behind, rfl, hbegins⟩ := hopens
  apply yields_bind_current.mpr
  apply yields_ite.mpr
  right
  constructor
  · intro hnot
    obtain rfl : kind = .symbol .wordNot := hnot
    cases (by decide : ¬7 ≤ 0) hbegins
  · apply hcomparison

variable (limit last nest) in
/-- What the nonterminal `n` reads around operands: an expression with `k` steps on each level
of chains, if there are as many left of the depth. -/
structure Piles (n : Nonterminal) (around : Nat → Expr → Expr) (behind : Nat → List Token) :
    Prop where
  around_zero : ∀ e, around 0 e = e
  behind_zero : behind 0 = []
  readsAt : ∀ {depth k e read}, Opens read → depth + k ≤ limit →
    ReadsAt limit depth last nest .operand e read →
    ReadsAt limit depth last nest n (around k e) (read ++ behind k)

theorem readsAt_yes :
  ReadsAt limit depth last nest .operand yes [bare (.bool true)]
  := by
  intro rest hstops
  apply yields_bind_current.mpr
  apply yields_bind_advance.mpr
  exact yields_pure.mpr ⟨rfl, rfl⟩

namespace Piles

variable {around : Nat → Expr → Expr} {behind : Nat → List Token}

theorem operand :
  Piles limit last nest .operand (fun _ e => e) (fun _ => [])
  where
  around_zero _ := rfl
  behind_zero := rfl
  readsAt {_ _ _ read} _ _ h := by
    rw [List.append_nil]
    apply h

theorem readsAt_yes (h : Piles limit last nest n around behind) {d : Nat} (hd : d ≤ limit) :
  ReadsAt limit d last nest n yes [bare (.bool true)]
  := by
  have hopens : Opens [bare (.bool true)] := ⟨_, [], rfl, trivial⟩
  have hyes := h.readsAt hopens (k := 0) hd Parser.readsAt_yes
  rw [h.around_zero, h.behind_zero] at hyes
  apply hyes

theorem chain (h : Piles limit last nest m around behind) (hlink : Link n m join link) :
  Piles limit last nest n (fun k e => Expr.pile join k (around k e))
    (fun k => behind k ++ links link k)
  where
  around_zero := h.around_zero
  behind_zero := by
    rw [h.behind_zero]
    rfl
  readsAt hopens hdepth hread := by
    rw [← List.append_assoc]
    apply hlink.readsAt (fun d hd => h.readsAt_yes hd) hdepth
    apply h.readsAt hopens hdepth hread

theorem sign (h : Piles limit last nest .access around behind) :
  Piles limit last nest .sign around behind
  where
  around_zero := h.around_zero
  behind_zero := h.behind_zero
  readsAt hopens hdepth hread := by
    apply (h.readsAt hopens hdepth hread).sign
    obtain ⟨token, rest, rfl, hbegins⟩ := hopens
    exact ⟨token, _, rfl, hbegins⟩

theorem negation (h : Piles limit last nest .comparison around behind) :
  Piles limit last nest .negation around behind
  where
  around_zero := h.around_zero
  behind_zero := h.behind_zero
  readsAt hopens hdepth hread := by
    apply (h.readsAt hopens hdepth hread).negation
    obtain ⟨token, rest, rfl, hbegins⟩ := hopens
    exact ⟨token, _, rfl, hbegins⟩

end Piles

/-- An expression with `k` steps of every chain around it. -/
def chains (k : Nat) (e : Expr) : Expr :=
  let e := Expr.pile (.property · "a") k e
  let e := Expr.pile (.arithmetic .multiply · yes) k e
  let e := Expr.pile (.arithmetic .add · yes) k e
  let e := Expr.pile (.membership .isIn · yes) k e
  let e := Expr.pile (.compare .equal · yes) k e
  let e := Expr.pile (.and · yes) k e
  Expr.pile (.or · yes) k e

/-- The tokens of `k` steps of every chain. -/
def chainTokens (k : Nat) : List Token :=
  links [bare (.symbol .dot), bare (.ident "a")] k
    ++ links [bare (.symbol .star), bare (.bool true)] k
    ++ links [bare (.symbol .plus), bare (.bool true)] k
    ++ links [bare (.symbol .wordIn), bare (.bool true)] k
    ++ links [bare (.symbol .equal), bare (.bool true)] k
    ++ links [bare (.symbol .wordAnd), bare (.bool true)] k
    ++ links [bare (.symbol .wordOr), bare (.bool true)] k

theorem piles_chains :
  Piles limit last nest .disjunction chains chainTokens
  := by
  have hsigns : Piles limit last nest .sign _ _ := (Piles.operand.chain .property).sign
  have hproducts := hsigns.chain (.connective rfl .multiply)
  have hsums := hproducts.chain (.connective rfl .add)
  have hmemberships := hsums.chain (.connective rfl (.member .isIn))
  have hnegations := (hmemberships.chain (.connective rfl (.compare .equal))).negation
  have hconjunctions := hnegations.chain (.connective rfl .and)
  exact hconjunctions.chain (.connective rfl .or)

/-- Seven chains grow by seven times as much as each of them. -/
theorem height_chains
    (k : Nat) (e : Expr) :
  (chains k e).height = e.height + 7 * k
  := by
  have hbinary {node : Expr → Expr → Expr}
      (hnode : ∀ l r, (node l r).height = max l.height r.height + 1) (e : Expr) :
      (node e yes).height = e.height + 1 := by
    have hpos := e.height_pos
    rw [hnode]
    change max e.height 1 + 1 = _
    omega
  unfold chains
  dsimp only
  rw [Expr.height_pile (hbinary fun _ _ => rfl), Expr.height_pile (hbinary fun _ _ => rfl),
    Expr.height_pile (hbinary fun _ _ => rfl), Expr.height_pile (hbinary fun _ _ => rfl),
    Expr.height_pile (hbinary fun _ _ => rfl), Expr.height_pile (hbinary fun _ _ => rfl),
    Expr.height_pile fun _ => rfl]
  omega

/-! ### Towers -/

/-- The highest expression for what is left of the depth. -/
def tower : (room : Nat) → Expr
  | 0 => .relative (.duration [(1, .days)]) .ago
  | room + 1 => chains (room + 1) (.list [tower room])

/-- The tokens of the highest expression. -/
def towerTokens : (room : Nat) → List Token
  | 0 => [bare (.int 1), bare (.ident "day"), bare (.ident "ago")]
  | room + 1 =>
    bare (.symbol .leftBracket) :: (towerTokens room ++ [bare (.symbol .rightBracket)])
      ++ chainTokens (room + 1)

theorem height_tower
    (room : Nat) :
  (tower room).height = Expr.tallest (room + 1)
  := by
  induction room with
  | zero => rfl
  | succ room ih =>
    have hlow : 2 ≤ Expr.tallest (room + 1) := by
      rw [Expr.tallest]
      omega
    have hlist : (Expr.list [tower room]).height = (tower room).height + 1 := by
      rw [Expr.height, Expr.itemsHeight, Expr.itemsHeight, Nat.max_zero]
    rw [tower, height_chains, hlist, ih, Expr.tallest.eq_2 (room + 1)]
    omega

theorem opens_towerTokens
    (room : Nat) :
  Opens (towerTokens room)
  := by
  cases room with
  | zero => exact ⟨_, _, rfl, trivial⟩
  | succ room => exact ⟨_, _, rfl, trivial⟩

/-- A list of one item is read if there is a step left to read the item. -/
theorem ReadsAt.list {fuel : Nat}
    (h : ReadsAt limit (depth + 1) last (level fuel) .disjunction e read) (hopens : Opens read)
    (hdepth : depth < limit) :
  ReadsAt limit depth last (level (fuel + 1)) .operand (.list [e])
    (bare (.symbol .leftBracket) :: (read ++ [bare (.symbol .rightBracket)]))
  := by
  intro rest hstops
  have hitem : Yields (level (fuel + 1) .expression) limit
      ⟨⟨read ++ bare (.symbol .rightBracket) :: rest, last⟩, depth⟩ e
      ⟨⟨bare (.symbol .rightBracket) :: rest, last⟩, depth⟩ := by
    apply yields_nested.mpr
    use hdepth, ⟨⟨bare (.symbol .rightBracket) :: rest, last⟩, depth + 1⟩
    constructor
    · apply h
      exact Nat.lt_succ_self 9
    · rfl
  rw [List.cons_append, List.append_assoc]
  apply yields_bind_current.mpr
  apply yields_bind_advance.mpr
  apply yields_bind.mpr
  use [e], ⟨⟨rest, last⟩, depth⟩
  constructor
  · obtain ⟨token, behind, rfl, hbegins⟩ := hopens
    apply yields_bind_eat.mpr
    right
    constructor
    · intro hclose
      have hkind : token.kind = .symbol .rightBracket := hclose
      rw [hkind] at hbegins
      cases hbegins
    · apply yields_bind_get.mpr
      apply yields_bind.mpr
      use e, ⟨⟨bare (.symbol .rightBracket) :: rest, last⟩, depth⟩, hitem
      apply yields_bind_eat.mpr
      right
      use nofun
      apply yields_bind_eat.mpr
      left
      use rfl
      exact yields_pure.mpr ⟨rfl, rfl⟩
  · exact yields_pure.mpr ⟨rfl, rfl⟩

/-- The tokens of a tower are read as the tower where its room is left. -/
theorem readsAt_tower
    (room : Nat) (h : depth + room = limit) :
  ReadsAt limit depth last (level room) .disjunction (tower room) (towerTokens room)
  := by
  induction room generalizing depth with
  | zero =>
    have hoperand : ReadsAt limit depth last (level 0) .operand (tower 0) (towerTokens 0) := by
      intro rest hstops
      have hamounts : [bare (.int 1), bare (.ident "day")].map Token.kind
          = [.int 1, .ident "day"] := rfl
      have hwords : [bare (.ident "ago")].map Token.kind = [.ident "ago"] := rfl
      have hparts : Amounts [(1, .days)] [.int 1, .ident "day"] := .cons (by decide) .nil
      have hword : kindAhead last ([bare (.ident "ago")] ++ rest) = .ident "ago" := rfl
      have hint : ∀ n, kindAhead last ([bare (.ident "ago")] ++ rest) ≠ .int n := by
        rw [hword]
        nofun
      have hfloat : ∀ x, kindAhead last ([bare (.ident "ago")] ++ rest) ≠ .float x := by
        rw [hword]
        nofun
      exact yields_primary_duration hparts hamounts hint hfloat
        (yields_direction?_some (.ago (by decide)) hwords rest)
    have hpiles : Piles limit last (level 0) .disjunction chains chainTokens := piles_chains
    have htower := hpiles.readsAt (opens_towerTokens 0) (Nat.le_of_eq h) hoperand
    rw [hpiles.around_zero, hpiles.behind_zero, List.append_nil] at htower
    apply htower
  | succ room ih =>
    have hlist := (ih (by omega : depth + 1 + room = limit)).list (opens_towerTokens room)
      (by omega)
    exact piles_chains.readsAt ⟨_, _, rfl, trivial⟩ (Nat.le_of_eq h) hlist

end Parser

namespace Expr

/-- Under every limit of the depth some expression is read that is as high as the limit
allows. -/
theorem exists_height_eq
    (room : Nat) :
  ∃ tokens e, ofTokens (room + 1) tokens = .ok e ∧ e.height = tallest (room + 1)
  := by
  let tokens := Parser.towerTokens room ++ [Parser.bare .eof]
  use tokens, Parser.tower room
  constructor
  · apply ofTokens_eq_ok_iff.mpr
    use ⟨⟨[Parser.bare .eof], .endOf tokens⟩, 0⟩
    constructor
    · apply Parser.yields_nested.mpr
      have hroom : 1 + room = room + 1 := Nat.add_comm 1 room
      use Nat.succ_pos room, ⟨⟨[Parser.bare .eof], .endOf tokens⟩, 1⟩
      use Parser.readsAt_tower room hroom _ trivial
      rfl
    · rfl
  · apply Parser.height_tower

/-- An expression that is read can be higher than the limit of the depth, whatever the limit.
How high it can be is `tallest`, which grows with the square of the limit. -/
theorem height_ofTokens
    (limit : Nat) :
  (∀ tokens e, ofTokens limit tokens = .ok e → e.height ≤ tallest limit)
    ∧ (0 < limit → limit < tallest limit
      ∧ ∃ tokens e, ofTokens limit tokens = .ok e ∧ e.height = tallest limit)
  := by
  constructor
  · intro tokens e
    apply height_le_of_ofTokens
  · intro hlimit
    obtain ⟨room, rfl⟩ := Nat.exists_eq_add_of_lt hlimit
    rw [Nat.zero_add]
    have hsquare := two_mul_tallest room
    constructor
    · omega
    · apply exists_height_eq

/-- Under the limit two, `-1 + 2` is read, whose height is three: the sum is a step deeper than the
negation that it holds, but the negation has given back its own. -/
theorem height_ofTokens_sum :
  let tokens := [.symbol .minus, .int 1, .symbol .plus, .int 2, .eof].map Parser.bare
  let e : Expr := .arithmetic .add (.unary .minus (.literal (.int 1))) (.literal (.int 2))
  ofTokens 2 tokens = .ok e ∧ 2 < e.height ∧ e.height ≤ tallest 2
  := by
  intro tokens e
  have hread : ofTokens 2 tokens = .ok e := rfl
  exact ⟨hread, by decide, (height_ofTokens 2).1 tokens e hread⟩

end Expr

end RuleLang
