import RuleLang.Expr.Format

/-!
# Pairs of parentheses in formatted texts

Pieces are balanced if their parentheses around operands match.  `Omits inside ps qs` says that
`qs` is what is left of the pieces `ps` without one pair of such parentheses, around the pieces
`inside`.  A pair lies within one of the parts that pieces are made of.
-/

namespace RuleLang

/-! ### Balanced pieces -/

/-- What a piece adds to the number of open parentheses around operands. -/
def Piece.rise : Piece → Int
  | openGroup => 1
  | closeGroup => -1
  | _ => 0

/-- How many parentheses pieces open and do not close. -/
def rise : List Piece → Int
  | [] => 0
  | p :: ps => p.rise + rise ps

@[simp] theorem rise_nil : rise [] = 0 := rfl

@[simp]
theorem rise_cons (p : Piece) (ps : List Piece) :
  rise (p :: ps) = p.rise + rise ps
  := rfl

@[simp]
theorem rise_append (ps qs : List Piece) :
  rise (ps ++ qs) = rise ps + rise qs
  := by
  induction ps with
  | nil => simp
  | cons p ps ih =>
    rw [List.cons_append, rise_cons, rise_cons, ih]
    omega

@[simp] theorem Piece.rise_openGroup : Piece.openGroup.rise = 1 := rfl

@[simp] theorem Piece.rise_closeGroup : Piece.closeGroup.rise = -1 := rfl

/-- Pieces that close all parentheses that they open, and never one that they did not open. -/
structure Balanced (ps : List Piece) : Prop where
  settled : rise ps = 0
  sane : ∀ as bs, ps = as ++ bs → 0 ≤ rise as

/-- Pieces without parentheses around operands. -/
def Flat (ps : List Piece) : Prop := ∀ p ∈ ps, p ≠ .openGroup ∧ p ≠ .closeGroup

theorem Flat.rise_eq {ps : List Piece} (h : Flat ps) :
  rise ps = 0
  := by
  induction ps with
  | nil => rfl
  | cons p ps ih =>
    obtain ⟨⟨hopen, hclose⟩, hps⟩ := List.forall_mem_cons.mp h
    rw [rise_cons, ih hps]
    cases p with
    | openGroup => contradiction
    | closeGroup => contradiction
    | _ => rfl

namespace Balanced

variable {ps qs : List Piece}

theorem flat (h : Flat ps) :
  Balanced ps
  := by
  refine ⟨h.rise_eq, ?_⟩
  rintro as bs rfl
  exact Int.le_of_eq (Flat.rise_eq fun p hp => h p (List.mem_append_left _ hp)).symm

theorem append (hps : Balanced ps) (hqs : Balanced qs) :
  Balanced (ps ++ qs)
  := by
  constructor
  · rw [rise_append, hps.settled, hqs.settled]
    rfl
  · intro as bs heq
    obtain ⟨cs, rfl, -⟩ | ⟨cs, rfl, rfl⟩ := List.append_eq_append_iff.mp heq
    · have hcs := hqs.sane cs bs (List.append_cancel_left (heq.trans (List.append_assoc ..)))
      rw [rise_append, hps.settled]
      omega
    · exact hps.sane as cs rfl

/-- Balanced pieces in parentheses. -/
theorem group (h : Balanced ps) :
  Balanced (.openGroup :: (ps ++ [.closeGroup]))
  := by
  constructor
  · simp [h.settled]
  · intro as bs heq
    cases as with
    | nil => exact Int.le_refl 0
    | cons a as =>
      obtain ⟨rfl, hrest⟩ := List.cons.inj heq
      obtain ⟨cs, rfl, hcs⟩ | ⟨cs, rfl, -⟩ := List.append_eq_append_iff.mp hrest
      · have hle : -1 ≤ rise cs := by
          obtain ⟨rfl, -⟩ | ⟨rfl, -⟩ := List.append_eq_singleton_iff.mp hcs.symm
          · decide
          · decide
        rw [rise_cons, rise_append, h.settled, Piece.rise_openGroup]
        omega
      · have has := h.sane as cs rfl
        rw [rise_cons, Piece.rise_openGroup]
        omega

end Balanced

/-! ### Pairs left out -/

/-- One pair of parentheses, around the pieces `inside`, is left out. -/
def Omits (inside ps qs : List Piece) : Prop :=
  Balanced inside ∧ ∃ before behind,
    ps = before ++ .openGroup :: (inside ++ .closeGroup :: behind)
      ∧ qs = before ++ (inside ++ behind)

namespace Omits

variable {inside ps ps' qs rs : List Piece}

theorem not_flat (h : Flat ps) :
  ¬Omits inside ps qs
  := by
  rintro ⟨-, before, behind, rfl, -⟩
  exact (h .openGroup (by simp)).1 rfl

/-- A pair in balanced pieces and others behind them is a pair in one of them. -/
theorem of_append (hps : Balanced ps) (h : Omits inside (ps ++ ps') rs) :
  (∃ qs, Omits inside ps qs ∧ rs = qs ++ ps') ∨ ∃ qs, Omits inside ps' qs ∧ rs = ps ++ qs
  := by
  obtain ⟨hinside, before, behind, heq, rfl⟩ := h
  obtain ⟨as, rfl, hps'⟩ | ⟨as, rfl, has⟩ := List.append_eq_append_iff.mp heq
  · -- the pair begins behind `ps`
    right
    refine ⟨as ++ (inside ++ behind), ⟨hinside, as, behind, hps', rfl⟩, ?_⟩
    rw [List.append_assoc]
  · obtain ⟨rfl, rfl⟩ | ⟨as, rfl, has⟩ := List.cons_eq_append_iff.mp has
    · right
      refine ⟨inside ++ behind, ⟨hinside, [], behind, rfl, rfl⟩, ?_⟩
      rw [List.append_nil]
    · -- it begins in `ps`, which does not leave it open
      have hopen := hps.settled
      have hbefore := hps.sane before (.openGroup :: as) rfl
      rw [rise_append, rise_cons, Piece.rise_openGroup] at hopen
      obtain ⟨cs, rfl, hcs⟩ | ⟨cs, rfl, -⟩ :=
        List.append_eq_append_iff.mp (List.cons.inj has).2
      · obtain ⟨rfl, -⟩ | ⟨cs, rfl, rfl⟩ := List.cons_eq_append_iff.mp hcs
        · rw [List.append_nil, hinside.settled] at hopen
          omega
        · left
          refine ⟨before ++ (inside ++ cs), ⟨hinside, before, cs, rfl, rfl⟩, ?_⟩
          simp
      · have has := hinside.sane as cs rfl
        omega

/-- A pair behind flat pieces. -/
theorem of_flat_append (as : List Piece) (has : Flat as) (h : Omits inside (as ++ ps) rs) :
  ∃ qs, Omits inside ps qs ∧ rs = as ++ qs
  := by
  obtain ⟨qs, hqs, -⟩ | hps := h.of_append (.flat has)
  · cases not_flat has hqs
  · exact hps

/-- A pair in front of flat pieces. -/
theorem of_append_flat {bs : List Piece} (hps : Balanced ps) (hbs : Flat bs)
    (h : Omits inside (ps ++ bs) rs) :
  ∃ qs, Omits inside ps qs ∧ rs = qs ++ bs
  := by
  obtain hps | ⟨qs, hqs, -⟩ := h.of_append hps
  · exact hps
  · cases not_flat hbs hqs

/-- A pair in balanced pieces in parentheses is the one around them or a pair in them. -/
theorem of_group (hps : Balanced ps) (h : Omits inside (.openGroup :: (ps ++ [.closeGroup])) rs) :
  (inside = ps ∧ rs = ps)
    ∨ ∃ qs, Omits inside ps qs ∧ rs = .openGroup :: (qs ++ [.closeGroup])
  := by
  obtain ⟨hinside, before, behind, heq, rfl⟩ := h
  cases before with
  | nil =>
    left
    obtain ⟨-, heq⟩ := List.cons.inj heq
    obtain rfl | ⟨behind, p, rfl⟩ := List.eq_nil_or_concat behind
    · obtain ⟨rfl, -⟩ := List.append_inj' heq rfl
      simp
    · -- else `ps` would close more than it opens
      have heq : ps ++ [.closeGroup] = inside ++ .closeGroup :: behind ++ [p] := by simpa using heq
      obtain ⟨rfl, -⟩ := List.append_inj' heq rfl
      have hclosed := hps.sane (inside ++ [.closeGroup]) behind (by simp)
      rw [rise_append, hinside.settled] at hclosed
      cases hclosed
  | cons p before =>
    right
    obtain ⟨rfl, heq⟩ := List.cons.inj heq
    obtain rfl | ⟨behind, p, rfl⟩ := List.eq_nil_or_concat behind
    · have heq : ps ++ [.closeGroup] = before ++ .openGroup :: inside ++ [.closeGroup] := by
        simpa using heq
      obtain ⟨rfl, -⟩ := List.append_inj' heq rfl
      have hopen := hps.settled
      have hbefore := hps.sane before (.openGroup :: inside) rfl
      rw [rise_append, rise_cons, hinside.settled, Piece.rise_openGroup] at hopen
      omega
    · have heq : ps ++ [.closeGroup]
          = before ++ .openGroup :: (inside ++ .closeGroup :: behind) ++ [p] := by simpa using heq
      obtain ⟨rfl, hlast⟩ := List.append_inj' heq rfl
      obtain rfl := List.singleton_inj.mp hlast
      refine ⟨before ++ (inside ++ behind), ⟨hinside, before, behind, rfl, rfl⟩, ?_⟩
      simp

end Omits

end RuleLang
