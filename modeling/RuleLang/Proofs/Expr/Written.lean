import RuleLang.Proofs.Grammar.Rules
import RuleLang.Proofs.Token.Lexing

/-!
# Expressions that can be written

The tokens of a text hold names, integers that are not negative and floats that some decimal
is read as.  So do the trees that such tokens form, and `Expr.Written` is what they have in
common: their durations have parts, only durations are counted from the present, and the
names of their functions are dotted paths.
-/

namespace RuleLang

open Lexeme

/-- Whether a token can stand in a text. -/
def TokenKind.Written : TokenKind → Prop
  | int n => 0 ≤ n.toInt
  | float x => ∃ text, readDecimal text = .ok x
  | ident name | functionName name => IsName name.toList
  | eof => False
  | _ => True

/-! ### Tokens of texts -/

/-- A lexeme that is a word is a name. -/
theorem isName_of_take {c : Char} {rest text : List Char}
    (h : take c rest = .ok (.word, text)) :
  IsName text
  := by
  unfold take at h
  split at h
  · rename_i hstart
    obtain ⟨hkind, rfl⟩ := Prod.mk.inj (Except.ok.inj h)
    have hstart' : isWordChar c := by simp [isWordChar, hstart]
    constructor
    · constructor
      · exact ⟨c, _, rfl, hstart⟩
      · intro d hd
        obtain rfl | hd := List.mem_cons.mp hd
        · apply hstart'
        · apply List.mem_takeWhile_imp hd
    · apply hkind
  · split at h
    · have hkind := congrArg Prod.fst (Except.ok.inj h)
      unfold numberPart at hkind
      dsimp only at hkind
      split at hkind
      · split at hkind
        · cases hkind
        · cases hkind
      · cases hkind
    · split at h
      · split at h
        · cases h
        · cases h
      · split at h
        · dsimp only at h
          split at h
          · cases h
          · cases h
        · split at h
          · cases h
          · cases h

/-- The token of a lexeme can stand in a text. -/
theorem written_of_kindBefore {c : Char} {rest text : List Char} {kind : LexemeKind}
    {k : TokenKind} {ks : List TokenKind} (htake : take c rest = .ok (kind, text))
    (hkind : kindBefore kind text ks = .ok k) :
  k.Written
  := by
  cases kind
  case symbol s =>
    obtain rfl := Except.ok.inj hkind
    trivial
  case word =>
    have hname : IsName (String.ofList text).toList := by
      rw [String.toList_ofList]
      apply isName_of_take htake
    obtain rfl := Except.ok.inj hkind
    split
    · apply hname
    · apply hname
  case truth b =>
    obtain rfl := Except.ok.inj hkind
    trivial
  case integer =>
    obtain ⟨n, hn, rfl⟩ := Except.map_eq_ok_iff.mp hkind
    simp only [readInteger] at hn
    split at hn
    · rename_i m hm
      obtain rfl := Except.ok.inj hn
      change 0 ≤ m.toInt
      rw [toInt_of_int64?_eq_some hm]
      apply Int.natCast_nonneg _
    · cases hn
  case decimal =>
    obtain ⟨x, hx, rfl⟩ := Except.map_eq_ok_iff.mp hkind
    exact ⟨text, hx⟩
  case string =>
    obtain ⟨s, hs, rfl⟩ := Except.map_eq_ok_iff.mp hkind
    trivial
  case date =>
    simp only [kindBefore, toKind, readDate] at hkind
    split at hkind
    · split at hkind
      · obtain rfl := Except.ok.inj hkind
        trivial
      · cases hkind
    · split at hkind
      · obtain rfl := Except.ok.inj hkind
        trivial
      · cases hkind

/-- Every token of a text can stand in one. -/
theorem written_of_spells {cs : List Char} {ks : List TokenKind} (h : Spells cs ks) :
  ∀ k ∈ ks, k.Written
  := by
  induction h with
  | nil => rintro k ⟨⟩
  | blank hc h ih => apply ih
  | lexeme hc htake hkind h ih =>
    intro k hk
    obtain rfl | hk := List.mem_cons.mp hk
    · apply written_of_kindBefore htake hkind
    · apply ih k hk

/-! ### Trees of such tokens -/

/-- A dotted path of names. -/
inductive IsPath : String → Prop where
  | name {s : String} (h : IsName s.toList) : IsPath s
  | dot {path name : String} (hpath : IsPath path) (hname : IsName name.toList) :
    IsPath (path ++ "." ++ name)

namespace Expr

/-- Whether an expression can be written. -/
inductive Written : Expr → Prop where
  | int {n : Int64} (h : 0 ≤ n.toInt) : Written (literal (.int n))
  | float {x : Float} (h : ∃ text, readDecimal text = .ok x) : Written (literal (.float x))
  | str (s : String) : Written (literal (.str s))
  | bool (b : Bool) : Written (literal (.bool b))
  | date (d : Date) : Written (literal (.date d))
  | dateTime (t : DateTime) : Written (literal (.dateTime t))
  | var {name : String} (h : IsName name.toList) : Written (var name)
  | property {base : Expr} {name : String} (hbase : Written base) (hname : IsName name.toList) :
    Written (property base name)
  | index {base key : Expr} (hbase : Written base) (hkey : Written key) :
    Written (index base key)
  | compare (op : CompareOp) {l r : Expr} (hl : Written l) (hr : Written r) :
    Written (compare op l r)
  | arithmetic (op : ArithmeticOp) {l r : Expr} (hl : Written l) (hr : Written r) :
    Written (arithmetic op l r)
  | unary (op : UnaryOp) {e : Expr} (he : Written e) : Written (unary op e)
  | and {l r : Expr} (hl : Written l) (hr : Written r) : Written (and l r)
  | or {l r : Expr} (hl : Written l) (hr : Written r) : Written (or l r)
  | not {e : Expr} (he : Written e) : Written (not e)
  | membership (op : MembershipOp) {l r : Expr} (hl : Written l) (hr : Written r) :
    Written (membership op l r)
  | list {items : List Expr} (h : ∀ e ∈ items, Written e) : Written (list items)
  | object {entries : List (String × Expr)} (h : ∀ entry ∈ entries, Written entry.2) :
    Written (object entries)
  | call {name : String} {args : List Expr} (hname : IsPath name) (h : ∀ e ∈ args, Written e) :
    Written (call name args)
  | duration {part : Int64 × DurationUnit} {parts : List (Int64 × DurationUnit)}
      (h : ∀ p ∈ part :: parts, 0 ≤ p.1.toInt) :
    Written (duration (part :: parts))
  | relative {part : Int64 × DurationUnit} {parts : List (Int64 × DurationUnit)}
      (direction : Direction) (h : ∀ p ∈ part :: parts, 0 ≤ p.1.toInt) :
    Written (relative (duration (part :: parts)) direction)

/-- The path of a chain of properties that can be written is one of names. -/
theorem Written.isPath {e : Expr} {path : String} (h : Written e) (hpath : e.path? = some path) :
  IsPath path
  := by
  induction h generalizing path with
  | var h =>
    obtain rfl := Option.some.inj hpath
    exact .name h
  | property hbase hname ih =>
    obtain ⟨basePath, hbasePath, rfl⟩ := Option.map_eq_some_iff.mp hpath
    exact .dot (ih hbasePath) hname
  | _ => cases hpath

/-- Two trees that a connective joins make one that can be written. -/
theorem Written.combine {n : Nonterminal} {op : List Symbol} {combine : Expr → Expr → Expr}
    {l r : Expr} (h : Connective n op combine) (hl : Written l) (hr : Written r) :
  Written (combine l r)
  := by
  cases h with
  | or => exact .or hl hr
  | bars => exact .or hl hr
  | and => exact .and hl hr
  | ampersands => exact .and hl hr
  | compare op => exact .compare op hl hr
  | member op => exact .membership op hl hr
  | notIn => exact .not (.membership .isIn hl hr)
  | add => exact .arithmetic _ hl hr
  | subtract => exact .arithmetic _ hl hr
  | multiply => exact .arithmetic _ hl hr
  | divide => exact .arithmetic _ hl hr
  | modulo => exact .arithmetic _ hl hr

end Expr

/-- What is shown of a phrase: its trees can be written, those of a tail if its first tree
can. -/
def Phrase.Written : Phrase → Prop
  | tree _ e => e.Written
  | tail _ left e => left.Written → e.Written
  | items es | moreItems es => ∀ e ∈ es, e.Written
  | entries members | moreEntries members => ∀ entry ∈ members, entry.2.Written

theorem written_of_amounts {parts : List (Int64 × DurationUnit)} {ks : List TokenKind}
    (h : Amounts parts ks) (hks : ∀ k ∈ ks, k.Written) :
  ∀ p ∈ parts, 0 ≤ p.1.toInt
  := by
  induction h with
  | nil => rintro p ⟨⟩
  | @cons n word unit parts ks hunit hparts ih =>
    intro p hp
    obtain rfl | hp := List.mem_cons.mp hp
    · apply hks (.int n) List.mem_cons_self
    · exact ih (fun k hk => hks k (by simp [hk])) p hp

/-- The trees of tokens that can stand in a text can be written. -/
theorem written_of_derives {p : Phrase} {ks : List TokenKind} (h : Derives p ks)
    (hks : ∀ k ∈ ks, k.Written) :
  p.Written
  := by
  induction h with
  | chain hn hleft htail ihleft ihtail =>
    exact ihtail (fun k hk => hks k (by simp [hk])) (ihleft fun k hk => hks k (by simp [hk]))
  | nil n e => apply id
  | binary hn hop hright htail ihright ihtail =>
    intro hleft
    apply ihtail fun k hk => hks k (by simp [hk])
    exact hleft.combine hop (ihright fun k hk => hks k (by simp [hk]))
  | property htail ih =>
    intro hbase
    apply ih fun k hk => hks k (by simp [hk])
    exact .property hbase (hks (.ident _) (by simp))
  | qualified hpath hargs htail ihargs ihtail =>
    intro hbase
    apply ihtail fun k hk => hks k (by simp [hk])
    exact .call (.dot (hbase.isPath hpath) (hks (.functionName _) (by simp)))
      (ihargs fun k hk => hks k (by simp [hk]))
  | index hkey htail ihkey ihtail =>
    intro hbase
    apply ihtail fun k hk => hks k (by simp [hk])
    exact .index hbase (ihkey fun k hk => hks k (by simp [hk]))
  | not he ih => exact .not (ih fun k hk => hks k (by simp [hk]))
  | notNegated he ih => apply ih hks
  | signed op he ih => exact .unary op (ih fun k hk => hks k (by simp [hk]))
  | unsigned he ih => apply ih hks
  | terminal h =>
    have hk := hks _ (List.mem_singleton_self _)
    cases h with
    | int n => exact .int hk
    | float x => exact .float hk
    | str s => exact .str s
    | bool b => exact .bool b
    | date d => exact .date d
    | dateTime t => exact .dateTime t
    | var name => exact .var hk
  | duration hparts => exact .duration (written_of_amounts hparts hks)
  | relative hparts hdirection =>
    exact .relative _ (written_of_amounts hparts fun k hk => hks k (by simp [hk]))
  | call name hargs ih =>
    exact .call (.name (hks (.functionName _) (by simp))) (ih fun k hk => hks k (by simp [hk]))
  | list hitems ih => exact .list (ih fun k hk => hks k (by simp [hk]))
  | object hentries ih => exact .object (ih fun k hk => hks k (by simp [hk]))
  | group he ih => exact ih fun k hk => hks k (by simp [hk])
  | noItems => rintro e ⟨⟩
  | someItems he hes ihe ihes =>
    exact List.forall_mem_cons.mpr ⟨ihe fun k hk => hks k (by simp [hk]),
      ihes fun k hk => hks k (by simp [hk])⟩
  | noMoreItems => rintro e ⟨⟩
  | oneMoreItem he hes ihe ihes =>
    exact List.forall_mem_cons.mpr ⟨ihe fun k hk => hks k (by simp [hk]),
      ihes fun k hk => hks k (by simp [hk])⟩
  | noEntries => rintro e ⟨⟩
  | someEntries hkey he hentries ihe ihentries =>
    exact List.forall_mem_cons.mpr ⟨ihe fun k hk => hks k (by simp [hk]),
      ihentries fun k hk => hks k (by simp [hk])⟩
  | noMoreEntries => rintro e ⟨⟩
  | oneMoreEntry hkey he hentries ihe ihentries =>
    exact List.forall_mem_cons.mpr ⟨ihe fun k hk => hks k (by simp [hk]),
      ihentries fun k hk => hks k (by simp [hk])⟩

end RuleLang
