import RuleLang.Engine
import RuleLang.Proofs.Calendar.Reading
import RuleLang.Proofs.Expr.RoundTrip
import RuleLang.Proofs.Json.Reading
import RuleLang.Value.Wire

/-!
# Constants as documents

The values of literals and of lists of them, which are the values that programs of
expressions hold.  A constant is read from the document that it is written as, and the
document from its text.  The names in programs of expressions are dotted paths, and the amounts
are not negative.
-/

namespace RuleLang

/-- Whether a value is that of a literal or of a list of constants. -/
inductive Value.IsConstant : Value → Prop
  | int (n : Int64) : IsConstant (int n)
  | float {x : Float} (h : x.isFinite) : IsConstant (float x)
  | str (s : String) : IsConstant (str s)
  | bool (b : Bool) : IsConstant (bool b)
  | date (d : Date) : IsConstant (date d)
  | dateTime (t : DateTime) : IsConstant (dateTime t)
  | list {items : List Value} (h : ∀ v ∈ items, IsConstant v) : IsConstant (list items)

namespace Value

/-! ### Documents of constants -/

theorem itemsToJson_eq_map
    (items : List Value) :
  itemsToJson items = items.map toJson
  := by
  induction items with
  | nil => rfl
  | cons v rest ih => rw [itemsToJson, ih, List.map_cons]

/-- Values that are read one by one are read together. -/
theorem itemsOfJson_map {items : List Value} (h : ∀ v ∈ items, ofJson v.toJson = .ok v) :
  itemsOfJson (items.map toJson) = .ok items
  := by
  induction items with
  | nil => rfl
  | cons v rest ih =>
    obtain ⟨hv, hrest⟩ := List.forall_mem_cons.mp h
    rw [List.map_cons, itemsOfJson, hv, ih hrest]
    rfl

/-- A constant is read from the document that it is written as. -/
theorem IsConstant.ofJson_toJson {v : Value} (h : v.IsConstant) :
  ofJson v.toJson = .ok v
  := by
  induction h with
  | int n => simp [toJson, ofJson, pure, Except.pure]
  | float h => simp [toJson, h, ofJson, pure, Except.pure]
  | str s => rfl
  | bool b => rfl
  | date d => simp [toJson, ofJson, ofTagged?, ofTag?, d.read_text]
  | dateTime t => simp [toJson, ofJson, ofTagged?, ofTag?, t.read?_text, dateTag, dateTimeTag]
  | list h ih =>
    rw [toJson, itemsToJson_eq_map, ofJson, itemsOfJson_map ih]
    rfl

/-- The document of a constant is readable if its floats are read back. -/
theorem IsConstant.readable_toJson {v : Value} (h : v.IsConstant)
    (hfloats : ∀ x ∈ v.toJson.floats, Json.ReadsBack x) :
  v.toJson.Readable
  := by
  induction h with
  | int n =>
    have hlow := Int64.le_toInt n
    have hhigh := Int64.toInt_lt n
    exact .int (by omega) (by omega)
  | float h =>
    rw [toJson, if_pos h] at hfloats ⊢
    apply Json.Readable.float
    apply hfloats
    apply List.mem_singleton_self
  | str s => exact .str s
  | bool b => exact .bool b
  | date d => apply Json.Readable.single dateTag (.str _)
  | dateTime t => apply Json.Readable.single dateTimeTag (.str _)
  | list h ih =>
    rw [toJson, itemsToJson_eq_map] at hfloats ⊢
    apply Json.Readable.arr
    intro j hj
    obtain ⟨v, hv, rfl⟩ := List.mem_map.mp hj
    apply ih v hv
    intro x hx
    apply hfloats
    apply Json.mem_itemsFloats_of_mem hj hx

end Value

/-! ### Constants of expressions -/

namespace Expr

/-- The values of constants are what each of them is. -/
theorem isConstant_of_constants? {items : List Expr} {vs : List Value}
    (hitems : ∀ e ∈ items, ∀ v, e.constant? = some v → v.IsConstant)
    (h : constants? items = some vs) :
  ∀ v ∈ vs, v.IsConstant
  := by
  induction items generalizing vs with
  | nil =>
    obtain rfl := Option.some.inj h
    rintro v ⟨⟩
  | cons e rest ih =>
    obtain ⟨he, hrest⟩ := List.forall_mem_cons.mp hitems
    obtain ⟨v, hv, h⟩ := Option.bind_eq_some_iff.mp h
    obtain ⟨vs', hvs', h⟩ := Option.bind_eq_some_iff.mp h
    obtain rfl := Option.some.inj h
    exact List.forall_mem_cons.mpr ⟨he v hv, ih hrest hvs'⟩

/-- What an expression that can be written stands for without a context is a constant. -/
theorem Written.isConstant_of_constant? {e : Expr} (h : e.Written) :
  ∀ v, e.constant? = some v → v.IsConstant
  := by
  induction h with
  | int =>
    rintro v ⟨⟩
    apply Value.IsConstant.int
  | float h =>
    obtain ⟨text, htext⟩ := h
    rintro v ⟨⟩
    exact .float (exists_signed_of_readDecimal htext).1
  | str =>
    rintro v ⟨⟩
    apply Value.IsConstant.str
  | bool =>
    rintro v ⟨⟩
    apply Value.IsConstant.bool
  | date =>
    rintro v ⟨⟩
    apply Value.IsConstant.date
  | dateTime =>
    rintro v ⟨⟩
    apply Value.IsConstant.dateTime
  | list h ih =>
    intro v hv
    obtain ⟨vs, hvs, rfl⟩ := Option.map_eq_some_iff.mp hv
    exact .list (isConstant_of_constants? ih hvs)
  | _ => rintro v ⟨⟩

end Expr

/-! ### Programs of expressions -/

/-- Whether an instruction can be one of an expression that can be written: its value is a
constant, its name is a dotted path, or its amounts are not negative. -/
def Instruction.Written : Instruction → Prop
  | literal v => v.IsConstant
  | load path | call path _ => IsPath path
  | duration parts => ∀ part ∈ parts, 0 ≤ part.1.toInt
  | _ => True

/-- Whether the instructions of a program can be those of an expression that can be written. -/
def Program.Written (p : Program) : Prop := ∀ i ∈ p, i.Written

/-- Whether the values that a program holds are constants. -/
def Program.HoldsConstants (p : Program) : Prop :=
  ∀ v, .literal v ∈ p → v.IsConstant

namespace Program.Written

variable {p q : Program}

theorem append (hp : p.Written) (hq : q.Written) :
  Program.Written (p ++ q)
  := List.forall_mem_append.mpr ⟨hp, hq⟩

theorem single {i : Instruction} (h : i.Written) :
  Program.Written [i]
  := List.forall_mem_singleton.mpr h

theorem lowerItems {items : List Expr} (h : ∀ e ∈ items, e.lower.Written) :
  Program.Written (Expr.lowerItems items)
  := by
  induction items with
  | nil => rintro i ⟨⟩
  | cons e rest ih =>
    obtain ⟨he, hrest⟩ := List.forall_mem_cons.mp h
    apply he.append (ih hrest)

theorem lowerEntries {entries : List (String × Expr)}
    (h : ∀ entry ∈ entries, entry.2.lower.Written) :
  Program.Written (Expr.lowerEntries entries)
  := by
  induction entries with
  | nil => rintro i ⟨⟩
  | cons entry rest ih =>
    obtain ⟨he, hrest⟩ := List.forall_mem_cons.mp h
    have hkey : Program.Written [.literal (.str entry.1)] := single (.str entry.1)
    exact hkey.append (he.append (ih hrest))

end Program.Written

/-- The values that the program of an expression holds are constants, its names are dotted paths,
and its amounts are not negative. -/
theorem Expr.Written.lower {e : Expr} (h : e.Written) :
  e.lower.Written
  := by
  induction h with
  | int n => exact .single (.int _)
  | float h =>
    obtain ⟨text, htext⟩ := h
    exact .single (.float (exists_signed_of_readDecimal htext).1)
  | str => exact .single (.str _)
  | bool => exact .single (.bool _)
  | date => exact .single (.date _)
  | dateTime => exact .single (.dateTime _)
  | var h => exact .single (.name h)
  | property hbase hname ih =>
    unfold Expr.lower
    split
    · rename_i path hpath
      exact .single (.dot (hbase.isPath hpath) hname)
    · exact ih.append (.single trivial)
  | index hbase hkey ihbase ihkey => exact (ihbase.append ihkey).append (.single trivial)
  | compare op hl hr ihl ihr => exact (ihl.append ihr).append (.single trivial)
  | arithmetic op hl hr ihl ihr => exact (ihl.append ihr).append (.single trivial)
  | unary op he ih => exact ih.append (.single trivial)
  | and hl hr ihl ihr => exact (ihl.append ihr).append (.single trivial)
  | or hl hr ihl ihr => exact (ihl.append ihr).append (.single trivial)
  | not he ih => exact ih.append (.single trivial)
  | membership op hl hr ihl ihr => exact (ihl.append ihr).append (.single trivial)
  | list h ih =>
    unfold Expr.lower
    split
    · rename_i vs hvs
      apply Program.Written.single
      apply Value.IsConstant.list
      apply isConstant_of_constants? _ hvs
      intro e he
      apply (h e he).isConstant_of_constant?
    · exact (Program.Written.lowerItems ih).append (.single trivial)
  | object h ih => exact (Program.Written.lowerEntries ih).append (.single trivial)
  | call hname h ih => exact (Program.Written.lowerItems ih).append (.single hname)
  | duration h => exact .single h
  | relative direction h => exact .append (.single h) (.single trivial)

/-- What is read from a text can be written. -/
theorem Expr.written_of_read {limit : Nat} {source : List Char} {e : Expr}
    (h : read limit source = .ok e) :
  e.Written
  := by
  obtain ⟨tokens, htokens, he⟩ := Except.bind_eq_ok_iff.mp h
  exact written_of_ofTokens (Except.mapError_eq_ok_iff.mp htokens)
    (Except.mapError_eq_ok_iff.mp he)

/-- The values that the program of an expression holds are constants. -/
theorem Expr.Written.holdsConstants {e : Expr} (h : e.Written) :
  e.lower.HoldsConstants
  := fun v hv => h.lower (.literal v) hv

end RuleLang
