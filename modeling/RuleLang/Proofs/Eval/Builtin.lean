import RuleLang.Eval.Builtin
import RuleLang.Eval.Compare
import RuleLang.Proofs.Eval.Arithmetic
import RuleLang.Proofs.Number.Order

/-!
# Built-in functions of integers

The smaller and the greater of two integers are found by way of floats, which is exact unless both
integers are rounded to one float; then the first is taken for both.  The power of an integer is
exact, or refused for having no word; exponents of more than thirty-two bits are refused whatever
the base is.
-/

namespace RuleLang

/-! ### Picking one of two integers -/

/-- Whether `w` is what an exact pick from `a` and `b` yields, or else `a` where both are rounded
to one float. -/
structure Picks (exact : Int) (a b w : Int64) : Prop where
  of_ne : (Word.toFloat a == Word.toFloat b) = false → w.toInt = exact
  of_beq : (Word.toFloat a == Word.toFloat b) = true → w = a

theorem picks_min
    (a b : Int64) :
  Picks (min a.toInt b.toInt) a b (if Word.toFloat a ≤ Word.toFloat b then a else b)
  := {
    of_ne := fun hne => by
      simp only [toFloat_le_iff, hne, Bool.false_eq_true, or_false]
      split <;> omega
    of_beq := fun hbeq => if_pos (toFloat_le_iff.mpr (.inr hbeq)) }

theorem picks_max
    (a b : Int64) :
  Picks (max a.toInt b.toInt) a b (if Word.toFloat b ≤ Word.toFloat a then a else b)
  := {
    of_ne := fun hne => by
      simp only [toFloat_le_iff, float_beq_comm (Word.toFloat b), hne, Bool.false_eq_true,
        or_false]
      split <;> omega
    of_beq := fun hbeq => if_pos (toFloat_le_iff.mpr (.inr (float_beq_symm hbeq))) }

theorem Picks.exact_or_first {exact : Int} {a b w : Int64} (h : Picks exact a b w) :
  w.toInt = exact ∨ w.toInt = a.toInt
  := by
  cases hfloat : Word.toFloat a == Word.toFloat b with
  | false => exact .inl (h.of_ne hfloat)
  | true => exact .inr (congrArg _ (h.of_beq hfloat))

/-- A pick is exact from integers of magnitude at most `2 ^ 53`, which are not rounded. -/
theorem Picks.exact {exact : Int} {a b w : Int64} (h : Picks exact a b w)
    (heq : a = b → exact = a.toInt) (ha : a.toInt.natAbs ≤ 2 ^ 53)
    (hb : b.toInt.natAbs ≤ 2 ^ 53) :
  w.toInt = exact
  := by
  cases hfloat : Word.toFloat a == Word.toFloat b with
  | false => exact h.of_ne hfloat
  | true => rw [h.of_beq hfloat, heq (eq_of_toFloat_beq ha hb hfloat)]

theorem Value.compare_lessEqual_int
    (v w : Int64) :
  compare .lessEqual (.int v) (.int w) = .bool (decide (v.toInt ≤ w.toInt))
  := by
  change Value.bool (Ord.compare v.toInt w.toInt).isLE = _
  rw [Value.bool.injEq, Bool.eq_iff_iff, decide_eq_true_iff, Std.isLE_compare]

theorem Value.compare_greaterEqual_int
    (v w : Int64) :
  compare .greaterEqual (.int v) (.int w) = .bool (decide (w.toInt ≤ v.toInt))
  := by
  change Value.bool (Ord.compare v.toInt w.toInt).isGE = _
  rw [Value.bool.injEq, Bool.eq_iff_iff, decide_eq_true_iff, Std.isGE_compare]

namespace FunctionTable

/-- A call of a built-in function of two arguments. -/
theorem call_binary {t : FunctionTable} {name : String} {f : Value → Value → Builtin.Result}
    (h : t.find? name = some (Builtin.binary f)) (a b : Value) (context : Context)
    (clock : DateTime) :
  t.call name [a, b] context clock
    = (f a b).mapError fun fault => .functionFailed name fault.message
  := by
  unfold call
  rw [h]
  cases hf : f a b with
  | ok v => simp [Builtin.binary, hf, Except.mapError, pure, Except.pure]
  | error fault =>
    simp only [Builtin.binary, List.headD_cons, List.tail_cons, hf]
    rfl

variable (a b : Int64) (context : Context) (clock : DateTime)

/-! ### The smaller and the greater of two integers -/

/-- A built-in function that picks one of two numbers picks an integer by what both are as
floats. -/
theorem call_pick {name : String} {first : Float → Float → Bool}
    (h : builtins.find? name = some (Builtin.binary (Builtin.pick name first))) :
  builtins.call name [.int a, .int b] context clock
    = .ok (.int (if first (Word.toFloat a) (Word.toFloat b) then a else b))
  := by
  rw [call_binary h, apply_ite Value.int]
  rfl

theorem call_min_int :
  builtins.call "min" [.int a, .int b] context clock
    = .ok (.int (if Word.toFloat a ≤ Word.toFloat b then a else b))
  := by
  rw [call_pick a b context clock rfl]
  simp only [decide_eq_true_iff]

theorem call_max_int :
  builtins.call "max" [.int a, .int b] context clock
    = .ok (.int (if Word.toFloat b ≤ Word.toFloat a then a else b))
  := by
  rw [call_pick a b context clock rfl]
  simp only [decide_eq_true_iff, ge_iff_le]

/-- The smaller and the greater of two integers are exact unless both are rounded to one float,
when the first is taken for both of them.  No comparison with the first tells this; one with the
second does so exactly where the result is wrong, which it is for no integers of magnitude at most
`2 ^ 53`. -/
theorem call_min_max :
  ∃ least greatest : Int64,
    builtins.call "min" [.int a, .int b] context clock = .ok (.int least)
    ∧ builtins.call "max" [.int a, .int b] context clock = .ok (.int greatest)
    ∧ Picks (min a.toInt b.toInt) a b least
    ∧ Picks (max a.toInt b.toInt) a b greatest
    ∧ Value.compare .lessEqual (.int least) (.int a) = .bool true
    ∧ Value.compare .greaterEqual (.int greatest) (.int a) = .bool true
    ∧ Value.compare .lessEqual (.int least) (.int b)
        = .bool (decide (least.toInt = min a.toInt b.toInt))
    ∧ Value.compare .greaterEqual (.int greatest) (.int b)
        = .bool (decide (greatest.toInt = max a.toInt b.toInt))
    ∧ (a.toInt.natAbs ≤ 2 ^ 53 → b.toInt.natAbs ≤ 2 ^ 53 →
        least.toInt = min a.toInt b.toInt ∧ greatest.toInt = max a.toInt b.toInt)
  := by
  have hmin := picks_min a b
  have hmax := picks_max a b
  refine ⟨_, _, call_min_int a b context clock, call_max_int a b context clock, hmin, hmax, ?_⟩
  have hleast := hmin.exact_or_first
  have hgreatest := hmax.exact_or_first
  simp only [Value.compare_lessEqual_int, Value.compare_greaterEqual_int, Value.bool.injEq,
    decide_eq_true_iff, decide_eq_decide]
  refine ⟨by omega, by omega, by omega, by omega, fun ha hb => ⟨?_, ?_⟩⟩
  · exact hmin.exact (fun hab => hab ▸ min_self _) ha hb
  · exact hmax.exact (fun hab => hab ▸ max_self _) ha hb

/-- The integers `2 ^ 53 + 1` and `2 ^ 53` are one float, so the smaller of them is taken to be the
first, and the comparison with the second shows that it is not. -/
theorem call_min_max_rounded :
  let clock := Date.midnight { number := 20500 }
  builtins.call "min" [.int 9007199254740993, .int 9007199254740992] {} clock
      = .ok (.int 9007199254740993)
    ∧ Value.compare .lessEqual (.int 9007199254740993) (.int 9007199254740992) = .bool false
  := by
  intro clock
  obtain ⟨least, _, hcall, -, hpicks, -, -, -, hcompare, -⟩ :=
    call_min_max 9007199254740993 9007199254740992 {} clock
  obtain rfl := hpicks.of_beq (by decide +kernel)
  exact ⟨hcall, hcompare⟩

/-! ### Powers of integers -/

/-- The power of an integer by a natural number of at most thirty-two bits is exact, or an error if
it has no word.  By a longer exponent there is no power of any base, 0, 1 and -1 included. -/
theorem call_pow (base : Int64) {exponent : Int64} (h : 0 ≤ exponent.toInt) (context : Context)
    (clock : DateTime) :
  (exponent.toInt < 2 ^ 32 →
    Value.Computes (.functionFailed "Math.pow" "integer overflow in Math.pow")
      (base.toInt ^ exponent.toInt.toNat)
      (builtins.call "Math.pow" [.int base, .int exponent] context clock))
    ∧ (2 ^ 32 ≤ exponent.toInt →
        builtins.call "Math.pow" [.int base, .int exponent] context clock
          = .error (.functionFailed "Math.pow" "exponent too large"))
  := by
  have hsign : ¬exponent < 0 := by
    rw [Int64.lt_iff_toInt_lt]
    exact Int.not_lt.mpr h
  rw [call_binary rfl, Builtin.pow, if_neg hsign]
  constructor
  · intro hlt
    rw [if_neg (by omega), Word.pow?_eq]
    apply Value.computes_of_int64?
    · intro w hw
      rw [hw]
      rfl
    · intro hn
      rw [hn]
      rfl
  · intro hle
    rw [if_pos (by omega)]
    rfl

/-- The power of -2 by 63 is the least word, and that of 2 by 63 has no word. -/
theorem call_pow_least :
  let clock := Date.midnight { number := 20500 }
  0 ≤ (63 : Int64).toInt
    ∧ builtins.call "Math.pow" [.int (-2), .int 63] {} clock = .ok (.int Int64.minValue)
    ∧ builtins.call "Math.pow" [.int 2, .int 63] {} clock
        = .error (.functionFailed "Math.pow" "integer overflow in Math.pow")
  := by
  intro clock
  have hsign : 0 ≤ (63 : Int64).toInt := by decide
  have hleast := (call_pow (-2) hsign {} clock).1 (by decide)
  have hgreat := (call_pow 2 hsign {} clock).1 (by decide)
  refine ⟨hsign, (hleast.int_iff _).mpr rfl, hgreat.error_iff.mpr ?_⟩
  rw [hasWord_iff]
  decide

/-- The power of 1 by `2 ^ 32` is 1, but the exponent is refused. -/
theorem not_call_pow_of_hasWord :
  ¬∀ (base exponent : Int64) (context : Context) (clock : DateTime),
    0 ≤ exponent.toInt → HasWord (base.toInt ^ exponent.toInt.toNat) →
      ∃ w, builtins.call "Math.pow" [.int base, .int exponent] context clock = .ok (.int w)
  := by
  intro h
  have hone : HasWord ((1 : Int64).toInt ^ (4294967296 : Int64).toInt.toNat) :=
    ⟨1, (one_pow _).symm⟩
  obtain ⟨w, hw⟩ := h 1 4294967296 {} (Date.midnight { number := 20500 }) (by decide) hone
  cases hw

end FunctionTable

end RuleLang
