import RuleLang.Eval.Builtin
import RuleLang.Proofs.Eval.Execution
import RuleLang.Proofs.Eval.Failure
import RuleLang.Proofs.Value.Lines

/-!
# Messages in one line

The message of a failure stands in one line if the texts that it quotes do.  Operators quote
nothing, instructions the names that they hold, and the built-in functions their own names and
numbers; so the failures of a program stand in one line if the names in it do.
-/

namespace RuleLang

open Except (FailsWith)
open Text

/-! ### What messages quote -/

@[simp]
theorem ValueKind.isLine_name
    (k : ValueKind) :
  IsLine k.name.toList
  := by
  cases k <;> decide

@[simp]
theorem ArithmeticOp.isLine_name
    (op : ArithmeticOp) :
  IsLine op.name.toList
  := by
  cases op <;> decide

@[simp]
theorem Opcode.isLine_name
    (op : Opcode) :
  IsLine op.name.toList
  := by
  have hall : ∀ op ∈ all, IsLine op.name.toList := by decide
  apply hall
  cases op with
  | arithmetic op => cases op <;> decide
  | unary op => cases op <;> decide
  | membership op => cases op <;> decide
  | _ => decide

@[simp]
theorem Mismatch.isLine_operation
    (m : Mismatch) :
  IsLine m.operation.toList
  := by
  cases m with
  | arithmetic op => apply op.isLine_name
  | _ => decide

@[simp]
theorem Mismatch.isLine_expected
    (m : Mismatch) :
  IsLine m.expected.toList
  := by
  cases m with
  | arithmetic op => cases op <;> decide
  | _ => decide

@[simp]
theorem OverflowSite.isLine_name
    (site : OverflowSite) :
  IsLine site.name.toList
  := by
  cases site with
  | arithmetic op => apply op.isLine_name
  | _ => decide

@[simp]
theorem DateMove.isLine_name
    (move : DateMove) :
  IsLine move.name.toList
  := by
  cases move <;> decide

@[simp]
theorem Wanted.isLine_name
    (wanted : Wanted) :
  IsLine wanted.name.toList
  := by
  cases wanted <;> decide

@[simp]
theorem Reason.isLine_name
    (r : Reason) :
  IsLine r.name.toList
  := by
  cases r <;> decide

namespace EvalError

@[simp]
theorem isLine_kindsText
    (values : List Value) :
  IsLine (kindsText values).toList
  := by
  apply isLine_intercalate (by decide)
  intro part hpart
  obtain ⟨v, -, rfl⟩ := List.mem_map.mp hpart
  apply v.kind.isLine_name

/-- The texts that the message of a failure quotes. -/
def quoted : EvalError → List String
  | unknownFunction name | arity name _ _ | unknownOpcode name | undefinedVariable name => [name]
  | functionFailed name message | functionPanicked name message => [name, message]
  | invalidInstruction (.wire error) => [error.message]
  | _ => []

/-- Whether the texts that the message of a failure quotes are in one line each. -/
def QuotesLines (e : EvalError) : Prop :=
  ∀ text ∈ e.quoted, IsLine text.toList

/-- A message is in one line if the texts that it quotes are. -/
theorem QuotesLines.isLine_message {e : EvalError} (h : e.QuotesLines) :
  IsLine e.message.toList
  := by
  -- Each wording is put in place by itself: the equations of `message` are slow to derive.
  cases e with
  | mismatch what values =>
    change IsLine ("cannot " ++ what.operation ++ " " ++ kindsText values ++ ": expected "
      ++ what.expected).toList
    simp
  | divisionByZero => decide
  | moduloByZero => decide
  | integerOverflow site =>
    change IsLine ("integer overflow in " ++ site.name).toList
    simp
  | dateOutOfRange move =>
    change IsLine ("date out of range in " ++ move.name).toList
    simp
  | unknownFunction name =>
    have hname := h name List.mem_cons_self
    change IsLine ("unknown function '" ++ name ++ "'").toList
    simp [hname]
  | arity name expected found =>
    have hname := h name List.mem_cons_self
    have hplural : IsLine (if expected = 1 then "" else "s").toList := by split <;> decide
    change IsLine ("function '" ++ name ++ "' expects " ++ toString expected ++ " argument"
      ++ (if expected = 1 then "" else "s") ++ ", got " ++ toString found).toList
    simp [hname, hplural]
  | functionFailed name message =>
    have hname := h name List.mem_cons_self
    have hmessage := h message (List.mem_cons_of_mem name List.mem_cons_self)
    change IsLine ("function '" ++ name ++ "' failed: " ++ message).toList
    simp [hname, hmessage]
  | functionPanicked name message =>
    have hname := h name List.mem_cons_self
    have hmessage := h message (List.mem_cons_of_mem name List.mem_cons_self)
    change IsLine ("function '" ++ name ++ "' panicked: " ++ message).toList
    simp [hname, hmessage]
  | stackUnderflow op needed found =>
    change IsLine ("stack underflow in '" ++ op.name ++ "': needed " ++ toString needed
      ++ " operand(s), found " ++ toString found).toList
    simp
  | noResult => decide
  | unbalancedStack height =>
    change IsLine ("program left " ++ toString height
      ++ " values on the stack, expected 1").toList
    simp
  | unknownOpcode name =>
    have hname := h name List.mem_cons_self
    change IsLine ("unknown opcode '" ++ name ++ "'").toList
    simp [hname]
  | invalidInstruction cause =>
    change IsLine ("invalid instruction: " ++ cause.message).toList
    cases cause with
    | objectSize => decide
    | objectKey found =>
      change IsLine ("invalid instruction: " ++ ("object key must be a string or integer, found "
        ++ found.name)).toList
      simp
    | wire error =>
      have herror := h error.message List.mem_cons_self
      change IsLine ("invalid instruction: " ++ error.message).toList
      simp [herror]
  | undefinedVariable name =>
    have hname := h name List.mem_cons_self
    change IsLine ("undefined variable '" ++ name ++ "'").toList
    simp [hname]

/-- A failure that lies with operands quotes nothing. -/
theorem OfOperands.quotesLines {e : EvalError} (h : e.OfOperands) :
  e.QuotesLines
  := by
  cases e with
  | mismatch | divisionByZero | moduloByZero | integerOverflow | dateOutOfRange => rintro _ ⟨⟩
  | _ => cases h

end EvalError

/-! ### Built-in functions -/

/-- Whether what a function says when it fails is in one line. -/
def FunctionFault.IsLine : FunctionFault → Prop
  | failed message | panicked message => Text.IsLine message.toList

namespace BuiltinFault

/-- The texts that the message of a built-in function quotes. -/
def quoted : BuiltinFault → List String
  | wrongKind function _ _ | integerRange function _ => [function]
  | negativeRoot v => [v.text]
  | _ => []

/-- Whether the texts that the message of a built-in function quotes are in one line each. -/
def QuotesLines (fault : BuiltinFault) : Prop :=
  ∀ text ∈ fault.quoted, IsLine text.toList

theorem QuotesLines.isLine_message {fault : BuiltinFault} (h : fault.QuotesLines) :
  IsLine fault.message.toList
  := by
  cases fault with
  | wrongKind function wanted found =>
    have hfunction := h function List.mem_cons_self
    change IsLine (function ++ " expects " ++ wanted.name ++ ", got " ++ found.name).toList
    simp [hfunction]
  | lengthRange => exact (by decide : IsLine "length out of range".toList)
  | absOverflow => exact (by decide : IsLine "integer overflow in abs".toList)
  | powerOverflow => exact (by decide : IsLine "integer overflow in Math.pow".toList)
  | exponentRange => exact (by decide : IsLine "exponent too large".toList)
  | integerRange function result =>
    have hfunction := h function List.mem_cons_self
    have hresult := (FloatNotation.plain.isSolid_write result).isLine
    change IsLine (function ++ " result " ++ FloatNotation.plain.write result
      ++ " is out of integer range").toList
    simp [hfunction, hresult]
  | negativeRoot v =>
    have hv := h v.text List.mem_cons_self
    change IsLine ("square root of negative number " ++ v.text).toList
    simp [hv]

end BuiltinFault

namespace Builtin

/-- Whether what a built-in function quotes when it fails is in one line. -/
abbrev ReportsLines (r : Result) : Prop := r.FailsWith BuiltinFault.QuotesLines

theorem reportsLines_wrongKind {function : String} (h : IsLine function.toList) (wanted : Wanted)
    (found : ValueKind) :
  ReportsLines (.error (.wrongKind function wanted found))
  := FailsWith.throw (List.forall_mem_singleton.mpr h)

theorem reportsLines_ofLength
    (n : Nat) :
  ReportsLines (ofLength n)
  := by
  unfold ofLength
  split
  · apply FailsWith.pure
  · exact FailsWith.throw nofun

theorem reportsLines_len
    (v : Value) :
  ReportsLines (len v)
  := by
  unfold len
  split
  · apply reportsLines_ofLength
  · apply reportsLines_ofLength
  · apply reportsLines_ofLength
  · apply FailsWith.pure
  · exact reportsLines_wrongKind (by decide) _ _

theorem reportsLines_abs
    (v : Value) :
  ReportsLines (abs v)
  := by
  unfold abs
  split
  · split
    · apply FailsWith.pure
    · exact FailsWith.throw nofun
  · apply FailsWith.pure
  · apply FailsWith.pure
  · exact reportsLines_wrongKind (by decide) _ _

theorem reportsLines_pick {function : String} (hfunction : IsLine function.toList)
    (first : Float → Float → Bool) (v w : Value) :
  ReportsLines (pick function first v w)
  := by
  unfold pick
  split
  · apply FailsWith.pure
  · apply FailsWith.pure
  · split
    · apply FailsWith.pure
    · exact reportsLines_wrongKind hfunction _ _
    · exact reportsLines_wrongKind hfunction _ _

theorem reportsLines_toInteger {function : String} (hfunction : IsLine function.toList)
    (rounding : Float → Float) (v : Value) :
  ReportsLines (toInteger function rounding v)
  := by
  unfold toInteger
  split
  · apply FailsWith.pure
  · dsimp only
    split
    · apply FailsWith.pure
    · exact FailsWith.throw (List.forall_mem_singleton.mpr hfunction)
  · apply FailsWith.pure
  · exact reportsLines_wrongKind hfunction _ _

theorem reportsLines_mapText {function : String} (hfunction : IsLine function.toList)
    (change : List Char → List Char) (v : Value) :
  ReportsLines (mapText function change v)
  := by
  unfold mapText
  split
  · apply FailsWith.pure
  · apply FailsWith.pure
  · exact reportsLines_wrongKind hfunction _ _

theorem reportsLines_testText {function : String} (hfunction : IsLine function.toList)
    (test : List Char → List Char → Bool) (v w : Value) :
  ReportsLines (testText function test v w)
  := by
  unfold testText
  split
  · apply FailsWith.pure
  · apply FailsWith.pure
  · apply FailsWith.pure
  · exact reportsLines_wrongKind hfunction _ _
  · exact reportsLines_wrongKind hfunction _ _

theorem reportsLines_pow
    (v w : Value) :
  ReportsLines (pow v w)
  := by
  unfold pow
  split
  · apply FailsWith.pure
  · apply FailsWith.pure
  · split
    · apply FailsWith.ite
      · apply FailsWith.pure
      · refine FailsWith.ite (FailsWith.throw nofun) ?_
        split
        · apply FailsWith.pure
        · exact FailsWith.throw nofun
    · split
      · apply FailsWith.pure
      · exact reportsLines_wrongKind (by decide) _ _
      · exact reportsLines_wrongKind (by decide) _ _

/-- The square root of a negative number quotes the number. -/
theorem reportsLines_sqrt
    (v : Value) :
  ReportsLines (sqrt v)
  := by
  unfold sqrt
  split
  · apply FailsWith.pure
  · split
    · exact reportsLines_wrongKind (by decide) _ _
    · rename_i x hx
      have htext : IsLine v.text.toList := by
        cases v with
        | int | float => exact Value.isLine_text_iff.mpr ⟨nofun, List.forall_mem_singleton.mpr trivial⟩
        | _ => cases hx
      exact FailsWith.ite (FailsWith.throw (List.forall_mem_singleton.mpr htext)) (FailsWith.pure _)

end Builtin

/-- Whether a function, when it fails, says so in one line. -/
def Function.ReportsLines (f : Function) : Prop :=
  ∀ args context clock, (f.result args context clock).FailsWith FunctionFault.IsLine

namespace Builtin

theorem ReportsLines.mapError {r : Result} (h : ReportsLines r) :
  (r.mapError fun fault => FunctionFault.failed fault.message).FailsWith FunctionFault.IsLine
  := by
  cases r with
  | ok v => apply FailsWith.pure
  | error fault => exact FailsWith.throw (h fault rfl).isLine_message

theorem reportsLines_unary {f : Value → Result} (h : ∀ v, ReportsLines (f v)) :
  (unary f).ReportsLines
  := fun args _ _ => (h (args.headD .undefined)).mapError

theorem reportsLines_binary {f : Value → Value → Result} (h : ∀ v w, ReportsLines (f v w)) :
  (binary f).ReportsLines
  := fun args _ _ => (h (args.headD .undefined) (args.tail.headD .undefined)).mapError

theorem reportsLines_nullary
    (f : DateTime → Value) :
  (nullary f).ReportsLines
  := fun _ _ clock => FailsWith.pure (f clock)

/-- The built-in functions say in one line why they fail. -/
theorem reportsLines_of_mem {entry : String × Function} (h : entry ∈ all) :
  entry.2.ReportsLines
  := by
  revert entry
  simp only [all, List.forall_mem_cons]
  refine ⟨reportsLines_unary reportsLines_len, reportsLines_unary reportsLines_abs,
    reportsLines_binary (reportsLines_pick (by decide) _),
    reportsLines_binary (reportsLines_pick (by decide) _),
    reportsLines_unary (reportsLines_toInteger (by decide) _),
    reportsLines_unary (reportsLines_toInteger (by decide) _),
    reportsLines_unary (reportsLines_toInteger (by decide) _),
    reportsLines_unary (reportsLines_mapText (by decide) _),
    reportsLines_unary (reportsLines_mapText (by decide) _),
    reportsLines_unary (reportsLines_mapText (by decide) _),
    reportsLines_binary (reportsLines_testText (by decide) _),
    reportsLines_binary (reportsLines_testText (by decide) _),
    reportsLines_nullary _, reportsLines_nullary _, reportsLines_binary reportsLines_pow,
    reportsLines_unary reportsLines_sqrt, nofun⟩

end Builtin

namespace FunctionTable

/-- Whether the functions of a table say in one line why they fail. -/
def ReportsLines (t : FunctionTable) : Prop :=
  ∀ name f, t.find? name = some f → f.ReportsLines

theorem reportsLines_builtins :
  builtins.ReportsLines
  := fun _ _ h => Builtin.reportsLines_of_mem (mem_of_find?_builtins h)

/-- A call quotes the name and what the function says. -/
theorem ReportsLines.call {t : FunctionTable} (h : t.ReportsLines) {name : String}
    (hname : IsLine name.toList) (args : List Value) (context : Context) (clock : DateTime) :
  (t.call name args context clock).FailsWith EvalError.QuotesLines
  := by
  have hquoted : ∀ text ∈ [name], IsLine text.toList := List.forall_mem_singleton.mpr hname
  unfold FunctionTable.call
  split
  · exact FailsWith.throw hquoted
  · rename_i f hf
    refine FailsWith.ite (FailsWith.throw hquoted) ?_
    have hresult := h name f hf args context clock
    split
    · apply FailsWith.pure
    · rename_i message hmessage
      exact FailsWith.throw (List.forall_mem_cons.mpr
        ⟨hname, List.forall_mem_singleton.mpr (hresult _ hmessage)⟩)
    · rename_i message hmessage
      exact FailsWith.throw (List.forall_mem_cons.mpr
        ⟨hname, List.forall_mem_singleton.mpr (hresult _ hmessage)⟩)

end FunctionTable

/-! ### Programs -/

namespace Instruction

/-- The name that a failure of an instruction quotes. -/
def quoted? : Instruction → Option String
  | load name | call name _ => some name
  | _ => none

variable {env : Environment}

/-- The failure of an instruction quotes what it holds, and what a function says. -/
theorem quotesLines_result (hfunctions : env.functions.ReportsLines) {i : Instruction}
    (hi : ∀ name ∈ i.quoted?, IsLine name.toList) (operands : List Value) :
  (i.result env operands).FailsWith EvalError.QuotesLines
  := by
  have hoperands {r : Except EvalError Value} (h : OfOperands r) :
      r.FailsWith EvalError.QuotesLines := h.mono fun _ => EvalError.OfOperands.quotesLines
  unfold result
  split
  case h_1 => apply FailsWith.pure
  case h_2 path =>
    unfold loadPath
    exact FailsWith.ite (FailsWith.throw (List.forall_mem_singleton.mpr (hi path rfl)))
      (FailsWith.pure _)
  case h_3 => apply FailsWith.pure
  case h_4 base key => exact hoperands (base.ofOperands_index key)
  case h_5 => apply FailsWith.pure
  case h_6 op v w => exact hoperands (Value.ofOperands_arithmetic op v w)
  case h_7 v => exact hoperands (Value.ofOperands_unary .minus v)
  case h_8 v => exact hoperands v.ofOperands_not
  case h_9 v => exact hoperands v.ofOperands_not
  case h_10 v w => exact hoperands (v.ofOperands_and w)
  case h_11 v w => exact hoperands (v.ofOperands_or w)
  case h_12 op v w => exact hoperands (Value.ofOperands_membership op v w)
  case h_13 => apply FailsWith.pure
  case h_14 =>
    have hentries := (failsWith_entriesOf operands).mono (Q := EvalError.QuotesLines) <| by
      rintro _ ⟨found, rfl⟩
      rintro _ ⟨⟩
    exact hentries.bind fun _ => FailsWith.pure _
  case h_15 name n => exact hfunctions.call (hi _ rfl) operands env.context env.clock
  case h_16 parts => exact hoperands (Value.ofOperands_ofDuration? _ _)
  case h_17 direction v => exact hoperands (Value.ofOperands_fromPresent env.present direction v)
  case h_18 => exact FailsWith.throw nofun

/-- The failure of an instruction on a stack quotes what it holds, and what a function says. -/
theorem quotesLines_execute (hfunctions : env.functions.ReportsLines) {i : Instruction}
    (hi : ∀ name ∈ i.quoted?, IsLine name.toList) (stack : List Value) :
  ∀ e ∈ (i.execute env stack).2, e.QuotesLines
  := by
  intro e he
  unfold execute at he
  split at he
  · cases he
    rintro _ ⟨⟩
  · split at he
    · cases he
      rintro _ ⟨⟩
    · rename_i operands below _
      split at he
      · cases he
      · rename_i e' hresult
        cases he
        apply quotesLines_result hfunctions hi operands e hresult

end Instruction

namespace Program

/-- Whether the names that failures of a program quote are in one line each. -/
def QuotesLines (p : Program) : Prop :=
  ∀ i ∈ p, ∀ name ∈ i.quoted?, IsLine name.toList

variable {env : Environment} {p : Program}

/-- The failure of an execution is that of an instruction. -/
theorem QuotesLines.exec (hfunctions : env.functions.ReportsLines) (hp : p.QuotesLines)
    (stack : List Value) :
  (exec env p stack).FailsWith EvalError.QuotesLines
  := by
  induction p generalizing stack with
  | nil => apply FailsWith.pure
  | cons i p ih =>
    obtain ⟨hi, hp⟩ := List.forall_mem_cons.mp hp
    have hexecute := Instruction.quotesLines_execute hfunctions hi stack
    unfold Program.exec
    split
    · apply ih hp
    · rename_i e he
      rw [he] at hexecute
      exact FailsWith.throw (hexecute e rfl)

/-- The failures of a program are told in one line if the names in it are in one line each. -/
theorem QuotesLines.isLine_message (hfunctions : env.functions.ReportsLines) (hp : p.QuotesLines) :
  (p.evaluate env).FailsWith fun e => IsLine e.message.toList
  := by
  have hresult (stack : List Value) : (result stack).FailsWith EvalError.QuotesLines := by
    unfold result
    split
    · exact FailsWith.throw nofun
    · apply FailsWith.pure
    · exact FailsWith.throw nofun
  rw [evaluate_eq]
  exact ((hp.exec hfunctions []).bind hresult).mono fun e he => he.isLine_message

end Program

end RuleLang
