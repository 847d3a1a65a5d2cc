import RuleLang.Proofs.Program.Wire
import RuleLang.Proofs.Value.RoundTrip

/-!
# Programs read from their documents

A program is read from the document that it is written as exactly if JSON has a form for every
part of the values that it holds.  Nothing else in an instruction is ever lost, and the values
that a compiled expression holds have forms.
-/

namespace RuleLang

/-- An instruction is read from the document that it is written as exactly if the value that it
holds is. -/
theorem Instruction.ofJson_toJson_iff {i : Instruction} :
  ofJson i.toJson = .ok i ↔ ∀ v, i = .literal v → Value.ofJson v.toJson = .ok v
  := by
  constructor
  · rintro h v rfl
    unfold toJson ofJson at h
    dsimp only at h
    rw [Opcode.ofName?_name] at h
    simp only [opcode, operandsToJson, ofOperands] at h
    cases hv : Value.ofJson v.toJson with
    | ok w =>
      rw [hv] at h
      obtain rfl := Instruction.literal.inj (Except.ok.inj h)
      rfl
    | error fault =>
      rw [hv] at h
      cases h
  · apply ofJson_toJson

namespace Program

/-- Instructions are read together exactly if they are read one by one. -/
theorem instructionsOfJson_eq_ok_iff {p : Program} {place : Nat} :
  instructionsOfJson place (p.map Instruction.toJson) = .ok p
    ↔ ∀ i ∈ p, Instruction.ofJson i.toJson = .ok i
  := by
  induction p generalizing place with
  | nil => exact ⟨nofun, fun _ => rfl⟩
  | cons i rest ih =>
    rw [List.forall_mem_cons, ← @ih (place + 1), List.map_cons, instructionsOfJson]
    constructor
    · intro h
      cases hi : Instruction.ofJson i.toJson with
      | error fault =>
        rw [hi] at h
        cases h
      | ok j =>
        rw [hi] at h
        obtain ⟨is, his, h⟩ := Except.bind_eq_ok_iff.mp h
        obtain ⟨rfl, rfl⟩ := List.cons.inj (Except.ok.inj h)
        exact ⟨rfl, his⟩
    · rintro ⟨hi, hrest⟩
      rw [hi]
      dsimp only
      rw [hrest]
      rfl

/-- Whether JSON has a form for every part of the values that a program holds. -/
def Portable (p : Program) : Prop :=
  ∀ v, .literal v ∈ p → v.Portable

/-- Constants have forms. -/
theorem HoldsConstants.portable {p : Program} (h : p.HoldsConstants) :
  p.Portable
  := fun v hv => (Value.ofJson_toJson_iff v).mp (h v hv).ofJson_toJson

/-- A program is read from the document that it is written as exactly if, in the values that it
holds and at every depth, floats are finite numbers, and maps have their keys in order, these are
strings, and not a tag alone.  The program of an expression that is read holds only such
values. -/
theorem ofJson_toJson_eq_ok_iff :
  (∀ p : Program, ofJson p.toJson = .ok p ↔ p.Portable)
    ∧ ∀ limit source e, Expr.read limit source = .ok e → e.lower.Portable
  := by
  constructor
  · intro p
    apply Iff.trans instructionsOfJson_eq_ok_iff
    constructor
    · intro h v hv
      apply (Value.ofJson_toJson_iff v).mp
      apply Instruction.ofJson_toJson_iff.mp (h _ hv) v rfl
    · intro h i hi
      apply Instruction.ofJson_toJson_iff.mpr
      rintro v rfl
      apply (Value.ofJson_toJson_iff v).mpr (h v hi)
  · intro limit source e h
    exact (Expr.written_of_read h).holdsConstants.portable

/-- A map that looks like a duration of three days is written as that duration. -/
example :
  ofJson (toJson [.literal (.map [(.str "$duration", .map [(.str "days", .int 3)])])])
    = .ok [.literal (.duration { days := 3 })]
  := by rfl

end Program

end RuleLang
