import RuleLang.Program.Wire
import RuleLang.Proofs.Value.Constant

/-!
# Programs as documents

A program is read from the document that it is written as, if the values that it holds are.
The document is read from its text unless one of the values lies too deep.
-/

namespace RuleLang

namespace Instruction

/-- A number of operands is read from the number that it is written as. -/
theorem countOperand_toNat
    (op : Opcode) (place : Nat) (n : UInt64) :
  countOperand op place (.int n.toNat) = .ok n
  := by
  have hlow : (0 : Int) ≤ n.toNat := Int.natCast_nonneg _
  have hhigh : (n.toNat : Int) < 18446744073709551616 := by
    have h := n.toNat_lt
    omega
  unfold countOperand
  dsimp only
  rw [if_pos ⟨hlow, hhigh⟩, Int.toNat_natCast, UInt64.ofNat_toNat]
  rfl

/-- The parts of a duration are read from the document that they are written as. -/
theorem partsOfJson_partsToJson
    (parts : List (Int64 × DurationUnit)) :
  partsOfJson (partsToJson parts) = .ok parts
  := by
  unfold partsToJson partsOfJson
  induction parts with
  | nil => rfl
  | cons part parts ih =>
    obtain ⟨n, u⟩ := part
    have hpart : partOfJson (.arr [.int n.toInt, .str u.name]) = .ok (n, u) := by
      simp [partOfJson, Json.asInt64?, pure, Except.pure]
    dsimp only at ih ⊢
    rw [List.map_cons, List.mapM_cons, hpart, ih]
    rfl

/-- An instruction is read from the document that it is written as, if the value that it holds
is. -/
theorem ofJson_toJson {i : Instruction}
    (h : ∀ v, i = .literal v → Value.ofJson v.toJson = .ok v) :
  ofJson i.toJson = .ok i
  := by
  unfold toJson ofJson
  dsimp only
  rw [Opcode.ofName?_name]
  dsimp only
  cases i with
  | literal v =>
    simp only [opcode, operandsToJson, ofOperands, h v rfl]
    rfl
  | compare op =>
    simp only [opcode, operandsToJson, ofOperands, stringOperand, pure_bind, CompareOp.ofName?_name]
    rfl
  | array n =>
    simp only [opcode, operandsToJson, ofOperands, countOperand_toNat]
    rfl
  | object n =>
    simp only [opcode, operandsToJson, ofOperands, countOperand_toNat]
    rfl
  | call name n =>
    simp only [opcode, operandsToJson, ofOperands, countOperand_toNat, stringOperand, pure_bind]
    rfl
  | duration parts =>
    simp only [opcode, operandsToJson, ofOperands, partsOfJson_partsToJson]
    rfl
  | relative direction =>
    simp only [opcode, operandsToJson, ofOperands, stringOperand, pure_bind, Direction.ofName?_name]
    rfl
  | _ => rfl

/-- The document of an instruction is readable if that of the value that it holds is. -/
theorem readable_toJson {i : Instruction} (h : ∀ v, i = .literal v → v.toJson.Readable) :
  i.toJson.Readable
  := by
  have hcount (n : UInt64) : (Json.int n.toNat).Readable := by
    have hn := n.toNat_lt
    exact .int (by omega) (by omega)
  have hamount (n : Int64) : (Json.int n.toInt).Readable := by
    have hlow := n.le_toInt
    have hhigh := n.toInt_lt
    exact .int (by omega) (by omega)
  apply Json.Readable.arr
  refine List.forall_mem_cons.mpr ⟨.str _, ?_⟩
  cases i with
  | literal v => exact List.forall_mem_singleton.mpr (h v rfl)
  | load | access | compare | relative => exact List.forall_mem_singleton.mpr (.str _)
  | array n => exact List.forall_mem_singleton.mpr (hcount n)
  | object n => exact List.forall_mem_singleton.mpr (hcount n)
  | call name n =>
    exact List.forall_mem_cons.mpr ⟨.str _, List.forall_mem_singleton.mpr (hcount n)⟩
  | duration parts =>
    have hparts : (partsToJson parts).Readable := by
      apply Json.Readable.arr
      intro j hj
      obtain ⟨⟨n, u⟩, _, rfl⟩ := List.mem_map.mp hj
      apply Json.Readable.arr
      exact List.forall_mem_cons.mpr ⟨hamount n, List.forall_mem_singleton.mpr (.str _)⟩
    exact List.forall_mem_singleton.mpr hparts
  | _ => rintro j ⟨⟩

/-- The parts of a duration lie in one array each. -/
theorem nesting_partsToJson_lt
    (parts : List (Int64 × DurationUnit)) :
  (partsToJson parts).nesting < 3
  := by
  apply Json.nesting_arr_lt_iff.mpr
  constructor
  · decide
  · intro j hj
    obtain ⟨⟨n, u⟩, _, rfl⟩ := List.mem_map.mp hj
    change 1 < 2
    decide

/-- Only the value that it holds makes an instruction lie deep. -/
theorem nesting_toJson_lt_iff {i : Instruction} {d : Nat} (hd : 2 < d) :
  i.toJson.nesting < d + 1 ↔ ∀ v, i = .literal v → v.toJson.nesting < d
  := by
  unfold toJson
  rw [Json.nesting_arr_lt_iff, List.forall_mem_cons]
  constructor
  · rintro ⟨_, _, hoperands⟩ v rfl
    apply hoperands
    apply List.mem_singleton_self
  · intro h
    have hzero : 0 < d := Nat.zero_lt_of_lt hd
    refine ⟨hzero, hzero, ?_⟩
    cases i with
    | literal v => exact List.forall_mem_singleton.mpr (h v rfl)
    | duration parts =>
      have hparts := nesting_partsToJson_lt parts
      exact List.forall_mem_singleton.mpr (by omega)
    | load | access | compare | array | object | relative =>
      exact List.forall_mem_singleton.mpr hzero
    | call name n => exact List.forall_mem_cons.mpr ⟨hzero, List.forall_mem_singleton.mpr hzero⟩
    | _ => rintro j ⟨⟩

end Instruction

namespace Program

/-- A program is read from the document that it is written as, if the values that it holds
are. -/
theorem ofJson_toJson {p : Program} (h : ∀ v, .literal v ∈ p → Value.ofJson v.toJson = .ok v) :
  ofJson p.toJson = .ok p
  := by
  have hplaces : ∀ place, instructionsOfJson place (p.map Instruction.toJson) = .ok p := by
    induction p with
    | nil =>
      intro place
      rfl
    | cons i rest ih =>
      intro place
      have hi : Instruction.ofJson i.toJson = .ok i := by
        apply Instruction.ofJson_toJson
        rintro v rfl
        apply h v List.mem_cons_self
      have hrest := ih (fun v hv => h v (List.mem_cons_of_mem i hv)) (place + 1)
      simp only [List.map_cons, instructionsOfJson, hi, hrest]
      rfl
  apply hplaces 0

theorem readable_toJson {p : Program} (h : p.HoldsConstants)
    (hfloats : ∀ x ∈ p.toJson.floats, Json.ReadsBack x) :
  p.toJson.Readable
  := by
  apply Json.Readable.arr
  intro j hj
  obtain ⟨i, hi, rfl⟩ := List.mem_map.mp hj
  apply Instruction.readable_toJson
  rintro v rfl
  apply (h v hi).readable_toJson
  intro x hx
  apply hfloats
  apply Json.mem_itemsFloats_of_mem hj
  apply Json.mem_itemsFloats_of_mem (j := v.toJson) _ hx
  simp [Instruction.operandsToJson]

/-- Whether the values that a program holds leave room for the arrays around them in a document
that can be read. -/
def Shallow (p : Program) : Prop :=
  ∀ v, .literal v ∈ p → v.toJson.nesting + 2 < Json.depthLimit

theorem shallow_iff {p : Program} :
  p.Shallow ↔ p.toJson.nesting < Json.depthLimit
  := by
  unfold toJson
  change _ ↔ (Json.arr (p.map Instruction.toJson)).nesting < 127 + 1
  rw [Json.nesting_arr_lt_iff]
  constructor
  · intro h
    refine ⟨by decide, ?_⟩
    intro j hj
    obtain ⟨i, hi, rfl⟩ := List.mem_map.mp hj
    apply (Instruction.nesting_toJson_lt_iff (by decide)).mpr
    rintro v rfl
    apply Nat.lt_of_add_lt_add_right (h v hi)
  · rintro ⟨_, h⟩ v hv
    have hi := h _ (List.mem_map_of_mem hv)
    exact Nat.add_lt_add_right ((Instruction.nesting_toJson_lt_iff (by decide)).mp hi v rfl) 2

instance (p : Program) : Decidable p.Shallow := decidable_of_iff _ shallow_iff.symm

end Program

end RuleLang
