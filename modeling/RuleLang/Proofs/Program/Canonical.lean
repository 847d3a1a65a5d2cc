import RuleLang.Proofs.Program.Wire
import RuleLang.Proofs.Value.Canonical

/-!
# Documents that are read as programs

What is read of an instruction determines its document, except where it is a value: then the
value does not tell in which of several forms it was given.  A program that is read from any
document is therefore written as that document with its values in the form of the printer, and is
read from it again.
-/

namespace RuleLang

/-! ### Names -/

theorem DurationUnit.name_of_ofName? {s : String} {u : DurationUnit} (h : ofName? s = some u) :
  u.name = s
  := by simpa using List.find?_some h

theorem Direction.name_of_ofName? {s : String} {d : Direction} (h : ofName? s = some d) :
  d.name = s
  := by simpa using List.find?_some h

theorem CompareOp.name_of_ofName? {s : String} {op : CompareOp} (h : ofName? s = some op) :
  op.name = s
  := by simpa using List.find?_some h

theorem Opcode.name_of_ofName? {s : String} {op : Opcode} (h : ofName? s = some op) :
  op.name = s
  := by simpa using List.find?_some h

namespace Instruction

/-! ### Fixed parts -/

theorem stringOperand_eq_ok_iff {op : Opcode} {place : Nat} {j : Json} {s : String} :
  stringOperand op place j = .ok s ↔ j = .str s
  := by
  constructor
  · intro h
    unfold stringOperand at h
    split at h
    · rw [Except.ok.inj h]
    · cases h
  · rintro rfl
    rfl

theorem countOperand_eq_ok_iff {op : Opcode} {place : Nat} {j : Json} {n : UInt64} :
  countOperand op place j = .ok n ↔ j = .int n.toNat
  := by
  constructor
  · intro h
    unfold countOperand at h
    split at h
    · rename_i n
      split_ifs at h with hrange
      obtain rfl := Except.ok.inj h
      have hlt : n.toNat < UInt64.size := (Int.toNat_lt hrange.1).mpr hrange.2
      rw [UInt64.toNat_ofNat_of_lt' hlt, Int.toNat_of_nonneg hrange.1]
    · cases h
  · rintro rfl
    apply countOperand_toNat

/-- A part of a duration is read from no other document than the one that it is written as. -/
theorem eq_of_partOfJson {j : Json} {part : Int64 × DurationUnit} (h : partOfJson j = .ok part) :
  j = .arr [.int part.1.toInt, .str part.2.name]
  := by
  unfold partOfJson at h
  split at h
  · split at h
    · cases h
    · rename_i amount unit n hamount
      split at h
      · split at h
        · rename_i name u hunit
          obtain rfl := Except.ok.inj h
          unfold Json.asInt64? at hamount
          split at hamount
          · rw [toInt_of_int64?_eq_some hamount, DurationUnit.name_of_ofName? hunit]
          · cases hamount
        · cases h
      · cases h
  · cases h

/-- The parts of a duration are read from no other document than the one that they are written
as. -/
theorem partsOfJson_eq_ok_iff {j : Json} {parts : List (Int64 × DurationUnit)} :
  partsOfJson j = .ok parts ↔ j = partsToJson parts
  := by
  constructor
  · intro h
    unfold partsOfJson at h
    split at h
    · rename_i items
      unfold partsToJson
      congr 1
      induction items generalizing parts with
      | nil =>
        obtain rfl := Except.ok.inj h
        rfl
      | cons j rest ih =>
        rw [List.mapM_cons] at h
        obtain ⟨part, hpart, h⟩ := Except.bind_eq_ok_iff.mp h
        obtain ⟨parts', hparts', h⟩ := Except.bind_eq_ok_iff.mp h
        obtain rfl := Except.ok.inj h
        rw [List.map_cons, ← ih hparts', eq_of_partOfJson hpart]
    · cases h
  · rintro rfl
    apply partsOfJson_partsToJson

/-! ### Instructions -/

/-- What an instruction keeps of the document that it is read from: its opcode, as many fixed
parts as the opcode takes, and these parts themselves unless they are a value. -/
structure Keeps (i : Instruction) (j : Json) : Prop where
  counted : ∃ operands, j = .arr (.str i.opcode.name :: operands)
    ∧ operands.length = ofOperands.expected i.opcode
  same : (∀ v, i ≠ .literal v) → i.toJson = j
  value : ∀ v, i = .literal v →
    ∃ payload, j = .arr [.str Opcode.literal.name, payload] ∧ Value.ofJson payload = .ok v

/-- An instruction that holds no value keeps the document that it is written as. -/
theorem Keeps.of_operandsToJson {i : Instruction} {operands : List Json}
    (hvalue : ∀ v, i ≠ .literal v) (hcount : operands.length = ofOperands.expected i.opcode)
    (h : i.operandsToJson = operands) :
  i.Keeps (.arr (.str i.opcode.name :: operands))
  := ⟨⟨operands, rfl, hcount⟩, fun _ => by rw [toJson, h], fun v hv => absurd hv (hvalue v)⟩

/-- The opcode and the fixed parts of an instruction are those that it is read from. -/
theorem keeps_of_ofOperands {op : Opcode} {operands : List Json} {i : Instruction}
    (h : ofOperands op operands = .ok i) :
  i.Keeps (.arr (.str op.name :: operands))
  := by
  unfold ofOperands at h
  split at h
  · rename_i payload
    split at h
    · rename_i v hv
      obtain rfl := Except.ok.inj h
      refine ⟨⟨[payload], rfl, rfl⟩, fun hvalue => absurd rfl (hvalue v), ?_⟩
      rintro w ⟨⟩
      use payload, rfl
    · cases h
  · obtain ⟨path, hpath, h⟩ := Except.bind_eq_ok_iff.mp h
    obtain rfl := Except.ok.inj h
    obtain rfl := stringOperand_eq_ok_iff.mp hpath
    exact .of_operandsToJson nofun rfl rfl
  · obtain ⟨name, hname, h⟩ := Except.bind_eq_ok_iff.mp h
    obtain rfl := Except.ok.inj h
    obtain rfl := stringOperand_eq_ok_iff.mp hname
    exact .of_operandsToJson nofun rfl rfl
  · obtain ⟨name, hname, hop⟩ := Except.bind_eq_ok_iff.mp h
    obtain rfl := stringOperand_eq_ok_iff.mp hname
    split at hop
    · rename_i c hc
      obtain rfl := Except.ok.inj hop
      rw [← CompareOp.name_of_ofName? hc]
      exact .of_operandsToJson nofun rfl rfl
    · cases hop
  · obtain ⟨n, hn, h⟩ := Except.bind_eq_ok_iff.mp h
    obtain rfl := Except.ok.inj h
    obtain rfl := countOperand_eq_ok_iff.mp hn
    exact .of_operandsToJson nofun rfl rfl
  · obtain ⟨n, hn, h⟩ := Except.bind_eq_ok_iff.mp h
    obtain rfl := Except.ok.inj h
    obtain rfl := countOperand_eq_ok_iff.mp hn
    exact .of_operandsToJson nofun rfl rfl
  · obtain ⟨name, hname, h⟩ := Except.bind_eq_ok_iff.mp h
    obtain ⟨n, hn, h⟩ := Except.bind_eq_ok_iff.mp h
    obtain rfl := Except.ok.inj h
    obtain rfl := stringOperand_eq_ok_iff.mp hname
    obtain rfl := countOperand_eq_ok_iff.mp hn
    exact .of_operandsToJson nofun rfl rfl
  · obtain ⟨parts, hparts, h⟩ := Except.bind_eq_ok_iff.mp h
    obtain rfl := Except.ok.inj h
    obtain rfl := partsOfJson_eq_ok_iff.mp hparts
    exact .of_operandsToJson nofun rfl rfl
  · obtain ⟨name, hname, hop⟩ := Except.bind_eq_ok_iff.mp h
    obtain rfl := stringOperand_eq_ok_iff.mp hname
    split at hop
    · rename_i d hd
      obtain rfl := Except.ok.inj hop
      rw [← Direction.name_of_ofName? hd]
      exact .of_operandsToJson nofun rfl rfl
    · cases hop
  all_goals cases h
  all_goals exact .of_operandsToJson nofun rfl rfl

/-- An instruction keeps the document that it is read from. -/
theorem keeps_of_ofJson {j : Json} {i : Instruction} (h : ofJson j = .ok i) :
  i.Keeps j
  := by
  unfold ofJson at h
  split at h
  · split at h
    · rename_i name operands op hname
      rw [← Opcode.name_of_ofName? hname]
      apply keeps_of_ofOperands h
    · cases h
  · cases h
  · cases h
  · cases h

end Instruction

namespace Program

/-- Instructions that are read together are read one by one. -/
theorem forall₂_ofJson_of_instructionsOfJson {place : Nat} {items : List Json} {p : Program}
    (h : instructionsOfJson place items = .ok p) :
  List.Forall₂ (fun i j => Instruction.ofJson j = .ok i) p items
  := by
  induction items generalizing place p with
  | nil =>
    obtain rfl := Except.ok.inj h
    exact .nil
  | cons j rest ih =>
    unfold instructionsOfJson at h
    split at h
    · cases h
    · rename_i i hi
      obtain ⟨is, his, h⟩ := Except.bind_eq_ok_iff.mp h
      obtain rfl := Except.ok.inj h
      exact .cons hi (ih his)

/-- The values of a program that is read from a proper document are read from the documents that
they are written as. -/
theorem ofJson_toJson_literal {items : List Json} {p : Program}
    (hitems : ∀ j ∈ items, j.IsProper)
    (h : List.Forall₂ (fun i j => Instruction.ofJson j = .ok i) p items) {v : Value}
    (hv : .literal v ∈ p) :
  Value.ofJson v.toJson = .ok v
  := by
  induction h with
  | nil => cases hv
  | @cons i j p items hi hrest ih =>
    obtain ⟨hj, hitems⟩ := List.forall_mem_cons.mp hitems
    obtain rfl | hv := List.mem_cons.mp hv
    · obtain ⟨payload, rfl, hpayload⟩ := (Instruction.keeps_of_ofJson hi).value v rfl
      apply (Value.ofJson_toJson_iff v).mpr
      apply Value.portable_of_ofJson _ hpayload
      cases hj with
      | arr hparts => exact hparts payload (by simp)
    · apply ih hitems hv

/-- A program that is read from a proper document keeps it: the document is an array with an item
for each instruction, where the instruction is written as its item, and if it is a value then the
item is the value's tag and a form of it.  The program is read again from the document that it is
written as.  All documents that texts hold are proper. -/
theorem ofJson_toJson_of_ofJson :
  (∀ (j : Json) (p : Program), j.IsProper → ofJson j = .ok p →
    (∃ items, j = .arr items ∧ List.Forall₂ Instruction.Keeps p items) ∧ ofJson p.toJson = .ok p)
    ∧ ∀ (text : List Char) (j : Json), Json.read? text = some j → j.IsProper
  := by
  refine ⟨?_, fun text j => Json.isProper_of_read?⟩
  intro j p hj h
  unfold ofJson at h
  split at h
  · rename_i items
    have hread := forall₂_ofJson_of_instructionsOfJson h
    constructor
    · use items, rfl
      exact hread.imp fun i j => Instruction.keeps_of_ofJson
    · apply ofJson_toJson
      cases hj with
      | arr hitems => exact fun v => ofJson_toJson_literal hitems hread
  · cases h

/-- A leap second with an offset and an integer beyond the words are each written in one form, in
which they are read again. -/
theorem ofJson_toJson_of_leapSecond :
  ∃ p : Program, ofJson (.arr [
      .arr [.str "lit", .obj [("$datetime", .str "2024-12-31T23:59:60+01:00")]],
      .arr [.str "lit", .int 18446744073709551615],
      .arr [.str "compare", .str "LT"]]) = .ok p
    ∧ p.toJson = .arr [
      .arr [.str "lit", .obj [("$datetime", .str "2024-12-31T22:59:60")]],
      .arr [.str "lit", .float 18446744073709551615],
      .arr [.str "compare", .str "LT"]]
    ∧ ofJson p.toJson = .ok p
  := by
  have hproper : Json.IsProper (.arr [
      .arr [.str "lit", .obj [("$datetime", .str "2024-12-31T23:59:60+01:00")]],
      .arr [.str "lit", .int 18446744073709551615],
      .arr [.str "compare", .str "LT"]]) := by
    apply Json.IsProper.arr
    simp only [List.forall_mem_cons]
    refine ⟨.arr ?_, .arr ?_, .arr ?_, nofun⟩
    · simp only [List.forall_mem_cons]
      refine ⟨.str _, .obj ?_ ?_, nofun⟩
      · exact List.pairwise_singleton _ _
      · simp only [List.forall_mem_cons]
        exact ⟨.str _, nofun⟩
    · simp only [List.forall_mem_cons]
      exact ⟨.str _, .int (by decide) (by decide), nofun⟩
    · simp only [List.forall_mem_cons]
      exact ⟨.str _, .str _, nofun⟩
  refine ⟨[.literal (.dateTime ⟨⟨20088, by decide, by decide⟩,
    ⟨82799, 1000000000, by decide, by decide, by decide⟩⟩),
    .literal (.float (.ofInt 18446744073709551615)), .compare .less], ?_, ?_, ?_⟩
  · rfl
  · rfl
  · apply (ofJson_toJson_of_ofJson.1 _ _ hproper rfl).2

end Program

end RuleLang
