import RuleLang.Proofs.Command.Run
import RuleLang.Proofs.Eval.Messages

/-!
# The lines of a batch

A batch shows what an expression has for each context, in the order of the contexts and each with
a line feed behind it.  A failure is shown in one line, and so is a value unless it is a string
with a line feed or holds a map with such a key; then one context has several lines.
-/

namespace RuleLang

open Text

/-! ### Names in compiled programs -/

theorem IsName.isLine {cs : List Char} (h : IsName cs) :
  IsLine cs
  := fun hmem => absurd (h.chars '\n' hmem) (by decide)

theorem IsPath.isLine {path : String} (h : IsPath path) :
  IsLine path.toList
  := by
  induction h with
  | name h => exact h.isLine
  | dot hpath hname ih => simp [ih, hname.isLine]

/-- The program of an expression that can be written quotes dotted paths. -/
theorem Program.Written.quotesLines {p : Program} (h : p.Written) :
  p.QuotesLines
  := by
  intro i hi name hname
  have hwritten := h i hi
  cases i with
  | load path | call path =>
    obtain rfl := Option.some.inj hname
    exact IsPath.isLine hwritten
  | _ => cases hname

namespace Command

/-! ### Contexts and results -/

/-- Lines are read as contexts exactly if those that are not blank are, one by one. -/
theorem contextsOfLines_eq_ok_iff {number : Nat} {lines : List (List Char)}
    {contexts : List Context} :
  contextsOfLines number lines = .ok contexts
    ↔ List.Forall₂ (fun line c => Context.read line = .ok c)
      (lines.filter fun line => ¬(trim line).isEmpty) contexts
  := by
  induction lines generalizing number contexts with
  | nil =>
    rw [contextsOfLines, List.filter_nil, List.forall₂_nil_left_iff]
    constructor
    · rintro ⟨⟩
      rfl
    · rintro rfl
      rfl
  | cons line lines ih =>
    rw [contextsOfLines]
    split
    · rename_i hblank
      rw [ih, List.filter_cons_of_neg (by simpa using hblank)]
    · rename_i hblank
      rw [List.filter_cons_of_pos (by simpa using hblank), List.forall₂_cons_left_iff]
      constructor
      · intro h
        obtain ⟨c, hc, h⟩ := Except.bind_eq_ok_iff.mp h
        obtain ⟨cs, hcs, h⟩ := Except.bind_eq_ok_iff.mp h
        obtain rfl := Except.ok.inj h
        exact ⟨c, cs, Except.mapError_eq_ok_iff.mp hc, ih.mp hcs, rfl⟩
      · rintro ⟨c, cs, hc, hcs, rfl⟩
        rw [Except.mapError_eq_ok_iff.mpr hc]
        change contextsOfLines (number + 1) lines >>= _ = _
        rw [ih.mpr hcs]
        rfl

/-- What is shown of a failure is in one line if its message is. -/
theorem isLine_resultLine_error {e : EvalError} (h : IsLine e.message.toList) :
  IsLine (resultLine (.error e)).toList
  := by
  unfold resultLine
  dsimp only
  split
  · simp [h]
  · simp [h]

/-- Texts, each with a line feed behind it, are cut at their ends and at their own line feeds. -/
theorem split_join
    (texts : List String) :
  split '\n' (String.join (texts.map (· ++ "\n"))).toList
    = (texts.map String.toList).flatMap (split '\n') ++ [[]]
  := by
  have hlist : (String.join (texts.map (· ++ "\n"))).toList
      = (texts.map String.toList).flatMap (· ++ ['\n']) := by
    simp [String.toList_join, List.flatMap_map]
  rw [hlist, split_flatMap_concat]

variable {files : Files} {o : Options} {arg path source text : String} {p : Program}
  {contexts : List Context}

/-- A batch shows the results in the contexts of the lines that are not blank, one after the
other. -/
theorem batch_eq (hinputs : o.inputs = [arg, path]) (hsource : files.load arg = .ok source)
    (hcompile : (engine o).compile source.toList = .ok p) (hfile : files.read path = .ok text)
    (hcontexts : List.Forall₂ (fun line c => Context.read line = .ok c)
      ((lines text.toList).filter fun line => ¬(trim line).isEmpty) contexts)
    (clock : DateTime) :
  batch files clock o = .ok (String.join
    ((contexts.map fun c => resultLine ((engine o).evaluate clock p c)).map (· ++ "\n")))
  := by
  have hread : contextsOfLines 1 (lines text.toList) = .ok contexts :=
    contextsOfLines_eq_ok_iff.mpr hcontexts
  unfold batch
  rw [hinputs]
  dsimp only
  rw [hsource]
  simp only [hfile, Except.mapError, bind, Except.bind, hread, about, hcompile]
  rw [Engine.evaluateMany, List.map_map, List.map_map]
  rfl

/-- A context is shown in one line exactly if it has no value or one that fits in a line. -/
theorem isLine_resultLine_iff (hcompile : (engine o).compile source.toList = .ok p)
    (clock : DateTime) (c : Context) :
  IsLine (resultLine ((engine o).evaluate clock p c)).toList
    ↔ ∀ v, (engine o).evaluate clock p c = .ok v → v.FitsLine
  := by
  obtain ⟨e, he, rfl⟩ := Engine.exists_written_of_compile hcompile
  -- The options of an engine leave it the built-in functions.
  have hmessage : ((engine o).evaluate clock e.lower c).FailsWith
      fun failure => IsLine failure.message.toList :=
    he.lower.quotesLines.isLine_message FunctionTable.reportsLines_builtins
  cases hresult : (engine o).evaluate clock e.lower c with
  | ok v =>
    change IsLine v.text.toList ↔ _
    rw [Value.isLine_text_iff]
    simp
  | error failure =>
    have hline := isLine_resultLine_error (hmessage failure hresult)
    exact iff_of_true hline nofun

/-- The lines of a batch are those of what it shows of each context, in the order of the lines
that are not blank.  A context has one line exactly if it has no value or one that fits in a line,
and so it is with all of them. -/
theorem lines_batch (hinputs : o.inputs = [arg, path]) (hsource : files.load arg = .ok source)
    (hcompile : (engine o).compile source.toList = .ok p) (hfile : files.read path = .ok text)
    (hcontexts : List.Forall₂ (fun line c => Context.read line = .ok c)
      ((lines text.toList).filter fun line => ¬(trim line).isEmpty) contexts)
    (clock : DateTime) :
  let shown (c : Context) := (resultLine ((engine o).evaluate clock p c)).toList
  ∃ output, batch files clock o = .ok output
    ∧ split '\n' output.toList = contexts.flatMap (fun c => split '\n' (shown c)) ++ [[]]
    ∧ (∀ c ∈ contexts, split '\n' (shown c) = [shown c]
      ↔ ∀ v, (engine o).evaluate clock p c = .ok v → v.FitsLine)
    ∧ (split '\n' output.toList = contexts.map shown ++ [[]]
      ↔ ∀ c ∈ contexts, ∀ v, (engine o).evaluate clock p c = .ok v → v.FitsLine)
  := by
  intro shown
  have hone (c : Context) := isLine_resultLine_iff hcompile clock c
  have houtput : split '\n' (String.join ((contexts.map fun c =>
        resultLine ((engine o).evaluate clock p c)).map (· ++ "\n"))).toList
      = contexts.flatMap (fun c => split '\n' (shown c)) ++ [[]] := by
    rw [split_join, List.map_map, List.flatMap_map]
    rfl
  refine ⟨_, batch_eq hinputs hsource hcompile hfile hcontexts clock, houtput, ?_, ?_⟩
  · intro c _
    rw [split_eq_singleton_iff]
    exact hone c
  · rw [houtput, List.append_left_inj, ← List.flatMap_map, flatMap_split_eq_self_iff,
      List.forall_mem_map]
    exact forall₂_congr fun c _ => hone c

/-- A name with a line feed makes a batch of two contexts print three lines. -/
theorem lines_batch_name :
  let text := "\x7b\"name\":\"a\\nb\"\x7d\n\x7b\"name\":\"c\"\x7d\n"
  let files : Files := fun _ => .ok text
  let o : Options := { inputs := ["name", "contexts.jsonl"] }
  let clock := Date.midnight { number := 19800 }
  ∃ p contexts, files.load "name" = .ok "name"
    ∧ (engine o).compile "name".toList = .ok p
    ∧ List.Forall₂ (fun line c => Context.read line = .ok c)
      ((lines text.toList).filter fun line => ¬(trim line).isEmpty) contexts
    ∧ contexts.length = 2
    ∧ batch files clock o = .ok "a\nb\nc\n"
    ∧ split '\n' "a\nb\nc\n".toList = [['a'], ['b'], ['c'], []]
    ∧ ¬∀ c ∈ contexts, ∀ v, (engine o).evaluate clock p c = .ok v → v.FitsLine
  := by
  intro text files o clock
  have hload : files.load "name" = .ok "name" := by rfl
  have hfile : files.read "contexts.jsonl" = .ok text := by rfl
  have hprogram : ((engine o).compile "name".toList).toOption.map List.length = some 1 := by
    decide +kernel
  have hlines : (contextsOfLines 1 (lines text.toList)).toOption.map List.length = some 2 := by
    decide +kernel
  have hprinted : (batch files clock o).toOption = some "a\nb\nc\n" := by decide +kernel
  obtain ⟨p, hcompile, -⟩ := Except.exists_of_toOption_map hprogram
  obtain ⟨contexts, hcontexts, hlength⟩ := Except.exists_of_toOption_map hlines
  have hcontexts' := contextsOfLines_eq_ok_iff.mp hcontexts
  obtain ⟨output, hbatch, -, -, hfits⟩ :=
    lines_batch (o := o) rfl hload hcompile hfile hcontexts' clock
  have houtput : output = "a\nb\nc\n" := by
    rw [hbatch] at hprinted
    exact Option.some.inj hprinted
  rw [houtput] at hbatch hfits
  have hsplit : split '\n' "a\nb\nc\n".toList = [['a'], ['b'], ['c'], []] := by decide
  refine ⟨p, contexts, hload, hcompile, hcontexts', hlength, hbatch, hsplit, ?_⟩
  intro h
  have hlengths := congrArg List.length (hfits.mpr h)
  rw [hsplit, List.length_append, List.length_map, hlength] at hlengths
  exact absurd hlengths (by decide)

end Command

end RuleLang
