import RuleLang.Command.Basic
import RuleLang.Proofs.Program.Wire

/-!
# Compiled programs run

The text that an expression is compiled to, run as a program, gives what the expression
evaluates to, unless a list of constants lies so deep that the text is refused.
-/

namespace RuleLang

namespace Engine

/-- A compiled program is that of an expression that can be written. -/
theorem exists_written_of_compile {engine : Engine} {source : List Char} {p : Program}
    (h : engine.compile source = .ok p) :
  ∃ e : Expr, e.Written ∧ e.lower = p
  := by
  obtain ⟨e, he, h⟩ := Except.bind_eq_ok_iff.mp h
  exact ⟨e, Expr.written_of_read he, Except.ok.inj h⟩

/-- The values that a compiled program holds are constants. -/
theorem holdsConstants_of_compile {engine : Engine} {source : List Char} {p : Program}
    (h : engine.compile source = .ok p) :
  p.HoldsConstants
  := by
  obtain ⟨e, he, rfl⟩ := exists_written_of_compile h
  apply he.holdsConstants

/-- The document of a program that is read from it has the value of the program. -/
theorem evaluateJson_toJson
    (engine : Engine) {p : Program} (h : Program.ofJson p.toJson = .ok p) (clock : DateTime)
    (context : Context) :
  engine.evaluateJson clock p.toJson context = engine.evaluate clock p context
  := by
  rw [evaluateJson, Program.decode, h]
  rfl

/-- An expression has the value of the program that it is compiled to. -/
theorem evaluateSource_of_compile {engine : Engine} {source : List Char} {p : Program}
    (h : engine.compile source = .ok p) (clock : DateTime) (context : Context) :
  engine.evaluateSource clock source context
    = (engine.evaluate clock p context).mapError .eval
  := by
  rw [evaluateSource, h]
  rfl

end Engine

namespace Program

/-- The text of a program that holds constants is read as its document, blanks behind it
passed over, if it is shallow, and refused otherwise. -/
theorem read?_wireText {p : Program} (h : p.HoldsConstants)
    (hfloats : ∀ x ∈ p.toJson.floats, Json.ReadsBack x) {blanks : List Char}
    (hends : Json.EndsNumber blanks) (hblanks : Json.skipBlanks blanks = []) :
  (p.Shallow → Json.read? (p.wireText.toList ++ blanks) = some p.toJson)
    ∧ (¬p.Shallow → Json.read? (p.wireText.toList ++ blanks) = none)
  := by
  have hread := (readable_toJson h hfloats).read?_chars hends hblanks
  rw [wireText, Json.text, String.toList_ofList, hread, shallow_iff]
  constructor
  · intro hdepth
    apply if_pos hdepth
  · intro hdepth
    apply if_neg hdepth

end Program

namespace Command

theorem endsNumber_lineFeed :
  Json.EndsNumber ['\n']
  := by
  rintro _ ⟨⟩
  decide

/-- The one expression that a command is given is what its argument is or names. -/
theorem expression_of_inputs {files : Files} {o : Options} {arg source : String}
    (hinputs : o.inputs = [arg]) (h : files.load arg = .ok source) (name : Name) :
  expression name files o = .ok source.toList
  := by
  rw [expression, hinputs]
  dsimp only
  rw [h]
  rfl

/-- A file that holds no document is refused. -/
theorem run_of_no_document {files : Files} {o : Options} {path text : String}
    (hfile : files path = .ok text) (hread : Json.read? text.toList = none) (clock : DateTime) :
  run files clock { o with inputs := [path] } = .error (.input (.notJson path))
  := by
  have hload : files.read path = .ok text := by rw [Files.read, hfile]; rfl
  unfold run
  dsimp only
  simp only [hload, Except.mapError, bind, Except.bind, hread]
  rfl

/-- The value of a program in a context, or the report of why it has none, in which the text
that it was compiled from does not count. -/
theorem mapError_run_eq_eval {files : Files} {o : Options} {arg path source text : String}
    {p : Program} (hsource : files.load arg = .ok source)
    (hcompile : ({ : Engine}).compile source.toList = .ok p) (hfile : files path = .ok text)
    (hread : Json.read? text.toList = some p.toJson) (hofJson : Program.ofJson p.toJson = .ok p)
    (clock : DateTime) (color : ColorMode) (terminal : Bool) :
  (run files clock { o with inputs := [path] }).mapError (Failure.report color terminal)
    = (eval files clock { o with inputs := [arg] }).mapError (Failure.report color terminal)
  := by
  have hload : files.read path = .ok text := by rw [Files.read, hfile]; rfl
  have hexpression : expression .eval files { o with inputs := [arg] } = .ok source.toList :=
    expression_of_inputs rfl hsource .eval
  have hcompile' : (engine o).compile source.toList = .ok p := hcompile
  have hjson := (engine o).evaluateJson_toJson hofJson clock
  have hvalue := Engine.evaluateSource_of_compile hcompile' clock
  unfold run eval
  dsimp only
  rw [hload, hexpression]
  simp only [Except.mapError, bind, Except.bind, hread]
  change Except.mapError _ ((o.loadContext files).mapError _ >>= _)
    = Except.mapError _ ((o.loadContext files).mapError _ >>= _)
  cases o.loadContext files with
  | error e => rfl
  | ok context =>
    change Except.mapError _ (((engine o).evaluateJson clock p.toJson context).mapError _ >>= _)
      = Except.mapError _ (about _ ((engine o).evaluateSource clock source.toList context) >>= _)
    rw [hjson, hvalue]
    cases (engine o).evaluate clock p context <;> rfl

/-- The program that an expression is compiled to gives, when its text is run, what the
expression evaluates to in the same context and under the same options, if it is shallow; its
text is refused otherwise. -/
theorem run_wireText {files : Files} {o : Options} {arg path source : String} {p : Program}
    (hsource : files.load arg = .ok source)
    (hcompile : ({ : Engine}).compile source.toList = .ok p)
    (hfile : files path = .ok (p.wireText ++ "\n"))
    (hfloats : ∀ x ∈ p.toJson.floats, Json.ReadsBack x) (clock : DateTime) :
  compile files { o with inputs := [arg], listing := false } = .ok (p.wireText ++ "\n")
    ∧ Program.ofJson p.toJson = .ok p
    ∧ (p.Shallow →
      Json.read? p.wireText.toList = some p.toJson
        ∧ ∀ color terminal,
          (run files clock { o with inputs := [path] }).mapError (Failure.report color terminal)
            = (eval files clock { o with inputs := [arg] }).mapError
              (Failure.report color terminal))
    ∧ (¬p.Shallow →
      Json.read? p.wireText.toList = none
        ∧ run files clock { o with inputs := [path] } = .error (.input (.notJson path)))
  := by
  have hconstants := Engine.holdsConstants_of_compile hcompile
  have hofJson : Program.ofJson p.toJson = .ok p :=
    Program.ofJson_toJson fun v hv => (hconstants v hv).ofJson_toJson
  obtain ⟨hread, hrefused⟩ := Program.read?_wireText hconstants hfloats .nil rfl
  obtain ⟨hreadLine, hrefusedLine⟩ :=
    Program.read?_wireText hconstants hfloats endsNumber_lineFeed rfl
  rw [List.append_nil] at hread hrefused
  have hline : (p.wireText ++ "\n").toList = p.wireText.toList ++ ['\n'] := String.toList_append ..
  rw [← hline] at hreadLine hrefusedLine
  refine ⟨?_, hofJson, ?_, ?_⟩
  · rw [compile, expression_of_inputs rfl hsource .compile]
    change (about source.toList ({ : Engine}.compile source.toList) >>= _) = _
    rw [hcompile]
    rfl
  · intro hp
    refine ⟨hread hp, ?_⟩
    apply mapError_run_eq_eval hsource hcompile hfile (hreadLine hp) hofJson
  · intro hp
    refine ⟨hrefused hp, ?_⟩
    apply run_of_no_document hfile (hrefusedLine hp)

/-- A half in 125 lists is run as it is evaluated; in 126 lists it is evaluated, but its program
is refused. -/
theorem run_wireText_half :
  let half : Float := .ofBits 0x3FE0000000000000
  let source (n : Nat) := String.ofList
    (List.replicate n '[' ++ "0.5".toList ++ List.replicate n ']')
  let files (p : Program) : Files := fun _ => .ok (p.wireText ++ "\n")
  let clock := Date.midnight { number := 19723 }
  (∃ p, ({ : Engine}).compile (source 125).toList = .ok p ∧ p.toJson.floats = [half]
    ∧ Json.read? p.wireText.toList = some p.toJson
    ∧ ∀ color terminal,
      (run (files p) clock { inputs := ["program.json"] }).mapError
          (Failure.report color terminal)
        = (eval (files p) clock { inputs := [source 125] }).mapError
          (Failure.report color terminal))
  ∧ ∃ p v, ({ : Engine}).compile (source 126).toList = .ok p ∧ p.toJson.floats = [half]
    ∧ Json.read? p.wireText.toList = none
    ∧ run (files p) clock { inputs := ["program.json"] }
      = .error (.input (.notJson "program.json"))
    ∧ ({ : Engine}).evaluateSource clock (source 126).toList {} = .ok v
  := by
  intro half source files clock
  let facts (p : Program) := (p.toJson.floats, decide p.Shallow)
  have hhalf : Json.ReadsBack half := Json.readsBack_half
  have hload (p : Program) (n : Nat) : (files p).load (source (n + 1)) = .ok (source (n + 1)) := by
    have hpath : pathOf? (source (n + 1)) = none := by
      rw [pathOf?, String.toList_ofList]
      rfl
    rw [Files.load, hpath]
    rfl
  have hfloats {p : Program} (h : p.toJson.floats = [half]) :
      ∀ x ∈ p.toJson.floats, Json.ReadsBack x := by
    intro x hx
    rw [h] at hx
    rwa [List.mem_singleton.mp hx]
  have hcompiled (n : Nat) {p : Program}
      (hp : ({ : Engine}).compile (source (n + 1)).toList = .ok p)
      (hhalves : p.toJson.floats = [half]) :=
    @run_wireText (files p) {} (source (n + 1)) "program.json" (source (n + 1)) p (hload p n) hp
      rfl (hfloats hhalves) clock
  constructor
  · have hfacts : (({ : Engine}).compile (source 125).toList).toOption.map facts
        = some ([half], true) := by
      rw [String.toList_ofList]
      decide +kernel
    obtain ⟨p, hp, hpfacts⟩ := Except.exists_of_toOption_map hfacts
    obtain ⟨hhalves, hshallow⟩ := Prod.mk.inj hpfacts
    obtain ⟨-, -, hrun, -⟩ := hcompiled 124 hp hhalves
    use p, hp, hhalves
    apply hrun (of_decide_eq_true hshallow)
  · have hfacts : (({ : Engine}).compile (source 126).toList).toOption.map facts
        = some ([half], false) := by
      rw [String.toList_ofList]
      decide +kernel
    have hvalue : (({ : Engine}).evaluateSource clock (source 126).toList {}).toOption.map
        Value.kind = some .list := by
      rw [String.toList_ofList]
      decide +kernel
    obtain ⟨p, hp, hpfacts⟩ := Except.exists_of_toOption_map hfacts
    obtain ⟨hhalves, hdeep⟩ := Prod.mk.inj hpfacts
    obtain ⟨v, hv, -⟩ := Except.exists_of_toOption_map hvalue
    obtain ⟨-, -, -, hrun⟩ := hcompiled 125 hp hhalves
    obtain ⟨hrefused, hfailure⟩ := hrun (of_decide_eq_false hdeep)
    exact ⟨p, v, hp, hhalves, hrefused, hfailure, hv⟩

end Command

end RuleLang
