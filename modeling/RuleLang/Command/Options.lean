import RuleLang.Calendar.Reader
import RuleLang.Command.Files
import RuleLang.Diagnostic

/-!
# Options of the command line

The options that may stand anywhere among the arguments of a command.  Of an option given
twice the later one counts; what is no option is an input.
-/

namespace RuleLang.Command

/-- What the arguments of a command say. -/
structure Options where
  inputs : List String := []
  context : Option String := none
  strict : Bool := false
  now : Option DateTime := none
  format : Format := {}
  color : ColorMode := .auto
  listing : Bool := false
deriving DecidableEq, Repr

/-- Why arguments are refused. -/
inductive OptionFault where
  | badNow (text : String)
  | badFormat (name : String)
  | badColor (name : String)
  | unknown (arg : String)
deriving DecidableEq, Repr

/-- The wording of why arguments are refused. -/
def OptionFault.message : OptionFault → String
  | badNow text => "invalid --now datetime '" ++ text ++ "'"
  | badFormat name => "unknown option '" ++ name ++ "'"
  | badColor name => "unknown color mode '" ++ name ++ "' (expected auto, always, or never)"
  | unknown arg => "unknown option '" ++ arg ++ "'"

/-- What stands behind `start` in an argument that begins with it. -/
def behind? (start arg : String) : Option String :=
  if start.toList.isPrefixOf arg.toList then some (String.ofList (arg.toList.drop start.length))
  else none

namespace Options

/-- The options whose value stands behind an equals sign, and what they do. -/
def valued : List (String × (Options → String → Except OptionFault Options)) :=
  [("--context=", fun o text => return { o with context := some text }),
    ("--now=", fun o text =>
      match DateTime.read? text.toList with
      | some t => return { o with now := some t }
      | none => throw (.badNow text)),
    ("--parens=", fun o name =>
      match Parens.ofName? name with
      | some parens => return { o with format := { o.format with parens } }
      | none => throw (.badFormat name)),
    ("--spacing=", fun o name =>
      match Spacing.ofName? name with
      | some spacing => return { o with format := { o.format with spacing } }
      | none => throw (.badFormat name)),
    ("--color=", fun o name =>
      match ColorMode.ofName? name with
      | some color => return { o with color }
      | none => throw (.badColor name))]

/-- The options after one more argument. -/
def addArgument (o : Options) (arg : String) : Except OptionFault Options :=
  let option? := valued.findSome? fun (name, set) => (behind? name arg).map (set o)
  match option? with
  | some result => result
  | none =>
    if arg = "--strict" then return { o with strict := true }
    else if arg = "--listing" then return { o with listing := true }
    else if (behind? "--" arg).isSome then throw (.unknown arg)
    else return { o with inputs := o.inputs ++ [arg] }

/-- What arguments say. -/
def ofArguments (args : List String) : Except OptionFault Options :=
  args.foldlM addArgument {}

/-- How programs are evaluated by the options. -/
def evaluation (o : Options) : EvalOptions where
  strict := o.strict
  now := o.now

/-- The context that the options give. -/
def loadContext (o : Options) (files : Files) : Except InputFault Context :=
  match o.context with
  | none => return {}
  | some arg => do
    let text ← files.load arg
    (Context.read text.toList).mapError .context

/-- The paths of all files that a command may read under the options. -/
def paths (o : Options) : List String :=
  o.inputs ++ (o.inputs ++ o.context.toList).filterMap pathOf?

end Options

end RuleLang.Command
