import RuleLang.Eval.Context
import RuleLang.Text.Split

/-!
# Files and inputs

The texts that commands read: files by their paths, and arguments that are a text or,
behind an at sign, the path of one.  `Files.ofDirectory` gives the files of one
directory, in which paths start: a step of a path that stays in place is passed over, so
that `./name` and `name` are the same file.
-/

namespace RuleLang.Command

/-- Why a file has no text. -/
inductive FileFault where
  | missing
  | denied
  | notText
  | isDirectory
  | notDirectory
  | other (message : String)
deriving DecidableEq, Repr

/-- The texts of files by their paths. -/
abbrev Files := String → Except FileFault String

/-- The steps of a path, which slashes separate. -/
def stepsOf (path : String) : List String :=
  (Text.split '/' path.toList).map String.ofList

/-- Whether a step of a path stays in the directory that it starts from. -/
def staysInPlace (step : String) : Bool := step = "" ∨ step = "."

/-- The files of a directory that holds nothing but the given texts.  A path leads there
when it is relative and does not go up; all that lies outside is missing, the directories
above apart. -/
def Files.ofDirectory (texts : List (String × Except FileFault String)) : Files := fun path =>
  if path = "" then .error .missing
  else if (stepsOf path).all fun step => staysInPlace step ∨ step = ".." then
    .error .isDirectory
  else
    match stepsOf path with
    | "" :: _ => .error .missing
    | steps =>
      match steps.dropWhile staysInPlace with
      | [] => .error .isDirectory
      | name :: rest =>
        match texts.lookup name with
        | none => .error .missing
        | some text => if rest.isEmpty then text else .error .notDirectory

/-- What is wrong with what a command is given to read. -/
inductive InputFault where
  | file (path : String) (fault : FileFault)
  | notJson (path : String)
  | context (error : ContextError)
  | contextLine (number : Nat) (error : ContextError)
deriving DecidableEq, Repr

/-- The wording of what is wrong with an input. -/
def InputFault.message : InputFault → String
  | file path .missing => "cannot find file '" ++ path ++ "'"
  | file path .denied => "permission denied reading '" ++ path ++ "'"
  | file path .notText => "'" ++ path ++ "' contains invalid UTF-8 data"
  | file path .isDirectory => "error reading '" ++ path ++ "': Is a directory (os error 21)"
  | file path .notDirectory => "error reading '" ++ path ++ "': Not a directory (os error 20)"
  | file path (.other message) => "error reading '" ++ path ++ "': " ++ message
  | notJson path => "'" ++ path ++ "' is not valid JSON: not a document"
  | context error => "invalid context: " ++ error.message
  | contextLine number error =>
    "line " ++ toString number ++ ": invalid context: " ++ error.message

/-- The text of a file. -/
def Files.read (files : Files) (path : String) : Except InputFault String :=
  (files path).mapError (.file path)

/-- The path that an argument names, if it names one. -/
def pathOf? (arg : String) : Option String :=
  match arg.toList with
  | '@' :: path => some (String.ofList path)
  | _ => none

/-- The text that an argument is or names. -/
def Files.load (files : Files) (arg : String) : Except InputFault String :=
  match pathOf? arg with
  | some path => files.read path
  | none => return arg

end RuleLang.Command
