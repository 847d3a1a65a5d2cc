import RuleLang.Command.Invocation
import Std.Time.DateTime.Timestamp

/-!
# The program

Reads the files that its arguments name, looks at the clock, and prints what
`Command.invoke` makes of them.
-/

namespace RuleLang.Command

/-- The text of a file. -/
def readText (path : String) : IO (Except FileFault String) := do
  try
    let bytes ← IO.FS.readBinFile path
    match String.fromUTF8? bytes with
    | some text => return .ok text
    | none => return .error .notText
  catch e =>
    match e with
    | .noFileOrDirectory .. => return .error .missing
    | .permissionDenied .. => return .error .denied
    | .inappropriateType _ code _ =>
      return .error (if code = 20 then .notDirectory else .isDirectory)
    | e => return .error (.other e.toString)

/-- The texts of the files at the given paths; every other file is missing. -/
def readFiles (paths : List String) : IO Files := do
  let texts ← paths.mapM fun path => do return (path, ← readText path)
  return fun path => (texts.lookup path).getD (.error .missing)

/-- The date-time that the clock shows, at offset zero. -/
def readClock : IO DateTime := do
  let now ← Std.Time.Timestamp.now
  let nanos := now.toNanosecondsSinceUnixEpoch.toInt
  let t := DateTime.ofSeconds? (nanos / 1000000000) (nanos % 1000000000).toNat
  return t.getD ⟨⟨0, by decide, by decide⟩, .midnight⟩

end RuleLang.Command

open RuleLang.Command in
/-- Runs the program with the arguments of the command line. -/
def main (args : List String) : IO UInt32 := do
  let files ← readFiles (pathsOf args)
  let clock ← readClock
  let stderr ← IO.getStderr
  let outcome := invoke files clock (← stderr.isTty) args
  IO.print outcome.stdout
  IO.eprint outcome.stderr
  return UInt32.ofNat outcome.code
