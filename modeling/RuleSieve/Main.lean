/-
  The program: reads the files that the arguments name, keeps the time, and writes the outcome.
-/
import RuleSieve.CommandLine.Session

namespace RuleSieve.CommandLine

/-- Reads a file. -/
def readFile (path : String) : IO (Except ReadProblem String) := do
  try
    let bytes ← IO.FS.readBinFile path
    return (String.fromUTF8? bytes).elim (.error .notText) .ok
  catch e =>
    match e with
    | .noFileOrDirectory .. => return .error .missing
    | e => return .error (.other (toString e))

/-- Reads the files that a run may look at. -/
def readFiles (o : Options) : IO Files := do
  let paths := o.rules :: o.units.toList ++ o.config.toList ++ Config.usualNames
  let contents ← paths.mapM fun path => return (path, ← readFile path)
  return fun path => (contents.lookup path).getD (.error .missing)

/-- Evaluates a job, and keeps the time of each unit and of the whole. -/
def evaluate (job : Job) : IO Report := do
  let start ← IO.monoNanosNow
  let mut report := Report.empty
  for unit in job.units do
    let before ← IO.monoNanosNow
    let part ← IO.lazyPure fun _ => Engine.evaluateUnit job.config job.rules unit
    let after ← IO.monoNanosNow
    report := report.merge (part.timed (after - before))
  let stop ← IO.monoNanosNow
  return { report with duration := stop - start }

/-- Runs the program. -/
def runOptions (o : Options) (terminalColor : Bool) : IO Outcome := do
  let color := terminalColor && !o.noColor
  match plan o color (← readFiles o) with
  | .error problem => return problem.outcome color
  | .ok (.write text) => return ⟨0, text, ""⟩
  | .ok (.evaluate job) => return conclude o color job (← evaluate job)

/-- Does what the arguments ask for. -/
def answer (arguments : List String) : IO Outcome := do
  let terminal ← (← IO.getStdout).isTty
  let color := Paint.enabled (← IO.getEnv "NO_COLOR") (← IO.getEnv "CLICOLOR")
    (← IO.getEnv "CLICOLOR_FORCE") terminal
  match Request.ofArguments arguments with
  | .error problem => return problem.outcome color
  | .ok .showVersion => return ⟨0, versionText, ""⟩
  | .ok .showUsage => return ⟨0, usageText, ""⟩
  | .ok (.run o) => runOptions o color

end RuleSieve.CommandLine

/-- Writes the outcome of the arguments. -/
def main (arguments : List String) : IO UInt32 := do
  let outcome ← RuleSieve.CommandLine.answer arguments
  IO.print outcome.stdout
  IO.eprint outcome.stderr
  return UInt32.ofNat outcome.exitCode
