/-
  A run of the program: what it loads, what it evaluates and what it writes.

  Loading and writing are functions here; files and clocks are with the caller.
-/
import RuleSieve.CommandLine.Explain
import RuleSieve.CommandLine.Options
import RuleSieve.Load

namespace RuleSieve.CommandLine

/-- What a run leaves behind. -/
structure Outcome where
  exitCode : Nat
  stdout : String
  stderr : String
  deriving Repr, DecidableEq

/-! ## Errors -/

/-- Why a run ends early. -/
inductive RunProblem where
  | rules (path : String) (problem : LoadProblem)
  | units (path : String) (problem : LoadProblem)
  | config (path : String) (problem : LoadProblem)
  | noUnits
  | noRule (ruleId path : String)
  deriving Repr, DecidableEq

/-- The wording of a problem after that of its cause, which is said once more if it lies outside. -/
def withCause (text : String) : LoadProblem → String
  | .unreadable problem => s!"{text}: {problem.message}"
  | _ => text

/-- The wording of a problem. -/
def RunProblem.message : RunProblem → String
  | .rules path problem =>
    withCause s!"failed to load rules {path}: {RuleFile.loadMessage path problem}" problem
  | .units path problem =>
    withCause s!"failed to load matches {path}: {MatchUnit.loadMessage path problem}" problem
  | .config path problem =>
    withCause s!"failed to load config {path}: {Config.loadMessage problem}" problem
  | .noUnits => "--matches is required to evaluate rules"
  | .noRule ruleId path => s!"rule '{ruleId}' not found in {path}"

/-- The outcome of a run that ends early. -/
def RunProblem.outcome (color : Bool) (problem : RunProblem) : Outcome :=
  ⟨2, "", Paint.when color .boldRed "error" ++ s!": {problem.message}\n"⟩

/-! ## Loading -/

/-- What is to be evaluated. -/
structure Job where
  config : Config
  rules : List Rule
  units : List MatchUnit

/-- What a run comes to once its files are loaded. -/
inductive Plan where
  | evaluate (job : Job)
  | write (text : String)

/-- The settings of a run.  If no file is named, one that cannot be loaded counts for nothing. -/
def loadConfig (o : Options) (files : Files) : Except RunProblem Config := do
  let config ← match o.config with
    | some path => (Config.load files path).mapError (.config path)
    | none => pure ((Config.loadUsual files).toOption.getD {})
  return config.override o.overrides

/-- Loads the files of a run. -/
def plan (o : Options) (color : Bool) (files : Files) : Except RunProblem Plan := do
  let ruleFile ← (RuleFile.load files o.rules).mapError (.rules o.rules)
  match o.command with
  | some (.explain ruleId) =>
    match ruleFile.find? ruleId with
    | some rule => return .write (explain color rule)
    | none => .error (.noRule ruleId o.rules)
  | some .check =>
    let count := ruleFile.rules.length
    return .write (Paint.when color .boldGreen "ok" ++ s!" {count} rules in {o.rules}\n")
  | none =>
    let path ← o.units.elim (.error .noUnits) .ok
    let units ← (MatchUnit.loadAll files path).mapError (.units path)
    return .evaluate ⟨← loadConfig o files, ruleFile.rules, units⟩

/-! ## Writing -/

/-- The outcome of a run that evaluated a job. -/
def conclude (o : Options) (color : Bool) (job : Job) (report : Report) : Outcome where
  exitCode := if o.exitZero && !report.hasFailures then 0 else report.exitCode
  stdout := (Writer.ofFormat o.format color job.config.evaluation.collectTraces).report report
  stderr := if o.timing then "\n" ++ (Timing.table? report.timings).getD "" else ""

/-- A run in which nothing takes any time. -/
def run (o : Options) (terminalColor : Bool) (files : Files) : Outcome :=
  let color := terminalColor && !o.noColor
  match plan o color files with
  | .error problem => problem.outcome color
  | .ok (.write text) => ⟨0, text, ""⟩
  | .ok (.evaluate job) => conclude o color job (Engine.evaluateAll job.config job.rules job.units)

/-! ## Calls without a run -/

/-- The name and version of the program. -/
def versionText : String := "match-eval 0.1.0\n"

/-- The lines that say how the program is called. -/
def usageLines : List String :=
  ["Usage: match-eval [OPTIONS] --rules <RULES> [COMMAND]",
   "",
   "Commands:",
   "  explain <RULE_ID>    Show a rule and its expression tree",
   "  check                Validate the rule file and exit",
   "",
   "Options:",
   "  -r, --rules <RULES>      Rule file (.yaml, .yml or .json)",
   "  -m, --matches <MATCHES>  Pattern match file",
   "  -c, --config <CONFIG>    Configuration file path",
   "  -f, --format <FORMAT>    Output format: text or json",
   "      --allow-exec         Allow pattern-where predicates to run",
   "      --trace              Record and print evaluation traces",
   "  -j, --jobs <JOBS>        Number of parallel jobs (0 = auto)",
   "      --disable <DISABLE>  Disable specific rules (comma-separated)",
   "      --no-color           Disable colored output",
   "      --timing             Show per-rule timing statistics",
   "      --exit-zero          Exit with 0 even if findings are reported",
   "  -h, --help               Print help",
   "  -V, --version            Print version"]

/-- How the program is called. -/
def usageText : String := String.join (usageLines.map (· ++ "\n"))

/-- The outcome of arguments that make no sense. -/
def UsageProblem.outcome (color : Bool) (problem : UsageProblem) : Outcome :=
  ⟨2, "", Paint.when color .boldRed "error" ++ s!": {problem.message}\n\n{usageText}"⟩

end RuleSieve.CommandLine
