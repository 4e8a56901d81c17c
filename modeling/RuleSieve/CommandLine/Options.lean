/-
  The arguments of the program.
-/
import RuleSieve.Config
import RuleSieve.Output.Format

namespace RuleSieve.CommandLine

/-! ## What can be asked for -/

/-- What is done in place of an evaluation. -/
inductive Command where
  | explain (ruleId : String)
  | check
  deriving Repr, DecidableEq

/-- What the arguments say. -/
structure Options where
  /-- The file of rules. -/
  rules : String
  /-- The file of units. -/
  units : Option String := none
  config : Option String := none
  format : OutputFormat := .text
  allowExec : Bool := false
  trace : Bool := false
  jobs : Option Nat := none
  disable : Option (List String) := none
  noColor : Bool := false
  timing : Bool := false
  /-- Do findings leave the exit code at zero? -/
  exitZero : Bool := false
  command : Option Command := none
  deriving Repr, DecidableEq

/-- What a call of the program is for. -/
inductive Request where
  | run (options : Options)
  | showVersion
  | showUsage
  deriving Repr, DecidableEq

/-- Why the arguments make no sense. -/
inductive UsageProblem where
  | unknown (argument : String)
  | repeated (option : String)
  | noValue (option : String)
  | badValue (option value : String)
  | noRules
  | noRuleId
  deriving Repr, DecidableEq

/-- The wording of a problem. -/
def UsageProblem.message : UsageProblem → String
  | .unknown argument => s!"unexpected argument '{argument}' found"
  | .repeated option => s!"the argument '{option}' cannot be used multiple times"
  | .noValue option => s!"a value is required for '{option}' but none was supplied"
  | .badValue option value => s!"invalid value '{value}' for '{option}'"
  | .noRules => "the argument '--rules' was not provided"
  | .noRuleId => "the rule to explain was not provided"

/-! ## Arguments -/

/-- The options with a value, with their long and short names. -/
def valued : List (String × Char) :=
  [("rules", 'r'), ("matches", 'm'), ("config", 'c'), ("format", 'f'), ("jobs", 'j')]

/-- The option with a value that has no short name. -/
def listed : String := "disable"

/-- The options without a value. -/
def flags : List String := ["allow-exec", "trace", "no-color", "timing", "exit-zero"]

/-- One argument, or two if an option has its value apart. -/
inductive Item where
  | value (option value : String)
  | flag (option : String)
  | version
  | usage
  | word (word : String)
  deriving Repr, DecidableEq

/-- Is the text a value, and not another option? -/
def isValue (s : String) : Bool := s == "-" || s.toList.head? != some '-'

/-- The option with a value that an argument names, and the value if it is there too. -/
def valuedOption? (argument : String) : Option (String × Option String) :=
  match argument.toList with
  | '-' :: '-' :: rest =>
    let name := String.ofList (rest.takeWhile (· != '='))
    let value := match rest.dropWhile (· != '=') with
      | [] => none
      | _ :: value => some (String.ofList value)
    if name == listed || (valued.lookup name).isSome then some (name, value) else none
  | '-' :: c :: rest =>
    (valued.find? fun (_, short) => short == c).map fun (name, _) =>
      match rest with
      | [] => (name, none)
      | '=' :: value => (name, some (String.ofList value))
      | value => (name, some (String.ofList value))
  | _ => none

/-- An argument that needs no other one. -/
def single? (argument : String) : Option Item :=
  if ["-V", "--version"].contains argument then some .version
  else if ["-h", "--help"].contains argument then some .usage
  else if flags.any (fun flag => argument == "--" ++ flag) then
    some (.flag (String.ofList (argument.toList.drop 2)))
  else if isValue argument then some (.word argument)
  else none

/-- The items of some arguments. -/
def items : List String → Except UsageProblem (List Item)
  | [] => .ok []
  | argument :: more =>
    match valuedOption? argument, more with
    | some (option, some value), more => do return .value option value :: (← items more)
    | some (option, none), value :: more => do
      if isValue value then return .value option value :: (← items more)
      else .error (.noValue option)
    | some (option, none), [] => .error (.noValue option)
    | none, more =>
      match single? argument with
      | some item => do return item :: (← items more)
      | none => .error (.unknown argument)

/-! ## Options -/

/-- The last value of an option. -/
def valueOf? (option : String) : List Item → Option String
  | [] => none
  | .value known value :: more => if known == option then some value else valueOf? option more
  | _ :: more => valueOf? option more

/-- All values of an option. -/
def valuesOf (option : String) (items : List Item) : List String :=
  items.filterMap fun item => match item with
    | .value known value => if known == option then some value else none
    | _ => none

/-- The name by which an item must not be repeated. -/
def Item.name? : Item → Option String
  | .value option _ => if option == listed then none else some option
  | .flag option => some option
  | _ => none

/-- Finds an option that is there twice. -/
def checkRepeated (items : List Item) : Except UsageProblem Unit :=
  let names := items.filterMap Item.name?
  match names.find? fun name => 1 < names.count name with
  | some name => .error (.repeated name)
  | none => .ok ()

/-- The format of a name. -/
def readFormat : String → Except UsageProblem OutputFormat
  | "text" => .ok .text
  | "json" => .ok .json
  | value => .error (.badValue "format" value)

/-- A number of jobs. -/
def readJobs (value : String) : Except UsageProblem Nat :=
  match Decimal.readInt? value.toList with
  | some n =>
    if value.toList.head? != some '-' && n < Word.count then .ok n.toNat
    else .error (.badValue "jobs" value)
  | none => .error (.badValue "jobs" value)

/-- The parts of a list that is separated by commas. -/
def splitCommas : List Char → List (List Char)
  | [] => [[]]
  | c :: cs =>
    if c = ',' then [] :: splitCommas cs
    else
      match splitCommas cs with
      | [] => [[c]]
      | part :: parts => (c :: part) :: parts

/-- The parts of all values of the option that holds lists; none if it is not there. -/
def readListed (items : List Item) : Option (List String) :=
  let values := valuesOf listed items
  if values.isEmpty then none
  else some (values.flatMap fun value => (splitCommas value.toList).map String.ofList)

/-- The command that words name. -/
def readCommand : List String → Except UsageProblem (Option Command)
  | [] => .ok none
  | ["check"] => .ok (some .check)
  | ["explain"] => .error .noRuleId
  | ["explain", ruleId] => .ok (some (.explain ruleId))
  | "check" :: word :: _ | "explain" :: _ :: word :: _ | word :: _ => .error (.unknown word)

/-- The words among some items, which stand after all options. -/
def readWords (items : List Item) : Except UsageProblem (List String) :=
  (items.dropWhile fun item => !(item matches .word _)).mapM fun item => match item with
    | .word word => .ok word
    | .value option _ | .flag option => .error (.unknown ("--" ++ option))
    | .version | .usage => .error (.unknown "--version")

/-- The options that items say. -/
def Options.ofItems (items : List Item) : Except UsageProblem Options := do
  checkRepeated items
  let words ← readWords items
  let command ← readCommand words
  let rules ← (valueOf? "rules" items).elim (.error .noRules) .ok
  let format ← (valueOf? "format" items).elim (.ok .text) readFormat
  let jobs ← (valueOf? "jobs" items).elim (.ok none) fun value => some <$> readJobs value
  let has (flag : String) : Bool := items.contains (.flag flag)
  return {
    rules, format, jobs, command
    units := valueOf? "matches" items
    config := valueOf? "config" items
    allowExec := has "allow-exec"
    trace := has "trace"
    disable := readListed items
    noColor := has "no-color"
    timing := has "timing"
    exitZero := has "exit-zero" }

/-- What arguments ask for. -/
def Request.ofArguments (arguments : List String) : Except UsageProblem Request := do
  let items ← items arguments
  match items.find? fun item => item == .version || item == .usage with
  | some .version => return .showVersion
  | some _ => return .showUsage
  | none => return .run (← Options.ofItems items)

/-- The settings that options put on top of those of a file. -/
def Options.overrides (o : Options) : Config.Overrides :=
  { allowExec := if o.allowExec then some true else none
    collectTraces := if o.trace then some true else none
    jobs := o.jobs
    disabled := o.disable }

end RuleSieve.CommandLine
