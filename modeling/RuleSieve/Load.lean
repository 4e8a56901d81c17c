/-
  Loading rules, units and settings from files.

  The ending of a file's name says in which format it is written.  A file is read before its format is
  looked at.
-/
import RuleSieve.Json.Reader
import RuleSieve.Stored.Config
import RuleSieve.Stored.Report
import RuleSieve.Yaml.Reader

namespace RuleSieve

/-! ## Files -/

/-- Why a file cannot be read. -/
inductive ReadProblem where
  | missing
  /-- The file holds no text. -/
  | notText
  | other (reason : String)
  deriving Repr, DecidableEq

/-- The wording of a problem with reading. -/
def ReadProblem.message : ReadProblem → String
  | .missing => "No such file or directory (os error 2)"
  | .notText => "stream did not contain valid UTF-8"
  | .other reason => reason

/-- The contents of files by path. -/
abbrev Files := String → Except ReadProblem String

/-! ## Formats -/

/-- The formats of files. -/
inductive FileFormat where
  | json
  | yaml
  deriving Repr, DecidableEq

/-- What stands before the last `sep` of a text, and after it, if it has one. -/
def splitAtLast (sep : Char) (cs : List Char) : Option (List Char × List Char) :=
  let after := (cs.reverse.takeWhile (· != sep)).reverse
  if after.length = cs.length then none
  else some (cs.take (cs.length - after.length - 1), after)

/-- The last part of a path. -/
def fileName (path : List Char) : List Char :=
  let path := Text.dropEndWhile (· == '/') path
  (splitAtLast '/' path).elim path (·.2)

/-- What stands after the last dot of a file's name, unless that dot is its first character. -/
def extension (path : String) : String :=
  let name := fileName path.toList
  match splitAtLast '.' name with
  | some (stem, ending) => if stem.isEmpty || name == ['.', '.'] then "" else String.ofList ending
  | none => ""

/-- The format of an ending. -/
def FileFormat.ofExtension? : String → Option FileFormat
  | "yaml" | "yml" => some .yaml
  | "json" => some .json
  | _ => none

/-- The document that a text writes in a format. -/
def FileFormat.read? : FileFormat → String → Option Document
  | .json, text => (Json.read? text).map Document.ofJson
  | .yaml, text => Yaml.read? text

/-! ## Loading -/

/-- Why something could not be loaded. -/
inductive LoadProblem where
  | unreadable (problem : ReadProblem)
  | unknownFormat (extension : String)
  /-- The text is not written in its format, or does not say what is wanted. -/
  | malformed (format : FileFormat)
  | unusable (problem : RuleProblem)
  deriving Repr, DecidableEq

/-- Reads a file and decodes what it holds. -/
def load {α : Type} (decode : Decoder α) (files : Files) (path : String) : Except LoadProblem α := do
  let text ← (files path).mapError .unreadable
  let ending := extension path
  match FileFormat.ofExtension? ending with
  | none => .error (.unknownFormat ending)
  | some format =>
    match (format.read? text).map decode with
    | some (.ok a) => .ok a
    | _ => .error (.malformed format)

/-- Loads rules, which must be usable. -/
def RuleFile.load (files : Files) (path : String) : Except LoadProblem RuleFile := do
  let file ← RuleSieve.load RuleFile.decode files path
  file.check.mapError .unusable
  return file

/-- Loads a list of units. -/
def MatchUnit.loadAll (files : Files) (path : String) : Except LoadProblem (List MatchUnit) :=
  RuleSieve.load (Document.list MatchUnit.decode) files path

namespace Config

/-- Loads settings. -/
def load (files : Files) (path : String) : Except LoadProblem Config :=
  RuleSieve.load Config.decode files path

/-- The names of the files that settings are looked for in. -/
def usualNames : List String := [".match-eval.yaml", ".match-eval.yml", ".match-eval.json"]

/-- Loads the settings from the first of the usual files that there is. -/
def loadUsual (files : Files) : Except LoadProblem Config :=
  match usualNames.find? fun name => !(files name matches .error .missing) with
  | some name => load files name
  | none => .ok {}

end Config

/-! ## Wording -/

/-- What is said about a text that is not as it should be. -/
def malformedRemark : FileFormat → String
  | .json => "not the JSON text that is expected here"
  | .yaml => "not the YAML text that is expected here"

/-- The wording of a problem with the file of rules at a path. -/
def RuleFile.loadMessage (path : String) : LoadProblem → String
  | .unreadable problem => s!"IO error: {problem.message}"
  | .unknownFormat extension => s!"Invalid rule: Unsupported rule file format: {extension}"
  | .malformed format => s!"Parse error in {path}: {malformedRemark format}"
  | .unusable problem => s!"Invalid rule: {problem.message}"

/-- The wording of a problem with the file of units at a path. -/
def MatchUnit.loadMessage (path : String) : LoadProblem → String
  | .unreadable problem => s!"IO error: {problem.message}"
  | .unknownFormat extension => s!"Unsupported match file format: {extension}"
  | .malformed format => s!"Parse error in {path}: {malformedRemark format}"
  | .unusable problem => problem.message

/-- The wording of a problem with a file of settings. -/
def Config.loadMessage : LoadProblem → String
  | .unreadable problem => s!"IO error: {problem.message}"
  | .unknownFormat extension => s!"Invalid configuration: Unknown config file format: {extension}"
  | .malformed .json => s!"JSON parse error: {malformedRemark .json}"
  | .malformed .yaml => s!"YAML parse error: {malformedRemark .yaml}"
  | .unusable problem => problem.message

end RuleSieve
