/-
  Reading domain values out of documents.

  A record is read field by field.  If several fields are wrong, the one that stands first counts;
  fields that are missing count after all others.
-/
import RuleSieve.Fault
import RuleSieve.Tree
import RuleSieve.Yaml.Plain

namespace RuleSieve

/-- Why a document is not what is wanted. -/
inductive DecodeError where
  | mismatch
  /-- The parts are as they should be, but they make no expression. -/
  | fault (fault : Fault)
  deriving Repr, Inhabited

/-- A way to read a document. -/
abbrev Decoder (α : Type) := Document → Except DecodeError α

namespace Document

/-- The document of a JSON value. -/
def ofJson (value : Json) : Document := value.map .exact

/-- Takes what is there, or finds a mismatch. -/
def orMismatch {α : Type} (value : Option α) : Except DecodeError α :=
  value.elim (.error .mismatch) .ok

/-! ## Values without fields -/

/-- A text; a plain leaf is taken as it is written. -/
def text : Decoder String
  | .leaf (.exact (.text s)) => .ok s
  | .leaf (.plain s) => .ok s
  | _ => .error .mismatch

/-- A truth value. -/
def bool : Decoder Bool
  | .leaf (.exact (.bool b)) => .ok b
  | .leaf (.plain s) => orMismatch (Yaml.Plain.bool? s)
  | _ => .error .mismatch

/-- The natural number that a leaf stands for, if it has at most 64 bits. -/
def nat? : Document → Option Nat
  | .leaf (.exact (.int n)) => if 0 ≤ n then some n.toNat else none
  | .leaf (.plain s) => Yaml.Plain.nat? s
  | _ => none

/-- A natural number of at most `bits` bits. -/
def nat (bits : Nat) : Decoder Nat := fun d => orMismatch ((nat? d).filter (· < twoTo bits))

/-- Is this the missing value? -/
def isNull : Document → Bool
  | .leaf (.exact .null) => true
  | .leaf (.plain s) => Yaml.Plain.isNull s
  | _ => false

/-- Something that may be missing. -/
def optional {α : Type} (decode : Decoder α) : Decoder (Option α) := fun d =>
  if isNull d then .ok none else (decode d).map some

/-- A list; a plain leaf for the missing value is the empty list. -/
def list {α : Type} (decode : Decoder α) : Decoder (List α)
  | Tree.list items => items.mapM decode
  | .leaf (.plain s) => if Yaml.Plain.isNull s then .ok [] else .error .mismatch
  | _ => .error .mismatch

/-- A table of names that are not known beforehand; a plain leaf with nothing in it is the empty
    table. -/
def dict {α : Type} (decode : Decoder α) : Decoder (Dict α)
  | Tree.table fields => do
    let values ← fields.mapM fun (name, d) => do return (name, ← decode d)
    return .ofList values
  | .leaf (.plain "") => .ok []
  | _ => .error .mismatch

/-- One of several names.  A name may also be written as the only field of a table, with the missing
    value in it. -/
def choice {α : Type} (options : List (String × α)) (d : Document) : Except DecodeError α :=
  let name := match d with
    | .leaf (.exact (.text s)) | .leaf (.plain s) | .table [(s, .leaf (.exact .null))] => some s
    | _ => none
  orMismatch (name.bind fun name => options.lookup name)

/-- The meaning of a leaf where its kind is left open. -/
def resolveLeaf : Written → Except DecodeError Scalar
  | .exact value => .ok value
  | .plain s => orMismatch (Yaml.Plain.resolve? s)

/-- The document with the meaning of every leaf settled. -/
def resolve (d : Document) : Except DecodeError Json := d.traverse resolveLeaf

/-- Any value; what is no finite number becomes the missing value. -/
def value : Decoder Json := fun d => do
  let json ← resolve d
  let finite : Scalar → Scalar
    | .float x => if Binary64.isFinite x then .float x else .null
    | s => s
  return (json.map finite).sorted

/-! ## Records -/

/-- What was read from a record, or the first thing that is wrong and the place of its field. -/
structure Part (α : Type) where
  result : Except (Nat × DecodeError) α

namespace Part

/-- Puts two parts of a record together; of two errors the one of the earlier field counts. -/
def combine {α β : Type} (f : Part (α → β)) (x : Part α) : Part β :=
  match f.result, x.result with
  | .ok f, .ok a => ⟨.ok (f a)⟩
  | .ok _, .error e | .error e, .ok _ => ⟨.error e⟩
  | .error d, .error e => ⟨.error (if e.1 < d.1 then e else d)⟩

instance : Applicative Part where
  pure a := ⟨.ok a⟩
  seq f x := combine f (x ())

end Part

/-- The fields of a record in the order in which they are written. -/
structure Fields where
  entries : List (String × Document)
  /-- Is more written than the record has fields? -/
  excess : Bool

/-- The name of a field that may be written in several ways: the first of them. -/
def fieldName? (spellings : List (List String)) (name : String) : Option String :=
  (spellings.find? (·.contains name)).bind List.head?

/-- The fields of a record whose fields are spelled in the given ways.  Unknown fields are left out.  A
    list holds the fields in the order in which they are given here. -/
def fields (spellings : List (List String)) : Decoder Fields
  | Tree.table entries =>
    .ok ⟨entries.filterMap fun (name, d) => (fieldName? spellings name).map (·, d), false⟩
  | Tree.list items =>
    .ok ⟨(spellings.filterMap List.head?).zip items, spellings.length < items.length⟩
  | .leaf (.plain "") => .ok ⟨[], false⟩
  | _ => .error .mismatch

namespace Fields

/-- The places at which a field is written, and what is written there. -/
def places (fs : Fields) (name : String) : List (Nat × Document) :=
  (fs.entries.zipIdx.filter fun ((known, _), _) => known == name).map fun ((_, d), i) => (i, d)

/-- Reads a field, if it is there; it may be there only once. -/
def read? {α : Type} (fs : Fields) (name : String) (decode : Decoder α) : Part (Option α) :=
  ⟨match fs.places name with
    | [] => .ok none
    | (i, d) :: more =>
      match decode d, more with
      | .error e, _ => .error (i, e)
      | .ok _, (j, _) :: _ => .error (j, .mismatch)
      | .ok a, [] => .ok (some a)⟩

/-- A field that must be there. -/
def required {α : Type} (fs : Fields) (name : String) (decode : Decoder α) : Part α :=
  ⟨match (fs.read? name decode).result with
    | .ok (some a) => .ok a
    | .ok none => .error (fs.entries.length, .mismatch)
    | .error e => .error e⟩

/-- A field with a value for when it is not there. -/
def defaulted {α : Type} (fs : Fields) (name : String) (decode : Decoder α) (default : α) :
    Part α :=
  (fun a : Option α => a.getD default) <$> fs.read? name decode

/-- A field that may be missing. -/
def optional {α : Type} (fs : Fields) (name : String) (decode : Decoder α) : Part (Option α) :=
  fs.defaulted name (Document.optional decode) none

end Fields

/-- Reads a record: spelling of its fields, and how it is put together from them. -/
def record {α : Type} (spellings : List (List String)) (build : Fields → Part α) : Decoder α :=
  fun d => do
    let fs ← fields spellings d
    match (build fs).result with
    | .error (_, e) => .error e
    | .ok a => if fs.excess then .error .mismatch else .ok a

end Document

end RuleSieve
