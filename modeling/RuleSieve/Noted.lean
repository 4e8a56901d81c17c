/-
  Results with notes on the way to them.

  Whatever a filter cannot judge it drops, and says so in a note.  Notes are kept in order, also those
  that came before a fault.
-/
import RuleSieve.Fault
import RuleSieve.Span

namespace RuleSieve

/-- Why a span or a match was dropped without being judged. -/
inductive Note where
  | missing (metavariable : String) (span : Span)
  | notANumber (metavariable text : String)
  | comparisonFailed (source : String) (span : Span) (problem : Predicate.Error)
  | unboundInWhere (name source : String)
  | whereFailed (source : String) (problem : Predicate.Error)
  deriving Repr

/-- The text of a note, with its level before it. -/
def Note.text : Note → String
  | .missing name span => s!"DEBUG metavariable '{name}' missing in range '{span.text}'"
  | .notANumber name text => s!"DEBUG metavariable '{name}' incorrect comparison type '{text}'"
  | .comparisonFailed source span problem =>
    s!"DEBUG comparison '{source}' failed on {span.text}: {problem.message}"
  | .unboundInWhere name source =>
    s!"ERROR could not find metavariable {name} while evaluating where expression '{source}', "
      ++ "consider case where metavariable is missing"
  | .whereFailed source problem =>
    s!"ERROR received error '{problem.message}' while evaluating where expression '{source}'"

/-- A result, or a fault, with the notes that were made. -/
structure Noted (α : Type) where
  notes : List Note
  result : Except Fault α

namespace Noted

/-- A result without notes. -/
def ofExcept {α : Type} (result : Except Fault α) : Noted α := ⟨[], result⟩

/-- Goes on with a result; after a fault nothing is done any more. -/
def andThen {α β : Type} (x : Noted α) (f : α → Noted β) : Noted β :=
  match x.result with
  | .error fault => ⟨x.notes, .error fault⟩
  | .ok a => ⟨x.notes ++ (f a).notes, (f a).result⟩

instance : Monad Noted where
  pure a := ⟨[], .ok a⟩
  bind := andThen

end Noted

end RuleSieve
