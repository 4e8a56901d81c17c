/-
  Matches of patterns in a source text, and matches grouped by pattern.
-/
import RuleSieve.Span

namespace RuleSieve

/-! ## Matches -/

/-- The text that a metavariable is bound to, and where it stands if that is known. -/
structure Binding where
  content : String
  start : Option Nat
  stop : Option Nat
  deriving Repr, DecidableEq

/-- A binding without its place. -/
def Binding.ofText (text : String) : Binding := ⟨text, none, none⟩

/-- One place where a pattern occurs. -/
structure Match where
  patternId : String
  span : Span
  bindings : Dict Binding
  deriving Repr, DecidableEq

namespace Match

/-- A match whose span knows the names that the match binds. -/
def ofBindings (patternId : String) (start stop : Nat) (bindings : Dict Binding) : Match :=
  ⟨patternId, ⟨start, stop, nameSet bindings.names⟩, bindings⟩

/-- A match that binds nothing. -/
def bare (patternId : String) (start stop : Nat) : Match := ofBindings patternId start stop []

/-- The match with a name bound to a text, in its span too. -/
def bind (m : Match) (name text : String) : Match :=
  { m with
    bindings := m.bindings.insert name (.ofText text)
    span := { m.span with vars := insertName name m.span.vars } }

/-- Does the match bind the name? -/
def binds (m : Match) (name : String) : Bool := m.bindings.has name

/-- The text that a name is bound to. -/
def value? (m : Match) (name : String) : Option String := (m.bindings.find? name).map (·.content)

end Match

/-! ## Matches by pattern -/

/-- The matches of each pattern, in the order in which they came. -/
structure Registry where
  groups : Dict (List Match)

namespace Registry

/-- Groups matches by pattern. -/
def ofMatches (ms : List Match) : Registry :=
  ⟨ms.foldl (fun groups m => groups.alter m.patternId fun group => group.getD [] ++ [m]) []⟩

/-- The matches of a pattern. -/
def matchesFor (r : Registry) (id : String) : List Match := (r.groups.find? id).getD []

/-- The spans of the matches of a pattern, with repetitions; none without a pattern. -/
def spansFor (r : Registry) (id : Option String) : List Span :=
  id.elim [] fun id => (r.matchesFor id).map (·.span)

/-- All matches, pattern by pattern. -/
def allMatches (r : Registry) : List Match := r.groups.flatMap (·.2)

/-- The spans of all matches; of several with one interval the last one stays. -/
def allSpans (r : Registry) : SpanSet := .ofList (r.allMatches.map (·.span))

/-- The different spans of each pattern, in order. -/
def spansByPattern (r : Registry) : Dict (List Span) :=
  r.groups.map fun (id, group) => (id, (SpanSet.ofList (group.map (·.span))).spans)

/-- The bindings of each name in the matches of a pattern; none without a pattern. -/
def bindingsFor (r : Registry) (id : Option String) : Dict (List Binding) :=
  id.elim [] fun id =>
    ((r.matchesFor id).flatMap (·.bindings)).foldl
      (fun byName (name, binding) =>
        Dict.alter name (fun bindings => bindings.getD [] ++ [binding]) byName) []

/-- The patterns that have a match. -/
def patternIds (r : Registry) : List String := r.groups.names

end Registry

end RuleSieve
