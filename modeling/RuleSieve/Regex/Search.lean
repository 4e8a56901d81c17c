/-
  Searching a text with a machine.

  The search goes through threads in order of preference and never takes up an instruction twice at
  the same place of the text: what was tried before, from a thread that is preferred, has failed or
  is still being tried.  Hence the first thread to accept is the preferred match that starts
  furthest to the left, and the search ends after as many rounds as there are pairs of instruction
  and place, and a thread more for each.
-/
import RuleSieve.Regex.Program

namespace RuleSieve.Regex

/-- The places remembered so far. -/
abbrev Slots := List (Nat × Nat)

/-- A thread: where it stands in the program and in the text, and what it remembers. -/
structure Thread where
  pc : Nat
  place : Nat
  slots : Slots
  deriving Repr

/-- What has not been tried yet. -/
def untried (tried : Array Bool) : Nat := tried.countP (!·)

theorem untried_set_lt {tried : Array Bool} {i : Nat} (h : tried[i]? = some false) :
    untried (tried.setIfInBounds i true) < untried tried := by
  obtain ⟨hi, hv⟩ := Array.getElem?_eq_some_iff.1 h
  have hl : i < tried.toList.length := by simpa using hi
  have hf : tried.toList[i] = false := by simpa using hv
  have hpos : 0 < List.countP (fun b => !b) tried.toList :=
    List.countP_pos_iff.2 ⟨tried.toList[i], List.getElem_mem hl, by simp [hf]⟩
  unfold untried
  rw [← Array.countP_toList, ← Array.countP_toList, Array.toList_setIfInBounds, List.countP_set hl,
    hf]
  show List.countP (fun b => !b) tried.toList - 1 + 0 < List.countP (fun b => !b) tried.toList
  omega

/-- The threads that follow a thread in one step without accepting, the preferred one first. -/
def Thread.next (program : Program) (text : Array Char) (t : Thread) : List Thread :=
  match program[t.pc]? with
  | some (.char set next) =>
    match text[t.place]? with
    | some c => if set.contains c then [{ t with pc := next, place := t.place + 1 }] else []
    | none => []
  | some (.look condition next) =>
    let before := if t.place = 0 then none else text[t.place - 1]?
    if condition.holds before text[t.place]? then [{ t with pc := next }] else []
  | some (.save slot next) => [{ t with pc := next, slots := (slot, t.place) :: t.slots }]
  | some (.split first second) => [{ t with pc := first }, { t with pc := second }]
  | some .accept | none => []

/-- Does the thread stand at the end of the program? -/
def Thread.accepts (program : Program) (t : Thread) : Bool :=
  match program[t.pc]? with
  | some .accept => true
  | _ => false

/-- Runs threads until one accepts, and gives what it remembers. -/
def run (program : Program) (text : Array Char) (tried : Array Bool) : List Thread → Option Slots
  | [] => none
  | t :: threads =>
    let key := t.pc * (text.size + 1) + t.place
    if _h : tried[key]? = some false then
      if t.accepts program then some t.slots
      else run program text (tried.setIfInBounds key true) (t.next program text ++ threads)
    else run program text tried threads
termination_by threads => (untried tried, threads.length)
decreasing_by
  · exact Prod.Lex.left _ _ (untried_set_lt _h)
  · exact Prod.Lex.right _ (by simp)

/-- The first match that starts at `start` or later. -/
def Machine.searchFrom (m : Machine) (text : Array Char) (start : Nat) : Option Slots :=
  let tried := Array.replicate (m.program.size * (text.size + 1)) false
  let places := (List.range (text.size + 1)).drop start
  run m.program text tried (places.map fun place => ⟨m.entry, place, []⟩)

end RuleSieve.Regex
