/-
  What stands in the text of a report.

  The findings stand in sections, one for each path that is shown, and the sections are in the order of
  the bytes of their paths (`Sections`).  Read from the first section to the last, the findings are
  those of the report sorted by path, so that none is lost or repeated; failures and traces come after
  them as they stand in the report (`TextStyle.report_conserves`).  What an entry says is in its lines
  (`Lines`).
-/
import RuleSieve.Output.Text
import RuleSieve.Proofs.GroupBy

namespace RuleSieve

/-- The path under which a finding is shown. -/
def Finding.place (f : Finding) : String := shownPath f.path

/-- The sections divide the findings by the paths that are shown. -/
structure Sections (findings : List Finding) (sections : List (String × List Finding)) : Prop where
  /-- The paths increase byte by byte, so that there is one section of each. -/
  increasing : (sections.map (·.1)).Pairwise fun path path' => Text.bytes path < Text.bytes path'
  mem_paths : ∀ path, path ∈ sections.map (·.1) ↔ ∃ f ∈ findings, f.place = path
  /-- A section has the findings of its path, in the order of the report. -/
  group : ∀ path fs, (path, fs) ∈ sections → fs = findings.filter (·.place == path) ∧ fs ≠ []
  /-- From the first section to the last, the findings are sorted by path. -/
  findings : sections.flatMap (·.2) = sortBy Finding.place findings

namespace TextStyle

theorem byPath_eq (findings : List Finding) : byPath findings = Dict.groupBy Finding.place findings :=
  rfl

theorem sections_byPath (findings : List Finding) : Sections findings (byPath findings) where
  increasing := by
    have hsorted := Dict.sorted_groupBy Finding.place findings
    rw [byPath_eq, List.pairwise_map]
    exact hsorted.imp fun hlt => (Text.bytes_lt_iff _ _).2 hlt
  mem_paths _ := Dict.mem_names_groupBy
  group _ _ h := Dict.mem_groupBy_iff.1 h
  findings := Dict.flatMap_groupBy _ _

/-- What the lines of the entries say, without colours. -/
structure Lines (style : TextStyle) (r : Report) : Prop where
  /-- A finding is known by its path and its span; it says its severity, its rule and its message, and
      what would put it right if that is shown. -/
  finding : ∀ f ∈ r.findings, style.finding f =
    f.place ++ ":" ++ f.span.text ++ ": " ++ f.severity.name ++ "[" ++ f.ruleId ++ "]: " ++
      f.message ++ "\n" ++
      (if style.fixes = true then
        f.fix.elim "" (fun fix => "   = fix: " ++ fix ++ "\n") ++
          f.fixRegex.elim "" fun fix =>
            "   = fix-regex: s/" ++ fix.regex ++ "/" ++ fix.replacement ++ "/\n"
      else "")
  /-- A failure says its kind and its message, after the path of its unit. -/
  failure : ∀ f ∈ r.failures, style.failure f =
    Finding.shownPath f.path ++ ": failed[" ++ f.kind.name ++ "]: " ++ f.message ++ "\n"
  /-- A trace begins with its rule and the path of its unit; then come the spans of each pattern and the
      steps, a line for each. -/
  trace : ∀ t ∈ r.traces, style.trace t =
    t.ruleId ++ " " ++ Finding.shownPath t.path ++ "\n" ++
      String.join (t.trace.initial.map fun entry =>
        "   · " ++ entry.1 ++ ": " ++ spanList entry.2 ++ "\n") ++
      String.join (t.trace.steps.map fun step => "   → " ++ step.text ++ "\n")

/-- A line with a heading, the entries under it, and an empty line. -/
def under (heading : String) (entries : List String) : String :=
  heading ++ "\n" ++ String.join entries ++ "\n"

variable {style : TextStyle}

theorem paint_of_plain (h : style.colored = false) (paint : Paint) (text : String) :
    style.paint paint text = text := by
  rw [TextStyle.paint, Paint.when, h]
  rfl

theorem fileSection_of_plain (h : style.colored = false) (path : String) (findings : List Finding) :
    style.fileSection path findings = under path (findings.map style.finding) := by
  rw [fileSection, paint_of_plain h, under]

theorem section?_of_plain (h : style.colored = false) (heading : String) (entries : List String) :
    style.section? heading entries = if entries = [] then "" else under heading entries := by
  rw [section?, paint_of_plain h, under]
  simp only [List.isEmpty_iff]

/-- Without colours the lines of an entry are made of what the report has in it. -/
theorem lines_of_plain (h : style.colored = false) (r : Report) : Lines style r where
  finding f _ := by
    simp only [TextStyle.finding, fixLines, paint_of_plain h]
    rfl
  failure f _ := by
    have hword : ": failed[" = ": " ++ "failed" ++ "[" := rfl
    simp only [TextStyle.failure, paint_of_plain h, hword, ← String.append_assoc]
    rfl
  trace t _ := by
    simp only [TextStyle.trace, paint_of_plain h]
    rfl

/-- **The text of a report conserves what the report holds.**  Without colours it begins with the
    sections of the findings, each with its path as a heading; then come all failures and, if they are
    shown, all traces, in the order of the report.  Every entry says in its lines what the report has
    in it. -/
theorem report_conserves (style : TextStyle) (r : Report) (h : style.colored = false) :
    Sections r.findings (byPath r.findings) ∧
    style.report r =
      String.join ((byPath r.findings).map fun s => under s.1 (s.2.map style.finding)) ++
      (if r.failures = [] then "" else under "Failures" (r.failures.map style.failure)) ++
      (if style.traces = true ∧ r.traces ≠ [] then under "Traces" (r.traces.map style.trace)
        else "") ++
      (if style.stats = true then style.statistics r else "") ∧
    Lines style r := by
  refine ⟨sections_byPath r.findings, ?_, lines_of_plain h r⟩
  have hsections : (byPath r.findings).map (fun s => style.fileSection s.1 s.2) =
      (byPath r.findings).map fun s => under s.1 (s.2.map style.finding) :=
    List.map_congr_left fun s _ => fileSection_of_plain h s.1 s.2
  have htraces : (if style.traces = true then style.section? "Traces" (r.traces.map style.trace)
      else "") = if style.traces = true ∧ r.traces ≠ [] then
        under "Traces" (r.traces.map style.trace) else "" := by
    rw [section?_of_plain h]
    by_cases hshown : style.traces = true <;> by_cases hnone : r.traces = [] <;>
      simp [hshown, hnone]
  rw [report, hsections, section?_of_plain h, htraces]
  simp only [List.map_eq_nil_iff]

/-- A finding in a file, or in an unknown one. -/
def foundIn (path : Option String) (start : Nat) : Finding :=
  { ruleId := "r", path, span := ⟨start, start + 1, []⟩, message := "m", metadata := []
    severity := .warning, fix := none, fixRegex := none, bindings := [] }

/-- A report in which the findings of a file do not stand side by side. -/
def interleaved : Report :=
  { findings := [foundIn (some "b.py") 5, foundIn none 3, foundIn (some "a.py") 1,
      foundIn (some "b.py") 2]
    failures := [⟨"r", some "a.py", .bindingMiss, "m"⟩] }

/-- The findings of the file come together, in the order of the report and not in that of their
    spans; what has no file comes first. -/
theorem report_conserves_interleaved :
    let style : TextStyle := { colored := false, stats := false }
    style.colored = false ∧
      Sections interleaved.findings [("<unknown>", [foundIn none 3]),
        ("a.py", [foundIn (some "a.py") 1]),
        ("b.py", [foundIn (some "b.py") 5, foundIn (some "b.py") 2])] ∧
      style.report interleaved =
        under "<unknown>" [style.finding (foundIn none 3)] ++
          under "a.py" [style.finding (foundIn (some "a.py") 1)] ++
          under "b.py" [style.finding (foundIn (some "b.py") 5),
            style.finding (foundIn (some "b.py") 2)] ++
          under "Failures" ["a.py: failed[binding-miss]: m\n"] := by
  intro style
  obtain ⟨hsections, htext, hlines⟩ := report_conserves style interleaved rfl
  have hfailures : interleaved.failures.map style.failure = ["a.py: failed[binding-miss]: m\n"] := by
    rw [interleaved, List.map_singleton, hlines.failure _ (List.mem_singleton_self _)]
    rfl
  have hpaths : byPath interleaved.findings = [("<unknown>", [foundIn none 3]),
      ("a.py", [foundIn (some "a.py") 1]),
      ("b.py", [foundIn (some "b.py") 5, foundIn (some "b.py") 2])] := rfl
  rw [hpaths] at hsections htext
  refine ⟨rfl, hsections, ?_⟩
  rw [htext, hfailures]
  simp [style, interleaved, String.join, String.append_assoc]

end TextStyle

end RuleSieve
