/-
  Settings in layers.

  Settings are put on top of each other two at a time.  In which order the pairs are formed does not
  matter (`Config.merge_assoc`, `Layering.merged_eq`), so a result is known by its layers alone, from
  the lowest to the highest (`Layered`): a rule that one of them disables is disabled, what one of them
  allows is allowed, and for a severity, the jobs and the parallel mode the highest layer that says
  something counts.
-/
import Mathlib.Data.List.Induction
import RuleSieve.Config
import RuleSieve.Proofs.Table

namespace RuleSieve

/-! ## Tables on top of tables -/

namespace Dict

variable {α : Type}

/-- An entry that is inserted hides the one under its name and no other. -/
theorem find?_insert {d : Dict α} (hd : d.Sorted) (name other : String) (value : α) :
    find? other (insert name value d) = if other = name then some value else find? other d :=
  find?_alter hd name other fun _ => value

theorem Sorted.insert {d : Dict α} (hd : d.Sorted) (name : String) (value : α) :
    Sorted (d.insert name value) := hd.alter name fun _ => value

/-- The table with all entries of another one put into it. -/
def overlay (d above : Dict α) : Dict α :=
  above.foldl (fun d (name, value) => d.insert name value) d

/-- Laying a table over another keeps it in order. -/
theorem Sorted.overlay {d : Dict α} (hd : d.Sorted) (above : Dict α) : Sorted (d.overlay above) := by
  induction above generalizing d with
  | nil => exact hd
  | cons entry above ih => exact ih (hd.insert _ _)

/-- What the table on top says of a name counts, if it says something. -/
theorem find?_overlay {d above : Dict α} (hd : d.Sorted) (habove : above.Sorted) (name : String) :
    find? name (d.overlay above) = (find? name above).or (find? name d) := by
  induction above generalizing d with
  | nil => rfl
  | cons entry above ih =>
    obtain ⟨key, value⟩ := entry
    obtain ⟨hhead, htail⟩ := List.pairwise_cons.1 habove
    show find? name ((d.insert key value).overlay above) = _
    rw [ih (hd.insert key value) htail, find?_insert hd, find?]
    by_cases hname : name = key
    · -- the names increase, so this one is not further up
      subst hname
      rw [find?_eq_none_of_lt hhead, if_pos rfl, if_pos rfl]
      rfl
    · rw [if_neg hname, if_neg hname]

/-- Tables may be laid over each other in any grouping. -/
theorem overlay_assoc {a b c : Dict α} (ha : a.Sorted) (hb : b.Sorted) (hc : c.Sorted) :
    (a.overlay b).overlay c = a.overlay (b.overlay c) := by
  refine ((ha.overlay b).overlay c).ext (ha.overlay _) fun name => ?_
  rw [find?_overlay (ha.overlay b) hc, find?_overlay ha hb, find?_overlay ha (hb.overlay c),
    find?_overlay hb hc, Option.or_assoc]

end Dict

/-! ## Two layers -/

namespace Config

/-- The severities stand in the order of their rules, one for each rule. -/
def Ordered (config : Config) : Prop := Dict.Sorted config.rules.severity

variable {a b c : Config}

theorem Ordered.merge (ha : a.Ordered) (b : Config) : (a.merge b).Ordered :=
  Dict.Sorted.overlay ha b.rules.severity

/-- Settings may be merged in any grouping. -/
theorem merge_assoc (ha : a.Ordered) (hb : b.Ordered) (hc : c.Ordered) :
    (a.merge b).merge c = a.merge (b.merge c) := by
  have hseverity : ((a.merge b).merge c).rules.severity = (a.merge (b.merge c)).rules.severity :=
    Dict.overlay_assoc ha hb hc
  have hjobs : ((a.merge b).merge c).engine.jobs = (a.merge (b.merge c)).engine.jobs := by
    show (if c.engine.jobs ≠ 0 then c.engine.jobs else (a.merge b).engine.jobs) =
      if (b.merge c).engine.jobs ≠ 0 then (b.merge c).engine.jobs else a.engine.jobs
    by_cases hzero : c.engine.jobs = 0 <;> simp [merge, hzero]
  have hdisabled : ((a.merge b).merge c).rules.disabled = (a.merge (b.merge c)).rules.disabled :=
    List.append_assoc _ _ _
  have hevaluation : ((a.merge b).merge c).evaluation = (a.merge (b.merge c)).evaluation := by
    simp only [merge, Bool.or_assoc]
  show (⟨_, ⟨_, _⟩, ⟨_, _⟩⟩ : Config) = ⟨_, ⟨_, _⟩, ⟨_, _⟩⟩
  rw [Config.mk.injEq, EngineSettings.mk.injEq, RuleSettings.mk.injEq]
  exact ⟨hevaluation, ⟨rfl, hjobs⟩, hdisabled, hseverity⟩

/-- A rule is used just if both layers use it. -/
theorem enables_merge_iff (id : String) :
    (a.merge b).enables id = true ↔ a.enables id = true ∧ b.enables id = true := by
  simp [enables, merge]

/-- The severity of the upper layer counts, if it has one. -/
theorem severity?_merge (ha : a.Ordered) (hb : b.Ordered) (id : String) :
    (a.merge b).severity? id = (b.severity? id).or (a.severity? id) :=
  Dict.find?_overlay ha hb id

/-! ## Many layers -/

/-- The settings are those of the layers, from the lowest one on. -/
structure Layered (first : Config) (above : List Config) (merged : Config) : Prop where
  /-- A rule is used just if every layer uses it. -/
  enables : ∀ id, merged.enables id = true ↔ ∀ c ∈ first :: above, c.enables id = true
  /-- A rule has the severity that the highest layer gives it of those that give it one. -/
  severity? : ∀ id, merged.severity? id = (first :: above).reverse.findSome? (·.severity? id)
  allowExec : merged.evaluation.allowExec = true ↔
    ∃ c ∈ first :: above, c.evaluation.allowExec = true
  collectTraces : merged.evaluation.collectTraces = true ↔
    ∃ c ∈ first :: above, c.evaluation.collectTraces = true
  /-- The highest layer above the first that sets a number of jobs counts, and else the first. -/
  jobs : merged.engine.jobs =
    ((above.map (·.engine.jobs)).reverse.find? (· ≠ 0)).getD first.engine.jobs
  parallel : merged.engine.parallel = (above.getLastD first).engine.parallel

theorem layered_nil (first : Config) : Layered first [] first where
  enables id := by simp
  severity? id := by simp
  allowExec := by simp
  collectTraces := by simp
  jobs := rfl
  parallel := rfl

/-- One layer more on top. -/
theorem Layered.merge {first merged top : Config} {above : List Config}
    (h : Layered first above merged) (hmerged : merged.Ordered) (htop : top.Ordered) :
    Layered first (above ++ [top]) (merged.merge top) where
  enables id := by
    rw [enables_merge_iff, h.enables, ← List.cons_append, List.forall_mem_append,
      List.forall_mem_singleton]
  severity? id := by
    rw [severity?_merge hmerged htop, h.severity?, ← List.cons_append, List.reverse_append,
      List.reverse_singleton, List.singleton_append, List.findSome?_cons]
    cases top.severity? id <;> rfl
  allowExec := by
    show (merged.evaluation.allowExec || top.evaluation.allowExec) = true ↔ _
    rw [Bool.or_eq_true, h.allowExec, ← List.cons_append]
    simp only [List.mem_append, List.mem_singleton, or_and_right, exists_or, exists_eq_left]
  collectTraces := by
    show (merged.evaluation.collectTraces || top.evaluation.collectTraces) = true ↔ _
    rw [Bool.or_eq_true, h.collectTraces, ← List.cons_append]
    simp only [List.mem_append, List.mem_singleton, or_and_right, exists_or, exists_eq_left]
  jobs := by
    show (if top.engine.jobs ≠ 0 then top.engine.jobs else merged.engine.jobs) = _
    rw [h.jobs, List.map_append, List.reverse_append, List.map_singleton, List.reverse_singleton,
      List.singleton_append, List.find?_cons]
    by_cases hzero : top.engine.jobs = 0 <;> simp [hzero]
  parallel := by
    show top.engine.parallel = _
    rw [List.getLastD_concat]

theorem Ordered.foldl_merge {first : Config} (h : first.Ordered) (above : List Config) :
    (above.foldl Config.merge first).Ordered := by
  induction above generalizing first with
  | nil => exact h
  | cons c above ih => exact ih (h.merge c)

/-- Merging layers one after the other gives what the layers say together. -/
theorem layered_foldl_merge {first : Config} {above : List Config}
    (h : ∀ c ∈ first :: above, c.Ordered) : Layered first above (above.foldl Config.merge first) := by
  obtain ⟨hfirst, habove⟩ := List.forall_mem_cons.1 h
  induction above using List.reverseRecOn with
  | nil => exact layered_nil first
  | append_singleton above top ih =>
    obtain ⟨habove, htop⟩ := List.forall_mem_append.1 habove
    rw [List.foldl_append]
    exact (ih (List.forall_mem_cons.2 ⟨hfirst, habove⟩) habove).merge (hfirst.foldl_merge above)
      (htop top List.mem_cons_self)

/-- Merging into the lowest layer can be done in one go with what was merged before. -/
theorem foldl_merge_cons {a b : Config} {above : List Config} (ha : a.Ordered) (hb : b.Ordered)
    (habove : ∀ c ∈ above, c.Ordered) :
    a.merge (above.foldl Config.merge b) = (b :: above).foldl Config.merge a := by
  induction above using List.reverseRecOn with
  | nil => rfl
  | append_singleton above top ih =>
    obtain ⟨habove, htop⟩ := List.forall_mem_append.1 habove
    have htop := htop top List.mem_cons_self
    calc a.merge ((above ++ [top]).foldl Config.merge b)
      _ = a.merge ((above.foldl Config.merge b).merge top) := by rw [List.foldl_append]; rfl
      _ = (a.merge (above.foldl Config.merge b)).merge top :=
          (merge_assoc ha (hb.foldl_merge above) htop).symm
      _ = ((b :: above).foldl Config.merge a).merge top := by rw [ih habove]
      _ = (b :: (above ++ [top])).foldl Config.merge a := by
          rw [← List.cons_append, List.foldl_append]
          rfl

end Config

/-! ## Merging in any order -/

/-- Settings, and merged settings that are merged again. -/
inductive Layering where
  | single (config : Config)
  | merge (lower upper : Layering)

namespace Layering

/-- The settings in the end. -/
def merged : Layering → Config
  | .single config => config
  | .merge lower upper => lower.merged.merge upper.merged

/-- The lowest layer. -/
def first : Layering → Config
  | .single config => config
  | .merge lower _ => lower.first

/-- The layers above the lowest one. -/
def above : Layering → List Config
  | .single _ => []
  | .merge lower upper => lower.above ++ upper.first :: upper.above

/-- All layers, from the lowest one on. -/
def layers (l : Layering) : List Config := l.first :: l.above

theorem layers_merge (lower upper : Layering) :
    (merge lower upper).layers = lower.layers ++ upper.layers := rfl

/-- Only the layers matter, and not how they were put together. -/
theorem merged_eq {l : Layering} (h : ∀ c ∈ l.layers, c.Ordered) :
    l.merged = l.above.foldl Config.merge l.first := by
  induction l with
  | single config => rfl
  | merge lower upper ihlower ihupper =>
    rw [layers_merge] at h
    obtain ⟨hlower, hupper⟩ := List.forall_mem_append.1 h
    obtain ⟨hfirst, -⟩ := List.forall_mem_cons.1 hlower
    obtain ⟨hupperfirst, hupperabove⟩ := List.forall_mem_cons.1 hupper
    show lower.merged.merge upper.merged =
      (lower.above ++ upper.first :: upper.above).foldl Config.merge lower.first
    rw [ihlower hlower, ihupper hupper, List.foldl_append]
    exact Config.foldl_merge_cons (hfirst.foldl_merge lower.above) hupperfirst hupperabove

/-- **Settings that are merged are known by their layers.**  However they are put together, the result
    is that of merging one after the other, and each of its settings is that of its layers. -/
theorem merged_layered (l : Layering) (h : ∀ c ∈ l.layers, c.Ordered) :
    l.merged = l.above.foldl Config.merge l.first ∧ Config.Layered l.first l.above l.merged := by
  refine ⟨merged_eq h, ?_⟩
  rw [merged_eq h]
  exact Config.layered_foldl_merge h

/-- Three layers, the upper two of which are merged first. -/
def threeLayers : Layering :=
  .merge (.single { engine := { jobs := 2 }, rules := { severity := [("r", .info), ("s", .info)] } })
    (.merge
      (.single { evaluation := { allowExec := true }, rules := { severity := [("r", .error)] } })
      (.single { engine := { parallel := false }, rules := { disabled := ["s"] } }))

/-- Each layer says something about the result. -/
theorem merged_layered_three : (∀ c ∈ threeLayers.layers, c.Ordered) ∧
    threeLayers.merged.severity? "r" = some .error ∧ threeLayers.merged.severity? "s" = some .info ∧
    threeLayers.merged.enables "s" = false ∧ threeLayers.merged.evaluation.allowExec = true ∧
    threeLayers.merged.engine.jobs = 2 ∧ threeLayers.merged.engine.parallel = false := by
  have hordered : ∀ c ∈ threeLayers.layers, c.Ordered := by
    have hlowest : Dict.Sorted [("r", Severity.info), ("s", Severity.info)] :=
      List.pairwise_pair.2 (by decide)
    have hmiddle : Dict.Sorted [("r", Severity.error)] := List.pairwise_singleton _ _
    have htop : Dict.Sorted ([] : Dict Severity) := List.Pairwise.nil
    show ∀ c ∈ [_, _, _], Config.Ordered c
    rw [List.forall_mem_cons, List.forall_mem_cons, List.forall_mem_singleton]
    exact ⟨hlowest, hmiddle, htop⟩
  obtain ⟨-, h⟩ := merged_layered threeLayers hordered
  refine ⟨hordered, ?_, ?_, ?_, ?_, ?_, ?_⟩
  · rw [h.severity?]
    rfl
  · rw [h.severity?]
    rfl
  · rw [← Bool.not_eq_true, h.enables]
    simp [threeLayers, first, above, Config.enables]
  · rw [h.allowExec]
    simp [threeLayers, first, above]
  · rw [h.jobs]
    rfl
  · rw [h.parallel]
    rfl

end Layering

end RuleSieve
