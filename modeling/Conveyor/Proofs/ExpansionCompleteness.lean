import Conveyor.Proofs.MatrixCoverage
import Conveyor.Proofs.TemplateRendering
import Conveyor.Proofs.Workshop

/-! What validation says about expansion. All templates of a valid pipeline use variables that the event or some matrix
key gives; expansion fails only where such a key is an axis that no combination sets. -/

namespace Conveyor

open Fallible

namespace Validation

theorem templateProblems_nil {subject : String} {names allowed sometimes : List String}
    (clean : templateProblems subject names allowed sometimes = []) : ∀ name ∈ names, name ∈ allowed := by
  intro name member
  by_contra unknown
  rw [templateProblems, List.map_eq_nil_iff] at clean
  have listed : name ∈ Text.sortedSet (names.filter fun name => !allowed.contains name) := by
    rw [Text.sortedSet, Text.sorted, List.mem_mergeSort, List.mem_eraseDups, List.mem_filter]
    exact ⟨member, by simpa using unknown⟩
  rw [clean] at listed
  cases listed

theorem checkEnds_ok {values : List Value} : checkEnds values = .ok () ↔ ∀ v ∈ values, v.isEndless = false := by
  unfold checkEnds
  split
  next some =>
    obtain ⟨v, member, endless⟩ := List.any_eq_true.1 some
    exact iff_of_false nofun fun all => by cases endless.symm.trans (all v member)
  next none => exact iff_of_true rfl (by simpa using none)

/-- The variables of a stage without problems may be used there, and are not set by some combinations alone. -/
structure Clean (s : Stage) (combinations : List Mapping) : Prop where
  expanded : s.combinations = .ok combinations
  writable : ∀ c ∈ combinations, c.keys.any Value.isUnwritable = false
  ends : ∀ v ∈ searched s, v.isEndless = false
  known : ∀ name ∈ s.mentions, name ∈ s.templateNames
  covered : ∀ name ∈ s.mentions, ∀ c ∈ combinations, name ∈ c.keys.map matrixVariable →
    name ∈ (commonKeys combinations).map matrixVariable

theorem hasUnwritableKey_iff {s : Stage} {m : Matrix} (declared : s.matrix = some m) :
    hasUnwritableKey s = true ↔ ∃ entry ∈ m.included, ∃ key ∈ entry.keys, key.isUnwritable = true := by
  simp only [hasUnwritableKey, declared, Option.map_some, Option.getD_some, List.any_eq_true]

theorem hasUnwritableKey_eq_false {s : Stage} {m : Matrix} (declared : s.matrix = some m) :
    hasUnwritableKey s = false ↔ ∀ entry ∈ m.included, ∀ key ∈ entry.keys, key.isUnwritable = false := by
  rw [← Bool.not_eq_true, hasUnwritableKey_iff declared]
  simp only [not_exists, not_and, Bool.not_eq_true]

theorem combinations_writable {s : Stage} {combinations : List Mapping} (found : s.combinations = .ok combinations)
    (writable : hasUnwritableKey s = false) : ∀ c ∈ combinations, c.keys.any Value.isUnwritable = false := by
  have empty : ∀ c ∈ ([[]] : List Mapping), c.keys.any Value.isUnwritable = false := by
    intro c member
    cases List.mem_singleton.1 member
    rfl
  unfold Stage.combinations at found
  cases declared : s.matrix with
  | none =>
    rw [declared] at found
    cases found
    exact empty
  | some m =>
    rw [declared] at found
    rcases Matrix.combinations_ok (mapError_ok.1 found) with ⟨_, _, rfl⟩ | ⟨_, rfl, _⟩
    · exact empty
    · exact Matrix.merged_written ((hasUnwritableKey_eq_false declared).1 writable)

theorem matrixProblems_nil {s : Stage} {sometimes : List String} (clean : matrixProblems s = .ok ([], sometimes)) :
    ∃ combinations, s.combinations = .ok combinations ∧
      (∀ c ∈ combinations, c.keys.any Value.isUnwritable = false) ∧
      ∀ name, name ∉ sometimes → ∀ c ∈ combinations, name ∈ c.keys.map matrixVariable →
        name ∈ (commonKeys combinations).map matrixVariable := by
  unfold matrixProblems at clean
  split at clean
  next => cases clean
  next => split at clean <;> cases clean
  next combinations found =>
    split at clean
    next => cases clean
    next writable =>
      cases clean
      refine ⟨combinations, found, combinations_writable found (Bool.eq_false_iff.2 writable), ?_⟩
      intro name always c member set
      by_contra uncommon
      apply always
      rw [List.mem_filter]
      exact ⟨List.mem_flatMap.2 ⟨c, member, set⟩, by simpa using uncommon⟩

theorem stageProblems_nil {α : Type} {executors : Registry α} {s : Stage}
    (clean : stageProblems executors s = .ok []) : ∃ combinations, Clean s combinations := by
  obtain ⟨_, _, rest⟩ := bind_ok.1 clean
  obtain ⟨⟨matrix, sometimes⟩, checked, rest⟩ := bind_ok.1 rest
  obtain ⟨_, ends, rest⟩ := bind_ok.1 rest
  have none := Except.ok.inj rest
  simp only [List.append_eq_nil_iff, List.flatMap_eq_nil_iff] at none
  obtain ⟨⟨⟨⟨⟨⟨_, rfl⟩, _⟩, steps⟩, produces⟩, env⟩, runsOn⟩ := none.1
  obtain ⟨combinations, expanded, writable, covered⟩ := matrixProblems_nil checked
  have used : ∀ name ∈ s.mentions, name ∈ s.templateNames.filter fun name => !sometimes.contains name := by
    simp only [Stage.mentions, List.forall_mem_append, List.forall_mem_flatMap]
    refine ⟨⟨⟨⟨?_, ?_⟩, List.forall_mem_flatMap.1 (templateProblems_nil produces)⟩, templateProblems_nil env⟩,
      templateProblems_nil runsOn⟩
    · intro step member
      obtain ⟨index, place⟩ := List.mem_iff_getElem?.1 member
      have numbered : (step, index) ∈ s.steps.zipIdx :=
        List.mem_of_getElem? (i := index) (by simp [List.getElem?_zipIdx, place])
      have own := templateProblems_nil (List.append_eq_nil_iff.1 (steps _ numbered)).2
      simpa only [List.forall_mem_append] using own
    · intro r member
      have own := templateProblems_nil (none.2 r member)
      simpa only [List.forall_mem_append] using own
  refine ⟨combinations, expanded, writable, checkEnds_ok.1 ends, ?_, ?_⟩
  · intro name member
    exact (List.mem_filter.1 (used name member)).1
  · intro name member
    apply covered name
    simpa using (List.mem_filter.1 (used name member)).2

end Validation

namespace Stage

theorem expand_succeeds {s : Stage} {combinations : List Mapping} (clean : Validation.Clean s combinations)
    {context : Option Context} : Succeeds (s.expand context) ↔ ∀ c ∈ combinations, ∀ name ∈ s.mentions,
      name ∈ Context.knownVariables ∨ name ∈ c.keys.map matrixVariable := by
  rw [expand, clean.expanded]
  change Succeeds (combinations.zipIdx.mapM _) ↔ _
  rw [succeeds_mapM]
  have each (c : Mapping) (member : c ∈ combinations) (index : Nat) :
      Succeeds (if c.keys.any Value.isUnwritable then .error (.unusable .unwritable)
        else (s.job context index c).mapError Template.Fault.rejection) ↔
      ∀ name ∈ s.mentions, name ∈ Context.knownVariables ∨ name ∈ c.keys.map matrixVariable := by
    rw [clean.writable c member, if_neg Bool.false_ne_true, succeeds_mapError, job_succeeds,
      and_iff_left clean.ends]
    have written : ∀ v ∈ c.values, v.isUnwritable = false :=
      List.forall_mem_map.2 (combinations_written clean.expanded c member)
    exact forall₂_congr fun _ _ => (Template.Scope.of_provides written).trans Template.Scope.of_knows
  constructor
  · intro all c member
    obtain ⟨index, place⟩ := List.mem_iff_getElem?.1 member
    have numbered : (c, index) ∈ combinations.zipIdx :=
      List.mem_of_getElem? (i := index) (by simp [List.getElem?_zipIdx, place])
    exact (each c member index).1 (all _ numbered)
  · rintro all ⟨c, index⟩ numbered
    have member : c ∈ combinations := List.fst_mem_of_mem_zipIdx numbered
    exact (each c member index).2 (all c member)

/-- A variable that is known in a stage belongs to the event or to a matrix key. -/
theorem mem_templateNames {s : Stage} {name : String} : name ∈ s.templateNames ↔
    name ∈ Context.knownVariables ∨ ∃ m, s.matrix = some m ∧ ∃ key ∈ m.keys, name = matrixVariable key := by
  unfold templateNames
  cases s.matrix with
  | none => simp
  | some m => simp [eq_comm]

end Stage

theorem matrixVariable_unknown (key : Value) : matrixVariable key ∉ Context.knownVariables := by
  intro known
  have other := Template.known_unprefixed _ known
  have start : Text.startsWith (matrixVariable key).toList "matrix.".toList = true := by
    rw [Text.startsWith, matrixVariable, String.toList_append, Option.isSome_iff_exists]
    exact ⟨_, Text.dropStart?_eq_some_iff.2 rfl⟩
  rw [start] at other
  cases other

namespace Validation

theorem Clean.layered {s : Stage} {combinations : List Mapping} (clean : Clean s combinations) {base : Fields}
    (known : ∀ name ∈ Template.namesOfFields base, name ∈ Context.knownVariables)
    (ends : ∀ v ∈ base.values, v.isEndless = false) :
    Clean { s with env := base.update s.env } combinations := by
  have source : ∀ name ∈ ({ s with env := base.update s.env } : Stage).mentions,
      name ∈ s.mentions ∨ name ∈ Context.knownVariables := by
    intro name member
    simp only [Stage.mentions, List.mem_append] at member ⊢
    rcases member with (before | env) | runsOn
    · exact Or.inl (Or.inl (Or.inl before))
    · obtain ⟨field, inside, named⟩ := List.mem_flatMap.1 env
      rcases Table.mem_update (Table.exact _) inside with below | own
      · exact Or.inr (known name (List.mem_flatMap.2 ⟨field, below, named⟩))
      · exact Or.inl (Or.inl (Or.inr (List.mem_flatMap.2 ⟨field, own, named⟩)))
    · exact Or.inl (Or.inr runsOn)
  refine ⟨clean.expanded, clean.writable, ?_, ?_, ?_⟩
  · have own := clean.ends
    simp only [searched, List.forall_mem_append] at own ⊢
    refine ⟨⟨own.1.1, fun v member => ?_⟩, own.2⟩
    exact (Table.values_update _ _ v member).elim (ends v) (own.1.2 v)
  · intro name member
    rcases source name member with own | event
    · exact clean.known name own
    · exact Stage.mem_templateNames.2 (Or.inl event)
  · intro name member c listed set
    rcases source name member with own | event
    · exact clean.covered name own c listed set
    · obtain ⟨key, _, rfl⟩ := List.mem_map.1 set
      exact (matrixVariable_unknown key event).elim

/-- A stage without problems has its jobs unless it mentions an orphaned axis. -/
theorem Clean.expand_succeeds {s : Stage} {combinations : List Mapping} (clean : Clean s combinations)
    (texts : ∀ m, s.matrix = some m → m.TextKeys) {context : Option Context} :
    Succeeds (s.expand context) ↔ ∀ m, s.matrix = some m → ∀ axis, m.Orphaned axis →
      matrixVariable (.str axis) ∉ s.mentions := by
  have matrix {m : Matrix} (found : s.matrix = some m) {key : Value} (listed : key ∈ m.keys) :
      combinations = m.merged ∧ ∀ c ∈ combinations, c.TextKeys := by
    have done := clean.expanded
    rw [Stage.combinations, found] at done
    rcases Matrix.combinations_ok (mapError_ok.1 done) with ⟨axes, included, _⟩ | ⟨_, rfl, _⟩
    · simp [Matrix.keys, axes, included, Table.keys] at listed
    · exact ⟨rfl, fun c member => Matrix.merged_textKeys (texts m found) member⟩
  rw [Stage.expand_succeeds clean]
  constructor
  · intro all m found axis orphaned mentioned
    obtain ⟨c, member⟩ := List.exists_mem_of_ne_nil _ (Stage.combinations_nonempty clean.expanded)
    have listed := (Matrix.mem_keys (texts m found)).2 (Or.inl orphaned.2.1)
    obtain ⟨merged, named⟩ := matrix found listed
    rcases all c member _ mentioned with event | set
    · exact matrixVariable_unknown _ event
    · obtain ⟨key, present, same⟩ := List.mem_map.1 set
      obtain ⟨text, rfl⟩ := (named c member).keys key present
      cases matrixVariable_inj same
      exact orphaned.unset (texts m found) ⟨c, merged ▸ member, present⟩
  · intro parented c member name mentioned
    rcases Stage.mem_templateNames.1 (clean.known name mentioned) with event | ⟨m, found, key, listed, rfl⟩
    · exact Or.inl event
    obtain ⟨merged, named⟩ := matrix found listed
    refine Or.inr ?_
    -- A key that some combination sets is one that all of them set; no check is made of a key that none sets.
    by_cases set : Matrix.Sets combinations key
    · obtain ⟨other, present, inside⟩ := set
      have common := clean.covered _ mentioned other present (List.mem_map_of_mem inside)
      obtain ⟨shared, among, same⟩ := List.mem_map.1 common
      rw [← same]
      exact List.mem_map_of_mem (mem_commonKeys named among c member)
    · obtain ⟨axis, rfl, orphaned⟩ := Matrix.orphaned_of_unset (texts m found) listed (merged ▸ set)
      exact (parented m found axis orphaned mentioned).elim

end Validation

namespace RunGraph

/-- The variables of a pipeline do not matter for the graph of its stages. -/
theorem build_layered {p : Pipeline} {own : StageGraph} (graph : StageGraph.build p.stages = .ok own) :
    ∃ g, StageGraph.build (layered p) = .ok g := by
  have names : (layered p).map (·.name) = p.stages.map (·.name) := layered_map p _ fun _ _ => rfl
  have lost : Graph.missing (p.stages.map (·.name)) (layered p) = Graph.missing (p.stages.map (·.name)) p.stages := by
    rw [Graph.missing, Graph.missing, List.flatMap_def, List.flatMap_def]
    exact congrArg List.flatten (layered_map p _ fun _ _ => rfl)
  have needs : (layered p).map (Graph.needsOf (p.stages.map (·.name))) =
      p.stages.map (Graph.needsOf (p.stages.map (·.name))) := layered_map p _ fun _ _ => rfl
  have length : (layered p).length = p.stages.length := by
    rw [← List.length_map (·.name), names, List.length_map]
  unfold StageGraph.build at graph ⊢
  simp only [names, lost, needs, length] at graph ⊢
  split at graph
  next => cases graph
  next unique =>
    rw [if_neg unique]
    split at graph
    next => cases graph
    next known =>
      rw [if_neg known]
      split at graph
      next complete => exact ⟨_, if_pos complete⟩
      next => cases graph

theorem layered_clean {α : Type} {executors : Registry α} {p : Pipeline} (valid : Validation.check executors p = .ok ())
    {s : Stage} (member : s ∈ layered p) : ∃ combinations, Validation.Clean s combinations := by
  obtain ⟨own, graph, ends, env, problems⟩ := Validation.check_ok valid
  have stages := (StageGraph.build_ordered graph).1
  have clean (t : Stage) (declared : t ∈ p.stages) : ∃ combinations, Validation.Clean t combinations := by
    obtain ⟨i, place⟩ := List.mem_iff_getElem?.1 declared
    exact Validation.stageProblems_nil (Validation.allStageProblems_nil (problems i t (stages ▸ place))).1
  unfold layered at member
  split at member
  next => exact clean s member
  next =>
    obtain ⟨t, declared, rfl⟩ := List.mem_map.1 member
    obtain ⟨combinations, found⟩ := clean t declared
    exact ⟨combinations, found.layered (Validation.templateProblems_nil env) (Validation.checkEnds_ok.1 ends)⟩

/-- A valid pipeline can be expanded, for every event and for none, unless a stage mentions an orphaned axis. -/
theorem build_succeeds_iff {α : Type} {executors : Registry α} {p : Pipeline}
    (valid : Validation.check executors p = .ok ()) (texts : p.TextKeys) (context : Option Context) :
    (∃ g, build p context = .ok g) ↔ ∀ s ∈ layered p, ∀ m, s.matrix = some m → ∀ axis, m.Orphaned axis →
      matrixVariable (.str axis) ∉ s.mentions := by
  obtain ⟨own, graph, _⟩ := Validation.check_ok valid
  obtain ⟨g, built⟩ := build_layered graph
  have stages := (StageGraph.build_ordered built).1
  have named {s : Stage} (member : s ∈ layered p) : ∀ m, s.matrix = some m → m.TextKeys := by
    obtain ⟨i, place⟩ := List.mem_iff_getElem?.1 member
    obtain ⟨t, found, rfl⟩ := layered_stage place
    exact texts t (List.mem_of_getElem? found)
  have expanded : Succeeds (build p context) ↔ ∀ s ∈ layered p, Succeeds (s.expand context) := by
    rw [build, built]
    change Succeeds (g.stages.mapM (fun s => s.expand context) >>= _) ↔ _
    rw [succeeds_map, succeeds_mapM, stages]
  apply expanded.trans
  apply forall₂_congr
  intro s member
  obtain ⟨combinations, clean⟩ := layered_clean valid member
  exact clean.expand_succeeds (named member)

/-- Compiling for every combination of a matrix, with a step that is named for the system. -/
def compiling (matrix : Matrix) : Pipeline :=
  { name := "compiling"
    triggers := [{ event := "push" }]
    stages := [{ name := "build", matrix := some matrix
                 steps := [{ uses := "shell", name := "compile for $\x7b\x7b matrix.os \x7d\x7d" }] }] }

/-- Two systems of which one is excluded, and a version for the other. -/
def spared : Matrix :=
  { axes := [("os", [.str "linux", .str "mac"])]
    excluded := [[(.str "os", .str "mac")]]
    included := [[(.str "py", .int 3)]] }

def stranded : Matrix :=
  { axes := [("os", [.str "linux"])]
    excluded := [[(.str "os", .str "linux")]]
    included := [[(.str "py", .int 3)]] }

theorem spared_expands : Validation.check shells (compiling spared) = .ok () ∧
    ∀ context, ∃ g, build (compiling spared) context = .ok g := by
  have valid : Validation.check shells (compiling spared) = .ok () := by decide +kernel
  have texts : (compiling spared).TextKeys := by
    simp [Pipeline.TextKeys, Matrix.TextKeys, compiling, spared]
  refine ⟨valid, fun context => (build_succeeds_iff valid texts context).2 ?_⟩
  have parented : spared.survivors ≠ [] := by decide +kernel
  intro s member m matrix axis orphaned
  cases List.mem_singleton.1 member
  cases matrix
  exact (parented orphaned.1).elim

/-- A valid pipeline that cannot be expanded: no combination sets the axis that its step mentions. -/
theorem stranded_unknown : Validation.check shells (compiling stranded) = .ok () ∧ (compiling stranded).TextKeys ∧
    stranded.Orphaned "os" ∧ ∀ context ∈ [none, some pushed], build (compiling stranded) context = .error (.complaint
      ⟨"Unknown template variable 'matrix.os' in 'compile for $\x7b\x7b matrix.os \x7d\x7d'", []⟩) :=
  ⟨by decide +kernel, by simp [Pipeline.TextKeys, Matrix.TextKeys, compiling, stranded], by decide +kernel,
    by decide +kernel⟩

end RunGraph
end Conveyor
