import Conveyor.Proofs.ConsumedArtifacts
import Conveyor.Proofs.MatrixExpansion

/-! The variables that the processes of a step see. They come from five places: the step, the stage, the pipeline, the
assignment of the job, and the program itself. Stage and pipeline are merged before the jobs are made, templates are
replaced when they are made, and the rest is laid over when a step runs. The innermost place that sets a variable counts
all the same. -/

namespace Conveyor

open Fallible

namespace JobContext

variable {c : JobContext} {step : Step} {fields : Fields} {env : Table String String}

def exports (c : JobContext) : Table String String :=
  c.job.matrix.map fun field => (axisVariable field.1.text, field.2.text)

def Writable (fields : Fields) : Prop := ∀ v ∈ fields.values, v.isUnwritable = false

theorem checkWritable_ok {values : List Value} :
    checkWritable values = .ok () ↔ ∀ v ∈ values, v.isUnwritable = false := by
  unfold checkWritable
  split
  next long => simpa using long
  next short => simpa using short

theorem texts_ok : texts fields = .ok env ↔ Writable fields ∧ env = fields.map fun field => (field.1, field.2.text) := by
  unfold texts
  rw [bind_ok]
  constructor
  · rintro ⟨_, written, same⟩
    exact ⟨checkWritable_ok.1 written, (Except.ok.inj same).symm⟩
  · rintro ⟨written, rfl⟩
    exact ⟨(), checkWritable_ok.2 written, rfl⟩

theorem axisVariables_ok : c.axisVariables = .ok env ↔
    (∀ key ∈ c.job.matrix.keys, ∃ text, key = .str text) ∧ env = c.exports := by
  unfold axisVariables exports
  generalize c.job.matrix = table
  rw [mapM_ok]
  constructor
  · intro each
    induction each with
    | nil => exact ⟨List.forall_mem_nil _, rfl⟩
    | @cons field _ _ _ here _ ih =>
      obtain ⟨key, v⟩ := field
      obtain ⟨texts, rfl⟩ := ih
      cases key with
      | str axis =>
        cases here
        exact ⟨List.forall_mem_cons.2 ⟨⟨axis, rfl⟩, texts⟩, rfl⟩
      | _ => cases here
  · rintro ⟨texts, rfl⟩
    rw [List.forall₂_map_right_iff, List.forall₂_same]
    intro field member
    obtain ⟨axis, named⟩ := texts _ (List.mem_map_of_mem member)
    obtain ⟨key, v⟩ := field
    cases named
    rfl

theorem environment_ok : c.environment (some step) = .ok env ↔
    (∀ field ∈ c.job.assignment, field.1.isUnwritable = false ∧ field.2.isUnwritable = false) ∧
      (∀ key ∈ c.job.matrix.keys, ∃ text, key = .str text) ∧ Writable c.job.env ∧ Writable step.env ∧
      env = ((c.builtins.update c.exports).update (c.job.env.map fun field => (field.1, field.2.text))).update
        (step.env.map fun field => (field.1, field.2.text)) := by
  have named : (∀ v ∈ c.job.assignment.flatMap fun field => [field.1, field.2], v.isUnwritable = false) ↔
      ∀ field ∈ c.job.assignment, field.1.isUnwritable = false ∧ field.2.isUnwritable = false := by
    simp only [List.forall_mem_flatMap, List.forall_mem_cons, List.not_mem_nil, false_imp_iff, implies_true, and_true]
  constructor
  · intro done
    obtain ⟨_, assignment, rest⟩ := bind_ok.1 done
    obtain ⟨axes, exported, rest⟩ := bind_ok.1 rest
    obtain ⟨general, job, rest⟩ := bind_ok.1 rest
    obtain ⟨own, last, same⟩ := bind_ok.1 rest
    obtain ⟨texts, rfl⟩ := axisVariables_ok.1 exported
    obtain ⟨written, rfl⟩ := texts_ok.1 job
    obtain ⟨written', rfl⟩ := texts_ok.1 last
    exact ⟨named.1 (checkWritable_ok.1 assignment), texts, written, written', (Except.ok.inj same).symm⟩
  · rintro ⟨assignment, texts, written, written', rfl⟩
    exact bind_ok.2 ⟨(), checkWritable_ok.2 (named.2 assignment), bind_ok.2 ⟨_, axisVariables_ok.2 ⟨texts, rfl⟩,
      bind_ok.2 ⟨_, texts_ok.2 ⟨written, rfl⟩, bind_ok.2 ⟨_, texts_ok.2 ⟨written', rfl⟩, rfl⟩⟩⟩⟩

theorem get?_texts (fields : Fields) (name : String) :
    Table.get? (fields.map fun field => (field.1, field.2.text)) name = (fields.get? name).map Value.text := by
  induction fields with
  | nil => rfl
  | cons field fields ih =>
    rw [List.map_cons, Table.get?, Table.get?]
    split
    · rfl
    · exact ih

theorem get?_environment (done : c.environment (some step) = .ok env) (general : c.job.env.keys.Nodup)
    (own : step.env.keys.Nodup) (name : String) :
    env.get? name = ((step.env.get? name).map Value.text).or (((c.job.env.get? name).map Value.text).or
      ((Table.get? c.exports.reverse name).or (c.builtins.get? name))) := by
  obtain ⟨_, _, _, _, rfl⟩ := environment_ok.1 done
  have keys (fields : Fields) : (Table.keys (fields.map fun field => (field.1, field.2.text))) = fields.keys := by
    rw [Table.keys, List.map_map]
    rfl
  rw [Table.get?_update_of_nodup (Table.exact _) (keys _ ▸ own) (Key.exact name),
    Table.get?_update_of_nodup (Table.exact _) (keys _ ▸ general) (Key.exact name),
    Table.get?_update_last (Table.exact _) (Key.exact name), get?_texts, get?_texts]

end JobContext

/-- No variable is set twice in one place. -/
structure Pipeline.SetsOnce (p : Pipeline) : Prop where
  own : p.env.keys.Nodup
  stages : ∀ s ∈ p.stages, s.env.keys.Nodup
  steps : ∀ s ∈ p.stages, ∀ step ∈ s.steps, step.env.keys.Nodup

namespace RunGraph

theorem envOf_get? {p : Pipeline} {s : Stage} (own : s.env.keys.Nodup) (name : String) :
    (envOf p s).get? name = (s.env.get? name).or (p.env.get? name) := by
  unfold envOf
  split
  next empty => simp [List.isEmpty_iff.1 empty, Table.get?]
  next => exact Table.get?_update_of_nodup (Table.exact _) own (Key.exact name)

theorem nodup_envOf {p : Pipeline} {s : Stage} (general : p.env.keys.Nodup) (own : s.env.keys.Nodup) :
    (envOf p s).keys.Nodup := by
  unfold envOf
  split
  · exact own
  · exact Table.nodup_keys_update (Table.exact _) general

end RunGraph

/-- What is declared for a variable: by the step, or else by the stage, or else by the pipeline. -/
def Pipeline.declared? (p : Pipeline) (s : Stage) (given : Step) (name : String) : Option Value :=
  (given.env.get? name).or ((s.env.get? name).or (p.env.get? name))

namespace JobContext

variable {p : Pipeline} {context : Option Context} {g : RunGraph} {c : JobContext} {k : Nat} {step : Step}

/-- A step of a job is a step of its stage with the templates replaced, and so are its variables and those of the job. -/
theorem exists_source (built : RunGraph.build p context = .ok g) (listed : c.job ∈ g.allJobs)
    (place : c.job.steps[k]? = some step) :
    ∃ s given, s ∈ p.stages ∧ s.name = c.job.stage ∧ s.steps[k]? = some given ∧
      (∀ field ∈ c.job.assignment, field.1.isUnwritable = false ∧ field.2.isUnwritable = false) ∧
      (Template.Scope.of c.job.assignment context).fields (RunGraph.envOf p s) = .ok c.job.env ∧
      (Template.Scope.of c.job.assignment context).fields given.env = .ok step.env := by
  obtain ⟨i, s', _, stage, own, named⟩ := (RunGraph.build_populated built).home listed
  have written := Value.anyEntryUnwritable_false.1 (RunGraph.build_written built _ listed)
  rw [(StageGraph.build_ordered (RunGraph.build_graph built)).1] at stage
  obtain ⟨s, found, rfl⟩ := RunGraph.layered_stage stage
  have declared := List.mem_of_getElem? found
  obtain ⟨index, combination, made⟩ := RunGraph.build_origin built listed declared named
  obtain ⟨rendered, _, _, rfl, _⟩ := Stage.job_made made
  have inside : k < s.steps.length := by
    rw [← mapM_length rendered.steps]
    exact (List.getElem?_eq_some_iff.1 place).1
  obtain ⟨_, place', filled⟩ := mapM_place rendered.steps (List.getElem?_eq_getElem inside)
  cases place.symm.trans place'
  obtain ⟨_, _, rest⟩ := bind_ok.1 filled
  obtain ⟨_, _, rest⟩ := bind_ok.1 rest
  obtain ⟨_, env, same⟩ := bind_ok.1 rest
  cases same
  exact ⟨s, s.steps[k], declared, named.symm, List.getElem?_eq_getElem inside, written, rendered.env, env⟩

/-- The processes of a step get their variables exactly if the keys of the assignment are texts and all numbers can be
written. Then the innermost declaration of a variable counts, with its templates replaced; without one, the last key of
the assignment that exports it, or else the program. Nothing else is set. -/
theorem innermost_counts (once : p.SetsOnce) (built : RunGraph.build p context = .ok g) (listed : c.job ∈ g.allJobs)
    (place : c.job.steps[k]? = some step) :
    ∃ s given, s ∈ p.stages ∧ s.name = c.job.stage ∧ s.steps[k]? = some given ∧
      ((∃ env, c.environment (some step) = .ok env) ↔
        (∀ key ∈ c.job.matrix.keys, ∃ text, key = .str text) ∧ Writable c.job.env ∧ Writable step.env) ∧
      ∀ env, c.environment (some step) = .ok env → env.keys.Nodup ∧ ∀ name,
        match p.declared? s given name with
        | some v => ∃ w, (Template.Scope.of c.job.assignment context).value v = .ok w ∧ env.get? name = some w.text
        | none => env.get? name = (Table.get? c.exports.reverse name).or (c.builtins.get? name) := by
  obtain ⟨s, given, declared, named, source, written, general, own⟩ := exists_source built listed place
  have single := once.stages s declared
  refine ⟨s, given, declared, named, source, ?_, fun env done => ⟨?_, fun name => ?_⟩⟩
  · simp only [environment_ok, exists_and_left, exists_eq, and_true]
    exact and_iff_right written
  · obtain ⟨_, _, _, _, rfl⟩ := environment_ok.1 done
    have distinct : c.builtins.keys.Nodup := by simp [builtins, Table.keys]
    exact Table.nodup_keys_update (Table.exact _) (Table.nodup_keys_update (Table.exact _)
      (Table.nodup_keys_update (Table.exact _) distinct))
  · have keys : c.job.env.keys.Nodup := Template.Scope.fields_keys _ general ▸ RunGraph.nodup_envOf once.own single
    have keys' : step.env.keys.Nodup :=
      Template.Scope.fields_keys _ own ▸ once.steps s declared given (List.mem_of_getElem? source)
    have outer := Template.Scope.fields_get? _ general name
    have inner := Template.Scope.fields_get? _ own name
    rw [RunGraph.envOf_get? single] at outer
    rw [get?_environment done keys keys', Pipeline.declared?]
    cases here : given.env.get? name with
    | some v =>
      rw [here] at inner
      obtain ⟨w, filled, there⟩ := inner
      exact ⟨w, filled, by rw [there]; rfl⟩
    | none =>
      rw [here] at inner
      cases above : (s.env.get? name).or (p.env.get? name) with
      | some v =>
        rw [above] at outer
        obtain ⟨w, filled, there⟩ := outer
        exact ⟨w, filled, by rw [inner, there]; rfl⟩
      | none =>
        rw [above] at outer
        rw [inner, outer]
        rfl

end JobContext

/-- A variable that is set in two places, one that hides a built-in, and two keys that export the same one. -/
def nested : Pipeline :=
  { name := "nested", env := [("LEVEL", .str "all"), ("MATRIXCI", .str "own")]
    stages :=
      [{ name := "build", env := [("LEVEL", .str "on $\x7b\x7b matrix.os \x7d\x7d")], steps := [{ uses := "shell" }]
         matrix := some { axes := [("os", [.str "linux"]), ("OS", [.str "mac"])] } }] }

def nestedContext : JobContext where
  run := pushed
  job :=
    { stage := "build", steps := [{ uses := "shell" }]
      assignment := [(.str "os", .str "linux"), (.str "OS", .str "mac")]
      env := [("LEVEL", .str "on linux"), ("MATRIXCI", .str "own")] }

theorem nested_built : (RunGraph.build nested none).map RunGraph.allJobs = .ok [nestedContext.job] := by cbv

theorem nested_layers : ∃ g env, RunGraph.build nested none = .ok g ∧
    nestedContext.environment (some { uses := "shell" }) = .ok env ∧ env.get? "LEVEL" = some "on linux" ∧
    env.get? "MATRIX_OS" = some "mac" ∧ env.get? "MATRIXCI" = some "own" := by
  have once : nested.SetsOnce := ⟨by decide, by decide, by decide⟩
  have texts : ∀ key ∈ nestedContext.job.matrix.keys, ∃ text, key = .str text := by
    rw [show nestedContext.job.matrix.keys = [.str "os", .str "OS"] by decide +kernel]
    simp
  cases built : RunGraph.build nested none with
  | error fault => cases (congrArg (Except.map RunGraph.allJobs) built).symm.trans nested_built
  | ok g =>
    have jobs : g.allJobs = [nestedContext.job] :=
      Except.ok.inj ((congrArg (Except.map RunGraph.allJobs) built).symm.trans nested_built)
    obtain ⟨s, given, declared, _, source, succeeds, lookup⟩ :=
      JobContext.innermost_counts (c := nestedContext) (k := 0) once built (jobs ▸ List.mem_singleton_self _) rfl
    cases List.mem_singleton.1 declared
    cases source
    obtain ⟨env, done⟩ := succeeds.2 ⟨texts, by unfold JobContext.Writable; decide, List.forall_mem_nil _⟩
    obtain ⟨_, filled, level⟩ := (lookup env done).2 "LEVEL"
    cases filled.symm.trans (by cbv : _ = Except.ok (Value.str "on linux"))
    obtain ⟨_, filled, hidden⟩ := (lookup env done).2 "MATRIXCI"
    cases filled.symm.trans (by cbv : _ = Except.ok (Value.str "own"))
    have exported : env.get? "MATRIX_OS" = some "mac" := ((lookup env done).2 "MATRIX_OS").trans (by decide +kernel)
    exact ⟨g, env, rfl, done, level, exported, hidden⟩

/-- A combination with a key that is no text. -/
def unnamed : Pipeline :=
  { name := "unnamed"
    stages :=
      [{ name := "build", steps := [{ uses := "shell" }], matrix := some { included := [[(.bool true, .str "x")]] } }] }

theorem unnamed_axis_refused : (RunGraph.build unnamed none).map (fun g => g.allJobs.map fun job =>
    JobContext.environment { job, run := pushed } (some { uses := "shell" })) =
      .ok [.error (.unnamedAxis (.bool true))] := by
  cbv

end Conveyor
