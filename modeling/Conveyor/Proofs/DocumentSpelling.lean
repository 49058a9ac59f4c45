import Conveyor.Proofs.Fallible
import Conveyor.Proofs.StageSpelling

/-! Documents that are spelled alike. Every change of spelling, in a step, a trigger, a stage or the document itself,
leaves the pipeline as it is that the document is read as. -/

namespace Conveyor.Document

open Checked Record

variable {entries front back : Mapping}

/-! ### Tables of stages and of triggers -/

theorem accepted_asTableOf_map {α β : Type} (check : Value → Checked α) (f : α → β) {v : Value}
    (opened : v.opened = .map entries) :
    (asTableOf check v).accepted.map (List.map fun entry => (entry.1, f entry.2)) = (entries.mapM fun entry =>
      Prod.mk <$> (asText entry.1).accepted <*> (check entry.2).accepted.map f).map Table.ofPairs := by
  have each (entries : Mapping) :
      (entries.mapM fun entry => Prod.mk <$> (asText entry.1).accepted <*> (check entry.2).accepted.map f) =
        (entries.mapM fun entry => Prod.mk <$> (asText entry.1).accepted <*> (check entry.2).accepted).map
          (List.map fun entry => (entry.1, f entry.2)) := by
    induction entries with
    | nil => rfl
    | cons entry entries ih =>
      rw [List.mapM_cons, List.mapM_cons, ih]
      rcases (asText entry.1).accepted with _ | key
      · rfl
      rcases (check entry.2).accepted with _ | value
      · rfl
      cases List.mapM (fun entry => Prod.mk <$> (asText entry.1).accepted <*> (check entry.2).accepted) entries <;> rfl
  rw [accepted_asTableOf check opened, each entries, Option.map_eq_map, Option.map_map, Option.map_map]
  exact congrArg (fun g => Option.map g _) (funext fun pairs => Table.ofPairs_map f pairs)

theorem InEntry.blind {α β : Type} (check : Value → Checked α) (f : α → β) {change : Value → Value → Prop}
    (blind : ∀ x y, change x y → (check x).accepted.map f = (check y).accepted.map f) {v w : Value}
    (changed : InMap (InEntry change) v w) :
    (asTableOf check v).accepted.map (List.map fun entry => (entry.1, f entry.2)) =
      (asTableOf check w).accepted.map (List.map fun entry => (entry.1, f entry.2)) := by
  obtain ⟨a, b, opened, opened', ⟨front, back, key, changed⟩⟩ := changed
  rw [accepted_asTableOf_map check f opened, accepted_asTableOf_map check f opened', List.mapM_append, List.mapM_append,
    List.mapM_cons, List.mapM_cons, blind _ _ changed]

theorem asText_mapped {v : Value} (mapped : v.opened = .map entries) :
    asText v = problem "Input should be a valid string" := by
  cases v with
  | str | bytes => cases mapped
  | _ => rfl

theorem asListOf_mapped {α : Type} {check : Value → Checked α} {v : Value} (mapped : v.opened = .map entries) :
    asListOf check v = problem "Input should be a valid list" := by
  rw [asListOf, mapped]

theorem accepted_triggers {v : Value} (mapped : v.opened = .map entries) : (TriggersEntry.check v).accepted =
    TriggersEntry.filtered <$> (asTableOf (asOptional (asRecord "TriggerDoc" TriggerEntry.check)) v).accepted := by
  unfold TriggersEntry.check
  rw [asText_mapped mapped, asListOf_mapped mapped]
  cases asTableOf (asOptional (asRecord "TriggerDoc" TriggerEntry.check)) v with
  | valid clauses => rfl
  | invalid problems => rfl
  | abandoned misuse => rfl

/-! ### Pipelines -/

theorem same_true : Key.same (Value.bool true) (Value.bool true) = true := by
  simp [Key.same, Value.alike]

theorem text_apart (s : String) : Key.same (Value.str s) (Value.bool true) = false := by
  simp [Key.same, Value.alike]

theorem true_apart (s : String) : Key.same (Value.bool true) (Value.str s) = false := by
  simp [Key.same, Value.alike]

theorem restore_triggers {key : Value} (v : Value) (member : key ∈ triggersSpellings)
    (once : ∀ entry ∈ front ++ back, ∀ spelling ∈ triggersSpellings, Key.same entry.1 spelling = false) :
    ∃ front' back' spelling, restoreTriggers (front ++ (key, v) :: back) = front' ++ (.str spelling, v) :: back' ∧
      front' ++ back' = front ++ back ∧ spelling ∈ PipelineEntry.triggersKeys := by
  have absent (spelling : Value) (listed : spelling ∈ triggersSpellings) : Table.get? (front ++ back) spelling = none :=
    Table.get?_eq_none_iff.2 fun entry present => once entry present spelling listed
  have bare := absent (.bool true) List.mem_cons_self
  rcases List.mem_cons.1 member with rfl | text
  · have on : Table.get? (front ++ back) (.str "on") = none := absent (.str "on") (by decide)
    have apart := Option.or_eq_none_iff.1 ((Table.get?_append front back _).symm.trans bare)
    have found : Table.get? (front ++ (.bool true, v) :: back) (.bool true) = some v := by
      rw [Table.get?_append, apart.1, Table.get?, if_pos same_true]
      rfl
    have free : ¬ Table.has (front ++ (.bool true, v) :: back) (Value.str "on") = true := by
      rw [Table.has, Table.get?_middle (true_apart "on"), on]
      exact Bool.false_ne_true
    have erased : Table.erase (front ++ (.bool true, v) :: back) (.bool true) = front ++ back := by
      rw [Table.erase_append, Table.erase_cons, if_pos same_true, Table.erase_absent apart.1, Table.erase_absent apart.2]
    refine ⟨front ++ back, [], "on", ?_, List.append_nil _, by decide⟩
    rw [restoreTriggers, found]
    dsimp only
    rw [if_neg free, erased, Table.insert_absent (by rw [Table.has, on]; rfl)]
  · obtain ⟨spelling, listed, rfl⟩ := List.mem_map.1 text
    refine ⟨front, back, spelling, ?_, rfl, listed⟩
    rw [restoreTriggers, Table.get?_middle (text_apart spelling), bare]

theorem restore_other (front back : Mapping) {spellings : List String} (other : "on" ∉ spellings)
    (once : Unspelled spellings (front ++ back)) : ∃ front' back', Unspelled spellings (front' ++ back') ∧
      ∀ spelling ∈ spellings, ∀ v,
        restoreTriggers (front ++ (.str spelling, v) :: back) = front' ++ (.str spelling, v) :: back' := by
  have on (spelling : String) (listed : spelling ∈ spellings) :
      Key.same (Value.str spelling) (Value.str "on") = false := by
    rw [← Bool.not_eq_true, Value.str_exact "on"]
    intro same
    exact other (Value.str.inj same ▸ listed)
  cases found : Table.get? (front ++ back) (.bool true) with
  | none =>
    refine ⟨front, back, once, fun spelling listed v => ?_⟩
    rw [restoreTriggers, Table.get?_middle (text_apart spelling), found]
  | some u =>
    by_cases taken : Table.has (front ++ back) (.str "on") = true
    · refine ⟨front, back, once, fun spelling listed v => ?_⟩
      have taken' : Table.has (front ++ (.str spelling, v) :: back) (.str "on") = true := by
        rwa [Table.has, Table.get?_middle (on spelling listed)]
      rw [restoreTriggers, Table.get?_middle (text_apart spelling), found]
      exact if_pos taken'
    · refine ⟨front.erase (.bool true), back.erase (.bool true) ++ [(.str "on", u)], ?_, fun spelling listed v => ?_⟩
      · intro spelling listed present
        obtain ⟨value, member⟩ := Table.mem_keys_iff.1 present
        rw [← List.append_assoc, List.mem_append, List.mem_singleton, Prod.mk.injEq] at member
        rcases member with kept | ⟨own, _⟩
        · rw [← Table.erase_append] at kept
          exact once spelling listed (Table.mem_keys_iff.2 ⟨value, (List.mem_filter.1 kept).1⟩)
        · exact other (Value.str.inj own ▸ listed)
      · have erased : Table.erase (front ++ (.str spelling, v) :: back) (.bool true) =
            front.erase (.bool true) ++ (.str spelling, v) :: back.erase (.bool true) := by
          rw [Table.erase_append, Table.erase_cons, text_apart, if_neg Bool.false_ne_true]
        have absent : Table.get? (front ++ (.str spelling, v) :: back) (.str "on") = none := by
          rwa [Table.get?_middle (on spelling listed), ← Option.not_isSome_iff_eq_none]
        have free : ¬ Table.has (front ++ (.str spelling, v) :: back) (.str "on") = true := by
          rw [Table.has, absent]
          exact Bool.false_ne_true
        have free' : Table.has (Table.erase (front ++ (.str spelling, v) :: back) (.bool true)) (.str "on") = false := by
          rw [Table.has, Table.get?_erase_none absent]
          rfl
        rw [restoreTriggers, Table.get?_middle (text_apart spelling), found]
        dsimp only
        rw [if_neg free, Table.insert_absent free', erased, List.append_assoc, List.cons_append]

namespace PipelineEntry

def fields : List (List String) := [nameKeys, triggersKeys, envKeys, stagesKeys]

def assembled (name : String) (triggers : TriggersEntry) (env : Fields)
    (stages : List (String × (String → Except Refusal Stage))) : Except Refusal Pipeline := do
  let stages ← stages.mapM fun stage => stage.2 stage.1
  let env ← (envTexts env).mapError Refusal.misuse
  return { name, stages, triggers := triggers.toTriggers, env }

theorem toPipeline_eq (p : PipelineEntry) : p.toPipeline =
    assembled p.name p.triggers p.env (p.stages.map fun entry => (entry.1, entry.2.declared)) := by
  unfold toPipeline assembled
  rw [List.mapM_map]
  rfl

/-- The pipeline that a record is read as, if it has the right shape. -/
def reading (r : Record) : Option (Except Refusal Pipeline) := (check r).accepted.map toPipeline

theorem gathered_toPipeline (name : Option String) (triggers : Option TriggersEntry) (env : Option Fields)
    (stages : Option (Table String StageEntry)) (closed : Option Unit) :
    (PipelineEntry.mk <$> name <*> triggers <*> env <*> stages <* closed).map toPipeline =
      (assembled <$> name <*> triggers <*> env <*>
        stages.map (List.map fun entry => (entry.1, entry.2.declared)) <* closed) := by
  rcases name with _ | name
  · rfl
  rcases triggers with _ | triggers
  · rfl
  rcases env with _ | env
  · rfl
  rcases stages with _ | stages
  · rfl
  rcases closed with _ | closed
  · rfl
  exact congrArg some (toPipeline_eq ⟨name, triggers, env, stages⟩)

theorem reading_congr {r s : Record}
    (name : (r.field nameKeys "pipeline" asText).accepted = (s.field nameKeys "pipeline" asText).accepted)
    (triggers : (r.field triggersKeys (.filtered []) TriggersEntry.check).accepted =
      (s.field triggersKeys (.filtered []) TriggersEntry.check).accepted)
    (env : (r.field envKeys [] asFields).accepted = (s.field envKeys [] asFields).accepted)
    (stages : (r.required stagesKeys (asTableOf (asRecord "StageDoc" StageEntry.check))).accepted.map
        (List.map fun entry => (entry.1, entry.2.declared)) =
      (s.required stagesKeys (asTableOf (asRecord "StageDoc" StageEntry.check))).accepted.map
        (List.map fun entry => (entry.1, entry.2.declared)))
    (closed : (r.closed fields).accepted = (s.closed fields).accepted) : reading r = reading s := by
  have parts (r : Record) : reading r = (assembled <$> (r.field nameKeys "pipeline" asText).accepted
      <*> (r.field triggersKeys (.filtered []) TriggersEntry.check).accepted <*> (r.field envKeys [] asFields).accepted
      <*> (r.required stagesKeys (asTableOf (asRecord "StageDoc" StageEntry.check))).accepted.map
        (List.map fun entry => (entry.1, entry.2.declared)) <* (r.closed fields).accepted) := by
    rw [← gathered_toPipeline]
    simp only [reading, check, accepted_seqLeft, accepted_seq, accepted_functor]
    rfl
  rw [parts, parts, name, triggers, env, stages, closed]

/-- A change in one of the triggers is not seen in what they start. -/
theorem triggers_changed {v w : Value} (changed : InMap (InEntry (InMap TriggerChange)) v w) :
    (TriggersEntry.check v).accepted = (TriggersEntry.check w).accepted := by
  have clause (x y : Value) (changed : InMap TriggerChange x y) :
      (asOptional (asRecord "TriggerDoc" TriggerEntry.check) x).accepted.map id =
        (asOptional (asRecord "TriggerDoc" TriggerEntry.check) y).accepted.map id :=
    congrArg (Option.map id) (changed.optional (changed.record "TriggerDoc" fun a b => accepted_trigger))
  have tables : (asTableOf (asOptional (asRecord "TriggerDoc" TriggerEntry.check)) v).accepted =
      (asTableOf (asOptional (asRecord "TriggerDoc" TriggerEntry.check)) w).accepted := by
    simpa using InEntry.blind _ id clause changed
  obtain ⟨a, b, opened, opened', _⟩ := changed
  rw [accepted_triggers opened, accepted_triggers opened', tables]

theorem stages_changed {v w : Value} (changed : InMap (InEntry (InMap StageChange)) v w) :
    (asTableOf (asRecord "StageDoc" StageEntry.check) v).accepted.map
        (List.map fun entry => (entry.1, entry.2.declared)) =
      (asTableOf (asRecord "StageDoc" StageEntry.check) w).accepted.map
        (List.map fun entry => (entry.1, entry.2.declared)) := by
  apply InEntry.blind _ StageEntry.declared _ changed
  intro x y changed
  obtain ⟨a, b, opened, opened', changed⟩ := changed
  rw [accepted_asRecord _ _ opened, accepted_asRecord _ _ opened']
  exact StageEntry.declared_changed changed

theorem reading_changed {a b : Mapping} (changed : PipelineChange a b) :
    reading ⟨restoreTriggers a⟩ = reading ⟨restoreTriggers b⟩ := by
  cases changed with
  | triggers changed =>
    obtain @⟨front, back, _, _, v, w, old, new, once, changed⟩ := changed
    obtain ⟨front₁, back₁, key, restored, rest, member⟩ := restore_triggers v old once
    obtain ⟨front₂, back₂, key', restored', rest', member'⟩ := restore_triggers w new once
    have sole : Unspelled triggersKeys (front₁ ++ back₁) := by
      rw [rest]
      apply unspelled_of_once
      intro entry present spelling listed
      exact once entry present spelling (List.mem_cons_of_mem _ listed)
    have alike : Alike fields (fun spellings v w => spellings = triggersKeys ∧
        (v = w ∨ InMap (InEntry (InMap TriggerChange)) v w)) ⟨front₁ ++ (.str key, v) :: back₁⟩
          ⟨front₂ ++ (.str key', w) :: back₂⟩ :=
      alike_sole (by decide) (by decide) (rest.trans rest'.symm) member member' sole ⟨rfl, changed⟩
    rw [restored, restored']
    apply reading_congr
    · exact alike.field (by decide) (fun v w changed => absurd changed.1 (by decide)) _
    · refine alike.field (by decide) (fun v w changed => ?_) _
      rcases changed.2 with rfl | changed
      · rfl
      · exact triggers_changed changed
    · exact alike.field (by decide) (fun v w changed => absurd changed.1 (by decide)) _
    · rw [alike.required (by decide) (fun v w changed => absurd changed.1 (by decide))]
    · exact alike.accepted_closed
  | stages changed =>
    obtain @⟨front, back, _, _, v, w, old, new, once, changed⟩ := changed
    obtain ⟨key, member, rfl⟩ := List.mem_map.1 old
    obtain ⟨key', member', rfl⟩ := List.mem_map.1 new
    obtain ⟨front', back', sole, restored⟩ := restore_other front back (by decide) (unspelled_of_once once)
    have alike : Alike fields (fun spellings v w => spellings = stagesKeys ∧
        (v = w ∨ InMap (InEntry (InMap StageChange)) v w)) ⟨front' ++ (.str key, v) :: back'⟩
          ⟨front' ++ (.str key', w) :: back'⟩ :=
      alike_sole (by decide) (by decide) rfl member member' sole ⟨rfl, changed⟩
    rw [restored key member, restored key' member']
    apply reading_congr
    · exact alike.field (by decide) (fun v w changed => absurd changed.1 (by decide)) _
    · exact alike.field (by decide) (fun v w changed => absurd changed.1 (by decide)) _
    · exact alike.field (by decide) (fun v w changed => absurd changed.1 (by decide)) _
    · rw [Record.accepted_required, Record.accepted_required]
      rcases alike.given stagesKeys (by decide) with same | ⟨v, w, changed, first, second⟩
      · rw [same]
      · rw [first, second]
        rcases changed.2 with rfl | changed
        · rfl
        · exact stages_changed changed
    · exact alike.accepted_closed

end PipelineEntry

theorem parsePipeline_reading {doc : Value} (opened : doc.opened = .map entries) {source : String} {p : Pipeline} :
    parsePipeline source doc = .ok p ↔ PipelineEntry.reading ⟨restoreTriggers entries⟩ = some (.ok p) := by
  rw [parsePipeline, opened]
  dsimp only
  unfold PipelineEntry.reading
  cases PipelineEntry.check ⟨restoreTriggers entries⟩ with
  | valid entry => simp [accepted]
  | invalid problems => simp [accepted]
  | abandoned misuse => simp [accepted]

/-- Documents that are spelled alike are read as the same pipeline, or none of them as a pipeline. -/
theorem parsePipeline_spelledAlike {doc doc' : Value} (alike : SpelledAlike doc doc') (source : String) (p : Pipeline) :
    parsePipeline source doc = .ok p ↔ parsePipeline source doc' = .ok p := by
  induction alike with
  | rel doc doc' changed =>
    obtain ⟨a, b, opened, opened', changed⟩ := changed
    rw [parsePipeline_reading opened, parsePipeline_reading opened', PipelineEntry.reading_changed changed]
  | refl doc => rfl
  | symm doc doc' _ ih => exact ih.symm
  | trans first second third _ _ ih ih' => exact ih.trans ih'

/-- A build for two systems with a test after it, spelled in some way. -/
def buildAndTest (triggers : Value × Value) (stages : String) (build test : Mapping) : Value :=
  .map [triggers, (.str stages, .map [(.str "build", .map build), (.str "test", .map test)])]

def systems : Value := .map [(.str "os", .list [.str "linux", .str "mac"])]

def making (directory : String) : Value := .list [.map [(.str "run", .str "make"), (.str directory, .str "src")]]

def testing (needs : Value) : Mapping :=
  [(.str "needs", needs), (.str "if", .bool true), (.str "steps", .list [.map [(.str "run", .str "make check")]])]

def onPush (branches : String) (patterns : Value) : Value := .map [(.str "push", .map [(.str branches, patterns)])]

def nested : Mapping := [(.str "strategy", .map [(.str "matrix", systems)]), (.str "steps", making "cwd")]

def flat (directory : String) : Mapping :=
  [(.str "matrix", systems), (.str "strategy", .map []), (.str "steps", making directory)]

def terse : Value :=
  buildAndTest (.str "on", onPush "branches-ignore" (.str "wip")) "jobs" nested (testing (.str "build"))

def ample : Value :=
  buildAndTest (.bool true, onPush "branches_ignore" (.list [.str "wip"])) "stages" (flat "working-directory")
    (testing (.list [.str "build"]))

theorem stages_alike (triggers : Value) (stages stages' : String) (old : stages ∈ PipelineEntry.stagesKeys)
    (new : stages' ∈ PipelineEntry.stagesKeys) {build build' test test' : Mapping} (changed : InEntry (InMap StageChange)
      [(.str "build", .map build), (.str "test", .map test)] [(.str "build", .map build'), (.str "test", .map test')]) :
    SpelledAlike (buildAndTest (.bool true, triggers) stages build test)
      (buildAndTest (.bool true, triggers) stages' build' test') := by
  refine .rel _ _ ⟨_, _, rfl, rfl, .stages (.intro [(.bool true, triggers)] [] (List.mem_map_of_mem old)
    (List.mem_map_of_mem new) ?_ (Or.inr ⟨_, _, rfl, rfl, changed⟩))⟩
  intro entry present spelling listed
  cases List.mem_singleton.1 present
  obtain ⟨key, _, rfl⟩ := List.mem_map.1 listed
  exact true_apart key

theorem terse_ample : SpelledAlike terse ample := by
  have triggers : SpelledAlike terse (buildAndTest (.bool true, onPush "branches_ignore" (.list [.str "wip"])) "jobs"
      nested (testing (.str "build"))) := by
    refine .rel _ _ ⟨_, _, rfl, rfl, .triggers (.intro [] _ (by decide) (by decide) ?_ (Or.inr ⟨_, _, rfl, rfl,
      .intro [] [] _ ⟨_, _, rfl, rfl, TriggerEntry.branchesIgnoreKeys, by decide,
        .intro [] [] (by decide) (by decide) (List.forall_mem_nil _) (Or.inr (.intro "wip"))⟩⟩))⟩
    simp [triggersSpellings, PipelineEntry.triggersKeys, Key.same, Value.alike]
  have moved : Moved StageEntry.matrixKeys nested (flat "cwd") :=
    .intro [] [(.str "steps", making "cwd")] [] [] [] _ List.mem_cons_self List.mem_cons_self rfl rfl
      (by decide) (by decide) rfl
  have directory : StageChange (flat "cwd") (flat "working-directory") := by
    refine .part ⟨StageEntry.stepsKeys, by decide, .intro [_, _] [] (by decide) (by decide) ?_
      (.steps rfl (.list [] [] rfl rfl ⟨_, _, rfl, rfl, StepEntry.directoryKeys, by decide,
        .intro [_] [] (by decide) (by decide) ?_ rfl⟩))⟩
    · simp [StageEntry.stepsKeys, Key.same, Value.alike]
    · simp [StepEntry.directoryKeys, Key.same, Value.alike]
  have needs : StageChange (testing (.str "build")) (testing (.list [.str "build"])) := by
    refine .part ⟨StageEntry.needsKeys, by decide, .intro [] _ (by decide) (by decide) ?_
      (.wrapped (by decide) (.intro "build"))⟩
    simp [StageEntry.needsKeys, Key.same, Value.alike]
  have first := stages_alike (onPush "branches_ignore" (.list [.str "wip"])) "jobs" "stages" (by decide) (by decide)
    (.intro [] [(_, .map (testing (.str "build")))] _ ⟨_, _, rfl, rfl, .matrix moved⟩)
  have second := stages_alike (onPush "branches_ignore" (.list [.str "wip"])) "stages" "stages" (by decide) (by decide)
    (.intro [] [(_, .map (testing (.str "build")))] _ ⟨_, _, rfl, rfl, directory⟩)
  have third := stages_alike (onPush "branches_ignore" (.list [.str "wip"])) "stages" "stages" (by decide) (by decide)
    (.intro [(_, .map (flat "working-directory"))] [] _ ⟨_, _, rfl, rfl, needs⟩)
  exact .trans _ _ _ triggers (.trans _ _ _ first (.trans _ _ _ second third))

theorem terse_ample_pipeline : SpelledAlike terse ample ∧
    ∃ p, parsePipeline "ci.yml" terse = .ok p ∧ parsePipeline "ci.yml" ample = .ok p := by
  have accepted : (parsePipeline "ci.yml" terse).toOption.any (fun _ => true) = true := by decide +kernel
  obtain ⟨p, done, _⟩ := Fallible.ok_of_any accepted
  exact ⟨terse_ample, p, done, (parsePipeline_spelledAlike terse_ample "ci.yml" p).1 done⟩

end Conveyor.Document
