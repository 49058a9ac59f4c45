import Conveyor.Pipeline.Validate
import Conveyor.Proofs.RunGraphJobs

/-! When templates can be replaced. A text is rendered exactly if every variable of it is known and its value has a text,
and a text without templates is rendered to itself. So a combination whose values have texts gives a job exactly if it
sets every matrix key that the stage uses, and none of what is rendered contains itself. -/

namespace Conveyor

open Fallible

namespace Template

theorem pieces_literal {cs : List Char} (literal : ∀ written name, .hole written name ∉ pieces cs) :
    pieces cs = cs.map .char := by
  induction cs with
  | nil => simp [pieces]
  | cons c cs ih =>
    unfold pieces at literal ⊢
    split at literal
    next written name rest _ => exact (literal written name List.mem_cons_self).elim
    next =>
      rw [List.map_cons, ih]
      intro written name member
      exact literal written name (List.mem_cons_of_mem _ member)

namespace Scope

variable (scope : Scope)

/-- A variable that has a value, or may stay for an event that is not known yet. -/
def Knows (name : String) : Prop :=
  name ∈ scope.bindings.keys ∨
    scope.strict = false ∧ name ∈ Context.knownVariables ∧ Text.startsWith name.toList "matrix.".toList = false

/-- A variable that can be replaced: it is known, and its value has a text. -/
def Provides (name : String) : Prop :=
  scope.Knows name ∧ ∀ v, scope.bindings.get? name = some v → v.isUnwritable = false

theorem fill_succeeds {source : String} {written : List Char} {name : String} :
    Succeeds (scope.fill source written name) ↔ scope.Provides name := by
  have bound : (scope.bindings.get? name).isSome = true ↔ name ∈ scope.bindings.keys := Table.has_iff (Key.exact name)
  unfold fill Provides Knows
  split
  next found => simp [← bound, found, succeeds_ok, Value.isUnwritable]
  next v _ found =>
    rw [succeeds_mapError, Value.written_eq, ← bound, found]
    cases limit : v.isUnwritable with
    | true => exact iff_of_false (not_succeeds_error _) fun provided => by simpa [limit] using provided.2 v rfl
    | false => exact iff_of_true (succeeds_ok _) ⟨Or.inl rfl, fun _ same => Option.some.inj same ▸ limit⟩
  next none =>
    rw [none]
    split
    next unknown =>
      refine iff_of_false (not_succeeds_error _) ?_
      rintro ⟨present | ⟨lax, known, other⟩, _⟩
      · simp [← bound, none] at present
      · rw [lax, other] at unknown
        simp [known] at unknown
    next known =>
      simp only [not_or, Bool.not_eq_true, not_not, List.contains_iff_mem] at known
      exact iff_of_true (succeeds_ok _) ⟨Or.inr ⟨known.2.1, known.2.2, known.1⟩, fun _ found => by cases found⟩

theorem fillAll_succeeds {source : String} {parts : List Piece} :
    Succeeds (scope.fillAll source parts) ↔ ∀ written name, .hole written name ∈ parts → scope.Provides name := by
  induction parts with
  | nil => exact iff_of_true (succeeds_ok []) (by simp)
  | cons part parts ih =>
    cases part with
    | char c =>
      rw [fillAll, succeeds_map, ih]
      simp
    | hole written name =>
      rw [fillAll, succeeds_bind fun _ => succeeds_map, fill_succeeds, ih]
      constructor
      · rintro ⟨here, rest⟩ written' name' member
        rcases List.mem_cons.1 member with same | later
        · cases same
          exact here
        · exact rest written' name' later
      · intro all
        exact ⟨all written name List.mem_cons_self, fun _ _ later => all _ _ (List.mem_cons_of_mem _ later)⟩

theorem mem_textNames {s name : String} : name ∈ textNames s ↔ ∃ written, .hole written name ∈ pieces s.toList := by
  rw [textNames, List.mem_filterMap]
  constructor
  · rintro ⟨part, member, named⟩
    cases part with
    | char c => cases named
    | hole written name' =>
      cases named
      exact ⟨written, member⟩
  · rintro ⟨written, member⟩
    exact ⟨_, member, rfl⟩

theorem text_succeeds {s : String} : Succeeds (scope.text s) ↔ ∀ name ∈ textNames s, scope.Provides name := by
  rw [text, succeeds_map, fillAll_succeeds]
  simp only [mem_textNames]
  constructor
  · rintro all name ⟨written, member⟩
    exact all written name member
  · intro all written name member
    exact all name ⟨written, member⟩

theorem text_literal {s : String} (literal : textNames s = []) : scope.text s = .ok s := by
  have plain : pieces s.toList = s.toList.map .char := by
    apply pieces_literal
    intro written name member
    have named := mem_textNames.2 ⟨written, member⟩
    rw [literal] at named
    cases named
  have kept (cs : List Char) : scope.fillAll s (cs.map .char) = .ok cs := by
    induction cs with
    | nil => rfl
    | cons c cs ih =>
      rw [List.map_cons, fillAll, ih]
      rfl
  rw [text, plain, kept]
  exact congrArg Except.ok String.ofList_toList

mutual
theorem value_succeeds : (v : Value) →
    (Succeeds (scope.value v) ↔ (∀ name ∈ names v, scope.Provides name) ∧ v.isEndless = false)
  | .str _ => succeeds_map.trans (scope.text_succeeds.trans (and_iff_left rfl).symm)
  | .list vs => succeeds_map.trans (items_succeeds vs)
  | .tuple vs => succeeds_map.trans (items_succeeds vs)
  | .map es => succeeds_map.trans (entries_succeeds es)
  | .knot _ v => succeeds_map.trans (value_succeeds v)
  | .again .. => iff_of_false (not_succeeds_error _) fun ⟨_, ends⟩ => by cases ends
  | .null | .bool _ | .int _ | .float _ | .bytes _ | .date _ | .timestamp _ | .set _ =>
    iff_of_true (succeeds_ok _) ⟨List.forall_mem_nil _, rfl⟩

theorem items_succeeds : (vs : List Value) →
    (Succeeds (scope.items vs) ↔ (∀ name ∈ namesOfItems vs, scope.Provides name) ∧ Value.anyEndless vs = false)
  | [] => iff_of_true (succeeds_ok _) ⟨List.forall_mem_nil _, rfl⟩
  | v :: vs => by
    rw [items, succeeds_bind fun _ => succeeds_map, value_succeeds v, items_succeeds vs, namesOfItems,
      List.forall_mem_append, Value.anyEndless, Bool.or_eq_false_iff, and_and_and_comm]

theorem entries_succeeds : (es : List (Value × Value)) →
    (Succeeds (scope.entries es) ↔ (∀ name ∈ namesOfEntries es, scope.Provides name) ∧ Value.anyEntryEndless es = false)
  | [] => iff_of_true (succeeds_ok _) ⟨List.forall_mem_nil _, rfl⟩
  | (_, v) :: es => by
    rw [entries, succeeds_bind fun _ => succeeds_map, value_succeeds v, entries_succeeds es, namesOfEntries,
      List.forall_mem_append, Value.anyEntryEndless, Bool.or_eq_false_iff, and_and_and_comm]
end

theorem anyEntryEndless_iff {entries : Mapping} :
    Value.anyEntryEndless entries = false ↔ ∀ v ∈ entries.values, v.isEndless = false := by
  induction entries with
  | nil => exact iff_of_true rfl (List.forall_mem_nil _)
  | cons entry rest ih =>
    rw [Value.anyEntryEndless, Bool.or_eq_false_iff, ih, Table.values, Table.values, List.map_cons, List.forall_mem_cons]

theorem fields_succeeds {fields : Fields} : Succeeds (scope.fields fields) ↔
    (∀ name ∈ namesOfFields fields, scope.Provides name) ∧ ∀ v ∈ fields.values, v.isEndless = false := by
  induction fields with
  | nil => exact iff_of_true (succeeds_ok _) ⟨List.forall_mem_nil _, List.forall_mem_nil _⟩
  | cons field rest ih =>
    obtain ⟨key, value⟩ := field
    rw [Scope.fields, succeeds_bind fun _ => succeeds_map, value_succeeds, ih, and_and_and_comm]
    rw [Table.values, Table.values, List.map_cons, List.forall_mem_cons]
    exact and_congr_left' List.forall_mem_append.symm

theorem fields_get? {fields rendered : Fields} (done : scope.fields fields = .ok rendered) (key : String) :
    match fields.get? key with
    | some v => ∃ w, scope.value v = .ok w ∧ rendered.get? key = some w
    | none => rendered.get? key = none := by
  induction fields generalizing rendered with
  | nil =>
    cases done
    rfl
  | cons field fields ih =>
    obtain ⟨k, v⟩ := field
    obtain ⟨w, here, rest⟩ := bind_ok.1 done
    obtain ⟨others, later, same⟩ := bind_ok.1 rest
    cases same
    by_cases found : Key.same k key = true
    · simp only [Table.get?, found, if_true]
      exact ⟨w, here, rfl⟩
    · simp only [Table.get?, found]
      exact ih later

theorem fields_keys {fields rendered : Fields} (done : scope.fields fields = .ok rendered) :
    rendered.keys = fields.keys := by
  induction fields generalizing rendered with
  | nil =>
    cases done
    rfl
  | cons field fields ih =>
    obtain ⟨w, _, rest⟩ := bind_ok.1 done
    obtain ⟨others, later, same⟩ := bind_ok.1 rest
    cases same
    exact congrArg (field.1 :: ·) (ih later)

end Scope

theorem keys_bindings (c : Context) : c.bindings.keys = Context.knownVariables := rfl

theorem known_unprefixed : ∀ name ∈ Context.knownVariables,
    Text.startsWith name.toList "matrix.".toList = false := by decide +kernel

/-- A combination gives values to the variables of its keys; those of the event are always known. -/
theorem Scope.of_knows {combination : Mapping} {context : Option Context} {name : String} :
    (Scope.of combination context).Knows name ↔
      name ∈ Context.knownVariables ∨ name ∈ combination.keys.map matrixVariable := by
  unfold Knows Scope.of
  simp only [Table.mem_keys_update (Table.exact _), Table.mem_keys_ofPairs (Table.exact _)]
  rw [Table.keys_map (g := matrixVariable) fun _ => rfl]
  cases context with
  | none =>
    constructor
    · rintro ((none | set) | ⟨_, known, _⟩)
      · cases none
      · exact Or.inr set
      · exact Or.inl known
    · rintro (known | set)
      · exact Or.inr ⟨rfl, known, known_unprefixed name known⟩
      · exact Or.inl (Or.inr set)
  | some c =>
    rw [keys_bindings]
    simp

theorem bindings_written (c : Context) : ∀ v ∈ c.bindings.values, v.isUnwritable = false := by
  have optional (s : Option String) : (Context.optionalText s).isUnwritable = false := by cases s <;> rfl
  simp [Context.bindings, Table.values, optional, Value.isUnwritable]

/-- The values of an event and of a combination that can be written are those of a scope that can fill in all it knows. -/
theorem Scope.of_provides {combination : Mapping} {context : Option Context} {name : String}
    (written : ∀ v ∈ combination.values, v.isUnwritable = false) :
    (Scope.of combination context).Provides name ↔ (Scope.of combination context).Knows name := by
  refine and_iff_left fun v found => ?_
  rcases Table.values_update _ _ v (Table.value_of_get? found) with member | member
  · cases context with
    | none => exact absurd member List.not_mem_nil
    | some c => exact bindings_written c v member
  · obtain ⟨entry, listed, rfl⟩ := List.mem_map.1 (Table.values_ofPairs _ v member)
    obtain ⟨⟨key, value⟩, inside, rfl⟩ := List.mem_map.1 listed
    exact written value (List.mem_map_of_mem inside)

end Template

namespace Stage

open Template

def mentions (s : Stage) : List String :=
  (s.steps.flatMap fun step => textNames step.name ++ namesOfFields step.params ++ namesOfFields step.env) ++
    (s.consumes.flatMap fun r => textNames r.name ++ names (.map r.filter)) ++ s.produces.flatMap textNames ++
    namesOfFields s.env ++ textNames (s.runsOn.getD "")

theorem renderOptional_succeeds (scope : Scope) (s : Option String) :
    Succeeds (renderOptional scope s) ↔ ∀ name ∈ textNames (s.getD ""), scope.Provides name := by
  have empty : textNames "" = [] := by simp [textNames, pieces]
  cases s with
  | none => exact iff_of_true (succeeds_ok _) (by simp [empty])
  | some s =>
    rw [renderOptional]
    split
    next same => exact iff_of_true (succeeds_ok _) (by simp [same, empty])
    next => exact succeeds_map.trans scope.text_succeeds

variable {s : Stage} {context : Option Context} {index : Nat} {combination : Mapping}

/-- A combination gives a job exactly if the variables of the stage have values with texts, and what it is put together
from comes to an end. -/
theorem job_succeeds :
    Succeeds (s.job context index combination) ↔
      (∀ name ∈ s.mentions, (Scope.of combination context).Provides name) ∧
        ∀ v ∈ Validation.searched s, v.isEndless = false := by
  generalize made : Scope.of combination context = scope
  have steps : Succeeds (s.steps.mapM (renderStep scope)) ↔
      (∀ name ∈ s.steps.flatMap fun step =>
        textNames step.name ++ namesOfFields step.params ++ namesOfFields step.env, scope.Provides name) ∧
      ∀ v ∈ s.steps.flatMap fun step => step.params.values ++ step.env.values, v.isEndless = false := by
    rw [succeeds_mapM, List.forall_mem_flatMap, List.forall_mem_flatMap, ← forall₂_and]
    apply forall₂_congr
    intro step _
    rw [renderStep, succeeds_bind fun _ => succeeds_bind fun _ => succeeds_map, scope.text_succeeds,
      scope.fields_succeeds, scope.fields_succeeds]
    simp only [List.forall_mem_append]
    tauto
  have consumes : Succeeds (s.consumes.mapM (renderRef scope)) ↔
      (∀ name ∈ s.consumes.flatMap fun r => textNames r.name ++ names (.map r.filter), scope.Provides name) ∧
      ∀ v ∈ s.consumes.flatMap fun r => r.filter.values, v.isEndless = false := by
    rw [succeeds_mapM, List.forall_mem_flatMap, List.forall_mem_flatMap, ← forall₂_and]
    apply forall₂_congr
    intro r _
    rw [renderRef, succeeds_bind fun _ => succeeds_map, scope.text_succeeds, scope.entries_succeeds,
      Scope.anyEntryEndless_iff, List.forall_mem_append, and_assoc]
    rfl
  have produces : Succeeds (s.produces.mapM scope.text) ↔
      ∀ name ∈ s.produces.flatMap textNames, scope.Provides name := by
    rw [succeeds_mapM, List.forall_mem_flatMap]
    exact forall₂_congr fun _ _ => scope.text_succeeds
  have whole : Succeeds (s.job context index combination) ↔ _ :=
    succeeds_bind fun _ => succeeds_bind fun _ => succeeds_bind fun _ => succeeds_bind fun _ => succeeds_map
  rw [whole, made, steps, consumes, produces, scope.fields_succeeds, renderOptional_succeeds]
  simp only [mentions, Validation.searched, List.forall_mem_append]
  tauto

theorem job_produces {job : Job} (done : s.job context index combination = .ok job)
    (literal : ∀ name ∈ s.produces, textNames name = []) :
    job.produces = s.produces := by
  have same := mapM_eq fun name member => (Scope.of combination context).text_literal (literal name member)
  rw [List.map_id'] at same
  exact Except.ok.inj ((job_made done).1.produces.symm.trans same)

/-- References to whole stages by names without templates are those of every job. -/
theorem job_consumes {job : Job} (done : s.job context index combination = .ok job)
    (literal : ∀ r ∈ s.consumes, textNames r.name = [] ∧ r.filter = []) :
    job.consumes = s.consumes.map fun r => { stage := r.stage, name := r.name } := by
  have each : ∀ r ∈ s.consumes, renderRef (Scope.of combination context) r =
      .ok { stage := r.stage, name := r.name } := by
    intro r member
    obtain ⟨name, filter⟩ := literal r member
    rw [renderRef, Scope.text_literal _ name, filter]
    rfl
  exact Except.ok.inj ((job_made done).1.consumes.symm.trans (mapM_eq each))

end Stage
end Conveyor
