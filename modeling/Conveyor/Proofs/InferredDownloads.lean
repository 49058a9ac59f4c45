import Conveyor.Document.Pipeline
import Conveyor.Proofs.ConsumedArtifacts
import Conveyor.Proofs.DownloadSources

/-! Stages that leave it to their download steps what they consume. The producer of a step is decided twice: when the
document is read, from the step and the stages that are needed, and when the step runs, from the inputs of its job. Both
come to the same unless the job consumes an artifact of the same name from another stage and the step names no stage. -/

namespace Conveyor

open Fallible

namespace Template

variable {scope : Scope}

mutual
/-- A value without templates is rendered to itself. -/
theorem Scope.value_literal : (v : Value) → names v = [] → ∀ {w}, scope.value v = .ok w → w = v
  | .str s, literal, _, done => by
    rw [value, scope.text_literal literal] at done
    exact (Except.ok.inj done).symm
  | .list vs, literal, _, done => by
    obtain ⟨items, rendered, same⟩ := bind_ok.1 done
    exact (Except.ok.inj same).symm.trans (congrArg Value.list (items_literal vs literal rendered))
  | .tuple vs, literal, _, done => by
    obtain ⟨items, rendered, same⟩ := bind_ok.1 done
    exact (Except.ok.inj same).symm.trans (congrArg Value.tuple (items_literal vs literal rendered))
  | .map es, literal, _, done => by
    obtain ⟨entries, rendered, same⟩ := bind_ok.1 done
    exact (Except.ok.inj same).symm.trans (congrArg Value.map (entries_literal es literal rendered))
  | .knot label v, literal, _, done => by
    obtain ⟨collection, rendered, same⟩ := bind_ok.1 done
    exact (Except.ok.inj same).symm.trans (congrArg (Value.knot label) (value_literal v literal rendered))
  | .again .., _, _, done => by cases done
  | .null, _, _, done | .bool _, _, _, done | .int _, _, _, done | .float _, _, _, done | .bytes _, _, _, done
  | .date _, _, _, done | .timestamp _, _, _, done | .set _, _, _, done => (Except.ok.inj done).symm

theorem Scope.items_literal : (vs : List Value) → namesOfItems vs = [] → ∀ {ws}, scope.items vs = .ok ws → ws = vs
  | [], _, _, done => (Except.ok.inj done).symm
  | v :: vs, literal, _, done => by
    obtain ⟨first, rest⟩ := List.append_eq_nil_iff.1 literal
    obtain ⟨w, rendered, done⟩ := bind_ok.1 done
    obtain ⟨ws, others, same⟩ := bind_ok.1 done
    rw [← Except.ok.inj same, value_literal v first rendered, items_literal vs rest others]

theorem Scope.entries_literal : (es : List (Value × Value)) → namesOfEntries es = [] →
    ∀ {fs}, scope.entries es = .ok fs → fs = es
  | [], _, _, done => (Except.ok.inj done).symm
  | (_, v) :: es, literal, _, done => by
    obtain ⟨first, rest⟩ := List.append_eq_nil_iff.1 literal
    obtain ⟨w, rendered, done⟩ := bind_ok.1 done
    obtain ⟨fs, others, same⟩ := bind_ok.1 done
    rw [← Except.ok.inj same, value_literal v first rendered, entries_literal es rest others]
end

theorem names_falsy : {v : Value} → v.truthy = false → names v = []
  | .str s, falsy => by
    have empty : s = "" := by simpa [Value.truthy] using falsy
    simp [empty, names, textNames, pieces]
  | .list [], _ | .tuple [], _ | .map [], _ => rfl
  | .knot _ v, falsy => names_falsy (v := v) falsy
  | .null, _ | .bool _, _ | .int _, _ | .float _, _ | .bytes _, _ | .date _, _ | .timestamp _, _ | .set _, _
  | .again .., _ => rfl

/-- The templates of a parameter are those of its text: the parameter is a text, or has none. -/
def OnSurface : Value → Prop
  | .str _ => True
  | v => names v = [] ∧ textNames v.text = []

theorem OnSurface.text_eq {v w : Value} {text : String} (surface : OnSurface v) (value : scope.value v = .ok w)
    (rendered : scope.text v.text = .ok text) : w.text = text := by
  have literal (plain : names v = [] ∧ textNames v.text = []) : w.text = text := by
    rw [Scope.value_literal v plain.1 value]
    rw [scope.text_literal plain.2] at rendered
    exact Except.ok.inj rendered
  cases v with
  | str s =>
    obtain ⟨t, filled, same⟩ := bind_ok.1 value
    cases same
    exact Except.ok.inj (filled.symm.trans rendered)
  | _ => exact literal surface

end Template

/-! ### Parameters of rendered steps -/

namespace Stage

open Document Rehearsal Template

variable {scope : Scope} {declared step : Step} {key : String} {v : Value}

theorem renderStep_params (done : renderStep scope declared = .ok step) :
    scope.fields declared.params = .ok step.params := by
  obtain ⟨_, _, rest⟩ := bind_ok.1 done
  obtain ⟨params, rendered, rest⟩ := bind_ok.1 rest
  obtain ⟨_, _, same⟩ := bind_ok.1 rest
  cases same
  exact rendered

theorem param?_rendered (done : renderStep scope declared = .ok step) (given : givenParam? declared key = some v) :
    ∃ w, scope.value v = .ok w ∧ param? step key = (some w).filter Value.truthy := by
  have rendered := scope.fields_get? (renderStep_params done) key
  obtain ⟨found, _⟩ := Option.filter_eq_some_iff.1 given
  rw [found] at rendered
  obtain ⟨w, value, there⟩ := rendered
  exact ⟨w, value, by rw [param?, there]⟩

theorem param?_literal (done : renderStep scope declared = .ok step) (given : givenParam? declared key = some v)
    (literal : names v = []) : param? step key = some v := by
  obtain ⟨w, value, there⟩ := param?_rendered done given
  cases Scope.value_literal v literal value
  rw [there, Option.filter_eq_some_iff]
  exact ⟨rfl, (Option.filter_eq_some_iff.1 given).2⟩

/-- A parameter that does not count as given has no templates, so it does not count when the step runs. -/
theorem param?_absent (done : renderStep scope declared = .ok step) (absent : givenParam? declared key = none) :
    param? step key = none := by
  have rendered := scope.fields_get? (renderStep_params done) key
  cases found : declared.params.get? key with
  | none =>
    rw [found] at rendered
    rw [param?, rendered]
    rfl
  | some v =>
    rw [givenParam?, found, Option.filter_eq_none_iff] at absent
    have falsy : v.truthy = false := by simpa using absent v rfl
    rw [found] at rendered
    obtain ⟨w, value, there⟩ := rendered
    cases Scope.value_literal v (names_falsy falsy) value
    rw [param?, there, Option.filter_eq_none_iff]
    simpa using falsy

end Stage

/-! ### Inferred references -/

namespace Document

variable {stage : String} {needs : List String} {step : Step} {name : Value}

theorem textOf_ok {v : Value} {text : String} (done : textOf v = .ok text) : v.written = .ok text ∧ text = v.text := by
  unfold textOf at done
  split at done
  next => cases done
  next writable =>
    cases done
    exact ⟨Value.written_ok (Bool.eq_false_iff.2 writable), rfl⟩

theorem sameRef_unfiltered {a b : ArtifactRef} (same : sameRef a b = some true) (unfiltered : b.matrix = none) :
    a = b := by
  obtain ⟨stage, name, matrix⟩ := a
  obtain ⟨stage', name', matrix'⟩ := b
  cases unfiltered
  cases matrix with
  | none => simpa [sameRef] using same
  | some entries => simp [sameRef] at same

theorem isKnown_true {ref : ArtifactRef} {found : List ArtifactRef} (known : isKnown ref found = .ok true) :
    ∃ other ∈ found, sameRef other ref = some true := by
  fun_induction isKnown ref found with
  | case1 | case2 => cases known
  | case3 _ _ same => exact ⟨_, List.mem_cons_self, same⟩
  | case4 _ _ _ ih =>
    obtain ⟨other, member, same⟩ := ih known
    exact ⟨other, List.mem_cons_of_mem _ member, same⟩

theorem producerOf_cases {producer : Value} (decided : producerOf stage needs step name = .ok producer) :
    givenParam? step "stage" = some producer ∨
      (givenParam? step "stage" = none ∧ ∃ only, needs = [only] ∧ producer = .str only) := by
  unfold producerOf at decided
  split at decided
  next given =>
    cases decided
    exact Or.inl given
  next absent =>
    cases decided
    exact Or.inr ⟨absent, _, rfl, rfl⟩
  next =>
    split at decided
    · cases decided
    · cases decided

/-- The reference of a download step without a filter: to the stage that it names, or to the only one that is needed. -/
theorem inferredRef_download (downloads : executorBase step.uses = downloadName)
    (named : givenParam? step "name" = some name) (unfiltered : givenParam? step "matrix" = none)
    {result : Option ArtifactRef} (done : inferredRef stage needs step = .ok result) :
    ∃ producer, producerOf stage needs step name = .ok producer ∧ producer.written = .ok producer.text ∧
      result = some { stage := producer.text, name := name.text } := by
  unfold inferredRef at done
  rw [if_pos downloads, named] at done
  obtain ⟨producer, decided, rest⟩ := bind_ok.1 done
  obtain ⟨ref, made, same⟩ := bind_ok.1 rest
  cases same
  rw [unfiltered, mapError_ok] at made
  obtain ⟨text, first, rest⟩ := bind_ok.1 made
  obtain ⟨text', second, same⟩ := bind_ok.1 rest
  cases same
  obtain ⟨written, rfl⟩ := textOf_ok first
  obtain ⟨_, rfl⟩ := textOf_ok second
  exact ⟨producer, decided, written, rfl⟩

theorem inferredConsumes_ok {steps : List Step} {found refs : List ArtifactRef}
    (done : inferredConsumes stage needs steps found = .ok refs) :
    (∀ ref ∈ found, ref ∈ refs) ∧ ∀ step ∈ steps, ∃ result, inferredRef stage needs step = .ok result ∧
      ∀ ref, result = some ref → ref.matrix = none → ref ∈ refs := by
  induction steps generalizing found with
  | nil =>
    cases done
    exact ⟨fun _ member => member, List.forall_mem_nil _⟩
  | cons step steps ih =>
    obtain ⟨result, inferred, rest⟩ := bind_ok.1 done
    rw [List.forall_mem_cons]
    cases result with
    | none =>
      obtain ⟨kept, later⟩ := ih rest
      exact ⟨kept, ⟨none, inferred, fun _ other => by cases other⟩, later⟩
    | some ref =>
      obtain ⟨known, checked, rest⟩ := bind_ok.1 rest
      cases known with
      | true =>
        obtain ⟨kept, later⟩ := ih rest
        obtain ⟨same, member, equal⟩ := isKnown_true (mapError_ok.1 checked)
        refine ⟨kept, ⟨some ref, inferred, ?_⟩, later⟩
        intro _ this unfiltered
        cases this
        exact sameRef_unfiltered equal unfiltered ▸ kept same member
      | false =>
        obtain ⟨kept, later⟩ := ih rest
        refine ⟨fun other member => kept other (List.mem_append_left _ member), ⟨some ref, inferred, ?_⟩, later⟩
        intro _ this _
        cases this
        exact kept ref (List.mem_append_right _ List.mem_cons_self)

theorem toStage_silent {key : String} {e : StageEntry} {s : Stage} (done : e.toStage key = .ok s)
    (silent : e.consumes = none) : s.name = key ∧ inferredConsumes key e.needs s.steps [] = .ok s.consumes := by
  obtain ⟨steps, _, rest⟩ := bind_ok.1 done
  obtain ⟨produces, rest⟩ : ∃ produces, (inferredConsumes key e.needs steps [] >>= fun consumes =>
      e.toMatrix >>= fun matrix => (envTexts e.env).mapError Refusal.misuse >>= fun env =>
        pure { name := key, steps, needs := e.needs, matrix, condition := e.condition, failFast := e.cancelsSiblings
               timeout := e.seconds.map Number.float, produces, consumes, env, runsOn := e.runsOn
               title := e.title }) = Except.ok s := by
    simp only [silent] at rest
    split at rest
    · exact ⟨_, rest⟩
    · obtain ⟨produces, _, rest⟩ := bind_ok.1 rest
      exact ⟨produces, rest⟩
  obtain ⟨consumes, inferred, rest⟩ := bind_ok.1 rest
  obtain ⟨matrix, _, rest⟩ := bind_ok.1 rest
  obtain ⟨env, _, same⟩ := bind_ok.1 rest
  cases same
  exact ⟨rfl, inferred⟩

def Checked.gives {α : Type} [DecidableEq α] (a : Checked α) (value : α) : Bool :=
  match a with
  | .valid given => given = value
  | .invalid _ | .abandoned _ => false

theorem Checked.eq_of_gives {α : Type} [DecidableEq α] {a : Checked α} {value : α}
    (gives : a.gives value = true) : a = .valid value := by
  cases a with
  | valid given => rw [of_decide_eq_true gives]
  | invalid problems => cases gives
  | abandoned misuse => cases gives

def Reads (doc : Value) (entry : PipelineEntry) : Prop :=
  ∃ entries, doc.opened = .map entries ∧ PipelineEntry.check ⟨restoreTriggers entries⟩ = .valid entry

theorem Reads.stage_mem {doc : Value} {source : String} {entry : PipelineEntry} {p : Pipeline} (reads : Reads doc entry)
    (parsed : parsePipeline source doc = .ok p) {key : String} {e : StageEntry} (listed : (key, e) ∈ entry.stages)
    {s : Stage} (made : e.toStage key = .ok s) : s ∈ p.stages := by
  obtain ⟨entries, opened, checked⟩ := reads
  unfold parsePipeline at parsed
  rw [opened] at parsed
  dsimp only at parsed
  rw [checked] at parsed
  obtain ⟨stages, all, rest⟩ := bind_ok.1 parsed
  obtain ⟨_, _, same⟩ := bind_ok.1 rest
  cases same
  obtain ⟨i, place⟩ := List.mem_iff_getElem?.1 listed
  obtain ⟨t, place', made'⟩ := mapM_place all place
  cases made.symm.trans made'
  exact List.mem_of_getElem? place'

/-- A step of a stage that does not say what it consumes, by its number: it fetches an artifact by name, and without a
filter. -/
structure Download (entry : PipelineEntry) (key : String) (e : StageEntry) (k : Nat) (declared : Step) (name : Value) :
    Prop where
  listed : (key, e) ∈ entry.stages
  silent : e.consumes = none
  place : ∃ s, e.toStage key = .ok s ∧ s.steps[k]? = some declared
  uses : executorBase declared.uses = downloadName
  named : givenParam? declared "name" = some name
  unfiltered : givenParam? declared "matrix" = none

end Document

/-! ### Steps that run -/

theorem Moment.Path.launch_resolved {ω : Type} [World ω] {setup : Setup} {g : RunGraph} (populated : g.Populated)
    (graph : setup.graph = g.graph) {w : ω} {m : Moment ω} (path : Path (Operation.start setup g w).moment m) {slot : Nat}
    {worker : Worker} (asked : .launch slot worker ∈ m.coord.requests) :
    worker.context.job ∈ g.allJobs ∧
      ∃ earlier : Moment ω, earlier.inputs worker.context.job = .ok worker.context.inputs := by
  induction path with
  | refl => cases asked
  | tail path step ih =>
    rcases step.launching asked with before | ⟨r, _, inputs, found, _, resolved, rfl, _, _⟩
    · exact ih before
    · exact ⟨(Path.barred populated graph path).1.job found, _, resolved⟩

/-- The reference that was inferred for a step is among those of each job of the stage, with its name rendered in the
same scope as the step. -/
theorem RunGraph.inferred_consumed {doc : Value} {source : String} {entry : Document.PipelineEntry} {p : Pipeline}
    {context : Option Context} {g : RunGraph} (reads : Document.Reads doc entry)
    (parsed : Document.parsePipeline source doc = .ok p) (built : build p context = .ok g) {job : Job}
    (member : job ∈ g.allJobs) {e : Document.StageEntry} {k : Nat} {declared step : Step} {name : Value}
    (download : Document.Download entry job.stage e k declared name) (rendered : job.steps[k]? = some step) :
    ∃ producer scope text, Document.producerOf job.stage e.needs declared name = .ok producer ∧
      producer.written = .ok producer.text ∧
      Document.inferredRef job.stage e.needs declared = .ok (some { stage := producer.text, name := name.text }) ∧
      Stage.renderStep scope declared = .ok step ∧ scope.text name.text = .ok text ∧
      job.ConsumesFrom producer.text text := by
  obtain ⟨s, made, place⟩ := download.place
  obtain ⟨called, inferred⟩ := Document.toStage_silent made download.silent
  obtain ⟨result, done, among⟩ := (Document.inferredConsumes_ok inferred).2 declared (List.mem_of_getElem? place)
  obtain ⟨producer, decided, written, rfl⟩ :=
    Document.inferredRef_download download.uses download.named download.unfiltered done
  have declares := reads.stage_mem parsed download.listed made
  obtain ⟨index, combination, expanded⟩ := build_origin built member declares called.symm
  have references := (Stage.job_made expanded).1.consumes
  obtain ⟨i, listed⟩ := List.mem_iff_getElem?.1 (among _ rfl rfl)
  obtain ⟨ref, listed', filled⟩ := mapM_place references listed
  obtain ⟨text, spelled, rest⟩ := bind_ok.1 filled
  obtain ⟨_, _, same⟩ := bind_ok.1 rest
  cases same
  obtain ⟨step', place', done'⟩ := mapM_place (Stage.job_made expanded).1.steps place
  cases rendered.symm.trans place'
  exact ⟨producer, _, text, decided, written, done, done', spelled, _, List.mem_of_getElem? listed', rfl, rfl⟩

namespace Engine

open Document Rehearsal

variable {ω : Type} [World ω] {settings : Settings} {processors : Nat} {p : Pipeline} {context : Context} {g : RunGraph}
  {world : ω}

/-- A step whose stage has no templates and whose name has none below its surface. -/
structure Plain (declared : Step) (name : Value) : Prop where
  name : Template.OnSurface name
  stage : ∀ v, givenParam? declared "stage" = some v → Template.names v = []

section

variable {scope : Template.Scope} {declared step : Step} {name producer : Value} {text asked key : String}
  {needs : List String} {job : Job}

theorem Plain.asked_eq (plain : Plain declared name) (given : givenParam? declared "name" = some name)
    (filled : Stage.renderStep scope declared = .ok step) (spelled : scope.text name.text = .ok text)
    (named : askedName? step = some asked) : asked = text := by
  obtain ⟨w, value, there⟩ := Stage.param?_rendered filled given
  obtain ⟨w', found, written⟩ := askedName?_eq.1 named
  rw [there] at found
  cases (Option.filter_eq_some_iff.1 found).1
  rw [← plain.name.text_eq value spelled]
  rw [Value.written_eq] at written
  split at written
  · cases written
  · exact (Except.ok.inj written).symm

/-- A plain step that names its stage asks it; one that does not is settled if no other stage is in question. -/
theorem Plain.settled (plain : Plain declared name) (filled : Stage.renderStep scope declared = .ok step)
    (decided : producerOf key needs declared name = .ok producer) (written : producer.written = .ok producer.text)
    (named : askedName? step = some text) (consumed : job.ConsumesFrom producer.text text)
    (clear : (givenParam? declared "stage").isSome = true ∨
      ∀ other, job.ConsumesFrom other text → other = producer.text) : Settled job step producer.text text := by
  rcases producerOf_cases decided with given | ⟨absent, _⟩
  · have there := Stage.param?_literal filled given (plain.stage producer given)
    refine ⟨named, consumed, ?_, ?_⟩
    · intro v found
      cases there.symm.trans found
      exact written
    · intro none
      cases there.symm.trans none
  · refine ⟨named, consumed, ?_, ?_⟩
    · intro v found
      cases (Stage.param?_absent filled absent).symm.trans found
    · intro _
      apply clear.resolve_left
      rw [absent]
      exact Bool.false_ne_true

end

/-- When a job of a document has its inputs, a download step fetches from the stage that was inferred for it, and misses
nothing, exactly if this is settled by the step and the references of the job. For a plain step it is settled unless the
step names no stage and the job consumes the same name from another one; then the step says that it is not. -/
theorem downloads_agree {doc : Value} {source : String} {entry : PipelineEntry} (reads : Reads doc entry)
    (parsed : parsePipeline source doc = .ok p) (built : RunGraph.build p (some context) = .ok g) {m : Moment ω}
    (reached : Moment.Path (opening settings processors g context world).moment m) {slot : Nat} {worker : Worker}
    (asked : .launch slot worker ∈ m.coord.requests) {e : StageEntry} {k : Nat} {declared step : Step}
    {name : Value} (download : Download entry worker.context.job.stage e k declared name)
    (rendered : worker.context.job.steps[k]? = some step) (props : Props) {f : Floor}
    (inputs : f.context.inputs = worker.context.inputs) :
    ∃ ref, inferredRef worker.context.job.stage e.needs declared = .ok (some ref) ∧
      (match givenParam? declared "stage" with
        | some v => ref.stage = v.text
        | none => e.needs = [ref.stage]) ∧
      (∀ text, FetchesFrom props step f ref.stage text ↔ Settled worker.context.job step ref.stage text) ∧
      (Plain declared name → ∀ text, askedName? step = some text →
        let clear := (givenParam? declared "stage").isSome = true ∨
          ∀ other, worker.context.job.ConsumesFrom other text → other = ref.stage
        (clear → FetchesFrom props step f ref.stage text) ∧
        (¬ clear → Rehearsal.download props step f = f.raise (unsettled (providers f.context.inputs text) text))) := by
  obtain ⟨member, earlier, resolved⟩ := reached.launch_resolved (RunGraph.build_populated built) rfl asked
  obtain ⟨producer, scope, text, decided, written, inferred, filled, spelled, consumed⟩ :=
    RunGraph.inferred_consumed reads parsed built member download rendered
  have unfiltered := Stage.param?_absent filled download.unfiltered
  rw [← inputs] at resolved
  have fetches (text : String) : FetchesFrom props step f producer.text text ↔
      Settled worker.context.job step producer.text text := fetchesFrom_iff resolved unfiltered
  refine ⟨_, inferred, ?_, fetches, ?_⟩
  · rcases producerOf_cases decided with given | ⟨absent, only, needs, rfl⟩
    · rw [given]
    · rw [absent, needs]
      rfl
  · intro plain wanted named
    obtain rfl := plain.asked_eq download.named filled spelled named
    refine ⟨fun clear => (fetches wanted).2 (plain.settled filled decided written named consumed clear), ?_⟩
    intro unclear
    rw [not_or, not_forall] at unclear
    obtain ⟨unnamed, other, there⟩ := unclear
    rw [Classical.not_imp] at there
    have absent : givenParam? declared "stage" = none := by simpa using unnamed
    exact download_unsettled resolved unfiltered named (Stage.param?_absent filled absent) consumed there.1 there.2

/-! ### A name from two stages -/

def namedDownload : Step :=
  { uses := "download-artifact", params := [("name", .str "app"), ("stage", .str "build"), ("path", .str "plain")] }

def unnamedDownload : Step := { uses := "download-artifact", params := [("name", .str "app")] }

def shippingFields : Mapping :=
  [(.str "on", .str "push"),
    (.str "jobs", .map [
      (.str "build", .map [(.str "produces", .str "app"), (.str "steps", .list [.map [(.str "run", .str "make")]])]),
      (.str "sign", .map [(.str "needs", .str "build"), (.str "produces", .str "app"),
        (.str "steps", .list [.map [(.str "run", .str "sign")]])]),
      (.str "ship", .map [(.str "needs", .str "sign"),
        (.str "steps", .list [
          .map [(.str "uses", .str "download-artifact"),
            (.str "with", .map [(.str "name", .str "app"), (.str "stage", .str "build"), (.str "path", .str "plain")])],
          .map [(.str "uses", .str "download-artifact"), (.str "with", .map [(.str "name", .str "app")])]])])])]

/-- A program is built and signed under one name, and both are shipped. The second download does not name its stage. -/
def shipping : Value := .map shippingFields

def commandEntry (text : String) : StepEntry := ⟨none, "", none, some text, [], [], none⟩

def downloadEntry (step : Step) : StepEntry := ⟨none, "", some step.uses, none, step.params, [], none⟩

def stageEntry (needs : List String) (produces : Option (List String)) (steps : List StepEntry) : StageEntry :=
  { title := none, needs, condition := none, strategy := none, matrix := none, failFast := none, timeout := none
    timeoutMinutes := none, runsOn := none, produces, consumes := none, env := [], steps }

def shipEntry : StageEntry := stageEntry ["sign"] none [downloadEntry namedDownload, downloadEntry unnamedDownload]

def shippingEntry : PipelineEntry :=
  { name := "pipeline", triggers := .event "push", env := []
    stages := [("build", stageEntry [] (some ["app"]) [commandEntry "make"]),
      ("sign", stageEntry ["build"] (some ["app"]) [commandEntry "sign"]), ("ship", shipEntry)] }

def shippingPipeline : Pipeline :=
  { name := "pipeline"
    stages := [
      { name := "build", steps := [{ uses := "shell", params := [("command", .str "make")] }], produces := ["app"] },
      { name := "sign", steps := [{ uses := "shell", params := [("command", .str "sign")] }], needs := ["build"]
        produces := ["app"] },
      { name := "ship", steps := [namedDownload, unnamedDownload], needs := ["sign"]
        consumes := [{ stage := "build", name := "app" }, { stage := "sign", name := "app" }] }]
    triggers := [{ event := "push" }] }

def shippingJob : Job :=
  { stage := "ship", steps := [namedDownload, unnamedDownload]
    consumes := [{ stage := "build", name := "app" }, { stage := "sign", name := "app" }] }

def shippingGraph : RunGraph :=
  { graph := { stages := shippingPipeline.stages, needs := [[], [0], [1]], dependents := [[1], [2], []]
               order := [0, 1, 2] }
    jobs := [
      [{ stage := "build", steps := [{ uses := "shell", params := [("command", .str "make")] }], produces := ["app"] }],
      [{ stage := "sign", steps := [{ uses := "shell", params := [("command", .str "sign")] }], produces := ["app"] }],
      [shippingJob]]
    context := some pushed }

def shippingRun : Operation (Workshop assembling) := opening { maxWorkers := some 1 } 1 shippingGraph pushed {}

def carriers : Registry Unit := { entries := [("shell", ()), ("download-artifact", ())] }

theorem shipping_reads : Reads shipping shippingEntry := by
  refine ⟨shippingFields, rfl, ?_⟩
  apply Checked.eq_of_gives
  decide +kernel

theorem shipping_parsed : parsePipeline "shipping" shipping = .ok shippingPipeline := by decide +kernel

theorem shipping_built : RunGraph.build shippingPipeline (some pushed) = .ok shippingGraph := by decide +kernel

theorem shipping_valid : Validation.check carriers shippingPipeline = .ok () := by cbv

theorem shipping_launched : ∃ m slot worker, Moment.Path shippingRun.moment m ∧
    .launch slot worker ∈ m.coord.requests ∧ worker.context.job = shippingJob := by
  have starts : startsAfter "ship" 2 shippingRun = true := by decide +kernel
  have only : ∀ job ∈ shippingGraph.allJobs, job.stage = "ship" → job = shippingJob := by decide +kernel
  obtain ⟨m, slot, worker, reached, asked, stage⟩ := startsAfter_launches starts
  obtain ⟨member, _⟩ := reached.launch_resolved (RunGraph.build_populated shipping_built) rfl asked
  exact ⟨m, slot, worker, reached, asked, only _ member stage⟩

theorem shipping_downloads : Download shippingEntry "ship" shipEntry 0 namedDownload (.str "app") ∧
    Download shippingEntry "ship" shipEntry 1 unnamedDownload (.str "app") := by
  have listed : ("ship", shipEntry) ∈ shippingEntry.stages := by decide +kernel
  have stage : shipEntry.toStage "ship" = .ok (shippingPipeline.stages.get ⟨2, by decide⟩) := by decide +kernel
  exact ⟨⟨listed, rfl, ⟨_, stage, rfl⟩, by decide +kernel, by decide +kernel, by decide +kernel⟩,
    ⟨listed, rfl, ⟨_, stage, rfl⟩, by decide +kernel, by decide +kernel, by decide +kernel⟩⟩

/-- The first download names its stage and fetches from it. -/
theorem shipping_fetches :
    ∃ m slot worker, Moment.Path shippingRun.moment m ∧ .launch slot worker ∈ m.coord.requests ∧
      Download shippingEntry worker.context.job.stage shipEntry 0 namedDownload (.str "app") ∧
      worker.context.job.steps[0]? = some namedDownload ∧
      ∀ props f, f.context.inputs = worker.context.inputs → FetchesFrom props namedDownload f "build" "app" := by
  obtain ⟨m, slot, worker, reached, asked, job⟩ := shipping_launched
  have download : Download shippingEntry worker.context.job.stage shipEntry 0 namedDownload (.str "app") := by
    rw [job]
    exact shipping_downloads.1
  have rendered : worker.context.job.steps[0]? = some namedDownload := by
    rw [job]
    rfl
  refine ⟨m, slot, worker, reached, asked, download, rendered, ?_⟩
  intro props f inputs
  obtain ⟨ref, _, source, _, agree⟩ := downloads_agree shipping_reads shipping_parsed shipping_built reached asked
    download rendered props inputs
  have given : givenParam? namedDownload "stage" = some (.str "build") := by decide +kernel
  have plain : Plain namedDownload (.str "app") := by
    refine ⟨trivial, ?_⟩
    intro v found
    cases given.symm.trans found
    decide +kernel
  have fetches := (agree plain "app" (by decide +kernel)).1 (Or.inl (by decide +kernel))
  rw [given] at source
  rw [source] at fetches
  exact fetches

/-- The second download is inferred to be from the stage that signs, but misses the program that is there. -/
theorem shipping_unsettled :
    Reads shipping shippingEntry ∧ parsePipeline "shipping" shipping = .ok shippingPipeline ∧
    Validation.check carriers shippingPipeline = .ok () ∧
    RunGraph.build shippingPipeline (some pushed) = .ok shippingGraph ∧
    ∃ m slot worker, Moment.Path shippingRun.moment m ∧ .launch slot worker ∈ m.coord.requests ∧
      Download shippingEntry worker.context.job.stage shipEntry 1 unnamedDownload (.str "app") ∧
      worker.context.job.steps[1]? = some unnamedDownload ∧
      inferredRef worker.context.job.stage shipEntry.needs unnamedDownload =
        .ok (some { stage := "sign", name := "app" }) ∧
      ∀ props f, f.context.inputs = worker.context.inputs →
        ∃ lack, (Rehearsal.download props unnamedDownload f).2 = .reply (.raised (.missing lack)) := by
  refine ⟨shipping_reads, shipping_parsed, shipping_valid, shipping_built, ?_⟩
  obtain ⟨m, slot, worker, reached, asked, job⟩ := shipping_launched
  obtain ⟨_, earlier, resolved⟩ := reached.launch_resolved (RunGraph.build_populated shipping_built) rfl asked
  refine ⟨m, slot, worker, reached, asked, ?_⟩
  rw [job] at resolved ⊢
  refine ⟨shipping_downloads.2, rfl, by decide +kernel, ?_⟩
  intro props f inputs
  rw [← inputs] at resolved
  have here : shippingJob.ConsumesFrom "sign" "app" := ⟨_, List.mem_of_getElem? (i := 1) rfl, rfl, rfl⟩
  have there : shippingJob.ConsumesFrom "build" "app" := ⟨_, List.mem_of_getElem? (i := 0) rfl, rfl, rfl⟩
  have named : askedName? unnamedDownload = some "app" := by decide +kernel
  rw [download_unsettled resolved (by decide +kernel) named (by decide +kernel) here there (by decide)]
  exact ⟨_, rfl⟩

end Engine
end Conveyor
