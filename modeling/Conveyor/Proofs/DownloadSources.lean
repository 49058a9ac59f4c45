import Conveyor.Proofs.InputSelection
import Conveyor.Proofs.StageOrder
import Conveyor.Rehearsal.Steps

/-! Where a download step gets its artifact from. A job that has its inputs has something of every artifact that it
consumes and nothing else, so its references settle which stage a step asks, and whether the step finds anything there. -/

namespace Conveyor

def Job.ConsumesFrom (job : Job) (stage name : String) : Prop := ∃ r ∈ job.consumes, r.stage = stage ∧ r.name = name

section

variable {σ : Type} [ArtifactStore σ] {store : σ} {producers : String → List JobRecord} {job : Job} {inputs : Inputs}
  {stage name : String}

theorem Inputs.resolve_offers (resolved : Inputs.resolve store producers job.consumes = .ok inputs) :
    (∃ entry ∈ inputs, entry.1.producer.stage = stage ∧ entry.1.name = name) ↔ job.ConsumesFrom stage name := by
  obtain ⟨met, rfl⟩ := resolve_ok.1 resolved
  have piece {r : ArtifactRef} {entry : ArtifactKey × Blob} (supplied : entry ∈ r.supplied store producers) :
      entry.1.producer.stage = r.stage ∧ entry.1.name = r.name := by
    obtain ⟨q, _, stored⟩ := List.mem_filterMap.1 supplied
    obtain ⟨blob, _, rfl⟩ := Option.map_eq_some_iff.1 stored
    exact ⟨rfl, rfl⟩
  constructor
  · rintro ⟨entry, member, rfl, rfl⟩
    obtain ⟨r, listed, supplied⟩ := List.mem_flatMap.1 (Table.mem_ofPairs (Table.exact _) member)
    obtain ⟨source, named⟩ := piece supplied
    exact ⟨r, listed, source.symm, named.symm⟩
  · rintro ⟨r, listed, rfl, rfl⟩
    obtain ⟨entry, supplied⟩ := List.exists_mem_of_ne_nil _ (met r listed).some
    have key : entry.1 ∈ Table.keys (job.consumes.flatMap fun r => r.supplied store producers) :=
      List.mem_map_of_mem (List.mem_flatMap.2 ⟨r, listed, supplied⟩)
    rw [← Table.mem_keys_ofPairs (Table.exact _), Table.mem_keys_iff] at key
    obtain ⟨blob, member⟩ := key
    obtain ⟨source, named⟩ := piece supplied
    exact ⟨(entry.1, blob), member, source, named⟩

theorem Inputs.those_ne_nil (resolved : Inputs.resolve store producers job.consumes = .ok inputs) :
    inputs.those stage name (fun _ => true) ≠ [] ↔ job.ConsumesFrom stage name := by
  rw [← Inputs.resolve_offers resolved]
  constructor
  · intro some
    obtain ⟨_, found⟩ := List.exists_mem_of_ne_nil _ some
    obtain ⟨entry, kept, _⟩ := List.mem_map.1 found
    exact ⟨entry, Inputs.mem_named.1 (List.mem_of_mem_filter kept)⟩
  · rintro ⟨⟨⟨⟨_, qualifier⟩, _⟩, blob⟩, member, rfl, rfl⟩
    exact List.ne_nil_of_mem ((Inputs.mem_those member).2 rfl)

end

namespace JobContext

/-- How a fetch without a filter ends: nothing of the stage and name is among the inputs, or one blob, or several. -/
inductive Fetched (stage name : String) : Table String Blob → Except StepFault Blob → Prop
  | nothing (reason : String) : Fetched stage name [] (.error (.missing { stage, name, reason }))
  | single (qualifier : String) (blob : Blob) : Fetched stage name [(qualifier, blob)] (.ok blob)
  | several {found : Table String Blob} (some : found ≠ []) (qualifiers : List String) :
      Fetched stage name found (.error (.ambiguous { stage, name, qualifiers }))

variable {c : JobContext} {stage other name : String}

theorem fetch_cases (distinct : c.inputs.keys.Nodup) (stage name : String) :
    Fetched stage name (c.inputs.those stage name fun _ => true) (c.fetch stage name []) := by
  rw [fetch, fetchAll, Inputs.select_unfiltered distinct]
  rcases c.inputs.those stage name fun _ => true with _ | ⟨⟨qualifier, blob⟩, _ | ⟨second, rest⟩⟩
  · exact .nothing _
  · exact .single qualifier blob
  · exact .several (List.cons_ne_nil _ _) _

theorem fetch_missing_iff (distinct : c.inputs.keys.Nodup) :
    (∃ lack, c.fetch stage name [] = .error (.missing lack)) ↔ c.inputs.those stage name (fun _ => true) = [] := by
  have cases := fetch_cases distinct stage name
  generalize c.inputs.those stage name (fun _ => true) = found at cases
  generalize c.fetch stage name [] = result at cases
  cases cases with
  | nothing reason => exact iff_of_true ⟨_, rfl⟩ rfl
  | single => exact iff_of_false (fun ⟨_, found⟩ => by cases found) (List.cons_ne_nil _ _)
  | several some => exact iff_of_false (fun ⟨_, found⟩ => by cases found) some

theorem fetch_stage (distinct : c.inputs.keys.Nodup)
    (same : (c.fetch stage name []).map (Prod.mk stage) = (c.fetch other name []).map (Prod.mk other)) :
    stage = other := by
  have here := fetch_cases distinct stage name
  have there := fetch_cases distinct other name
  generalize c.inputs.those stage name (fun _ => true) = found at here
  generalize c.inputs.those other name (fun _ => true) = found' at there
  generalize c.fetch stage name [] = first at here same
  generalize c.fetch other name [] = second at there same
  cases here <;> cases there <;> cases same <;> rfl

end JobContext

namespace Rehearsal

open Fallible

/-- The name that a step asks for; none if it is empty or cannot be written. -/
def askedName? (step : Step) : Option String := (param? step "name").bind fun v => v.written.toOption

/-- The fault of a step that leaves it open which of several stages it asks. -/
def unsettled (stages : List String) (name : String) : StepFault :=
  .missing { stage := "*", name, reason := "provided by several stages " ++ Text.quotedList stages ++ "; set 'stage'" }

/-- A download step asks a stage for an artifact, and the artifact is among the inputs. -/
structure FetchesFrom (props : Props) (step : Step) (f : Floor) (stage name : String) : Prop where
  named : askedName? step = some name
  fetches : fetched step f.context name = (f.context.fetch stage name []).map (Prod.mk stage)
  found : ∀ lack, (download props step f).2 ≠ .reply (.raised (.missing lack))

/-- What a download step asks for is settled by its parameters and the references of its job: an artifact that the job
consumes from the stage. If the step does not name the stage, the job consumes the artifact from no other one. -/
structure Settled (job : Job) (step : Step) (stage name : String) : Prop where
  named : askedName? step = some name
  consumed : job.ConsumesFrom stage name
  chosen : ∀ v, param? step "stage" = some v → v.written = .ok stage
  only : param? step "stage" = none → ∀ other, job.ConsumesFrom other name → other = stage

variable {σ : Type} [ArtifactStore σ] {store : σ} {producers : String → List JobRecord} {job : Job} {props : Props}
  {step : Step} {f : Floor} {stage name : String}

/-- The stages whose artifacts of a name are among the inputs, in order. -/
def providers (inputs : Inputs) (name : String) : List String :=
  Text.sortedSet ((inputs.filter fun entry => entry.1.name = name).map fun entry => entry.1.producer.stage)

theorem mem_providers {inputs : Inputs} (resolved : Inputs.resolve store producers job.consumes = .ok inputs) :
    stage ∈ providers inputs name ↔ job.ConsumesFrom stage name := by
  rw [← Inputs.resolve_offers resolved, providers, Text.sortedSet, Text.sorted, List.mem_mergeSort, List.mem_eraseDups,
    List.mem_map]
  apply exists_congr
  intro entry
  rw [List.mem_filter, decide_eq_true_iff, and_assoc]
  exact and_congr_right fun _ => and_comm

theorem nodup_providers (inputs : Inputs) (name : String) : (providers inputs name).Nodup :=
  (List.mergeSort_perm _ _).nodup_iff.2 (Graph.nodup_eraseDups _)

theorem providers_single {inputs : Inputs} (resolved : Inputs.resolve store producers job.consumes = .ok inputs) :
    providers inputs name = [stage] ↔
      job.ConsumesFrom stage name ∧ ∀ other, job.ConsumesFrom other name → other = stage := by
  simp only [← mem_providers resolved]
  constructor
  · intro single
    rw [single]
    exact ⟨List.mem_singleton_self _, fun _ => List.mem_singleton.1⟩
  · rintro ⟨member, only⟩
    rw [← List.perm_singleton, List.perm_ext_iff_of_nodup (nodup_providers _ _) (List.nodup_singleton _)]
    intro other
    rw [List.mem_singleton]
    exact ⟨only other, fun same => same ▸ member⟩

theorem providingStage_eq (inputs : Inputs) (name : String) :
    providingStage inputs name = match providers inputs name with
      | [stage] => .ok stage
      | [] => .error (.missing { stage := "*", name, reason := "no consumed stage provides it" })
      | stages => .error (unsettled stages name) := rfl

/-- A step that does not name a stage asks the only one that provides the artifact; else it misses the artifact. -/
theorem providingStage_cases (inputs : Inputs) (name : String) :
    (∃ stage, providers inputs name = [stage] ∧ providingStage inputs name = .ok stage) ∨
      (providers inputs name = [] ∧ ∃ lack, providingStage inputs name = .error (.missing lack)) ∨
      (1 < (providers inputs name).length ∧
        providingStage inputs name = .error (unsettled (providers inputs name) name)) := by
  rw [providingStage_eq]
  rcases providers inputs name with _ | ⟨stage, _ | ⟨other, rest⟩⟩
  · exact Or.inr (Or.inl ⟨rfl, _, rfl⟩)
  · exact Or.inl ⟨stage, rfl, rfl⟩
  · exact Or.inr (Or.inr ⟨by simp, rfl⟩)

theorem fetched_eq (unfiltered : param? step "matrix" = none) (c : JobContext) (name : String) :
    fetched step c name = (match param? step "stage" with
      | some v => textOf v
      | none => providingStage c.inputs name) >>= fun stage => (c.fetch stage name []).map (Prod.mk stage) := by
  have rest (stage : String) : (do
      let filter ← filterParam c.inputs stage name (param? step "matrix")
      return (stage, ← c.fetch stage name filter)) = (c.fetch stage name []).map (Prod.mk stage) := by
    rw [unfiltered]
    change (c.fetch stage name [] >>= fun blob => pure (stage, blob)) = _
    cases c.fetch stage name [] <;> rfl
  unfold fetched
  simp only [rest]
  cases param? step "stage" <;> rfl

theorem askedName?_eq : askedName? step = some name ↔ ∃ v, param? step "name" = some v ∧ v.written = .ok name := by
  rw [askedName?, Option.bind_eq_some_iff]
  refine exists_congr fun v => and_congr_right fun _ => ?_
  cases v.written <;> simp [Except.toOption]

theorem textOf_written {v : Value} (written : v.written = .ok name) : textOf v = .ok name := by
  rw [textOf, written]
  rfl

theorem textOf_unmissing {v : Value} {lack : MissingArtifact} : textOf v ≠ .error (.missing lack) := by
  rw [textOf, Value.written_eq]
  split <;> nofun

theorem destination_unmissing {lack : MissingArtifact} : destination props step name ≠ .error (.missing lack) := by
  have given (key other : String) : paramText step key other ≠ .error (.missing lack) := by
    unfold paramText
    split
    · nofun
    · exact textOf_unmissing
  intro failed
  rcases bind_error.1 failed with file | ⟨_, _, rest⟩
  · exact given _ _ file
  · rcases bind_error.1 rest with path | ⟨_, _, done⟩
    · exact given _ _ path
    · cases done

theorem download_named (named : askedName? step = some name) :
    download props step f = match fetched step f.context name with
      | .error fault => f.raise fault
      | .ok (stage, blob) => deliver props step stage name blob f := by
  obtain ⟨v, given, written⟩ := askedName?_eq.1 named
  unfold download
  rw [given]
  dsimp only
  rw [textOf_written written]
  simp only [bind, Except.bind]
  cases fetched step f.context name <;> rfl

theorem download_missing_iff (named : askedName? step = some name) {lack : MissingArtifact} :
    (download props step f).2 = .reply (.raised (.missing lack)) ↔
      fetched step f.context name = .error (.missing lack) := by
  rw [download_named named]
  cases fetched step f.context name with
  | error fault => simp [Floor.raise]
  | ok pair =>
    obtain ⟨stage, blob⟩ := pair
    refine iff_of_false ?_ nofun
    dsimp only [deliver]
    cases placed : destination props step name with
    | error fault =>
      rintro ⟨⟩
      exact destination_unmissing placed
    | ok path =>
      dsimp only
      cases f.scene.workspace.save path blob with
      | error fault => simp [Floor.raise]
      | ok w => simp [Floor.reply]

/-- A download step of a job that has its inputs fetches from a stage exactly if this is settled. -/
theorem fetchesFrom_iff (resolved : Inputs.resolve store producers job.consumes = .ok f.context.inputs)
    (unfiltered : param? step "matrix" = none) :
    FetchesFrom props step f stage name ↔ Settled job step stage name := by
  have distinct := Inputs.resolve_nodup resolved
  have fetch_missing {other : String} : (∃ lack, f.context.fetch other name [] = .error (.missing lack)) ↔
      ¬ job.ConsumesFrom other name := by
    rw [JobContext.fetch_missing_iff distinct, ← Inputs.those_ne_nil resolved, ne_eq, not_not]
  constructor
  · rintro ⟨named, fetches, found⟩
    -- A fetch that misses nothing is a fetch from a consumed stage, the one that the answer shows.
    have asked {other : String} (same : fetched step f.context name = (f.context.fetch other name []).map (Prod.mk other)) :
        other = stage ∧ job.ConsumesFrom other name := by
      refine ⟨JobContext.fetch_stage distinct (same.symm.trans fetches), ?_⟩
      by_contra unconsumed
      obtain ⟨lack, missing⟩ := fetch_missing.2 unconsumed
      rw [missing] at same
      exact found lack ((download_missing_iff named).2 same)
    rw [fetched_eq unfiltered] at asked fetches
    have missing : ∀ lack, fetched step f.context name ≠ .error (.missing lack) :=
      fun lack fault => found lack ((download_missing_iff named).2 fault)
    rw [fetched_eq unfiltered] at missing
    cases given : param? step "stage" with
    | some v =>
      rw [given] at asked fetches
      dsimp only at asked fetches
      cases written : v.written with
      | error fault =>
        -- A fetch without a filter never has to write a value.
        have cases := JobContext.fetch_cases distinct stage name
        rw [textOf, written] at fetches
        generalize f.context.inputs.those stage name (fun _ => true) = found at cases
        generalize f.context.fetch stage name [] = result at cases fetches
        cases cases <;> cases fetches
      | ok other =>
        rw [textOf_written written] at asked
        obtain ⟨rfl, consumed⟩ := @asked other rfl
        refine ⟨named, consumed, ?_, ?_⟩
        · intro v again
          cases given.symm.trans again
          exact written
        · intro none
          cases given.symm.trans none
    | none =>
      rw [given] at asked missing
      rcases providingStage_cases f.context.inputs name with ⟨other, single, provided⟩ | ⟨_, lack, fault⟩ | ⟨_, fault⟩
      · obtain ⟨rfl, consumed⟩ := @asked other (by rw [provided]; rfl)
        refine ⟨named, consumed, ?_, fun _ => ((providers_single resolved).1 single).2⟩
        intro v again
        cases given.symm.trans again
      · exact (missing lack (by rw [fault]; rfl)).elim
      · exact (missing _ (by rw [fault]; rfl)).elim
  · rintro ⟨named, consumed, chosen, only⟩
    have fetches : fetched step f.context name = (f.context.fetch stage name []).map (Prod.mk stage) := by
      rw [fetched_eq unfiltered]
      cases given : param? step "stage" with
      | some v =>
        dsimp only
        rw [textOf_written (chosen v given)]
        rfl
      | none =>
        dsimp only
        rw [providingStage_eq, (providers_single resolved).2 ⟨consumed, only given⟩]
        rfl
    refine ⟨named, fetches, ?_⟩
    intro lack
    rw [ne_eq, download_missing_iff named, fetches]
    intro missing
    refine fetch_missing.1 ?_ consumed
    cases fetch : f.context.fetch stage name [] with
    | error fault =>
      rw [fetch] at missing
      cases missing
      exact ⟨lack, rfl⟩
    | ok blob =>
      rw [fetch] at missing
      cases missing

/-- A step that names no stage misses an artifact that its job consumes from several. -/
theorem download_unsettled (resolved : Inputs.resolve store producers job.consumes = .ok f.context.inputs)
    (unfiltered : param? step "matrix" = none) (named : askedName? step = some name)
    (unnamed : param? step "stage" = none) {other : String} (here : job.ConsumesFrom stage name)
    (there : job.ConsumesFrom other name) (different : other ≠ stage) :
    download props step f = f.raise (unsettled (providers f.context.inputs name) name) := by
  have fault : fetched step f.context name = .error (unsettled (providers f.context.inputs name) name) := by
    rw [fetched_eq unfiltered, unnamed]
    dsimp only
    rw [← mem_providers resolved] at here there
    rcases providingStage_cases f.context.inputs name with ⟨only, single, _⟩ | ⟨empty, _⟩ | ⟨_, fault⟩
    · rw [single, List.mem_singleton] at here there
      exact (different (there.trans here.symm)).elim
    · rw [empty] at here
      cases here
    · rw [fault]
      rfl
  rw [download_named named, fault]

end Rehearsal
end Conveyor
