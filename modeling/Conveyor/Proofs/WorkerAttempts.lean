import Conveyor.Executor.Registry
import Conveyor.Proofs.InputResolution
import Conveyor.Proofs.WorkerReturn

/-! The attempts of a worker at the steps of its job. Whatever its executors do, and whenever it is asked to stop, a
worker attempts its steps in order and up to the first that does not do its work. The outcome that it returns says what
its attempts have come to, unless the last of them gives nothing back or interrupts the run, or there is no text for
what would be said of it. -/

namespace Conveyor

/-- An attempt at a step: the artifacts that it asked to publish, its reply, and whether the job was found asked to stop
after it. -/
structure Trial where
  step : Step
  publishes : List (String × Blob)
  reply : Reply
  asked : Bool

namespace Trial

/-- What is noted of an attempt that has come to an outcome or an error. -/
def record? (t : Trial) : Option StepResult :=
  match t.reply with
  | .outcome o => some ⟨t.step.displayName, some o.exitStatus, o.logs⟩
  | .raised fault => some ⟨t.step.displayName, none, fault.message⟩
  | .nothing | .interrupted => none

def Succeeded (t : Trial) : Prop := ∃ o, t.reply = .outcome o ∧ o.exitStatus = 0 ∧ o.cancelled = false

/-- The step has given a status other than zero, and no request to stop was seen. -/
def Failed (t : Trial) (o : StepOutcome) : Prop :=
  t.reply = .outcome o ∧ o.exitStatus ≠ 0 ∧ o.cancelled = false ∧ t.asked = false

/-- The attempts of which the worker cannot say what they have come to, and how it ends then. -/
inductive Escapes (t : Trial) : Completion → Prop
  | interrupted (gave : t.reply = .interrupted) : Escapes t .interrupted
  | nothing (gave : t.reply = .nothing) : Escapes t (.returned (.escaped "AttributeError" Worker.nothingText))
  | untold {fault : StepFault} (gave : t.reply = .raised fault) (long : fault.isUnwritable = true) :
      Escapes t (.returned .unwritable)
  | unwritten {o : StepOutcome} (failed : t.Failed o) (long : (Value.int o.exitStatus).isUnwritable = true) :
      Escapes t (.returned .unwritable)

/-- An attempt as it may be made with some executors: any, but without an executor for the step only the error that there
is none. -/
def Allowed {α : Type} (executors : Registry α) (t : Trial) : Prop :=
  executors.lookup? t.step.uses = none →
    t.publishes = [] ∧ t.reply = .raised (.unknownExecutor t.step.uses executors.known)

theorem record?_of_outcome {t : Trial} {o : StepOutcome} (gave : t.reply = .outcome o) :
    t.record? = some ⟨t.step.displayName, some o.exitStatus, o.logs⟩ := by
  rw [record?, gave]

theorem record?_of_raised {t : Trial} {fault : StepFault} (gave : t.reply = .raised fault) :
    t.record? = some ⟨t.step.displayName, none, fault.message⟩ := by
  rw [record?, gave]

theorem Succeeded.exitStatus {t : Trial} (succeeded : t.Succeeded) {result : StepResult}
    (noted : t.record? = some result) : result.exitStatus = some 0 := by
  obtain ⟨o, gave, zero, _⟩ := succeeded
  cases (record?_of_outcome gave).symm.trans noted
  rw [zero]

end Trial

namespace Outcome

def status : Outcome → Status
  | .succeeded _ _ => .succeeded
  | .cancelled _ _ => .cancelled
  | .failed _ _ _ => .failed

def cause : Outcome → Option FailureCause
  | .failed cause _ _ => some cause
  | _ => none

def artifacts : Outcome → Table String Blob
  | .succeeded _ artifacts => artifacts
  | _ => []

theorem artifacts_of_not_succeeded {outcome : Outcome} (other : outcome.status ≠ .succeeded) :
    outcome.artifacts = [] := by
  cases outcome with
  | succeeded => exact (other rfl).elim
  | cancelled => rfl
  | failed => rfl

end Outcome

namespace JobContext

/-- The surroundings after a request to publish an artifact. One that is refused changes nothing. -/
def published (c : JobContext) (artifact : String × Blob) : JobContext :=
  (c.publish artifact.1 artifact.2).toOption.getD c

theorem published_cases (c : JobContext) (artifact : String × Blob) :
    artifact.1 ∈ c.job.produces ∧ c.staged.get? artifact.1 = none ∧
        c.published artifact = { c with staged := c.staged.insert artifact.1 artifact.2 } ∨
      (artifact.1 ∉ c.job.produces ∨ c.staged.get? artifact.1 ≠ none) ∧ c.published artifact = c := by
  by_cases declared : artifact.1 ∈ c.job.produces
  · by_cases staged : c.staged.has artifact.1 = true
    · refine Or.inr ⟨Or.inr (Option.isSome_iff_ne_none.1 staged), ?_⟩
      simp [published, publish, declared, staged, Except.toOption]
    · refine Or.inl ⟨declared, by simpa [Table.has] using staged, ?_⟩
      simp [published, publish, declared, staged, Except.toOption]
  · exact Or.inr ⟨Or.inl declared, by simp [published, publish, declared, Except.toOption]⟩

def publishedAll (c : JobContext) (artifacts : List (String × Blob)) : JobContext := artifacts.foldl published c

theorem publishedAll_frame (c : JobContext) (artifacts : List (String × Blob)) :
    { c with staged := (c.publishedAll artifacts).staged } = c.publishedAll artifacts := by
  induction artifacts generalizing c with
  | nil => rfl
  | cons artifact artifacts ih =>
    refine Eq.trans ?_ (ih (c.published artifact))
    rcases c.published_cases artifact with ⟨_, _, same⟩ | ⟨_, same⟩ <;> rw [publishedAll, List.foldl_cons, same] <;> rfl

theorem publishedAll_nodup (c : JobContext) (artifacts : List (String × Blob)) (distinct : c.staged.keys.Nodup) :
    (c.publishedAll artifacts).staged.keys.Nodup := by
  induction artifacts generalizing c with
  | nil => exact distinct
  | cons artifact artifacts ih =>
    apply ih
    rcases c.published_cases artifact with ⟨_, _, same⟩ | ⟨_, same⟩
    · rw [same]
      exact Table.nodup_keys_insert (Key.exact _) distinct
    · rw [same]
      exact distinct

/-- What is staged stays, and of the other declared artifacts the first blob that was offered under their name is. -/
theorem publishedAll_get? (c : JobContext) (artifacts : List (String × Blob)) (name : String) :
    (c.publishedAll artifacts).staged.get? name =
      (c.staged.get? name).or (if name ∈ c.job.produces then Table.get? artifacts name else none) := by
  induction artifacts generalizing c with
  | nil => simp [publishedAll, Table.get?]
  | cons artifact artifacts ih =>
    refine (ih (c.published artifact)).trans ?_
    rcases c.published_cases artifact with ⟨declared, absent, same⟩ | ⟨reason, same⟩
    · rw [same, Table.get?_insert]
      by_cases here : artifact.1 = name
      · subst here
        simp [Table.get?, Key.same, declared, absent]
      · simp [Table.get?, Key.same, here]
    · rw [same]
      by_cases here : artifact.1 = name
      · subst here
        rcases reason with undeclared | staged
        · simp [undeclared]
        · obtain ⟨blob, found⟩ := Option.ne_none_iff_exists'.1 staged
          simp [found]
      · simp [Table.get?, Key.same, here]

end JobContext

/-- What a worker meets: the executors, what each of them does with a step in its surroundings, which may differ from
attempt to attempt, and whether the job is found asked to stop before and after every attempt. -/
structure Circumstances (α : Type) where
  executors : Registry α
  execute : α → Nat → JobContext → Step → List (String × Blob) × Reply
  before : Nat → Bool
  after : Nat → Bool

/-- The attempt of a number at a step. Without an executor it is an error. -/
def Circumstances.attempt {α : Type} (meets : Circumstances α) (k : Nat) (c : JobContext) (step : Step) : Trial :=
  match meets.executors.get step.uses with
  | .error fault => { step, publishes := [], reply := .raised fault, asked := meets.after k }
  | .ok executor =>
    { step
      publishes := (meets.execute executor k c step).1
      reply := (meets.execute executor k c step).2
      asked := meets.after k }

theorem Circumstances.attempt_spec {α : Type} (meets : Circumstances α) (k : Nat) (c : JobContext) (step : Step) :
    (meets.attempt k c step).step = step ∧ (meets.attempt k c step).asked = meets.after k ∧
      (meets.attempt k c step).Allowed meets.executors := by
  unfold attempt Registry.get Trial.Allowed
  cases found : meets.executors.lookup? step.uses <;> simp [found]

namespace Worker

/-- What a trial makes of a worker. -/
def tried (w : Worker) (t : Trial) : Except Completion Worker :=
  w.receive t.step (w.context.publishedAll t.publishes).staged t.reply t.asked

def after (w : Worker) (t : Trial) : Worker :=
  { context := w.context.publishedAll t.publishes
    remaining := w.remaining.tail
    results := w.results ++ t.record?.toList }

theorem turn_attempt {w : Worker} {token : Bool} {step : Step} (next : w.turn token = .attempt step) :
    token = false ∧ Value.anyEntryUnwritable w.context.job.assignment = false ∧ ∃ rest, w.remaining = step :: rest := by
  unfold turn at next
  split at next
  next => cases next
  next first rest left =>
    split at next
    next => cases next
    next unset =>
      split at next
      next => cases next
      next named =>
        cases next
        exact ⟨by simpa using unset, by simpa using named, rest, left⟩

/-- Why a worker comes to its end without another attempt. -/
inductive Finished (w : Worker) (token : Bool) : Outcome → Prop
  | concluded (done : w.remaining = []) : Finished w token w.conclude
  | forestalled {step : Step} {rest : List Step} (left : w.remaining = step :: rest) (set : token = true) :
      Finished w token (.cancelled ("cancelled before step '" ++ step.displayName ++ "'") w.results)
  | unnamed (long : Value.anyEntryUnwritable w.context.job.assignment = true) : Finished w token .unwritable

theorem turn_finish {w : Worker} {token : Bool} {completion : Completion} (done : w.turn token = .finish completion) :
    ∃ outcome, completion = .returned outcome ∧ w.Finished token outcome := by
  unfold turn at done
  split at done
  next left =>
    cases done
    exact ⟨_, rfl, .concluded left⟩
  next step rest left =>
    split at done
    next set =>
      cases done
      exact ⟨_, rfl, .forestalled left set⟩
    next =>
      split at done
      next long =>
        cases done
        exact ⟨_, rfl, .unnamed long⟩
      next => cases done

/-- How a worker takes in a trial. -/
inductive Received (w : Worker) (t : Trial) : Except Completion Worker → Prop
  | escaped {completion : Completion} (escapes : t.Escapes completion) : Received w t (.error completion)
  | raised {fault : StepFault} (gave : t.reply = .raised fault) :
      Received w t (.error (.returned (w.raised t.step fault)))
  | cancelled {o : StepOutcome} (gave : t.reply = .outcome o)
      (reason : o.cancelled = true ∨ t.asked = true ∧ o.exitStatus ≠ 0) :
      Received w t (.error (.returned
        (.cancelled ("cancelled during step '" ++ t.step.displayName ++ "'") (w.results ++ t.record?.toList))))
  | failed {o : StepOutcome} (failed : t.Failed o) :
      Received w t (.error (.returned (.failed .stepFailed
        (stepFailure w.context.job.id t.step.displayName (some o.exitStatus)) (w.results ++ t.record?.toList))))
  | worked (done : t.Succeeded) : Received w t (.ok (w.after t))

theorem received (w : Worker) (t : Trial) : Received w t (w.tried t) := by
  unfold tried
  cases gave : t.reply with
  | interrupted => exact .escaped (.interrupted gave)
  | nothing => exact .escaped (.nothing gave)
  | raised fault =>
    rw [receive]
    split
    next long => exact .escaped (.untold gave long)
    next => exact .raised gave
  | outcome o =>
    have noted : w.results ++ [⟨t.step.displayName, some o.exitStatus, o.logs⟩] = w.results ++ t.record?.toList := by
      rw [Trial.record?_of_outcome gave]
      rfl
    simp only [receive, noted]
    split
    next reason =>
      refine .cancelled gave ?_
      rw [Bool.or_eq_true, Bool.and_eq_true] at reason
      by_cases cancelled : o.cancelled = true
      · exact Or.inl cancelled
      · refine Or.inr ⟨(reason.resolve_left cancelled).1, ?_⟩
        simpa [StepOutcome.ok, cancelled] using (reason.resolve_left cancelled).2
    next unmoved =>
      simp only [Bool.or_eq_true, Bool.and_eq_true, not_or, Bool.not_eq_true] at unmoved
      obtain ⟨uncancelled, calm⟩ := unmoved
      split
      next bad =>
        have nonzero : o.exitStatus ≠ 0 := by simpa [StepOutcome.ok, uncancelled] using bad
        have failed : t.Failed o := ⟨gave, nonzero, uncancelled, by simpa [bad] using calm⟩
        split
        next long => exact .escaped (.unwritten failed long)
        next => exact .failed failed
      next good =>
        have done : t.Succeeded := ⟨o, gave, by simpa [StepOutcome.ok, uncancelled] using good, uncancelled⟩
        rw [w.context.publishedAll_frame]
        exact .worked done

theorem tried_ok {w w' : Worker} {t : Trial} (went : w.tried t = .ok w') : t.Succeeded ∧ w' = w.after t := by
  have received := w.received t
  rw [went] at received
  cases received with
  | worked done => exact ⟨done, rfl⟩

section

variable {α : Type}

/-- Lets a worker attempt its steps from some number on until it ends, and gives all its attempts. -/
def attempts (meets : Circumstances α) (k : Nat) (w : Worker) : List Trial × Completion :=
  match _ : w.turn (meets.before k) with
  | .finish completion => ([], completion)
  | .attempt step =>
    match done : w.tried (meets.attempt k w.context step) with
    | .error completion => ([meets.attempt k w.context step], completion)
    | .ok w' => (meets.attempt k w.context step :: (attempts meets (k + 1) w').1, (attempts meets (k + 1) w').2)
termination_by w.remaining.length
decreasing_by
  all_goals
    obtain ⟨_, rfl⟩ := tried_ok done
    obtain ⟨_, _, rest, left⟩ := turn_attempt ‹w.turn _ = .attempt step›
    simp [after, left]

variable {executors : Registry α} {w₀ w : Worker} {trials : List Trial}

/-- The way of a worker through attempts that have all done their work. Each was made when the job was not found asked to
stop. -/
inductive Way (executors : Registry α) (w₀ : Worker) : List Trial → Worker → Prop
  | here : Way executors w₀ [] w₀
  | next {trials : List Trial} {w w' : Worker} {t : Trial} (way : Way executors w₀ trials w)
      (turn : w.turn false = .attempt t.step) (allowed : t.Allowed executors) (went : w.tried t = .ok w') :
      Way executors w₀ (trials ++ [t]) w'

/-- How a worker comes to its end: there is no other attempt, or the last one ends it. The token is what is found before
the attempt that is not made. -/
inductive Course (executors : Registry α) (w₀ : Worker) : List Trial → Bool → Completion → Prop
  | finishes {trials : List Trial} {w : Worker} {token : Bool} {completion : Completion}
      (way : Way executors w₀ trials w) (done : w.turn token = .finish completion) :
      Course executors w₀ trials token completion
  | stops {trials : List Trial} {w : Worker} {t : Trial} {token : Bool} {completion : Completion}
      (way : Way executors w₀ trials w) (turn : w.turn false = .attempt t.step) (allowed : t.Allowed executors)
      (done : w.tried t = .error completion) : Course executors w₀ (trials ++ [t]) token completion

theorem attempts_course {meets : Circumstances α} {k : Nat} (way : Way meets.executors w₀ trials w)
    (place : k = trials.length) :
    Course meets.executors w₀ (trials ++ (w.attempts meets k).1) (meets.before (k + (w.attempts meets k).1.length))
      (w.attempts meets k).2 := by
  fun_induction attempts meets k w generalizing trials with
  | case1 k w completion finished =>
    rw [List.append_nil]
    exact .finishes way finished
  | case2 k w step next completion done =>
    obtain ⟨same, _, allowed⟩ := meets.attempt_spec k w.context step
    rw [(turn_attempt next).1, ← same] at next
    exact .stops way next allowed done
  | case3 k w step next w' done ih =>
    obtain ⟨same, _, allowed⟩ := meets.attempt_spec k w.context step
    rw [(turn_attempt next).1, ← same] at next
    have rest := ih (way.next next allowed done) (by rw [List.length_append, place, List.length_singleton])
    rwa [List.append_assoc, Nat.add_assoc, Nat.add_comm 1] at rest

theorem attempts_asked (meets : Circumstances α) (k : Nat) (w : Worker) {j : Nat} {t : Trial}
    (found : (w.attempts meets k).1[j]? = some t) : t.asked = meets.after (k + j) := by
  fun_induction attempts meets k w generalizing j with
  | case1 => cases found
  | case2 k w step next completion done =>
    obtain ⟨rfl, rfl⟩ : j = 0 ∧ meets.attempt k w.context step = t := by simpa [List.getElem?_singleton] using found
    exact (meets.attempt_spec k w.context step).2.1
  | case3 k w step next w' done ih =>
    cases j with
    | zero =>
      obtain rfl : meets.attempt k w.context step = t := Option.some.inj found
      exact (meets.attempt_spec k w.context step).2.1
    | succ j => rw [ih found, Nat.add_assoc, Nat.add_comm 1]

namespace Way

variable (way : Way executors w₀ trials w)

include way

theorem allowed : ∀ t ∈ trials, t.Allowed executors := by
  induction way with
  | here => exact List.forall_mem_nil _
  | next _ _ allowed _ ih => exact List.forall_mem_append.2 ⟨ih, List.forall_mem_singleton.2 allowed⟩

theorem worked : ∀ t ∈ trials, t.Succeeded := by
  induction way with
  | here => exact List.forall_mem_nil _
  | next _ _ _ went ih => exact List.forall_mem_append.2 ⟨ih, List.forall_mem_singleton.2 (tried_ok went).1⟩

theorem steps : w₀.remaining = trials.map Trial.step ++ w.remaining := by
  induction way with
  | here => rfl
  | next _ turn _ went ih =>
    obtain ⟨_, rfl⟩ := tried_ok went
    obtain ⟨_, _, rest, left⟩ := turn_attempt turn
    rw [ih, left]
    simp [after, left]

theorem results : w.results.map some = w₀.results.map some ++ trials.map Trial.record? := by
  induction way with
  | here => rw [List.map_nil, List.append_nil]
  | @next _ w _ t _ _ _ went ih =>
    obtain ⟨⟨o, gave, _⟩, rfl⟩ := tried_ok went
    rw [after, List.map_append, ih, List.append_assoc, List.map_append, Trial.record?_of_outcome gave]
    simp [Trial.record?_of_outcome gave]

theorem context : w.context = w₀.context.publishedAll (trials.flatMap Trial.publishes) := by
  induction way with
  | here => rfl
  | next _ _ _ went ih =>
    obtain ⟨_, rfl⟩ := tried_ok went
    rw [after, ih, List.flatMap_append, List.flatMap_singleton]
    exact (List.foldl_append ..).symm

theorem job : w.context.job = w₀.context.job := by
  rw [way.context, ← JobContext.publishedAll_frame]

theorem named (some : trials ≠ []) : Value.anyEntryUnwritable w₀.context.job.assignment = false := by
  cases way with
  | here => exact (some rfl).elim
  | next way turn => exact way.job ▸ (turn_attempt turn).2.1

end Way

/-- Attempts at the first steps of a job, of which all but the last have done their work. -/
structure Sequential (executors : Registry α) (job : Job) (trials : List Trial) : Prop where
  attempted : trials.map Trial.step <+: job.steps
  worked : ∀ t ∈ trials.dropLast, t.Succeeded
  allowed : ∀ t ∈ trials, t.Allowed executors

/-- What an outcome says of the attempts at the steps of a job, and of a token that was found before the next one. -/
structure Reflects (job : Job) (trials : List Trial) (token : Bool) (outcome : Outcome) : Prop where
  recorded : trials.map Trial.record? = outcome.steps.map some
  worked : ∀ result ∈ outcome.steps.dropLast, result.exitStatus = some 0
  succeeded : outcome.status = .succeeded ↔ trials.map Trial.step = job.steps ∧ (∀ t ∈ trials, t.Succeeded) ∧
    ∀ name ∈ job.produces, ∃ blob, (name, blob) ∈ trials.flatMap Trial.publishes
  carried : outcome.status = .succeeded → outcome.artifacts.keys.Nodup ∧ ∀ name, outcome.artifacts.get? name =
    if name ∈ job.produces then Table.get? (trials.flatMap Trial.publishes) name else none
  bare : outcome.status ≠ .succeeded → outcome.artifacts = []
  failed : outcome.cause = some .stepFailed ↔ ∃ t o, trials.getLast? = some t ∧ t.Failed o
  cancelled : outcome.status = .cancelled → token = true ∨ ∃ t, trials.getLast? = some t ∧
    (t.asked = true ∨ ∃ o, t.reply = .outcome o ∧ o.cancelled = true)
  raised : ∀ t ∈ trials, ∀ fault, t.reply = .raised fault → outcome.status = .failed ∧
    outcome.cause = some (if fault.isMissing then .missingArtifact else .executorError)

/-- The ends that say nothing of the attempts: the last attempt is one of which nothing can be said, or the job has an
assignment without text, so that there is no attempt. -/
inductive Escapes (job : Job) (trials : List Trial) : Completion → Prop
  | attempt {t : Trial} {completion : Completion} (last : trials.getLast? = some t) (escapes : t.Escapes completion) :
      Escapes job trials completion
  | unnamed (none : trials = []) (long : Value.anyEntryUnwritable job.assignment = true) :
      Escapes job trials (.returned .unwritable)

/-- Either the outcome reflects the attempts, or it is known why it cannot. -/
def Accounts (executors : Registry α) (job : Job) (trials : List Trial) (token : Bool) (completion : Completion) : Prop :=
  Sequential executors job trials ∧
    ((∃ outcome, completion = .returned outcome ∧ Reflects job trials token outcome) ∨ Escapes job trials completion)

theorem raised_spec (w : Worker) (step : Step) (fault : StepFault) :
    (w.raised step fault).steps = w.results ++ [⟨step.displayName, none, fault.message⟩] ∧
      (w.raised step fault).status = .failed ∧
      (w.raised step fault).cause = some (if fault.isMissing then .missingArtifact else .executorError) := by
  unfold Worker.raised
  dsimp only
  split <;> exact ⟨rfl, rfl, rfl⟩

/-- After all steps a job has succeeded exactly if all that it declares is staged; it cannot be said otherwise of an
assignment without text. -/
theorem conclude_spec (w : Worker) :
    w.conclude = .unwritable ∧ Value.anyEntryUnwritable w.context.job.assignment = true ∨ w.conclude.steps = w.results ∧
      (w.conclude.status = .succeeded ↔ ∀ name ∈ w.context.job.produces, w.context.staged.get? name ≠ none) ∧
      (w.conclude.status = .succeeded → w.conclude.artifacts = w.context.staged) ∧
      w.conclude.status ≠ .cancelled ∧ w.conclude.cause ≠ some .stepFailed := by
  unfold conclude
  dsimp only
  split
  next name missing =>
    have declared := List.mem_of_find?_eq_some missing
    have absent : w.context.staged.get? name = none := by simpa [Table.has] using List.find?_some missing
    split
    next long => exact Or.inl ⟨rfl, Value.anyEntryUnwritable_ofPairs long⟩
    refine Or.inr ⟨rfl, ?_, by simp [Outcome.status], by simp [Outcome.status], by simp [Outcome.cause]⟩
    simp only [Outcome.status, reduceCtorEq, false_iff, not_forall]
    exact ⟨name, declared, by simpa using absent⟩
  next complete =>
    refine Or.inr ⟨rfl, ?_, fun _ => rfl, by simp [Outcome.status], by simp [Outcome.cause]⟩
    simp only [Outcome.status, true_iff]
    intro name declared
    simpa [Table.has] using List.find?_eq_none.1 complete name declared

section

variable {job : Job} {run : Context} {inputs : Inputs} (way : Way executors (start job run inputs) trials w)

include way

theorem Way.sequential : Sequential executors job trials := by
  refine ⟨?_, fun t member => way.worked t (List.dropLast_subset _ member), way.allowed⟩
  have steps : job.steps = _ := way.steps
  rw [steps]
  exact List.prefix_append ..

theorem Way.recorded : trials.map Trial.record? = w.results.map some := way.results.symm

theorem Way.gathered (name : String) : w.context.staged.get? name =
    if name ∈ job.produces then Table.get? (trials.flatMap Trial.publishes) name else none := by
  rw [way.context, JobContext.publishedAll_get?]
  rfl

theorem Way.statuses : ∀ result ∈ w.results, result.exitStatus = some 0 := by
  intro result member
  have noted : some result ∈ trials.map Trial.record? := way.recorded ▸ List.mem_map_of_mem member
  obtain ⟨t, listed, noted⟩ := List.mem_map.1 noted
  exact (way.worked t listed).exitStatus noted

theorem Way.unraised {t : Trial} (listed : t ∈ trials) {fault : StepFault} : t.reply ≠ .raised fault := by
  obtain ⟨o, gave, _⟩ := way.worked t listed
  rw [gave]
  exact nofun

theorem Way.unfailed {t : Trial} {o : StepOutcome} (listed : t ∈ trials) : ¬ t.Failed o := by
  rintro ⟨gave, nonzero, _⟩
  obtain ⟨o', again, zero, _⟩ := way.worked t listed
  cases again.symm.trans gave
  exact nonzero zero

theorem Way.concluded (done : w.remaining = []) (token : Bool) :
    w.conclude = .unwritable ∧ Value.anyEntryUnwritable job.assignment = true ∨ Reflects job trials token w.conclude := by
  have same : w.context.job = job := way.job
  have spec := w.conclude_spec
  rw [same] at spec
  refine spec.imp_right fun ⟨steps, succeeded, carried, uncancelled, unfailed⟩ => ?_
  constructor
  case recorded => rw [steps, way.recorded]
  case worked =>
    rw [steps]
    exact fun result member => way.statuses result (List.dropLast_subset _ member)
  case succeeded =>
    have all : trials.map Trial.step = job.steps := by
      have steps : job.steps = _ := way.steps
      rw [steps, done, List.append_nil]
    rw [succeeded, and_iff_right all, and_iff_right way.worked]
    refine forall₂_congr fun name declared => ?_
    rw [way.gathered, if_pos declared, ← Option.isSome_iff_ne_none]
    exact (Table.has_iff (Key.exact name)).trans Table.mem_keys_iff
  case carried =>
    intro good
    rw [carried good]
    refine ⟨?_, way.gathered⟩
    rw [way.context]
    exact JobContext.publishedAll_nodup _ _ List.nodup_nil
  case bare => exact Outcome.artifacts_of_not_succeeded
  case failed =>
    refine iff_of_false unfailed ?_
    rintro ⟨t, o, last, failed⟩
    exact way.unfailed (List.mem_of_getLast? last) failed
  case cancelled => exact fun cancelled => (uncancelled cancelled).elim
  case raised => exact fun t listed fault gave => (way.unraised listed gave).elim

theorem Way.forestalled {step : Step} {rest : List Step} (left : w.remaining = step :: rest) {message : String} :
    Reflects job trials true (.cancelled message w.results) := by
  constructor
  case recorded => exact way.recorded
  case worked => exact fun result member => way.statuses result (List.dropLast_subset _ member)
  case succeeded =>
    have steps : job.steps = _ := way.steps
    rw [steps, left]
    simp [Outcome.status]
  case carried => exact nofun
  case bare => exact fun _ => rfl
  case failed =>
    refine iff_of_false nofun ?_
    rintro ⟨t, o, last, failed⟩
    exact way.unfailed (List.mem_of_getLast? last) failed
  case cancelled => exact fun _ => Or.inl rfl
  case raised => exact fun t listed fault gave => (way.unraised listed gave).elim

/-- The last attempt has ended the worker with an outcome that notes it. -/
theorem Way.stopped {t : Trial} {result : StepResult} {outcome : Outcome} (noted : t.record? = some result)
    (steps : outcome.steps = w.results ++ [result]) (unsuccessful : outcome.status ≠ .succeeded)
    (unworked : ¬ t.Succeeded) (failed : outcome.cause = some .stepFailed ↔ ∃ o, t.Failed o)
    (cancelled : outcome.status = .cancelled → t.asked = true ∨ ∃ o, t.reply = .outcome o ∧ o.cancelled = true)
    (raised : ∀ fault, t.reply = .raised fault → outcome.status = .failed ∧
      outcome.cause = some (if fault.isMissing then .missingArtifact else .executorError)) (token : Bool) :
    Reflects job (trials ++ [t]) token outcome := by
  constructor
  case recorded => simp [steps, way.recorded, noted]
  case worked =>
    rw [steps, List.dropLast_concat]
    exact way.statuses
  case succeeded => exact iff_of_false unsuccessful fun ⟨_, worked, _⟩ => unworked (worked t (by simp))
  case carried => exact fun succeeded => (unsuccessful succeeded).elim
  case bare => exact Outcome.artifacts_of_not_succeeded
  case failed => simpa using failed
  case cancelled => exact fun said => Or.inr ⟨t, List.getLast?_concat .., cancelled said⟩
  case raised =>
    intro t' listed fault gave
    rcases List.mem_append.1 listed with before | here
    · exact (way.unraised before gave).elim
    · cases List.mem_singleton.1 here
      exact raised fault gave

theorem Way.ended {t : Trial} {completion : Completion} (done : w.tried t = .error completion) (token : Bool) :
    (∃ outcome, completion = .returned outcome ∧ Reflects job (trials ++ [t]) token outcome) ∨
      Escapes job (trials ++ [t]) completion := by
  have received := w.received t
  rw [done] at received
  cases received with
  | escaped escapes => exact Or.inr (.attempt (List.getLast?_concat ..) escapes)
  | @raised fault gave =>
    obtain ⟨steps, status, cause⟩ := w.raised_spec t.step fault
    refine Or.inl ⟨_, rfl, way.stopped (Trial.record?_of_raised gave) steps ?_ ?_ ?_ ?_ ?_ token⟩
    · exact status ▸ nofun
    · rintro ⟨o, again, _⟩
      cases again.symm.trans gave
    · rw [cause]
      refine iff_of_false (by split <;> exact nofun) ?_
      rintro ⟨o, again, _⟩
      cases again.symm.trans gave
    · exact status ▸ nofun
    · intro other again
      cases again.symm.trans gave
      exact ⟨status, cause⟩
  | @cancelled o gave reason =>
    have noted := Trial.record?_of_outcome gave
    refine Or.inl ⟨_, rfl, way.stopped noted (by rw [noted]; rfl) (by simp [Outcome.status]) ?_ ?_ ?_ ?_ token⟩
    · rintro ⟨o', again, zero, uncancelled⟩
      cases again.symm.trans gave
      simp [zero, uncancelled] at reason
    · refine iff_of_false nofun ?_
      rintro ⟨o', again, _, uncancelled, unset⟩
      cases again.symm.trans gave
      simp [uncancelled, unset] at reason
    · exact fun _ => reason.symm.imp And.left fun said => ⟨o, gave, said⟩
    · exact fun fault again => by cases again.symm.trans gave
  | @failed o failed =>
    have noted := Trial.record?_of_outcome failed.1
    refine Or.inl ⟨_, rfl, way.stopped noted (by rw [noted]; rfl) (by simp [Outcome.status]) ?_ ?_
      (by simp [Outcome.status]) ?_ token⟩
    · rintro ⟨o', again, zero, _⟩
      cases again.symm.trans failed.1
      exact failed.2.1 zero
    · exact iff_of_true rfl ⟨o, failed⟩
    · exact fun fault again => by cases again.symm.trans failed.1

end

theorem Course.accounts {job : Job} {run : Context} {inputs : Inputs} {token : Bool} {completion : Completion}
    (course : Course executors (start job run inputs) trials token completion) :
    Accounts executors job trials token completion := by
  cases course with
  | finishes way done =>
    refine ⟨way.sequential, ?_⟩
    -- With an assignment that has no text nothing is attempted.
    have unattempted (long : Value.anyEntryUnwritable job.assignment = true) : trials = [] := by
      by_contra some
      cases (way.named some).symm.trans long
    obtain ⟨outcome, rfl, finished⟩ := turn_finish done
    cases finished with
    | concluded left =>
      rcases way.concluded left token with ⟨same, long⟩ | reflects
      · rw [same]
        exact Or.inr (.unnamed (unattempted long) long)
      · exact Or.inl ⟨_, rfl, reflects⟩
    | forestalled left set => exact Or.inl ⟨_, rfl, set ▸ way.forestalled left⟩
    | unnamed long =>
      have long := way.job ▸ long
      exact Or.inr (.unnamed (unattempted long) long)
  | stops way turn allowed done =>
    obtain ⟨attempted, worked, allowed'⟩ := way.sequential
    refine ⟨⟨?_, ?_, List.forall_mem_append.2 ⟨allowed', List.forall_mem_singleton.2 allowed⟩⟩, way.ended done _⟩
    · obtain ⟨_, _, rest, left⟩ := turn_attempt turn
      have steps : job.steps = _ := way.steps
      rw [steps, left, List.map_append]
      simp
    · rw [List.dropLast_concat]
      exact way.worked

/-- Whatever a worker meets, it attempts its steps in order, and the outcome that it returns reflects the attempts. The
exceptions are an attempt that interrupts the run or gives nothing back, and faults and numbers without text. -/
theorem outcome_reflects_attempts (meets : Circumstances α) (job : Job) (run : Context) (inputs : Inputs) :
    ∃ trials completion, (start job run inputs).attempts meets 0 = (trials, completion) ∧
      (∀ k t, trials[k]? = some t → t.asked = meets.after k) ∧
      Accounts meets.executors job trials (meets.before trials.length) completion := by
  have way : Way meets.executors (start job run inputs) [] (start job run inputs) := .here
  have course := attempts_course way rfl
  rw [List.nil_append, List.length_nil, Nat.zero_add] at course
  refine ⟨_, _, rfl, fun k t found => ?_, course.accounts⟩
  rw [attempts_asked meets 0 _ found, Nat.zero_add]

end

def replying (reply : Reply) : Circumstances Unit where
  executors := { fallback := some () }
  execute _ _ _ _ := ([], reply)
  before _ := false
  after _ := false

/-- An executor that gives nothing back has been attempted, and yet the outcome has no result of a step; one that
interrupts the run leaves no outcome at all. -/
theorem attempt_unrecorded :
    let w := start { stage := "build", steps := [{ uses := "make" }] } { event := .push, refName := "main" } []
    let lost : Outcome := .escaped "AttributeError" nothingText
    (w.attempts (replying .nothing) 0).1.length = 1 ∧ (w.attempts (replying .nothing) 0).2 = .returned lost ∧
      lost.steps = [] ∧ (w.attempts (replying .interrupted) 0).1.length = 1 ∧
      (w.attempts (replying .interrupted) 0).2 = .interrupted := by
  intro w lost
  rw [attempts, attempts]
  exact ⟨rfl, rfl, rfl, rfl, rfl⟩

end Worker
end Conveyor
