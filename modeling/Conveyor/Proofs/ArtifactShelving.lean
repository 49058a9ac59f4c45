import Conveyor.Proofs.WorkerConduct

/-! What a returned job leaves behind. Its artifacts are stored in the order of their names up to one whose name
comes twice, so what is stored and what is said of the job depend on the outcome alone. -/

namespace Conveyor

structure Verdict where
  status : Status
  cause : Option FailureCause := none
  skipReason : Option SkipReason := none
  message : String := ""
  steps : List StepResult := []
  artifacts : List String := []
  deriving DecidableEq, Repr

def Remark.verdict (remark : Remark) (status : Status) (steps : List StepResult) (artifacts : List String) : Verdict :=
  { status, cause := remark.cause, skipReason := remark.skipReason, message := remark.message, steps, artifacts }

namespace JobRecord

def verdict (r : JobRecord) : Verdict :=
  { status := r.status, cause := r.cause, skipReason := r.skipReason, message := r.message, steps := r.steps
    artifacts := r.artifacts }

@[simp] theorem verdict_status (r : JobRecord) : r.verdict.status = r.status := rfl

def Blank (r : JobRecord) : Prop := r.verdict = { status := r.status }

theorem Blank.moved {r : JobRecord} (blank : r.Blank) (now : Double) (next : Status) (remark : Remark) :
    (r.moved now next remark).verdict = remark.verdict next [] [] := by
  simp only [Blank, verdict, Verdict.mk.injEq] at blank
  obtain ⟨_, cause, reason, message, steps, artifacts⟩ := blank
  by_cases silent : remark.message = "" <;>
    simp [verdict, Remark.verdict, JobRecord.moved, cause, reason, message, steps, artifacts, silent]

theorem Blank.returned {r : JobRecord} (blank : r.Blank) (now : Double) (next : Status) (remark : Remark)
    (steps : List StepResult) (names : List String) :
    ({ r with steps, artifacts := r.artifacts ++ names }.moved now next remark).verdict =
      remark.verdict next steps names := by
  simp only [Blank, verdict, Verdict.mk.injEq] at blank
  obtain ⟨_, cause, reason, message, _, artifacts⟩ := blank
  by_cases silent : remark.message = "" <;>
    simp [verdict, Remark.verdict, JobRecord.moved, cause, reason, message, artifacts, silent]

end JobRecord

/-- Which of some artifacts are stored, and why the next one is not, if names are taken already. -/
def shelved (producer : Producer) : List String → List (String × Blob) → List (String × Blob) × Option StoreFault
  | _, [] => ([], none)
  | names, (name, blob) :: rest =>
    if name ∈ names then ([], some (.occupied ⟨producer, name⟩))
    else ((name, blob) :: (shelved producer (name :: names) rest).1, (shelved producer (name :: names) rest).2)

theorem shelved_fresh (producer : Producer) (names : List String) (offered : List (String × Blob)) :
    ((shelved producer names offered).1.map Prod.fst).Nodup ∧
      ∀ name ∈ (shelved producer names offered).1.map Prod.fst, name ∉ names := by
  induction offered generalizing names with
  | nil => simp [shelved]
  | cons artifact rest ih =>
    obtain ⟨name, blob⟩ := artifact
    unfold shelved
    split
    next => simp
    next fresh =>
      obtain ⟨distinct, others⟩ := ih (name :: names)
      simp only [List.map_cons, List.nodup_cons, List.forall_mem_cons]
      refine ⟨⟨fun member => others name member (by simp), distinct⟩, fresh, fun other member inside => ?_⟩
      exact others other member (by simp [inside])

theorem shelved_sublist (producer : Producer) (names : List String) (offered : List (String × Blob)) :
    (shelved producer names offered).1.Sublist offered := by
  induction offered generalizing names with
  | nil => exact .slnil
  | cons artifact rest ih =>
    unfold shelved
    split
    · exact List.nil_sublist _
    · exact (ih _).cons_cons _

namespace Outcome

def stock (outcome : Outcome) (producer : Producer) : List (String × Blob) :=
  (shelved producer [] outcome.offered).1

def verdict (outcome : Outcome) (producer : Producer) : Verdict :=
  let ending := outcome.ending (shelved producer [] outcome.offered).2
  ending.2.verdict ending.1 outcome.steps ((outcome.stock producer).map Prod.fst)

theorem verdict_terminal (outcome : Outcome) (producer : Producer) :
    (outcome.verdict producer).status.isTerminal = true := outcome.ending_terminal _

end Outcome

namespace World.Keeps

variable {ω : Type} [World ω]

variable {key : ArtifactKey} {producer : Producer} {taken : List (String × Blob)} {entries : List Entry}

theorem put_ok (keeps : Keeps ω) {w w' : ω} {blob : Blob} {entry : Entry}
    (put : ArtifactStore.put w key blob = .ok (entry, w')) :
    ArtifactStore.get? w key = none ∧ entry = .of key blob ∧
      ∀ other, ArtifactStore.get? w' other = if other = key then some blob else ArtifactStore.get? w other := by
  by_cases free : ArtifactStore.get? w key = none
  · obtain ⟨last, again, contents⟩ := keeps.free w key blob free
    cases put.symm.trans again
    exact ⟨free, rfl, contents⟩
  · cases put.symm.trans (keeps.occupied w key blob free)

theorem put_error (keeps : Keeps ω) {w : ω} {blob : Blob} {fault : StoreFault}
    (refusal : ArtifactStore.put w key blob = .error fault) :
    ArtifactStore.get? w key ≠ none ∧ fault = .occupied key := by
  by_cases free : ArtifactStore.get? w key = none
  · obtain ⟨_, put, _⟩ := keeps.free w key blob free
    cases refusal.symm.trans put
  · cases refusal.symm.trans (keeps.occupied w key blob free)
    exact ⟨free, rfl⟩

theorem stored_elsewhere (keeps : Keeps ω) {s s' : ω} (stored : Stored producer s taken entries s')
    (apart : key.producer ≠ producer) : ArtifactStore.get? s' key = ArtifactStore.get? s key := by
  induction stored with
  | nil => rfl
  | cons put _ ih =>
    rw [ih, (keeps.put_ok put).2.2, if_neg]
    rintro rfl
    exact apart rfl

theorem delivered (keeps : Keeps ω) (requests : List Request) (w : ω) (key : ArtifactKey) :
    ArtifactStore.get? (requests.foldl World.accept w) key = ArtifactStore.get? w key := by
  induction requests generalizing w with
  | nil => rfl
  | cons request requests ih => rw [List.foldl_cons, ih, keeps.accepted]

/-- What is stored for a producer after some of its artifacts have been taken, and what was not before. -/
theorem stored_contents (keeps : Keeps ω) {s s' : ω} (stored : Stored producer s taken entries s') :
    entries = taken.map (fun artifact => .of ⟨producer, artifact.1⟩ artifact.2) ∧
      (∀ name, ArtifactStore.get? s' ⟨producer, name⟩ =
        (ArtifactStore.get? s ⟨producer, name⟩).or (Table.get? taken name)) ∧
      (taken.map Prod.fst).Nodup ∧ ∀ name ∈ taken.map Prod.fst, ArtifactStore.get? s ⟨producer, name⟩ = none := by
  induction stored with
  | nil store => exact ⟨rfl, fun name => by simp [Table.get?], List.nodup_nil, by simp⟩
  | @cons first second last name blob entry others entries put _ ih =>
    obtain ⟨free, rfl, contents⟩ := keeps.put_ok put
    obtain ⟨rfl, stocked, distinct, fresh⟩ := ih
    have apart : name ∉ others.map Prod.fst := by
      intro member
      have absent := fresh name member
      simp [contents] at absent
    refine ⟨rfl, ?_, List.nodup_cons.2 ⟨apart, distinct⟩, ?_⟩
    · intro other
      rw [stocked, contents]
      by_cases same : other = name
      · simp [same, free, Table.get?, Key.same]
      · have unequal : ¬ name = other := fun equal => same equal.symm
        simp [same, Table.get?, Key.same, unequal]
    · intro other member
      rcases List.mem_cons.1 member with rfl | member
      · exact free
      · have unequal : other ≠ name := fun same => apart (same ▸ member)
        have absent := fresh other member
        simpa [contents, unequal] using absent

theorem stored_shelved (keeps : Keeps ω) {s s' : ω} {rest : List (String × Blob)} {fault : Option StoreFault}
    (stored : Stored producer s taken entries s') (reach : Reach producer s' rest fault) {names : List String}
    (held : ∀ name, ArtifactStore.get? s ⟨producer, name⟩ ≠ none ↔ name ∈ names) :
    shelved producer names (taken ++ rest) = (taken, fault) := by
  induction stored generalizing names with
  | nil store =>
    cases reach with
    | all => rfl
    | @refused name _ _ _ refusal =>
      obtain ⟨present, rfl⟩ := keeps.put_error refusal
      simp [shelved, (held name).1 present]
  | @cons first second last name blob entry others entries put _ ih =>
    obtain ⟨free, rfl, contents⟩ := keeps.put_ok put
    have fresh : name ∉ names := fun member => (held name).2 member free
    have grown (other : String) : ArtifactStore.get? second ⟨producer, other⟩ ≠ none ↔ other ∈ name :: names := by
      rw [contents, List.mem_cons, ← held other]
      by_cases same : other = name <;> simp [same]
    simp [shelved, fresh, ih reach grown]

theorem returned_stock (keeps : Keeps ω) {c c' : Coordinator} {s s' : ω} {now : Double} {i : Nat} {r : JobRecord}
    {outcome : Outcome} {rest : List (String × Blob)} {fault : Option StoreFault}
    (returned : c.Returned c' s s' now i r outcome taken rest entries fault)
    (empty : ∀ name, ArtifactStore.get? s ⟨r.job.producer, name⟩ = none) :
    shelved r.job.producer [] outcome.offered = (taken, fault) := by
  rw [returned.offered]
  apply keeps.stored_shelved returned.stored returned.reach
  simp [empty]

end World.Keeps
end Conveyor
