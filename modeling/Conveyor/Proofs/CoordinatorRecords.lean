import Conveyor.Scheduler.Coordinator

/-! What a change of state does to the records of a run. It touches the job itself and, after a
failure in a stage that asks for it, the jobs of that stage that have not begun. Every other record
stays as it is, and so do the queues of the coordinator. -/

namespace Conveyor

/-- A job whose sibling has failed is cancelled, unless it has begun. -/
def JobRecord.stopped (r : JobRecord) (now : Double) (failed : String) : JobRecord :=
  match r.status with
  | .pending | .ready => r.moved now .cancelled { message := "fail-fast after " ++ failed ++ " failed" }
  | _ => r

def JobRecord.Waiting (r : JobRecord) : Prop := r.status = .pending ∨ r.status = .ready

instance (r : JobRecord) : Decidable r.Waiting := inferInstanceAs (Decidable (_ ∨ _))

theorem JobRecord.stopped_of_waiting {r : JobRecord} (waiting : r.Waiting) (now : Double) (failed : String) :
    r.stopped now failed = r.moved now .cancelled { message := "fail-fast after " ++ failed ++ " failed" } := by
  rcases waiting with status | status <;> simp [stopped, status]

theorem JobRecord.stopped_of_begun {r : JobRecord} (begun : ¬ r.Waiting) (now : Double) (failed : String) :
    r.stopped now failed = r := by
  cases status : r.status <;> simp_all [stopped, Waiting]

@[simp] theorem JobRecord.moved_job (r : JobRecord) (now : Double) (next : Status) (remark : Remark) :
    (r.moved now next remark).job = r.job := rfl

@[simp] theorem JobRecord.moved_status (r : JobRecord) (now : Double) (next : Status) (remark : Remark) :
    (r.moved now next remark).status = next := rfl

@[simp] theorem JobRecord.stopped_job (r : JobRecord) (now : Double) (failed : String) :
    (r.stopped now failed).job = r.job := by
  unfold JobRecord.stopped
  split <;> rfl

namespace Coordinator

/-- Only records, tokens, requests and notices differ. -/
structure Undisturbed (c c' : Coordinator) : Prop where
  setup : c'.setup = c.setup
  opened : c'.opened = c.opened
  ready : c'.ready = c.ready
  inFlight : c'.inFlight = c.inFlight
  deadlines : c'.deadlines = c.deadlines
  manifest : c'.manifest = c.manifest

theorem Undisturbed.refl (c : Coordinator) : Undisturbed c c := ⟨rfl, rfl, rfl, rfl, rfl, rfl⟩

variable {c c' : Coordinator} {r : JobRecord} {f : Nat → JobRecord → JobRecord}

theorem Undisturbed.trans {a b : Coordinator} (first : Undisturbed a b) (second : Undisturbed b c) :
    Undisturbed a c :=
  ⟨second.setup.trans first.setup, second.opened.trans first.opened, second.ready.trans first.ready,
    second.inFlight.trans first.inFlight, second.deadlines.trans first.deadlines,
    second.manifest.trans first.manifest⟩

/-- The record at every place is the earlier one with a change that depends on the place. -/
def Rewritten (c c' : Coordinator) (change : Nat → JobRecord → JobRecord) : Prop :=
  ∀ j, c'.record? j = (c.record? j).map (change j)

theorem Rewritten.refl (c : Coordinator) : Rewritten c c fun _ r => r := fun j => by simp

theorem Rewritten.found {change : Nat → JobRecord → JobRecord} (rewritten : Rewritten c c' change) {j : Nat}
    (found : c.record? j = some r) : c'.record? j = some (change j r) := by
  rw [rewritten j, found, Option.map_some]

theorem Rewritten.trans {a b : Coordinator} {g : Nat → JobRecord → JobRecord} (first : Rewritten a b f)
    (second : Rewritten b c g) : Rewritten a c fun j r => g j (f j r) := by
  intro j
  rw [second j, first j, Option.map_map]
  rfl

theorem Rewritten.congr {g : Nat → JobRecord → JobRecord} (rewritten : Rewritten c c' f)
    (agree : ∀ j r, c.record? j = some r → f j r = g j r) :
    Rewritten c c' g := by
  intro j
  rw [rewritten j]
  cases found : c.record? j with
  | none => rfl
  | some r => simp [agree j r found]

theorem Rewritten.at_place {i : Nat} {f g : JobRecord → JobRecord}
    (rewritten : Rewritten c c' fun j q => if j = i then f q else q) (found : c.record? i = some r)
    (agree : f r = g r) : Rewritten c c' fun j q => if j = i then g q else q := by
  apply rewritten.congr
  intro j q held
  by_cases same : j = i
  · subst same
    cases held.symm.trans found
    simp [agree]
  · simp [same]

/-- A change of a record that is not there, or to itself, is none. -/
theorem Rewritten.idle {i : Nat} {f : JobRecord → JobRecord} (unchanged : ∀ r, c.record? i = some r → f r = r) :
    Rewritten c c fun j q => if j = i then f q else q := by
  apply (Rewritten.refl c).congr
  intro j q held
  by_cases same : j = i
  · subst same
    simp [unchanged q held]
  · simp [same]

def SameJobs (c c' : Coordinator) : Prop := c'.records.map (·.job) = c.records.map (·.job)

theorem Rewritten.sameJobs (rewritten : Rewritten c c' f) (job : ∀ j r, (f j r).job = r.job) : SameJobs c c' := by
  apply List.ext_getElem?
  intro j
  have found := rewritten j
  simp only [record?] at found
  simp [found, Function.comp_def, job]

variable (same : SameJobs c c')

include same

theorem SameJobs.job (j : Nat) : (c'.record? j).map (·.job) = (c.record? j).map (·.job) := by
  have found := congrArg (·[j]?) same
  simpa [record?] using found

theorem SameJobs.symm : SameJobs c' c := Eq.symm same

theorem SameJobs.record {j : Nat} (found : c.record? j = some r) : ∃ r', c'.record? j = some r' ∧ r'.job = r.job := by
  have shared := same.job j
  rw [found, Option.map_some] at shared
  exact Option.map_eq_some_iff.1 shared

theorem SameJobs.job_eq {j : Nat} {r' : JobRecord} (found : c.record? j = some r) (found' : c'.record? j = some r') :
    r'.job = r.job := by
  obtain ⟨_, again, job⟩ := same.record found
  cases found'.symm.trans again
  exact job

theorem SameJobs.length : c'.records.length = c.records.length := by
  simpa using congrArg List.length same

theorem SameJobs.members (stage : String) : c'.members stage = c.members stage := by
  unfold Coordinator.members
  rw [same.length]
  apply List.filter_congr
  intro j _
  have job := congrArg (Option.any fun job : Job => job.stage = stage) (same.job j)
  simpa [Option.any_map, Function.comp_def] using job

theorem SameJobs.sharesKey (i j : Nat) : c'.sharesKey i j = c.sharesKey i j := by
  have first := same.job i
  have second := same.job j
  unfold Coordinator.sharesKey
  cases left : c.record? i <;> cases right : c.record? j <;> cases left' : c'.record? i <;>
    cases right' : c'.record? j <;> simp_all

theorem SameJobs.slot (i : Nat) : c'.slot i = c.slot i := by
  simp only [Coordinator.slot, same.length, same.sharesKey]

theorem SameJobs.firsts : c'.firsts = c.firsts := by
  simp only [Coordinator.firsts, same.length, same.sharesKey]

theorem SameJobs.rank (i : Nat) : c'.rank i = c.rank i := by
  simp only [Coordinator.rank, same.firsts]

end Coordinator
end Conveyor
