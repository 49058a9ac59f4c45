import Conveyor.Proofs.CoordinatorTransitions

/-! The opening of a stage moves all its jobs at once: they are skipped with one remark, or they are
ready and stand in the queue. -/

namespace Conveyor
namespace Coordinator

open Fallible

variable {i : Nat} {next : Status} {now : Double} {remark : Remark} {c c' : Coordinator} {s : Stage}

theorem aftermath_elsewhere (calm : next ≠ .failed) {r : JobRecord}
    (rewritten : Rewritten c c' (c.aftermath now i r next remark)) {j : Nat} (other : j ≠ i) :
    c'.record? j = c.record? j := by
  have same : c.aftermath now i r next remark j = id := by
    funext q
    simp [aftermath, other, calm]
  rw [rewritten j, same, Option.map_id_fun, id]

/-- Every listed job is moved, if none of the moves is a failure. -/
theorem moveEach_ok (calm : next ≠ .failed) (places : List Nat) (distinct : places.Nodup)
    (present : ∀ j ∈ places, ∃ r, c.record? j = some r)
    (done : places.foldlM (fun c i => c.transition now i next remark) c = .ok c') :
    (∀ j ∈ places, ∀ r, c.record? j = some r → r.status.mayBecome next = true) ∧ Undisturbed c c' ∧
      Rewritten c c' (fun j q => if j ∈ places then q.moved now next remark else q) ∧
      c'.requests = c.requests ∧ ∀ k, c'.tokens.get? k = c.tokens.get? k := by
  induction places generalizing c with
  | nil =>
    cases done
    exact ⟨by simp, .refl _, by simpa using Rewritten.refl _, rfl, fun _ => rfl⟩
  | cons i places ih =>
    obtain ⟨fresh, distinct⟩ := List.nodup_cons.1 distinct
    obtain ⟨middle, first, rest⟩ := foldlM_cons_ok.1 done
    obtain ⟨r, found⟩ := present i (by simp)
    obtain ⟨legal, quiet, rewritten, asked⟩ := transition_ok first found
    have kept (j : Nat) (member : j ∈ places) : middle.record? j = c.record? j :=
      aftermath_elsewhere calm rewritten fun same => fresh (same ▸ member)
    obtain ⟨legals, later, changed, more, others⟩ := ih distinct
      (fun j member => by rw [kept j member]; exact present j (by simp [member])) rest
    obtain ⟨requests, tokens⟩ := asked.quiet fun j impossible => calm impossible.1
    refine ⟨?_, quiet.trans later, ?_, more.trans requests, fun k => (others k).trans (tokens k)⟩
    · intro j member q held
      rcases List.mem_cons.1 member with rfl | member
      · cases held.symm.trans found
        exact legal
      · exact legals j member q ((kept j member).trans held)
    · apply (rewritten.trans changed).congr
      intro j q _
      by_cases same : j = i
      · subst same
        simp [aftermath, fresh]
      · simp [aftermath, same, calm]

theorem moveEach_total (calm : next ≠ .failed) (places : List Nat) (distinct : places.Nodup)
    (legal : ∀ j ∈ places, ∃ r, c.record? j = some r ∧ r.status.mayBecome next = true) :
    ∃ c', places.foldlM (fun c i => c.transition now i next remark) c = .ok c' := by
  induction places generalizing c with
  | nil => exact ⟨c, rfl⟩
  | cons i places ih =>
    obtain ⟨fresh, distinct⟩ := List.nodup_cons.1 distinct
    obtain ⟨r, found, allowed⟩ := legal i (by simp)
    obtain ⟨middle, first, _, rewritten, _⟩ := transition_legal found now next remark allowed
    have kept (j : Nat) (member : j ∈ places) : middle.record? j = c.record? j :=
      aftermath_elsewhere calm rewritten fun same => fresh (same ▸ member)
    obtain ⟨last, rest⟩ := ih distinct
      (fun j member => by rw [kept j member]; exact legal j (by simp [member]))
    exact ⟨last, foldlM_cons_ok.2 ⟨middle, first, rest⟩⟩

theorem moveAll_ok {stage : String} (calm : next ≠ .failed) (done : c.moveAll now stage next remark = .ok c') :
    (∀ j r, c.record? j = some r → r.job.stage = stage → r.status.mayBecome next = true) ∧ Undisturbed c c' ∧
      Rewritten c c' (fun _ q => if q.job.stage = stage then q.moved now next remark else q) ∧
      c'.requests = c.requests ∧ ∀ k, c'.tokens.get? k = c.tokens.get? k := by
  obtain ⟨legal, quiet, rewritten, requests, tokens⟩ := moveEach_ok calm (c.members stage) (c.members_nodup stage)
    (fun j member => (mem_members.1 member).imp fun _ found => found.1) done
  refine ⟨fun j r found same => legal j (mem_members.2 ⟨r, found, same⟩) r found, quiet, ?_, requests, tokens⟩
  apply rewritten.congr
  intro j q held
  have member : j ∈ c.members stage ↔ q.job.stage = stage := by simp [mem_members, held]
  simp only [member]

theorem moveAll_total (now : Double) {stage : String} (remark : Remark) (calm : next ≠ .failed)
    (legal : ∀ j r, c.record? j = some r → r.job.stage = stage → r.status.mayBecome next = true) :
    ∃ c', c.moveAll now stage next remark = .ok c' := by
  apply moveEach_total calm (c.members stage) (c.members_nodup stage)
  intro j member
  obtain ⟨r, found, same⟩ := mem_members.1 member
  exact ⟨r, found, legal j r found same⟩

/-- The state that the jobs of a stage come into when it is opened, and what is said of them. -/
def opening (c : Coordinator) (s : Stage) (outcomes : List (String × Status × Option SkipReason)) :
    Status × Remark :=
  match outcomes.find? (·.2.1 = .failed), outcomes.find? (·.2.1 = .skipped) with
  | some (name, _), _ =>
    (.skipped, { skipReason := some .dependencyFailed, message := "needs " ++ name ++ " which failed" })
  | none, some (name, _, reason) =>
    (.skipped, { skipReason := some (reason.getD .gateClosed)
                 message := "needs " ++ name ++ " which was skipped" })
  | none, none =>
    match c.gate s with
    | .ok _ => (.ready, {})
    | .error (_, why) => (.skipped, { skipReason := some .gateClosed, message := why })

theorem opening_cases (c : Coordinator) (s : Stage) (outcomes : List (String × Status × Option SkipReason)) :
    (c.opening s outcomes).1 = .ready ∨ (c.opening s outcomes).1 = .skipped := by
  unfold opening
  split
  · simp
  · simp
  · split <;> simp

theorem opening_ready_silent {outcomes : List (String × Status × Option SkipReason)}
    (ready : (c.opening s outcomes).1 = .ready) : c.opening s outcomes = (.ready, {}) := by
  unfold opening at ready ⊢
  split at ready
  · cases ready
  · cases ready
  · split at ready
    · rfl
    · cases ready

/-- What becomes of a stage depends on the event and on the outcomes of its needs. -/
theorem opening_congr (context : c'.setup.context = c.setup.context) (s : Stage)
    (outcomes : List (String × Status × Option SkipReason)) : c'.opening s outcomes = c.opening s outcomes := by
  unfold opening gate
  rw [context]
  split
  · rfl
  · rfl
  · cases s.condition with
    | none => rfl
    | some condition =>
      by_cases blank : condition = ""
      · simp only [blank, if_true]
      · simp only [blank, if_false]
        cases Condition.evaluate condition c.setup.context.bindings with
        | error failure => rfl
        | ok passed => cases passed <;> rfl

theorem gate_opened (c : Coordinator) (opened : List Nat) (s : Stage) :
    Coordinator.gate { c with opened } s =
      match c.gate s with
      | .ok _ => .ok { c with opened }
      | .error (noted, why) => .error ({ noted with opened }, why) := by
  unfold gate
  cases s.condition with
  | none => rfl
  | some condition =>
    by_cases blank : condition = ""
    · simp [blank]
    · simp only [blank, if_false]
      cases Condition.evaluate condition c.setup.context.bindings with
      | error failure => rfl
      | ok passed => cases passed <;> rfl

theorem gate_error {why : String} (closed : c.gate s = .error (c', why)) :
    ∃ log, c' = { c with log } := by
  unfold gate at closed
  split at closed
  · cases closed
  · split at closed
    · cases closed
    · split at closed
      · cases closed
      · cases closed
        exact ⟨c.log, rfl⟩
      · cases closed
        exact ⟨_, rfl⟩

structure Opened (c c' : Coordinator) (now : Double) (i : Nat) (s : Stage) (change : Status × Remark) : Prop where
  setup : c'.setup = c.setup
  opened : c'.opened = c.opened ++ [i]
  ready : c'.ready = c.ready ++ (if change.1 = .ready then (c.members s.name).map c.slot else [])
  inFlight : c'.inFlight = c.inFlight
  deadlines : c'.deadlines = c.deadlines
  manifest : c'.manifest = c.manifest
  requests : c'.requests = c.requests
  tokens : ∀ k, c'.tokens.get? k = c.tokens.get? k
  records : Rewritten c c' fun _ q => if q.job.stage = s.name then q.moved now change.1 change.2 else q
  legal : ∀ j r, c.record? j = some r → r.job.stage = s.name → r.status.mayBecome change.1 = true

private theorem skip_opened {noted : Coordinator}
    (same : ∃ log, noted = { c with opened := c.opened ++ [i], log := log })
    (done : noted.moveAll now s.name .skipped remark = .ok c') : Opened c c' now i s (.skipped, remark) := by
  obtain ⟨log, rfl⟩ := same
  obtain ⟨legal, quiet, rewritten, requests, tokens⟩ := moveAll_ok (by simp) done
  exact ⟨quiet.setup, quiet.opened, by simpa using quiet.ready, quiet.inFlight, quiet.deadlines, quiet.manifest,
    requests, tokens, rewritten, legal⟩

/-- A stage that has been opened has moved all its jobs as the outcomes of its prerequisites and its
gate ask. -/
theorem openStage_ok {outcomes : List (String × Status × Option SkipReason)}
    (done : c.openStage now i s outcomes = .ok c') : Opened c c' now i s (c.opening s outcomes) := by
  simp only [openStage] at done
  split at done
  next failed => simpa [opening, failed] using skip_opened ⟨c.log, rfl⟩ done
  next failed skipped => simpa [opening, failed, skipped] using skip_opened ⟨c.log, rfl⟩ done
  next failed skipped =>
    simp only [opening, failed, skipped]
    cases gate : c.gate s with
    | ok kept =>
      simp only [gate_opened, gate] at done
      obtain ⟨released, moved, final⟩ := bind_ok.1 done
      obtain ⟨legal, quiet, rewritten, requests, tokens⟩ := moveAll_ok (by simp) moved
      have jobs := rewritten.sameJobs (by intro j r; split <;> simp)
      cases final
      refine ⟨quiet.setup, quiet.opened, ?_, quiet.inFlight, quiet.deadlines, quiet.manifest, requests,
        tokens, rewritten, legal⟩
      simp only [jobs.members, quiet.ready, if_true]
      congr 1
      exact List.map_congr_left fun j _ => jobs.slot j
    | error closed =>
      obtain ⟨noted, why⟩ := closed
      obtain ⟨log, rfl⟩ := gate_error gate
      simp only [gate_opened, gate] at done
      exact skip_opened ⟨log, rfl⟩ done

theorem openStage_total (now : Double) (i : Nat) (outcomes : List (String × Status × Option SkipReason))
    (pending : ∀ j r, c.record? j = some r → r.job.stage = s.name → r.status = .pending) :
    ∃ c', c.openStage now i s outcomes = .ok c' := by
  have moves (log : List Notice) (next : Status) (remark : Remark) (calm : next ≠ .failed)
      (legal : Status.pending.mayBecome next = true) :
      ∃ c', moveAll { c with opened := c.opened ++ [i], log } now s.name next remark = .ok c' := by
    refine moveAll_total now remark calm fun j r found member => ?_
    rw [pending j r found member]
    exact legal
  simp only [openStage]
  split
  next => exact moves c.log .skipped _ (by simp) rfl
  next => exact moves c.log .skipped _ (by simp) rfl
  next =>
    rw [gate_opened]
    cases gate : c.gate s with
    | ok kept =>
      obtain ⟨c', moved⟩ := moves c.log .ready {} (by simp) rfl
      exact ⟨_, bind_ok.2 ⟨c', moved, rfl⟩⟩
    | error closed =>
      obtain ⟨noted, why⟩ := closed
      obtain ⟨log, rfl⟩ := gate_error gate
      exact moves log .skipped _ (by simp) rfl

end Coordinator
end Conveyor
