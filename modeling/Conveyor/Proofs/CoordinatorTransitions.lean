import Conveyor.Proofs.CoordinatorRecords
import Conveyor.Proofs.Fallible

/-! Transitions of the coordinator. A transition succeeds exactly if the job may come into the new
state, and then the records that it changes, the tokens that it sets and the requests to stop that it
makes are known. -/

namespace Conveyor
namespace Coordinator

open Fallible

theorem record?_update (c : Coordinator) (i j : Nat) (f : JobRecord → JobRecord) :
    (c.update i f).record? j = (c.record? j).map fun r => if j = i then f r else r := by
  simp only [update, record?, List.getElem?_modify]
  cases c.records[j]? with
  | none => rfl
  | some r =>
    by_cases same : i = j
    · simp [same]
    · simp [same, Ne.symm same]

theorem update_rewritten (c : Coordinator) (i : Nat) (f : JobRecord → JobRecord) :
    Rewritten c (c.update i f) fun j r => if j = i then f r else r :=
  fun j => c.record?_update i j f

variable {c c' : Coordinator} {i : Nat} {r : JobRecord} {among : Nat → Prop}

theorem move_legal (found : c.record? i = some r) (now : Double) (next : Status) (remark : Remark)
    (legal : r.status.mayBecome next = true) :
    c.move now i next remark =
      .ok { c.update i fun r => r.moved now next remark with log := c.log ++ r.notices next remark } := by
  simp only [move, found, legal, if_true]
  rfl

theorem move_ok {now : Double} {next : Status} {remark : Remark} (moved : c.move now i next remark = .ok c')
    (found : c.record? i = some r) :
    r.status.mayBecome next = true := by
  by_cases legal : r.status.mayBecome next = true
  · exact legal
  · simp [move, found, legal] at moved

/-- The running jobs at some places are asked to stop: their tokens are set and no others, and requests
are made for none but them and for all whose token was not set. -/
structure StopsAsked (c c' : Coordinator) (among : Nat → Prop) : Prop where
  requests : ∃ asked : List Nat, c'.requests = c.requests ++ asked.map Request.cancel ∧
    (∀ k ∈ asked, ∃ j r, among j ∧ c.record? j = some r ∧ r.status = .running ∧ k = c.slot j) ∧
    ∀ k, c.tokens.get? k = some false → c'.tokens.get? k = some true → k ∈ asked
  set : ∀ j r, among j → c.record? j = some r → r.status = .running →
    c'.tokens.get? (c.slot j) = (c.tokens.get? (c.slot j)).map fun _ => true
  others : ∀ k, (∀ j r, among j → c.record? j = some r → r.status = .running → k ≠ c.slot j) →
    c'.tokens.get? k = c.tokens.get? k

theorem StopsAsked.none (requests : c'.requests = c.requests) (tokens : c'.tokens = c.tokens)
    (idle : ∀ j r, among j → c.record? j = some r → r.status ≠ .running) :
    StopsAsked c c' among := by
  refine ⟨⟨[], by simp [requests], by simp, ?_⟩, ?_, fun k _ => by rw [tokens]⟩
  · intro k unset set
    rw [tokens, unset] at set
    cases set
  · intro j r inside found running
    exact (idle j r inside found running).elim

theorem askToStop_undisturbed (c : Coordinator) (i : Nat) (job : String) :
    Undisturbed c (c.askToStop i job) := by
  simp only [askToStop]
  split <;> exact ⟨rfl, rfl, rfl, rfl, rfl, rfl⟩

theorem askToStop_records (c : Coordinator) (i : Nat) (job : String) :
    (c.askToStop i job).records = c.records := by
  simp only [askToStop]
  split <;> rfl

theorem askToStop_requests (c : Coordinator) (i : Nat) (job : String) :
    (c.askToStop i job).requests = c.requests ∧ c.tokens.get? (c.slot i) ≠ some false ∨
      (c.askToStop i job).requests = c.requests ++ [.cancel (c.slot i)] := by
  simp only [askToStop]
  split
  next => exact Or.inr rfl
  next set => exact Or.inl ⟨rfl, set⟩

theorem askToStop_tokens (c : Coordinator) (i : Nat) (job : String) (k : Nat) :
    (c.askToStop i job).tokens.get? k =
      if k = c.slot i then (c.tokens.get? k).map fun _ => true else c.tokens.get? k := by
  simp only [askToStop]
  by_cases here : k = c.slot i
  · subst here
    split
    next unset => simp [request, note, Table.get?_insert, Key.same, unset]
    next unset =>
      cases token : c.tokens.get? (c.slot i) with
      | none => simp
      | some set =>
        cases set with
        | false => exact (unset token).elim
        | true => simp
  · have other : ¬ c.slot i = k := fun same => here same.symm
    split
    next => simp [request, note, Table.get?_insert, Key.same, here, other]
    next => simp [here]

/-- A sibling that has not begun is cancelled, one that runs is asked to stop, and one that has
ended is left alone; so stopping it never fails. -/
theorem stopSibling_spec (now : Double) (failed : JobRecord) (c : Coordinator) (i : Nat) :
    ∃ c', stopSibling now failed c i = .ok c' ∧ Undisturbed c c' ∧
      Rewritten c c' (fun j r => if j = i then r.stopped now failed.job.id else r) ∧
      StopsAsked c c' (· = i) := by
  cases found : c.record? i with
  | none =>
    refine ⟨c, by simp [stopSibling, found], .refl c, .idle ?_, .none rfl rfl ?_⟩
    · simp [found]
    · rintro j r rfl held
      cases found.symm.trans held
  | some r =>
    have begun (status : ¬ r.Waiting) : ∀ q, c.record? i = some q → q.stopped now failed.job.id = q := by
      intro q held
      cases held.symm.trans found
      exact JobRecord.stopped_of_begun status now _
    have idle (status : r.status ≠ .running) : ∀ j q, j = i → c.record? j = some q → q.status ≠ .running := by
      rintro j q rfl held
      cases found.symm.trans held
      exact status
    cases status : r.status with
    | pending | ready =>
      have waiting : r.Waiting := by simp [JobRecord.Waiting, status]
      simp only [stopSibling, found, status]
      refine ⟨_, move_legal found now .cancelled _ (by simp [status]; decide), ⟨rfl, rfl, rfl, rfl, rfl, rfl⟩, ?_,
        .none rfl rfl (idle (by simp [status]))⟩
      exact (update_rewritten c i _).at_place found (JobRecord.stopped_of_waiting waiting now _).symm
    | running =>
      simp only [stopSibling, found, status]
      refine ⟨_, rfl, askToStop_undisturbed c i _, ?_, ?_, ?_, ?_⟩
      · intro j
        rw [← Rewritten.idle (begun (by simp [JobRecord.Waiting, status])) j]
        simp only [record?, askToStop_records]
      · -- The token of no other place changes, so whoever has a token newly set is the one who is asked.
        have here (k : Nat) (unset : c.tokens.get? k = some false)
            (set : (c.askToStop i r.job.id).tokens.get? k = some true) : k = c.slot i := by
          by_contra other
          rw [askToStop_tokens, if_neg other, unset] at set
          cases set
        rcases askToStop_requests c i r.job.id with ⟨same, already⟩ | asked
        · refine ⟨[], by simp [same], by simp, fun k unset set => ?_⟩
          exact (already (here k unset set ▸ unset)).elim
        · exact ⟨[c.slot i], by simpa using asked, by simp [found, status], by simpa using here⟩
      · rintro j q rfl held running
        rw [askToStop_tokens, if_pos rfl]
      · intro k other
        rw [askToStop_tokens, if_neg (other i r rfl found status)]
    | succeeded | failed | cancelled | skipped =>
      simp only [stopSibling, found, status]
      exact ⟨c, rfl, .refl c, .idle (begun (by simp [JobRecord.Waiting, status])),
        .none rfl rfl (idle (by simp [status]))⟩

theorem StopsAsked.trans {a b : Coordinator} {other : Nat → Prop} (first : StopsAsked a b among)
    (second : StopsAsked b c other) (same : SameJobs a b) (kept : ∀ j, other j → b.record? j = a.record? j) :
    StopsAsked a c fun j => among j ∨ other j := by
  obtain ⟨⟨early, requests, source, told⟩, set, rest⟩ := first
  obtain ⟨⟨late, more, origin, told'⟩, set', rest'⟩ := second
  -- A token that the second half reaches is set by it, whether or not the first half has set it before.
  have again (j : Nat) (r : JobRecord) (inside : other j) (found : a.record? j = some r) (running : r.status = .running) :
      c.tokens.get? (a.slot j) = (b.tokens.get? (a.slot j)).map fun _ => true := by
    rw [← same.slot j]
    exact set' j r inside ((kept j inside).trans found) running
  have untouched (k : Nat) (none : ∀ j r, other j → a.record? j = some r → r.status = .running → k ≠ a.slot j) :
      c.tokens.get? k = b.tokens.get? k := by
    apply rest' k
    intro j r inside found running
    rw [same.slot j]
    exact none j r inside (kept j inside ▸ found) running
  have between (k : Nat) (unset : a.tokens.get? k = some false) :
      b.tokens.get? k = some false ∨ b.tokens.get? k = some true := by
    by_cases before : ∃ i p, among i ∧ a.record? i = some p ∧ p.status = .running ∧ k = a.slot i
    · obtain ⟨i, p, inside, place, busy, rfl⟩ := before
      exact Or.inr (by rw [set i p inside place busy, unset]; rfl)
    · refine Or.inl ((rest k fun i p inside place busy same => ?_).trans unset)
      exact before ⟨i, p, inside, place, busy, same⟩
  refine ⟨⟨early ++ late, by rw [more, requests, List.map_append, List.append_assoc], ?_, ?_⟩, ?_, ?_⟩
  · intro k member
    rcases List.mem_append.1 member with member | member
    · obtain ⟨j, r, inside, rest⟩ := source k member
      exact ⟨j, r, Or.inl inside, rest⟩
    · obtain ⟨j, r, inside, found, running, slot⟩ := origin k member
      exact ⟨j, r, Or.inr inside, (kept j inside) ▸ found, running, slot.trans (same.slot j)⟩
  · intro k unset set
    rw [List.mem_append]
    rcases between k unset with still | already
    · exact Or.inr (told' k still set)
    · exact Or.inl (told k unset already)
  · intro j r inside found running
    by_cases reached : ∃ k q, other k ∧ a.record? k = some q ∧ q.status = .running ∧ a.slot j = a.slot k
    · obtain ⟨k, q, present, held, active, slot⟩ := reached
      rw [slot, again k q present held active]
      by_cases before : ∃ i p, among i ∧ a.record? i = some p ∧ p.status = .running ∧ a.slot k = a.slot i
      · obtain ⟨i, p, among, place, busy, slot'⟩ := before
        rw [slot', set i p among place busy, Option.map_map]
        rfl
      · rw [rest (a.slot k)]
        intro i p among place busy slot'
        exact before ⟨i, p, among, place, busy, slot'⟩
    · rw [untouched (a.slot j)]
      · rcases inside with inside | inside
        · exact set j r inside found running
        · exact (reached ⟨j, r, inside, found, running, rfl⟩).elim
      · intro k q present held active slot
        exact reached ⟨k, q, present, held, active, slot⟩
  · intro k none
    rw [untouched k, rest k]
    · intro j r inside
      exact none j r (Or.inl inside)
    · intro j r inside
      exact none j r (Or.inr inside)

theorem StopsAsked.congr {other : Nat → Prop} (asked : StopsAsked c c' among)
    (same : ∀ j r, c.record? j = some r → (among j ↔ other j)) : StopsAsked c c' other := by
  obtain ⟨⟨slots, requests, source, told⟩, set, rest⟩ := asked
  refine ⟨⟨slots, requests, ?_, told⟩, ?_, ?_⟩
  · intro k member
    obtain ⟨j, r, inside, found, running⟩ := source k member
    exact ⟨j, r, (same j r found).1 inside, found, running⟩
  · intro j r inside found running
    exact set j r ((same j r found).2 inside) found running
  · intro k none
    apply rest k
    intro j r inside found
    exact none j r ((same j r found).1 inside) found

theorem StopsAsked.token (asked : StopsAsked c c' among) (k : Nat) :
    c'.tokens.get? k = c.tokens.get? k ∨ c'.tokens.get? k = (c.tokens.get? k).map fun _ => true := by
  by_cases reached : ∃ j r, among j ∧ c.record? j = some r ∧ r.status = .running ∧ k = c.slot j
  · obtain ⟨j, r, inside, found, running, rfl⟩ := reached
    exact Or.inr (asked.set j r inside found running)
  · refine Or.inl (asked.others k fun j r inside found running same => ?_)
    exact reached ⟨j, r, inside, found, running, same⟩

theorem StopsAsked.quiet (asked : StopsAsked c c' among) (nobody : ∀ j, ¬ among j) :
    c'.requests = c.requests ∧ ∀ k, c'.tokens.get? k = c.tokens.get? k := by
  obtain ⟨⟨slots, requests, source, _⟩, _, rest⟩ := asked
  refine ⟨?_, fun k => rest k fun j _ inside => (nobody j inside).elim⟩
  cases slots with
  | nil => simpa using requests
  | cons k slots =>
    obtain ⟨j, _, inside, _⟩ := source k (by simp)
    exact (nobody j inside).elim

/-- Stopping siblings one after the other does to each of them what stopping it alone would. -/
theorem stopSiblings_spec (now : Double) (failed : JobRecord) (places : List Nat) (c : Coordinator)
    (distinct : places.Nodup) :
    ∃ c', places.foldlM (stopSibling now failed) c = .ok c' ∧ Undisturbed c c' ∧
      Rewritten c c' (fun j r => if j ∈ places then r.stopped now failed.job.id else r) ∧
      StopsAsked c c' (· ∈ places) := by
  induction places generalizing c with
  | nil => exact ⟨c, rfl, .refl c, by simpa using Rewritten.refl c, .none rfl rfl (by simp)⟩
  | cons i places ih =>
    obtain ⟨fresh, distinct⟩ := List.nodup_cons.1 distinct
    obtain ⟨middle, first, calm, rewritten, asked⟩ := stopSibling_spec now failed c i
    obtain ⟨last, rest, later, changed, more⟩ := ih middle distinct
    have jobs : SameJobs c middle := rewritten.sameJobs (by intro j r; split <;> simp)
    have kept (j : Nat) (member : j ∈ places) : middle.record? j = c.record? j := by
      have other : j ≠ i := by
        rintro rfl
        exact fresh member
      simpa [other] using rewritten j
    refine ⟨last, foldlM_cons_ok.2 ⟨middle, first, rest⟩, calm.trans later, ?_, ?_⟩
    · apply (rewritten.trans changed).congr
      intro j r _
      by_cases same : j = i
      · subst same
        simp [fresh]
      · simp [same]
    · exact (asked.trans more jobs kept).congr (by simp)

/-- Whether the stage of a job asks that its jobs are stopped when one of them fails. -/
def contagious (c : Coordinator) (r : JobRecord) : Bool := (c.stage? r.job.stage).any (·.failFast)

theorem mem_members {stage : String} {j : Nat} :
    j ∈ c.members stage ↔ ∃ r, c.record? j = some r ∧ r.job.stage = stage := by
  simp only [members, List.mem_filter, List.mem_range, Option.any_eq_true]
  constructor
  · rintro ⟨_, r, found, same⟩
    exact ⟨r, found, by simpa using same⟩
  · rintro ⟨r, found, same⟩
    obtain ⟨inside, _⟩ := List.getElem?_eq_some_iff.1 found
    exact ⟨inside, r, found, by simpa using same⟩

theorem members_nodup (c : Coordinator) (stage : String) : (c.members stage).Nodup :=
  List.nodup_range.filter _

def Reached (c : Coordinator) (i : Nat) (r : JobRecord) (j : Nat) : Prop :=
  c.contagious r = true ∧ j ≠ i ∧ ∃ q, c.record? j = some q ∧ q.job.stage = r.job.stage

theorem failFast_spec (found : c.record? i = some r) (now : Double) :
    ∃ c', c.failFast now i = .ok c' ∧ Undisturbed c c' ∧
      Rewritten c c' (fun j q => if c.contagious r ∧ j ≠ i ∧ q.job.stage = r.job.stage
        then q.stopped now r.job.id else q) ∧
      StopsAsked c c' (c.Reached i r) := by
  by_cases contagious : c.contagious r = true
  · have places (j : Nat) : j ∈ (c.members r.job.stage).filter (· ≠ i) ↔ c.Reached i r j := by
      simp [mem_members, Reached, contagious, and_comm]
    obtain ⟨c', stopped, calm, rewritten, asked⟩ :=
      stopSiblings_spec now r ((c.members r.job.stage).filter (· ≠ i)) c ((c.members_nodup _).filter _)
    refine ⟨c', ?_, calm, ?_, asked.congr fun j _ _ => places j⟩
    · simp only [failFast, found]
      exact (if_pos contagious).trans stopped
    · apply rewritten.congr
      intro j q held
      have reached := places j
      simp only [reached, Reached, contagious, held]
      simp
  · refine ⟨c, ?_, .refl c, ?_, .none rfl rfl fun j q reached => (contagious reached.1).elim⟩
    · simp only [failFast, found]
      exact if_neg contagious
    · simpa [contagious] using Rewritten.refl c

/-- The record at a place after the job at another one, or at the same, has moved. -/
def aftermath (c : Coordinator) (now : Double) (i : Nat) (r : JobRecord) (next : Status) (remark : Remark)
    (j : Nat) (q : JobRecord) : JobRecord :=
  if j = i then q.moved now next remark
  else if next = .failed ∧ c.contagious r ∧ q.job.stage = r.job.stage then q.stopped now r.job.id
  else q

@[simp] theorem aftermath_job (c : Coordinator) (now : Double) (i : Nat) (r : JobRecord) (next : Status)
    (remark : Remark) (j : Nat) (q : JobRecord) : (c.aftermath now i r next remark j q).job = q.job := by
  unfold aftermath
  split
  · rfl
  · split <;> simp

/-- A legal transition succeeds, and its effects are the move itself and what follows from a failure. -/
theorem transition_legal (found : c.record? i = some r) (now : Double) (next : Status) (remark : Remark)
    (legal : r.status.mayBecome next = true) :
    ∃ c', c.transition now i next remark = .ok c' ∧ Undisturbed c c' ∧
      Rewritten c c' (c.aftermath now i r next remark) ∧
      StopsAsked c c' (fun j => next = .failed ∧ c.Reached i r j) := by
  obtain ⟨moved, first, calm, rewritten, requests, tokens, same⟩ : ∃ moved, c.move now i next remark = .ok moved ∧
      Undisturbed c moved ∧ Rewritten c moved (fun j q => if j = i then q.moved now next remark else q) ∧
      moved.requests = c.requests ∧ moved.tokens = c.tokens ∧ ∀ q, moved.contagious q = c.contagious q :=
    ⟨_, move_legal found now next remark legal, ⟨rfl, rfl, rfl, rfl, rfl, rfl⟩, update_rewritten c i _, rfl, rfl,
      fun _ => rfl⟩
  by_cases failure : next = .failed
  · have present : moved.record? i = some (r.moved now next remark) := by simp [rewritten i, found]
    obtain ⟨c', stopped, later, changed, asked⟩ := failFast_spec present now
    have spread : moved.contagious (r.moved now next remark) = c.contagious r := same _
    have jobs : SameJobs c moved := rewritten.sameJobs (by intro j q; split <;> rfl)
    refine ⟨c', ?_, calm.trans later, ?_, ?_⟩
    · simp only [transition, if_pos failure]
      exact bind_ok.2 ⟨moved, first, stopped⟩
    · apply (rewritten.trans changed).congr
      intro j q _
      by_cases here : j = i
      · simp [here, aftermath]
      · simp [here, aftermath, failure, ← spread]
    · have kept (j : Nat) (reached : moved.Reached i (r.moved now next remark) j) :
          moved.record? j = c.record? j := by
        simpa [reached.2.1] using rewritten j
      have unasked : StopsAsked c moved fun _ => False := .none requests tokens (by simp)
      apply (unasked.trans asked jobs kept).congr
      intro j q held
      rw [false_or, Reached, Reached, spread, JobRecord.moved_job, and_iff_right failure]
      refine and_congr_right fun _ => and_congr_right fun other => ?_
      have same : moved.record? j = c.record? j := by simpa [other] using rewritten j
      rw [same]
  · refine ⟨moved, ?_, calm, ?_, .none requests tokens fun j q reached => (failure reached.1).elim⟩
    · simp only [transition, if_neg failure]
      exact bind_ok.2 ⟨moved, first, rfl⟩
    · apply rewritten.congr
      intro j q _
      simp [aftermath, failure]

theorem transition_ok {now : Double} {next : Status} {remark : Remark}
    (done : c.transition now i next remark = .ok c') (found : c.record? i = some r) :
    r.status.mayBecome next = true ∧ Undisturbed c c' ∧
      Rewritten c c' (c.aftermath now i r next remark) ∧
      StopsAsked c c' (fun j => next = .failed ∧ c.Reached i r j) := by
  obtain ⟨middle, moved, _⟩ := bind_ok.1 done
  have legal := move_ok moved found
  obtain ⟨last, again, effects⟩ := transition_legal found now next remark legal
  cases done.symm.trans again
  exact ⟨legal, effects⟩

end Coordinator
end Conveyor
