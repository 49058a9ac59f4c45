import Conveyor.Proofs.StageDecisions

/-! Workers and the jobs that they have been given. What a run knows of its workers passes through requests, the world
and arrivals; whatever may be said of a worker when it is asked for stays true of it on this way, if steps do not
undo it. -/

namespace Conveyor
namespace Moment

open Coordinator

variable {ω : Type} [World ω] {m m' : Moment ω} {g : RunGraph} {roster : Roster ω}

def inputs (m : Moment ω) (job : Job) : Except InputFault Inputs :=
  Inputs.resolve m.world m.coord.recordsOf job.consumes

/-- What may be said of workers: that one has been given to the job at a place, and that the job at a place may be
stopped. -/
structure Terms (ω : Type) where
  assigned : Moment ω → Nat → Worker → Prop
  excused : Moment ω → Nat → Prop

/-- The workers of the world, those about to start and those that have returned are on certain terms, and those that
have returned have come to an end in their manner. -/
structure Crewed (terms : Terms ω) (manner : Manner) (finds : Bool → Bool → Prop) (roster : Roster ω) (m : Moment ω) :
    Prop where
  posted : ∀ posting ∈ roster.postings m.world,
    terms.assigned m posting.slot posting.worker ∧ (posting.asked = true → terms.excused m posting.slot)
  launching : ∀ slot worker, .launch slot worker ∈ m.coord.requests → terms.assigned m slot worker
  stopping : ∀ slot, .cancel slot ∈ m.coord.requests → terms.excused m slot
  arrived : ∀ slot outcome, (slot, .returned outcome) ∈ m.arrived → ∃ worker asked, terms.assigned m slot worker ∧
    (asked = true → terms.excused m slot) ∧ worker.Ends manner (finds asked) outcome

variable {manner : Manner} {finds : Bool → Bool → Prop}

theorem crewed_start (terms : Terms ω) (setup : Setup) (g : RunGraph) {w : ω} (vacant : roster.postings w = []) :
    Crewed terms manner finds roster (Operation.start setup g w).moment := by
  constructor
  · intro posting member
    rw [show roster.postings (Operation.start setup g w).moment.world = [] from vacant] at member
    cases member
  · intro slot worker member
    cases member
  · intro slot member
    cases member
  · intro slot outcome member
    cases member

/-- A launch that is asked for in a step is that of a ready job, with the inputs that it has. -/
theorem Step.launching (step : Step m m') {slot : Nat} {worker : Worker}
    (asked : .launch slot worker ∈ m'.coord.requests) :
    .launch slot worker ∈ m.coord.requests ∨
      ∃ r r' inputs, m.coord.record? slot = some r ∧ r.status = .ready ∧ m.inputs r.job = .ok inputs ∧
        worker = Worker.start r.job m.coord.setup.context inputs ∧
        m'.coord.record? slot = some r' ∧ r'.status = .running := by
  have stops {c c' : Coordinator} {among : Nat → Prop} (asks : StopsAsked c c' among)
      (member : .launch slot worker ∈ c'.requests) : .launch slot worker ∈ c.requests := by
    obtain ⟨slots, requests, _⟩ := asks.requests
    rw [requests, List.mem_append] at member
    exact member.resolve_right (by simp)
  cases step with
  | opens _ _ _ _ opened => exact Or.inl ((openStage_ok opened).requests ▸ asked)
  | @takes c _ _ _ _ _ queue _ _ taken =>
    cases takeUp_ok taken with
    | passed => exact Or.inl asked
    | lacked held _ _ failed =>
      exact Or.inl (stops (c := { c with ready := queue }) (transition_ok failed held).2.2.2 asked)
    | launched held ready resolved started =>
      rw [started.requests, List.mem_append, List.mem_singleton] at asked
      rcases asked with asked | asked
      · exact Or.inl asked
      · cases asked
        exact Or.inr ⟨_, _, _, held, ready, resolved, rfl, started.records.found held, by simp⟩
  | delivers => cases asked
  | awaits => exact Or.inl asked
  | collects collected =>
    cases collect_ok collected with
    | dropped => exact Or.inl asked
    | taken _ _ returned => exact Or.inl (stops returned.asked asked)
  | looks => exact Or.inl asked
  | expires expired =>
    cases expire_ok expired with
    | early => exact Or.inl asked
    | ended => exact Or.inl asked
    | stopped _ _ late =>
      have before := stops late.asked asked
      simp only [request, List.mem_append, List.mem_singleton, reduceCtorEq, or_false] at before
      exact Or.inl before

/-- Those who are asked to stop when a job fails belong to its stage, which asks for that. -/
private theorem tripped_of_asked (step : Step m m') (apart : (m.coord.records.map (·.job)).Pairwise Job.Apart)
    {c : Coordinator} (records : c.records = m.coord.records) (setup : c.setup = m.coord.setup)
    {i : Nat} {q q' : JobRecord} {next : Status} (held' : m'.coord.record? i = some q') (moved : q'.status = next)
    (job : q'.job = q.job) (asks : StopsAsked c m'.coord fun j => next = .failed ∧ c.Reached i q j) {slot : Nat}
    (requested : .cancel slot ∈ m'.coord.requests) :
    .cancel slot ∈ c.requests ∨
      ∃ r', m'.coord.record? slot = some r' ∧ m'.coord.Tripped r'.job.stage := by
  obtain ⟨slots, requests, origin, _⟩ := asks.requests
  rw [requests, List.mem_append] at requested
  refine requested.imp_right fun member => ?_
  obtain ⟨k, listed, same⟩ := List.mem_map.1 member
  cases same
  obtain ⟨j, r, ⟨failed, contagious, _, other, found, stage⟩, _, _, named⟩ := origin _ listed
  rw [slot_eq (by rw [records]; exact apart)] at named
  subst named
  rw [record?, records] at found
  obtain ⟨r', found', evolves⟩ := step.evolved.record found
  refine ⟨r', found', ?_, i, q', held', moved.trans failed, ?_⟩
  · rw [evolves.job, stage]
    simpa only [Coordinator.contagious, stage?, setup, step.frame.1] using contagious
  · rw [evolves.job, stage, job]

/-- A job is asked to stop because one of its stage has failed, or because its time is over. -/
theorem Step.stopping (step : Step m m') (apart : (m.coord.records.map (·.job)).Pairwise Job.Apart) {slot : Nat}
    (asked : .cancel slot ∈ m'.coord.requests) :
    .cancel slot ∈ m.coord.requests ∨
      (∃ r', m'.coord.record? slot = some r' ∧ m'.coord.Tripped r'.job.stage) ∨
      ∃ r' deadline rest, m.due = (slot, deadline) :: rest ∧ m'.coord.record? slot = some r' ∧
        r'.status = .failed := by
  have tripped := @tripped_of_asked _ _ _ _ step apart
  cases step with
  | opens _ _ _ _ opened => exact Or.inl ((openStage_ok opened).requests ▸ asked)
  | @takes c _ _ _ _ _ queue _ _ taken =>
    cases takeUp_ok taken with
    | passed => exact Or.inl asked
    | lacked held _ _ failed =>
      obtain ⟨_, _, records, asks⟩ := transition_ok failed held
      exact (tripped (c := { c with ready := queue }) rfl rfl (records.found held) (by simp [aftermath]) (by simp) asks
        asked).imp_right Or.inl
    | launched _ _ _ started =>
      rw [started.requests, List.mem_append, List.mem_singleton] at asked
      exact Or.inl (asked.resolve_right (by simp))
  | delivers => cases asked
  | awaits => exact Or.inl asked
  | collects collected =>
    cases collect_ok collected with
    | dropped => exact Or.inl asked
    | taken held _ returned =>
      exact (tripped rfl rfl (returned.records.found held) (by simp [aftermath]) (by simp) returned.asked
        asked).imp_right Or.inl
  | looks => exact Or.inl asked
  | @expires c c' _ _ _ rest expired =>
    cases expire_ok expired with
    | early => exact Or.inl asked
    | ended => exact Or.inl asked
    | @stopped i deadline r _ held running late =>
      have asks : StopsAsked ({ c with tokens := c.tokens.insert i true }.request (.cancel i)) c'
          fun j => Status.failed = .failed ∧ c.Reached i r j :=
        late.asked.congr fun j q _ => (and_iff_right rfl).symm
      rcases tripped (c := { c with tokens := c.tokens.insert i true }.request (.cancel i)) rfl rfl
        (late.records.found held) (by simp [aftermath]) (by simp) asks asked with before | excused
      · simp only [request, List.mem_append, List.mem_singleton, Request.cancel.injEq] at before
        rcases before with before | rfl
        · exact Or.inl before
        · exact Or.inr (Or.inr ⟨_, deadline, rest, rfl, late.records.found held, by simp [aftermath]⟩)
      · exact Or.inr (Or.inl excused)

theorem Crewed.delivered {terms : Terms ω} (requests : List Request) {w : ω}
    (posted : ∀ posting ∈ roster.postings w,
      terms.assigned m posting.slot posting.worker ∧ (posting.asked = true → terms.excused m posting.slot))
    (launching : ∀ slot worker, .launch slot worker ∈ requests → terms.assigned m slot worker)
    (stopping : ∀ slot, .cancel slot ∈ requests → terms.excused m slot) :
    ∀ posting ∈ roster.postings (requests.foldl World.accept w),
      terms.assigned m posting.slot posting.worker ∧ (posting.asked = true → terms.excused m posting.slot) := by
  induction requests generalizing w with
  | nil => exact posted
  | cons request requests ih =>
    rw [List.foldl_cons]
    apply ih
    · intro posting member
      cases request with
      | launch slot worker =>
        rw [roster.launched, List.mem_append, List.mem_singleton] at member
        rcases member with member | rfl
        · exact posted posting member
        · exact ⟨launching slot worker (by simp), by simp⟩
      | cancel slot =>
        rw [roster.cancelled] at member
        obtain ⟨before, present, rfl⟩ := List.mem_map.1 member
        obtain ⟨assigned, excused⟩ := posted before present
        unfold Posting.ask
        split
        next same => exact ⟨assigned, fun _ => same ▸ stopping slot (by simp)⟩
        next => exact ⟨assigned, excused⟩
    · intro slot worker member
      exact launching slot worker (by simp [member])
    · intro slot member
      exact stopping slot (by simp [member])

/-- The workers that are out after a step were on their terms before it, but for those that the step has asked for. -/
private theorem crewed_before {terms : Terms ω} (performs : roster.Performs manner finds)
    (step : Step m m') (crewed : Crewed terms manner finds roster m) :
    (∀ posting ∈ roster.postings m'.world,
      terms.assigned m posting.slot posting.worker ∧ (posting.asked = true → terms.excused m posting.slot)) ∧
    ∀ slot outcome, (slot, .returned outcome) ∈ m'.arrived → ∃ worker asked, terms.assigned m slot worker ∧
      (asked = true → terms.excused m slot) ∧ worker.Ends manner (finds asked) outcome := by
  obtain ⟨posted, launching, stopping, arrived⟩ := crewed
  cases step with
  | opens => exact ⟨posted, arrived⟩
  | takes => exact ⟨posted, arrived⟩
  | delivers => exact ⟨Crewed.delivered _ posted launching stopping, arrived⟩
  | @awaits c w limit =>
    constructor
    · intro posting member
      rw [roster.remaining] at member
      exact posted posting (List.mem_filter.1 member).1
    · intro slot outcome member
      obtain ⟨posting, present, rfl, ends⟩ := performs w limit slot outcome ((byRank_perm c _).mem_iff.1 member)
      obtain ⟨assigned, excused⟩ := posted posting present
      exact ⟨posting.worker, posting.asked, assigned, excused, ends⟩
  | collects collected =>
    refine ⟨?_, fun slot outcome member => arrived slot outcome (by simp [member])⟩
    cases collect_ok collected with
    | dropped => exact posted
    | taken _ _ returned =>
      rw [roster.postings_stored returned.stored]
      exact posted
  | looks => exact ⟨posted, arrived⟩
  | expires => exact ⟨posted, arrived⟩

/-- A step keeps the workers on their terms, if it keeps the terms of all who are in flight and asks for workers and
stops on these terms. -/
theorem Step.crewed {terms : Terms ω} (performs : roster.Performs manner finds) (step : Step m m')
    (orderly : Orderly g roster m)
    (assigned : ∀ slot worker, slot ∈ m'.coord.inFlight → terms.assigned m slot worker →
      terms.assigned m' slot worker)
    (excused : ∀ slot, terms.excused m slot → terms.excused m' slot)
    (launched : ∀ slot worker, .launch slot worker ∈ m'.coord.requests →
      .launch slot worker ∈ m.coord.requests ∨ terms.assigned m' slot worker)
    (stopped : ∀ slot, .cancel slot ∈ m'.coord.requests →
      .cancel slot ∈ m.coord.requests ∨ terms.excused m' slot)
    (crewed : Crewed terms manner finds roster m) : Crewed terms manner finds roster m' := by
  have staff := step.staffed orderly.sound.single orderly.staffed
  unfold Staffed at staff
  obtain ⟨posted, arrived⟩ := crewed_before performs step crewed
  constructor
  · intro posting member
    have flying : posting.slot ∈ m'.coord.inFlight := by
      rw [staff.mem_iff, List.mem_append, List.mem_append]
      exact Or.inl (Or.inl (List.mem_map_of_mem member))
    obtain ⟨given, free⟩ := posted posting member
    exact ⟨assigned _ _ flying given, fun asked => excused _ (free asked)⟩
  · intro slot worker member
    have flying : slot ∈ m'.coord.inFlight := by
      rw [staff.mem_iff, List.mem_append]
      exact Or.inr (List.mem_filterMap.2 ⟨_, member, rfl⟩)
    rcases launched slot worker member with before | given
    · exact assigned slot worker flying (crewed.launching slot worker before)
    · exact given
  · intro slot member
    rcases stopped slot member with before | free
    · exact excused slot (crewed.stopping slot before)
    · exact free
  · intro slot outcome member
    have flying : slot ∈ m'.coord.inFlight := by
      rw [staff.mem_iff, List.mem_append, List.mem_append]
      exact Or.inl (Or.inr (List.mem_map_of_mem member))
    obtain ⟨worker, asked, given, free, ends⟩ := arrived slot outcome member
    exact ⟨worker, asked, assigned slot worker flying given, fun set => excused slot (free set), ends⟩

end Moment
end Conveyor
