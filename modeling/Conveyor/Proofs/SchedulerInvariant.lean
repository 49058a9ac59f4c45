import Conveyor.Proofs.DistinctKeys
import Conveyor.Proofs.WorldRoster

/-! The invariant of a run whose jobs have different keys. The jobs of a stage are pending until it is opened;
every ready job stands in the queue, every running one is in flight, and the workers of the world are those
of the jobs in flight. So no step of the run can be refused. -/

namespace Conveyor
namespace Coordinator

structure Sound (c : Coordinator) : Prop where
  pending : ∀ i s j r, c.setup.graph.stages[i]? = some s → c.record? j = some r → r.job.stage = s.name →
    (r.status = .pending ↔ i ∉ c.opened)
  queued : ∀ j r, c.record? j = some r → r.status = .ready → j ∈ c.ready
  flying : ∀ j r, c.record? j = some r → r.status = .running → j ∈ c.inFlight
  begun : ∀ j ∈ c.inFlight, ∃ r, c.record? j = some r ∧ ¬ r.Waiting
  single : c.inFlight.Nodup

/-- A job comes to its end, and with it perhaps jobs of its stage that were waiting. -/
def Settles (c c' : Coordinator) (i : Nat) : Prop :=
  ∀ j r', c'.record? j = some r' → ∃ r, c.record? j = some r ∧ r'.job = r.job ∧
    (j ≠ i ∧ r'.status = r.status ∨
      r'.status.isTerminal = true ∧ (j = i ∨ r.Waiting ∧ ∃ q, c.record? i = some q ∧ r.job.stage = q.job.stage))

variable {c c' : Coordinator} {now : Double} {i : Nat} {r : JobRecord}

theorem settles_of_noted {next : Status} {remark : Remark} (note : JobRecord → JobRecord)
    (held : c.record? i = some r) (terminal : next.isTerminal = true) (noted : ∀ q, (note q).job = q.job)
    (records : Rewritten c c' fun j q => c.aftermath now i r next remark j (if j = i then note q else q)) :
    Settles c c' i := by
  intro j r' found'
  obtain ⟨q, found, rfl⟩ := Option.map_eq_some_iff.1 ((records j).symm.trans found')
  refine ⟨q, found, ?_, ?_⟩
  · rw [aftermath_job]
    split
    · exact noted q
    · rfl
  · by_cases here : j = i
    · exact Or.inr ⟨by simp [aftermath, here, terminal], Or.inl here⟩
    · simp only [aftermath, here, if_false]
      split
      next reached =>
        by_cases waiting : q.Waiting
        · refine Or.inr ⟨?_, Or.inr ⟨waiting, r, held, reached.2.2⟩⟩
          rw [JobRecord.stopped_of_waiting waiting]
          rfl
        · exact Or.inl ⟨here, by rw [JobRecord.stopped_of_begun waiting]⟩
      next => exact Or.inl ⟨here, rfl⟩

theorem settles_of_aftermath {next : Status} {remark : Remark} (held : c.record? i = some r)
    (terminal : next.isTerminal = true) (records : Rewritten c c' (c.aftermath now i r next remark)) :
    Settles c c' i := by
  apply settles_of_noted id held terminal (fun _ => rfl)
  apply records.congr
  intro j q _
  rw [id, ite_self]

/-- The end of a job that was ready or running keeps the state of the jobs in agreement with the queues. -/
theorem Sound.settles (sound : c.Sound)
    (home : ∀ j q, c.record? j = some q → ∃ (k : Nat) (s : Stage), c.setup.graph.stages[k]? = some s ∧ q.job.stage = s.name)
    (held : c.record? i = some r) (active : r.status ≠ .pending) (settles : Settles c c' i)
    (records : ∀ j q, c.record? j = some q → ∃ q', c'.record? j = some q') (setup : c'.setup = c.setup)
    (opened : c'.opened = c.opened) (ready : ∀ j ∈ c.ready, j ≠ i → j ∈ c'.ready)
    (inFlight : ∀ j ∈ c.inFlight, j ≠ i → j ∈ c'.inFlight) (fewer : c'.inFlight.Sublist c.inFlight) : c'.Sound := by
  -- A job of the stage of an active one is not pending, for its stage is open.
  have awake {j : Nat} {q : JobRecord} (found : c.record? j = some q) (same : q.job.stage = r.job.stage) :
      q.status ≠ .pending := by
    obtain ⟨k, s, stage, named⟩ := home i r held
    rw [Ne, sound.pending k s j q stage found (same.trans named), ← sound.pending k s i r stage held named]
    exact active
  refine ⟨?_, ?_, ?_, ?_, sound.single.sublist fewer⟩
  · intro k s j q' stage found' named
    obtain ⟨q, found, job, fate⟩ := settles j q' found'
    rw [setup] at stage
    rw [job] at named
    rw [opened, ← sound.pending k s j q stage found named]
    rcases fate with ⟨_, status⟩ | ⟨terminal, reason⟩
    · rw [status]
    · have later : q'.status ≠ .pending := by
        intro pending
        simp [pending, Status.isTerminal] at terminal
      have before : q.status ≠ .pending := by
        rcases reason with rfl | ⟨_, other, held', same⟩
        · cases found.symm.trans held
          exact active
        · cases held'.symm.trans held
          exact awake found same
      simp [later, before]
  · intro j q' found' status
    obtain ⟨q, found, _, ⟨other, same⟩ | ⟨terminal, _⟩⟩ := settles j q' found'
    · exact ready j (sound.queued j q found (same ▸ status)) other
    · simp [status, Status.isTerminal] at terminal
  · intro j q' found' status
    obtain ⟨q, found, _, ⟨other, same⟩ | ⟨terminal, _⟩⟩ := settles j q' found'
    · exact inFlight j (sound.flying j q found (same ▸ status)) other
    · simp [status, Status.isTerminal] at terminal
  · intro j member
    obtain ⟨q, found, begun⟩ := sound.begun j (fewer.subset member)
    obtain ⟨q', found'⟩ := records j q found
    obtain ⟨_, again, _, fate⟩ := settles j q' found'
    cases found.symm.trans again
    refine ⟨q', found', ?_⟩
    rcases fate with ⟨_, status⟩ | ⟨terminal, _⟩
    · simpa [JobRecord.Waiting, status] using begun
    · rintro (status | status) <;> simp [status, Status.isTerminal] at terminal

/-- The opening of a stage keeps the state of the jobs in agreement with the queues. -/
theorem Opened.sound {s : Stage} {outcomes : List (String × Status × Option SkipReason)} (sound : c.Sound)
    (ordered : c.setup.graph.Ordered) (distinct : (c.records.map (·.job)).Pairwise Job.Apart)
    (stage : c.setup.graph.stages[i]? = some s) (opened : Opened c c' now i s (c.opening s outcomes)) : c'.Sound := by
  have source {j : Nat} {r' : JobRecord} (found' : c'.record? j = some r') :
      ∃ r, c.record? j = some r ∧ r'.job = r.job ∧
        (r.job.stage = s.name ∧ r'.status = (c.opening s outcomes).1 ∨ r.job.stage ≠ s.name ∧ r' = r) := by
    obtain ⟨r, found, rfl⟩ := Option.map_eq_some_iff.1 ((opened.records j).symm.trans found')
    by_cases member : r.job.stage = s.name
    · exact ⟨r, found, by simp [member], Or.inl ⟨member, by simp [member]⟩⟩
    · exact ⟨r, found, by simp [member], Or.inr ⟨member, by simp [member]⟩⟩
  have change := c.opening_cases s outcomes
  refine ⟨?_, ?_, ?_, ?_, by rw [opened.inFlight]; exact sound.single⟩
  · intro k t j r' place found' named
    rw [opened.setup] at place
    obtain ⟨r, found, job, ⟨member, status⟩ | ⟨stranger, rfl⟩⟩ := source found'
    · cases ordered.unique place stage (named.symm.trans (job ▸ member))
      rw [opened.opened, status]
      rcases change with ready | skipped
      · simp [ready]
      · simp [skipped]
    · have other : k ≠ i := by
        rintro rfl
        cases place.symm.trans stage
        exact stranger named
      rw [sound.pending k t j r' place found named, opened.opened]
      simp [other]
  · intro j r' found' status
    rw [opened.ready]
    obtain ⟨r, found, _, ⟨member, next⟩ | ⟨_, rfl⟩⟩ := source found'
    · rw [if_pos (next.symm.trans status)]
      refine List.mem_append.2 (Or.inr (List.mem_map.2 ⟨j, mem_members.2 ⟨r, found, member⟩, slot_eq distinct j⟩))
    · exact List.mem_append.2 (Or.inl (sound.queued j r' found status))
  · intro j r' found' status
    rw [opened.inFlight]
    obtain ⟨r, found, _, ⟨_, next⟩ | ⟨_, rfl⟩⟩ := source found'
    · rw [status] at next
      rcases change with ready | skipped
      · simp [← next] at ready
      · simp [← next] at skipped
    · exact sound.flying j r' found status
  · intro j member
    rw [opened.inFlight] at member
    obtain ⟨r, found, begun⟩ := sound.begun j member
    refine ⟨_, opened.records.found found, ?_⟩
    have stranger : r.job.stage ≠ s.name := by
      intro inside
      have legal := opened.legal j r found inside
      rcases change with ready | skipped
      · rw [ready] at legal
        cases status : r.status <;> simp_all [JobRecord.Waiting, Status.mayBecome, Status.successors]
      · rw [skipped] at legal
        cases status : r.status <;> simp_all [JobRecord.Waiting, Status.mayBecome, Status.successors]
    simpa [stranger] using begun

/-- The start of the first job in the queue keeps the state of the jobs in agreement with the queues. -/
theorem Launched.sound {queue : List Nat} {inputs : Inputs} (sound : c.Sound) (head : c.ready = i :: queue)
    (held : c.record? i = some r) (ready : r.status = .ready)
    (started : Launched { c with ready := queue } c' now i r.job inputs) : c'.Sound := by
  have source {j : Nat} {q' : JobRecord} (found' : c'.record? j = some q') :
      j = i ∧ q'.status = .running ∧ q'.job = r.job ∨ j ≠ i ∧ c.record? j = some q' := by
    obtain ⟨q, found, rfl⟩ := Option.map_eq_some_iff.1 ((started.records j).symm.trans found')
    by_cases here : j = i
    · subst here
      cases found.symm.trans held
      exact Or.inl ⟨rfl, by simp, by simp⟩
    · exact Or.inr ⟨here, by simpa [here, record?] using found⟩
  have fresh : i ∉ c.inFlight := by
    intro member
    obtain ⟨q, found, begun⟩ := sound.begun i member
    cases found.symm.trans held
    exact begun (Or.inr ready)
  refine ⟨?_, ?_, ?_, ?_, ?_⟩
  · intro k s j q' stage found' named
    rw [started.setup] at stage
    rw [started.opened]
    rcases source found' with ⟨rfl, status, job⟩ | ⟨_, found⟩
    · rw [← sound.pending k s j r stage held (job ▸ named), status, ready]
      simp
    · exact sound.pending k s j q' stage found named
  · intro j q' found' status
    rw [started.ready]
    rcases source found' with ⟨_, running, _⟩ | ⟨other, found⟩
    · simp [running] at status
    · have member := sound.queued j q' found status
      rw [head] at member
      exact (List.mem_cons.1 member).resolve_left other
  · intro j q' found' status
    rw [started.inFlight]
    rcases source found' with ⟨rfl, _, _⟩ | ⟨_, found⟩
    · simp
    · exact List.mem_append.2 (Or.inl (sound.flying j q' found status))
  · intro j member
    rw [started.inFlight] at member
    rcases List.mem_append.1 member with member | member
    · obtain ⟨q, found, begun⟩ := sound.begun j member
      refine ⟨_, started.records.found found, ?_⟩
      have other : j ≠ i := fun same => fresh (same ▸ member)
      simpa [other] using begun
    · cases List.mem_singleton.1 member
      exact ⟨_, started.records.found held, by simp [JobRecord.Waiting]⟩
  · rw [started.inFlight, List.nodup_append]
    exact ⟨sound.single, List.nodup_singleton i, by rintro j member k here rfl; simp_all⟩

theorem byRank_perm {α : Type} (c : Coordinator) (items : List (Nat × α)) : (c.byRank items).Perm items := by
  unfold byRank
  refine ((List.mergeSort_perm _ _).map _).trans ?_
  simp [List.map_map, Function.comp_def]

theorem StopsAsked.launches {among : Nat → Prop} (asked : StopsAsked c c' among) :
    launches c'.requests = launches c.requests := by
  obtain ⟨slots, requests, _⟩ := asked.requests
  rw [requests, launches_append, launches_cancels, List.append_nil]

end Coordinator

namespace Moment

open Coordinator

variable {ω : Type} {g : RunGraph} {m m' : Moment ω}

theorem Runs.home (runs : Runs g m) (populated : g.Populated) {j : Nat} {r : JobRecord}
    (found : m.coord.record? j = some r) :
    ∃ (k : Nat) (s : Stage), m.coord.setup.graph.stages[k]? = some s ∧ r.job.stage = s.name := by
  obtain ⟨k, s, _, stage, _, named⟩ := populated.home (runs.job found)
  exact ⟨k, s, by rw [runs.graph]; exact stage, named⟩

theorem sound_start (setup : Setup) (g : RunGraph) (w : ω) : (Operation.start setup g w).moment.coord.Sound := by
  refine ⟨?_, ?_, ?_, fun j member => (List.not_mem_nil member).elim, List.nodup_nil⟩
  · intro i s j r _ found _
    simp [Operation.start_pending found, Operation.moment, Operation.start, Coordinator.start]
  · intro j r found status
    simp [Operation.start_pending found] at status
  · intro j r found status
    simp [Operation.start_pending found] at status

variable [World ω]

theorem Step.sound (step : Step m m') (runs : Runs g m) (populated : g.Populated) (distinct : g.DistinctKeys)
    (sound : m.coord.Sound) : m'.coord.Sound := by
  have apart := runs.apart distinct
  have ordered : m.coord.setup.graph.Ordered := runs.graph ▸ populated.ordered
  have home := fun j q (found : m.coord.record? j = some q) => runs.home populated found
  cases step with
  | opens _ _ stage _ opened => exact Opened.sound sound ordered apart stage (openStage_ok opened)
  | @takes c c' w now i count queue head free taken =>
    cases takeUp_ok taken with
    | passed idle =>
      refine ⟨sound.pending, ?_, sound.flying, sound.begun, sound.single⟩
      intro j r found status
      have member := sound.queued j r found status
      rw [head] at member
      rcases List.mem_cons.1 member with rfl | member
      · exact (idle r found status).elim
      · exact member
    | lacked held ready _ failed =>
      obtain ⟨_, quiet, records, _⟩ := transition_ok failed held
      have settles : Settles c c' i := settles_of_aftermath held rfl records
      refine sound.settles home held (by simp [ready]) settles (fun j q found => ⟨_, records.found found⟩) quiet.setup
        quiet.opened ?_ (fun j member _ => by rw [quiet.inFlight]; exact member) (by rw [quiet.inFlight])
      intro j member other
      rw [quiet.ready]
      rw [head] at member
      exact (List.mem_cons.1 member).resolve_left other
    | launched held ready _ started => exact Launched.sound sound head held ready started
  | delivers => exact ⟨sound.pending, sound.queued, sound.flying, sound.begun, sound.single⟩
  | awaits => exact ⟨sound.pending, sound.queued, sound.flying, sound.begun, sound.single⟩
  | @collects c c' w w' now finished rest collected =>
    cases collect_ok collected with
    | @dropped i outcome idle =>
      refine ⟨sound.pending, sound.queued, ?_, ?_, sound.single.filter _⟩
      · intro j r found status
        have other : j ≠ i := by
          rintro rfl
          exact idle r found status
        exact List.mem_filter.2 ⟨sound.flying j r found status, by simpa using other⟩
      · intro j member
        exact sound.begun j (List.mem_filter.1 member).1
    | @taken i outcome r _ _ taken left entries fault held running returned =>
      have settles : Settles c c' i := settles_of_noted
        (fun q => { q with steps := outcome.steps, artifacts := q.artifacts ++ taken.map Prod.fst }) held
        (outcome.ending_terminal fault) (fun _ => rfl) returned.records
      refine sound.settles home held (by simp [running]) settles (fun j q found => ⟨_, returned.records.found found⟩)
        returned.setup returned.opened (fun j member _ => by rw [returned.ready]; exact member) ?_ ?_
      · intro j member other
        rw [returned.inFlight]
        exact List.mem_filter.2 ⟨member, by simpa using other⟩
      · rw [returned.inFlight]
        exact List.filter_sublist
  | looks => exact sound
  | @expires c c' w now entry rest expired =>
    cases expire_ok expired with
    | early => exact sound
    | ended => exact ⟨sound.pending, sound.queued, sound.flying, sound.begun, sound.single⟩
    | @stopped i deadline r _ held running late =>
      have settles : Settles c c' i := settles_of_aftermath held rfl late.records
      exact sound.settles home held (by simp [running]) settles (fun j q found => ⟨_, late.records.found found⟩)
        late.setup late.opened (fun j member _ => by rw [late.ready]; exact member)
        (fun j member _ => by rw [late.inFlight]; exact member) (by rw [late.inFlight])

/-- The workers of the world, those that have come back and those that are about to start are the workers of the
jobs in flight. -/
def Staffed (roster : Roster ω) (m : Moment ω) : Prop :=
  m.coord.inFlight.Perm (roster.slots m.world ++ m.arrived.map Prod.fst ++ launches m.coord.requests)

theorem staffed_start (roster : Roster ω) (setup : Setup) (g : RunGraph) {w : ω} (vacant : roster.postings w = []) :
    Staffed roster (Operation.start setup g w).moment := by
  simp [Staffed, Operation.moment, Operation.start, Coordinator.start, Roster.slots, vacant, launches]

private theorem filter_perm {landed : Nat} {flying staff rest : List Nat} (single : flying.Nodup)
    (all : flying.Perm (staff ++ landed :: rest)) : (flying.filter (· ≠ landed)).Perm (staff ++ rest) := by
  have distinct := all.nodup_iff.1 single
  have apart : landed ∉ staff ++ rest := by
    have moved := (List.perm_middle : (staff ++ landed :: rest).Perm (landed :: (staff ++ rest))).nodup_iff.1 distinct
    exact (List.nodup_cons.1 moved).1
  refine (all.filter _).trans ?_
  rw [List.filter_append, List.filter_cons_of_neg (by simp), ← List.filter_append, List.filter_eq_self.2]
  intro j member
  have other : j ≠ landed := fun same => apart (same ▸ member)
  simpa using other

theorem Step.staffed {roster : Roster ω} (step : Step m m') (single : m.coord.inFlight.Nodup)
    (staffed : Staffed roster m) : Staffed roster m' := by
  unfold Staffed at staffed ⊢
  cases step with
  | opens _ _ _ _ opened =>
    have opened := openStage_ok opened
    rw [opened.inFlight, opened.requests]
    exact staffed
  | takes _ _ taken =>
    cases takeUp_ok taken with
    | passed => exact staffed
    | lacked held _ _ failed =>
      obtain ⟨_, quiet, _, asked⟩ := transition_ok failed held
      rw [quiet.inFlight, asked.launches]
      exact staffed
    | launched _ _ _ started =>
      rw [started.inFlight, started.requests, launches_append, ← List.append_assoc]
      exact staffed.append_right _
  | @delivers c w =>
    have delivered := roster.slots_delivered c.requests w
    simpa [delivered, launches] using staffed
  | @awaits c w limit delivered _ =>
    have present : c.inFlight.Perm (roster.slots w) := by simpa [delivered, launches] using staffed
    have distinct := present.nodup_iff.1 single
    simp only [delivered, launches, List.filterMap_nil, List.append_nil]
    have arrivals := (byRank_perm c (World.await w limit).finished).map Prod.fst
    exact present.trans ((roster.slots_awaited w limit distinct).symm.trans (arrivals.symm.append_left _))
  | @collects c c' w w' now finished rest collected =>
    have landed : (c.inFlight.filter (· ≠ finished.1)).Perm
        (roster.slots w ++ rest.map Prod.fst ++ launches c.requests) := by
      rw [List.append_assoc]
      exact filter_perm single (by simpa using staffed)
    cases collect_ok collected with
    | dropped => exact landed
    | taken _ _ taken =>
      have same : roster.slots w' = roster.slots w := by
        rw [Roster.slots, Roster.slots, roster.postings_stored taken.stored]
      rw [taken.inFlight, taken.asked.launches, same]
      exact landed
  | looks => exact staffed
  | expires expired =>
    cases expire_ok expired with
    | early => exact staffed
    | ended => exact staffed
    | @stopped i _ _ _ _ _ late =>
      rw [late.inFlight, late.asked.launches]
      simpa [request, launches] using staffed

structure Orderly (g : RunGraph) (roster : Roster ω) (m : Moment ω) : Prop where
  runs : Runs g m
  sound : m.coord.Sound
  staffed : Staffed roster m

theorem orderly_start {setup : Setup} {g : RunGraph} (graph : setup.graph = g.graph) (roster : Roster ω) {w : ω}
    (vacant : roster.postings w = []) : Orderly g roster (Operation.start setup g w).moment :=
  ⟨.start graph w, sound_start setup g w, staffed_start roster setup g vacant⟩

theorem Orderly.step {roster : Roster ω} (orderly : Orderly g roster m) (populated : g.Populated)
    (distinct : g.DistinctKeys) (step : Step m m') : Orderly g roster m' :=
  ⟨orderly.runs.step step, step.sound orderly.runs populated distinct orderly.sound,
    step.staffed orderly.sound.single orderly.staffed⟩

theorem Path.orderly {roster : Roster ω} (path : Path m m') (populated : g.Populated) (distinct : g.DistinctKeys)
    (orderly : Orderly g roster m) : Orderly g roster m' :=
  path.preserves (Orderly g roster) (fun _ _ step orderly => orderly.step populated distinct step) orderly

end Moment

theorem Operation.flying_iff_posted {ω : Type} [World ω] {o : Operation ω} {roster : Roster ω}
    (staffed : Moment.Staffed roster o.moment) (delivered : o.coord.requests = []) {i : Nat} :
    i ∈ o.coord.inFlight ↔ ∃ posting ∈ roster.postings o.world, posting.slot = i := by
  have staff : o.coord.inFlight.Perm (roster.slots o.world) := by
    simpa [Moment.Staffed, Operation.moment, launches, delivered] using staffed
  rw [staff.mem_iff, Roster.slots, List.mem_map]

end Conveyor
