import Conveyor.Proofs.CrewInvariant

/-! Stages that stop at their first failure. The job that fails, wherever it does so, takes those of its stage that have
not begun with it and asks the others to stop; nothing reaches another stage. Conversely nobody is cancelled for any
other reason, as long as executors say that they were cancelled only if they have been asked to stop. -/

namespace Conveyor

theorem JobRecord.Evolves.begun {r r' : JobRecord} (evolves : r.Evolves r') (begun : ¬ r.Waiting) :
    r'.startedAt = r.startedAt ∧ (r'.status = .running → r.status = .running) := by
  induction evolves with
  | refl => exact ⟨rfl, id⟩
  | @tail q q' first change ih =>
    have later : ¬ q.Waiting := fun waiting => begun (JobRecord.Evolves.waiting first waiting)
    cases change with
    | moves legal =>
      refine ⟨ih.1, fun running => ?_⟩
      rw [JobRecord.moved_status] at running
      subst running
      cases status : q.status <;> simp_all [JobRecord.Waiting, Status.mayBecome, Status.successors]
    | starts ready => exact (later (Or.inr ready)).elim
    | notes => exact ih

namespace Coordinator

theorem aftermath_failed {c : Coordinator} {now : Double} {i j : Nat} {r q : JobRecord} {next : Status} {remark : Remark}
    (elsewhere : j ≠ i) (failed : (c.aftermath now i r next remark j q).status = .failed) : q.status = .failed := by
  rw [aftermath, if_neg elsewhere] at failed
  split at failed
  · by_cases waiting : q.Waiting
    · rw [JobRecord.stopped_of_waiting waiting] at failed
      cases failed
    · rwa [JobRecord.stopped_of_begun waiting] at failed
  · exact failed

/-- What the failure of a job does to the others: those of its stage are stopped if the stage asks for it. -/
structure Strikes (c c' : Coordinator) (i : Nat) (r : JobRecord) : Prop where
  records : ∃ now, ∀ j q, j ≠ i → c.record? j = some q → c'.record? j =
    some (if c.contagious r ∧ q.job.stage = r.job.stage then q.stopped now r.job.id else q)
  set : ∀ j q, c.Reached i r j → c.record? j = some q → q.status = .running →
    c'.tokens.get? j = (c.tokens.get? j).map fun _ => true
  others : ∀ j, j ≠ i → ¬ c.Reached i r j → c'.tokens.get? j = c.tokens.get? j

-- The failed job may have had its own token set just before, so the requests start from another state.
private theorem strikes_of_asked {c c' : Coordinator} (base : Coordinator)
    (apart : (c.records.map (·.job)).Pairwise Job.Apart) (records : base.records = c.records) {now : Double} {i : Nat}
    {r : JobRecord} {remark : Remark} (tokens : ∀ j, j ≠ i → base.tokens.get? j = c.tokens.get? j)
    (moved : ∀ j q, j ≠ i → c.record? j = some q → c'.record? j = some (c.aftermath now i r .failed remark j q))
    (asked : StopsAsked base c' (c.Reached i r)) : c.Strikes c' i r := by
  have slot (j : Nat) : base.slot j = j := slot_eq (by rw [records]; exact apart) j
  have found (j : Nat) : base.record? j = c.record? j := by rw [record?, record?, records]
  refine ⟨⟨now, ?_⟩, ?_, ?_⟩
  · intro j q other held
    rw [moved j q other held, aftermath, if_neg other]
    simp only [true_and]
  · intro j q reached held running
    have set := asked.set j q reached ((found j).trans held) running
    rwa [slot, tokens j reached.2.1] at set
  · intro j other unreached
    rw [← tokens j other]
    apply asked.others
    intro k q reached _ _ same
    rw [slot] at same
    exact unreached (same ▸ reached)

end Coordinator

namespace Moment

open Coordinator

variable {ω : Type} [World ω] {m m' : Moment ω} {g : RunGraph} {roster : Roster ω}

/-- A job may fail when it is taken up, when its worker is taken in or when its time is over, and each time the same
follows for the others. -/
theorem Step.strikes (step : Step m m') (apart : (m.coord.records.map (·.job)).Pairwise Job.Apart) {i : Nat}
    {r r' : JobRecord} (found : m.coord.record? i = some r) (found' : m'.coord.record? i = some r')
    (before : r.status ≠ .failed) (after : r'.status = .failed) : m.coord.Strikes m'.coord i r := by
  have unmoved (same : m'.coord.record? i = m.coord.record? i) : False := by
    cases found'.symm.trans (same.trans found)
    exact before after
  cases step with
  | opens _ _ _ _ opened =>
    cases found'.symm.trans ((openStage_ok opened).records.found found)
    split at after
    · rcases Coordinator.opening_cases _ _ _ with change | change
      all_goals
        rw [JobRecord.moved_status, change] at after
        cases after
    · exact (before after).elim
  | @takes c _ _ _ k _ queue _ _ taken =>
    cases takeUp_ok taken with
    | passed => exact (unmoved rfl).elim
    | @lacked q missing _ held _ _ failed =>
      obtain ⟨_, _, records, asked⟩ := transition_ok failed held
      cases found'.symm.trans (records.found found)
      by_cases here : i = k
      · subst here
        cases held.symm.trans found
        exact strikes_of_asked { c with ready := queue } apart rfl (fun _ _ => rfl)
          (fun j q _ held => records.found held) (asked.congr fun j q _ => and_iff_right rfl)
      · exact (before (aftermath_failed here after)).elim
    | launched held _ _ started =>
      cases found'.symm.trans (started.records.found found)
      split at after
      · cases after
      · exact (before after).elim
  | delivers => exact (unmoved rfl).elim
  | awaits => exact (unmoved rfl).elim
  | @collects c c' _ _ now _ _ collected =>
    cases collect_ok collected with
    | dropped => exact (unmoved rfl).elim
    | @taken k outcome q _ _ _ _ _ fault held _ returned =>
      cases found'.symm.trans (returned.records.found found)
      by_cases here : i = k
      · subst here
        cases held.symm.trans found
        have ending : (outcome.ending fault).1 = .failed := by simpa [aftermath] using after
        have records (j : Nat) (q : JobRecord) (other : j ≠ i) (held : c.record? j = some q) :
            c'.record? j = some (c.aftermath now i r .failed (outcome.ending fault).2 j q) := by
          have moved := returned.records.found held
          rwa [if_neg other, ending] at moved
        exact strikes_of_asked c apart rfl (fun _ _ => rfl) records
          (returned.asked.congr fun j q _ => and_iff_right ending)
      · rw [if_neg here] at after
        exact (before (aftermath_failed here after)).elim
  | looks => exact (unmoved rfl).elim
  | @expires c _ _ _ _ _ expired =>
    cases expire_ok expired with
    | early => exact (unmoved rfl).elim
    | ended => exact (unmoved rfl).elim
    | @stopped k _ q _ held _ late =>
      cases found'.symm.trans (late.records.found found)
      by_cases here : i = k
      · subst here
        cases held.symm.trans found
        apply strikes_of_asked ({ c with tokens := c.tokens.insert i true }.request (.cancel i)) apart rfl _
          (fun j q _ held => late.records.found held) late.asked
        intro j other
        simp [request, Table.get?_insert, Key.same, Ne.symm other]
      · exact (before (aftermath_failed here after)).elim

/-- In a step in which no job fails the token of a running job changes only with its start. -/
theorem Step.tokens (step : Step m m') :
    (∃ i r r', m.coord.record? i = some r ∧ m'.coord.record? i = some r' ∧ r.status ≠ .failed ∧
        r'.status = .failed) ∨
      ∀ j r r', m.coord.record? j = some r → m'.coord.record? j = some r' → r'.status = .running →
        r.status = .ready ∧ m'.coord.tokens.get? j = some false ∨
        r.status = .running ∧ m'.coord.tokens.get? j = m.coord.tokens.get? j := by
  have still (records : m'.coord.records = m.coord.records)
      (tokens : m'.coord.tokens = m.coord.tokens) (j : Nat) (r r' : JobRecord)
      (found : m.coord.record? j = some r) (found' : m'.coord.record? j = some r')
      (running : r'.status = .running) :
      r.status = .ready ∧ m'.coord.tokens.get? j = some false ∨
        r.status = .running ∧ m'.coord.tokens.get? j = m.coord.tokens.get? j := by
    rw [record?, records] at found'
    cases found'.symm.trans found
    exact Or.inr ⟨running, by rw [tokens]⟩
  cases step with
  | opens _ _ _ _ opened =>
    right
    intro j r r' found found' running
    have opened := openStage_ok opened
    cases found'.symm.trans (opened.records.found found)
    split at running
    · rcases Coordinator.opening_cases _ _ _ with change | change
      all_goals
        rw [JobRecord.moved_status, change] at running
        cases running
    · exact Or.inr ⟨running, opened.tokens j⟩
  | takes _ _ taken =>
    cases takeUp_ok taken with
    | passed => exact Or.inr (still rfl rfl)
    | lacked held ready _ failed =>
      obtain ⟨_, _, records, _⟩ := transition_ok failed held
      exact Or.inl ⟨_, _, _, held, records.found held, by simp [ready], by simp [aftermath]⟩
    | @launched _ _ _ held ready _ started =>
      right
      intro j r r' found found' running
      cases found'.symm.trans (started.records.found found)
      rw [started.tokens]
      split at running
      next here =>
        subst here
        cases held.symm.trans found
        exact Or.inl ⟨ready, if_pos rfl⟩
      next other => exact Or.inr ⟨running, if_neg other⟩
  | delivers => exact Or.inr (still rfl rfl)
  | awaits => exact Or.inr (still rfl rfl)
  | collects collected =>
    cases collect_ok collected with
    | dropped => exact Or.inr (still rfl rfl)
    | @taken i outcome q _ _ _ _ _ fault held running returned =>
      by_cases failed : (outcome.ending fault).1 = .failed
      · exact Or.inl ⟨_, _, _, held, returned.records.found held, by simp [running], by simp [aftermath, failed]⟩
      · right
        intro j r r' found found' running
        cases found'.symm.trans (returned.records.found found)
        have other : j ≠ i := by
          rintro rfl
          have ended := outcome.ending_terminal fault
          simp only [aftermath, if_true, JobRecord.moved_status] at running
          rw [running] at ended
          cases ended
        simp only [aftermath, other, if_false, failed, false_and] at running
        exact Or.inr ⟨running, (returned.asked.quiet fun j reached => failed reached.1).2 j⟩
  | looks => exact Or.inr (still rfl rfl)
  | expires expired =>
    cases expire_ok expired with
    | early => exact Or.inr (still rfl rfl)
    | ended => exact Or.inr (still rfl rfl)
    | stopped held running late =>
      exact Or.inl ⟨_, _, _, held, late.records.found held, by simp [running], by simp [aftermath]⟩

theorem Step.token (step : Step m m') (apart : (m.coord.records.map (·.job)).Pairwise Job.Apart) {j : Nat}
    {r r' : JobRecord} (found : m.coord.record? j = some r) (found' : m'.coord.record? j = some r')
    (running : r'.status = .running) :
    r.status = .ready ∧ m'.coord.tokens.get? j = some false ∨
      r.status = .running ∧ (m'.coord.tokens.get? j = m.coord.tokens.get? j ∨
        m'.coord.tokens.get? j = (m.coord.tokens.get? j).map fun _ => true) := by
  rcases step.tokens with ⟨i, q, q', held, held', before, after⟩ | calm
  · have strikes := step.strikes apart held held' before after
    have other : j ≠ i := by
      rintro rfl
      cases found'.symm.trans held'
      cases after.symm.trans running
    obtain ⟨now, moved⟩ := strikes.records
    cases found'.symm.trans (moved j r other found)
    have same : r.status = .running := by
      split at running
      · by_cases waiting : r.Waiting
        · rw [JobRecord.stopped_of_waiting waiting] at running
          cases running
        · rwa [JobRecord.stopped_of_begun waiting] at running
      · exact running
    refine Or.inr ⟨same, ?_⟩
    by_cases reached : m.coord.Reached i q j
    · exact Or.inr (strikes.set j r reached found same)
    · exact Or.inl (strikes.others j other reached)
  · exact (calm j r r' found found' running).imp_right fun ⟨same, token⟩ => ⟨same, Or.inl token⟩

/-- Every running job has a token, and in a stage that has tripped no job waits and every running one has been asked to
stop. -/
structure Alert (m : Moment ω) : Prop where
  tokened : ∀ j r, m.coord.record? j = some r → r.status = .running →
    ∃ set, m.coord.tokens.get? j = some set
  swept : ∀ j r, m.coord.record? j = some r → m.coord.Tripped r.job.stage →
    ¬ r.Waiting ∧ (r.status = .running → m.coord.tokens.get? j = some true)

theorem Step.alert (step : Step m m') (apart : (m.coord.records.map (·.job)).Pairwise Job.Apart) (alert : Alert m) :
    Alert m' := by
  constructor
  · intro j r' found' running
    obtain ⟨r, found, _⟩ := step.evolved.source found'
    rcases step.token apart found found' running with ⟨_, token⟩ | ⟨before, token⟩
    · exact ⟨false, token⟩
    · obtain ⟨set, had⟩ := alert.tokened j r found before
      rcases token with token | token
      · exact ⟨set, token.trans had⟩
      · exact ⟨true, by rw [token, had]; rfl⟩
  · rintro j r' found' ⟨asks, k, q', held', failed, member⟩
    obtain ⟨r, found, evolves⟩ := step.evolved.source found'
    obtain ⟨q, held, onward⟩ := step.evolved.source held'
    rw [evolves.job, stage?, step.frame.1] at asks
    rw [evolves.job, onward.job] at member
    by_cases earlier : q.status = .failed
    · -- The stage had tripped before, so the job does not wait, and its token stays set.
      obtain ⟨begun, set⟩ := alert.swept j r found ⟨asks, k, q, held, earlier, member⟩
      refine ⟨fun waiting => begun (evolves.waiting waiting), fun running => ?_⟩
      rcases step.token apart found found' running with ⟨ready, _⟩ | ⟨before, token⟩
      · exact (begun (Or.inr ready)).elim
      · rcases token with token | token
        · exact token.trans (set before)
        · rw [token, set before]
          rfl
    · have strikes := step.strikes apart held held' earlier failed
      by_cases here : j = k
      · subst here
        cases held'.symm.trans found'
        exact ⟨by simp [JobRecord.Waiting, failed], fun running => by cases failed.symm.trans running⟩
      · obtain ⟨now, moved⟩ := strikes.records
        have contagious : m.coord.contagious q = true := by
          rw [Coordinator.contagious, member]
          exact asks
        cases found'.symm.trans (moved j r here found)
        rw [if_pos ⟨contagious, member.symm⟩]
        by_cases waiting : r.Waiting
        · rw [JobRecord.stopped_of_waiting waiting]
          exact ⟨by simp [JobRecord.Waiting], fun running => by cases running⟩
        · rw [JobRecord.stopped_of_begun waiting]
          refine ⟨waiting, fun running => ?_⟩
          obtain ⟨set, had⟩ := alert.tokened j r found running
          rw [strikes.set j r ⟨contagious, here, r, found, member.symm⟩ found running, had]
          rfl

def staff (roster : Roster ω) (m : Moment ω) : List Posting :=
  roster.postings (m.coord.requests.foldl World.accept m.world)

def Heeded (roster : Roster ω) (m : Moment ω) : Prop :=
  ∀ posting ∈ m.staff roster, m.coord.tokens.get? posting.slot = some true → posting.asked = true

private theorem heeded_of_asked {base : Coordinator} {w w' : ω} {c' : Coordinator} {among : Nat → Prop}
    {arrived : List (Nat × Completion)} {due : List (Nat × Deadline)} (asked : StopsAsked base c' among)
    (same : roster.postings w' = roster.postings w) (heeded : Heeded roster ⟨base, w, [], []⟩) :
    Heeded roster ⟨c', w', arrived, due⟩ := by
  intro posting member set
  obtain ⟨slots, requests, _, told⟩ := asked.requests
  rw [staff, roster.postings_delivered, requests, List.foldl_append, same, ← roster.postings_delivered] at member
  obtain ⟨before, present, slot, reason⟩ := Roster.mem_cancels member
  apply reason
  rw [slot] at set
  -- A token that is set now was set before, or has been set with a request.
  change c'.tokens.get? before.slot = some true at set
  cases had : base.tokens.get? before.slot with
  | none =>
    rcases asked.token before.slot with token | token
    all_goals
      rw [token, had] at set
      cases set
  | some old =>
    cases old with
    | true => exact Or.inl (heeded before present had)
    | false => exact Or.inr (told before.slot had set)

theorem Step.heeded (step : Step m m') (heeded : Heeded roster m) : Heeded roster m' := by
  cases step with
  | opens _ _ _ _ opened =>
    intro posting member set
    have opened := openStage_ok opened
    rw [opened.tokens] at set
    rw [staff, opened.requests] at member
    exact heeded posting member set
  | @takes c _ _ _ i _ queue _ _ taken =>
    cases takeUp_ok taken with
    | passed => exact heeded
    | lacked held _ _ failed => exact heeded_of_asked (transition_ok failed held).2.2.2 rfl heeded
    | launched _ _ _ started =>
      intro posting member set
      rw [staff, started.requests, List.foldl_append, List.foldl_cons, List.foldl_nil, roster.launched,
        List.mem_append, List.mem_singleton] at member
      rw [started.tokens] at set
      split at set
      next => cases set
      next other =>
        rcases member with member | rfl
        · exact heeded posting member set
        · exact (other rfl).elim
  | delivers => exact heeded
  | @awaits c w limit delivered =>
    intro posting member set
    change posting ∈ roster.postings (c.requests.foldl World.accept (World.await w limit).world) at member
    rw [delivered, List.foldl_nil, roster.remaining] at member
    apply heeded posting _ set
    rw [staff, delivered]
    exact (List.mem_filter.1 member).1
  | collects collected =>
    cases collect_ok collected with
    | dropped => exact heeded
    | taken _ _ returned => exact heeded_of_asked returned.asked (roster.postings_stored returned.stored) heeded
  | looks => exact heeded
  | @expires c _ w _ _ _ expired =>
    cases expire_ok expired with
    | early => exact heeded
    | ended => exact heeded
    | @stopped i _ _ _ _ _ late =>
      apply heeded_of_asked late.asked rfl
      intro posting member set
      rw [staff, request, List.foldl_append, List.foldl_cons, List.foldl_nil, roster.cancelled] at member
      obtain ⟨before, present, rfl⟩ := List.mem_map.1 member
      by_cases here : before.slot = i
      · simp [Posting.ask, here]
      · rw [Posting.ask_slot] at set
        simp only [request, Table.get?_insert, Key.same, Ne.symm here, decide_false, Bool.false_eq_true, if_false] at set
        simpa [Posting.ask, here] using heeded before present set

/-- A job is stopped because it has failed or because one of its stage has, if the stage asks for that. -/
def alarm : Terms ω where
  assigned _ _ _ := True
  excused m slot := ∃ r, m.coord.record? slot = some r ∧
    (r.status = .failed ∨ m.coord.Tripped r.job.stage)

theorem Step.alarm_excused (step : Step m m') {slot : Nat} (excused : alarm.excused m slot) :
    alarm.excused m' slot := by
  obtain ⟨r, found, reason⟩ := excused
  obtain ⟨r', found', evolves⟩ := step.evolved.record found
  refine ⟨r', found', reason.imp (fun failed => ?_) fun tripped => ?_⟩
  · rw [evolves.frozen (by rw [failed]; rfl), failed]
  · rw [evolves.job]
    exact step.tripped tripped

/-- Every job that is cancelled belongs to a stage that has tripped, unless a worker may find its token set although
nobody has asked it to stop. -/
structure Warranted (finds : Bool → Bool → Prop) (roster : Roster ω) (m : Moment ω) : Prop where
  crewed : Crewed alarm Manner.candid finds roster m
  cancelled : ∀ j r, m.coord.record? j = some r → r.status = .cancelled →
    m.coord.Tripped r.job.stage ∨ finds false true

variable {finds : Bool → Bool → Prop}

theorem Step.warranted (performs : roster.Performs Manner.candid finds) (step : Step m m')
    (orderly : Orderly g roster m) (distinct : g.DistinctKeys) (warranted : Warranted finds roster m) :
    Warranted finds roster m' := by
  have apart := orderly.runs.apart distinct
  constructor
  · apply step.crewed performs orderly (fun _ _ _ _ => trivial) (fun _ => step.alarm_excused) _ _ warranted.crewed
    · exact fun _ _ _ => Or.inr trivial
    · intro slot asked
      rcases step.stopping apart asked with before | ⟨r', found', tripped⟩ | ⟨r', _, _, _, found', failed⟩
      · exact Or.inl before
      · exact Or.inr ⟨r', found', Or.inr tripped⟩
      · exact Or.inr ⟨r', found', Or.inl failed⟩
  · intro j r' found' cancelled
    obtain ⟨r, found, evolves⟩ := step.evolved.source found'
    have fate := step.fate_of found found'
    rw [evolves.job]
    cases fate with
    | kept => exact (warranted.cancelled j _ found cancelled).imp_left step.tripped
    | opened =>
      rcases Coordinator.opening_cases _ _ _ with change | change
      all_goals
        rw [JobRecord.moved_status, change] at cancelled
        cases cancelled
    | lacked => cases cancelled
    | launched => cases cancelled
    | @returned _ outcome later _ _ _ fault running arrived returned =>
      rw [JobRecord.moved_status] at cancelled
      obtain ⟨message, steps, rfl⟩ : ∃ message steps, outcome = .cancelled message steps := by
        cases outcome with
        | succeeded => cases fault <;> cases cancelled
        | cancelled message steps => exact ⟨message, steps, rfl⟩
        | failed => cases cancelled
      -- The worker says that it was cancelled, so it has found its token set.
      obtain ⟨worker, asked, _, excused, ends⟩ := warranted.crewed.arrived j _ (arrived ▸ List.mem_cons_self)
      cases asked with
      | false => exact Or.inr ends.found_of_cancelled
      | true =>
        obtain ⟨q, held, reason⟩ := excused rfl
        cases held.symm.trans found
        rcases reason with failed | tripped
        · cases running.symm.trans failed
        · exact Or.inl (step.tripped tripped)
    | expired => cases cancelled
    | @stopped _ i q q' _ held _ held' failed contagious same =>
      have onward := step.evolved.evolves held held'
      refine Or.inl ⟨?_, i, q', held', failed, by rw [onward.job, same]⟩
      rw [same, stage?, step.frame.1]
      exact contagious

theorem Path.alert (path : Path m m') (populated : g.Populated) (distinct : g.DistinctKeys)
    (orderly : Orderly g roster m) (alert : Alert m) (heeded : Heeded roster m) :
    Orderly g roster m' ∧ Alert m' ∧ Heeded roster m' := by
  refine path.preserves (fun m => Orderly g roster m ∧ Alert m ∧ Heeded roster m) ?_ ⟨orderly, alert, heeded⟩
  rintro m m' step ⟨orderly, alert, heeded⟩
  exact ⟨orderly.step populated distinct step, step.alert (orderly.runs.apart distinct) alert, step.heeded heeded⟩

theorem Path.warranted (path : Path m m') (populated : g.Populated) (distinct : g.DistinctKeys)
    (performs : roster.Performs Manner.candid finds) (orderly : Orderly g roster m)
    (warranted : Warranted finds roster m) : Warranted finds roster m' := by
  refine (path.preserves (fun m => Orderly g roster m ∧ Warranted finds roster m) ?_ ⟨orderly, warranted⟩).2
  rintro m m' step ⟨orderly, warranted⟩
  exact ⟨orderly.step populated distinct step, step.warranted performs orderly distinct warranted⟩

/-- Tests of three versions, which stop at the first failure, and a look at the code. -/
def checks : Pipeline :=
  { name := "checks"
    stages := [
      { name := "test", steps := [{ uses := "shell" }], failFast := true
        matrix := some { axes := [("version", [.int 1, .int 2, .int 3])] } },
      { name := "lint", steps := [{ uses := "shell" }] }] }

def checksGraph : RunGraph :=
  { graph := { stages := checks.stages, needs := [[], []], dependents := [[], []], order := [0, 1] }
    jobs := [
      [{ stage := "test", index := 0, assignment := [(.str "version", .int 1)], steps := [{ uses := "shell" }] },
       { stage := "test", index := 1, assignment := [(.str "version", .int 2)], steps := [{ uses := "shell" }] },
       { stage := "test", index := 2, assignment := [(.str "version", .int 3)], steps := [{ uses := "shell" }] }],
      [{ stage := "lint", steps := [{ uses := "shell" }] }]]
    context := some pushed }

/-- Two tests are started; of the workers that have come back by then the first one is taken in, whose test has failed. -/
theorem checks_fail :
    let craft : Craft := fun w => ([], { exitStatus := if w.context.job.index = 0 then 1 else 0 })
    let setup : Setup := { graph := checksGraph.graph, context := pushed, workers := 2 }
    let world : Workshop craft := {}
    ∃ (m m' : Moment (Workshop craft)) (before tested running third look : JobRecord),
      Path (Operation.start setup checksGraph world).moment m ∧ Step m m' ∧
      m'.coord.inFlight = [1] ∧ m'.coord.ready = [2, 3] ∧
      m.coord.record? 0 = some before ∧ (before.status = .running ∧ before.job.stage = "test") ∧
      m'.coord.record? 0 = some tested ∧ tested.status = .failed ∧ tested.job.stage = "test" ∧
      m'.coord.record? 1 = some running ∧ (running.status = .running ∧ running.job.stage = "test") ∧
      m'.coord.record? 2 = some third ∧ (third.status = .cancelled ∧ third.job.stage = "test") ∧
      m.coord.record? 3 = some look ∧ m'.coord.record? 3 = some look ∧
      look.status = .ready ∧ look.job.stage = "lint" := by
  intro craft setup world
  obtain ⟨o, busy, first, rest, c, w, before, tested, running, third, look, started, flying, arrived, collected, facts⟩ :
      ∃ (o : Operation (Workshop craft)) (busy : Bool) (first : Nat × Completion) (rest : List (Nat × Completion))
        (c : Coordinator) (w : Workshop craft) (before tested running third look : JobRecord),
        (Operation.start setup checksGraph world).advance = .ok (o, busy) ∧ o.coord.inFlight = [0, 1] ∧
        o.rested.arrived = first :: rest ∧
        Coordinator.collect .zero (o.rested.coord, o.rested.world) first = .ok (c, w) ∧
        c.inFlight = [1] ∧ c.ready = [2, 3] ∧
        o.rested.coord.record? 0 = some before ∧ (before.status = .running ∧ before.job.stage = "test") ∧
        c.record? 0 = some tested ∧ tested.status = .failed ∧ tested.job.stage = "test" ∧
        c.record? 1 = some running ∧ (running.status = .running ∧ running.job.stage = "test") ∧
        c.record? 2 = some third ∧ (third.status = .cancelled ∧ third.job.stage = "test") ∧
        o.rested.coord.record? 3 = some look ∧ c.record? 3 = some look ∧
        look.status = .ready ∧ look.job.stage = "lint" := by
    refine ⟨_, _, _, _, _, _, _, _, _, _, _, by cbv, by cbv, by cbv, by cbv, by cbv, by cbv, by cbv, by cbv, by cbv,
      by cbv, by cbv, by cbv, by cbv, by cbv, by cbv, by cbv, by cbv, by cbv, by cbv⟩
  obtain ⟨advanced, delivered⟩ := Operation.advance_path started
  have step : Step o.rested ⟨c, w, rest, []⟩ := by
    have collects : Step ⟨o.rested.coord, o.rested.world, first :: rest, []⟩ ⟨c, w, rest, []⟩ := .collects collected
    rwa [← arrived] at collects
  exact ⟨o.rested, _, before, tested, running, third, look, advanced.tail (.awaits delivered (by simp [flying])), step,
    facts⟩

end Moment
end Conveyor
