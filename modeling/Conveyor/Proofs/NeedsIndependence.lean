import Conveyor.Proofs.SkipReasons

/-! Runs of akin pipelines, side by side. They go through akin states turn by turn, in the same world, and come to akin
ends. So the order of needs has no bearing on what is run and on what becomes of it. It decides which of the reasons that
come down to a skipped stage its jobs are told, and nothing else. -/

namespace Conveyor

open Fallible

namespace Operation

inductive Akin {ω : Type} : Operation ω → Operation ω → Prop
  | intro {c c' : Coordinator} (world : ω) (akin : c.Akin c') : Akin ⟨c, world⟩ ⟨c', world⟩

/-- The same answer whether there is more to do, in akin states. -/
inductive AkinAnswers {ω : Type} : Operation ω × Bool → Operation ω × Bool → Prop
  | intro {o o' : Operation ω} (more : Bool) (akin : o.Akin o') : AkinAnswers (o, more) (o', more)

variable {ω : Type} [World ω] {o o' : Operation ω}

omit [World ω] in
theorem Akin.coord (akin : o.Akin o') : o.coord.Akin o'.coord := by
  obtain ⟨_, akin⟩ := akin
  exact akin

omit [World ω] in
theorem Akin.world (akin : o.Akin o') : o'.world = o.world := by
  cases akin
  rfl

theorem Akin.deliver (akin : o.Akin o') : o.deliver.Akin o'.deliver := by
  obtain @⟨c, c', w, akin⟩ := akin
  have delivered : Coordinator.Akin { c with requests := [] } { c' with requests := [] } := { akin with requests := rfl }
  unfold Operation.deliver
  rw [akin.requests]
  exact .intro _ delivered

omit [World ω] in
theorem inWorld_akin {τ : Type} {done : τ → τ → Prop} {result result' : Except (Halt Coordinator) τ}
    (paired : Paired (Halt.Alike Coordinator.Akin) done result result') (w : ω) :
    Paired (Halt.Alike Akin) done (inWorld w result) (inWorld w result') := by
  apply paired.mapError
  rintro _ _ ⟨fault, akin⟩
  exact .intro fault (.intro w akin)

theorem Akin.advance (akin : o.Akin o') : Paired (Halt.Alike Akin) AkinAnswers o.advance o'.advance := by
  obtain @⟨c, c', w, akin⟩ := akin
  unfold Operation.advance
  apply (inWorld_akin (akin.resolveStages (World.now w)) w).bind
  rintro _ _ _ ⟨changed, opened⟩
  apply (inWorld_akin (opened.dispatch w (World.now w)) w).bind
  rintro _ _ _ ⟨taken, started⟩
  exact .ok (.intro _ (Akin.intro w started).deliver)

theorem Akin.gather (akin : o.Akin o') : Paired (Halt.Alike Akin) Akin o.gather o'.gather := by
  obtain @⟨c, c', w, akin⟩ := akin
  unfold Operation.gather
  simp only [akin.patience]
  split
  · exact .error (.intro _ (.intro w akin))
  generalize World.await w ((c.patience (World.now w)).map (World.now w).add) = shift
  have told := akin.logged (c.log ++ shift.told) (c'.log ++ shift.told)
  refine ((told.settle shift.world (World.now shift.world) shift.finished).mapError ?_).bind ?_
  · rintro _ _ ⟨fault, ⟨world, halted⟩⟩
    exact .intro fault (.intro world halted)
  · rintro _ _ _ ⟨world, settled⟩
    exact .ok (Akin.intro world settled).deliver

theorem Akin.turn (akin : o.Akin o') : Paired (Halt.Alike Akin) AkinAnswers o.turn o'.turn := by
  unfold Operation.turn
  apply akin.advance.bind
  rintro _ _ _ ⟨busy, after⟩
  simp only [after.coord.inFlight, after.coord.ready]
  split
  next => exact .ok (.intro _ after)
  next =>
    apply after.gather.bind
    intro last last' _ final
    exact .ok (.intro true final)

theorem Finishes.akin {result : Except (Halt (Operation ω)) (Operation ω)} (finishes : Finishes o result)
    (akin : o.Akin o') : ∃ result', Finishes o' result' ∧ Paired (Halt.Alike Akin) Akin result result' := by
  induction finishes generalizing o' with
  | last ended =>
    obtain ⟨_, turned, ⟨_, after⟩⟩ := akin.turn.of_ok ended
    exact ⟨_, .last turned, .ok after⟩
  | breaks broken =>
    obtain ⟨_, turned, halted⟩ := akin.turn.of_error broken
    exact ⟨_, .breaks turned, .error halted⟩
  | goesOn first _ ih =>
    obtain ⟨_, turned, ⟨_, after⟩⟩ := akin.turn.of_ok first
    obtain ⟨result', onward, paired⟩ := ih after
    exact ⟨result', .goesOn turned onward, paired⟩

theorem Finishes.run_akin {result : Except (Halt (Operation ω)) (Operation ω)} (finishes : Finishes o result)
    (akin : o.Akin o') : Paired (Halt.Alike Akin) Akin o.run o'.run := by
  obtain ⟨result', finishes', paired⟩ := finishes.akin akin
  have : Nonempty (Operation ω) := ⟨o⟩
  rw [run, run, finishes.perform, finishes'.perform]
  apply paired.bind
  intro final final' _ after
  simp only [after.coord.unfinished]
  split
  next => exact .ok after
  next => exact .error (.intro _ after)

end Operation

namespace Engine

open Operation

/-- A run that comes to its end leaves the same world behind as an akin one, with the same fault or an akin report. -/
theorem schedule_akin {ω : Type} [World ω] {setup : Setup} {g g' : RunGraph} {w : ω}
    {result : Except (Halt (Operation ω)) (Operation ω)} (finishes : (Operation.start setup g w).Finishes result)
    (graph : setup.graph.Akin g'.graph) (jobs : g'.allJobs = g.allJobs) :
    (schedule { setup with graph := g'.graph } g' w).world = (schedule setup g w).world ∧
      Paired (fun fault fault' => fault' = fault) RunReport.Akin (schedule setup g w).result
        (schedule { setup with graph := g'.graph } g' w).result := by
  have akin : (Operation.start setup g w).Akin (.start { setup with graph := g'.graph } g' w) :=
    .intro w (Coordinator.start_akin graph jobs)
  have paired := finishes.run_akin akin
  unfold schedule
  generalize (Operation.start setup g w).run = outcome at paired
  generalize (Operation.start { setup with graph := g'.graph } g' w).run = outcome' at paired
  cases paired with
  | error halted =>
    obtain ⟨fault, after⟩ := halted
    exact ⟨after.world, .error rfl⟩
  | ok after => exact ⟨after.world, .ok after.coord.report⟩

end Engine

namespace Operation

variable {ω : Type} [World ω]

/-- The state of a run after some turns, of which the last may have been the last of the run. -/
inductive After : Operation ω → Nat → Operation ω → Prop
  | none (o : Operation ω) : After o 0 o
  | last {o o' : Operation ω} (ended : o.turn = .ok (o', false)) : After o 1 o'
  | more {o o' o'' : Operation ω} {n : Nat} (first : o.turn = .ok (o', true)) (rest : After o' n o'') :
      After o (n + 1) o''

namespace After

variable {o last : Operation ω} {n : Nat}

theorem path (after : After o n last) : Moment.Path o.moment last.moment := by
  induction after with
  | none => exact .refl
  | last ended => exact (turn_path ended).1
  | more first _ ih => exact (turn_path first).1.trans ih

theorem unique (after : After o n last) {other : Operation ω} (again : After o n other) : other = last := by
  induction after with
  | none =>
    cases again
    rfl
  | last ended =>
    cases again with
    | last ended' =>
      cases ended.symm.trans ended'
      rfl
    | more first => cases ended.symm.trans first
  | more first _ ih =>
    cases again with
    | last ended => cases first.symm.trans ended
    | more first' rest =>
      cases first.symm.trans first'
      exact ih rest

theorem akin {o' : Operation ω} (after : After o n last) (akin : o.Akin o') :
    ∃ last', After o' n last' ∧ last.Akin last' := by
  induction after generalizing o' with
  | none => exact ⟨o', .none o', akin⟩
  | last ended =>
    obtain ⟨_, turned, ⟨_, final⟩⟩ := akin.turn.of_ok ended
    exact ⟨_, .last turned, final⟩
  | more first _ ih =>
    obtain ⟨_, turned, ⟨_, later⟩⟩ := akin.turn.of_ok first
    obtain ⟨last', onward, final⟩ := ih later
    exact ⟨last', .more turned onward, final⟩

end After

/-- With its needs in another order, a skipped job is given any of the reasons that come down to its stage. -/
theorem After.favoured {p : Pipeline} {early : Option Context} {g : RunGraph} (built : RunGraph.build p early = .ok g)
    {setup : Setup} (graph : setup.graph = g.graph) {w : ω} {n : Nat} {o : Operation ω}
    (after : After (start setup g w) n o) {j : Nat} {r : JobRecord} (found : o.coord.record? j = some r)
    (skipped : r.status = .skipped) {why : SkipReason} (warrants : o.coord.Warrants r.job.stage why) :
    ∃ p' g' o' r', p.Akin p' ∧ RunGraph.build p' early = .ok g' ∧
      After (start { setup with graph := g'.graph } g' w) n o' ∧ o'.coord.record? j = some r' ∧
      r'.skipReason = some why := by
  classical
  let favoured (need : String) : Bool := o.coord.statusOf need = some .skipped ∧ o.coord.Warrants need why
  have akin := p.favour_akin favoured
  obtain ⟨g', built', graphs, jobs⟩ := RunGraph.build_akin akin built
  obtain ⟨o', after', same⟩ := after.akin (.intro w (Coordinator.start_akin (graph ▸ graphs) jobs))
  obtain ⟨r', found', alike⟩ := same.coord.found found
  refine ⟨_, g', o', r', akin, built', after', found', ?_⟩
  have arranged : o'.coord.setup.graph.stages = (RunGraph.layered p).map (Stage.favour favoured) := by
    have setup : o'.coord.setup = _ := after'.path.setup
    rw [setup, ← p.favour_layered favoured]
    exact (StageGraph.build_ordered (RunGraph.build_graph built')).1
  have explained := after'.path.explained built' rfl
  refine explained.favoured same.coord (fun need => ?_) arranged found' (alike.status.trans skipped) ?_
  · exact decide_eq_true_iff
  · rw [alike.job]
    exact warrants

/-- The order of needs, and how often they are listed, matters for what skipped jobs are told and for nothing else. The
graphs of akin pipelines have one order. Their runs, with the same event and workers in the same world, are alike after
every turn, up to the last: every job has the same state and cause, and the same reason unless two reasons come down to its
stage. They end with the same fault, or with reports that give the run and all stages the same state. And the reasons
that come down to the stage of a skipped job are exactly those that it is given in the runs of akin pipelines. -/
theorem needs_order (p : Pipeline) (early : Option Context) (context : Context) (workers : Nat)
    (timeout : Option Number) (w : ω) :
    let setup (g : RunGraph) : Setup := { graph := g.graph, context, workers, timeout }
    (∀ p', p.Akin p' →
      (∀ graph, StageGraph.build p.stages = .ok graph →
        ∃ graph', StageGraph.build p'.stages = .ok graph' ∧ graph'.order = graph.order) ∧
      ∀ g, RunGraph.build p early = .ok g → ∃ g', RunGraph.build p' early = .ok g' ∧
        g'.graph.order = g.graph.order ∧ g'.allJobs = g.allJobs ∧
        (∀ n o, After (start (setup g) g w) n o → ∃ o', After (start (setup g') g' w) n o' ∧ o'.world = o.world ∧
          ∀ j r, o.coord.record? j = some r → ∃ r', o'.coord.record? j = some r' ∧ r'.job = r.job ∧
            r'.status = r.status ∧ r'.cause = r.cause ∧
            ((∀ why why', o.coord.Warrants r.job.stage why → o.coord.Warrants r.job.stage why' → why' = why) →
              r'.skipReason = r.skipReason)) ∧
        ∀ result, (start (setup g) g w).Finishes result →
          Paired (fun fault fault' => fault' = fault) RunReport.Akin (Engine.schedule (setup g) g w).result
            (Engine.schedule (setup g') g' w).result) ∧
    ∀ g n o j r, RunGraph.build p early = .ok g → After (start (setup g) g w) n o →
      o.coord.record? j = some r → r.status = .skipped → ∀ why, o.coord.Warrants r.job.stage why ↔
        ∃ p' g' o' r', p.Akin p' ∧ RunGraph.build p' early = .ok g' ∧ After (start (setup g') g' w) n o' ∧
          o'.coord.record? j = some r' ∧ r'.skipReason = some why := by
  intro setup
  have explained {q : Pipeline} {g : RunGraph} (built : RunGraph.build q early = .ok g) {n : Nat} {o : Operation ω}
      (after : After (start (setup g) g w) n o) : o.coord.Explained := after.path.explained built rfl
  constructor
  · intro p' akin
    constructor
    · intro graph built
      obtain ⟨graph', built', same⟩ := StageGraph.build_akin akin.stages built
      exact ⟨graph', built', same.order⟩
    · intro g built
      obtain ⟨g', built', graphs, jobs⟩ := RunGraph.build_akin akin built
      refine ⟨g', built', graphs.order, jobs, ?_, fun _ finishes => (Engine.schedule_akin finishes graphs jobs).2⟩
      intro n o after
      obtain ⟨o', after', same⟩ := after.akin (.intro w (Coordinator.start_akin graphs jobs))
      refine ⟨o', after', same.world, fun j r found => ?_⟩
      obtain ⟨r', found', alike⟩ := same.coord.found found
      refine ⟨r', found', alike.job, alike.status, alike.cause, fun sole => ?_⟩
      exact same.coord.reason (explained built after) (explained built' after') found found' sole
  · intro g n o j r built after found skipped why
    constructor
    · exact after.favoured built rfl found skipped
    · rintro ⟨p', g', o', r', akin, built', after', found', told⟩
      obtain ⟨_, again, graphs, jobs⟩ := RunGraph.build_akin akin built
      cases built'.symm.trans again
      obtain ⟨_, onward, same⟩ := after.akin (.intro w (Coordinator.start_akin graphs jobs))
      cases onward.unique after'
      obtain ⟨_, held, alike⟩ := same.coord.found found
      cases found'.symm.trans held
      obtain ⟨_, said, warrants⟩ := (explained built' after').warranted found' (alike.status.trans skipped)
      cases told.symm.trans said
      rw [alike.job] at warrants
      exact same.coord.warrants warrants

end Operation

/-- A check, a trial that is switched off, repairs that need the check, and a delivery that needs what is given. -/
def nightly (needs : List String) : Pipeline :=
  { name := "nightly"
    stages := [
      { name := "check", steps := [{ uses := "shell" }] },
      { name := "trial", condition := some "false", steps := [{ uses := "shell" }] },
      { name := "repair", needs := ["check"], steps := [{ uses := "shell" }] },
      { name := "deliver", needs, steps := [{ uses := "shell" }] }] }

/-- The stages and jobs of the pipeline, with the numbers of the stages that the delivery needs. -/
def nightlyGraph (needs : List String) (numbers : List Nat) : RunGraph :=
  { graph :=
      { stages := (nightly needs).stages, needs := [[], [], [0], numbers], dependents := [[2], [3], [3], []]
        order := [0, 1, 2, 3] }
    jobs := [
      [{ stage := "check", steps := [{ uses := "shell" }] }],
      [{ stage := "trial", steps := [{ uses := "shell" }] }],
      [{ stage := "repair", steps := [{ uses := "shell" }] }],
      [{ stage := "deliver", steps := [{ uses := "shell" }] }]]
    context := some pushed }

theorem nightly_built :
    RunGraph.build (nightly ["trial", "repair"]) (some pushed) = .ok (nightlyGraph ["trial", "repair"] [1, 2]) := by
  decide +kernel

theorem nightly_swapped :
    RunGraph.build (nightly ["repair", "trial"]) (some pushed) = .ok (nightlyGraph ["repair", "trial"] [2, 1]) := by
  decide +kernel

theorem nightly_akin : (nightly ["trial", "repair"]).Akin (nightly ["repair", "trial"]) := by
  refine ⟨rfl, .cons (.refl _) (.cons (.refl _) (.cons (.refl _) (.cons ⟨rfl, fun need => ?_⟩ .nil)))⟩
  simp [or_comm]

namespace Operation

def hapless : Craft := fun _ => ([], { exitStatus := 1 })

def nightlyRun (g : RunGraph) : Operation (Workshop hapless) :=
  start { graph := g.graph, context := pushed, workers := 1 } g {}

theorem ends_third {o first second final : Operation (Workshop hapless)} (one : o.turn = .ok (first, true))
    (two : first.turn = .ok (second, true)) (three : second.turn = .ok (final, false)) :
    After o 3 final ∧ o.Finishes (.ok final) :=
  ⟨.more one (.more two (.last three)), .goesOn one (.goesOn two (.last three))⟩

/-- After the third turn of the night, the trial and the repairs have been skipped for different reasons. -/
theorem nightlyRun_ends : ∃ (final : Operation (Workshop hapless)) (repair deliver : JobRecord),
    (After (nightlyRun (nightlyGraph ["trial", "repair"] [1, 2])) 3 final ∧
      (nightlyRun (nightlyGraph ["trial", "repair"] [1, 2])).Finishes (.ok final)) ∧
    final.coord.unfinished = [] ∧ final.coord.statusOf "check" = some .failed ∧
    final.coord.record? 2 = some repair ∧ repair.job.stage = "repair" ∧
    final.coord.record? 3 = some deliver ∧ deliver.job.stage = "deliver" ∧ deliver.status = .skipped ∧
    deliver.skipReason = some .gateClosed ∧ final.coord.report.job? "deliver" = some deliver := by
  refine ⟨_, _, _, ends_third (by cbv) (by cbv) (by cbv), by cbv, by cbv, by cbv, by cbv, by cbv, by cbv, by cbv, by cbv,
    by cbv⟩

theorem nightlyRun_swapped : ∃ (final : Operation (Workshop hapless)) (deliver : JobRecord),
    (After (nightlyRun (nightlyGraph ["repair", "trial"] [2, 1])) 3 final ∧
      (nightlyRun (nightlyGraph ["repair", "trial"] [2, 1])).Finishes (.ok final)) ∧
    final.coord.unfinished = [] ∧ final.coord.record? 3 = some deliver ∧
    deliver.skipReason = some .dependencyFailed ∧ final.coord.report.job? "deliver" = some deliver := by
  refine ⟨_, _, ends_third (by cbv) (by cbv) (by cbv), by cbv, by cbv, by cbv, by cbv⟩

/-- Only the failure of the check comes down to the repairs, but two reasons come down to the delivery. -/
theorem nightly_needs :
    ∃ (o o' : Operation (Workshop hapless)) (repair repair' : JobRecord),
      After (nightlyRun (nightlyGraph ["trial", "repair"] [1, 2])) 3 o ∧
      After (nightlyRun (nightlyGraph ["repair", "trial"] [2, 1])) 3 o' ∧
      o.coord.record? 2 = some repair ∧ o'.coord.record? 2 = some repair' ∧
      repair'.skipReason = repair.skipReason ∧ o.coord.Warrants "deliver" .gateClosed ∧
      o.coord.Warrants "deliver" .dependencyFailed := by
  obtain ⟨o, repair, deliver, ⟨after, _⟩, _, failed, found, home, held, bound, skipped, told, _⟩ := nightlyRun_ends
  obtain ⟨swapped, other, ⟨later, _⟩, _, held', told', _⟩ := nightlyRun_swapped
  have order := needs_order (nightly ["trial", "repair"]) (some pushed) pushed 1 none ({} : Workshop hapless)
  obtain ⟨_, built, _, _, alike, _⟩ := (order.1 _ nightly_akin).2 _ nightly_built
  cases built.symm.trans nightly_swapped
  obtain ⟨o', after', _, jobs⟩ := alike 3 o after
  obtain ⟨repair', found', _, _, _, reason⟩ := jobs 2 repair found
  have required : o.coord.setup.graph.Requires "repair" "check" := by
    have setup : o.coord.setup = _ := after.path.setup
    rw [setup]
    exact ⟨_, List.mem_of_getElem? (i := 2) rfl, rfl, by decide⟩
  have sole {why : SkipReason} (warrants : o.coord.Warrants "repair" why) : why = .dependencyFailed := by
    cases warrants with
    | failed => rfl
    | inherited unfailed => exact (unfailed "check" required failed).elim
    | gate succeeded => cases (succeeded "check" required).symm.trans failed
  have comesDown := order.2 _ 3 o 3 deliver nightly_built after held skipped
  rw [bound] at comesDown
  refine ⟨o, o', repair, repair', after, after', found, found', reason ?_, ?_, ?_⟩
  · rw [home]
    exact fun why why' first second => (sole second).trans (sole first).symm
  · exact (comesDown .gateClosed).2 ⟨_, _, o, deliver, .refl _, nightly_built, after, held, told⟩
  · exact (comesDown .dependencyFailed).2 ⟨_, _, swapped, other, nightly_akin, nightly_swapped, later, held', told'⟩

/-- Whether the delivery is skipped for a closed gate or for a failure depends on the need that it lists first. -/
theorem reason_follows_order :
    (nightly ["trial", "repair"]).Akin (nightly ["repair", "trial"]) ∧ ∃ g g' report report' deliver deliver',
      RunGraph.build (nightly ["trial", "repair"]) (some pushed) = .ok g ∧
      RunGraph.build (nightly ["repair", "trial"]) (some pushed) = .ok g' ∧
      (Engine.schedule { graph := g.graph, context := pushed, workers := 1 } g ({} : Workshop hapless)).result = .ok report ∧
      (Engine.schedule { graph := g'.graph, context := pushed, workers := 1 } g' ({} : Workshop hapless)).result =
        .ok report' ∧
      report.job? "deliver" = some deliver ∧ report'.job? "deliver" = some deliver' ∧
      deliver.skipReason = some .gateClosed ∧ deliver'.skipReason = some .dependencyFailed := by
  obtain ⟨o, _, deliver, ⟨_, finishes⟩, done, _, _, _, _, _, _, told, shown⟩ := nightlyRun_ends
  obtain ⟨o', deliver', ⟨_, finishes'⟩, done', _, told', shown'⟩ := nightlyRun_swapped
  refine ⟨nightly_akin, _, _, o.coord.report, o'.coord.report, deliver, deliver', nightly_built, nightly_swapped,
    ?_, ?_, shown, shown', told, told'⟩
  · have ran : (nightlyRun (nightlyGraph ["trial", "repair"] [1, 2])).run = .ok o := finishes.run_ok done
    unfold nightlyRun at ran
    rw [Engine.schedule, ran]
  · have ran : (nightlyRun (nightlyGraph ["repair", "trial"] [2, 1])).run = .ok o' := finishes'.run_ok done'
    unfold nightlyRun at ran
    rw [Engine.schedule, ran]

end Operation
end Conveyor
