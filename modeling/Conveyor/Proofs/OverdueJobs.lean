import Conveyor.Proofs.Deadlines
import Conveyor.Proofs.QueueConsistency
import Conveyor.Proofs.ScalarWorth
import Conveyor.Proofs.WorkerAttempts

/-! Jobs that are stopped for their time. No worker returns that its job has run out of time: only the coordinator says
so, of a running job whose deadline it looks at. Then the clock has come to the deadline, or the limit was no number. -/

namespace Conveyor

def Number.worth : Number → Option Worth
  | .int i => some (.number i)
  | .float d => d.worth

namespace Double

theorem aligned_lt_iff {a b : Bool} {m n : Nat} {e f low : Int} (left : low ≤ e) (right : low ≤ f) :
    aligned a m e low < aligned b n f low ↔ rational a m e < rational b n f := by
  have positive : (0 : ℚ) < 2 ^ low := zpow_pos two_pos low
  rw [← aligned_rational a m left, ← aligned_rational b n right, mul_lt_mul_iff_of_pos_right positive, Int.cast_lt]

theorem lt_iff {d e : Double} {x y : ℚ} (first : d.worth = some (.number x)) (second : e.worth = some (.number y)) :
    d.lt e = true ↔ x < y := by
  cases d with
  | nan => cases first
  | infinite => cases first
  | finite a m p =>
    cases e with
    | nan => cases second
    | infinite => cases second
    | finite b n q =>
      cases first
      cases second
      rw [lt, compare?, beq_iff_eq, Option.some.injEq, Std.compare_eq_lt,
        aligned_lt_iff (min_le_left p q) (min_le_right p q)]

theorem le_of_not_lt {d e : Double} (first : d.worth ≠ none) (second : e.worth ≠ none) (later : d.lt e = false) :
    e.le d = true := by
  cases d with
  | nan => exact (first rfl).elim
  | infinite a =>
    cases e with
    | nan => exact (second rfl).elim
    | infinite b => revert later; cases a <;> cases b <;> decide
    | finite => revert later; cases a <;> simp [lt, le, compare?]
  | finite a m p =>
    cases e with
    | nan => exact (second rfl).elim
    | infinite b => revert later; cases b <;> simp [lt, le, compare?]
    | finite b n q =>
      have above : ¬ aligned a m p (min p q) < aligned b n q (min p q) := by
        simpa [lt, compare?, Std.compare_eq_lt] using later
      rw [le, compare?, min_comm]
      rcases (not_lt.1 above).lt_or_eq with below | equal
      · rw [Std.compare_eq_lt.2 below]
      · rw [equal, compare_eq_iff_eq.2 rfl]

theorem worth_ofRatio (negative : Bool) (numerator denominator : Nat) :
    (ofRatio negative numerator denominator).worth ≠ none := by
  unfold ofRatio
  dsimp only
  split_ifs <;> simp [worth]

theorem worth_add {d e : Double} {x : ℚ} (number : d.worth = some (.number x)) (defined : e.worth ≠ none) :
    (d.add e).worth ≠ none := by
  cases d with
  | nan => cases number
  | infinite => cases number
  | finite a m p =>
    cases e with
    | nan => exact (defined rfl).elim
    | infinite => simp [add, worth]
    | finite b n q =>
      unfold add ofScaled
      dsimp only
      split_ifs
      · simp [worth]
      · exact worth_ofRatio _ _ _
      · exact worth_ofRatio _ _ _

end Double

theorem Number.worth_toDouble {n : Number} : n.toDouble.worth = none ↔ n.worth = none := by
  cases n with
  | int i => exact iff_of_false (Double.worth_ofRatio _ _ _) nofun
  | float d => rfl

/-! ### What workers return -/

/-- A worker may come to this outcome, before a step or after it. -/
def Outcome.OfWorker (outcome : Outcome) : Prop :=
  (∃ (w : Worker) (token : Bool), w.turn token = .finish (.returned outcome)) ∨
    ∃ (w : Worker) (step : Step) (staged : Table String Blob) (reply : Reply) (token : Bool),
      w.receive step staged reply token = .error (.returned outcome)

theorem Outcome.OfWorker.cause {outcome : Outcome} (given : outcome.OfWorker) : outcome.cause ≠ some .timeout := by
  rcases given with ⟨w, token, done⟩ | ⟨w, step, staged, reply, token, done⟩
  · obtain ⟨_, same, finished⟩ := Worker.turn_finish done
    cases same
    cases finished with
    | concluded =>
      unfold Worker.conclude
      dsimp only
      split
      · split <;> exact nofun
      · exact nofun
    | forestalled => exact nofun
    | unnamed => exact nofun
  · unfold Worker.receive at done
    split at done
    · cases done
    · cases done
      exact nofun
    next fault =>
      cases done
      split
      · exact nofun
      · rw [(w.raised_spec step fault).2.2]
        split <;> exact nofun
    · dsimp only at done
      split at done
      · cases done
        exact nofun
      · split at done <;> cases done
        split <;> exact nofun

def World.Working (ω : Type) [World ω] : Prop :=
  ∀ (w : ω) limit slot outcome, (slot, .returned outcome) ∈ (World.await w limit).finished → outcome.OfWorker

theorem Worker.Ends.ofWorker {manner : Manner} {finds : Bool → Prop} {w : Worker} {outcome : Outcome}
    (ends : w.Ends manner finds outcome) : outcome.OfWorker := by
  induction ends with
  | finishes _ done => exact Or.inl ⟨_, _, done⟩
  | stops _ _ _ done => exact Or.inr ⟨_, _, _, _, _, done⟩
  | goesOn _ _ _ _ _ ih => exact ih

/-! ### Jobs whose time is over -/

theorem JobRecord.Lived.of_running {r : JobRecord} (lived : r.Lived) (running : r.status = .running) :
    r.history = [.pending, .ready, .running] := by
  obtain ⟨begins, walks, ends⟩ := lived
  obtain ⟨early, history⟩ := List.getLast?_eq_some_iff.1 (running ▸ ends)
  rw [history] at begins walks ⊢
  obtain ⟨walks, _, last⟩ := List.isChain_append.1 walks
  rcases List.eq_nil_or_concat early with rfl | ⟨first, before, rfl⟩
  · cases begins
  · rw [List.concat_eq_append] at begins walks last ⊢
    have ready : before = .ready := by
      have legal := last before (by simp) .running (by simp)
      cases before <;> simp_all [Status.mayBecome, Status.successors]
    subst ready
    have head : (first ++ [Status.ready]).head? = some .pending := by
      rwa [List.head?_append_of_ne_nil _ (by simp)] at begins
    rw [Status.walk_ready head walks (by simp)]
    rfl

def JobRecord.Unreported (r : JobRecord) : Prop := r.finishedAt = none ∧ r.steps = [] ∧ r.artifacts = []

namespace Coordinator

theorem opening_cause (c : Coordinator) (s : Stage) (outcomes : List (String × Status × Option SkipReason)) :
    (c.opening s outcomes).2.cause = none := by
  unfold opening
  split
  · rfl
  · rfl
  · split <;> rfl

/-- The job was failed for its time: it has a limit, and it had been running. When it was stopped, a clock that shows
numbers had come to its start and the limit together, and really so if that sum is not rounded; but nobody waits for a
limit that is no number. Nothing that its worker returned has been noted. -/
structure Overran (c : Coordinator) (r : JobRecord) (limit : Number) (started ended : Double) : Prop where
  limited : c.effectiveTimeout r.job = some limit
  failed : r.status = .failed
  history : r.history = [.pending, .ready, .running, .failed]
  startedAt : r.startedAt = some (.float started)
  finishedAt : r.finishedAt = some (.float ended)
  reading : ∀ x y : ℚ, started.worth = some (.number x) → ended.worth = some (.number y) →
    (started.add limit.toDouble).le ended = true ∨ limit.worth = none
  late : ∀ x t y : ℚ, started.worth = some (.number x) → limit.worth = some (.number t) →
    (started.add limit.toDouble).worth = some (.number (x + t)) → ended.worth = some (.number y) → x + t ≤ y
  steps : r.steps = []
  artifacts : r.artifacts = []

theorem Overran.of_setup {c c' : Coordinator} {r : JobRecord} {limit : Number} {started ended : Double}
    (overran : c.Overran r limit started ended) (setup : c'.setup = c.setup) : c'.Overran r limit started ended :=
  { overran with limited := by rw [effectiveTimeout, setup]; exact overran.limited }

theorem overran_moved {c : Coordinator} {r : JobRecord} {deadline : Deadline} {now : Double} (due : c.Due r deadline)
    (lived : r.Lived) (unreported : r.Unreported) (late : now.lt deadline.time = false) :
    ∃ started, c.Overran (r.moved now .failed (overdue r deadline)) deadline.limit started now := by
  obtain ⟨running, limited, started, begun, sum⟩ := due
  rw [sum] at late
  refine ⟨started, limited, rfl, ?_, begun, ?_, ?_, ?_, unreported.2.1, unreported.2.2⟩
  · rw [JobRecord.moved, lived.of_running running]
    rfl
  · simp [JobRecord.moved, begun, unreported.1, Status.isTerminal]
  · intro x y start reading
    by_cases defined : deadline.limit.worth = none
    · exact Or.inr defined
    · have sum := Double.worth_add start (mt Number.worth_toDouble.1 defined)
      exact Or.inl (Double.le_of_not_lt (by simp [reading]) sum late)
  · intro x t y _ _ exact' reading
    by_contra before
    rw [(Double.lt_iff reading exact').2 (not_le.1 before)] at late
    cases late

end Coordinator

theorem Outcome.ending_cause {outcome : Outcome} {fault : Option StoreFault}
    (timeout : (outcome.ending fault).2.cause = some .timeout) : outcome.cause = some .timeout := by
  cases outcome with
  | succeeded => cases fault <;> cases timeout
  | cancelled => cases timeout
  | failed => exact timeout

namespace Moment

open Coordinator

variable {ω : Type} [World ω] {m m' : Moment ω}

variable {j : Nat} {r r' : JobRecord}

/-- A job whose deadline is looked at and that does not run any more has been stopped, and it was not too early. -/
theorem Step.overdue (step : Step m m') {deadline : Deadline} {later : List (Nat × Deadline)}
    (found : m.coord.record? j = some r) (running : r.status = .running) (due : m.due = (j, deadline) :: later)
    (found' : m'.coord.record? j = some r') (stopped : r'.status ≠ .running) :
    (∃ now : Double, now.lt deadline.time = false ∧ r' = r.moved now .failed (Coordinator.overdue r deadline)) ∧
      m'.coord.tokens.get? j = some true ∧ m'.coord.inFlight = m.coord.inFlight := by
  have unmoved (same : m'.coord.record? j = m.coord.record? j) : False := by
    cases found'.symm.trans (same.trans found)
    exact stopped running
  cases step with
  | opens => cases due
  | takes => cases due
  | delivers => cases due
  | awaits => cases due
  | collects => cases due
  | looks => cases due
  | @expires c c' _ now _ _ expired =>
    cases due
    have late : now.lt deadline.time = false := by
      by_contra early
      rw [Bool.not_eq_false] at early
      simp only [expire, early, if_true, Except.ok.injEq] at expired
      exact unmoved (by rw [expired])
    cases expire_ok expired with
    | early => exact (unmoved rfl).elim
    | ended idle => exact (idle r found running).elim
    | stopped held _ timedOut =>
      cases held.symm.trans found
      cases found'.symm.trans (timedOut.records.found found)
      refine ⟨⟨now, late, by simp [aftermath]⟩, ?_, timedOut.inFlight⟩
      rcases timedOut.asked.token j with token | token
      all_goals
        rw [token]
        simp [request, Table.get?_insert, Key.same]

/-- What is known of deadlines and of the jobs that were failed for their time. -/
structure Punctual (m : Moment ω) : Prop where
  due : ∀ entry ∈ m.due, ∀ r, m.coord.record? entry.1 = some r → r.status = .running →
    m.coord.Due r entry.2
  arrived : ∀ slot outcome, (slot, .returned outcome) ∈ m.arrived → outcome.OfWorker
  unreported : ∀ j r, m.coord.record? j = some r → r.status.isTerminal = false → r.Unreported
  overran : ∀ j r, m.coord.record? j = some r → r.cause = some .timeout →
    ∃ limit started ended, m.coord.Overran r limit started ended
  asked : ∀ j r, m.coord.record? j = some r → r.cause = some .timeout →
    m.coord.tokens.get? j = some true

/-- A job that comes to be failed for its time was running, and its deadline was being looked at. -/
theorem Step.expiring (step : Step m m') (punctual : Punctual m) (found : m.coord.record? j = some r)
    (found' : m'.coord.record? j = some r') (before : r.cause ≠ some .timeout)
    (after : r'.cause = some .timeout) :
    r.status = .running ∧ r'.status ≠ .running ∧ ∃ deadline later, m.due = (j, deadline) :: later := by
  have fate := step.fate_of found found'
  have silent {now : Double} {next : Status} {remark : Remark} (none : remark.cause = none)
      (cause : (r.moved now next remark).cause = some .timeout) : False := by
    rw [JobRecord.moved, none] at cause
    exact before cause
  cases fate with
  | kept => exact (before after).elim
  | opened => exact (silent (opening_cause _ _ _) after).elim
  | lacked => cases after
  | launched => exact (before after).elim
  | @returned _ outcome _ _ _ _ fault _ arrived =>
    have given := punctual.arrived j outcome (arrived ▸ List.mem_cons_self)
    cases cause : (outcome.ending fault).2.cause with
    | none =>
      rw [JobRecord.moved, cause] at after
      exact (before after).elim
    | some reason =>
      rw [JobRecord.moved, cause] at after
      cases after
      exact (given.cause (Outcome.ending_cause cause)).elim
  | expired running due => exact ⟨running, Status.noConfusion, _, _, due⟩
  | stopped => exact (silent rfl after).elim

omit [World ω] in
theorem punctual_start (setup : Setup) (g : RunGraph) (w : ω) : Punctual (Operation.start setup g w).moment := by
  constructor
  case due => exact fun entry member => (List.not_mem_nil member).elim
  case arrived => exact fun slot outcome member => (List.not_mem_nil member).elim
  case unreported =>
    intro j r found _
    obtain ⟨job, _, rfl⟩ := Operation.start_record found
    exact ⟨rfl, rfl, rfl⟩
  case overran =>
    intro j r found timeout
    obtain ⟨job, _, rfl⟩ := Operation.start_record found
    cases timeout
  case asked =>
    intro j r found timeout
    obtain ⟨job, _, rfl⟩ := Operation.start_record found
    cases timeout

/-- Every deadline that is taken up is that of its job, and it stays so while the others are looked at. -/
theorem Step.due (step : Step m m') (clocked : Clocked m)
    (due : ∀ entry ∈ m.due, ∀ r, m.coord.record? entry.1 = some r → r.status = .running →
      m.coord.Due r entry.2) :
    ∀ entry ∈ m'.due, ∀ r, m'.coord.record? entry.1 = some r → r.status = .running →
      m'.coord.Due r entry.2 := by
  have stepped := step
  cases step with
  | opens => exact fun entry member => (List.not_mem_nil member).elim
  | takes => exact fun entry member => (List.not_mem_nil member).elim
  | delivers => exact fun entry member => (List.not_mem_nil member).elim
  | awaits => exact fun entry member => (List.not_mem_nil member).elim
  | collects => exact fun entry member => (List.not_mem_nil member).elim
  | @looks c w =>
    intro entry member r found _
    have listed := (byRank_perm c c.deadlines).mem_iff.1 member
    exact (clocked.get?_iff found entry.2).1 (Table.get?_of_mem clocked.distinct (Key.exact entry.1) listed)
  | @expires c c' _ _ _ _ expired =>
    intro entry member r' found' running
    obtain ⟨r, found, _⟩ := stepped.evolved.source found'
    -- Looking at a deadline starts nobody, so a job that runs now ran before.
    have before : r.status = .running := by
      cases expire_ok expired with
      | early =>
        cases found.symm.trans found'
        exact running
      | ended =>
        cases found.symm.trans found'
        exact running
      | @stopped i _ _ _ held _ late =>
        cases found'.symm.trans (late.records.found found)
        by_cases here : entry.1 = i
        · rw [here, aftermath, if_pos rfl] at running
          cases running
        · exact (aftermath_running here).1 running
    exact (stepped.due_iff found found' (iff_of_true running before) entry.2).2
      (due entry (List.mem_cons_of_mem _ member) r found before)

theorem Step.unreported (step : Step m m') (found : m.coord.record? j = some r)
    (found' : m'.coord.record? j = some r') (unended : r'.status.isTerminal = false)
    (unreported : r.status.isTerminal = false → r.Unreported) : r'.Unreported := by
  have fate := step.fate_of found found'
  cases fate with
  | kept => exact unreported unended
  | opened _ _ _ _ _ legal =>
    rw [JobRecord.moved_status] at unended
    have before : r.status.isTerminal = false := by
      by_contra terminal
      rw [Bool.not_eq_false] at terminal
      rw [JobRecord.mayBecome_of_terminal terminal] at legal
      cases legal
    obtain ⟨finishedAt, steps, artifacts⟩ := unreported before
    exact ⟨by simp [JobRecord.moved, unended, finishedAt], steps, artifacts⟩
  | lacked => cases unended
  | launched ready =>
    obtain ⟨finishedAt, steps, artifacts⟩ := unreported (by rw [ready]; rfl)
    exact ⟨by simp [JobRecord.moved, Status.isTerminal, finishedAt], steps, artifacts⟩
  | returned =>
    rw [JobRecord.moved_status, Outcome.ending_terminal] at unended
    cases unended
  | expired => cases unended
  | stopped => cases unended

theorem Step.token_kept (step : Step m m') (found : m.coord.record? j = some r)
    (ended : r.status.isTerminal = true) (set : m.coord.tokens.get? j = some true) :
    m'.coord.tokens.get? j = some true := by
  have asked {base c' : Coordinator} {among : Nat → Prop} (asked : StopsAsked base c' among)
      (before : base.tokens.get? j = some true) : c'.tokens.get? j = some true := by
    rcases asked.token j with token | token
    · rw [token, before]
    · rw [token, before, Option.map_some]
  cases step with
  | opens _ _ _ _ opened => exact ((openStage_ok opened).tokens j).trans set
  | takes _ _ taken =>
    cases takeUp_ok taken with
    | passed => exact set
    | lacked held _ _ failed => exact asked (transition_ok failed held).2.2.2 set
    | launched held ready _ started =>
      rw [started.tokens]
      split
      next here =>
        subst here
        cases held.symm.trans found
        rw [ready] at ended
        cases ended
      next => exact set
  | delivers => exact set
  | awaits => exact set
  | collects collected =>
    cases collect_ok collected with
    | dropped => exact set
    | taken _ _ returned => exact asked returned.asked set
  | looks => exact set
  | expires expired =>
    cases expire_ok expired with
    | early => exact set
    | ended => exact set
    | @stopped i _ _ _ _ _ late =>
      apply asked late.asked
      by_cases here : i = j <;> simp [request, Table.get?_insert, Key.same, here, set]

theorem Step.arrived (step : Step m m') (working : World.Working ω)
    (arrived : ∀ slot outcome, (slot, .returned outcome) ∈ m.arrived → outcome.OfWorker) :
    ∀ slot outcome, (slot, .returned outcome) ∈ m'.arrived → outcome.OfWorker := by
  intro slot outcome member
  cases step with
  | opens => cases member
  | takes => cases member
  | delivers => cases member
  | @awaits c w limit => exact working w limit slot outcome ((byRank_perm c _).mem_iff.1 member)
  | collects => exact arrived slot outcome (List.mem_cons_of_mem _ member)
  | looks => cases member
  | expires => cases member

theorem Step.punctual (step : Step m m') (working : World.Working ω) (clocked : Clocked m)
    (lived : ∀ j r, m.coord.record? j = some r → r.Lived) (punctual : Punctual m) : Punctual m' := by
  constructor
  case due => exact step.due clocked punctual.due
  case arrived => exact step.arrived working punctual.arrived
  case unreported =>
    intro j r' found' unended
    obtain ⟨r, found, _⟩ := step.evolved.source found'
    exact step.unreported found found' unended (punctual.unreported j r found)
  case overran =>
    intro j r' found' timeout
    obtain ⟨r, found, evolves⟩ := step.evolved.source found'
    by_cases before : r.cause = some .timeout
    · obtain ⟨limit, started, ended, overran⟩ := punctual.overran j r found before
      rw [evolves.frozen (by rw [overran.failed]; rfl)]
      exact ⟨limit, started, ended, overran.of_setup step.frame.1⟩
    · obtain ⟨running, stopped, deadline, later, due⟩ := step.expiring punctual found found' before timeout
      obtain ⟨⟨now, late, rfl⟩, _⟩ := step.overdue found running due found' stopped
      have own := punctual.due (j, deadline) (due ▸ List.mem_cons_self) r found running
      obtain ⟨started, overran⟩ :=
        overran_moved own (lived j r found) (punctual.unreported j r found (by rw [running]; rfl)) late
      exact ⟨_, started, now, overran.of_setup step.frame.1⟩
  case asked =>
    intro j r' found' timeout
    obtain ⟨r, found, evolves⟩ := step.evolved.source found'
    by_cases before : r.cause = some .timeout
    · obtain ⟨_, _, _, overran⟩ := punctual.overran j r found before
      exact step.token_kept found (by rw [overran.failed]; rfl) (punctual.asked j r found before)
    · obtain ⟨running, stopped, deadline, later, due⟩ := step.expiring punctual found found' before timeout
      exact (step.overdue found running due found' stopped).2.1

theorem Path.punctual (path : Path m m') (working : World.Working ω)
    (lived : ∀ j r, m.coord.record? j = some r → r.Lived) (clocked : Clocked m) (punctual : Punctual m) :
    Clocked m' ∧ Punctual m' := by
  induction path with
  | refl => exact ⟨clocked, punctual⟩
  | tail earlier step ih =>
    obtain ⟨clocked, punctual⟩ := ih
    refine ⟨step.clocked clocked, step.punctual working clocked ?_ punctual⟩
    intro j r' found'
    obtain ⟨r, found, evolves⟩ := (Path.evolved earlier).source found'
    exact evolves.lived (lived j r found)

end Moment
end Conveyor
