import Conveyor.Proofs.WorldRoster

/-! How workers come to their ends. An attempt at a step may be answered in the ways that a manner allows, and a
worker ends as its steps make it. If executors have a settled conduct, in which what an attempt gives depends on the
job, its inputs and the steps before, and only a worker that has been asked to stop may say instead that it was
cancelled, then a worker that nobody stops has one possible end. -/

namespace Conveyor

/-- Which artifacts may have been published, and which replies given, after an attempt at the next step of a worker that
then finds its token set or not. -/
abbrev Manner := Worker → Bool → Table String Blob → Reply → Prop

/-- What an attempt at the next step of a worker publishes and replies. -/
abbrev Conduct := Worker → Table String Blob × Reply

/-- A reply to an attempt: the one of the conduct, or, if the token is set, that it was cancelled. -/
def Conduct.Allows (conduct : Conduct) : Manner := fun w token staged reply =>
  (staged, reply) = conduct w ∨ token = true ∧ ∃ o, reply = .outcome o ∧ o.cancelled = true

theorem Conduct.allows_unset {conduct : Conduct} {w : Worker} {staged : Table String Blob} {reply : Reply}
    (allowed : conduct.Allows w false staged reply) : staged = (conduct w).1 ∧ reply = (conduct w).2 := by
  rcases allowed with same | ⟨impossible, _⟩
  · exact ⟨congrArg Prod.fst same, congrArg Prod.snd same⟩
  · cases impossible

/-- Nobody but the coordinator sets tokens: that of a worker is found set only if the worker has been asked to stop. -/
def Untouched (asked token : Bool) : Prop := token = true → asked = true

theorem untouched_unset (asked : Bool) : Untouched asked false := nofun

theorem untouched_unasked {token : Bool} (untouched : Untouched false token) : token = false := by
  cases token with
  | false => rfl
  | true => cases untouched rfl

namespace Worker

/-- The outcomes to which a worker may come, if its token, which is looked at before every step and after it, may be
found to be so. -/
inductive Ends (manner : Manner) (finds : Bool → Prop) : Worker → Outcome → Prop
  | finishes {w : Worker} {outcome : Outcome} {token : Bool} (found : finds token)
      (done : w.turn token = .finish (.returned outcome)) : Ends manner finds w outcome
  | stops {w : Worker} {step : Step} {staged : Table String Blob} {reply : Reply} {outcome : Outcome} {token : Bool}
      (found : finds token) (next : w.turn false = .attempt step) (replied : manner w token staged reply)
      (done : w.receive step staged reply token = .error (.returned outcome)) : Ends manner finds w outcome
  | goesOn {w w' : Worker} {step : Step} {staged : Table String Blob} {reply : Reply} {outcome : Outcome}
      {token : Bool} (found : finds token) (next : w.turn false = .attempt step)
      (replied : manner w token staged reply) (done : w.receive step staged reply token = .ok w')
      (rest : Ends manner finds w' outcome) : Ends manner finds w outcome

abbrev EndsBy (conduct : Conduct) (asked : Bool) : Worker → Outcome → Prop := Ends conduct.Allows (Untouched asked)

def advance (conduct : Conduct) (w : Worker) : Except Completion Worker :=
  match w.turn false with
  | .finish completion => .error completion
  | .attempt step => w.receive step (conduct w).1 (conduct w).2 false

variable {conduct : Conduct} {asked : Bool} {w : Worker} {outcome : Outcome}

theorem Ends.of_error (here : w.advance conduct = .error (.returned outcome)) : EndsBy conduct asked w outcome := by
  unfold advance at here
  split at here
  next completion done =>
    cases here
    exact .finishes (untouched_unset asked) done
  next step next => exact .stops (untouched_unset asked) next (Or.inl rfl) here

theorem Ends.of_ok {w' : Worker} (here : w.advance conduct = .ok w') (rest : EndsBy conduct asked w' outcome) :
    EndsBy conduct asked w outcome := by
  unfold advance at here
  split at here
  next => cases here
  next step next => exact .goesOn (untouched_unset asked) next (Or.inl rfl) here rest

theorem Ends.cases_unasked (ends : EndsBy conduct false w outcome) :
    w.advance conduct = .error (.returned outcome) ∨
      ∃ w', w.advance conduct = .ok w' ∧ EndsBy conduct false w' outcome := by
  cases ends with
  | finishes found done =>
    cases untouched_unasked found
    exact Or.inl (by simp only [advance, done])
  | stops found next replied done =>
    cases untouched_unasked found
    obtain ⟨rfl, rfl⟩ := Conduct.allows_unset replied
    exact Or.inl (by simp only [advance, next, done])
  | @goesOn _ w' _ _ _ _ _ found next replied done rest =>
    cases untouched_unasked found
    obtain ⟨rfl, rfl⟩ := Conduct.allows_unset replied
    exact Or.inr ⟨w', by simp only [advance, next, done], rest⟩

theorem Ends.unique {other : Outcome} (left : EndsBy conduct false w outcome) (right : EndsBy conduct false w other) :
    outcome = other := by
  have here {w : Worker} {outcome : Outcome} (ends : w.advance conduct = .error (.returned outcome))
      (right : EndsBy conduct false w other) : outcome = other := by
    rcases right.cases_unasked with same | ⟨_, next, _⟩
    · cases ends.symm.trans same
      rfl
    · cases ends.symm.trans next
  induction left with
  | finishes found done =>
    cases untouched_unasked found
    exact here (by simp only [advance, done]) right
  | stops found next replied done =>
    cases untouched_unasked found
    obtain ⟨rfl, rfl⟩ := Conduct.allows_unset replied
    exact here (by simp only [advance, next, done]) right
  | @goesOn w w' _ _ _ _ _ found next replied done _ ih =>
    cases untouched_unasked found
    obtain ⟨rfl, rfl⟩ := Conduct.allows_unset replied
    have onward : w.advance conduct = .ok w' := by simp only [advance, next, done]
    rcases right.cases_unasked with ended | ⟨w'', again, rest⟩
    · cases onward.symm.trans ended
    · cases onward.symm.trans again
      exact ih rest

/-- A token that is found set changes what comes of a step only by making it cancelled. -/
theorem receive_token (w : Worker) (step : Step) (staged : Table String Blob) (reply : Reply) (token : Bool) :
    w.receive step staged reply token = w.receive step staged reply false ∨
      ∃ message steps, w.receive step staged reply token = .error (.returned (.cancelled message steps)) := by
  cases reply with
  | interrupted => exact Or.inl rfl
  | nothing => exact Or.inl rfl
  | raised fault => exact Or.inl rfl
  | outcome o =>
    by_cases stopped : (o.cancelled || (token && !o.ok)) = true
    · exact Or.inr ⟨_, _, by simp only [receive, stopped, if_true]; rfl⟩
    · have unstopped : (o.cancelled || (false && !o.ok)) = false := by
        simp only [Bool.or_eq_true, Bool.and_eq_true, not_or] at stopped
        simpa using stopped.1
      exact Or.inl (by simp only [receive, stopped, unstopped, if_false, Bool.false_eq_true])

theorem receive_cancelled (w : Worker) (step : Step) (staged : Table String Blob) {o : StepOutcome}
    (cancelled : o.cancelled = true) (token : Bool) :
    ∃ message steps, w.receive step staged (.outcome o) token = .error (.returned (.cancelled message steps)) :=
  ⟨_, _, by simp only [receive, cancelled, Bool.true_or, if_true]; rfl⟩

theorem turn_token (w : Worker) (token : Bool) : w.turn token = w.turn false ∨
    ∃ message steps, w.turn token = .finish (.returned (.cancelled message steps)) := by
  unfold turn
  split
  · exact Or.inl rfl
  · cases token with
    | false => exact Or.inl rfl
    | true => exact Or.inr ⟨_, _, rfl⟩

/-- A worker that has been asked to stop comes to the same end, or says that it was cancelled. -/
theorem Ends.unless_cancelled (ends : EndsBy conduct asked w outcome) :
    EndsBy conduct false w outcome ∨ asked = true ∧ ∃ message steps, outcome = .cancelled message steps := by
  induction ends with
  | @finishes w _ token found done =>
    cases token with
    | false => exact Or.inl (.of_error (by simp only [advance, done]))
    | true =>
      rcases w.turn_token true with same | ⟨message, steps, stopped⟩
      · exact Or.inl (.of_error (by simp only [advance, ← same, done]))
      · cases done.symm.trans stopped
        exact Or.inr ⟨found rfl, message, steps, rfl⟩
  | @stops w step staged reply _ token found next replied done =>
    rcases replied with normal | ⟨set, o, rfl, cancelled⟩
    · obtain ⟨rfl, rfl⟩ := Prod.ext_iff.1 normal
      cases token with
      | false => exact Or.inl (.of_error (by simp only [advance, next, done]))
      | true =>
        rcases w.receive_token step (conduct w).1 (conduct w).2 true with same | ⟨message, steps, stopped⟩
        · exact Or.inl (.of_error (by simp only [advance, next, ← same, done]))
        · cases done.symm.trans stopped
          exact Or.inr ⟨found rfl, message, steps, rfl⟩
    · obtain ⟨message, steps, stopped⟩ := w.receive_cancelled step staged cancelled token
      cases done.symm.trans stopped
      exact Or.inr ⟨found set, message, steps, rfl⟩
  | @goesOn w w' step staged reply _ token found next replied done _ ih =>
    rcases replied with normal | ⟨_, o, rfl, cancelled⟩
    · obtain ⟨rfl, rfl⟩ := Prod.ext_iff.1 normal
      have onward : w.advance conduct = .ok w' := by
        rcases w.receive_token step (conduct w).1 (conduct w).2 token with same | ⟨_, _, stopped⟩
        · simp only [advance, next, ← same, done]
        · cases done.symm.trans stopped
      exact ih.imp_left (.of_ok onward)
    · obtain ⟨_, _, stopped⟩ := w.receive_cancelled step staged cancelled token
      cases done.symm.trans stopped

end Worker

/-- In a candid manner only a worker that finds its token set is said to be cancelled. -/
def Manner.candid : Manner := fun _ token _ reply => ∀ o, reply = .outcome o → o.cancelled = true → token = true

namespace Worker

variable {w : Worker} {token : Bool} {message : String} {steps : List StepResult}

theorem conclude_uncancelled : w.conclude ≠ .cancelled message steps := by
  unfold conclude
  dsimp only
  split
  · split <;> exact nofun
  · exact nofun

theorem turn_cancelled (done : w.turn token = .finish (.returned (.cancelled message steps))) : token = true := by
  unfold turn at done
  split at done
  · exact (conclude_uncancelled (Completion.returned.inj (Turn.finish.inj done))).elim
  · split at done
    next set => exact set
    next => split at done <;> cases done

theorem receive_cancelled_by {step : Step} {staged : Table String Blob} {reply : Reply}
    (done : w.receive step staged reply token = .error (.returned (.cancelled message steps))) :
    token = true ∨ ∃ o, reply = .outcome o ∧ o.cancelled = true := by
  cases reply with
  | interrupted | nothing => cases done
  | raised fault =>
    have said := Completion.returned.inj (Except.error.inj done)
    split at said
    · cases said
    · unfold raised at said
      dsimp only at said
      split at said <;> cases said
  | outcome o =>
    simp only [receive] at done
    split at done
    next stopped =>
      rw [Bool.or_eq_true, Bool.and_eq_true] at stopped
      exact stopped.symm.imp And.left fun cancelled => ⟨o, rfl, cancelled⟩
    next =>
      split at done
      · have said := Completion.returned.inj (Except.error.inj done)
        split at said <;> cases said
      · cases done

theorem Ends.found_of_cancelled {finds : Bool → Prop} (ends : w.Ends Manner.candid finds (.cancelled message steps)) :
    finds true := by
  generalize outcome : Outcome.cancelled message steps = last at ends
  induction ends with
  | finishes found done =>
    subst outcome
    exact turn_cancelled done ▸ found
  | stops found next replied done =>
    subst outcome
    rcases receive_cancelled_by done with set | ⟨o, said, cancelled⟩
    · exact set ▸ found
    · exact replied o said cancelled ▸ found
  | goesOn _ _ _ _ _ ih => exact ih outcome

end Worker

/-- A world that keeps what is stored: an artifact is taken if and only if its place is free, discarding empties the
places of one producer, and nothing else changes what is stored. -/
structure World.Keeps (ω : Type) [World ω] : Prop where
  free : ∀ (w : ω) key blob, ArtifactStore.get? w key = none → ∃ w', ArtifactStore.put w key blob = .ok (.of key blob, w') ∧
    ∀ other, ArtifactStore.get? w' other = if other = key then some blob else ArtifactStore.get? w other
  occupied : ∀ (w : ω) key blob, ArtifactStore.get? w key ≠ none → ArtifactStore.put w key blob = .error (.occupied key)
  discarded : ∀ (w : ω) producer key, ArtifactStore.get? (ArtifactStore.discard w producer) key =
    if key.producer = producer then none else ArtifactStore.get? w key
  accepted : ∀ (w : ω) request key, ArtifactStore.get? (World.accept w request) key = ArtifactStore.get? w key
  awaited : ∀ (w : ω) limit key, ArtifactStore.get? (World.await w limit).world key = ArtifactStore.get? w key

/-- A world in which every worker comes to an end that a manner allows, and finds its token as is said for a worker that
has been asked to stop, or has not. -/
def Roster.Performs {ω : Type} [World ω] (roster : Roster ω) (manner : Manner) (finds : Bool → Bool → Prop) : Prop :=
  ∀ w limit slot outcome, (slot, .returned outcome) ∈ (World.await w limit).finished →
    ∃ posting ∈ roster.postings w, posting.slot = slot ∧ posting.worker.Ends manner (finds posting.asked) outcome

end Conveyor
