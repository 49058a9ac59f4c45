import Mathlib.Data.List.Nodup
import Conveyor.Proofs.RunSteps
import Conveyor.Proofs.WorkerReturn

/-! Worlds with a roster of workers. The roster says who is at work: a launch enters a worker, waiting may end
some, and nothing else changes who is there. A fair world lets every worker come back at some time. -/

namespace Conveyor

/-- A worker at work: the place of its job, how it was started, and whether it has been asked to stop. -/
structure Posting where
  slot : Nat
  worker : Worker
  asked : Bool := false
  deriving DecidableEq, Repr

def Posting.ask (slot : Nat) (posting : Posting) : Posting :=
  if posting.slot = slot then { posting with asked := true } else posting

@[simp] theorem Posting.ask_slot (slot : Nat) (posting : Posting) : (posting.ask slot).slot = posting.slot := by
  unfold Posting.ask
  split <;> rfl

/-- The workers of a world. Those that have ended after a wait were at work before it, and ended once. -/
structure Roster (ω : Type) [World ω] where
  postings : ω → List Posting
  launched : ∀ w slot worker, postings (World.accept w (.launch slot worker)) = postings w ++ [⟨slot, worker, false⟩]
  cancelled : ∀ w slot, postings (World.accept w (.cancel slot)) = (postings w).map (Posting.ask slot)
  stored : ∀ w key blob entry w', ArtifactStore.put w key blob = .ok (entry, w') → postings w' = postings w
  discarded : ∀ w producer, postings (ArtifactStore.discard w producer) = postings w
  ended : ∀ w limit slot completion, (slot, completion) ∈ (World.await w limit).finished →
    ∃ posting ∈ postings w, posting.slot = slot
  once : ∀ w limit, ((postings w).map (·.slot)).Nodup → ((World.await w limit).finished.map Prod.fst).Nodup
  remaining : ∀ w limit, postings (World.await w limit).world =
    (postings w).filter fun posting => posting.slot ∉ (World.await w limit).finished.map Prod.fst

variable {ω : Type} [World ω]

/-- In a run that never ends every worker comes back at some time. -/
def Roster.Fair (roster : Roster ω) (start : Operation ω) : Prop :=
  ∀ run : Nat → Operation ω, run 0 = start → (∀ k, (run k).turn = .ok (run (k + 1), true)) →
    ∀ k, ∀ posting ∈ roster.postings (run k).world,
      ∃ l, k ≤ l ∧ ∀ other ∈ roster.postings (run l).world, other.slot ≠ posting.slot

def launches (requests : List Request) : List Nat :=
  requests.filterMap fun
    | .launch slot _ => some slot
    | .cancel _ => none

@[simp] theorem launches_append (first second : List Request) :
    launches (first ++ second) = launches first ++ launches second := List.filterMap_append

@[simp] theorem launches_cancels (slots : List Nat) : launches (slots.map Request.cancel) = [] := by
  simp [launches, List.filterMap_map]

namespace Roster

variable (roster : Roster ω)

def slots (w : ω) : List Nat := (roster.postings w).map (·.slot)

theorem slots_delivered (requests : List Request) (w : ω) :
    roster.slots (requests.foldl World.accept w) = roster.slots w ++ launches requests := by
  induction requests generalizing w with
  | nil => simp [launches]
  | cons request requests ih =>
    rw [List.foldl_cons, ih]
    cases request with
    | launch slot worker => simp [slots, roster.launched, launches]
    | cancel slot =>
      simp [slots, roster.cancelled, launches, Function.comp_def]

def entered (postings : List Posting) : Request → List Posting
  | .launch slot worker => postings ++ [⟨slot, worker, false⟩]
  | .cancel slot => postings.map (Posting.ask slot)

theorem postings_delivered (requests : List Request) (w : ω) :
    roster.postings (requests.foldl World.accept w) = requests.foldl entered (roster.postings w) := by
  induction requests generalizing w with
  | nil => rfl
  | cons request requests ih =>
    rw [List.foldl_cons, List.foldl_cons, ih]
    cases request with
    | launch slot worker => rw [roster.launched, entered]
    | cancel slot => rw [roster.cancelled, entered]

theorem mem_cancels {slots : List Nat} {postings : List Posting} {posting : Posting}
    (member : posting ∈ (slots.map Request.cancel).foldl entered postings) :
    ∃ before ∈ postings, posting.slot = before.slot ∧
      (before.asked = true ∨ before.slot ∈ slots → posting.asked = true) := by
  induction slots generalizing postings with
  | nil => exact ⟨posting, member, rfl, by simp⟩
  | cons slot slots ih =>
    rw [List.map_cons, List.foldl_cons] at member
    obtain ⟨middle, present, same, asked⟩ := ih member
    obtain ⟨before, posted, rfl⟩ := List.mem_map.1 present
    refine ⟨before, posted, by rw [same, Posting.ask_slot], ?_⟩
    intro reason
    apply asked
    rw [Posting.ask_slot]
    by_cases here : before.slot = slot
    · exact Or.inl (by simp [Posting.ask, here])
    · refine reason.imp (fun asked => ?_) fun listed => ?_
      · simpa [Posting.ask, here] using asked
      · exact (List.mem_cons.1 listed).resolve_left here

theorem postings_stored {producer : Producer} {w w' : ω} {taken : List (String × Blob)} {entries : List Entry}
    (stored : Stored producer w taken entries w') : roster.postings w' = roster.postings w := by
  induction stored with
  | nil => rfl
  | cons put _ ih => rw [ih, roster.stored _ _ _ _ _ put]

/-- Those that have ended and those that have not are together those who were at work. -/
theorem slots_awaited (w : ω) (limit : Option Double) (distinct : (roster.slots w).Nodup) :
    ((roster.slots (World.await w limit).world) ++ (World.await w limit).finished.map Prod.fst).Perm
      (roster.slots w) := by
  have kept : roster.slots (World.await w limit).world =
      (roster.slots w).filter fun slot => slot ∉ (World.await w limit).finished.map Prod.fst := by
    simp [slots, roster.remaining, List.filter_map, Function.comp_def]
  rw [kept]
  have known : ∀ slot ∈ (World.await w limit).finished.map Prod.fst, slot ∈ roster.slots w := by
    intro slot member
    obtain ⟨⟨_, completion⟩, ended, rfl⟩ := List.mem_map.1 member
    obtain ⟨posting, posted, same⟩ := roster.ended w limit _ completion ended
    exact List.mem_map.2 ⟨posting, posted, same⟩
  rw [List.perm_ext_iff_of_nodup ?_ distinct]
  · intro slot
    by_cases ended : slot ∈ (World.await w limit).finished.map Prod.fst
    · simp only [List.mem_append, ended, or_true, true_iff]
      exact known slot ended
    · simp only [List.mem_append, List.mem_filter, ended, not_false_eq_true, decide_true, and_true, or_false]
  · refine List.nodup_append.2 ⟨distinct.filter _, roster.once w limit distinct, ?_⟩
    rintro slot member other ended rfl
    simp [ended] at member

end Roster

end Conveyor
