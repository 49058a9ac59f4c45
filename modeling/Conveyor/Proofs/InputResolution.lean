import Conveyor.Artifact.Inputs
import Conveyor.Proofs.Fallible
import Conveyor.Proofs.TableContents

/-! How the inputs of a job are found. The search reads the records of the producing stages and what their jobs
have stored, and nothing else; once all those jobs have succeeded it fails only for want of an artifact, or at a number
with too many digits. If it finds what it looks for, the inputs are what the jobs that the references select have
stored. -/

namespace Conveyor

open Fallible

variable {σ σ' : Type} [ArtifactStore σ] [ArtifactStore σ']

/-- The items that pass a test which fails for some of them in one way only. -/
theorem chosen_cases {α : Type} {test : α → Except ValueFault Bool} {fault : ValueFault} {bad : α → Prop}
    {passes : α → Bool} {items : List α}
    (each : ∀ x ∈ items, test x = .error fault ∧ bad x ∨ test x = .ok (passes x) ∧ ¬ bad x) :
    chosen test items = .error fault ∧ (∃ x ∈ items, bad x) ∨
      chosen test items = .ok (items.filter passes) ∧ ∀ x ∈ items, ¬ bad x := by
  induction items with
  | nil => exact Or.inr ⟨rfl, List.forall_mem_nil _⟩
  | cons x items ih =>
    rw [chosen]
    rcases each x List.mem_cons_self with ⟨failed, is⟩ | ⟨tested, fine⟩
    · exact Or.inl ⟨by rw [failed]; rfl, x, List.mem_cons_self, is⟩
    · rcases ih fun y member => each y (List.mem_cons_of_mem _ member) with ⟨failed, y, member, is⟩ | ⟨rest, others⟩
      · exact Or.inl ⟨by rw [tested, failed]; rfl, y, List.mem_cons_of_mem _ member, is⟩
      · refine Or.inr ⟨?_, List.forall_mem_cons.2 ⟨fine, others⟩⟩
        rw [tested, rest, List.filter_cons]
        rfl

namespace Value

theorem written_eq (v : Value) : v.written = if v.isUnwritable then .error .unwritable else .ok v.text := rfl

theorem written_ok {v : Value} (writable : v.isUnwritable = false) : v.written = .ok v.text := by
  rw [written_eq, writable]
  rfl

theorem written_error {v : Value} (unwritable : v.isUnwritable = true) : v.written = .error .unwritable := by
  rw [written_eq, unwritable]
  rfl

theorem anyEntryUnwritable_eq (entries : Mapping) :
    anyEntryUnwritable entries = entries.any fun entry => entry.1.isUnwritable || entry.2.isUnwritable := by
  induction entries with
  | nil => rfl
  | cons entry rest ih => rw [anyEntryUnwritable, List.any_cons, ih]

theorem anyEntryUnwritable_false {entries : Mapping} : anyEntryUnwritable entries = false ↔
    ∀ field ∈ entries, field.1.isUnwritable = false ∧ field.2.isUnwritable = false := by
  rw [anyEntryUnwritable_eq, List.any_eq_false]
  simp

theorem entry_unwritable {entries : Mapping} {k v : Value} (member : (k, v) ∈ entries)
    (unwritable : v.isUnwritable = true) : anyEntryUnwritable entries = true := by
  rw [anyEntryUnwritable_eq]
  exact List.any_eq_true.2 ⟨_, member, by simp [unwritable]⟩

theorem anyEntryUnwritable_ofPairs {pairs : Assignment} (long : anyEntryUnwritable (Table.ofPairs pairs) = true) :
    anyEntryUnwritable pairs = true := by
  rw [anyEntryUnwritable_eq, List.any_eq_true] at long ⊢
  obtain ⟨⟨k, v⟩, member, long⟩ := long
  rcases Bool.or_eq_true .. ▸ long with key | value
  · have set : k ∈ (Table.update [] pairs).keys := List.mem_map_of_mem member
    obtain ⟨entry, inside, rfl⟩ := List.mem_map.1 ((Table.keys_update_subset set).resolve_left List.not_mem_nil)
    exact ⟨entry, inside, by rw [key, Bool.true_or]⟩
  · obtain ⟨entry, listed, rfl⟩ := List.mem_map.1 (Table.values_ofPairs _ v (List.mem_map_of_mem member))
    exact ⟨entry, listed, by rw [value, Bool.or_true]⟩

end Value

namespace Job

/-- Whether a job has, for each entry of a filter, a value with the same text. -/
def fits (j : Job) (filter : Mapping) : Bool :=
  filter.all fun entry => (j.matrix.get? entry.1).map Value.text == some entry.2.text

/-- The comparison of a job with a filter comes to a value that cannot be written. -/
def Stumbles (j : Job) (filter : Mapping) : Prop :=
  ∃ before k v after w, filter = before ++ (k, v) :: after ∧ j.fits before = true ∧ j.matrix.get? k = some w ∧
    (w.isUnwritable = true ∨ v.isUnwritable = true)

variable {j : Job}

theorem stumbles_cons {k v : Value} {rest : Mapping} : j.Stumbles ((k, v) :: rest) ↔
    ∃ w, j.matrix.get? k = some w ∧
      (w.isUnwritable = true ∨ v.isUnwritable = true ∨ w.text = v.text ∧ j.Stumbles rest) := by
  constructor
  · rintro ⟨_ | ⟨first, before⟩, k', v', after, w, split, fits, found, unwritable⟩
    · cases split
      exact ⟨w, found, unwritable.imp_right Or.inl⟩
    · cases split
      rw [Job.fits, List.all_cons, Bool.and_eq_true, beq_iff_eq, Option.map_eq_some_iff] at fits
      obtain ⟨⟨own, present, same⟩, fits⟩ := fits
      exact ⟨own, present, Or.inr (Or.inr ⟨same, before, k', v', after, w, rfl, fits, found, unwritable⟩)⟩
  · rintro ⟨w, found, unwritable | unwritable | ⟨same, before, k', v', after, w', rfl, fits, found', unwritable⟩⟩
    · exact ⟨[], k, v, rest, w, rfl, rfl, found, Or.inl unwritable⟩
    · exact ⟨[], k, v, rest, w, rfl, rfl, found, Or.inr unwritable⟩
    · refine ⟨(k, v) :: before, k', v', after, w', rfl, ?_, found', unwritable⟩
      rw [Job.fits, List.all_cons, Bool.and_eq_true]
      exact ⟨by simp [found, same], fits⟩

theorem not_stumbles_nil : ¬ j.Stumbles [] := by
  rintro ⟨before, k, v, after, w, split, _⟩
  simp at split

theorem Stumbles.unwritable {filter : Mapping} (stumbles : j.Stumbles filter) :
    Value.anyEntryUnwritable filter = true ∨ Value.anyEntryUnwritable j.assignment = true := by
  obtain ⟨before, k, v, after, w, rfl, _, found, unwritable | unwritable⟩ := stumbles
  · obtain ⟨⟨key, _⟩, member, rfl⟩ := List.mem_map.1 (Table.values_ofPairs _ _ (Table.value_of_get? found))
    exact Or.inr (Value.entry_unwritable member unwritable)
  · exact Or.inl (Value.entry_unwritable (List.mem_append_right _ List.mem_cons_self) unwritable)

theorem accepts_cases (j : Job) (filter : Mapping) :
    j.accepts filter = .error .unwritable ∧ j.Stumbles filter ∨
      j.accepts filter = .ok (j.fits filter) ∧ ¬ j.Stumbles filter := by
  induction filter with
  | nil => exact Or.inr ⟨rfl, not_stumbles_nil⟩
  | cons entry rest ih =>
    obtain ⟨k, v⟩ := entry
    rw [accepts, stumbles_cons, fits, List.all_cons]
    cases found : j.matrix.get? k with
    | none => exact Or.inr ⟨by simp, by simp⟩
    | some w =>
      by_cases unwritable : w.isUnwritable = true
      · exact Or.inl ⟨by simp only [Value.written_error unwritable]; rfl, w, rfl, Or.inl unwritable⟩
      by_cases long : v.isUnwritable = true
      · refine Or.inl ⟨?_, w, rfl, Or.inr (Or.inl long)⟩
        simp only [Value.written_ok (Bool.eq_false_iff.2 unwritable), Value.written_error long]
        rfl
      · simp only [Value.written_ok (Bool.eq_false_iff.2 unwritable), Value.written_ok (Bool.eq_false_iff.2 long)]
        by_cases same : w.text = v.text
        · rcases ih with ⟨failed, stumbles⟩ | ⟨done, fine⟩
          · exact Or.inl ⟨(if_pos same).trans failed, w, rfl, Or.inr (Or.inr ⟨same, stumbles⟩)⟩
          · refine Or.inr ⟨(if_pos same).trans (done.trans ?_), by simp [unwritable, long, fine]⟩
            simp [same, fits]
        · exact Or.inr ⟨(if_neg same).trans (by simp [same, pure, Except.pure]), by simp [unwritable, long, same]⟩

end Job

namespace ArtifactRef

def piece (store : σ) (r : ArtifactRef) (q : JobRecord) : Option (ArtifactKey × Blob) :=
  (ArtifactStore.get? store ⟨q.job.producer, r.name⟩).map fun blob => (⟨⟨r.stage, q.job.qualifier⟩, r.name⟩, blob)

def selected (producers : String → List JobRecord) (r : ArtifactRef) : List JobRecord :=
  (producers r.stage).filter fun p => p.job.fits r.filter

/-- What the jobs that a reference selects have stored under its name. -/
def supplied (store : σ) (producers : String → List JobRecord) (r : ArtifactRef) : Inputs :=
  (r.selected producers).filterMap (r.piece store)

/-- All that is compared and named in the search can be written. -/
structure Readable (producers : String → List JobRecord) (r : ArtifactRef) : Prop where
  compared : ∀ q ∈ producers r.stage, ¬ q.job.Stumbles r.filter
  named : ∀ q ∈ r.selected producers, Value.anyEntryUnwritable q.job.assignment = false

/-- A job has done its part for a reference that selects it. -/
structure Serves (store : σ) (r : ArtifactRef) (q : JobRecord) : Prop where
  named : Value.anyEntryUnwritable q.job.assignment = false
  succeeded : q.status = .succeeded
  complete : r.filter.isEmpty = false → r.piece store q ≠ none

/-- A reference gets what it asks for: the jobs that it selects have succeeded and have stored something under its name,
all of them if it has a filter. -/
structure Met (store : σ) (producers : String → List JobRecord) (r : ArtifactRef) : Prop where
  compared : ∀ q ∈ producers r.stage, ¬ q.job.Stumbles r.filter
  serves : ∀ q ∈ r.selected producers, r.Serves store q
  some : r.supplied store producers ≠ []

variable {r : ArtifactRef} {producers : String → List JobRecord} {missing : MissingArtifact}

/-- Why the search through the jobs stops at one of them. -/
inductive Balks (store : σ) (r : ArtifactRef) (q : JobRecord) : InputFault → Prop
  | unnamed (unwritable : Value.anyEntryUnwritable q.job.assignment = true) :
      Balks store r q (.unusable .unwritable)
  | unfinished (status : q.status ≠ .succeeded) :
      Balks store r q (.missing (r.missing ("producer " ++ q.job.id ++ " is " ++ q.status.name)))
  | withheld (filtered : r.filter.isEmpty = false) (absent : r.piece store q = none) :
      Balks store r q (.missing (r.missing ("producer " ++ q.job.id ++ " did not publish it")))

theorem Balks.not_serves {store : σ} {q : JobRecord} {fault : InputFault} (balks : r.Balks store q fault) :
    ¬ r.Serves store q := by
  intro serves
  cases balks with
  | unnamed unwritable => simp [serves.named] at unwritable
  | unfinished status => exact status serves.succeeded
  | withheld filtered absent => exact serves.complete filtered absent

theorem collect_cons (store : σ) (r : ArtifactRef) (q : JobRecord) (producers : List JobRecord) (found : Inputs × Nat) :
    r.Serves store q ∧ r.collect store (q :: producers) found = r.collect store producers
        (found.1.update (r.piece store q).toList, found.2 + (r.piece store q).toList.length) ∨
      ∃ fault, r.Balks store q fault ∧ r.collect store (q :: producers) found = .error fault := by
  obtain ⟨inputs, count⟩ := found
  rw [collect]
  by_cases named : Value.anyEntryUnwritable q.job.assignment = true
  · exact Or.inr ⟨_, .unnamed named, if_pos named⟩
  rw [if_neg named]
  by_cases succeeded : q.status = .succeeded
  · rw [if_neg (not_not.2 succeeded)]
    dsimp only
    cases stored : ArtifactStore.get? store ⟨q.job.producer, r.name⟩ with
    | some blob =>
      have here : r.piece store q = Option.some (⟨⟨r.stage, q.job.qualifier⟩, r.name⟩, blob) := by
        rw [piece, stored]
        rfl
      refine Or.inl ⟨⟨Bool.eq_false_iff.2 named, succeeded, fun _ => by simp [here]⟩, ?_⟩
      rw [here]
      rfl
    | none =>
      have here : r.piece store q = none := by
        rw [piece, stored]
        rfl
      by_cases unfiltered : r.filter.isEmpty = true
      · refine Or.inl ⟨⟨Bool.eq_false_iff.2 named, succeeded, by simp [unfiltered]⟩, ?_⟩
        rw [here]
        exact if_pos unfiltered
      · exact Or.inr ⟨_, .withheld (Bool.eq_false_iff.2 unfiltered) here, if_neg unfiltered⟩
  · exact Or.inr ⟨_, .unfinished succeeded, if_pos succeeded⟩

theorem collect_ok {store : σ} {producers : List JobRecord} {found result : Inputs × Nat} :
    r.collect store producers found = .ok result ↔ (∀ q ∈ producers, r.Serves store q) ∧
      result = (found.1.update (producers.filterMap (r.piece store)),
        found.2 + (producers.filterMap (r.piece store)).length) := by
  induction producers generalizing found with
  | nil =>
    rw [collect, Except.ok.injEq, eq_comm]
    simp [Table.update]
  | cons q producers ih =>
    have pieces : (q :: producers).filterMap (r.piece store) =
        (r.piece store q).toList ++ producers.filterMap (r.piece store) := by
      cases here : r.piece store q <;> simp [here]
    rw [List.forall_mem_cons, pieces]
    rcases collect_cons store r q producers found with ⟨serves, rest⟩ | ⟨fault, balks, failed⟩
    · rw [rest, ih]
      simp [serves, Table.update, Nat.add_assoc]
    · rw [failed]
      exact iff_of_false (by simp) fun all => balks.not_serves all.1.1

theorem resolve_cases (store : σ) (producers : String → List JobRecord) (inputs : Inputs) (r : ArtifactRef) :
    r.resolve store producers inputs = .error (.unusable .unwritable) ∧
        (∃ q ∈ producers r.stage, q.job.Stumbles r.filter) ∨
      (r.resolve store producers inputs =
          if (r.selected producers).isEmpty then .error (.missing (r.missing "no producer job matches"))
          else r.collect store (r.selected producers) (inputs, 0) >>= fun found =>
            if found.2 = 0 then .error (.missing (r.missing "no producer job published it")) else .ok found.1) ∧
        ∀ q ∈ producers r.stage, ¬ q.job.Stumbles r.filter := by
  have each : ∀ q ∈ producers r.stage, q.job.accepts r.filter = .error .unwritable ∧ q.job.Stumbles r.filter ∨
      q.job.accepts r.filter = .ok (q.job.fits r.filter) ∧ ¬ q.job.Stumbles r.filter :=
    fun q _ => q.job.accepts_cases r.filter
  refine (chosen_cases each).imp (And.imp_left ?_) (And.imp_left ?_)
  · intro stumbled
    rw [resolve, stumbled]
    rfl
  · intro found
    rw [resolve, found]
    rfl

theorem resolve_ok {store : σ} {inputs result : Inputs} :
    r.resolve store producers inputs = .ok result ↔
      r.Met store producers ∧ result = inputs.update (r.supplied store producers) := by
  rcases resolve_cases store producers inputs r with ⟨failed, q, listed, stumbles⟩ | ⟨looked, compared⟩
  · rw [failed]
    exact iff_of_false (by simp) fun met => met.1.compared q listed stumbles
  rw [looked]
  split
  next empty =>
    refine iff_of_false (by simp) fun met => met.1.some ?_
    rw [supplied, List.isEmpty_iff.1 empty, List.filterMap_nil]
  next =>
    rw [bind_ok]
    constructor
    · rintro ⟨_, collected, counted⟩
      obtain ⟨serves, rfl⟩ := collect_ok.1 collected
      split at counted
      next => cases counted
      next positive =>
        refine ⟨⟨compared, serves, ?_⟩, (Except.ok.inj counted).symm⟩
        intro nothing
        rw [supplied] at nothing
        simp [nothing] at positive
    · rintro ⟨⟨_, serves, some⟩, rfl⟩
      refine ⟨_, collect_ok.2 ⟨serves, rfl⟩, if_neg ?_⟩
      simpa [supplied] using some

inductive Lacking (store : σ) (producers : String → List JobRecord) (r : ArtifactRef) : MissingArtifact → Prop
  | unmatched (none : r.selected producers = []) : Lacking store producers r (r.missing "no producer job matches")
  | unfinished {q : JobRecord} (member : q ∈ r.selected producers) (status : q.status ≠ .succeeded) :
      Lacking store producers r (r.missing ("producer " ++ q.job.id ++ " is " ++ q.status.name))
  | withheld {q : JobRecord} (member : q ∈ r.selected producers) (filtered : r.filter.isEmpty = false)
      (absent : r.piece store q = none) :
      Lacking store producers r (r.missing ("producer " ++ q.job.id ++ " did not publish it"))
  | nowhere (absent : r.supplied store producers = []) :
      Lacking store producers r (r.missing "no producer job published it")

/-- The search comes to a value that cannot be written: in the comparison with a filter, or in the name of the first
selected job that has not done its part. -/
inductive Garbled (store : σ) (producers : String → List JobRecord) (r : ArtifactRef) : Prop
  | filter {q : JobRecord} (listed : q ∈ producers r.stage) (stumbles : q.job.Stumbles r.filter)
  | name {before after : List JobRecord} {q : JobRecord} (compared : ∀ q ∈ producers r.stage, ¬ q.job.Stumbles r.filter)
      (split : r.selected producers = before ++ q :: after) (serve : ∀ p ∈ before, r.Serves store p)
      (unwritable : Value.anyEntryUnwritable q.job.assignment = true)

theorem collect_unnamed {store : σ} {before after : List JobRecord} {q : JobRecord} {found : Inputs × Nat}
    (serve : ∀ p ∈ before, r.Serves store p) (unwritable : Value.anyEntryUnwritable q.job.assignment = true) :
    r.collect store (before ++ q :: after) found = .error (.unusable .unwritable) := by
  induction before generalizing found with
  | nil => exact if_pos unwritable
  | cons p before ih =>
    rcases collect_cons store r p (before ++ q :: after) found with ⟨_, rest⟩ | ⟨_, balks, _⟩
    · exact rest.trans (ih fun other member => serve other (List.mem_cons_of_mem _ member))
    · exact (balks.not_serves (serve p List.mem_cons_self)).elim

theorem Garbled.resolve_eq {store : σ} (garbled : r.Garbled store producers) (inputs : Inputs) :
    r.resolve store producers inputs = .error (.unusable .unwritable) := by
  rcases resolve_cases store producers inputs r with ⟨stumbled, _⟩ | ⟨looked, compared⟩
  · exact stumbled
  cases garbled with
  | filter listed stumbles => exact (compared _ listed stumbles).elim
  | name _ split serve unwritable =>
    rw [looked, split, if_neg (by simp), collect_unnamed serve unwritable]
    rfl

/-- The search through the jobs stops at the first that has not done its part. -/
theorem collect_error {store : σ} {producers : List JobRecord} {found : Inputs × Nat} {fault : InputFault}
    (failed : r.collect store producers found = .error fault) : ∃ before q after, producers = before ++ q :: after ∧
      (∀ p ∈ before, r.Serves store p) ∧ r.Balks store q fault := by
  induction producers generalizing found with
  | nil => cases failed
  | cons q producers ih =>
    rcases collect_cons store r q producers found with ⟨serves, rest⟩ | ⟨fault', balks, stopped⟩
    · obtain ⟨before, p, after, rfl, others, balks⟩ := ih (rest.symm.trans failed)
      exact ⟨q :: before, p, after, rfl, List.forall_mem_cons.2 ⟨serves, others⟩, balks⟩
    · cases stopped.symm.trans failed
      exact ⟨[], q, producers, rfl, List.forall_mem_nil _, balks⟩

theorem resolve_error {store : σ} {inputs : Inputs} {fault : InputFault}
    (failed : r.resolve store producers inputs = .error fault) :
    fault = .unusable .unwritable ∧ r.Garbled store producers ∨
      ∃ missing, fault = .missing missing ∧ r.Lacking store producers missing := by
  rcases resolve_cases store producers inputs r with ⟨stumbled, q, listed, stumbles⟩ | ⟨looked, compared⟩
  · exact Or.inl ⟨Except.error.inj (failed.symm.trans stumbled), .filter listed stumbles⟩
  rw [looked] at failed
  split at failed
  next empty =>
    cases failed
    exact Or.inr ⟨_, rfl, .unmatched (List.isEmpty_iff.1 empty)⟩
  next =>
    rcases bind_error.1 failed with stopped | ⟨⟨found, count⟩, collected, none⟩
    · obtain ⟨before, q, after, split, serve, balks⟩ := collect_error stopped
      have member : q ∈ r.selected producers := by
        rw [split]
        simp
      cases balks with
      | unnamed unwritable => exact Or.inl ⟨rfl, .name compared split serve unwritable⟩
      | unfinished status => exact Or.inr ⟨_, rfl, .unfinished member status⟩
      | withheld filtered absent => exact Or.inr ⟨_, rfl, .withheld member filtered absent⟩
    · obtain ⟨_, same⟩ := collect_ok.1 collected
      split at none
      next zero =>
        cases none
        simp only [Prod.mk.injEq] at same
        refine Or.inr ⟨_, rfl, .nowhere ?_⟩
        rw [supplied, ← List.length_eq_zero_iff]
        dsimp only at zero
        omega
      next => cases none

end ArtifactRef

variable {producers : String → List JobRecord} {refs : List ArtifactRef}

/-- The inputs of a job are what its references get, and there are none unless every reference gets something. -/
theorem Inputs.resolve_ok {store : σ} {inputs : Inputs} :
    Inputs.resolve store producers refs = .ok inputs ↔ (∀ r ∈ refs, r.Met store producers) ∧
      inputs = Table.ofPairs (refs.flatMap fun r => r.supplied store producers) := by
  have search (start : Inputs) : refs.foldlM (ArtifactRef.resolve store producers) start = .ok inputs ↔
      (∀ r ∈ refs, r.Met store producers) ∧
        inputs = start.update (refs.flatMap fun r => r.supplied store producers) := by
    induction refs generalizing start with
    | nil => simp [Table.update, pure, Except.pure, eq_comm]
    | cons r refs ih =>
      simp only [foldlM_cons_ok, ArtifactRef.resolve_ok, ih, List.forall_mem_cons, List.flatMap_cons]
      constructor
      · rintro ⟨_, ⟨met, rfl⟩, rest, rfl⟩
        exact ⟨⟨met, rest⟩, by simp [Table.update]⟩
      · rintro ⟨⟨met, rest⟩, rfl⟩
        exact ⟨_, ⟨met, rfl⟩, rest, by simp [Table.update]⟩
  exact search []

/-- If there are no inputs, the first reference that does not get what it asks for says why. -/
theorem Inputs.resolve_stopped {store : σ} {fault : InputFault}
    (failed : Inputs.resolve store producers refs = .error fault) :
    ∃ before r after, refs = before ++ r :: after ∧ (∀ other ∈ before, other.Met store producers) ∧
      (fault = .unusable .unwritable ∧ r.Garbled store producers ∨
        ∃ missing, fault = .missing missing ∧ r.Lacking store producers missing) := by
  unfold Inputs.resolve at failed
  generalize ([] : Inputs) = inputs at failed
  induction refs generalizing inputs with
  | nil => cases failed
  | cons r refs ih =>
    rw [List.foldlM_cons] at failed
    rcases bind_error.1 failed with here | ⟨found, done, rest⟩
    · exact ⟨[], r, refs, rfl, List.forall_mem_nil _, ArtifactRef.resolve_error here⟩
    · obtain ⟨before, r', after, rfl, met, why⟩ := ih found rest
      exact ⟨r :: before, r', after, rfl, List.forall_mem_cons.2 ⟨(ArtifactRef.resolve_ok.1 done).1, met⟩, why⟩

theorem Inputs.resolve_breaks {store : σ} {before : List ArtifactRef} {r : ArtifactRef}
    (met : ∀ other ∈ before, other.Met store producers) (garbled : r.Garbled store producers)
    (after : List ArtifactRef) :
    Inputs.resolve store producers (before ++ r :: after) = .error (.unusable .unwritable) := by
  unfold Inputs.resolve
  generalize ([] : Inputs) = inputs
  induction before generalizing inputs with
  | nil =>
    rw [List.nil_append, List.foldlM_cons, garbled.resolve_eq]
    rfl
  | cons other before ih =>
    obtain ⟨here, rest⟩ := List.forall_mem_cons.1 met
    rw [List.cons_append, List.foldlM_cons, ArtifactRef.resolve_ok.2 ⟨here, rfl⟩]
    exact ih rest _

theorem Inputs.resolve_lacking {store : σ} {missing : MissingArtifact}
    (failed : Inputs.resolve store producers refs = .error (.missing missing)) :
    ∃ before r after, refs = before ++ r :: after ∧ (∀ other ∈ before, other.Met store producers) ∧
      r.Lacking store producers missing := by
  obtain ⟨before, r, after, split, met, ⟨other, _⟩ | ⟨_, same, lacking⟩⟩ := resolve_stopped failed
  · cases other
  · cases same
    exact ⟨before, r, after, split, met, lacking⟩

theorem Inputs.resolve_garbled {store : σ} {fault : ValueFault}
    (failed : Inputs.resolve store producers refs = .error (.unusable fault)) :
    fault = .unwritable ∧ ∃ before r after, refs = before ++ r :: after ∧ (∀ other ∈ before, other.Met store producers) ∧
      r.Garbled store producers := by
  obtain ⟨before, r, after, split, met, ⟨same, garbled⟩ | ⟨_, other, _⟩⟩ := resolve_stopped failed
  · cases same
    exact ⟨rfl, before, r, after, split, met, garbled⟩
  · cases other

theorem ArtifactRef.Garbled.unwritable {store : σ} {r : ArtifactRef} (garbled : r.Garbled store producers) :
    Value.anyEntryUnwritable r.filter = true ∨
      ∃ q ∈ producers r.stage, Value.anyEntryUnwritable q.job.assignment = true := by
  cases garbled with
  | filter listed stumbles => exact stumbles.unwritable.imp_right fun own => ⟨_, listed, own⟩
  | @name before after q _ split _ unwritable =>
    have selected : q ∈ r.selected producers := by
      rw [split]
      simp
    exact Or.inr ⟨q, List.mem_of_mem_filter selected, unwritable⟩

theorem ArtifactRef.Lacking.matrix {store : σ} {r : ArtifactRef} {missing : MissingArtifact}
    (lacking : r.Lacking store producers missing) : missing.matrix = r.filter := by
  cases lacking <;> rfl

/-- What stops the search without a word about it is a filter or the name of a producing job that cannot be written. -/
theorem Inputs.resolve_untold {store : σ} {fault : InputFault} {f : ValueFault}
    (failed : Inputs.resolve store producers refs = .error fault) (untold : fault.message = .error f) :
    f = .unwritable ∧ ∃ r ∈ refs, Value.anyEntryUnwritable r.filter = true ∨
      ∃ q ∈ producers r.stage, Value.anyEntryUnwritable q.job.assignment = true := by
  obtain ⟨before, r, after, rfl, _, ⟨rfl, garbled⟩ | ⟨missing, rfl, lacking⟩⟩ := resolve_stopped failed
  · exact ⟨(Except.error.inj untold).symm, r, by simp, garbled.unwritable⟩
  · rw [InputFault.message, MissingArtifact.message, map_error, Value.checkWritten, lacking.matrix] at untold
    split at untold
    next unwritable => exact ⟨(Except.error.inj untold).symm, r, by simp, Or.inl unwritable⟩
    next => cases untold

/-- What is missing if all jobs that a reference selects have succeeded: a job to select, or an artifact. -/
inductive ArtifactRef.Unpublished (r : ArtifactRef) (producers : List JobRecord) : MissingArtifact → Prop
  | unmatched : Unpublished r producers (r.missing "no producer job matches")
  | nowhere : Unpublished r producers (r.missing "no producer job published it")
  | withheld {q : JobRecord} (member : q ∈ producers) :
      Unpublished r producers (r.missing ("producer " ++ q.job.id ++ " did not publish it"))

theorem Inputs.resolve_error {store : σ} {missing : MissingArtifact}
    (succeeded : ∀ r ∈ refs, ∀ q ∈ producers r.stage, q.status = .succeeded)
    (lacking : resolve store producers refs = .error (.missing missing)) :
    ∃ r ∈ refs, r.Unpublished (producers r.stage) missing := by
  obtain ⟨before, r, after, rfl, _, lacking⟩ := resolve_lacking lacking
  have listed : r ∈ before ++ r :: after := by simp
  refine ⟨r, listed, ?_⟩
  cases lacking with
  | unmatched => exact .unmatched
  | unfinished member status => exact (status (succeeded r listed _ (List.mem_of_mem_filter member))).elim
  | withheld member => exact .withheld (List.mem_of_mem_filter member)
  | nowhere => exact .nowhere

/-- The job and how far it has come, all that the search for inputs looks at. -/
def JobRecord.standing (r : JobRecord) : Job × Status := (r.job, r.status)

variable {s : σ} {t : σ'}

theorem ArtifactRef.collect_congr {r : ArtifactRef} {producers others : List JobRecord}
    (same : others.map JobRecord.standing = producers.map JobRecord.standing)
    (contents : ∀ q ∈ producers, ArtifactStore.get? t ⟨q.job.producer, r.name⟩ =
      ArtifactStore.get? s ⟨q.job.producer, r.name⟩) (found : Inputs × Nat) :
    r.collect t others found = r.collect s producers found := by
  induction producers generalizing others found with
  | nil =>
    cases List.map_eq_nil_iff.1 same
    rfl
  | cons q producers ih =>
    obtain ⟨p, others, rfl, head, tail⟩ := List.map_eq_cons_iff.1 same
    have later (found : Inputs × Nat) : r.collect t others found = r.collect s producers found :=
      ih tail (fun q member => contents q (by simp [member])) found
    obtain ⟨job, status⟩ := Prod.ext_iff.1 head
    simp only [JobRecord.standing] at job status
    simp only [ArtifactRef.collect, job, status, contents q (by simp), later]

theorem ArtifactRef.resolve_congr {r : ArtifactRef} {others : String → List JobRecord}
    (same : (others r.stage).map JobRecord.standing = (producers r.stage).map JobRecord.standing)
    (contents : ∀ q ∈ r.selected producers,
      ArtifactStore.get? t ⟨q.job.producer, r.name⟩ = ArtifactStore.get? s ⟨q.job.producer, r.name⟩)
    (inputs : Inputs) :
    r.resolve t others inputs = r.resolve s producers inputs := by
  have stumbling : (∃ q ∈ others r.stage, q.job.Stumbles r.filter) ↔ ∃ q ∈ producers r.stage, q.job.Stumbles r.filter := by
    have jobs := congrArg (List.map Prod.fst) same
    simp only [List.map_map, Function.comp_def, JobRecord.standing] at jobs
    have listed (l : List JobRecord) : (∃ q ∈ l, q.job.Stumbles r.filter) ↔
        ∃ job ∈ l.map fun q => q.job, job.Stumbles r.filter := by simp
    rw [listed, listed, jobs]
  have selected : (r.selected others).map JobRecord.standing = (r.selected producers).map JobRecord.standing := by
    have narrowed := congrArg (List.filter fun standing => standing.1.fits r.filter) same
    simpa only [ArtifactRef.selected, List.filter_map, Function.comp_def, JobRecord.standing] using narrowed
  have empty : (r.selected others).isEmpty = (r.selected producers).isEmpty := by
    have lengths := congrArg List.isEmpty selected
    simpa only [List.isEmpty_map] using lengths
  rcases resolve_cases t others inputs r with ⟨stumbled, is⟩ | ⟨looked, compared⟩ <;>
    rcases resolve_cases s producers inputs r with ⟨stumbled', is'⟩ | ⟨looked', compared'⟩
  · rw [stumbled, stumbled']
  · obtain ⟨q, listed, stumbles⟩ := stumbling.1 is
    exact (compared' q listed stumbles).elim
  · obtain ⟨q, listed, stumbles⟩ := stumbling.2 is'
    exact (compared q listed stumbles).elim
  · rw [looked, looked', empty, collect_congr selected contents]

/-- The search for inputs gives the same where the producers stand alike and those selected have published the same. -/
theorem Inputs.resolve_congr {others : String → List JobRecord}
    (same : ∀ r ∈ refs, (others r.stage).map JobRecord.standing = (producers r.stage).map JobRecord.standing)
    (contents : ∀ r ∈ refs, ∀ q ∈ r.selected producers,
      ArtifactStore.get? t ⟨q.job.producer, r.name⟩ = ArtifactStore.get? s ⟨q.job.producer, r.name⟩) :
    Inputs.resolve t others refs = Inputs.resolve s producers refs := by
  unfold Inputs.resolve
  generalize ([] : Inputs) = inputs
  induction refs generalizing inputs with
  | nil => rfl
  | cons r refs ih =>
    simp only [List.foldlM_cons,
      ArtifactRef.resolve_congr (same r (by simp)) (contents r (by simp)) inputs]
    congr 1
    funext inputs
    exact ih (fun r member => same r (by simp [member])) (fun r member => contents r (by simp [member])) inputs

end Conveyor
