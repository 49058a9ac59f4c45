import Mathlib.Data.List.Forall2

/-! Computations that may fail. What a sequence, a fold or a map over a list gives is put together
from what its parts give. -/

namespace Conveyor.Fallible

variable {ε ε' α β : Type}

theorem bind_ok {x : Except ε α} {f : α → Except ε β} {b : β} :
    x >>= f = .ok b ↔ ∃ a, x = .ok a ∧ f a = .ok b := by
  constructor
  · intro done
    cases x with
    | error e => cases done
    | ok a => exact ⟨a, rfl, done⟩
  · rintro ⟨a, rfl, done⟩
    exact done

theorem bind_error {x : Except ε α} {f : α → Except ε β} {e : ε} :
    x >>= f = .error e ↔ x = .error e ∨ ∃ a, x = .ok a ∧ f a = .error e := by
  constructor
  · intro failed
    cases x with
    | error e =>
      cases failed
      exact Or.inl rfl
    | ok a => exact Or.inr ⟨a, rfl, failed⟩
  · rintro (rfl | ⟨a, rfl, failed⟩)
    · rfl
    · exact failed

theorem map_ok {x : Except ε α} {f : α → β} {b : β} :
    (x >>= fun a => pure (f a)) = .ok b ↔ ∃ a, x = .ok a ∧ f a = b := by
  rw [bind_ok]
  simp only [pure, Except.pure, Except.ok.injEq]

theorem map_error {x : Except ε α} {f : α → β} {e : ε} :
    (x >>= fun a => pure (f a)) = .error e ↔ x = .error e := by
  rw [bind_error]
  simp only [pure, Except.pure, reduceCtorEq, and_false, exists_false, or_false]

theorem mapError_bind (x : Except ε α) (f : α → Except ε β) (g : ε → ε') :
    (x >>= f).mapError g = x.mapError g >>= fun a => (f a).mapError g := by
  cases x with
  | error e => rfl
  | ok a => rfl

theorem mapError_ok {x : Except ε α} {f : ε → ε'} {a : α} : x.mapError f = .ok a ↔ x = .ok a := by
  constructor
  · intro done
    cases x with
    | error e => cases done
    | ok b =>
      cases done
      rfl
  · rintro rfl
    rfl

theorem foldlM_cons_ok {f : β → α → Except ε β} {x : α} {xs : List α} {start last : β} :
    (x :: xs).foldlM f start = .ok last ↔ ∃ middle, f start x = .ok middle ∧ xs.foldlM f middle = .ok last := by
  rw [List.foldlM_cons, bind_ok]

/-- A fold succeeds and keeps an invariant if every step does from every state with the invariant. -/
theorem foldlM_total (f : β → α → Except ε β) (holds : β → Prop) (xs : List α) (start : β)
    (initial : holds start) (step : ∀ b, holds b → ∀ x ∈ xs, ∃ b', f b x = .ok b' ∧ holds b') :
    ∃ last, xs.foldlM f start = .ok last ∧ holds last := by
  induction xs generalizing start with
  | nil => exact ⟨start, rfl, initial⟩
  | cons x xs ih =>
    obtain ⟨middle, first, kept⟩ := step start initial x (by simp)
    obtain ⟨last, rest, final⟩ := ih middle kept (fun b held y member => step b held y (by simp [member]))
    exact ⟨last, foldlM_cons_ok.2 ⟨middle, first, rest⟩, final⟩

theorem mapM_ok {f : α → Except ε β} {xs : List α} {ys : List β} :
    xs.mapM f = .ok ys ↔ List.Forall₂ (fun x y => f x = .ok y) xs ys := by
  induction xs generalizing ys with
  | nil =>
    rw [List.mapM_nil, List.forall₂_nil_left_iff]
    constructor
    · intro done
      cases done
      rfl
    · rintro rfl
      rfl
  | cons x xs ih =>
    rw [List.mapM_cons, bind_ok]
    constructor
    · rintro ⟨y, first, rest⟩
      obtain ⟨tail, found, same⟩ := bind_ok.1 rest
      cases same
      exact .cons first (ih.1 found)
    · intro all
      cases all with
      | cons first rest => exact ⟨_, first, bind_ok.2 ⟨_, ih.2 rest, rfl⟩⟩

theorem mapM_eq {f : α → Except ε β} {g : α → β} {xs : List α} (each : ∀ x ∈ xs, f x = .ok (g x)) :
    xs.mapM f = .ok (xs.map g) := by
  rw [mapM_ok, List.forall₂_map_right_iff, List.forall₂_same]
  exact each

theorem mapM_length {f : α → Except ε β} {xs : List α} {ys : List β} (done : xs.mapM f = .ok ys) :
    ys.length = xs.length := (mapM_ok.1 done).length_eq.symm

theorem mapM_place {f : α → Except ε β} {xs : List α} {ys : List β} (done : xs.mapM f = .ok ys) {i : Nat} {x : α}
    (found : xs[i]? = some x) : ∃ y, ys[i]? = some y ∧ f x = .ok y := by
  obtain ⟨inside, rfl⟩ := List.getElem?_eq_some_iff.1 found
  have inside' : i < ys.length := mapM_length done ▸ inside
  exact ⟨ys[i], by simp [inside'], (mapM_ok.1 done).get inside inside'⟩

theorem mapM_source {f : α → Except ε β} {xs : List α} {ys : List β} (done : xs.mapM f = .ok ys) {y : β}
    (member : y ∈ ys) : ∃ x ∈ xs, f x = .ok y := by
  obtain ⟨i, inside, rfl⟩ := List.getElem_of_mem member
  have inside' : i < xs.length := mapM_length done ▸ inside
  exact ⟨xs[i], by simp, (mapM_ok.1 done).get inside' inside⟩

theorem mapM_some {f : α → Option β} {xs : List α} {ys : List β} :
    xs.mapM f = some ys ↔ List.Forall₂ (fun x y => f x = some y) xs ys := by
  induction xs generalizing ys with
  | nil => simp [eq_comm]
  | cons x xs ih =>
    rw [List.mapM_cons]
    constructor
    · intro done
      obtain ⟨y, first, rest⟩ := Option.bind_eq_some_iff.1 done
      obtain ⟨tail, found, same⟩ := Option.bind_eq_some_iff.1 rest
      cases same
      exact .cons first (ih.1 found)
    · intro all
      cases all with
      | cons first rest => rw [first, ih.2 rest]; rfl

theorem mapM_some_member {f : α → Option β} {xs : List α} {ys : List β} (done : xs.mapM f = some ys) {x : α}
    (member : x ∈ xs) : ∃ y ∈ ys, f x = some y := by
  have all := mapM_some.1 done
  clear done
  induction all with
  | nil => simp at member
  | @cons first y _ _ found _ ih =>
    rcases List.mem_cons.1 member with rfl | member
    · exact ⟨y, by simp, found⟩
    · obtain ⟨z, inside, found⟩ := ih member
      exact ⟨z, by simp [inside], found⟩

def Succeeds (x : Except ε α) : Prop := ∃ a, x = .ok a

theorem succeeds_ok (a : α) : Succeeds (.ok a : Except ε α) := ⟨a, rfl⟩

theorem not_succeeds_error (e : ε) : ¬ Succeeds (.error e : Except ε α) := by
  rintro ⟨_, done⟩
  cases done

theorem succeeds_mapError {x : Except ε α} {f : ε → ε'} : Succeeds (x.mapError f) ↔ Succeeds x :=
  exists_congr fun _ => mapError_ok

/-- If it does not depend on the first result whether the rest succeeds, both have to succeed on their own. -/
theorem succeeds_bind {x : Except ε α} {f : α → Except ε β} {P : Prop} (rest : ∀ a, Succeeds (f a) ↔ P) :
    Succeeds (x >>= f) ↔ Succeeds x ∧ P := by
  constructor
  · rintro ⟨b, done⟩
    obtain ⟨a, first, second⟩ := bind_ok.1 done
    exact ⟨⟨a, first⟩, (rest a).1 ⟨b, second⟩⟩
  · rintro ⟨⟨a, first⟩, holds⟩
    obtain ⟨b, second⟩ := (rest a).2 holds
    exact ⟨b, bind_ok.2 ⟨a, first, second⟩⟩

theorem succeeds_map {x : Except ε α} {f : α → β} : Succeeds (x >>= fun a => pure (f a)) ↔ Succeeds x := by
  have rest (a : α) : Succeeds (pure (f a) : Except ε β) ↔ True := iff_true_intro (succeeds_ok (f a))
  rw [succeeds_bind rest, and_true]

theorem succeeds_mapM {f : α → Except ε β} {xs : List α} :
    Succeeds (xs.mapM f) ↔ ∀ x ∈ xs, Succeeds (f x) := by
  induction xs with
  | nil => exact iff_of_true (succeeds_ok []) (List.forall_mem_nil _)
  | cons x xs ih =>
    rw [List.mapM_cons, List.forall_mem_cons, ← ih]
    exact succeeds_bind fun _ => succeeds_map

theorem ok_of_any {x : Except ε α} {p : α → Bool} (holds : x.toOption.any p = true) : ∃ a, x = .ok a ∧ p a = true := by
  cases x with
  | error => cases holds
  | ok a => exact ⟨a, rfl, holds⟩

/-- Two computations that end in the same way, with related results or with related faults. -/
inductive Paired (failed : ε → ε' → Prop) (done : α → β → Prop) : Except ε α → Except ε' β → Prop
  | error {e : ε} {e' : ε'} (related : failed e e') : Paired failed done (.error e) (.error e')
  | ok {a : α} {b : β} (related : done a b) : Paired failed done (.ok a) (.ok b)

namespace Paired

variable {γ δ : Type} {failed : ε → ε' → Prop} {done : α → β → Prop} {x : Except ε α} {y : Except ε' β}

theorem of_ok (paired : Paired failed done x y) {a : α} (first : x = .ok a) : ∃ b, y = .ok b ∧ done a b := by
  subst first
  obtain _ | related := paired
  exact ⟨_, rfl, related⟩

theorem of_error (paired : Paired failed done x y) {e : ε} (first : x = .error e) :
    ∃ e', y = .error e' ∧ failed e e' := by
  subst first
  obtain related | _ := paired
  exact ⟨_, rfl, related⟩

theorem bind {later : γ → δ → Prop} {f : α → Except ε γ} {g : β → Except ε' δ} (first : Paired failed done x y)
    (rest : ∀ a b, x = .ok a → done a b → Paired failed later (f a) (g b)) :
    Paired failed later (x >>= f) (y >>= g) := by
  cases first with
  | error related => exact .error related
  | ok related => exact rest _ _ rfl related

theorem mapError {ε₁ ε₂ : Type} {failed' : ε₁ → ε₂ → Prop} {f : ε → ε₁} {g : ε' → ε₂} (paired : Paired failed done x y)
    (faults : ∀ e e', failed e e' → failed' (f e) (g e')) : Paired failed' done (x.mapError f) (y.mapError g) := by
  cases paired with
  | error related => exact .error (faults _ _ related)
  | ok related => exact .ok related

/-- Folds over the same list are paired if every step is, from states that are related and of which the first has been
reached. -/
theorem foldlM {f : α → γ → Except ε α} {g : β → γ → Except ε' β} (holds : α → Prop) (xs : List γ) {a : α} {b : β}
    (initial : holds a) (related : done a b) (kept : ∀ a x a', holds a → f a x = .ok a' → holds a')
    (step : ∀ a b x, holds a → done a b → Paired failed done (f a x) (g b x)) :
    Paired failed done (xs.foldlM f a) (xs.foldlM g b) := by
  induction xs generalizing a b with
  | nil => exact .ok related
  | cons x xs ih =>
    rw [List.foldlM_cons, List.foldlM_cons]
    apply (step a b x initial related).bind
    intro a' b' first related'
    exact ih (kept a x a' initial first) related'

end Paired

end Conveyor.Fallible
