/-! Tables in insertion order. A later entry for a key that is already present replaces the value
and keeps the key and its place. -/

namespace Conveyor

class Key (κ : Type) where
  same : κ → κ → Bool

instance (priority := low) {κ : Type} [DecidableEq κ] : Key κ := ⟨fun a b => decide (a = b)⟩

class LawfulKey (κ : Type) [Key κ] : Prop where
  refl : ∀ a : κ, Key.same a a = true
  symm : ∀ a b : κ, Key.same a b = true → Key.same b a = true
  trans : ∀ a b c : κ, Key.same a b = true → Key.same b c = true → Key.same a c = true

instance (priority := low) {κ : Type} [DecidableEq κ] : LawfulKey κ where
  refl _ := decide_eq_true rfl
  symm _ _ same := decide_eq_true (of_decide_eq_true same).symm
  trans _ _ _ first second := decide_eq_true ((of_decide_eq_true first).trans (of_decide_eq_true second))

abbrev Table (κ α : Type) := List (κ × α)

namespace Table

variable {κ α : Type} [Key κ]

def get? : Table κ α → κ → Option α
  | [], _ => none
  | (k, v) :: rest, key => if Key.same k key then some v else get? rest key

def has (table : Table κ α) (key : κ) : Bool := (table.get? key).isSome

/-- Sets the value of a key, in place if the key is present and at the end otherwise. -/
def insert : Table κ α → κ → α → Table κ α
  | [], key, value => [(key, value)]
  | (k, v) :: rest, key, value =>
    if Key.same k key then (k, value) :: rest else (k, v) :: insert rest key value

def erase (table : Table κ α) (key : κ) : Table κ α := table.filter fun (k, _) => !Key.same k key

def update (table more : Table κ α) : Table κ α :=
  more.foldl (fun t (k, v) => t.insert k v) table

def ofPairs (pairs : List (κ × α)) : Table κ α := update [] pairs

/-- An inserted value is found under every key that counts as its own, and nothing else changes. -/
theorem get?_insert [LawfulKey κ] (table : Table κ α) (key : κ) (value : α) (other : κ) :
    (table.insert key value).get? other =
      if Key.same key other then some value else table.get? other := by
  induction table with
  | nil => rfl
  | cons entry rest ih =>
    obtain ⟨k, v⟩ := entry
    by_cases present : Key.same k key = true
    · by_cases asked : Key.same key other = true
      · have found := LawfulKey.trans k key other present asked
        simp [insert, get?, present, asked, found]
      · have elsewhere : ¬ Key.same k other = true := fun same =>
          asked (LawfulKey.trans key k other (LawfulKey.symm k key present) same)
        simp [insert, get?, present, asked, elsewhere]
    · by_cases here : Key.same k other = true
      · have elsewhere : ¬ Key.same key other = true := fun same =>
          present (LawfulKey.trans k other key here (LawfulKey.symm key other same))
        simp [insert, get?, present, here, elsewhere]
      · simp [insert, get?, present, here, ih]

theorem get?_erase [LawfulKey κ] (table : Table κ α) (key other : κ) :
    (table.erase key).get? other = if Key.same key other then none else table.get? other := by
  induction table with
  | nil => simp [erase, get?]
  | cons entry rest ih =>
    obtain ⟨k, v⟩ := entry
    simp only [erase] at ih
    by_cases present : Key.same k key = true
    · by_cases asked : Key.same key other = true
      · simpa [erase, present, asked] using ih
      · have elsewhere : ¬ Key.same k other = true := fun same =>
          asked (LawfulKey.trans key k other (LawfulKey.symm k key present) same)
        simpa [erase, get?, present, asked, elsewhere] using ih
    · by_cases here : Key.same k other = true
      · have elsewhere : ¬ Key.same key other = true := fun same =>
          present (LawfulKey.trans k other key here (LawfulKey.symm key other same))
        simp [erase, get?, present, here, elsewhere]
      · simpa [erase, get?, present, here] using ih

def keys (table : Table κ α) : List κ := table.map (·.1)

def values (table : Table κ α) : List α := table.map (·.2)

end Table
end Conveyor
