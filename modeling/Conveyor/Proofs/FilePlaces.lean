import Conveyor.Artifact.Files
import Conveyor.Proofs.JsonReading
import Conveyor.Proofs.ManifestOrder

/-! Where a store in a folder keeps its files, and what it reads from them. Texts whose slots differ lead to different
files, the files of one artifact have different names, and the entry that is read from a file is the one that was
written. -/

namespace Conveyor

def Producer.texts (p : Producer) : List String := [p.stage, p.qualifier]

theorem Producer.eq_of {p q : Producer} (stages : p.stage = q.stage) (qualifiers : p.qualifier = q.qualifier) : p = q := by
  cases p
  cases q
  cases stages
  cases qualifiers
  rfl

def ArtifactKey.texts (key : ArtifactKey) : List String := key.producer.texts ++ [key.name]

theorem ArtifactKey.texts_subset {key : ArtifactKey} {texts : List String} (known : key.texts ⊆ texts) :
    key.producer.texts ⊆ texts ∧ key.name ∈ texts :=
  ⟨fun _ member => known (List.mem_append.2 (Or.inl member)), known (by simp [ArtifactKey.texts])⟩

/-! ### The order of entries -/

namespace Entry

theorem le_iff {a b : Entry} : le a b = true ↔
    (a.producer.stage ≠ b.producer.stage ∧ Text.le a.producer.stage b.producer.stage = true) ∨
      (a.producer.stage = b.producer.stage ∧
        ((a.producer.qualifier ≠ b.producer.qualifier ∧ Text.le a.producer.qualifier b.producer.qualifier = true) ∨
          (a.producer.qualifier = b.producer.qualifier ∧ Text.le a.name b.name = true))) := by
  unfold le
  split
  next stages => simp [stages]
  next stages =>
    rw [ne_eq, not_not] at stages
    split
    next qualifiers => simp [stages, qualifiers]
    next qualifiers =>
      rw [ne_eq, not_not] at qualifiers
      simp [stages, qualifiers]

theorem le_trans {a b c : Entry} (first : le a b = true) (second : le b c = true) : le a c = true := by
  rw [le_iff] at *
  grind [Text.le_trans, Text.le_antisymm]

theorem le_total (a b : Entry) : (le a b || le b a) = true := by
  have stages := Text.le_total a.producer.stage b.producer.stage
  have qualifiers := Text.le_total a.producer.qualifier b.producer.qualifier
  have names := Text.le_total a.name b.name
  rw [Bool.or_eq_true, le_iff, le_iff]
  grind

theorem le_antisymm {a b : Entry} (first : le a b = true) (second : le b a = true) :
    a.producer = b.producer ∧ a.name = b.name := by
  rw [le_iff] at first second
  have stages : a.producer.stage = b.producer.stage := by grind [Text.le_antisymm]
  have qualifiers : a.producer.qualifier = b.producer.qualifier := by grind [Text.le_antisymm]
  have names : a.name = b.name := by grind [Text.le_antisymm]
  exact ⟨Producer.eq_of stages qualifiers, names⟩

end Entry

namespace FileStore

/-! ### Places -/

def Apart (texts : List String) : Prop := ∀ a ∈ texts, ∀ b ∈ texts, slot a = slot b → a = b

def endings : List String := [blobEnd, draftEnd, entryEnd]

theorem ending_unique {a b e f : String} (first : e ∈ endings) (second : f ∈ endings) (same : a ++ e = b ++ f) :
    e = f ∧ a = b := by
  have last (a : String) {e : String} (ending : e ∈ endings) :
      (a ++ e).toList.reverse.take 2 = e.toList.reverse.take 2 := by
    have long : 2 ≤ e.toList.reverse.length := (by decide : ∀ e ∈ endings, 2 ≤ e.toList.reverse.length) e ending
    rw [String.toList_append, List.reverse_append, List.take_append_of_le_length long]
  have tails : e.toList.reverse.take 2 = f.toList.reverse.take 2 := by rw [← last a first, ← last b second, same]
  have ends : e = f := (by decide : ∀ e ∈ endings, ∀ f ∈ endings,
    e.toList.reverse.take 2 = f.toList.reverse.take 2 → e = f) e first f second tails
  subst ends
  refine ⟨rfl, ?_⟩
  have chars := congrArg String.toList same
  rw [String.toList_append, String.toList_append] at chars
  exact String.toList_inj.1 (List.append_cancel_right chars)

def place (key : ArtifactKey) (ending : String) : Place := producerPlace key.producer ++ [slot key.name ++ ending]

section

variable {texts : List String} {p q : Producer} {key other : ArtifactKey} {e f : String}

theorem Apart.producer (apart : Apart texts) (first : p.texts ⊆ texts) (second : q.texts ⊆ texts)
    (same : producerPlace p = producerPlace q) : p = q := by
  simp only [producerPlace, List.cons.injEq, and_true] at same
  obtain ⟨stage, qualifier⟩ := same
  apply Producer.eq_of
  · exact apart _ (first (by simp [Producer.texts])) _ (second (by simp [Producer.texts])) stage
  · exact apart _ (first (by simp [Producer.texts])) _ (second (by simp [Producer.texts])) qualifier

theorem Apart.place (apart : Apart texts) (first : key.texts ⊆ texts) (second : other.texts ⊆ texts)
    (here : e ∈ endings) (there : f ∈ endings) (same : place key e = place other f) : key = other ∧ e = f := by
  rw [FileStore.place, FileStore.place] at same
  obtain ⟨producers, names⟩ := List.append_inj' same (by simp only [List.length_singleton])
  obtain ⟨ends, slots⟩ := ending_unique here there (List.singleton_inj.1 names)
  have named := apart _ (ArtifactKey.texts_subset first).2 _ (ArtifactKey.texts_subset second).2 slots
  have produced := apart.producer (ArtifactKey.texts_subset first).1 (ArtifactKey.texts_subset second).1 producers
  cases key
  cases other
  cases named
  cases produced
  exact ⟨rfl, ends⟩

end

theorem isEntryPlace_place (key : ArtifactKey) {e : String} (ending : e ∈ endings) :
    isEntryPlace (place key e) = true ↔ e = entryEnd := by
  have last : isEntryPlace (place key e) = (slot key.name ++ e).endsWith entryEnd := by
    simp [isEntryPlace, place, producerPlace]
  rw [last, String.endsWith_eq_endsWith_toSlice, String.Slice.endsWith_string_iff, String.copy_toSlice]
  constructor
  · rintro ⟨start, chars⟩
    have same : slot key.name ++ e = String.ofList start ++ entryEnd := by
      rw [← String.toList_inj, ← chars, String.toList_append, String.toList_ofList]
    exact (ending_unique ending (by decide) same).1
  · rintro rfl
    exact ⟨(slot key.name).toList, (String.toList_append ..).symm⟩

theorem readEntry?_entryText {e : Entry} (short : Json.Short e.size) : readEntry? (entryText e) = some e := by
  have flat : ∀ field ∈ [("created_at_unix", Json.int creationTime), ("name", .str e.name),
      ("qualifier", .str e.producer.qualifier), ("sha256", .str e.sha256), ("size", .int e.size),
      ("stage", .str e.producer.stage)], Json.Flat field.2 := by
    have creation : Json.Short 1700000000 := by decide +kernel
    simp only [List.forall_mem_cons]
    exact ⟨.size 1700000000 creation, .text _, .text _, .text _, .size _ short, .text _, List.forall_mem_nil _⟩
  unfold readEntry? entryText
  rw [Json.read?_object (List.cons_ne_nil _ _) flat (by simp [Table.keys])]
  rfl

end FileStore
end Conveyor
