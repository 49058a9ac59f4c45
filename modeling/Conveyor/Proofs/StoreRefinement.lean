import Conveyor.Proofs.FilePlaces

/-! A store in a folder answers as a store in memory does, call by call. Its files are at all times those of the artifacts
that the other one holds: for each the blob and the entry, and nothing else below the root of the store. -/

namespace Conveyor

/-! ### Calls -/

inductive StoreCall where
  | put (key : ArtifactKey) (blob : Blob)
  | get (key : ArtifactKey)
  | discard (producer : Producer)
  | entries
  deriving DecidableEq, Repr

/-- What a store answers: an entry, a blob, a message, nothing, or all its entries. -/
inductive StoreAnswer where
  | stored (entry : Entry)
  | refused (message : String)
  | found (blob : Blob)
  | missing (message : String)
  | discarded
  | listed (entries : List Entry)
  deriving DecidableEq, Repr

namespace StoreCall

def perform {σ : Type} [ArtifactStore σ] (store : σ) : StoreCall → StoreAnswer × σ
  | .put key blob =>
    match ArtifactStore.put store key blob with
    | .ok (entry, store) => (.stored entry, store)
    | .error fault => (.refused fault.message, store)
  | .get key =>
    match ArtifactStore.get? store key with
    | some blob => (.found blob, store)
    | none => (.missing (notFoundMessage key.producer.text key.name), store)
  | .discard producer => (.discarded, ArtifactStore.discard store producer)
  | .entries => (.listed (ArtifactStore.entries store), store)

def answers {σ : Type} [ArtifactStore σ] (store : σ) : List StoreCall → List StoreAnswer
  | [] => []
  | call :: calls => (call.perform store).1 :: answers (call.perform store).2 calls

def texts : StoreCall → List String
  | .put key _ => key.texts
  | .get key => key.texts
  | .discard producer => producer.texts
  | .entries => []

def Writable : StoreCall → Prop
  | .put _ blob => Json.Short blob.length
  | _ => True

instance (call : StoreCall) : Decidable call.Writable :=
  match call with
  | .put _ blob => inferInstanceAs (Decidable (Json.Short blob.length))
  | .get _ | .discard _ | .entries => isTrue trivial

end StoreCall

/-- No file is at a place or below it, and no folder is below it. -/
structure Workspace.Vacant (w : Workspace) (root : Place) : Prop where
  files : ∀ file ∈ w.files, ¬ root <+: file.1
  folders : ∀ folder ∈ w.folders, root <+: folder → folder = root

theorem Entry.mergeSort_pairwise (entries : List Entry) : (entries.mergeSort le).Pairwise fun a b => le a b = true := by
  apply List.pairwise_mergeSort
  · intro a b c
    exact le_trans
  · exact le_total

namespace FileStore

def shelf (root : Place) (item : ArtifactKey × Blob) : List (Place × Content) :=
  [(root ++ place item.1 blobEnd, .bytes item.2),
    (root ++ place item.1 entryEnd, .bytes (Blob.ofText (entryText (Entry.of item.1 item.2))))]

/-- The files below the root are those of the artifacts in memory. -/
structure Mirrors (texts : List String) (memory : MemoryStore) (store : FileStore) : Prop where
  files : (store.workspace.files.filter fun file => store.root.isPrefixOf file.1).Perm
    (memory.blobs.flatMap (shelf store.root))
  folders : ∀ folder ∈ store.workspace.folders, store.root <+: folder → folder.length ≤ store.root.length + 2
  distinct : memory.blobs.keys.Nodup
  known : ∀ key ∈ memory.blobs.keys, key.texts ⊆ texts
  short : ∀ item ∈ memory.blobs, Json.Short item.2.length

section

variable {texts : List String} {memory : MemoryStore} {store : FileStore} {key : ArtifactKey} {blob : Blob} {e : String}

variable {root : Place} {w : Workspace}

theorem mem_shelf (ending : e ∈ endings) {content : Content} :
    (root ++ place key e, content) ∈ shelf root (key, blob) ↔ (e = blobEnd ∧ content = .bytes blob) ∨
      (e = entryEnd ∧ content = .bytes (Blob.ofText (entryText (Entry.of key blob)))) := by
  have same {f : String} (other : f ∈ endings) : root ++ place key e = root ++ place key f ↔ e = f := by
    constructor
    · intro equal
      rw [List.append_cancel_left_eq, place, place, List.append_cancel_left_eq, List.singleton_inj] at equal
      exact (ending_unique ending other equal).1
    · rintro rfl
      rfl
  simp only [shelf, List.mem_cons, List.not_mem_nil, or_false, Prod.mk.injEq]
  rw [same (by decide), same (by decide)]

theorem shelf_below {item : ArtifactKey × Blob} {file : Place × Content} (member : file ∈ shelf root item) :
    ∃ e ∈ endings, file.1 = root ++ place item.1 e := by
  simp only [shelf, List.mem_cons, List.not_mem_nil, or_false] at member
  rcases member with rfl | rfl
  · exact ⟨blobEnd, by decide, rfl⟩
  · exact ⟨entryEnd, by decide, rfl⟩

theorem Mirrors.mem_files (mirrors : Mirrors texts memory store) {file : Place × Content} (below : store.root <+: file.1) :
    file ∈ store.workspace.files ↔ ∃ item ∈ memory.blobs, file ∈ shelf store.root item := by
  rw [← List.mem_flatMap, ← mirrors.files.mem_iff, List.mem_filter, List.isPrefixOf_iff_prefix]
  exact (and_iff_left below).symm

theorem isFolder_place (folders : ∀ folder ∈ w.folders, root <+: folder → folder.length ≤ root.length + 2)
    (key : ArtifactKey) (e : String) :
    w.isFolder (root ++ place key e) = false := by
  have length : (root ++ place key e).length = root.length + 3 := by simp [place, producerPlace]
  have some : (root ++ place key e).isEmpty = false := by
    rw [List.isEmpty_eq_false_iff, ← List.length_pos_iff, length]
    omega
  rw [Workspace.isFolder, some, Bool.false_or, ← Bool.not_eq_true, List.contains_iff_mem]
  intro member
  have bound := folders _ member (List.prefix_append _ _)
  omega

theorem files_write (w : Workspace) (place : Place) (blob : Blob) :
    (w.write place blob).files = w.files.insert place (.bytes blob) := rfl

theorem folders_write {place folder : Place} {blob : Blob} (member : folder ∈ (w.write place blob).folders) :
    folder ∈ w.folders ∨ folder.length ≤ place.length - 1 := by
  rcases List.mem_append.1 member with old | new
  · exact Or.inl old
  · obtain ⟨listed, _⟩ := List.mem_filter.1 new
    obtain ⟨n, _, rfl⟩ := List.mem_map.1 listed
    refine Or.inr ?_
    rw [List.length_take, List.length_dropLast]
    exact Nat.min_le_right _ _

theorem erase_insert {κ α : Type} [DecidableEq κ] {table : Table κ α} {key : κ} {value : α}
    (absent : table.has key = false) : (table.insert key value).erase key = table := by
  have others : table.filter (fun entry => !Key.same entry.1 key) = table := by
    rw [List.filter_eq_self]
    intro entry member
    rw [Bool.not_eq_true', ← Bool.not_eq_true, Key.exact key]
    rintro rfl
    rw [← Bool.not_eq_true, Table.has_iff (Key.exact _)] at absent
    exact absent (List.mem_map_of_mem member)
  have itself : Key.same key key = true := (Key.exact key key).2 rfl
  rw [Table.insert_absent absent, Table.erase, List.filter_append]
  change table.filter (fun entry => !Key.same entry.1 key) ++ _ = _
  rw [others, List.filter_singleton]
  dsimp only
  rw [itself]
  exact List.append_nil table

theorem files_move {draft target : Place} {blob : Blob} (free : w.files.has draft = false)
    (vacant : w.files.has target = false) :
    ((w.write draft blob).move draft target).files = w.files ++ [(target, .bytes blob)] := by
  have content : (w.write draft blob).content? draft = some (.bytes blob) := by
    rw [Workspace.content?, files_write, Table.get?_insert, if_pos ((Key.exact draft draft).2 rfl)]
  rw [Workspace.move, content]
  change ((w.write draft blob).files.erase draft).insert target _ = _
  rw [files_write, erase_insert free, Table.insert_absent vacant]

theorem folders_move (w : Workspace) (source target : Place) : (w.move source target).folders = w.folders := by
  unfold Workspace.move
  split <;> rfl

/-- The workspace after the blob and the entry of an artifact are written. -/
def written (s : FileStore) (key : ArtifactKey) (blob : Blob) : Workspace :=
  ((s.workspace.write (s.root ++ place key draftEnd) blob).move (s.root ++ place key draftEnd)
    (s.root ++ place key blobEnd)).write (s.root ++ place key entryEnd) (Blob.ofText (entryText (Entry.of key blob)))

theorem put_free (free : store.workspace.occupied (store.root ++ place key blobEnd) = false)
    (gone : (store.written key blob).occupied (store.root ++ place key draftEnd) = false) :
    store.put key blob = .ok (Entry.of key blob, { store with workspace := store.written key blob }) := by
  change (if store.workspace.occupied (store.root ++ place key blobEnd) = true then _ else
    Except.ok (Entry.of key blob, FileStore.mk
      (if (store.written key blob).occupied (store.root ++ place key draftEnd) = true then _
        else store.written key blob) store.root)) = _
  rw [if_neg (by rw [free]; exact Bool.false_ne_true), if_neg (by rw [gone]; exact Bool.false_ne_true)]

theorem written_folders {folder : Place} (folders : ∀ folder ∈ store.workspace.folders, store.root <+: folder →
    folder.length ≤ store.root.length + 2) (member : folder ∈ (store.written key blob).folders)
    (below : store.root <+: folder) : folder.length ≤ store.root.length + 2 := by
  have length (e : String) : (store.root ++ place key e).length - 1 = store.root.length + 2 := by
    simp [place, producerPlace]
  rcases folders_write member with old | new
  · rw [folders_move] at old
    rcases folders_write old with older | new
    · exact folders folder older below
    · exact new.trans_eq (length _)
  · exact new.trans_eq (length _)

section

variable (mirrors : Mirrors texts memory store) (apart : Apart texts) (known : key.texts ⊆ texts)

include mirrors apart known

/-- A file of an artifact is there if the artifact is in memory, and the draft of a blob never is. -/
theorem Mirrors.mem_place (ending : e ∈ endings) {content : Content} :
    (store.root ++ place key e, content) ∈ store.workspace.files ↔ ∃ blob, (key, blob) ∈ memory.blobs ∧
      ((e = blobEnd ∧ content = .bytes blob) ∨
        (e = entryEnd ∧ content = .bytes (Blob.ofText (entryText (Entry.of key blob))))) := by
  rw [mirrors.mem_files (List.prefix_append _ _)]
  constructor
  · rintro ⟨⟨other, blob⟩, member, file⟩
    obtain ⟨f, there, same⟩ := shelf_below file
    have stored := mirrors.known other (Table.mem_keys_iff.2 ⟨blob, member⟩)
    obtain ⟨rfl, _⟩ := apart.place known stored ending there (List.append_cancel_left same)
    exact ⟨blob, member, (mem_shelf ending).1 file⟩
  · rintro ⟨blob, member, file⟩
    exact ⟨_, member, (mem_shelf ending).2 file⟩

theorem Mirrors.isFile_iff (ending : e ∈ endings) :
    store.workspace.isFile (store.root ++ place key e) = true ↔ e ≠ draftEnd ∧ key ∈ memory.blobs.keys := by
  rw [Workspace.isFile, Table.has_iff (Key.exact _), Table.mem_keys_iff, Table.mem_keys_iff]
  have other : blobEnd ≠ draftEnd ∧ entryEnd ≠ draftEnd := by decide
  simp only [mirrors.mem_place apart known ending]
  constructor
  · rintro ⟨content, blob, member, ⟨rfl, _⟩ | ⟨rfl, _⟩⟩
    · exact ⟨other.1, blob, member⟩
    · exact ⟨other.2, blob, member⟩
  · rintro ⟨finished, blob, member⟩
    simp only [endings, List.mem_cons, List.not_mem_nil, or_false] at ending
    rcases ending with rfl | rfl | rfl
    · exact ⟨_, blob, member, Or.inl ⟨rfl, rfl⟩⟩
    · exact (finished rfl).elim
    · exact ⟨_, blob, member, Or.inr ⟨rfl, rfl⟩⟩

theorem Mirrors.occupied_iff (ending : e ∈ endings) :
    store.workspace.occupied (store.root ++ place key e) = true ↔ e ≠ draftEnd ∧ key ∈ memory.blobs.keys := by
  rw [Workspace.occupied, isFolder_place mirrors.folders, Bool.or_false]
  exact mirrors.isFile_iff apart known ending

theorem Mirrors.get?_eq : store.get? key = memory.get? key := by
  have blobFile : blobEnd ∈ endings := by decide
  rw [FileStore.get?, Workspace.read?, Workspace.content?, MemoryStore.get?]
  rw [show blobPlace key = place key blobEnd from rfl]
  cases found : store.workspace.files.get? (store.root ++ place key blobEnd) with
  | none =>
    have absent : memory.blobs.has key = false := by
      rw [← Bool.not_eq_true, Table.has_iff (Key.exact key)]
      intro member
      have present := (mirrors.isFile_iff apart known blobFile).2 ⟨by decide, member⟩
      rw [Workspace.isFile, Table.has, found] at present
      cases present
    exact (Option.isSome_eq_false_iff.1 absent |> Option.isNone_iff_eq_none.1).symm
  | some content =>
    have listed := Table.mem_of_get? (Key.exact _) found
    obtain ⟨blob, member, ⟨_, rfl⟩ | ⟨other, _⟩⟩ := (mirrors.mem_place apart known blobFile).1 listed
    · exact (Table.get?_of_mem mirrors.distinct (Key.exact key) member).symm
    · exact absurd other (by decide)

/-! ### Storing -/

/-- The draft is gone in the end, and the two files of the artifact come after the others. -/
theorem Mirrors.written_files (free : key ∉ memory.blobs.keys) (blob : Blob) :
    (store.written key blob).files = store.workspace.files ++ shelf store.root (key, blob) := by
  have absent {e : String} (ending : e ∈ endings) : store.workspace.files.has (store.root ++ place key e) = false := by
    rw [← Bool.not_eq_true, ← Workspace.isFile, mirrors.isFile_iff apart known ending]
    exact fun present => free present.2
  have moved : ((store.workspace.write (store.root ++ place key draftEnd) blob).move _ _).files = _ :=
    files_move (absent (by decide : draftEnd ∈ endings)) (absent (by decide : blobEnd ∈ endings))
  have entryFree : Table.has (store.workspace.files ++ [(store.root ++ place key blobEnd, Content.bytes blob)])
      (store.root ++ place key entryEnd) = false := by
    rw [← Bool.not_eq_true, Table.has_iff (Key.exact _), Table.keys, List.map_append, List.mem_append]
    rintro (old | new)
    · have taken := absent (by decide : entryEnd ∈ endings)
      rw [← Bool.not_eq_true, Table.has_iff (Key.exact _)] at taken
      exact taken old
    · have same := List.append_cancel_left (List.mem_singleton.1 new)
      exact absurd (apart.place known known (by decide) (by decide) same).2 (by decide)
  rw [written, files_write, moved, Table.insert_absent entryFree, List.append_assoc]
  rfl

theorem Mirrors.put_new (free : key ∉ memory.blobs.keys) (short : Json.Short blob.length) :
    store.put key blob = .ok (Entry.of key blob, { store with workspace := store.written key blob }) ∧
      Mirrors texts ⟨memory.blobs.insert key blob⟩ { store with workspace := store.written key blob } := by
  have files := mirrors.written_files apart known free blob
  have folders : ∀ folder ∈ (store.written key blob).folders, store.root <+: folder →
      folder.length ≤ store.root.length + 2 := fun _ => written_folders mirrors.folders
  have absent : memory.blobs.has key = false := by
    rw [← Bool.not_eq_true, Table.has_iff (Key.exact key)]
    exact free
  have mirrored : Mirrors texts ⟨memory.blobs.insert key blob⟩ { store with workspace := store.written key blob } := by
    constructor
    · change ((store.written key blob).files.filter _).Perm ((memory.blobs.insert key blob).flatMap (shelf store.root))
      rw [files, Table.insert_absent absent, List.filter_append, List.flatMap_append, List.flatMap_singleton]
      apply mirrors.files.append
      apply List.Perm.of_eq
      rw [List.filter_eq_self]
      intro file member
      obtain ⟨e, _, same⟩ := shelf_below member
      rw [same, List.isPrefixOf_iff_prefix]
      exact List.prefix_append _ _
    · exact folders
    · exact Table.nodup_keys_insert (Key.exact key) mirrors.distinct
    · intro other member
      rcases (Table.mem_keys_insert (Key.exact key)).1 member with old | rfl
      · exact mirrors.known other old
      · exact known
    · intro item member
      rcases Table.mem_insert (Key.exact key) member with old | rfl
      · exact mirrors.short item old
      · exact short
  refine ⟨put_free ?_ ?_, mirrored⟩
  · rw [← Bool.not_eq_true, mirrors.occupied_iff apart known (by decide)]
    exact fun taken => free taken.2
  · have later := mirrored.occupied_iff apart known (by decide : draftEnd ∈ endings)
    rw [← Bool.not_eq_true]
    exact fun left => (later.1 left).1 rfl

theorem Mirrors.put (short : Json.Short blob.length) :
    ((StoreCall.put key blob).perform store).1 = ((StoreCall.put key blob).perform memory).1 ∧
      Mirrors texts ((StoreCall.put key blob).perform memory).2 ((StoreCall.put key blob).perform store).2 := by
  by_cases taken : key ∈ memory.blobs.keys
  · -- The blob is where it was put before, and both refuse with the same message.
    have refused : store.put key blob = .error (.occupied key) :=
      if_pos ((mirrors.occupied_iff apart known (by decide : blobEnd ∈ endings)).2 ⟨by decide, taken⟩)
    have refused' : memory.put key blob = .error (.occupied key) := if_pos ((Table.has_iff (Key.exact key)).2 taken)
    simp only [StoreCall.perform, ArtifactStore.put, refused, refused']
    exact ⟨trivial, mirrors⟩
  · obtain ⟨stored, mirrored⟩ := mirrors.put_new apart known taken short
    have stored' : memory.put key blob = .ok (Entry.of key blob, ⟨memory.blobs.insert key blob⟩) :=
      if_neg fun present => taken ((Table.has_iff (Key.exact key)).1 present)
    simp only [StoreCall.perform, ArtifactStore.put, stored, stored']
    exact ⟨trivial, mirrored⟩

end

/-! ### Discarding -/

theorem dropLast_place (root : Place) (key : ArtifactKey) (e : String) :
    (root ++ place key e).dropLast = root ++ producerPlace key.producer := by
  rw [place, ← List.append_assoc, List.dropLast_concat]

theorem filter_shelves {keep : Place × Content → Bool} {kept : ArtifactKey × Blob → Bool}
    {items : List (ArtifactKey × Blob)} (agree : ∀ item ∈ items, ∀ file ∈ shelf root item, keep file = kept item) :
    (items.flatMap (shelf root)).filter keep = (items.filter kept).flatMap (shelf root) := by
  induction items with
  | nil => rfl
  | cons item items ih =>
    have here := agree item List.mem_cons_self
    rw [List.flatMap_cons, List.filter_append, ih fun other member => agree other (List.mem_cons_of_mem _ member)]
    cases stays : kept item with
    | true =>
      rw [List.filter_cons_of_pos stays, List.flatMap_cons,
        List.filter_eq_self.2 fun file member => (here file member).trans stays]
    | false =>
      have gone : (shelf root item).filter keep = [] := by
        rw [List.filter_eq_nil_iff]
        intro file member
        rw [here file member, stays]
        exact Bool.false_ne_true
      rw [List.filter_cons_of_neg (by rw [stays]; exact Bool.false_ne_true), gone, List.nil_append]

/-- The files that go with the folder of a producer are those of its artifacts. -/
theorem Mirrors.discard (mirrors : Mirrors texts memory store) (apart : Apart texts) {producer : Producer}
    (known : producer.texts ⊆ texts) : Mirrors texts (memory.discard producer) (store.discard producer) := by
  have remaining : ∀ item ∈ memory.blobs, ∀ file ∈ shelf store.root item,
      (!(file.1.dropLast == store.root ++ producerPlace producer &&
        file.1.length == (store.root ++ producerPlace producer).length + 1)) = decide (item.1.producer ≠ producer) := by
    intro item member file listed
    obtain ⟨e, _, same⟩ := shelf_below listed
    have stored := ArtifactKey.texts_subset (mirrors.known item.1 (List.mem_map_of_mem member))
    have length : (store.root ++ place item.1 e).length = (store.root ++ producerPlace producer).length + 1 := by
      simp [place, producerPlace]
    rw [same, dropLast_place, length, beq_self_eq_true, Bool.and_true, decide_not, Bool.not_inj_iff, Bool.eq_iff_iff,
      beq_iff_eq, decide_eq_true_iff, List.append_cancel_left_eq]
    constructor
    · exact apart.producer stored.1 known
    · rintro rfl
      rfl
  have sublist : (memory.discard producer).blobs.Sublist memory.blobs := List.filter_sublist
  constructor
  · change ((store.workspace.files.filter _).filter _).Perm ((memory.blobs.filter _).flatMap _)
    rw [List.filter_comm]
    refine (mirrors.files.filter _).trans (List.Perm.of_eq ?_)
    exact filter_shelves remaining
  · intro folder member below
    exact mirrors.folders folder (List.mem_of_mem_filter member) below
  · exact mirrors.distinct.sublist (sublist.map _)
  · intro key member
    exact mirrors.known key ((sublist.map _).subset member)
  · intro item member
    exact mirrors.short item (sublist.subset member)

/-! ### Listing -/

def entryIn? (root : Place) (file : Place × Content) : Option Entry :=
  if file.1.take root.length = root ∧ isEntryPlace (file.1.drop root.length) then
    match file.2 with
    | .bytes blob => (Blob.toText? blob).bind readEntry?
    | .workflow _ => none
  else none

theorem entries_read : store.entries = (store.workspace.files.filterMap (entryIn? store.root)).mergeSort Entry.le := rfl

theorem entryIn?_below (file : Place × Content) :
    entryIn? root file = if root.isPrefixOf file.1 = true then entryIn? root file else none := by
  split
  next => rfl
  next outside =>
    rw [List.isPrefixOf_iff_prefix, List.prefix_iff_eq_take] at outside
    exact if_neg fun reading => outside reading.1.symm

theorem entryIn?_shelf {item : ArtifactKey × Blob} (short : Json.Short item.2.length) :
    (shelf root item).filterMap (entryIn? root) = [Entry.of item.1 item.2] := by
  have other : isEntryPlace (place item.1 blobEnd) = false := by
    rw [← Bool.not_eq_true, isEntryPlace_place item.1 (by decide)]
    decide
  have entry : isEntryPlace (place item.1 entryEnd) = true := (isEntryPlace_place item.1 (by decide)).2 rfl
  have skipped : entryIn? root (root ++ place item.1 blobEnd, .bytes item.2) = none := by
    rw [entryIn?, List.drop_left, other]
    exact if_neg fun reading => Bool.false_ne_true reading.2
  have read : entryIn? root (root ++ place item.1 entryEnd, .bytes (Blob.ofText (entryText (Entry.of item.1 item.2)))) =
      some (Entry.of item.1 item.2) := by
    rw [entryIn?, List.drop_left, List.take_left, entry, if_pos ⟨rfl, rfl⟩]
    dsimp only
    rw [Blob.toText?_ofText, Option.bind_some, readEntry?_entryText short]
  rw [shelf, List.filterMap_cons_none skipped, List.filterMap_cons_some read, List.filterMap_nil]

theorem Mirrors.entries_eq (mirrors : Mirrors texts memory store) : store.entries = memory.entries := by
  have found : (store.workspace.files.filterMap (entryIn? store.root)).Perm
      (memory.blobs.map fun item => Entry.of item.1 item.2) := by
    have below : store.workspace.files.filterMap (entryIn? store.root) =
        (store.workspace.files.filter fun file => store.root.isPrefixOf file.1).filterMap (entryIn? store.root) := by
      rw [List.filterMap_filter]
      exact List.filterMap_congr fun file _ => entryIn?_below file
    have shelves : (memory.blobs.flatMap (shelf store.root)).filterMap (entryIn? store.root) =
        memory.blobs.map fun item => Entry.of item.1 item.2 := by
      rw [List.filterMap_flatMap, List.map_eq_flatMap]
      exact List.flatMap_congr fun item member => entryIn?_shelf (mirrors.short item member)
    rw [below, ← shelves]
    exact mirrors.files.filterMap _
  rw [entries_read]
  refine List.Perm.eq_of_pairwise ?_ (Entry.mergeSort_pairwise _) (Entry.mergeSort_pairwise _) ?_
  · -- Two entries that stand before each other are of one address, and an address is taken once.
    intro a b first second above below
    rw [(List.mergeSort_perm _ _).mem_iff, found.mem_iff, List.mem_map] at first
    rw [MemoryStore.entries, (List.mergeSort_perm _ _).mem_iff, List.mem_map] at second
    obtain ⟨⟨key, blob⟩, here, rfl⟩ := first
    obtain ⟨⟨other, blob'⟩, there, rfl⟩ := second
    obtain ⟨producer, name⟩ := Entry.le_antisymm above below
    have same : key = other := by
      cases key
      cases other
      cases producer
      cases name
      rfl
    subst same
    have blobs := (Table.get?_of_mem mirrors.distinct (Key.exact key) here).symm.trans
      (Table.get?_of_mem mirrors.distinct (Key.exact key) there)
    rw [Option.some_inj.1 blobs]
  · exact (List.mergeSort_perm _ _).trans (found.trans (List.mergeSort_perm _ _).symm)

/-! ### Calls one after the other -/

theorem Mirrors.start (empty : w.Vacant root) (texts : List String) :
    Mirrors texts {} (make w root) := by
  constructor
  · apply List.Perm.of_eq
    rw [List.flatMap_nil, List.filter_eq_nil_iff]
    intro file member
    rw [List.isPrefixOf_iff_prefix]
    exact empty.files file member
  · intro folder member below
    rcases List.mem_append.1 member with old | new
    · rw [empty.folders folder old below]
      exact Nat.le_add_right _ _
    · obtain ⟨listed, _⟩ := List.mem_filter.1 new
      obtain ⟨n, _, rfl⟩ := List.mem_map.1 listed
      exact (List.length_take_le' _ _).trans (Nat.le_add_right _ _)
  · exact List.nodup_nil
  · exact List.forall_mem_nil _
  · exact List.forall_mem_nil _

/-- After each call the files are again those of the artifacts in memory, and both stores have answered the same. -/
theorem Mirrors.perform (mirrors : Mirrors texts memory store) (apart : Apart texts) {call : StoreCall}
    (known : call.texts ⊆ texts) (writable : call.Writable) :
    (call.perform store).1 = (call.perform memory).1 ∧ Mirrors texts (call.perform memory).2 (call.perform store).2 := by
  cases call with
  | put key blob => exact mirrors.put apart known writable
  | get key =>
    have same : ArtifactStore.get? store key = ArtifactStore.get? memory key := mirrors.get?_eq apart known
    rw [StoreCall.perform, StoreCall.perform, same]
    cases ArtifactStore.get? memory key with
    | none => exact ⟨rfl, mirrors⟩
    | some blob => exact ⟨rfl, mirrors⟩
  | discard producer => exact ⟨rfl, mirrors.discard apart known⟩
  | entries => exact ⟨congrArg StoreAnswer.listed mirrors.entries_eq, mirrors⟩

theorem Mirrors.answers_eq (apart : Apart texts) (calls : List StoreCall) (known : calls.flatMap StoreCall.texts ⊆ texts)
    (writable : ∀ call ∈ calls, call.Writable) (mirrors : Mirrors texts memory store) :
    StoreCall.answers store calls = StoreCall.answers memory calls := by
  induction calls generalizing memory store with
  | nil => rfl
  | cons call calls ih =>
    rw [List.flatMap_cons, List.append_subset] at known
    rw [List.forall_mem_cons] at writable
    obtain ⟨same, mirrored⟩ := mirrors.perform apart known.1 writable.1
    rw [StoreCall.answers, StoreCall.answers, same, ih known.2 writable.2 mirrored]

end

/-- A store in a folder that is empty at first answers every sequence of calls as a store in memory does that is empty at
first, if no two texts of the calls have one slot and the sizes of the blobs can be written. -/
theorem refines_memory {w : Workspace} {root : Place} (empty : w.Vacant root) {calls : List StoreCall}
    (apart : Apart (calls.flatMap StoreCall.texts)) (writable : ∀ call ∈ calls, call.Writable) :
    StoreCall.answers (make w root) calls = StoreCall.answers ({} : MemoryStore) calls :=
  Mirrors.answers_eq apart calls (List.Subset.refl _) writable (Mirrors.start empty _)

/-- Two producers whose folders have one readable name. The second keeps its artifact when that of the first is discarded. -/
def lookalikes : List StoreCall :=
  [.put ⟨⟨"a b", "os=x"⟩, "out"⟩ [1, 2], .put ⟨⟨"a_b", "os=x"⟩, "out"⟩ [3], .put ⟨⟨"a_b", "os=x"⟩, "out"⟩ [4], .entries,
    .discard ⟨"a b", "os=x"⟩, .get ⟨⟨"a b", "os=x"⟩, "out"⟩, .get ⟨⟨"a_b", "os=x"⟩, "out"⟩,
    .put ⟨⟨"a b", "os=x"⟩, "out"⟩ [5], .entries]

theorem lookalikes_answered : Workspace.Vacant { root := "/work" } ["artifacts"] ∧
    Apart (lookalikes.flatMap StoreCall.texts) ∧ (∀ call ∈ lookalikes, call.Writable) ∧
    StoreCall.answers (make { root := "/work" } ["artifacts"]) lookalikes =
      StoreCall.answers ({} : MemoryStore) lookalikes := by
  have empty : Workspace.Vacant { root := "/work" } ["artifacts"] := ⟨List.forall_mem_nil _, List.forall_mem_nil _⟩
  have slots : (["a b", "a_b", "os=x", "out"].map slot).Nodup := by decide +kernel
  have used : lookalikes.flatMap StoreCall.texts ⊆ ["a b", "a_b", "os=x", "out"] := by decide
  have apart : Apart (lookalikes.flatMap StoreCall.texts) := by
    intro a first b second same
    exact List.inj_on_of_nodup_map slots (used first) (used second) same
  have writable : ∀ call ∈ lookalikes, call.Writable := by decide +kernel
  exact ⟨empty, apart, writable, refines_memory empty apart writable⟩

end FileStore
end Conveyor
