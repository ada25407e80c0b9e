import HeyeeAgent.Knowledge.RowOrigin
import HeyeeAgent.Knowledge.UploadedObjects
import Mathlib.Data.List.Pairwise

/-! # The files behind the documents

Along every run of uploads, deletions, chunkings and the rest, in which identifiers are drawn as UUIDs
are, the file of a document that is not deleted stays in the storage as it was uploaded. Neither a
failure nor another upload or deletion changes that.
-/

namespace HeyeeAgent.Knowledge.DocumentFiles

open Python Machine Urls UrlUpload DocumentOperations

section Rows

variable {settings : Settings} {N : Type} [DecidableEq N] {db after : Database}
  {tasks : N → Option Task} {t : DocumentOperations.State N} {e : DocumentOperations.Event N}

/-- No document comes or goes, none gets another file, and a deleted one stays deleted. -/
def Rewritten (db after : Database) : Prop :=
  ∀ docId, ∃ rewrite : DocumentRow → DocumentRow,
    after.documents docId = (db.documents docId).map rewrite ∧
      ∀ row, (rewrite row).fileUrl = row.fileUrl ∧ (rewrite row).fileSize = row.fileSize ∧
        (row.deleted = true → (rewrite row).deleted = true)

theorem Rewritten.refl (db : Database) : Rewritten db db :=
  fun _ => ⟨id, by simp, fun _ => ⟨rfl, rfl, id⟩⟩

theorem Rewritten.none_of_none (rewritten : Rewritten db after) {docId : Str}
    (free : db.documents docId = none) : after.documents docId = none := by
  obtain ⟨rewrite, same, -⟩ := rewritten docId
  rw [same, free]
  rfl

theorem Rewritten.of_before (rewritten : Rewritten db after) {docId : Str} {row : DocumentRow}
    (present : db.documents docId = some row) : ∃ later, after.documents docId = some later ∧
      later.fileUrl = row.fileUrl ∧ later.fileSize = row.fileSize ∧
      (row.deleted = true → later.deleted = true) := by
  obtain ⟨rewrite, same, kept⟩ := rewritten docId
  rw [present] at same
  exact ⟨rewrite row, same, kept row⟩

theorem Rewritten.of_behind (rewritten : Rewritten db after) {docId : Str} {later : DocumentRow}
    (present : after.documents docId = some later) : ∃ row, db.documents docId = some row ∧
      later.fileUrl = row.fileUrl ∧ later.fileSize = row.fileSize ∧
      (row.deleted = true → later.deleted = true) := by
  obtain ⟨rewrite, same, kept⟩ := rewritten docId
  rw [present] at same
  obtain ⟨row, before, rfl⟩ := Option.map_eq_some_iff.mp same.symm
  exact ⟨row, before, kept row⟩

theorem rewritten_called {task : Task} (other : ∀ record, task ≠ .uploading record)
    (ending : Ending) : Rewritten db (called settings db task ending) := by
  rw [called]
  split
  · intro docId
    refine ⟨fun row => task.rewrite settings docId row, ?_, fun row => ?_⟩
    · rw [documents_write]
      cases task with
      | uploading record => exact absurd rfl (other record)
      | _ => rfl
    · obtain ⟨-, url, size⟩ := origin_rewrite settings docId row task
      refine ⟨url, size, fun deleted => ?_⟩
      rw [deleted_rewrite, deleted, Bool.true_or]
  · exact .refl db

/-- Behind the transaction of a deletion its document is deleted. -/
theorem deleted_called {task : Task} {docId : Str} {row : DocumentRow} {ending : Ending}
    (deletes : task.deletes = some docId) (commits : ending.commits = true)
    (present : (called settings db task ending).documents docId = some row) :
    row.deleted = true := by
  rw [called, if_pos commits, documents_write] at present
  cases task with
  | uploading record => cases deletes
  | _ =>
    obtain ⟨before, -, rfl⟩ := Option.map_eq_some_iff.mp present
    rw [deleted_rewrite, deletes, decide_eq_true rfl, Bool.or_true]

/-- An operation deletes a file once the transaction before it has returned. -/
theorem deletingFile_next {m : Management} {db : Database} {ending : Ending}
    {detail : KnowledgeDocumentDetail} (deletes : m.next db ending = .deletingFile detail) :
    m.phase = .deleting detail ∧ ending = .returned := by
  cases phase : m.phase with
  | finding =>
    cases ending with
    | raised error committed => simp [Management.next, phase] at deletes
    | returned =>
      have direct : Management.held (.deletingFile detail) = none := rfl
      simp only [Management.next, phase] at deletes
      cases found : findDocumentDetail db m.docId with
      | none =>
        rw [found] at deletes
        cases deletes
      | some present =>
        simp only [found, Management.afterFind] at deletes
        split at deletes
        · cases deletes
        · cases request : m.request with
          | updateDocumentConfig docName chunkStrategy chunkConfig =>
            simp only [request] at deletes
            split at deletes
            · cases deletes
            · split at deletes <;> cases deletes
          | deleteDocument =>
            simp only [request] at deletes
            cases deletes
          | setDocumentEnabled enabled =>
            simp only [request] at deletes
            split at deletes
            · cases deletes
            · split at deletes <;> cases deletes
  | listing found =>
    cases ending with
    | raised error committed => simp [Management.next, phase] at deletes
    | returned =>
      simp only [Management.next, phase] at deletes
      split at deletes <;> cases deletes
  | deleting found =>
    cases ending with
    | raised error committed => simp [Management.next, phase] at deletes
    | returned =>
      simp only [Management.next, phase] at deletes
      cases deletes
      exact ⟨rfl, rfl⟩
  | _ => cases ending <;> simp [Management.next, phase] at deletes

end Rows

section Steps

variable {lib : Library} {checks : HostChecks} {guessType : Str → Option Str} {cfg : UploadSettings}
  {settings : Settings} {find : Str → Option KnowledgeBaseSummary}
  {collectionName : Str → Option Str} {N : Type} [DecidableEq N] {s t : State N}

theorem step_accept {n : N} {incoming : Incoming} {draw : UrlUpload.Draw}
    (taken : step lib checks guessType cfg settings find collectionName s (.accept n incoming draw) =
      some t) :
    (s.uploads n).all Uploading.isEnded ∧ t.world = s.world ∧ t.tasks = s.tasks ∧
      t.uploads = Function.update s.uploads n
        (some (.start (incoming.accept lib guessType cfg find draw))) ∧
      t.accepted = s.accepted ++ (incoming.accept lib guessType cfg find draw).toOption.toList := by
  rw [step] at taken
  split_ifs at taken with free
  cases taken
  exact ⟨free, rfl, rfl, rfl, rfl⟩

theorem step_upload {n : N}
    (taken : step lib checks guessType cfg settings find collectionName s (.upload n) = some t) :
    ∃ uploading, s.uploads n = some uploading ∧ uploading.isEnded = false ∧
      t.world = (uploading.call lib cfg s.world).2 ∧ t.tasks = s.tasks ∧
      t.uploads = Function.update s.uploads n (some (uploading.call lib cfg s.world).1) ∧
      t.accepted = s.accepted := by
  rw [step] at taken
  split at taken
  · cases taken
  · next uploading found =>
    split_ifs at taken with ended
    cases taken
    exact ⟨uploading, found, Bool.eq_false_iff.mpr ended, rfl, rfl, rfl, rfl⟩

theorem step_document {e : DocumentOperations.Event N}
    (taken : step lib checks guessType cfg settings find collectionName s (.document e) = some t) :
    ∃ w after, storage lib checks collectionName s e = some w ∧
      DocumentOperations.step settings ⟨s.world.db, s.tasks⟩ e = some after ∧
      t.world = { w with db := after.db } ∧ t.tasks = after.tasks ∧ t.uploads = s.uploads ∧
      t.accepted = s.accepted := by
  rw [step] at taken
  split at taken
  · next w after stored moved =>
    cases taken
    exact ⟨w, after, stored, moved, rfl, rfl, rfl, rfl⟩
  · cases taken

end Steps

section Invariant

variable {lib : Library} {checks : HostChecks} {guessType : Str → Option Str} {cfg : UploadSettings}
  {settings : Settings} {find : Str → Option KnowledgeBaseSummary}
  {collectionName : Str → Option Str} {N : Type} {s t : State N} {u v : Upload}

/-- Every upload draws identifiers that no upload before it has drawn. -/
def Draws (s : State N) : Event N → Prop
  | .accept _ _ draw => Drawn draw ∧
      ∀ u ∈ s.accepted, u.draw.objectId ≠ draw.objectId ∧ u.documentId ≠ draw.documentId
  | _ => True

def Apart (u v : Upload) : Prop :=
  u.draw.objectId ≠ v.draw.objectId ∧ u.documentId ≠ v.documentId

/-- The row tells where the object of an upload is and how long. -/
structure Describes (lib : Library) (cfg : UploadSettings) (u : Upload) (row : DocumentRow) : Prop where
  fileUrl : row.fileUrl = u.fileUrl lib cfg
  fileSize : row.fileSize = some u.bytes.length
  fits : u.bytes.length ≤ cfg.maxBytes

/-- The upload has its document still to insert. -/
def Waiting (s : State N) (n : N) (u : Upload) : Prop :=
  ∃ uploading, s.uploads n = some uploading ∧ uploading.pending = some u

/-- The document that an operation has found and goes on with. -/
def Carries (phase : ManagementPhase) (detail : KnowledgeDocumentDetail) : Prop :=
  Management.held phase = some detail ∨ phase = .deletingFile detail

structure Kept (lib : Library) (cfg : UploadSettings) (s : State N) : Prop where
  sound : ∀ u ∈ s.accepted, Sound lib u
  apart : s.accepted.Pairwise Apart
  rows : ∀ docId row, s.world.db.documents docId = some row → ∃ u ∈ s.accepted,
    u.documentId = docId ∧ Describes lib cfg u row ∧
      (row.deleted = false → file s.world u.name = some u.bytes)
  waiting : ∀ n u, Waiting s n u → u ∈ s.accepted ∧ s.world.db.documents u.documentId = none
  single : ∀ m n u, Waiting s m u → Waiting s n u → m = n
  inserting : ∀ n u stored, s.uploads n = some (.inserting u stored) →
    stored = u.stored lib cfg ∧ u.bytes.length ≤ cfg.maxBytes ∧ file s.world u.name = some u.bytes
  details : ∀ n m detail, s.tasks n = some (.managing m) → Carries m.phase detail →
    ∃ row, s.world.db.documents detail.id = some row ∧ detail.fileUrl = row.fileUrl ∧
      (m.phase = .deletingFile detail → row.deleted = true)
  handed : ∀ n record, s.tasks n ≠ some (.uploading record)

instance : Std.Symm Apart := ⟨fun _ _ apart => ⟨apart.1.symm, apart.2.symm⟩⟩

/-- Two uploads that differ have other documents and other objects. -/
theorem Kept.apart_of_ne (kept : Kept lib cfg s) (first : u ∈ s.accepted)
    (second : v ∈ s.accepted) (differ : u ≠ v) : Apart u v :=
  kept.apart.forall first second differ

theorem Kept.name_ne (ascii : lib.AsciiAlnum) (kept : Kept lib cfg s) (first : u ∈ s.accepted)
    (second : v ∈ s.accepted) (differ : u ≠ v) : u.name ≠ v.name :=
  DocumentFiles.name_ne ascii (kept.sound u first) (kept.sound v second)
    (kept.apart_of_ne first second differ).1

theorem kept_empty : Kept lib cfg (empty : State N) where
  sound u member := by cases member
  apart := .nil
  rows docId row present := by cases present
  waiting n u := by rintro ⟨uploading, found, -⟩; cases found
  single m n u := by rintro ⟨uploading, found, -⟩; cases found
  inserting n u stored found := by cases found
  details n m detail found := by cases found
  handed n record found := by cases found

/-- Who waits behind a move of one upload: the others, and whoever waits at its place now. -/
theorem waiting_update [DecidableEq N] {n m : N} {next : Uploading}
    (moved : t.uploads = Function.update s.uploads n (some next)) (waits : Waiting t m u) :
    (m = n ∧ next.pending = some u) ∨ (m ≠ n ∧ Waiting s m u) := by
  obtain ⟨uploading, found, pending⟩ := waits
  rw [moved] at found
  by_cases same : m = n
  · rw [same, Function.update_self, Option.some.injEq] at found
    exact .inl ⟨same, found ▸ pending⟩
  · rw [Function.update_of_ne same] at found
    exact .inr ⟨same, uploading, found, pending⟩

theorem inserting_update [DecidableEq N] {n m : N} {next : Uploading} {stored : StoredObject}
    (moved : t.uploads = Function.update s.uploads n (some next))
    (found : t.uploads m = some (.inserting u stored)) :
    (m = n ∧ next = .inserting u stored) ∨ (m ≠ n ∧ s.uploads m = some (.inserting u stored)) := by
  rw [moved] at found
  by_cases same : m = n
  · rw [same, Function.update_self, Option.some.injEq] at found
    exact .inl ⟨same, found⟩
  · rw [Function.update_of_ne same] at found
    exact .inr ⟨same, found⟩

theorem sound_of_accept {incoming : Incoming} {draw : UrlUpload.Draw} (bases : Bases find)
    (drawn : Drawn draw) (accepted : incoming.accept lib guessType cfg find draw = .ok u) :
    Sound lib u := by
  obtain ⟨rfl, ⟨name, found⟩, safe⟩ := safe_of_accept accepted
  exact ⟨drawn, bases.id name _ found, bases.bucket name _ found, safe⟩

theorem start_ne_inserting (outcome : Except Failure Upload) (stored : StoredObject) :
    Uploading.start outcome ≠ .inserting u stored := by
  intro same
  cases outcome <;> cases same

theorem kept_accept [DecidableEq N] (bases : Bases find) (kept : Kept lib cfg s) {n : N}
    {incoming : Incoming} {draw : UrlUpload.Draw} (draws : Draws s (.accept n incoming draw))
    (taken : step lib checks guessType cfg settings find collectionName s (.accept n incoming draw) =
      some t) : Kept lib cfg t := by
  obtain ⟨drawn, fresh⟩ := draws
  obtain ⟨-, world, tasks, uploads, accepted⟩ := step_accept taken
  -- whoever waits behind the step waited before or is the new upload
  have waits (m : N) (u : Upload) (waits : Waiting t m u) : Waiting s m u ∨
      m = n ∧ incoming.accept lib guessType cfg find draw = .ok u := by
    rcases waiting_update uploads waits with ⟨same, pending⟩ | ⟨-, before⟩
    · cases outcome : incoming.accept lib guessType cfg find draw with
      | error failure =>
        rw [outcome] at pending
        cases pending
      | ok new =>
        rw [outcome] at pending
        exact .inr ⟨same, congrArg Except.ok (Option.some.inj pending)⟩
    · exact .inl before
  have old (u : Upload) (member : u ∈ s.accepted) : u ∈ t.accepted :=
    accepted ▸ List.mem_append_left _ member
  have new (u : Upload) (member : u ∈ t.accepted) : u ∈ s.accepted ∨
      incoming.accept lib guessType cfg find draw = .ok u := by
    rw [accepted, List.mem_append] at member
    refine member.imp_right fun member => ?_
    cases outcome : incoming.accept lib guessType cfg find draw with
    | error failure =>
      rw [outcome] at member
      cases member
    | ok new =>
      rw [outcome] at member
      exact congrArg Except.ok (List.mem_singleton.mp member).symm
  have apart (u v : Upload) (member : u ∈ s.accepted)
      (passes : incoming.accept lib guessType cfg find draw = .ok v) : Apart u v := by
    obtain ⟨rfl, -, -⟩ := safe_of_accept passes
    exact fresh u member
  have listed (u : Upload) (passes : incoming.accept lib guessType cfg find draw = .ok u) :
      u ∈ t.accepted := by
    rw [accepted, passes]
    exact List.mem_append_right _ (List.mem_singleton_self u)
  constructor
  case sound =>
    intro u member
    rcases new u member with member | passes
    · exact kept.sound u member
    · exact sound_of_accept bases drawn passes
  case apart =>
    rw [accepted]
    cases outcome : incoming.accept lib guessType cfg find draw with
    | error failure =>
      rw [Except.toOption, Option.toList_none, List.append_nil]
      exact kept.apart
    | ok v =>
      rw [Except.toOption, Option.toList_some, List.pairwise_append]
      refine ⟨kept.apart, List.pairwise_singleton _ _, fun u member w last => ?_⟩
      rw [List.mem_singleton.mp last]
      exact apart u v member outcome
  case rows =>
    rw [world]
    intro docId row present
    obtain ⟨u, member, own, describes⟩ := kept.rows docId row present
    exact ⟨u, old u member, own, describes⟩
  case waiting =>
    rw [world]
    intro m u waiting
    rcases waits m u waiting with before | ⟨-, passes⟩
    · obtain ⟨member, free⟩ := kept.waiting m u before
      exact ⟨old u member, free⟩
    · refine ⟨listed u passes, ?_⟩
      by_contra taken
      obtain ⟨row, present⟩ := Option.ne_none_iff_exists'.mp taken
      obtain ⟨v, member, own, -⟩ := kept.rows _ row present
      exact (apart v u member passes).2 own
  case single =>
    intro m k u first second
    rcases waits m u first with before | ⟨rfl, passes⟩
    · rcases waits k u second with before' | ⟨rfl, passes⟩
      · exact kept.single m k u before before'
      · exact absurd rfl (apart u u (kept.waiting m u before).1 passes).1
    · rcases waits k u second with before | ⟨rfl, -⟩
      · exact absurd rfl (apart u u (kept.waiting k u before).1 passes).1
      · rfl
  case inserting =>
    rw [world]
    intro m u stored found
    rcases inserting_update uploads found with ⟨-, starts⟩ | ⟨-, before⟩
    · exact absurd starts (start_ne_inserting _ stored)
    · exact kept.inserting m u stored before
  case details =>
    rw [world, tasks]
    exact kept.details
  case handed =>
    rw [tasks]
    exact kept.handed

/-- An upload moves on before it inserts its document, and touches no other object. -/
theorem Kept.moved [DecidableEq N] (kept : Kept lib cfg s) {n : N} {now next : Uploading}
    (found : s.uploads n = some now) (waits : now.pending = some u)
    (documents : t.world.db = s.world.db) (tasks : t.tasks = s.tasks)
    (uploads : t.uploads = Function.update s.uploads n (some next)) (accepted : t.accepted = s.accepted)
    (same : ∀ v, next.pending = some v → v = u)
    (files : ∀ v, v ∈ s.accepted → v ≠ u → file t.world v.name = file s.world v.name)
    (inserts : ∀ stored, next = .inserting u stored → stored = u.stored lib cfg ∧
      u.bytes.length ≤ cfg.maxBytes ∧ file t.world u.name = some u.bytes) : Kept lib cfg t := by
  have before (m : N) (v : Upload) (waiting : Waiting t m v) : Waiting s m v := by
    rcases waiting_update uploads waiting with ⟨rfl, pending⟩ | ⟨-, before⟩
    · exact ⟨now, found, same v pending ▸ waits⟩
    · exact before
  have waiting : Waiting s n u := ⟨now, found, waits⟩
  constructor
  case sound => exact accepted ▸ kept.sound
  case apart => exact accepted ▸ kept.apart
  case rows =>
    rw [documents, accepted]
    intro docId row present
    obtain ⟨v, member, rfl, describes, there⟩ := kept.rows docId row present
    have other : v ≠ u := by
      rintro rfl
      rw [(kept.waiting n v waiting).2] at present
      cases present
    exact ⟨v, member, rfl, describes, fun live => (files v member other).trans (there live)⟩
  case waiting =>
    rw [documents, accepted]
    exact fun m v later => kept.waiting m v (before m v later)
  case single => exact fun m k v first second => kept.single m k v (before m v first) (before k v second)
  case inserting =>
    intro m v stored moved
    rcases inserting_update uploads moved with ⟨-, now⟩ | ⟨differ, earlier⟩
    · have own : v = u := same v (now ▸ rfl)
      exact own ▸ inserts stored (own ▸ now)
    · obtain ⟨kept_stored, fits, there⟩ := kept.inserting m v stored earlier
      have waits' : Waiting s m v := ⟨_, earlier, rfl⟩
      have other : v ≠ u := fun own => differ (kept.single m n u (own ▸ waits') waiting)
      exact ⟨kept_stored, fits, (files v (kept.waiting m v waits').1 other).trans there⟩
  case details =>
    rw [documents, tasks]
    exact kept.details
  case handed => exact tasks ▸ kept.handed

/-- An upload ends without its document. -/
theorem Kept.stopped [DecidableEq N] (kept : Kept lib cfg s) {n : N} {now : Uploading}
    {outcome : Except Failure UploadResult} (found : s.uploads n = some now)
    (waits : now.pending = some u) (documents : t.world.db = s.world.db) (tasks : t.tasks = s.tasks)
    (uploads : t.uploads = Function.update s.uploads n (some (.ended outcome)))
    (accepted : t.accepted = s.accepted)
    (files : ∀ v, v ∈ s.accepted → v ≠ u → file t.world v.name = file s.world v.name) :
    Kept lib cfg t := by
  apply kept.moved found waits documents tasks uploads accepted ?_ files
  · intro stored inserting
    cases inserting
  · intro v pending
    cases pending

theorem file_of_objects {w w' : World} (same : w'.objects = w.objects) (name : ObjectName) :
    file w' name = file w name := by rw [file, same, file]

/-- The document of an upload is inserted. -/
theorem Kept.inserted [DecidableEq N] (kept : Kept lib cfg s) {n : N} {stored : StoredObject}
    {record : KnowledgeDocumentRecord} {outcome : Except Failure UploadResult}
    (found : s.uploads n = some (.inserting u stored))
    (world : t.world = { s.world with db := insertDocument s.world.db record })
    (tasks : t.tasks = s.tasks)
    (uploads : t.uploads = Function.update s.uploads n (some (.ended outcome)))
    (accepted : t.accepted = s.accepted) (id : record.id = u.documentId)
    (fileUrl : record.fileUrl = stored.fileUrl) (fileSize : record.fileSize = some stored.fileSize) :
    Kept lib cfg t := by
  obtain ⟨rfl, fits, there⟩ := kept.inserting n u stored found
  have waiting : Waiting s n u := ⟨_, found, rfl⟩
  obtain ⟨member, free⟩ := kept.waiting n u waiting
  have before (m : N) (v : Upload) (later : Waiting t m v) : m ≠ n ∧ Waiting s m v := by
    rcases waiting_update uploads later with ⟨-, pending⟩ | before
    · cases pending
    · exact before
  have files (name : ObjectName) : file t.world name = file s.world name := by
    apply file_of_objects
    rw [world]
  have others {docId : Str} (differ : docId ≠ u.documentId) :
      t.world.db.documents docId = s.world.db.documents docId := by
    rw [world]
    exact Function.update_of_ne (id ▸ differ) _ _
  constructor
  case sound => exact accepted ▸ kept.sound
  case apart => exact accepted ▸ kept.apart
  case rows =>
    rw [accepted]
    intro docId row present
    by_cases own : docId = u.documentId
    · subst own
      have same : t.world.db.documents u.documentId = some record.row := by
        rw [world, ← id]
        exact Function.update_self _ _ _
      cases same.symm.trans present
      exact ⟨u, member, rfl, ⟨fileUrl, fileSize, fits⟩, fun _ => (files _).trans there⟩
    · rw [others own] at present
      obtain ⟨v, listed, same, describes, kept_file⟩ := kept.rows docId row present
      exact ⟨v, listed, same, describes, fun live => (files _).trans (kept_file live)⟩
  case waiting =>
    rw [accepted]
    intro m v later
    obtain ⟨differ, before⟩ := before m v later
    obtain ⟨listed, none⟩ := kept.waiting m v before
    have other : v ≠ u := fun own => differ (kept.single m n u (own ▸ before) waiting)
    exact ⟨listed, (others (kept.apart_of_ne listed member other).2).trans none⟩
  case single =>
    exact fun m k v first second => kept.single m k v (before m v first).2 (before k v second).2
  case inserting =>
    intro m v stored moved
    rcases inserting_update uploads moved with ⟨-, now⟩ | ⟨-, earlier⟩
    · cases now
    · obtain ⟨same, small, kept_file⟩ := kept.inserting m v stored earlier
      exact ⟨same, small, (files _).trans kept_file⟩
  case details =>
    rw [tasks]
    intro m management detail task carries
    obtain ⟨row, present, same⟩ := kept.details m management detail task carries
    have other : detail.id ≠ u.documentId := by
      intro own
      rw [own, free] at present
      cases present
    exact ⟨row, (others other).trans present, same⟩
  case handed => exact tasks ▸ kept.handed

theorem kept_upload [DecidableEq N] (ascii : lib.AsciiAlnum) (kept : Kept lib cfg s) {n : N}
    (taken : step lib checks guessType cfg settings find collectionName s (.upload n) = some t) :
    Kept lib cfg t := by
  obtain ⟨now, found, running, world, tasks, uploads, accepted⟩ := step_upload taken
  cases now with
  | ensuring u =>
    obtain ⟨db, objects⟩ := ensureBucket_world u.draw (bucketNameFor u.kb) s.world
    have same : (Uploading.ensuring u).call lib cfg s.world =
        (match (ensureBucket u.draw (bucketNameFor u.kb) s.world).1 with
          | .ok _ => .putting u
          | .error failure => .ended (.error failure),
        (ensureBucket u.draw (bucketNameFor u.kb) s.world).2) := by
      rw [Uploading.call]
      split <;> simp_all
    rw [same] at world uploads
    refine kept.moved found rfl (world ▸ db) tasks uploads accepted ?_ ?_ ?_
    · intro v pending
      split at pending
      · exact (Option.some.inj pending).symm
      · cases pending
    · exact fun v _ _ => file_of_objects (world ▸ objects) v.name
    · intro stored inserting
      split at inserting <;> cases inserting
  | putting u =>
    have waiting : Waiting s n u := ⟨_, found, rfl⟩
    have member := (kept.waiting n u waiting).1
    rw [Uploading.call] at world uploads
    rcases put_cases lib cfg u s.world with ⟨failure, put⟩ | ⟨fits, put⟩
    · rw [put] at world uploads
      refine kept.stopped found rfl (congrArg World.db world) tasks uploads accepted ?_
      exact fun v _ _ => file_of_objects (congrArg World.objects world) v.name
    · have files (v : Upload) (listed : v ∈ s.accepted) (other : v ≠ u)
          (after : t.world = { s.world with objects := s.world.objects ++ [u.object] }) :
          file t.world v.name = file s.world v.name := by
        rw [after, file_put, if_neg]
        exact (kept.name_ne ascii listed member other).symm
      rcases put with ⟨-, put⟩ | ⟨error, -, put⟩
      · rw [put] at world uploads
        have db : t.world.db = s.world.db := by rw [world]
        refine kept.moved found rfl db tasks uploads accepted ?_
          (fun v listed other => files v listed other world) ?_
        · exact fun v pending => (Option.some.inj pending).symm
        · rintro stored inserting
          cases inserting
          have own : objectName u.object = u.name := rfl
          refine ⟨rfl, fits, ?_⟩
          rw [world, file_put, if_pos own]
          rfl
      · rw [put] at world uploads
        have db : t.world.db = s.world.db := by rw [world]
        exact kept.stopped found rfl db tasks uploads accepted
          fun v listed other => files v listed other world
  | inserting u stored =>
    rw [Uploading.call] at world uploads
    rcases insert_cases lib cfg u stored s.world with
      ⟨outcome, record, insert, id, fileUrl, fileSize⟩ | ⟨error, -, insert⟩
    · rw [insert] at world uploads
      exact kept.inserted found world tasks uploads accepted id fileUrl fileSize
    · rw [insert] at world uploads
      refine kept.stopped found rfl (congrArg World.db world) tasks uploads accepted ?_
      exact fun v _ _ => file_of_objects (congrArg World.objects world) v.name
  | ended outcome => cases running

theorem deletedFile_eq_some {task : Task} {fileUrl bucketName : Str}
    (deletes : deletedFile collectionName task = some (fileUrl, bucketName)) :
    ∃ m detail, task = .managing m ∧ m.phase = .deletingFile detail ∧ fileUrl = detail.fileUrl := by
  cases task with
  | managing m =>
    cases phase : m.phase with
    | deletingFile detail =>
      simp only [deletedFile, phase] at deletes
      exact ⟨m, detail, rfl, phase, (Prod.mk.inj (Option.some.inj deletes)).1.symm⟩
    | _ =>
      simp only [deletedFile, phase] at deletes
      cases deletes
  | _ => cases deletes

/-- The file that an operation deletes is that of an upload whose document is deleted. -/
theorem Kept.deletes (checks : HostChecks) (ascii : lib.AsciiAlnum) (unset : Private cfg)
    (kept : Kept lib cfg s) {n : N} {m : Management} {detail : KnowledgeDocumentDetail}
    (found : s.tasks n = some (.managing m)) (phase : m.phase = .deletingFile detail) :
    ∃ u ∈ s.accepted, u.documentId = detail.id ∧
      (∃ row, s.world.db.documents u.documentId = some row ∧ row.deleted = true) ∧
      (∀ bucketName, deleteFileUrl lib checks detail.fileUrl bucketName = some u.name) ∧
      downloadFileUrl checks detail.fileUrl = some u.name := by
  obtain ⟨row, present, url, deleted⟩ := kept.details n m detail found (.inr phase)
  obtain ⟨u, member, own, describes, -⟩ := kept.rows _ row present
  have reads := reads_fileUrl checks ascii unset (kept.sound u member)
  rw [url, describes.fileUrl]
  exact ⟨u, member, own, ⟨row, own ▸ present, deleted phase⟩, fun name => (reads name).2,
    (reads none).1⟩

/-- A file goes behind the deletion of its document only. -/
theorem Kept.storage (ascii : lib.AsciiAlnum) (unset : Private cfg) (kept : Kept lib cfg s)
    {e : DocumentOperations.Event N} {w : World}
    (stored : storage lib checks collectionName s e = some w) (member : v ∈ s.accepted) :
    file w v.name = file s.world v.name ∨
      ∃ row, s.world.db.documents v.documentId = some row ∧ row.deleted = true := by
  cases e with
  | begin n operation =>
    cases operation with
    | upload record => cases stored
    | _ =>
      cases stored
      exact .inl rfl
  | call n ending =>
    rw [storage_call] at stored
    split at stored
    · cases stored
      exact .inl rfl
    · next fileUrl bucketName deletes =>
      obtain ⟨task, found, deletes⟩ := Option.bind_eq_some_iff.mp deletes
      obtain ⟨m, detail, rfl, phase, rfl⟩ := deletedFile_eq_some deletes
      obtain ⟨u, listed, -, gone, reads, -⟩ := kept.deletes checks ascii unset found phase
      rw [deleteFile_of_name (reads _), Option.some.injEq] at stored
      by_cases own : v = u
      · exact .inr (own ▸ gone)
      · left
        rw [← stored]
        split
        · rw [file_deleteObject, if_neg (kept.name_ne ascii member listed own)]
        · rfl

theorem rewritten_step [DecidableEq N] (kept : Kept lib cfg s) {e : DocumentOperations.Event N}
    {w : World} {after : DocumentOperations.State N}
    (stored : storage lib checks collectionName s e = some w)
    (moved : DocumentOperations.step settings ⟨s.world.db, s.tasks⟩ e = some after) :
    Rewritten s.world.db after.db := by
  cases e with
  | begin n operation =>
    obtain ⟨-, db, -⟩ := DocumentOperations.step_begin moved
    exact db ▸ .refl _
  | call n ending =>
    obtain ⟨task, found, -, -, db, -⟩ := DocumentOperations.step_call moved
    rw [db]
    exact rewritten_called (fun record same => kept.handed n record (same ▸ found)) ending

theorem next_ne_uploading {db : Database} {task : Task} {ending : Ending}
    (record : KnowledgeDocumentRecord) : task.next settings db ending ≠ .uploading record := by
  intro same
  cases task with
  | starting docId =>
    cases ending with
    | raised error committed => cases same
    | returned =>
      rw [Task.next] at same
      split at same <;> cases same
  | uploading record => cases ending <;> cases same
  | _ => cases same

/-- A found document is the row's. -/
theorem findDocumentDetail_eq_some {db : Database} {docId : Str} {detail : KnowledgeDocumentDetail}
    (found : findDocumentDetail db docId = some detail) :
    ∃ row, db.documents detail.id = some row ∧ detail.fileUrl = row.fileUrl := by
  obtain ⟨row, present, rfl⟩ := Option.map_eq_some_iff.mp found
  exact ⟨row, (Database.document_of_mem present).1, rfl⟩

/-- What the operations carry behind a step is still what the rows say. -/
theorem details_step [DecidableEq N] (kept : Kept lib cfg s) {e : DocumentOperations.Event N}
    {w : World} {after : DocumentOperations.State N}
    (stored : storage lib checks collectionName s e = some w)
    (moved : DocumentOperations.step settings ⟨s.world.db, s.tasks⟩ e = some after) :
    ∀ n m detail, after.tasks n = some (.managing m) → Carries m.phase detail →
      ∃ row, after.db.documents detail.id = some row ∧ detail.fileUrl = row.fileUrl ∧
        (m.phase = .deletingFile detail → row.deleted = true) := by
  intro n m detail found carries
  have rewritten := rewritten_step kept stored moved
  -- an operation that the step leaves alone
  have earlier (before : s.tasks n = some (.managing m)) : ∃ row,
      after.db.documents detail.id = some row ∧ detail.fileUrl = row.fileUrl ∧
        (m.phase = .deletingFile detail → row.deleted = true) := by
    obtain ⟨row, present, url, deleted⟩ := kept.details n m detail before carries
    obtain ⟨later, present, same, -, stays⟩ := rewritten.of_before present
    exact ⟨later, present, url.trans same.symm, fun phase => stays (deleted phase)⟩
  cases e with
  | begin k operation =>
    obtain ⟨-, -, tasks⟩ := DocumentOperations.step_begin moved
    rw [tasks] at found
    by_cases same : n = k
    · rw [same, Function.update_self, Option.some.injEq] at found
      cases operation with
      | manage documentId request embed vectorIds =>
        rw [Operation.task, Task.managing.injEq] at found
        rw [← found, Management.start] at carries
        dsimp only at carries
        split at carries <;> rcases carries with carries | carries <;> cases carries
      | startChunking documentId =>
        rw [Operation.task] at found
        split at found <;> cases found
      | upload record => cases found
      | processMessage message outside draw => cases found
    · rw [Function.update_of_ne same] at found
      exact earlier found
  | call k ending =>
    obtain ⟨task, caller, -, -, db, tasks⟩ := DocumentOperations.step_call moved
    rw [tasks] at found
    by_cases same : n = k
    · subst same
      rw [Function.update_self, Option.some.injEq] at found
      cases task with
      | managing before =>
        rw [Task.next, Task.managing.injEq] at found
        subst found
        rcases carries with holds | deletes
        · have other : before.next s.world.db ending ≠ .deletingFile detail := by
            intro deletes
            rw [deletes] at holds
            cases holds
          rcases Management.held_next holds with held | ⟨-, read, -⟩
          · obtain ⟨row, present, url, -⟩ := kept.details n before detail caller (.inl held)
            obtain ⟨later, present, same, -⟩ := rewritten.of_before present
            exact ⟨later, present, url.trans same.symm, fun deletes => absurd deletes other⟩
          · obtain ⟨row, present, url⟩ := findDocumentDetail_eq_some read
            obtain ⟨later, present, same, -⟩ := rewritten.of_before present
            exact ⟨later, present, url.trans same.symm, fun deletes => absurd deletes other⟩
        · obtain ⟨phase, rfl⟩ := deletingFile_next deletes
          have held : Management.held before.phase = some detail := phase ▸ rfl
          obtain ⟨row, present, url, -⟩ := kept.details n before detail caller (.inl held)
          obtain ⟨later, present, same, -⟩ := rewritten.of_before present
          refine ⟨later, present, url.trans same.symm, fun _ => ?_⟩
          have marks : (Task.managing before).deletes = some detail.id := by
            simp only [Task.deletes, phase]
          exact deleted_called marks rfl (db ▸ present)
      | starting docId =>
        cases ending with
        | raised error committed => cases found
        | returned =>
          rw [Task.next] at found
          split at found <;> cases found
      | uploading record => cases ending <;> cases found
      | _ => cases found
    · rw [Function.update_of_ne same] at found
      exact earlier found

theorem kept_document [DecidableEq N] (ascii : lib.AsciiAlnum) (unset : Private cfg)
    (kept : Kept lib cfg s) {e : DocumentOperations.Event N}
    (taken : step lib checks guessType cfg settings find collectionName s (.document e) = some t) :
    Kept lib cfg t := by
  obtain ⟨w, after, stored, moved, world, tasks, uploads, accepted⟩ := step_document taken
  have rewritten := rewritten_step kept stored moved
  have db : t.world.db = after.db := by rw [world]
  have files (v : Upload) (member : v ∈ s.accepted) : file t.world v.name = file s.world v.name ∨
      ∃ row, s.world.db.documents v.documentId = some row ∧ row.deleted = true := by
    rcases kept.storage ascii unset stored member with same | gone
    · refine .inl (Eq.trans ?_ same)
      rw [world]
      rfl
    · exact .inr gone
  have waiting (m : N) (u : Upload) : Waiting t m u ↔ Waiting s m u := by rw [Waiting, uploads, Waiting]
  constructor
  case sound => exact accepted ▸ kept.sound
  case apart => exact accepted ▸ kept.apart
  case rows =>
    rw [db, accepted]
    intro docId later present
    obtain ⟨row, before, url, size, stays⟩ := rewritten.of_behind present
    obtain ⟨v, member, rfl, describes, there⟩ := kept.rows docId row before
    refine ⟨v, member, rfl, ⟨url.trans describes.fileUrl, size.trans describes.fileSize,
      describes.fits⟩, fun live => ?_⟩
    have alive : row.deleted = false := by
      cases deleted : row.deleted with
      | false => rfl
      | true => rw [stays deleted] at live; cases live
    rcases files v member with same | ⟨gone, found, deleted⟩
    · exact same.trans (there alive)
    · cases found.symm.trans before
      rw [alive] at deleted
      cases deleted
  case waiting =>
    rw [db, accepted]
    intro m u later
    obtain ⟨member, free⟩ := kept.waiting m u ((waiting m u).mp later)
    exact ⟨member, rewritten.none_of_none free⟩
  case single =>
    exact fun m k u first second => kept.single m k u ((waiting m u).mp first) ((waiting k u).mp second)
  case inserting =>
    rw [uploads]
    intro m u stored found
    obtain ⟨same, fits, there⟩ := kept.inserting m u stored found
    obtain ⟨member, free⟩ := kept.waiting m u ⟨_, found, rfl⟩
    rcases files u member with unchanged | ⟨row, present, -⟩
    · exact ⟨same, fits, unchanged.trans there⟩
    · rw [free] at present
      cases present
  case details =>
    rw [db, tasks]
    exact details_step kept stored moved
  case handed =>
    rw [tasks]
    intro n record found
    cases e with
    | begin k operation =>
      obtain ⟨-, -, begun⟩ := DocumentOperations.step_begin moved
      rw [begun] at found
      by_cases same : n = k
      · rw [same, Function.update_self, Option.some.injEq] at found
        cases operation with
        | upload record => cases stored
        | startChunking documentId =>
          rw [Operation.task] at found
          split at found <;> cases found
        | _ => cases found
      · rw [Function.update_of_ne same] at found
        exact kept.handed n record found
    | call k ending =>
      obtain ⟨task, -, -, -, -, called⟩ := DocumentOperations.step_call moved
      rw [called] at found
      by_cases same : n = k
      · rw [same, Function.update_self, Option.some.injEq] at found
        exact next_ne_uploading record found
      · rw [Function.update_of_ne same] at found
        exact kept.handed n record found

theorem kept_step [DecidableEq N] (ascii : lib.AsciiAlnum) (unset : Private cfg) (bases : Bases find)
    (kept : Kept lib cfg s) {e : Event N} (draws : Draws s e)
    (taken : step lib checks guessType cfg settings find collectionName s e = some t) :
    Kept lib cfg t := by
  cases e with
  | accept n incoming draw => exact kept_accept bases kept draws taken
  | upload n => exact kept_upload ascii kept taken
  | document e => exact kept_document ascii unset kept taken

end Invariant

section Results

variable {lib : Library} {checks : HostChecks} {guessType : Str → Option Str} {cfg : UploadSettings}
  {settings : Settings} {find : Str → Option KnowledgeBaseSummary}
  {collectionName : Str → Option Str} {N : Type} [DecidableEq N] {s t : State N} {es : List (Event N)}

/-- A knowledge base with a bucket of its own -/
def manualBase : KnowledgeBaseSummary where
  id := .lit "4f2a9c1be07d4d3e8b6a"
  name := .lit "manuals"
  collectionName := some manualBucket

def findManuals : Str → Option KnowledgeBaseSummary := fun _ => some manualBase

theorem bases_findManuals : Bases findManuals where
  id := by
    rintro name kb ⟨⟩
    decide
  bucket := by
    rintro name kb ⟨⟩
    exact valid_manualBucket

def textRequest (chunks : List (List ℕ)) : Incoming :=
  .file
    { knowledgeBaseName := .lit "manuals"
      sourceType := .lit "FILE"
      fileName := some (.lit "manual.txt")
      contentType := some (.lit "text/plain")
      chunks
      chunkStrategy := .lit "fixed_size"
      chunkConfig := .lit "{}" }

def secondDraw : UrlUpload.Draw :=
  { manualDraw with
    objectId := .lit "1b4e28ba2fa14d238f6a6f0c1c2d3e4f"
    documentId := .lit "9d2f1c0a7b6e5d4c3b2a" }

/-- Two files are uploaded side by side, and the document of the first is deleted. -/
def replacedManual : List (Event Bool) :=
  [.accept false (textRequest [[97], [98]]) manualDraw, .upload false,
    .accept true (textRequest [[99, 100, 101]]) secondDraw, .upload true, .upload false,
    .upload true, .upload false,
    .document (.begin false
      (.manage manualDraw.documentId .deleteDocument (fun _ => []) fun _ => [])),
    .document (.call false .returned), .upload true, .document (.call false .returned),
    .document (.call false .returned)]

abbrev sampleStep : State Bool → Event Bool → Option (State Bool) :=
  step plainLibrary anyHost (fun _ => none) privateSettings {} findManuals fun _ => none

instance (draw : UrlUpload.Draw) : Decidable (Drawn draw) :=
  decidable_of_iff (draw.objectId.length = 32 ∧
    (∀ c ∈ draw.objectId, isPathChar c = true ∧ c ≠ 47) ∧ ∀ c ∈ draw.today, isPathChar c = true)
    ⟨fun h => ⟨h.1, h.2.1, h.2.2⟩, fun h => ⟨h.length, h.objectId, h.today⟩⟩

instance (s : State N) : DecidablePred (Draws s)
  | .accept _ _ _ => inferInstanceAs (Decidable (_ ∧ _))
  | .upload _ => inferInstanceAs (Decidable True)
  | .document _ => inferInstanceAs (Decidable True)

theorem draws_replacedManual : Along sampleStep Draws empty replacedManual := by decide +kernel

end Results

end HeyeeAgent.Knowledge.DocumentFiles
