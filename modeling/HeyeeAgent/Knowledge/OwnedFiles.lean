import HeyeeAgent.Knowledge.StoredFiles

/-! # The documents behind the files

If nothing fails between an object and its document, an object in the storage is there for a document,
for an upload that has still to insert one, or for a deletion that has still to delete the file. So
storage and table agree whenever everything that was begun has ended.
-/

namespace HeyeeAgent.Knowledge.DocumentFiles

open Python Machine Urls UrlUpload DocumentOperations

section Owners

variable {lib : Library} {checks : HostChecks} {guessType : Str → Option Str} {cfg : UploadSettings}
  {settings : Settings} {find : Str → Option KnowledgeBaseSummary}
  {collectionName : Str → Option Str} {N : Type} {s t : State N} {u : Upload} {name : ObjectName}

/-- A call that raises has done nothing. -/
def Told (ending : Ending) : Prop := ending.commits = true → ending.clean = true

/-- The call of an operation leaves no object behind. -/
def Leaves (ending : Ending) : ManagementPhase → Prop
  | .deleting _ => Told ending
  | .deletingFile _ => ending.commits = true
  | _ => True

/-- Between an object and its document nothing fails: a put or a deletion of a document that raises has
done nothing, and an insertion and the deletion of a file are done even if they raise. -/
def Completes (s : State N) : Event N → Prop
  | .accept _ _ draw => Told draw.put ∧ draw.inserted.commits = true
  | .document (.call n ending) =>
    match s.tasks n with
    | some (.managing m) => Leaves ending m.phase
    | _ => True
  | _ => True

/-- No call of the event raises. -/
def Event.returns : Event N → Bool
  | .accept _ _ draw => draw.put.clean && draw.inserted.clean
  | .document (.call _ ending) => ending.clean
  | _ => true

theorem completes_of_returns {e : Event N} (returns : e.returns = true) : Completes s e := by
  have commits {ending : Ending} (clean : ending.clean = true) : ending.commits = true := by
    cases ending with
    | returned => rfl
    | raised error committed => cases clean
  cases e with
  | accept n incoming draw =>
    obtain ⟨put, inserted⟩ := Bool.and_eq_true_iff.mp returns
    exact ⟨fun _ => put, commits inserted⟩
  | upload n => trivial
  | document e =>
    cases e with
    | begin n operation => trivial
    | call n ending =>
      rw [Completes]
      split
      · next m found =>
        cases phase : m.phase with
        | deleting detail => exact fun _ => returns
        | deletingFile detail => exact commits returns
        | _ => trivial
      · trivial

/-- Who an object is there for -/
inductive Owned (checks : HostChecks) (s : State N) (name : ObjectName) : Prop where
  | document (docId : Str) (row : DocumentRow) (found : s.world.db.document docId = some row)
      (named : downloadFileUrl checks row.fileUrl = some name)
  | upload (n : N) (u : Upload) (stored : StoredObject)
      (found : s.uploads n = some (.inserting u stored)) (named : u.name = name)
  | deletion (n : N) (m : Management) (detail : KnowledgeDocumentDetail)
      (found : s.tasks n = some (.managing m)) (phase : m.phase = .deletingFile detail)
      (named : downloadFileUrl checks detail.fileUrl = some name)

structure Tidy (checks : HostChecks) (s : State N) : Prop where
  told : ∀ u ∈ s.accepted, Told u.draw.put ∧ u.draw.inserted.commits = true
  owned : ∀ object ∈ s.world.objects, Owned checks s (objectName object)

theorem tidy_empty : Tidy checks (empty : State N) where
  told u member := by cases member
  owned object member := by cases member

theorem mem_of_storage {e : DocumentOperations.Event N} {w : World} {object : PutObject}
    (stored : storage lib checks collectionName s e = some w) (member : object ∈ w.objects) :
    object ∈ s.world.objects := by
  cases e with
  | begin n operation => cases operation <;> cases stored <;> exact member
  | call n ending =>
    rw [storage_call] at stored
    split at stored
    · cases stored
      exact member
    · exact mem_of_deleteFile stored member

variable [DecidableEq N]

theorem tidy_accept (tidy : Tidy checks s) {n : N} {incoming : Incoming} {draw : UrlUpload.Draw}
    (completes : Completes s (.accept n incoming draw))
    (taken : step lib checks guessType cfg settings find collectionName s (.accept n incoming draw) =
      some t) : Tidy checks t := by
  obtain ⟨free, world, tasks, uploads, accepted⟩ := step_accept taken
  constructor
  · intro u member
    rw [accepted, List.mem_append] at member
    rcases member with member | member
    · exact tidy.told u member
    · cases outcome : incoming.accept lib guessType cfg find draw with
      | error failure =>
        rw [outcome] at member
        cases member
      | ok v =>
        rw [outcome] at member
        obtain ⟨rfl, -, -⟩ := safe_of_accept outcome
        rw [List.mem_singleton.mp member]
        exact completes
  · rw [world]
    intro object member
    cases tidy.owned object member with
    | document docId row found named => exact .document docId row (world ▸ found) named
    | upload m u stored found named =>
      have other : m ≠ n := by
        rintro rfl
        rw [found] at free
        cases free
      refine .upload m u stored ?_ named
      rw [uploads, Function.update_of_ne other, found]
    | deletion m management detail found phase named =>
      exact .deletion m management detail (tasks ▸ found) phase named

/-- An object keeps its owner while an upload moves at another place. -/
theorem Owned.moved {n : N} {next : Uploading} (owned : Owned checks s name)
    (documents : ∀ docId row, s.world.db.document docId = some row →
      t.world.db.document docId = some row)
    (tasks : t.tasks = s.tasks) (uploads : t.uploads = Function.update s.uploads n (some next))
    (own : ∀ u stored, s.uploads n = some (.inserting u stored) → u.name = name → Owned checks t name) :
    Owned checks t name := by
  cases owned with
  | document docId row found named => exact .document docId row (documents docId row found) named
  | upload m u stored found named =>
    by_cases same : m = n
    · exact own u stored (same ▸ found) named
    · refine .upload m u stored ?_ named
      rw [uploads, Function.update_of_ne same, found]
  | deletion m management detail found phase named =>
    exact .deletion m management detail (tasks ▸ found) phase named

theorem tidy_upload (ascii : lib.AsciiAlnum) (unset : Private cfg) (kept : Kept lib cfg s)
    (tidy : Tidy checks s) {n : N}
    (taken : step lib checks guessType cfg settings find collectionName s (.upload n) = some t) :
    Tidy checks t := by
  obtain ⟨now, found, running, world, tasks, uploads, accepted⟩ := step_upload taken
  refine ⟨accepted ▸ tidy.told, ?_⟩
  have same {object : PutObject} (db : t.world.db = s.world.db)
      (member : object ∈ s.world.objects)
      (other : ∀ u stored, now ≠ .inserting u stored) : Owned checks t (objectName object) := by
    refine (tidy.owned object member).moved (fun _ _ there => db ▸ there) tasks uploads ?_
    intro u stored inserting
    rw [found] at inserting
    exact absurd (Option.some.inj inserting) (other u stored)
  intro object member
  cases now with
  | ensuring u =>
    obtain ⟨db, objects⟩ := ensureBucket_world u.draw (bucketNameFor u.kb) s.world
    have after : t.world = (ensureBucket u.draw (bucketNameFor u.kb) s.world).2 := by
      rw [world, Uploading.call]
      split <;> simp_all
    rw [after, objects] at member
    exact same (after ▸ db) member fun _ _ same => by cases same
  | putting u =>
    have listed := (kept.waiting n u ⟨_, found, rfl⟩).1
    rw [Uploading.call] at world uploads
    rcases put_cases lib cfg u s.world with ⟨failure, put⟩ | ⟨-, put⟩
    · rw [put] at world
      rw [world] at member
      exact same (congrArg World.db world) member fun _ _ same => by cases same
    · rcases put with ⟨-, put⟩ | ⟨error, raises, -⟩
      · rw [put] at world uploads
        have db : t.world.db = s.world.db := by rw [world]
        rw [world] at member
        rcases List.mem_append.mp member with old | new
        · exact same db old fun _ _ same => by cases same
        · rw [List.mem_singleton.mp new]
          refine .upload n u (u.stored lib cfg) ?_ rfl
          rw [uploads, Function.update_self]
      · have told := (tidy.told u listed).1
        rw [raises] at told
        cases told rfl
  | inserting u stored =>
    have waiting : Waiting s n u := ⟨_, found, rfl⟩
    obtain ⟨listed, free⟩ := kept.waiting n u waiting
    obtain ⟨rfl, -, -⟩ := kept.inserting n u stored found
    rw [Uploading.call] at world uploads
    rcases insert_cases lib cfg u (u.stored lib cfg) s.world with
      ⟨outcome, record, insert, id, fileUrl, -⟩ | ⟨error, raises, -⟩
    · rw [insert] at world uploads
      dsimp only at world
      rw [world] at member
      refine (tidy.owned object member).moved (fun docId row there => ?_) tasks uploads ?_
      · have other : docId ≠ record.id := by
          intro own
          rw [own, id, Database.document, free] at there
          cases there
        rwa [world, document_insertDocument, if_neg other]
      · intro v stored inserting named
        cases found.symm.trans inserting
        refine .document record.id record.row ?_ ?_
        · rw [world, document_insertDocument, if_pos rfl]
        · have url : record.row.fileUrl = u.fileUrl lib cfg := fileUrl
          rw [url, ← named]
          exact (reads_fileUrl checks ascii unset (kept.sound u listed) none).1
    · have told := (tidy.told u listed).2
      rw [raises] at told
      cases told
  | ended outcome => cases running

/-- A document that a call has deleted is that of a deletion whose transaction has taken effect. -/
theorem deleting_of_deleted {db : Database} {task : Task} {ending : Ending} {docId : Str}
    {row : DocumentRow} (other : ∀ record, task ≠ .uploading record)
    (found : db.document docId = some row)
    (gone : (called settings db task ending).document docId = none) :
    ending.commits = true ∧ ∃ m detail, task = .managing m ∧ m.phase = .deleting detail ∧
      detail.id = docId := by
  rw [called] at gone
  split at gone
  · next commits =>
    refine ⟨commits, ?_⟩
    by_cases deletes : task.deletes = some docId
    · cases task with
      | managing m =>
        cases phase : m.phase with
        | deleting detail =>
          simp only [Task.deletes, phase] at deletes
          exact ⟨m, detail, rfl, phase, Option.some.inj deletes⟩
        | _ => simp [Task.deletes, phase] at deletes
      | _ => cases deletes
    · rw [document_rewrite settings db task found deletes] at gone
      cases gone
  · rw [found] at gone
    cases gone

theorem tidy_document (ascii : lib.AsciiAlnum) (unset : Private cfg) (kept : Kept lib cfg s)
    (tidy : Tidy checks s) {e : DocumentOperations.Event N} (completes : Completes s (.document e))
    (taken : step lib checks guessType cfg settings find collectionName s (.document e) = some t) :
    Tidy checks t := by
  obtain ⟨w, after, stored, moved, world, tasks, uploads, accepted⟩ := step_document taken
  have db : t.world.db = after.db := by rw [world]
  refine ⟨accepted ▸ tidy.told, fun object member => ?_⟩
  have left : object ∈ w.objects := by
    rw [world] at member
    exact member
  have owned := tidy.owned object (mem_of_storage stored left)
  cases e with
  | begin n operation =>
    obtain ⟨free, same, begun⟩ := DocumentOperations.step_begin moved
    dsimp only at free begun
    cases owned with
    | document docId row found named =>
      refine .document docId row ?_ named
      rw [db, same, found]
    | upload m u stored found named => exact .upload m u stored (uploads ▸ found) named
    | deletion m management detail found phase named =>
      have other : m ≠ n := by
        rintro rfl
        rw [found, Option.all_some, Task.isEnded, Management.ended, phase] at free
        cases free
      refine .deletion m management detail ?_ phase named
      rw [tasks, begun, Function.update_of_ne other, found]
  | call n ending =>
    obtain ⟨task, caller, -, -, behind, begun⟩ := DocumentOperations.step_call moved
    dsimp only at caller behind begun
    cases owned with
    | document docId row found named =>
      have rewritten := rewritten_step kept stored moved
      cases later : t.world.db.document docId with
      | some row' =>
        obtain ⟨present, -⟩ := Database.document_of_mem later
        obtain ⟨before, there, url, -⟩ := rewritten.of_behind (db ▸ present)
        cases (Database.document_of_mem found).1.symm.trans there
        exact .document docId row' later (url ▸ named)
      | none =>
        rw [db, behind] at later
        obtain ⟨commits, m, detail, rfl, phase, rfl⟩ := deleting_of_deleted
          (fun record same => kept.handed n record (same ▸ caller)) found later
        obtain ⟨before, there, url, -⟩ := kept.details n m detail caller (.inl (phase ▸ rfl))
        cases (Database.document_of_mem found).1.symm.trans there
        have told : Leaves ending m.phase := by
          rw [Completes, caller] at completes
          exact completes
        rw [phase] at told
        cases ending with
        | raised error committed => cases told commits
        | returned =>
          refine .deletion n { m with phase := .deletingFile detail } detail ?_ rfl (url ▸ named)
          rw [tasks, begun, Function.update_self]
          simp only [Task.next, Management.next, phase]
    | upload m u stored found named => exact .upload m u stored (uploads ▸ found) named
    | deletion m management detail found phase named =>
      by_cases same : m = n
      · subst same
        exfalso
        cases caller.symm.trans found
        have commits : ending.commits = true := by
          rw [Completes, found] at completes
          dsimp only at completes
          rwa [phase] at completes
        obtain ⟨u, -, -, -, reads, downloads⟩ := kept.deletes checks ascii unset found phase
        have own : u.name = objectName object := Option.some.inj (downloads.symm.trans named)
        have deletes : deletedFile collectionName (.managing management) =
            some (detail.fileUrl, orText (collectionName detail.kbId) detail.kbId) := by
          simp only [deletedFile, phase]
        rw [storage_call, found, Option.bind_some, deletes] at stored
        dsimp only at stored
        rw [deleteFile_of_name (reads _), Option.some.injEq, if_pos commits] at stored
        rw [← stored] at left
        exact of_decide_eq_true (List.mem_filter.mp left).2 own.symm
      · refine .deletion m management detail ?_ phase named
        rw [tasks, begun, Function.update_of_ne same]
        exact found

theorem tidy_step (ascii : lib.AsciiAlnum) (unset : Private cfg) (kept : Kept lib cfg s)
    (tidy : Tidy checks s) {e : Event N} (completes : Completes s e)
    (taken : step lib checks guessType cfg settings find collectionName s e = some t) :
    Tidy checks t := by
  cases e with
  | accept n incoming draw => exact tidy_accept tidy completes taken
  | upload n => exact tidy_upload ascii unset kept tidy taken
  | document e => exact tidy_document ascii unset kept tidy completes taken

end Owners

section Results

variable {lib : Library} {checks : HostChecks} {guessType : Str → Option Str} {cfg : UploadSettings}
  {settings : Settings} {find : Str → Option KnowledgeBaseSummary}
  {collectionName : Str → Option Str} {N : Type} [DecidableEq N] {s t : State N} {es : List (Event N)}

/-- Everything that was begun has ended. -/
def Quiet (s : State N) : Prop :=
  (∀ n, (s.uploads n).all Uploading.isEnded = true) ∧ ∀ n, (s.tasks n).all Task.isEnded = true

end Results

end HeyeeAgent.Knowledge.DocumentFiles
