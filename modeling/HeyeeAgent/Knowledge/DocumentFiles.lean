import HeyeeAgent.Knowledge.DocumentOperations
import HeyeeAgent.Knowledge.FileUrls

/-! # Documents and their files

The uploads of files and of URLs, call by call, beside the other operations on documents. An upload
puts its object into the storage before it inserts the document, and a deletion takes the object away
behind its transaction. Whatever the one storage or the one database answers in between is chosen.
-/

namespace HeyeeAgent.Knowledge.DocumentFiles

open Python Machine UrlUpload DocumentOperations

section Objects

/-- The name of an object -/
def objectName (object : PutObject) : ObjectName := ⟨object.bucketName, object.objectKey⟩

/-- The object that was put last under a name. -/
def file (w : World) (name : ObjectName) : Option (List ℕ) :=
  (w.objects.reverse.find? fun object => objectName object = name).map PutObject.content

/-- `client.delete_object` -/
def deleteObject (w : World) (name : ObjectName) : World :=
  { w with objects := w.objects.filter fun object => objectName object ≠ name }

variable {w : World} {name other : ObjectName} {object : PutObject}

theorem file_put (w : World) (object : PutObject) (name : ObjectName) :
    file { w with objects := w.objects ++ [object] } name =
      if objectName object = name then some object.content else file w name := by
  rw [file, List.reverse_append, List.reverse_singleton, List.singleton_append, List.find?_cons]
  split_ifs with same
  · rw [decide_eq_true same]
    rfl
  · rw [decide_eq_false same]
    rfl

theorem file_deleteObject (w : World) (name other : ObjectName) :
    file (deleteObject w name) other = if other = name then none else file w other := by
  rw [file, deleteObject, ← List.filter_reverse, List.find?_filter]
  split_ifs with same
  · subst same
    simp
  · congr 2
    funext object
    by_cases found : objectName object = other
    · simp [found, same]
    · simp [found]

theorem mem_of_file {content : List ℕ} (found : file w name = some content) :
    ∃ object ∈ w.objects, objectName object = name ∧ object.content = content := by
  obtain ⟨object, first, rfl⟩ := Option.map_eq_some_iff.mp found
  have named := List.find?_some first
  exact ⟨object, List.mem_reverse.mp (List.mem_of_find?_eq_some first), of_decide_eq_true named, rfl⟩

theorem file_isSome_of_mem (member : object ∈ w.objects) (named : objectName object = name) :
    (file w name).isSome := by
  rw [file, Option.isSome_map, List.find?_isSome]
  exact ⟨object, List.mem_reverse.mpr member, decide_eq_true named⟩

end Objects

section Uploads

/-- What an upload puts into the storage: the parts of a request's body, or a downloaded file. -/
inductive Content where
  | stream (chunks : List (List ℕ))
  | downloaded (file : List ℕ)

def Content.bytes : Content → List ℕ
  | stream chunks => chunks.flatten
  | downloaded file => file

/-- An upload that has passed the checks before its first call of the storage. -/
structure Upload where
  kb : KnowledgeBaseSummary
  options : ChunkOptions
  fileName : Str
  contentType : Option Str
  content : Content
  sourceType : Str
  sourceLocation : Option Str
  draw : UrlUpload.Draw

structure FileRequest where
  knowledgeBaseName : Str
  sourceType : Str
  fileName : Option Str
  contentType : Option Str
  chunks : List (List ℕ)
  chunkStrategy : Str
  chunkConfig : Str

/-- A request of either kind; the client of an upload by URL has its own view of the internet. -/
inductive Incoming where
  | file (request : FileRequest)
  | url {net : Internet} (client : Client net) (request : UploadRequest)

variable (lib : Library) (guessType : Str → Option Str) (cfg : UploadSettings)
  (find : Str → Option KnowledgeBaseSummary)

/-- `upload_file` up to its first call of the storage. -/
def acceptFile (draw : UrlUpload.Draw) (request : FileRequest) : Except Failure Upload :=
  if request.sourceType ≠ .lit "FILE" then .error (.http 400 (.lit "sourceType must be FILE"))
  else
    match find request.knowledgeBaseName.strip with
    | none => .error (.http 404 (.lit "knowledge base not found"))
    | some kb =>
      (resolveChunkOptions request.chunkStrategy request.chunkConfig).map fun options =>
        let originalName := safeFileName lib (orText request.fileName (.lit "upload.bin"))
        { kb, options
          fileName := originalName
          contentType := match request.contentType with
            | some (c :: text) => some (c :: text)
            | _ => guessType originalName
          content := .stream request.chunks
          sourceType := .lit "FILE"
          sourceLocation := none
          draw }

/-- `upload_url` up to its first call of the storage. -/
def acceptUrl {net : Internet} (client : Client net) (draw : UrlUpload.Draw)
    (request : UploadRequest) : Except Failure Upload :=
  match accept lib find net request with
  | .error failure => .error failure
  | .ok (kb, options) =>
    (downloadRemoteFile lib client cfg.maxBytes request.url).1.map fun downloaded =>
      { kb, options
        fileName := downloaded.fileName
        contentType := downloaded.contentType
        content := .downloaded downloaded.content
        sourceType := .lit "URL"
        sourceLocation := some request.url
        draw }

def Incoming.accept (draw : UrlUpload.Draw) : Incoming → Except Failure Upload
  | file request => acceptFile lib guessType find draw request
  | url client request => acceptUrl lib cfg find client draw request

/-- `upload_async_stream`; `_CountingAsyncIterator` counts as the download does and raises on its own. -/
def uploadAsyncStream (draw : UrlUpload.Draw) (bucketName objectKey fileName : Str)
    (contentType : Option Str) (chunks : List (List ℕ)) (w : World) :
    Except Failure StoredObject × World :=
  match receive cfg.maxBytes 0 chunks with
  | .error _ => (.error (.other (.lit "ValueError")), w)
  | .ok content =>
    let object : PutObject := ⟨bucketName, objectKey, contentType, content⟩
    let stored : StoredObject :=
      ⟨fileName, buildFileUrl lib cfg bucketName objectKey, objectKey, content.length⟩
    let put := { w with objects := w.objects ++ [object] }
    match draw.put with
    | .returned => (.ok stored, put)
    | .raised error committed => (.error (.other error), if committed then put else w)

namespace Upload

variable (u : Upload)

def bytes : List ℕ := u.content.bytes

def documentId : Str := u.draw.documentId

def objectKey : Str := buildObjectKey u.draw u.kb.id u.fileName

def name : ObjectName := ⟨bucketNameFor u.kb, u.objectKey⟩

def fileUrl : Str := buildFileUrl lib cfg (bucketNameFor u.kb) u.objectKey

/-- The object that the upload puts. -/
def object : PutObject := ⟨bucketNameFor u.kb, u.objectKey, u.contentType, u.bytes⟩

/-- What the upload goes on with from its object. -/
def stored : StoredObject := ⟨u.fileName, u.fileUrl lib cfg, u.objectKey, u.bytes.length⟩

def put (w : World) : Except Failure StoredObject × World :=
  match u.content with
  | .stream chunks =>
    uploadAsyncStream lib cfg u.draw (bucketNameFor u.kb) u.objectKey u.fileName u.contentType chunks w
  | .downloaded content =>
    uploadLocalFile lib cfg u.draw (bucketNameFor u.kb) u.objectKey
      { content, fileName := u.fileName, contentType := u.contentType } w

def insert (stored : StoredObject) (w : World) : Except Failure UploadResult × World :=
  insertUploaded cfg u.draw u.kb stored u.sourceType u.sourceLocation
    (fileTypeFromName lib u.fileName) u.options w

end Upload

/-- An accepted upload, by the call that it makes next. -/
inductive Uploading where
  | ensuring (u : Upload)
  | putting (u : Upload)
  | inserting (u : Upload) (stored : StoredObject)
  | ended (outcome : Except Failure UploadResult)

namespace Uploading

def isEnded : Uploading → Bool
  | ended _ => true
  | _ => false

/-- The upload that has its document still to insert. -/
def pending : Uploading → Option Upload
  | ensuring u | putting u | inserting u _ => some u
  | ended _ => none

def start : Except Failure Upload → Uploading
  | .ok u => ensuring u
  | .error failure => ended (.error failure)

/-- The next call. -/
def call (w : World) : Uploading → Uploading × World
  | ensuring u =>
    match ensureBucket u.draw (bucketNameFor u.kb) w with
    | (.ok _, w) => (putting u, w)
    | (.error failure, w) => (ended (.error failure), w)
  | putting u =>
    match u.put lib cfg w with
    | (.ok stored, w) => (inserting u stored, w)
    | (.error failure, w) => (ended (.error failure), w)
  | inserting u stored => (ended (u.insert lib cfg stored w).1, (u.insert lib cfg stored w).2)
  | ended outcome => (ended outcome, w)

end Uploading

end Uploads

section Machine

/-- The file that a call deletes: its URL, and the bucket that is given with it. -/
def deletedFile (collectionName : Str → Option Str) : Task → Option (Str × Str)
  | .managing m =>
    match m.phase with
    | .deletingFile detail => some (detail.fileUrl, orText (collectionName detail.kbId) detail.kbId)
    | _ => none
  | _ => none

/-- Storage, tables and operations; `accepted` lists the uploads so far. -/
structure State (N : Type) where
  world : World
  tasks : N → Option Task := fun _ => none
  uploads : N → Option Uploading := fun _ => none
  accepted : List Upload := []

inductive Event (N : Type) where
  | accept (n : N) (incoming : Incoming) (draw : UrlUpload.Draw)
  | upload (n : N)
  | document (e : DocumentOperations.Event N)

variable (lib : Library) (checks : Urls.HostChecks) (guessType : Str → Option Str)
  (cfg : UploadSettings) (settings : Settings) (find : Str → Option KnowledgeBaseSummary)
  (collectionName : Str → Option Str)

/-- `delete_file_url`; it cannot return where it finds no object in the URL. -/
def deleteFile (w : World) (fileUrl bucketName : Str) (ending : Ending) : Option World :=
  match deleteFileUrl lib checks fileUrl (some bucketName) with
  | none => if ending.clean then none else some w
  | some name => some (if ending.commits then deleteObject w name else w)

variable {lib checks} in
theorem deleteFile_of_name {w : World} {fileUrl bucketName : Str} {name : ObjectName}
    (named : deleteFileUrl lib checks fileUrl (some bucketName) = some name) (ending : Ending) :
    deleteFile lib checks w fileUrl bucketName ending =
      some (if ending.commits then deleteObject w name else w) := by
  delta deleteFile
  rw [named]

variable {lib checks} in
theorem mem_of_deleteFile {w after : World} {fileUrl bucketName : Str} {ending : Ending}
    {object : PutObject} (deletes : deleteFile lib checks w fileUrl bucketName ending = some after)
    (member : object ∈ after.objects) : object ∈ w.objects := by
  delta deleteFile at deletes
  split at deletes
  · split at deletes
    · cases deletes
    · cases deletes
      exact member
  · cases deletes
    split at member
    · exact (List.mem_filter.mp member).1
    · exact member

variable {N : Type}

/-- What an operation on documents makes of the storage. -/
def storage (s : State N) : DocumentOperations.Event N → Option World
  | .begin _ (.upload _) => none
  | .begin _ _ => some s.world
  | .call n ending =>
    match (s.tasks n).bind (deletedFile collectionName) with
    | none => some s.world
    | some (fileUrl, bucketName) => deleteFile lib checks s.world fileUrl bucketName ending

theorem storage_call (s : State N) (n : N) (ending : Ending) :
    storage lib checks collectionName s (.call n ending) =
      match (s.tasks n).bind (deletedFile collectionName) with
      | none => some s.world
      | some (fileUrl, bucketName) => deleteFile lib checks s.world fileUrl bucketName ending := rfl

variable [DecidableEq N]

def step (s : State N) : Event N → Option (State N)
  | .accept n incoming draw =>
    if (s.uploads n).all Uploading.isEnded then
      let outcome := incoming.accept lib guessType cfg find draw
      some
        { s with
          uploads := Function.update s.uploads n (some (.start outcome))
          accepted := s.accepted ++ outcome.toOption.toList }
    else none
  | .upload n =>
    match s.uploads n with
    | none => none
    | some uploading =>
      if uploading.isEnded then none
      else
        some
          { s with
            world := (uploading.call lib cfg s.world).2
            uploads := Function.update s.uploads n (some (uploading.call lib cfg s.world).1) }
  | .document e =>
    match storage lib checks collectionName s e,
        DocumentOperations.step settings ⟨s.world.db, s.tasks⟩ e with
    | some w, some t => some { s with world := { w with db := t.db }, tasks := t.tasks }
    | _, _ => none

/-- No documents and no objects. -/
def empty : State N where
  world := ⟨{ documents := fun _ => none }, [], []⟩

end Machine

end HeyeeAgent.Knowledge.DocumentFiles
