import HeyeeAgent.Knowledge.DocumentFiles

/-! # The objects of uploads

What an upload that passes its checks is, what its calls of the storage and of the database make, and
where its URL leads: to its own object, and to no object of an upload with another identifier.
-/

namespace HeyeeAgent.Knowledge.DocumentFiles

open Python Machine Urls UrlUpload DocumentOperations

section Uploads

variable {lib : Library} {guessType : Str → Option Str} {cfg : UploadSettings}
  {find : Str → Option KnowledgeBaseSummary} {draw : UrlUpload.Draw} {u v : Upload} {w : World}

/-- A part that is received has been counted with those before it. -/
theorem flatten_of_receive {maxBytes written : ℕ} {chunks : List (List ℕ)} {content : List ℕ}
    (within : written ≤ maxBytes) (received : receive maxBytes written chunks = .ok content) :
    content = chunks.flatten ∧ written + content.length ≤ maxBytes := by
  induction chunks generalizing written content with
  | nil =>
    cases received
    exact ⟨rfl, within⟩
  | cons chunk chunks ih =>
    rw [receive] at received
    split_ifs at received with exceeds
    cases rest : receive maxBytes (written + chunk.length) chunks with
    | error failure =>
      rw [rest] at received
      cases received
    | ok later =>
      rw [rest] at received
      cases received
      obtain ⟨rfl, fits⟩ := ih (not_lt.mp exceeds) rest
      rw [List.flatten_cons, List.length_append]
      exact ⟨rfl, by omega⟩

variable (lib cfg) in
/-- A put stores nothing and raises, or it stores the whole content, which has at most the size
allowed. -/
theorem put_cases (u : Upload) (w : World) :
    (∃ failure, u.put lib cfg w = (.error failure, w)) ∨
      u.bytes.length ≤ cfg.maxBytes ∧
        ((u.draw.put = .returned ∧ u.put lib cfg w =
            (.ok (u.stored lib cfg), { w with objects := w.objects ++ [u.object] })) ∨
          ∃ error, u.draw.put = .raised error true ∧ u.put lib cfg w =
            (.error (.other error), { w with objects := w.objects ++ [u.object] })) := by
  cases content : u.content with
  | stream chunks =>
    simp only [Upload.put, content, uploadAsyncStream]
    cases received : receive cfg.maxBytes 0 chunks with
    | error failure => exact .inl ⟨_, rfl⟩
    | ok bytes =>
      obtain ⟨rfl, fits⟩ := flatten_of_receive (Nat.zero_le _) received
      have same : u.bytes = chunks.flatten := by rw [Upload.bytes, content, Content.bytes]
      rw [Upload.stored, Upload.object, same]
      cases ending : u.draw.put with
      | returned => exact .inr ⟨by omega, .inl ⟨rfl, rfl⟩⟩
      | raised error committed =>
        cases committed
        · exact .inl ⟨_, rfl⟩
        · exact .inr ⟨by omega, .inr ⟨error, rfl, rfl⟩⟩
  | downloaded bytes =>
    simp only [Upload.put, content, uploadLocalFile]
    have same : u.bytes = bytes := by rw [Upload.bytes, content, Content.bytes]
    split_ifs with exceeds
    · exact .inl ⟨_, rfl⟩
    · rw [Upload.stored, Upload.object, same]
      cases ending : u.draw.put with
      | returned => exact .inr ⟨not_lt.mp exceeds, .inl ⟨rfl, rfl⟩⟩
      | raised error committed =>
        cases committed
        · exact .inl ⟨_, rfl⟩
        · exact .inr ⟨not_lt.mp exceeds, .inr ⟨error, rfl, rfl⟩⟩

variable (lib cfg) in
/-- What an insertion makes of the tables -/
theorem insert_cases (u : Upload) (stored : StoredObject) (w : World) :
    (∃ outcome record, u.insert lib cfg stored w =
        (outcome, { w with db := insertDocument w.db record }) ∧ record.id = u.documentId ∧
        record.fileUrl = stored.fileUrl ∧ record.fileSize = some stored.fileSize) ∨
      ∃ error, u.draw.inserted = .raised error false ∧
        u.insert lib cfg stored w = (.error (.other error), w) := by
  rw [Upload.insert, insertUploaded]
  cases ending : u.draw.inserted with
  | returned => exact .inl ⟨_, _, rfl, rfl, rfl, rfl⟩
  | raised error committed =>
    cases committed
    · exact .inr ⟨error, rfl, rfl⟩
    · exact .inl ⟨_, _, rfl, rfl, rfl, rfl⟩

theorem document_insertDocument (db : Database) (record : KnowledgeDocumentRecord) (docId : Str) :
    (insertDocument db record).document docId =
      if docId = record.id then some record.row else db.document docId := by
  rw [Database.document, insertDocument]
  dsimp only
  split_ifs with same
  · rw [same, Function.update_self]
    rfl
  · rw [Function.update_of_ne same]
    rfl

theorem ensureBucket_world (draw : UrlUpload.Draw) (bucketName : Str) (w : World) :
    (ensureBucket draw bucketName w).2.db = w.db ∧
      (ensureBucket draw bucketName w).2.objects = w.objects := by
  rw [ensureBucket]
  cases draw.ensured with
  | returned => dsimp only; split <;> exact ⟨rfl, rfl⟩
  | raised error committed => dsimp only; split_ifs <;> exact ⟨rfl, rfl⟩

theorem exists_of_map {ε α β : Type} {outcome : Except ε α} {f : α → β} {b : β}
    (mapped : outcome.map f = .ok b) : ∃ a, outcome = .ok a ∧ f a = b := by
  cases outcome with
  | error e => cases mapped
  | ok a => exact ⟨a, rfl, Except.ok.inj mapped⟩

theorem find_of_accept {net : Internet} {request : UploadRequest} {kb : KnowledgeBaseSummary}
    {options : ChunkOptions} (passes : UrlUpload.accept lib find net request = .ok (kb, options)) :
    find request.knowledgeBaseName.strip = some kb := by
  rw [UrlUpload.accept] at passes
  split_ifs at passes
  split at passes
  · cases passes
  · next base found =>
    split at passes
    · cases passes
    · obtain ⟨-, -, same⟩ := exists_of_map passes
      exact (Prod.mk.inj same).1 ▸ found

/-- A downloaded file has a safe name, whether the URL or the answer gives it. -/
theorem safe_of_download {net : Internet} {client : Client net} {maxBytes : ℕ} {url : Str}
    {downloaded : DownloadedFile}
    (got : (downloadRemoteFile lib client maxBytes url).1 = .ok downloaded) :
    ∃ text, downloaded.fileName = safeFileName lib text := by
  rw [downloadRemoteFile] at got
  split at got
  · cases got
  · dsimp only at got
    split at got
    · cases got
    · next response ending =>
      rw [readResponse] at got
      split_ifs at got
      -- the name of the answer, or that of the URL
      split at got
      all_goals
        split at got
        · cases got
        · cases got
        · cases got
          exact ⟨_, rfl⟩

/-- An upload that is let pass is for a knowledge base that was found, and has a safe file name. -/
theorem safe_of_accept {incoming : Incoming}
    (accepted : incoming.accept lib guessType cfg find draw = .ok u) :
    u.draw = draw ∧ (∃ name, find name = some u.kb) ∧
      ∃ text, u.fileName = safeFileName lib text := by
  cases incoming with
  | file request =>
    rw [Incoming.accept, acceptFile] at accepted
    split_ifs at accepted
    split at accepted
    · cases accepted
    · next kb found =>
      obtain ⟨options, -, rfl⟩ := exists_of_map accepted
      exact ⟨rfl, ⟨_, found⟩, _, rfl⟩
  | url client request =>
    rw [Incoming.accept, acceptUrl] at accepted
    split at accepted
    · cases accepted
    · next kb options passes =>
      obtain ⟨downloaded, got, rfl⟩ := exists_of_map accepted
      exact ⟨rfl, ⟨_, find_of_accept passes⟩, safe_of_download got⟩

end Uploads

section Names

theorem slash_of_safeFileName {lib : Library} {name : Str} (ascii : lib.AsciiAlnum) :
    ∀ c ∈ safeFileName lib name, c ≠ 47 := by
  intro c member
  rw [safeFileName] at member
  split_ifs at member
  · rintro rfl
    revert member
    decide
  · obtain ⟨d, -, rfl⟩ := List.mem_map.mp member
    rw [underscored]
    split_ifs with kept
    · rintro rfl
      rw [ascii 47 (by decide)] at kept
      revert kept
      decide
    · decide

/-- Identifiers as UUIDs are drawn, in digits and letters and all of one length. -/
structure Drawn (draw : UrlUpload.Draw) : Prop where
  length : draw.objectId.length = 32
  objectId : ∀ c ∈ draw.objectId, isPathChar c = true ∧ c ≠ 47
  today : ∀ c ∈ draw.today, isPathChar c = true

/-- The knowledge bases have identifiers of that kind, and buckets that the storage has made. -/
structure Bases (find : Str → Option KnowledgeBaseSummary) : Prop where
  id : ∀ name kb, find name = some kb → ∀ c ∈ kb.id, isPathChar c = true
  bucket : ∀ name kb, find name = some kb → ValidBucket (bucketNameFor kb)

/-- Without a public base URL -/
def Private (cfg : UploadSettings) : Prop :=
  cfg.rustfsPublicBaseUrl = none ∨ cfg.rustfsPublicBaseUrl = some []

/-- What the URL and the name of an upload are made of -/
structure Sound (lib : Library) (u : Upload) : Prop where
  drawn : Drawn u.draw
  base : ∀ c ∈ u.kb.id, isPathChar c = true
  bucket : ValidBucket (bucketNameFor u.kb)
  safe : ∃ text, u.fileName = safeFileName lib text

variable {lib : Library} {cfg : UploadSettings} {u v : Upload}

theorem objectKey_eq (u : Upload) : u.objectKey = (.lit "knowledge-base/" ++ u.kb.id ++ .lit "/" ++
    u.draw.today) ++ 47 :: (u.draw.objectId ++ .lit "-" ++ u.fileName) := by
  rw [Upload.objectKey, buildObjectKey]
  simp only [List.append_assoc]
  rfl

/-- Both readers take the URL of an upload for its object. -/
theorem reads_fileUrl (checks : HostChecks) (ascii : lib.AsciiAlnum) (unset : Private cfg)
    (sound : Sound lib u) (bucketName : Option Str) :
    downloadFileUrl checks (u.fileUrl lib cfg) = some u.name ∧
      deleteFileUrl lib checks (u.fileUrl lib cfg) bucketName = some u.name := by
  obtain ⟨text, named⟩ := sound.safe
  have url : u.fileUrl lib cfg = .lit "s3://" ++ bucketNameFor u.kb ++ .lit "/" ++ u.objectKey := by
    rcases unset with unset | unset <;> rw [Upload.fileUrl, buildFileUrl, unset]
  have plain : pathOf u.objectKey = u.objectKey := by
    rw [pathOf_eq_self_iff, Upload.objectKey, named, isPathChar_key_iff ascii]
    simp only [List.forall_mem_append]
    exact ⟨⟨sound.base, sound.drawn.today⟩, fun c member => (sound.drawn.objectId c member).1⟩
  have key : u.objectKey = .lit "knowledge-base/" ++ (u.kb.id ++ .lit "/" ++ u.draw.today ++
      .lit "/" ++ u.draw.objectId ++ .lit "-" ++ u.fileName) := by
    simp only [Upload.objectKey, buildObjectKey, List.append_assoc]
  obtain ⟨read, parsed, found, s3⟩ := parseS3FileUrl_of_bucket checks sound.bucket
    (u.kb.id ++ .lit "/" ++ u.draw.today ++ .lit "/" ++ u.draw.objectId ++ .lit "-" ++ u.fileName)
  rw [← key, plain] at read
  rw [← key] at found
  rw [url]
  refine ⟨read, ?_⟩
  rw [deleteFileUrl, found, Option.bind_eq_bind, Option.bind_some, if_pos s3, read]
  rfl

/-- Behind the last slash of a key stand the drawn identifier and the file name. -/
theorem last_of_objectKey (ascii : lib.AsciiAlnum) (sound : Sound lib u) :
    u.objectKey.reverse.takeWhile (· != 47) = (u.draw.objectId ++ .lit "-" ++ u.fileName).reverse := by
  obtain ⟨text, named⟩ := sound.safe
  have noSlash : ∀ c ∈ (u.draw.objectId ++ .lit "-" ++ u.fileName).reverse, (c != 47) = true := by
    intro c member
    rw [List.mem_reverse] at member
    rcases List.mem_append.mp member with member | member
    · rcases List.mem_append.mp member with member | member
      · exact bne_iff_ne.mpr (sound.drawn.objectId c member).2
      · rw [List.mem_singleton.mp member]
        rfl
    · rw [named] at member
      exact bne_iff_ne.mpr (slash_of_safeFileName ascii c member)
  rw [objectKey_eq, List.reverse_append, List.reverse_cons, List.append_assoc,
    List.takeWhile_append_of_pos noSlash]
  simp

/-- Uploads with other identifiers have other objects. -/
theorem name_ne (ascii : lib.AsciiAlnum) (first : Sound lib u) (second : Sound lib v)
    (differ : u.draw.objectId ≠ v.draw.objectId) : u.name ≠ v.name := by
  intro same
  apply differ
  have keys : u.objectKey = v.objectKey := congrArg ObjectName.key same
  have last := last_of_objectKey ascii first
  rw [keys, last_of_objectKey ascii second, List.reverse_inj, List.append_assoc,
    List.append_assoc] at last
  exact (List.append_inj last (second.drawn.length.trans first.drawn.length.symm)).1.symm

end Names

end HeyeeAgent.Knowledge.DocumentFiles
