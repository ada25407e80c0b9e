import HeyeeAgent.Http.Redirects
import HeyeeAgent.Knowledge.DocumentService

/-! # The upload of a document by its URL

`upload_url` checks the submitted URL, downloads the file with a client that follows redirects, puts
it into the storage and inserts the document. The library, the resolver and the servers are
parameters, and the client looks every host up by itself. The temporary file is left out.
-/

namespace HeyeeAgent.Knowledge.UrlUpload

open Python Http

section Outside

/-- What `ip_address` says of an address. -/
structure Address where
  isPrivate : Bool
  isLoopback : Bool
  isLinkLocal : Bool

def Address.inner (address : Address) : Bool :=
  address.isPrivate || address.isLoopback || address.isLinkLocal

/-- `urlparse(url)`; reading the port may raise. -/
structure ParsedUrl where
  scheme : Str
  hostname : Option Str
  port : Except Str (Option ℕ)
  path : Str

inductive LookupError where
  | osError
  | other (error : Str)

structure Library where
  urlparse : Str → Except Str ParsedUrl
  unquote : Str → Str
  quote : Str → Str
  isAlnum : ℕ → Bool
  lower : Str → Str
  /-- `Path(name).suffix` -/
  suffix : Str → Str

/-- A host that the client has connected to: the scheme of the URL and the addresses of the host. -/
structure Connection where
  scheme : Str
  addresses : List Address

def isHttp (scheme : Str) : Prop := scheme = .lit "http" ∨ scheme = .lit "https"

instance (scheme : Str) : Decidable (isHttp scheme) := inferInstanceAs (Decidable (_ ∨ _))

/-- An answer that is not a redirect; an error may cut its content off. -/
structure Response where
  isError : Bool
  contentType : Option Str
  contentDisposition : Option Str
  chunks : List (List ℕ)
  failure : Option Str

structure Internet extends Web Str Connection Response Str where
  /-- the lookup of the service itself -/
  getaddrinfo : Str → ℕ → Except LookupError (List Address)
  /-- The client refuses other schemes. -/
  supported : ∀ {i url connection}, connect i url = .ok connection → isHttp connection.scheme

def tooManyRedirects : Str := .lit "Exceeded maximum allowed redirects."

/-- `client.stream("GET", url)` of an `httpx.AsyncClient` with `follow_redirects=True`. -/
structure Client (net : Internet) where
  stream : ℕ → Str → Traffic Str Connection Response Str
  follows : ∀ maxRedirects url,
    Followed net.toWeb tooManyRedirects maxRedirects 0 url (stream maxRedirects url)

def Client.plain (net : Internet) : Client net where
  stream maxRedirects url := follow net.toWeb tooManyRedirects maxRedirects 0 url
  follows maxRedirects url := followed_follow maxRedirects 0 url

end Outside

section Names

variable (lib : Library)

def underscored (c : ℕ) : ℕ :=
  if lib.isAlnum c ∨ c = 46 ∨ c = 45 ∨ c = 95 then c else 95

def lastPart (separator : ℕ) (text : Str) : Str := (text.splitOn separator).getLastD []

def safeFileName (name : Str) : Str :=
  let slashed := (lib.unquote name).map fun c => if c = 92 then 47 else c
  let cleaned := (lastPart 47 slashed).strip.map (underscored lib)
  if cleaned = [] then .lit "upload.bin" else cleaned

def fileNameFromUrl (url : Str) : Except Str Str :=
  (lib.urlparse url).map fun parsed =>
    let name := if parsed.path = [] then [] else lib.unquote (lastPart 47 parsed.path)
    if name = [] then .lit "remote-file.bin" else name

/-- `text.strip('"')` -/
def stripQuotes (text : Str) : Str := ((text.dropWhile (· == 34)).reverse.dropWhile (· == 34)).reverse

def fileNameFromContentDisposition (value : Option Str) : Option Str :=
  let parts := ((value.getD []).splitOn 59).map Str.strip
  (parts.find? fun part => (Str.lit "filename=").isPrefixOf (lib.lower part)).map fun part =>
    stripQuotes (Str.strip ((part.dropWhile (· != 61)).drop 1))

def fileTypeFromName (name : Str) : Str :=
  let suffix : Str := (lib.lower (lib.suffix name)).dropWhile (· == 46)
  if suffix = .lit "md" then .lit "markdown"
  else if suffix = [] then .lit "bin" else suffix

end Names

section Download

variable (lib : Library) (net : Internet)

def privateUrl : Failure := .http 400 (.lit "URL cannot point to a private network address")

/-- `parsed.port or 443` -/
def portOr443 : Option ℕ → ℕ
  | none | some 0 => 443
  | some port => port

def validateRemoteUrl (url : Str) : Except Failure Unit :=
  match lib.urlparse url with
  | .error error => .error (.other error)
  | .ok parsed =>
    let hostname := parsed.hostname.getD []
    if ¬ isHttp parsed.scheme ∨ hostname = [] then
      .error (.http 400 (.lit "URL only supports http/https"))
    else
      match parsed.port with
      | .error error => .error (.other error)
      | .ok port =>
        match net.getaddrinfo hostname (portOr443 port) with
        | .error .osError => .error (.http 400 (.lit "URL hostname cannot be resolved"))
        | .error (.other error) => .error (.other error)
        | .ok addresses => if addresses.any Address.inner then .error privateUrl else .ok ()

structure DownloadedFile where
  content : List ℕ
  fileName : Str
  contentType : Option Str

/-- The loop over the chunks, with the bytes written before. -/
def receive (maxBytes : ℕ) : ℕ → List (List ℕ) → Except Failure (List ℕ)
  | _, [] => .ok []
  | written, chunk :: chunks =>
    if maxBytes < written + chunk.length then
      .error (.http 400 (.lit "remote file exceeds max size"))
    else (receive maxBytes (written + chunk.length) chunks).map (chunk ++ ·)

/-- From the last answer to the file. -/
def readResponse (maxBytes : ℕ) (fileName : Str) (response : Response) :
    Except Failure DownloadedFile :=
  if response.isError then .error (.other (.lit "HTTPStatusError"))
  else
    let fileName := match fileNameFromContentDisposition lib response.contentDisposition with
      | some (c :: name) => safeFileName lib (c :: name)
      | _ => fileName
    match receive maxBytes 0 response.chunks, response.failure with
    | .error failure, _ => .error failure
    | .ok _, some error => .error (.other error)
    | .ok content, none => .ok { content, fileName, contentType := response.contentType }

variable {net} in
/-- `_download_remote_file`, with what the client fetches for it. -/
def downloadRemoteFile (client : Client net) (maxBytes : ℕ) (url : Str) :
    Except Failure DownloadedFile × List (Fetch Str Connection) :=
  match fileNameFromUrl lib url with
  | .error error => (.error (.other error), [])
  | .ok name =>
    let traffic := client.stream 3 url
    match traffic.ending with
    | .error error => (.error (.other error), traffic.fetches)
    | .ok response => (readResponse lib maxBytes (safeFileName lib name) response, traffic.fetches)

end Download

section Upload

structure KnowledgeBaseSummary where
  id : Str
  name : Str
  collectionName : Option Str

def bucketNameFor (kb : KnowledgeBaseSummary) : Str := orText kb.collectionName kb.id

structure UploadSettings where
  uploadMaxSizeMb : ℕ
  uploadCreatedBy : Str
  rustfsPublicBaseUrl : Option Str

def UploadSettings.maxBytes (cfg : UploadSettings) : ℕ := cfg.uploadMaxSizeMb * 1024 * 1024

structure PutObject where
  bucketName : Str
  objectKey : Str
  contentType : Option Str
  content : List ℕ

structure StoredObject where
  originalFileName : Str
  fileUrl : Str
  objectKey : Str
  fileSize : ℕ

structure World where
  db : Database
  buckets : List Str
  objects : List PutObject

/-- What one request draws, and how its calls of the storage and of the repository end. -/
structure Draw where
  today : Str
  objectId : Str
  documentId : Str
  ensured : Ending
  put : Ending
  inserted : Ending

structure UploadRequest where
  knowledgeBaseName : Str
  sourceType : Str
  url : Str
  chunkStrategy : Str
  chunkConfig : Str

structure UploadResult where
  id : Str
  knowledgeBase : KnowledgeBaseSummary
  stored : StoredObject
  fileType : Str
  sourceType : Str
  sourceLocation : Option Str
  chunkOptions : ChunkOptions

variable (lib : Library) (cfg : UploadSettings) (find : Str → Option KnowledgeBaseSummary)

def buildObjectKey (draw : Draw) (kbId fileName : Str) : Str :=
  .lit "knowledge-base/" ++ kbId ++ .lit "/" ++ draw.today ++ .lit "/" ++ draw.objectId ++
    .lit "-" ++ fileName

def buildFileUrl (bucketName objectKey : Str) : Str :=
  match cfg.rustfsPublicBaseUrl with
  | some (c :: base) =>
    ((c :: base).reverse.dropWhile (· == 47)).reverse ++ .lit "/" ++ lib.quote objectKey
  | _ => .lit "s3://" ++ bucketName ++ .lit "/" ++ objectKey

def ensureBucket (draw : Draw) (bucketName : Str) (w : World) : Except Failure Unit × World :=
  let made := if bucketName ∈ w.buckets then w else { w with buckets := w.buckets ++ [bucketName] }
  match draw.ensured with
  | .returned => (.ok (), made)
  | .raised error committed => (.error (.other error), if committed then made else w)

def uploadLocalFile (draw : Draw) (bucketName objectKey : Str) (file : DownloadedFile) (w : World) :
    Except Failure StoredObject × World :=
  if cfg.maxBytes < file.content.length then
    (.error (.other (.lit "ValueError")), w)
  else
    let object : PutObject := ⟨bucketName, objectKey, file.contentType, file.content⟩
    let stored : StoredObject :=
      ⟨file.fileName, buildFileUrl lib cfg bucketName objectKey, objectKey, file.content.length⟩
    let put := { w with objects := w.objects ++ [object] }
    match draw.put with
    | .returned => (.ok stored, put)
    | .raised error committed => (.error (.other error), if committed then put else w)

def insertUploaded (draw : Draw) (kb : KnowledgeBaseSummary) (stored : StoredObject)
    (sourceType : Str) (sourceLocation : Option Str) (fileType : Str) (options : ChunkOptions)
    (w : World) : Except Failure UploadResult × World :=
  let record : KnowledgeDocumentRecord :=
    { id := draw.documentId
      kbId := kb.id
      docName := stored.originalFileName
      fileUrl := stored.fileUrl
      fileType
      fileSize := some stored.fileSize
      sourceType
      sourceLocation
      chunkStrategy := options.strategy
      chunkConfig := options.config
      createdBy := cfg.uploadCreatedBy }
  let inserted := { w with db := insertDocument w.db record }
  match draw.inserted with
  | .returned =>
    (.ok ⟨draw.documentId, kb, stored, fileType, sourceType, sourceLocation, options⟩, inserted)
  | .raised error committed => (.error (.other error), if committed then inserted else w)

/-- What a downloaded file becomes. -/
def storeDownloaded (draw : Draw) (kb : KnowledgeBaseSummary) (options : ChunkOptions) (url : Str)
    (file : DownloadedFile) (w : World) : Except Failure UploadResult × World :=
  let objectKey := buildObjectKey draw kb.id file.fileName
  match ensureBucket draw (bucketNameFor kb) w with
  | (.error failure, w) => (.error failure, w)
  | (.ok _, w) =>
    match uploadLocalFile lib cfg draw (bucketNameFor kb) objectKey file w with
    | (.error failure, w) => (.error failure, w)
    | (.ok stored, w) =>
      insertUploaded cfg draw kb stored (.lit "URL") (some url) (fileTypeFromName lib file.fileName)
        options w

/-- What is decided before the download. -/
def accept (net : Internet) (request : UploadRequest) :
    Except Failure (KnowledgeBaseSummary × ChunkOptions) :=
  if request.sourceType ≠ .lit "URL" then .error (.http 400 (.lit "sourceType must be URL"))
  else
    match find request.knowledgeBaseName.strip with
    | none => .error (.http 404 (.lit "knowledge base not found"))
    | some kb =>
      match resolveChunkOptions request.chunkStrategy request.chunkConfig with
      | .error failure => .error failure
      | .ok options => (validateRemoteUrl lib net request.url).map fun _ => (kb, options)

structure Run where
  outcome : Except Failure UploadResult
  world : World
  fetches : List (Fetch Str Connection)

def uploadUrl {net : Internet} (client : Client net) (draw : Draw) (request : UploadRequest)
    (w : World) : Run :=
  match accept lib find net request with
  | .error failure => ⟨.error failure, w, []⟩
  | .ok (kb, options) =>
    match downloadRemoteFile lib client cfg.maxBytes request.url with
    | (.error failure, fetches) => ⟨.error failure, w, fetches⟩
    | (.ok file, fetches) =>
      let stored := storeDownloaded lib cfg draw kb options request.url file w
      ⟨stored.1, stored.2, fetches⟩

end Upload

section PrivateNetworks

variable {lib : Library} {cfg : UploadSettings} {find : Str → Option KnowledgeBaseSummary}
  {net : Internet} {client : Client net} {draw : Draw} {request : UploadRequest} {w : World}

/-- The checks of `_validate_remote_url`, made on what the client has connected to. -/
def Connection.Public (connection : Connection) : Prop :=
  isHttp connection.scheme ∧ ∀ address ∈ connection.addresses, address.inner = false

def Run.Rejected (run : Run) (w : World) : Prop :=
  (∃ failure, run.outcome = .error failure) ∧ run.world = w

/-- Nothing is fetched from a private network, and an upload that would need it stores nothing. -/
structure Guarded (lib : Library) (net : Internet) (url : Str) (w : World) (run : Run) : Prop where
  fetches : ∀ fetch ∈ run.fetches, fetch.connection.Public
  submitted : ∀ failure, validateRemoteUrl lib net url = .error failure → run.Rejected w
  followed : ∀ k ≤ 3, ∀ target, location net.toWeb 0 url k = some target →
    (∀ connection, net.connect k target = .ok connection → ¬ connection.Public) → run.Rejected w

/-- Whatever the client connects to while it follows the redirects is public. -/
def PublicChain (net : Internet) (url : Str) : Prop :=
  ∀ k ≤ 3, ∀ target, location net.toWeb 0 url k = some target →
    ∀ connection, net.connect k target = .ok connection →
      ∀ address ∈ connection.addresses, address.inner = false

theorem validateRemoteUrl_of_accept {accepted : KnowledgeBaseSummary × ChunkOptions}
    (passes : accept lib find net request = .ok accepted) :
    validateRemoteUrl lib net request.url = .ok () := by
  unfold accept at passes
  split_ifs at passes
  split at passes
  · cases passes
  · split at passes
    · cases passes
    · cases checked : validateRemoteUrl lib net request.url with
      | error failure =>
        rw [checked] at passes
        cases passes
      | ok => rfl

/-- The check has parsed the URL, so its name is found. -/
theorem fileNameFromUrl_of_valid {url : Str} (valid : validateRemoteUrl lib net url = .ok ()) :
    ∃ name, fileNameFromUrl lib url = .ok name := by
  unfold validateRemoteUrl at valid
  cases parsed : lib.urlparse url with
  | error error =>
    rw [parsed] at valid
    cases valid
  | ok parts => exact ⟨_, by rw [fileNameFromUrl, parsed, Except.map]⟩

theorem fetches_downloadRemoteFile {url : Str} {maxBytes : ℕ}
    (valid : validateRemoteUrl lib net url = .ok ()) :
    (downloadRemoteFile lib client maxBytes url).2 = (client.stream 3 url).fetches := by
  obtain ⟨name, named⟩ := fileNameFromUrl_of_valid valid
  unfold downloadRemoteFile
  rw [named]
  dsimp only
  split <;> rfl

theorem rejected_of_not_accepted {failure : Failure}
    (refused : accept lib find net request = .error failure) :
    uploadUrl lib cfg find client draw request w = ⟨.error failure, w, []⟩ := by
  rw [uploadUrl, refused]

theorem fetches_uploadUrl {accepted : KnowledgeBaseSummary × ChunkOptions}
    (passes : accept lib find net request = .ok accepted) :
    (uploadUrl lib cfg find client draw request w).fetches =
      (client.stream 3 request.url).fetches := by
  have valid := validateRemoteUrl_of_accept passes
  rw [uploadUrl, passes]
  dsimp only
  split
  next failure fetches download =>
    exact (congrArg Prod.snd download).symm.trans (fetches_downloadRemoteFile valid)
  next file fetches download =>
    exact (congrArg Prod.snd download).symm.trans (fetches_downloadRemoteFile valid)

/-- A download that fails stores nothing. -/
theorem rejected_of_ending {error : Str}
    (failed : (client.stream 3 request.url).ending = .error error) :
    (uploadUrl lib cfg find client draw request w).Rejected w := by
  cases passes : accept lib find net request with
  | error failure =>
    rw [rejected_of_not_accepted passes]
    exact ⟨⟨failure, rfl⟩, rfl⟩
  | ok accepted =>
    obtain ⟨name, named⟩ := fileNameFromUrl_of_valid (validateRemoteUrl_of_accept passes)
    have download : downloadRemoteFile lib client cfg.maxBytes request.url =
        (.error (.other error), (client.stream 3 request.url).fetches) := by
      unfold downloadRemoteFile
      rw [named]
      dsimp only
      rw [failed]
    rw [uploadUrl, passes]
    dsimp only
    rw [download]
    exact ⟨⟨.other error, rfl⟩, rfl⟩

/-- The guard holds exactly when the upload is refused before the download, or everything that the
client connects to, the submitted host included, is public when the client looks it up. -/
theorem guarded_uploadUrl_iff : Guarded lib net request.url w
      (uploadUrl lib cfg find client draw request w) ↔
    (∃ failure, accept lib find net request = .error failure) ∨ PublicChain net request.url := by
  have traffic := client.follows 3 request.url
  constructor
  · intro guarded
    cases passes : accept lib find net request with
    | error failure => exact .inl ⟨failure, rfl⟩
    | ok accepted =>
      refine .inr fun k within target leads connection connected => ?_
      have fetched : ⟨target, connection⟩ ∈ (client.stream 3 request.url).fetches :=
        traffic.mem_fetches.mpr ⟨k, within, leads, by rwa [Nat.zero_add]⟩
      have fetches : (uploadUrl lib cfg find client draw request w).fetches =
          (client.stream 3 request.url).fetches := fetches_uploadUrl passes
      rw [← fetches] at fetched
      exact (guarded.fetches _ fetched).2
  · rintro (⟨failure, refused⟩ | publicChain)
    · rw [rejected_of_not_accepted refused]
      exact ⟨nofun, fun _ _ => ⟨⟨failure, rfl⟩, rfl⟩, fun _ _ _ _ _ => ⟨⟨failure, rfl⟩, rfl⟩⟩
    · have isPublic (k : ℕ) (within : k ≤ 3) (target : Str) (connection : Connection)
          (leads : location net.toWeb 0 request.url k = some target)
          (connected : net.connect k target = .ok connection) : connection.Public :=
        ⟨net.supported connected, publicChain k within target leads connection connected⟩
      constructor
      case fetches =>
        intro fetch member
        cases passes : accept lib find net request with
        | error failure =>
          rw [rejected_of_not_accepted passes] at member
          cases member
        | ok accepted =>
          rw [fetches_uploadUrl passes] at member
          obtain ⟨k, within, leads, connected⟩ := traffic.mem_fetches.mp member
          rw [Nat.zero_add] at connected
          exact isPublic k within fetch.url fetch.connection leads connected
      case submitted =>
        intro failure invalid
        cases passes : accept lib find net request with
        | error failure =>
          rw [rejected_of_not_accepted passes]
          exact ⟨⟨failure, rfl⟩, rfl⟩
        | ok accepted => cases invalid.symm.trans (validateRemoteUrl_of_accept passes)
      case followed =>
        intro k within target leads unsafe'
        cases connected : net.connect k target with
        | ok connection =>
          exact absurd (isPublic k within target connection leads connected) (unsafe' _ connected)
        | error error =>
          rw [← Nat.zero_add k] at connected
          obtain ⟨error, failed⟩ := traffic.ending_of_refused within leads connected
          exact rejected_of_ending failed

end PrivateNetworks

section Sample

def sampleUrl : Str := .lit "http://files.example/a.pdf"

def metadataUrl : Str := .lit "http://169.254.169.254/latest/meta-data"

/-- The library on the sample URL and its file name. -/
def sampleLibrary : Library where
  urlparse url := if url = sampleUrl then
    .ok ⟨.lit "http", some (.lit "files.example"), .ok none, .lit "/a.pdf"⟩
    else .error (.lit "ValueError")
  unquote := id
  quote := id
  isAlnum c := (48 ≤ c && c ≤ 57) || (65 ≤ c && c ≤ 90) || (97 ≤ c && c ≤ 122)
  lower := id
  suffix name := 46 :: lastPart 46 name

def publicAddress : Address := ⟨false, false, false⟩

def linkLocalAddress : Address := ⟨true, false, true⟩

/-- The sample host redirects to the metadata service of a cloud. -/
def redirectingNet : Internet where
  connect _ url := .ok ⟨.lit "http", [if url = sampleUrl then publicAddress else linkLocalAddress]⟩
  reply i _ := if i = 0 then .redirect metadataUrl else .answered ⟨false, none, none, [[115]], none⟩
  getaddrinfo _ _ := .ok [publicAddress]
  supported connected := by
    rw [← Except.ok.inj connected]
    exact .inl rfl

def sampleKnowledgeBase : KnowledgeBaseSummary := ⟨.lit "kb", .lit "docs", none⟩

def sampleRun : Run :=
  uploadUrl sampleLibrary ⟨50, .lit "agent", none⟩ (fun _ => some sampleKnowledgeBase)
    (Client.plain redirectingNet)
    ⟨.lit "20250101", .lit "object", .lit "doc", .returned, .returned, .returned⟩
    ⟨.lit "docs", .lit "URL", sampleUrl, .lit "fixed_size", .lit "{}"⟩
    ⟨⟨fun _ => none, [], [], []⟩, [], []⟩

/-- The link-local address is fetched after the check, and its answer is stored. -/
theorem sampleRun_not_guarded :
    validateRemoteUrl sampleLibrary redirectingNet sampleUrl = .ok () ∧
      sampleRun.fetches.map Fetch.url = [sampleUrl, metadataUrl] ∧
      sampleRun.world.objects.map PutObject.content = [[115]] ∧
      ¬ Guarded sampleLibrary redirectingNet sampleUrl
        ⟨⟨fun _ => none, [], [], []⟩, [], []⟩ sampleRun := by
  have fetched : sampleRun.fetches.any (fun fetch => fetch.connection.addresses.any Address.inner) =
      true := by decide +kernel
  refine ⟨rfl, by decide +kernel, by decide +kernel, fun guarded => ?_⟩
  obtain ⟨fetch, member, reaches⟩ := List.any_eq_true.mp fetched
  obtain ⟨address, listed, inner⟩ := List.any_eq_true.mp reaches
  exact Bool.false_ne_true (((guarded.fetches fetch member).2 address listed).symm.trans inner)

end Sample

end HeyeeAgent.Knowledge.UrlUpload
