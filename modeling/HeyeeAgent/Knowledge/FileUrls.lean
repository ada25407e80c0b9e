import HeyeeAgent.Knowledge.UrlUpload
import HeyeeAgent.Python.Urls

/-! # The URLs of stored files

Without a public base URL the URL of a file holds its bucket and its key as they are, and both
readers take them apart again. With a base URL it is an HTTP URL, which the download refuses.
-/

namespace HeyeeAgent.Knowledge.UrlUpload

open Python Urls

/-- An object of the storage -/
structure ObjectName where
  bucket : Str
  key : Str
deriving DecidableEq

section Readers

variable (lib : Library) (checks : HostChecks)

/-- `text.lstrip("/")` -/
def stripSlashes (text : Str) : Str := text.dropWhile (· == 47)

/-- `_parse_s3_file_url`; none where it raises `ValueError`. -/
def parseS3FileUrl (fileUrl : Str) : Option ObjectName := do
  let parsed ← urlparse checks fileUrl
  if parsed.scheme ≠ .lit "s3" ∨ parsed.netloc = [] ∨ parsed.path = [] then none
  else some ⟨parsed.netloc, stripSlashes parsed.path⟩

/-- The object that `download_file_url` gets -/
def downloadFileUrl (fileUrl : Str) : Option ObjectName := parseS3FileUrl checks fileUrl

/-- The object that `delete_file_url` deletes -/
def deleteFileUrl (fileUrl : Str) (bucketName : Option Str) : Option ObjectName := do
  let parsed ← urlparse checks fileUrl
  if parsed.scheme = .lit "s3" then parseS3FileUrl checks fileUrl
  else
    match bucketName with
    | some (c :: name) => some ⟨c :: name, lib.unquote (stripSlashes parsed.path)⟩
    | _ => none

end Readers

/-- The letters and digits of the interpreter's table that are ASCII -/
def Library.AsciiAlnum (lib : Library) : Prop :=
  ∀ c < 128, lib.isAlnum c = (isAlpha c || isDigit c)

/-- A name that S3 allows for a bucket -/
structure ValidBucket (bucket : Str) : Prop where
  length : 3 ≤ bucket.length ∧ bucket.length ≤ 63
  chars : ∀ c ∈ bucket, (97 ≤ c ∧ c ≤ 122) ∨ (48 ≤ c ∧ c ≤ 57) ∨ c = 45 ∨ c = 46
  ends : ∀ c, bucket.head? = some c ∨ bucket.getLast? = some c → c ≠ 45 ∧ c ≠ 46

/-- An HTTP URL, in letters of any case -/
def IsHttpUrl (url : Str) : Prop :=
  ∃ scheme rest, url = scheme ++ .lit "://" ++ rest ∧ isHttp (scheme.map lower)

/-- The URL that is built for an object is read as that object's by both readers. -/
def Addresses (lib : Library) (checks : HostChecks) (cfg : UploadSettings) (bucket key : Str) : Prop :=
  downloadFileUrl checks (buildFileUrl lib cfg bucket key) = some ⟨bucket, key⟩ ∧
    deleteFileUrl lib checks (buildFileUrl lib cfg bucket key) (some bucket) = some ⟨bucket, key⟩

/-- There is no public base URL, and what the key is made of has no mark that ends a path. -/
structure Addressable (cfg : UploadSettings) (draw : Draw) (kbId : Str) : Prop where
  base : cfg.rustfsPublicBaseUrl = none ∨ cfg.rustfsPublicBaseUrl = some []
  plain : ∀ c ∈ kbId ++ draw.today ++ draw.objectId, isPathChar c = true

section Names

variable {lib : Library} {name : Str}

/-- A safe file name has no mark that ends a path. -/
theorem isPathChar_of_safeFileName (ascii : lib.AsciiAlnum) (name : Str) :
    ∀ c ∈ safeFileName lib name, isPathChar c = true := by
  have underscored_char (c : ℕ) : isPathChar (underscored lib c) = true := by
    rw [underscored]
    split_ifs with kept
    · by_cases small : c < 128
      · rw [ascii c small] at kept
        simp only [isAlpha, isDigit, Bool.or_eq_true, Bool.and_eq_true, decide_eq_true_eq] at kept
        simp only [isPathChar, isUnsafe, Bool.and_eq_true, Bool.not_eq_true', Bool.or_eq_false_iff,
          beq_eq_false_iff_ne, bne_iff_ne]
        omega
      · simp only [isPathChar, isUnsafe, Bool.and_eq_true, Bool.not_eq_true', Bool.or_eq_false_iff,
          beq_eq_false_iff_ne, bne_iff_ne]
        omega
    · rfl
  intro c member
  rw [safeFileName] at member
  split_ifs at member
  · have plain : ∀ d ∈ Str.lit "upload.bin", isPathChar d = true := by decide
    exact plain c member
  · obtain ⟨d, -, rfl⟩ := List.mem_map.mp member
    exact underscored_char d

theorem isPathChar_key_iff {draw : Draw} {kbId : Str} (ascii : lib.AsciiAlnum) :
    (∀ c ∈ buildObjectKey draw kbId (safeFileName lib name), isPathChar c = true) ↔
      ∀ c ∈ kbId ++ draw.today ++ draw.objectId, isPathChar c = true := by
  have safe := isPathChar_of_safeFileName ascii name
  have folder : ∀ c ∈ Str.lit "knowledge-base/", isPathChar c = true := by decide
  have slash : ∀ c ∈ Str.lit "/", isPathChar c = true := by decide
  have dash : ∀ c ∈ Str.lit "-", isPathChar c = true := by decide
  simp only [buildObjectKey, List.forall_mem_append]
  tauto

end Names

section Urls

variable {lib : Library} {checks : HostChecks} {cfg : UploadSettings} {draw : Draw}
  {bucket key kbId name : Str}

theorem host_of_validBucket (valid : ValidBucket bucket) :
    ∀ c ∈ bucket, c < 128 ∧ c ≠ 91 ∧ c ≠ 93 ∧ inNetloc c = true ∧ isUnsafe c = false := by
  intro c member
  have char := valid.chars c member
  simp only [inNetloc, isUnsafe, Bool.and_eq_true, bne_iff_ne, Bool.or_eq_false_iff,
    beq_eq_false_iff_ne]
  omega

/-- Of the URL of a bucket and a key the readers keep what the path keeps of the key. -/
theorem parseS3FileUrl_of_bucket (checks : HostChecks) (valid : ValidBucket bucket) (rest : Str) :
    parseS3FileUrl checks (.lit "s3://" ++ bucket ++ .lit "/" ++ (.lit "knowledge-base/" ++ rest)) =
      some ⟨bucket, pathOf (.lit "knowledge-base/" ++ rest)⟩ ∧
    ∃ parsed, urlparse checks
      (.lit "s3://" ++ bucket ++ .lit "/" ++ (.lit "knowledge-base/" ++ rest)) = some parsed ∧
      parsed.scheme = .lit "s3" := by
  have letters : ∀ c ∈ Str.lit "s3", isSchemeChar c = true := by decide
  obtain ⟨query, fragment, read⟩ := urlparse_of_host checks (.lit "knowledge-base/" ++ rest)
    (by decide) letters (by decide) (host_of_validBucket valid)
  have whole : Str.lit "s3://" = Str.lit "s3" ++ Str.lit "://" := rfl
  have nonempty : bucket ≠ [] := by
    rintro rfl
    exact absurd valid.length.1 (by decide)
  -- the key does not start with a slash
  have first : pathOf (.lit "knowledge-base/" ++ rest) =
      107 :: pathOf (.lit "nowledge-base/" ++ rest) := rfl
  have strip : stripSlashes (47 :: pathOf (.lit "knowledge-base/" ++ rest)) =
      pathOf (.lit "knowledge-base/" ++ rest) := by
    rw [stripSlashes, List.dropWhile_cons_of_pos (by decide), first,
      List.dropWhile_cons_of_neg (by decide)]
  have scheme : (Str.lit "s3").map lower = Str.lit "s3" := by decide
  refine ⟨?_, _, whole ▸ read, scheme⟩
  rw [parseS3FileUrl, whole, read, Option.bind_eq_bind, Option.bind_some, if_neg, strip]
  rintro (other | empty | empty)
  · exact other scheme
  · exact nonempty empty
  · cases empty

/-- A base URL without the slashes at its end still has its scheme. -/
theorem rstrip_of_scheme (scheme rest : Str) : ∃ more,
    ((scheme ++ 58 :: rest).reverse.dropWhile (· == 47)).reverse = scheme ++ 58 :: more := by
  rw [List.reverse_append, List.reverse_cons, List.append_assoc, List.dropWhile_append]
  split_ifs
  · refine ⟨[], ?_⟩
    rw [List.singleton_append, List.dropWhile_cons_of_neg (by decide), List.reverse_cons,
      List.reverse_reverse]
  · refine ⟨(rest.reverse.dropWhile (· == 47)).reverse, ?_⟩
    simp

theorem isAlpha_of_lower {c : ℕ} (letter : 97 ≤ lower c ∧ lower c ≤ 122) : isAlpha c = true := by
  rw [lower] at letter
  simp only [isAlpha, Bool.or_eq_true, Bool.and_eq_true, decide_eq_true_eq]
  split_ifs at letter with upper
  · exact .inl upper
  · exact .inr letter

/-- An HTTP scheme is made of letters. -/
theorem isAlpha_of_isHttp {scheme : Str} (http : isHttp (scheme.map lower)) :
    ∀ c ∈ scheme, isAlpha c = true := by
  intro c member
  have lowered : lower c ∈ scheme.map lower := List.mem_map_of_mem member
  have small : ∀ d ∈ Str.lit "https", 97 ≤ d ∧ d ≤ 122 := by decide
  have part : Str.lit "http" ⊆ Str.lit "https" := by decide
  rcases http with http | https
  · rw [http] at lowered
    exact isAlpha_of_lower (small _ (part lowered))
  · rw [https] at lowered
    exact isAlpha_of_lower (small _ lowered)

/-- With a base URL the readers see its scheme. -/
theorem scheme_of_base {base : Str} (set : cfg.rustfsPublicBaseUrl = some base)
    (http : IsHttpUrl base) {parsed : ParseResult}
    (read : urlparse checks (buildFileUrl lib cfg bucket key) = some parsed) :
    parsed.scheme ≠ .lit "s3" := by
  obtain ⟨scheme, rest, rfl, http⟩ := http
  have alpha := isAlpha_of_isHttp http
  have letters : ∀ c ∈ scheme, isSchemeChar c = true := by
    intro c member
    rw [isSchemeChar, alpha c member]
    rfl
  cases scheme with
  | nil => rcases http with http | http <;> cases http
  | cons c scheme =>
    have first : ((c :: scheme) : Str).head?.any isAlpha = true := alpha c List.mem_cons_self
    have split : c :: scheme ++ Str.lit "://" ++ rest = c :: scheme ++ 58 :: (.lit "//" ++ rest) := by
      rw [List.append_assoc]
      rfl
    rw [split] at set
    obtain ⟨more, base⟩ := rstrip_of_scheme (c :: scheme) (.lit "//" ++ rest)
    rw [buildFileUrl, set, List.cons_append] at read
    dsimp only at read
    rw [← List.cons_append, base, List.append_assoc, List.append_assoc, List.cons_append] at read
    rw [scheme_of_urlparse first letters read]
    rintro s3
    rw [s3] at http
    rcases http with http | http <;> cases http

/-- Both readers find the object exactly if there is no base URL and the key has no mark that ends a
path. -/
theorem addresses_iff (ascii : lib.AsciiAlnum) (valid : ValidBucket bucket)
    (http : ∀ base, cfg.rustfsPublicBaseUrl = some base → base = [] ∨ IsHttpUrl base) :
    Addresses lib checks cfg bucket (buildObjectKey draw kbId (safeFileName lib name)) ↔
      Addressable cfg draw kbId := by
  by_cases base : cfg.rustfsPublicBaseUrl = none ∨ cfg.rustfsPublicBaseUrl = some []
  · have url : buildFileUrl lib cfg bucket (buildObjectKey draw kbId (safeFileName lib name)) =
        .lit "s3://" ++ bucket ++ .lit "/" ++ buildObjectKey draw kbId (safeFileName lib name) := by
      rcases base with unset | empty
      · rw [buildFileUrl, unset]
      · rw [buildFileUrl, empty]
    have key : buildObjectKey draw kbId (safeFileName lib name) = .lit "knowledge-base/" ++
        (kbId ++ .lit "/" ++ draw.today ++ .lit "/" ++ draw.objectId ++ .lit "-" ++
          safeFileName lib name) := by
      simp only [buildObjectKey, List.append_assoc]
    obtain ⟨read, parsed, found, s3⟩ := parseS3FileUrl_of_bucket checks valid
      (kbId ++ .lit "/" ++ draw.today ++ .lit "/" ++ draw.objectId ++ .lit "-" ++
        safeFileName lib name)
    rw [← key] at read found
    have deletes : deleteFileUrl lib checks (.lit "s3://" ++ bucket ++ .lit "/" ++
        buildObjectKey draw kbId (safeFileName lib name)) (some bucket) =
        some ⟨bucket, pathOf (buildObjectKey draw kbId (safeFileName lib name))⟩ := by
      rw [deleteFileUrl, found, Option.bind_eq_bind, Option.bind_some, if_pos s3, read]
    rw [Addresses, url, downloadFileUrl, read, deletes, and_self, Option.some_inj,
      ObjectName.mk.injEq, eq_self, true_and, pathOf_eq_self_iff, isPathChar_key_iff ascii]
    exact ⟨fun plain => ⟨base, plain⟩, Addressable.plain⟩
  · refine iff_of_false ?_ fun addressable => base addressable.base
    rintro ⟨downloads, -⟩
    cases set : cfg.rustfsPublicBaseUrl with
    | none => exact base (.inl set)
    | some url =>
      have used : IsHttpUrl url := (http url set).resolve_left fun empty => by
        rw [empty] at set
        exact base (.inr set)
      rw [downloadFileUrl, parseS3FileUrl] at downloads
      obtain ⟨parsed, read, downloads⟩ := Option.bind_eq_some_iff.mp downloads
      rw [if_pos (.inl (scheme_of_base set used read))] at downloads
      cases downloads

end Urls

section Settings

/-- A library for ASCII, for names without anything to quote -/
def plainLibrary : Library where
  urlparse _ := .error []
  unquote text := text
  quote text := text
  isAlnum c := isAlpha c || isDigit c
  lower text := text.map lower
  suffix _ := []

def anyHost : HostChecks := ⟨fun _ => true, fun _ => true⟩

def manualDraw : Draw where
  today := .lit "20260701"
  objectId := .lit "0f8fad5bd9cb469fa16570867728950e"
  documentId := .lit "7c9e6679f8f14b2c9a51"
  ensured := .returned
  put := .returned
  inserted := .returned

def manualBucket : Str := .lit "manuals"

theorem valid_manualBucket : ValidBucket manualBucket where
  length := by decide
  chars := by decide
  ends := by
    rintro c (first | last)
    · cases first
      decide
    · cases last
      decide

def privateSettings : UploadSettings := ⟨20, .lit "agent", none⟩

def publicSettings : UploadSettings := ⟨20, .lit "agent", some (.lit "https://files.example.com")⟩

theorem addresses_manual :
    Addresses plainLibrary anyHost privateSettings manualBucket (buildObjectKey manualDraw
      (.lit "4f2a9c1be07d4d3e8b6a") (safeFileName plainLibrary (.lit "user manual.pdf"))) ↔
    Addressable privateSettings manualDraw (.lit "4f2a9c1be07d4d3e8b6a") :=
  addresses_iff (fun _ _ => rfl) valid_manualBucket fun _ set => by cases set

/-- With a public base URL the download refuses the URL. -/
theorem public_not_addresses : ¬ ∀ (cfg : UploadSettings) (bucket name : Str),
    ValidBucket bucket →
    (∀ base, cfg.rustfsPublicBaseUrl = some base → base = [] ∨ IsHttpUrl base) →
    Addresses plainLibrary anyHost cfg bucket (buildObjectKey manualDraw
      (.lit "4f2a9c1be07d4d3e8b6a") (safeFileName plainLibrary name)) := by
  intro all
  have addresses := all publicSettings manualBucket (.lit "manual.pdf") valid_manualBucket (by
    rintro base ⟨⟩
    exact .inr ⟨.lit "https", .lit "files.example.com", by decide, .inr (by decide)⟩)
  have refused : downloadFileUrl anyHost (buildFileUrl plainLibrary publicSettings manualBucket
      (buildObjectKey manualDraw (.lit "4f2a9c1be07d4d3e8b6a")
        (safeFileName plainLibrary (.lit "manual.pdf")))) = none := by decide +kernel
  rw [Addresses, refused] at addresses
  cases addresses.1

end Settings

end HeyeeAgent.Knowledge.UrlUpload
