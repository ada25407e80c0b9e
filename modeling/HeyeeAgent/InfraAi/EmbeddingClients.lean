import HeyeeAgent.InfraAi.ModelRequests
import Mathlib.Data.List.Range

/-! # The clients for embeddings

`AbstractOpenAIStyleEmbeddingModelClient` with its transport. A list of texts goes out as one
request or in batches, and the rows of a response are sorted by their indices before their vectors
are taken. The clients of the providers differ by a few values.
-/

namespace HeyeeAgent.InfraAi.Models

open Python

abbrev Vector := List PyFloat

/-- A client with its transport, which gets the number of the request as well, and with `int` and
`float` of a text, which may raise. -/
structure EmbeddingClient where
  post : ℕ → HttpRequest → HttpReply
  timeoutSeconds : ℚ
  repr : Object → Str
  intOf : Str → Option ℤ
  floatOf : Str → Option PyFloat
  provider : String := "*"
  requiresApiKey : Bool := true
  maxBatchSize : ℤ := 0
  customizesRequestBody : Bool := true

namespace EmbeddingClient

variable (client : EmbeddingClient)

def ollama : EmbeddingClient :=
  { client with provider := "ollama", requiresApiKey := false, customizesRequestBody := false }

def siliconFlow : EmbeddingClient := { client with provider := "siliconflow", maxBatchSize := 32 }

/-- `int(value)` -/
def int : Object → Except ClientError ℤ
  | .bool value => .ok value.toNat
  | .int value => .ok value
  | .float (.finite value) => .ok (value.num.tdiv value.den)
  | .str text =>
    match client.intOf text with
    | some value => .ok value
    | none => .error .conversion
  | _ => .error .conversion

/-- `float(value)` -/
def float : Object → Except ClientError PyFloat
  | .bool value => .ok (.finite (if value then 1 else 0))
  | .int value =>
    match PyFloat.ofRat value with
    | .finite value => .ok (.finite value)
    | _ => .error .conversion
  | .float value => .ok value
  | .str text =>
    match client.floatOf text with
    | some value => .ok value
    | none => .error .conversion
  | _ => .error .conversion

/-- The key by which the rows are sorted; a row without an index has 0. -/
def rowIndex : Object → Except ClientError ℤ
  | .dict entries =>
    match Dict.get entries (.lit "index") with
    | none => .ok 0
    | some index => client.int index
  | _ => .ok 0

def missingEmbedding : ClientError :=
  .modelUnavailable (.lit "Embedding API response missing embedding")

def rowVector : Object → Except ClientError Vector
  | .dict entries =>
    match Object.get entries (.lit "embedding") with
    | .list (value :: values) => (value :: values).mapM client.float
    | _ => .error missingEmbedding
  | _ => .error missingEmbedding

/-- A row with its key -/
def keyed (row : Object) : Except ClientError (ℤ × Object) :=
  match client.rowIndex row with
  | .error error => .error error
  | .ok index => .ok (index, row)

/-- `data` of a response -/
def rowsOf (data : Object) : Except ClientError (List Object) :=
  match responseObject "Embedding" client.repr data with
  | .error error => .error error
  | .ok entries =>
    match Object.get entries (.lit "data") with
    | .list (row :: rows) => .ok (row :: rows)
    | _ => .error (.modelUnavailable (.lit "Embedding API response missing data"))

/-- The vectors of the rows, in the order of their indices -/
def vectorsOf (rows : List Object) : Except ClientError (List Vector) :=
  match rows.mapM client.keyed with
  | .error error => .error error
  | .ok entries =>
    ((entries.mergeSort fun entry other => entry.1 ≤ other.1).map Prod.snd).mapM client.rowVector

def extractEmbeddings (data : Object) : Except ClientError (List Vector) :=
  match client.rowsOf data with
  | .error error => .error error
  | .ok rows => client.vectorsOf rows

/-- `build_request_body` -/
def requestBody (target : ModelTarget) (texts : List Str) : Json := .obj (
  [("model", .text target.candidate.model), ("input", .arr (texts.map .str))] ++
  (match target.candidate.dimension with
    | none => []
    | some dimension => [("dimensions", .int dimension)]) ++
  if client.customizesRequestBody then [("encoding_format", .text "float")] else [])

/-- The response to a request for texts -/
def response (turn : ℕ) (target : ModelTarget) (texts : List Str) : Except ClientError Object :=
  let missing := match target.provider.apiKey with
    | none | some [] => true
    | some _ => false
  if client.requiresApiKey && missing then
    .error (.modelUnavailable (.lit "Embedding provider API key is not configured"))
  else
    postJson "Embedding" (client.post turn) target (client.requestBody target texts)
      (if client.requiresApiKey then some (.lit "Bearer " ++ target.provider.apiKey.getD [])
        else none)
      (timeoutOf target client.timeoutSeconds)

def doEmbed (turn : ℕ) (target : ModelTarget) (texts : List Str) :
    Except ClientError (List Vector) :=
  match client.response turn target texts with
  | .error error => .error error
  | .ok data => client.extractEmbeddings data

/-- The places of a part get its vectors. -/
def storePart : List (Option Vector) → ℕ → List Vector → List (Option Vector)
  | results, _, [] => results
  | results, start, vector :: part => storePart (results.set start (some vector)) (start + 1) part

/-- The loop over the starts of the batches -/
def embedParts (target : ModelTarget) (texts : List Str) (batchSize : ℕ) :
    ℕ → List ℕ → List (Option Vector) → Except ClientError (List (Option Vector))
  | _, [], results => .ok results
  | turn, start :: starts, results =>
    let stop := min (start + batchSize) texts.length
    match client.doEmbed turn target ((texts.take stop).drop start) with
    | .error error => .error error
    | .ok part =>
      if part.length ≠ stop - start then
        .error (.modelUnavailable (.lit "Embedding API returned an unexpected result count"))
      else embedParts target texts batchSize (turn + 1) starts (storePart results start part)

/-- `_require_vector` -/
def requireVector : Option Vector → Except ClientError Vector
  | none => .error (.modelUnavailable (.lit "Embedding API returned an incomplete batch result"))
  | some vector => .ok vector

/-- `range(0, length, batch_size)` -/
def starts (length batchSize : ℕ) : List ℕ :=
  List.range' 0 ((length + batchSize - 1) / batchSize) batchSize

def embedBatch (target : ModelTarget) (texts : List Str) : Except ClientError (List Vector) :=
  if texts.isEmpty then .ok []
  else if client.maxBatchSize ≤ 0 ∨ (texts.length : ℤ) ≤ client.maxBatchSize then
    client.doEmbed 0 target texts
  else
    let batchSize := client.maxBatchSize.toNat
    match client.embedParts target texts batchSize 0 (starts texts.length batchSize)
        (List.replicate texts.length none) with
    | .error error => .error error
    | .ok results => results.mapM requireVector

section Conversion

variable {α β ε : Type}

/-- A loop that converts its items and raises where one of them is refused -/
theorem mapM_ok_iff {f : α → Except ε β} {items : List α} {converted : List β} :
    items.mapM f = .ok converted ↔ List.Forall₂ (fun a b => f a = .ok b) items converted := by
  induction items generalizing converted with
  | nil =>
    rw [List.mapM_nil, List.forall₂_nil_left_iff]
    exact ⟨fun same => by cases same; rfl, fun same => by rw [same]; rfl⟩
  | cons a items ih =>
    rw [List.mapM_cons]
    cases first : f a with
    | error error =>
      refine iff_of_false (fun same => by cases same) ?_
      rintro (_ | ⟨head, -⟩)
      rw [first] at head
      cases head
    | ok b =>
      cases later : items.mapM f with
      | error error =>
        refine iff_of_false (fun same => by cases same) ?_
        rintro (_ | ⟨-, tail⟩)
        rw [ih.mpr tail] at later
        cases later
      | ok rest =>
        constructor
        · rintro ⟨⟩
          exact .cons first (ih.mp later)
        · rintro (_ | ⟨head, tail⟩)
          rw [first] at head
          rw [ih.mpr tail] at later
          cases head
          cases later
          rfl

/-- Every item is converted where each can be. -/
theorem exists_mapM {f : α → Except ε β} {items : List α} (each : ∀ a ∈ items, ∃ b, f a = .ok b) :
    ∃ converted, items.mapM f = .ok converted := by
  induction items with
  | nil => exact ⟨[], rfl⟩
  | cons a items ih =>
    obtain ⟨⟨b, first⟩, later⟩ := List.forall_mem_cons.mp each
    obtain ⟨rest, later⟩ := ih later
    exact ⟨b :: rest, mapM_ok_iff.mpr (.cons first (mapM_ok_iff.mp later))⟩

theorem getElem?_of_mapM {f : α → Except ε β} {items : List α} {converted : List β}
    (returned : items.mapM f = .ok converted) {i : ℕ} {a : α} (here : items[i]? = some a) :
    ∃ b, converted[i]? = some b ∧ f a = .ok b := by
  obtain ⟨length, pairs⟩ := List.forall₂_iff_get.mp (mapM_ok_iff.mp returned)
  obtain ⟨inside, rfl⟩ := List.getElem?_eq_some_iff.mp here
  exact ⟨_, List.getElem?_eq_getElem (length ▸ inside), pairs i inside (length ▸ inside)⟩

theorem length_of_mapM {f : α → Except ε β} {items : List α} {converted : List β}
    (returned : items.mapM f = .ok converted) : converted.length = items.length :=
  (mapM_ok_iff.mp returned).length_eq.symm

end Conversion

section Rows

variable {client} {rows : List Object} {vectors : List Vector} {n : ℕ}

/-- Every row has an index and a vector. -/
def Accepts (client : EmbeddingClient) (rows : List Object) : Prop :=
  ∀ row ∈ rows, (∃ index, client.rowIndex row = .ok index) ∧
    ∃ vector, client.rowVector row = .ok vector

/-- The rows carry the indices below a number, each one once. -/
def Indexed (client : EmbeddingClient) (rows : List Object) (n : ℕ) : Prop :=
  (rows.map client.rowIndex).Perm ((List.range n).map fun i : ℕ => .ok (i : ℤ))

/-- The entries are the rows with their keys. -/
theorem keyed_spec {entries : List (ℤ × Object)} (read : rows.mapM client.keyed = .ok entries) :
    entries.map Prod.snd = rows ∧
      entries.map (fun entry => Except.ok entry.1) = rows.map client.rowIndex := by
  have pairs := mapM_ok_iff.mp read
  clear read
  induction pairs with
  | nil => exact ⟨rfl, rfl⟩
  | cons first _ ih =>
    rw [keyed] at first
    split at first
    · cases first
    · rename_i found
      cases first
      exact ⟨by rw [List.map_cons, ih.1], by rw [List.map_cons, List.map_cons, ih.2, found]⟩

/-- The order in which the vectors are taken -/
def sortEntries (entries : List (ℤ × Object)) : List (ℤ × Object) :=
  entries.mergeSort fun entry other => entry.1 ≤ other.1

theorem vectorsOf_ok_iff : client.vectorsOf rows = .ok vectors ↔ ∃ entries,
    rows.mapM client.keyed = .ok entries ∧
      ((sortEntries entries).map Prod.snd).mapM client.rowVector = .ok vectors := by
  rw [vectorsOf]
  cases read : rows.mapM client.keyed with
  | error error => simp
  | ok entries =>
    constructor
    · exact fun returned => ⟨entries, rfl, returned⟩
    · rintro ⟨_, ⟨⟩, returned⟩
      exact returned

theorem sortEntries_perm (entries : List (ℤ × Object)) :
    ((sortEntries entries).map Prod.snd).Perm (entries.map Prod.snd) :=
  (List.mergeSort_perm entries _).map _

theorem perm_of_keyed {entries : List (ℤ × Object)} (read : rows.mapM client.keyed = .ok entries) :
    ((sortEntries entries).map Prod.snd).Perm rows := by
  have sorted := sortEntries_perm entries
  rwa [(keyed_spec read).1] at sorted

/-- The vectors of rows are read exactly if every row is accepted. -/
theorem exists_vectorsOf_iff : (∃ vectors, client.vectorsOf rows = .ok vectors) ↔
    client.Accepts rows := by
  constructor
  · rintro ⟨vectors, returned⟩ row member
    obtain ⟨entries, read, taken⟩ := vectorsOf_ok_iff.mp returned
    have member' := (perm_of_keyed read).mem_iff.mpr member
    obtain ⟨i, here⟩ := List.mem_iff_getElem?.mp member
    obtain ⟨j, there⟩ := List.mem_iff_getElem?.mp member'
    obtain ⟨entry, -, keyed_row⟩ := getElem?_of_mapM read here
    obtain ⟨vector, -, vector_row⟩ := getElem?_of_mapM taken there
    refine ⟨?_, vector, vector_row⟩
    rw [keyed] at keyed_row
    split at keyed_row
    · cases keyed_row
    · rename_i index found
      exact ⟨index, found⟩
  · intro accepts
    have keys : ∀ row ∈ rows, ∃ entry, client.keyed row = .ok entry := by
      intro row member
      obtain ⟨index, found⟩ := (accepts row member).1
      exact ⟨(index, row), by rw [keyed, found]⟩
    obtain ⟨entries, read⟩ := exists_mapM keys
    have rest : ∀ row ∈ (sortEntries entries).map Prod.snd,
        ∃ vector, client.rowVector row = .ok vector :=
      fun row member => (accepts row ((perm_of_keyed read).mem_iff.mp member)).2
    obtain ⟨vectors, taken⟩ := exists_mapM rest
    exact ⟨vectors, vectorsOf_ok_iff.mpr ⟨entries, read, taken⟩⟩

/-- One vector for each row -/
theorem length_vectorsOf (returned : client.vectorsOf rows = .ok vectors) :
    vectors.length = rows.length := by
  obtain ⟨entries, read, taken⟩ := vectorsOf_ok_iff.mp returned
  rw [length_of_mapM taken, (perm_of_keyed read).length_eq]

/-- An entry is a row with its index. -/
theorem row_of_keyed {entries : List (ℤ × Object)} (read : rows.mapM client.keyed = .ok entries)
    {entry : ℤ × Object} (member : entry ∈ entries) :
    entry.2 ∈ rows ∧ client.rowIndex entry.2 = .ok entry.1 := by
  obtain ⟨j, here⟩ := List.mem_iff_getElem?.mp member
  obtain ⟨rows_eq, indices_eq⟩ := keyed_spec read
  have row := congrArg (fun rows => rows[j]?) rows_eq
  have index := congrArg (fun keys => keys[j]?) indices_eq
  rw [List.getElem?_map, here, Option.map_some] at row
  rw [List.getElem?_map, List.getElem?_map, here, ← row, Option.map_some, Option.map_some] at index
  exact ⟨rows_eq ▸ List.mem_map_of_mem member, (Option.some_inj.mp index).symm⟩

/-- The keys of rows with all indices from 0 on, each once, are these indices. -/
theorem keys_of_indexed {entries : List (ℤ × Object)} (read : rows.mapM client.keyed = .ok entries)
    (indexed : client.Indexed rows n) :
    (entries.map Prod.fst).Perm ((List.range n).map fun i : ℕ => (i : ℤ)) := by
  rw [Indexed, ← (keyed_spec read).2] at indexed
  have stripped := indexed.filterMap fun index => index.toOption
  rw [List.filterMap_map, List.filterMap_map] at stripped
  have keys : entries.map Prod.fst = entries.filterMap
      ((fun index : Except ClientError ℤ => index.toOption) ∘ fun entry => .ok entry.1) := by
    rw [← List.filterMap_eq_map]
    rfl
  have indices : (List.range n).map (fun i : ℕ => (i : ℤ)) = (List.range n).filterMap
      ((fun index : Except ClientError ℤ => index.toOption) ∘ fun i : ℕ => .ok (i : ℤ)) := by
    rw [← List.filterMap_eq_map]
    rfl
  rwa [← keys, ← indices] at stripped

/-- Entries whose keys are these indices are sorted into their order. -/
theorem sortEntries_keys {entries : List (ℤ × Object)}
    (keys : (entries.map Prod.fst).Perm ((List.range n).map fun i : ℕ => (i : ℤ))) :
    (sortEntries entries).map Prod.fst = (List.range n).map fun i : ℕ => (i : ℤ) := by
  have sorted := ((List.mergeSort_perm entries fun entry other => entry.1 ≤ other.1).map
    Prod.fst).trans keys
  refine List.Perm.eq_of_sortedLE (List.Pairwise.sortedLE ?_) (List.Pairwise.sortedLE ?_) sorted
  · refine List.pairwise_map.mpr (List.Pairwise.imp of_decide_eq_true
      (List.pairwise_mergeSort ?_ ?_ _))
    · intro a b c first second
      exact decide_eq_true ((of_decide_eq_true first).trans (of_decide_eq_true second))
    · intro a b
      rw [Bool.or_eq_true, decide_eq_true_eq, decide_eq_true_eq]
      exact le_total a.1 b.1
  · exact List.pairwise_map.mpr (List.pairwise_le_range.imp fun less => Int.ofNat_le.mpr less)

/-- Rows with all indices from 0 on, each once, are in the order of their indices. -/
theorem getElem?_vectorsOf (returned : client.vectorsOf rows = .ok vectors)
    (indexed : client.Indexed rows n) {i : ℕ} (less : i < n) :
    ∃ row ∈ rows, client.rowIndex row = .ok (i : ℤ) ∧
      ∃ vector, vectors[i]? = some vector ∧ client.rowVector row = .ok vector := by
  obtain ⟨entries, read, taken⟩ := vectorsOf_ok_iff.mp returned
  have at_index := congrArg (fun keys => keys[i]?) (sortEntries_keys (keys_of_indexed read indexed))
  rw [List.getElem?_map, List.getElem?_map, List.getElem?_range less] at at_index
  obtain ⟨entry, here, index⟩ := Option.map_eq_some_iff.mp at_index
  have member : entry ∈ entries :=
    (List.mergeSort_perm entries _).mem_iff.mp (List.mem_of_getElem? here)
  have row_here : ((sortEntries entries).map Prod.snd)[i]? = some entry.2 := by
    rw [List.getElem?_map, here, Option.map_some]
  obtain ⟨vector, vector_here, read_row⟩ := getElem?_of_mapM taken row_here
  obtain ⟨listed, key⟩ := row_of_keyed read member
  rw [index] at key
  exact ⟨entry.2, listed, key, vector, vector_here, read_row⟩

/-- As many rows as indices, with every index among them, carry each index once. -/
theorem indexed_of_covered (count : rows.length = n)
    (covered : ∀ i < n, ∃ row ∈ rows, client.rowIndex row = .ok (i : ℤ)) :
    client.Indexed rows n := by
  have distinct :
      ((List.range n).map fun i : ℕ => (Except.ok (i : ℤ) : Except ClientError ℤ)).Nodup := by
    refine List.Nodup.map (fun i j same => ?_) List.nodup_range
    exact Int.ofNat_inj.mp (Except.ok.inj same)
  have subset : ((List.range n).map fun i : ℕ => (Except.ok (i : ℤ) : Except ClientError ℤ)) ⊆
      rows.map client.rowIndex := by
    intro index member
    obtain ⟨i, less, rfl⟩ := List.mem_map.mp member
    obtain ⟨row, listed, same⟩ := covered i (List.mem_range.mp less)
    exact List.mem_map.mpr ⟨row, listed, same⟩
  exact ((List.subperm_of_subset distinct subset).perm_of_length_le (by simp [count])).symm

end Rows

section Batches

variable {client} {target : ModelTarget} {texts : List Str} {batchSize turn start count : ℕ}

theorem length_storePart (results : List (Option Vector)) (start : ℕ) (part : List Vector) :
    (storePart results start part).length = results.length := by
  induction part generalizing results start with
  | nil => rfl
  | cons vector part ih => rw [storePart, ih, List.length_set]

theorem getElem?_storePart_of_lt {results : List (Option Vector)} {part : List Vector} {i : ℕ}
    (before : i < start) : (storePart results start part)[i]? = results[i]? := by
  induction part generalizing results start with
  | nil => rfl
  | cons vector part ih =>
    rw [storePart, ih (Nat.lt_succ_of_lt before), List.getElem?_set_ne before.ne']

theorem getElem?_storePart {results : List (Option Vector)} {part : List Vector} {j : ℕ}
    {vector : Vector} (here : part[j]? = some vector) (inside : start + j < results.length) :
    (storePart results start part)[start + j]? = some (some vector) := by
  induction part generalizing results start j with
  | nil => cases here
  | cons first part ih =>
    rw [storePart]
    cases j with
    | zero =>
      cases here
      rw [Nat.add_zero] at inside
      rw [Nat.add_zero start, getElem?_storePart_of_lt (Nat.lt_add_one start),
        List.getElem?_set_self inside]
    | succ j =>
      have stored := @ih (start + 1) (results.set start (some first)) j here
        (by rw [List.length_set]; omega)
      rwa [Nat.add_right_comm] at stored

/-- The texts of a request -/
def slice (texts : List Str) (start batchSize : ℕ) : List Str :=
  (texts.take (min (start + batchSize) texts.length)).drop start

theorem length_slice (texts : List Str) (start batchSize : ℕ) :
    (slice texts start batchSize).length = min (start + batchSize) texts.length - start := by
  rw [slice, List.length_drop, List.length_take, Nat.min_eq_left (Nat.min_le_right _ _)]

/-- One turn of the loop over the batches -/
theorem embedParts_cons_ok_iff {starts : List ℕ} {results ends : List (Option Vector)} :
    client.embedParts target texts batchSize turn (start :: starts) results = .ok ends ↔
      ∃ part, client.doEmbed turn target (slice texts start batchSize) = .ok part ∧
        part.length = (slice texts start batchSize).length ∧
        client.embedParts target texts batchSize (turn + 1) starts (storePart results start part) =
          .ok ends := by
  rw [embedParts, ← slice, length_slice]
  cases answered : client.doEmbed turn target (slice texts start batchSize) with
  | error error => simp
  | ok part =>
    dsimp only
    split_ifs with count
    · refine iff_of_false (fun same => by cases same) ?_
      rintro ⟨_, ⟨⟩, same, -⟩
      exact count same
    · constructor
      · exact fun rest => ⟨part, rfl, not_not.mp count, rest⟩
      · rintro ⟨_, ⟨⟩, -, rest⟩
        exact rest

/-- What a batch is embedded to, with its number -/
def Answers (client : EmbeddingClient) (target : ModelTarget) (texts : List Str)
    (batchSize turn start : ℕ) (part : List Vector) : Prop :=
  client.doEmbed turn target (slice texts start batchSize) = .ok part ∧
    part.length = (slice texts start batchSize).length

/-- The loop ends if every batch is answered. -/
theorem exists_embedParts (results : List (Option Vector))
    (answered : ∀ k < count, ∃ part,
      client.Answers target texts batchSize (turn + k) (start + k * batchSize) part) :
    ∃ ends, client.embedParts target texts batchSize turn (List.range' start count batchSize)
      results = .ok ends := by
  induction count generalizing turn start results with
  | zero => exact ⟨results, rfl⟩
  | succ count ih =>
    obtain ⟨part, first⟩ := answered 0 count.succ_pos
    rw [Nat.zero_mul, Nat.add_zero, Nat.add_zero] at first
    have later : ∀ k < count, ∃ part, client.Answers target texts batchSize (turn + 1 + k)
        (start + batchSize + k * batchSize) part := by
      intro k less
      obtain ⟨part, next⟩ := answered (k + 1) (Nat.succ_lt_succ less)
      have turn_eq : turn + (k + 1) = turn + 1 + k := by omega
      have start_eq : start + (k + 1) * batchSize = start + batchSize + k * batchSize := by
        rw [Nat.succ_mul]
        omega
      rw [turn_eq, start_eq] at next
      exact ⟨part, next⟩
    obtain ⟨ends, rest⟩ := ih (storePart results start part) later
    exact ⟨ends, embedParts_cons_ok_iff.mpr ⟨part, first.1, first.2, rest⟩⟩

/-- The vectors stand where their texts do. -/
theorem embedParts_spec {results ends : List (Option Vector)} (positive : 0 < batchSize)
    (length : results.length = texts.length) (cover : texts.length ≤ start + count * batchSize)
    (returned : client.embedParts target texts batchSize turn
      (List.range' start count batchSize) results = .ok ends) :
    ends.length = texts.length ∧ (∀ i < start, ends[i]? = results[i]?) ∧
    ∀ i < texts.length, start ≤ i → ∃ part vector,
      client.Answers target texts batchSize (turn + (i - start) / batchSize)
        (start + (i - start) / batchSize * batchSize) part ∧
      part[(i - start) % batchSize]? = some vector ∧ ends[i]? = some (some vector) := by
  induction count generalizing turn start results with
  | zero =>
    cases returned
    exact ⟨length, fun _ _ => rfl, fun i inside above => absurd cover (by omega)⟩
  | succ count ih =>
    obtain ⟨part, answered, size, rest⟩ := embedParts_cons_ok_iff.mp returned
    obtain ⟨ends_length, before, after⟩ := ih ((length_storePart _ _ _).trans length)
      (by rw [Nat.succ_mul] at cover; omega) rest
    refine ⟨ends_length, fun i less => ?_, fun i inside above => ?_⟩
    · rw [before i (Nat.lt_add_right _ less), getElem?_storePart_of_lt less]
    · obtain ⟨j, rfl⟩ := Nat.exists_eq_add_of_le above
      rw [Nat.add_sub_cancel_left]
      rcases Nat.lt_or_ge j batchSize with here | later
      · -- in this batch
        have within : j < part.length := by
          rw [size, length_slice]
          omega
        have at_place := List.getElem?_eq_getElem within
        refine ⟨part, part[j], ?_, ?_, ?_⟩
        · rw [Nat.div_eq_of_lt here, Nat.zero_mul, Nat.add_zero, Nat.add_zero]
          exact ⟨answered, size⟩
        · rwa [Nat.mod_eq_of_lt here]
        · rw [before _ (Nat.add_lt_add_left here start), getElem?_storePart at_place (by omega)]
      · obtain ⟨i, rfl⟩ := Nat.exists_eq_add_of_le later
        obtain ⟨part, vector, next⟩ := after (start + (batchSize + i)) inside (by omega)
        refine ⟨part, vector, ?_⟩
        have apart : start + (batchSize + i) - (start + batchSize) = i := by omega
        have turn_eq : turn + (i / batchSize + 1) = turn + 1 + i / batchSize := by omega
        have start_eq : start + (i / batchSize + 1) * batchSize =
            start + batchSize + i / batchSize * batchSize := by
          rw [Nat.succ_mul]
          omega
        rw [apart, ← turn_eq, ← start_eq] at next
        rwa [Nat.add_div_left i positive, Nat.add_mod_left]

end Batches

section Alignment

variable {client} {target : ModelTarget} {texts : List Str} {vectors : List Vector} {k i : ℕ}

/-- How many texts a request carries, but for the last one -/
def requestSize (client : EmbeddingClient) (texts : List Str) : ℕ :=
  if client.maxBatchSize ≤ 0 ∨ (texts.length : ℤ) ≤ client.maxBatchSize then texts.length
  else client.maxBatchSize.toNat

/-- The texts of a request -/
def requestTexts (client : EmbeddingClient) (texts : List Str) (k : ℕ) : List Str :=
  slice texts (k * client.requestSize texts) (client.requestSize texts)

/-- The rows of the response to a request -/
def rowsReceived (client : EmbeddingClient) (target : ModelTarget) (texts : List Str) (k : ℕ) :
    Except ClientError (List Object) :=
  match client.response k target (client.requestTexts texts k) with
  | .error error => .error error
  | .ok data => client.rowsOf data

/-- Each text has a vector, from the row with its index in the response to its request. -/
structure Aligned (client : EmbeddingClient) (target : ModelTarget) (texts : List Str)
    (vectors : List Vector) : Prop where
  length : vectors.length = texts.length
  row : ∀ i < texts.length,
    ∃ rows, client.rowsReceived target texts (i / client.requestSize texts) = .ok rows ∧
      ∃ row ∈ rows, client.rowIndex row = .ok ↑(i % client.requestSize texts) ∧
        ∃ vector, vectors[i]? = some vector ∧ client.rowVector row = .ok vector

/-- A request is answered with rows that are read. Their number is that of the texts where there is
more than one request. -/
structure Taken (client : EmbeddingClient) (target : ModelTarget) (texts : List Str) (k : ℕ)
    (rows : List Object) : Prop where
  received : client.rowsReceived target texts k = .ok rows
  accepts : client.Accepts rows
  count : client.requestSize texts < texts.length →
    rows.length = (client.requestTexts texts k).length

/-- Where all responses are taken, their rows carry the indices of the texts, each one once. -/
def Indexing (client : EmbeddingClient) (target : ModelTarget) (texts : List Str) : Prop :=
  (∀ k, k * client.requestSize texts < texts.length → ∃ rows, client.Taken target texts k rows) →
    ∀ k, k * client.requestSize texts < texts.length →
      ∀ rows, client.rowsReceived target texts k = .ok rows →
        client.Indexed rows (client.requestTexts texts k).length

theorem doEmbed_ok_iff : client.doEmbed k target (client.requestTexts texts k) = .ok vectors ↔
    ∃ rows, client.rowsReceived target texts k = .ok rows ∧
      client.vectorsOf rows = .ok vectors := by
  rw [doEmbed, rowsReceived]
  cases client.response k target (client.requestTexts texts k) with
  | error error => simp
  | ok data =>
    dsimp only
    rw [extractEmbeddings]
    cases client.rowsOf data with
    | error error => simp
    | ok rows => simp

theorem requestSize_cases (client : EmbeddingClient) (target : ModelTarget) (present : texts ≠ []) :
    (client.requestSize texts = texts.length ∧ client.requestTexts texts 0 = texts ∧
      client.embedBatch target texts = client.doEmbed 0 target texts) ∨
    (client.requestSize texts < texts.length ∧ 0 < client.requestSize texts ∧
      client.embedBatch target texts =
        match client.embedParts target texts (client.requestSize texts) 0
            (starts texts.length (client.requestSize texts)) (List.replicate texts.length none) with
        | .error error => .error error
        | .ok results => results.mapM requireVector) := by
  have visible : texts.isEmpty = false := List.isEmpty_eq_false_iff.mpr present
  by_cases single : client.maxBatchSize ≤ 0 ∨ (texts.length : ℤ) ≤ client.maxBatchSize
  · left
    have size : client.requestSize texts = texts.length := if_pos single
    refine ⟨size, ?_, ?_⟩
    · rw [requestTexts, size, slice, Nat.zero_mul, Nat.zero_add, Nat.min_self, List.take_length,
        List.drop_zero]
    · rw [embedBatch, visible, if_neg Bool.false_ne_true, if_pos single]
  · right
    have size : client.requestSize texts = client.maxBatchSize.toNat := if_neg single
    refine ⟨by omega, by omega, ?_⟩
    rw [embedBatch, visible, if_neg Bool.false_ne_true, if_neg single, size]

/-- The batches reach the end of the texts. -/
theorem length_le_starts {n size : ℕ} (positive : 0 < size) :
    n ≤ 0 + (n + size - 1) / size * size := by
  have below := @Nat.lt_div_mul_add (n + size - 1) size positive
  omega

/-- No batch begins after the texts. -/
theorem start_lt_of_lt {n size : ℕ} (less : k < (n + size - 1) / size) : k * size < n := by
  rcases Nat.eq_zero_or_pos size with rfl | positive
  · rw [Nat.div_zero] at less
    exact absurd less (Nat.not_lt_zero k)
  · have fits := (Nat.le_div_iff_mul_le positive).mp less
    rw [Nat.succ_mul] at fits
    omega

/-- The client returns if every response is taken. -/
theorem exists_embedBatch (taken : ∀ k, k * client.requestSize texts < texts.length →
      ∃ rows, client.Taken target texts k rows) :
    ∃ vectors, client.embedBatch target texts = .ok vectors := by
  rcases eq_or_ne texts [] with rfl | present
  · exact ⟨[], rfl⟩
  have parts : ∀ k, k * client.requestSize texts < texts.length → ∃ rows part,
      client.Taken target texts k rows ∧ client.vectorsOf rows = .ok part ∧
        client.doEmbed k target (client.requestTexts texts k) = .ok part := by
    intro k less
    obtain ⟨rows, row⟩ := taken k less
    obtain ⟨part, read⟩ := exists_vectorsOf_iff.mpr row.accepts
    exact ⟨rows, part, row, read, doEmbed_ok_iff.mpr ⟨rows, row.received, read⟩⟩
  rcases requestSize_cases client target present with
    ⟨-, whole, single⟩ | ⟨split, positive, loop⟩
  · have first : 0 * client.requestSize texts < texts.length := by
      rw [Nat.zero_mul]
      exact List.length_pos_iff.mpr present
    obtain ⟨rows, part, -, -, embedded⟩ := parts 0 first
    rw [whole] at embedded
    exact ⟨part, single.trans embedded⟩
  · have answered : ∀ k < (texts.length + client.requestSize texts - 1) / client.requestSize texts,
        ∃ part, client.Answers target texts (client.requestSize texts) (0 + k)
          (0 + k * client.requestSize texts) part := by
      intro k less
      obtain ⟨rows, part, row, read, embedded⟩ := parts k (start_lt_of_lt less)
      rw [Nat.zero_add, Nat.zero_add]
      exact ⟨part, embedded, (length_vectorsOf read).trans (row.count split)⟩
    obtain ⟨ends, run⟩ := exists_embedParts (List.replicate texts.length none) answered
    obtain ⟨ends_length, -, stored⟩ := embedParts_spec positive List.length_replicate
      (length_le_starts positive) run
    have full : ∀ result ∈ ends, ∃ vector, requireVector result = .ok vector := by
      intro result member
      obtain ⟨i, here⟩ := List.mem_iff_getElem?.mp member
      obtain ⟨inside, -⟩ := List.getElem?_eq_some_iff.mp here
      obtain ⟨-, vector, -, -, there⟩ := stored i (ends_length ▸ inside) i.zero_le
      rw [here] at there
      cases there
      exact ⟨vector, rfl⟩
    obtain ⟨vectors, required⟩ := exists_mapM full
    refine ⟨vectors, ?_⟩
    rw [loop, starts, run]
    exact required

/-- Where the client returns, its vectors are those of the responses. -/
theorem embedBatch_spec (present : texts ≠ [])
    (returned : client.embedBatch target texts = .ok vectors) :
    (client.requestSize texts < texts.length → vectors.length = texts.length) ∧
    (¬ client.requestSize texts < texts.length → client.requestSize texts = texts.length ∧
      ∃ rows, client.rowsReceived target texts 0 = .ok rows ∧ client.vectorsOf rows = .ok vectors) ∧
    ∀ i < texts.length, ∃ rows part, client.Taken target texts (i / client.requestSize texts) rows ∧
      client.vectorsOf rows = .ok part ∧ vectors[i]? = part[i % client.requestSize texts]? := by
  rcases requestSize_cases client target present with
    ⟨size, whole, single⟩ | ⟨split, positive, loop⟩
  · rw [single, ← whole] at returned
    obtain ⟨rows, received, read⟩ := doEmbed_ok_iff.mp returned
    refine ⟨fun less => absurd size less.ne, fun _ => ⟨size, rows, received, read⟩,
      fun i inside => ⟨rows, vectors, ?_, read, ?_⟩⟩
    · rw [size, Nat.div_eq_of_lt inside]
      exact ⟨received, exists_vectorsOf_iff.mp ⟨vectors, read⟩, fun less => absurd size less.ne⟩
    · rw [size, Nat.mod_eq_of_lt inside]
  · rw [loop] at returned
    split at returned
    · cases returned
    rename_i ends run
    obtain ⟨ends_length, -, stored⟩ := embedParts_spec positive List.length_replicate
      (length_le_starts positive) run
    refine ⟨fun _ => (length_of_mapM returned).trans ends_length,
      fun whole => absurd split whole, fun i inside => ?_⟩
    obtain ⟨part, vector, ⟨embedded, count⟩, at_part, at_end⟩ := stored i inside i.zero_le
    rw [Nat.sub_zero, Nat.zero_add, Nat.zero_add] at embedded
    rw [Nat.sub_zero, Nat.zero_add] at count
    rw [Nat.sub_zero] at at_part
    obtain ⟨rows, received, read⟩ := doEmbed_ok_iff.mp embedded
    obtain ⟨_, here, required⟩ := getElem?_of_mapM returned at_end
    cases required
    refine ⟨rows, part, ⟨received, exists_vectorsOf_iff.mp ⟨part, read⟩, fun _ => ?_⟩, read, ?_⟩
    · exact (length_vectorsOf read).symm.trans count
    · rw [here, at_part]

/-- The number of the texts of a request -/
theorem length_requestTexts (client : EmbeddingClient) (texts : List Str) (k : ℕ) :
    (client.requestTexts texts k).length =
      min (client.requestSize texts) (texts.length - k * client.requestSize texts) := by
  rw [requestTexts, length_slice]
  omega

theorem requestSize_pos (client : EmbeddingClient) (present : texts ≠ []) :
    0 < client.requestSize texts := by
  have filled := List.length_pos_iff.mpr present
  rw [requestSize]
  split_ifs with single <;> omega

/-- The first request carries all texts if there is no other one. -/
theorem request_of_whole (whole : client.requestSize texts = texts.length)
    (less : k * client.requestSize texts < texts.length) :
    k = 0 ∧ (client.requestTexts texts k).length = texts.length := by
  have first : k = 0 := by
    by_contra later
    have many := Nat.le_mul_of_pos_left (client.requestSize texts) (Nat.pos_of_ne_zero later)
    omega
  refine ⟨first, ?_⟩
  rw [length_requestTexts, first, Nat.zero_mul, whole, Nat.sub_zero, Nat.min_self]

/-- Where a text stands in its request -/
theorem place_of_index (present : texts ≠ []) {j : ℕ}
    (inside : j < (client.requestTexts texts k).length) :
    (k * client.requestSize texts + j) / client.requestSize texts = k ∧
      (k * client.requestSize texts + j) % client.requestSize texts = j := by
  rw [length_requestTexts] at inside
  have positive := client.requestSize_pos present
  rw [Nat.mul_comm, Nat.mul_add_div positive, Nat.mul_add_mod, Nat.div_eq_of_lt (by omega),
    Nat.mod_eq_of_lt (by omega)]
  exact ⟨Nat.add_zero k, rfl⟩

/-- The request of a text and its index there -/
theorem index_of_place (present : texts ≠ []) (inside : i < texts.length) :
    i / client.requestSize texts * client.requestSize texts < texts.length ∧
      i % client.requestSize texts <
        (client.requestTexts texts (i / client.requestSize texts)).length := by
  have positive := client.requestSize_pos present
  have parts := Nat.div_add_mod' i (client.requestSize texts)
  have below := Nat.mod_lt i positive
  rw [length_requestTexts]
  omega

theorem indexing_of_aligned (present : texts ≠ [])
    (aligned : ∀ vectors, client.embedBatch target texts = .ok vectors →
      client.Aligned target texts vectors) : client.Indexing target texts := by
  intro taken k less rows received
  obtain ⟨vectors, returned⟩ := exists_embedBatch taken
  obtain ⟨length, row⟩ := aligned vectors returned
  refine indexed_of_covered ?_ fun j inside => ?_
  · by_cases split : client.requestSize texts < texts.length
    · obtain ⟨rows', received', -, count⟩ := taken k less
      rw [received] at received'
      cases received'
      exact count split
    · obtain ⟨whole, rows', received', read⟩ := (embedBatch_spec present returned).2.1 split
      obtain ⟨rfl, all⟩ := request_of_whole whole less
      rw [received] at received'
      cases received'
      rw [all, ← length, length_vectorsOf read]
  · obtain ⟨place, within⟩ := place_of_index present inside
    rw [length_requestTexts] at inside
    obtain ⟨rows', received', row, listed, index, -⟩ :=
      row (k * client.requestSize texts + j) (by omega)
    rw [place, received] at received'
    cases received'
    rw [within] at index
    exact ⟨row, listed, index⟩

theorem aligned_of_indexing (present : texts ≠ []) (indexing : client.Indexing target texts)
    (returned : client.embedBatch target texts = .ok vectors) :
    client.Aligned target texts vectors := by
  obtain ⟨several, one, stored⟩ := embedBatch_spec present returned
  have positive := client.requestSize_pos present
  have taken : ∀ k, k * client.requestSize texts < texts.length →
      ∃ rows, client.Taken target texts k rows := by
    intro k less
    obtain ⟨rows, part, row, -⟩ := stored _ less
    rw [Nat.mul_div_cancel k positive] at row
    exact ⟨rows, row⟩
  have indexed := indexing taken
  refine ⟨?_, fun i inside => ?_⟩
  · by_cases split : client.requestSize texts < texts.length
    · exact several split
    · obtain ⟨whole, rows, received, read⟩ := one split
      have first : 0 * client.requestSize texts < texts.length := by
        rw [Nat.zero_mul]
        exact List.length_pos_iff.mpr present
      have named := (indexed 0 first rows received).length_eq
      rw [List.length_map, List.length_map, List.length_range] at named
      rw [length_vectorsOf read, named, (request_of_whole whole first).2]
  · obtain ⟨begins, index⟩ := index_of_place present inside
    obtain ⟨rows, part, row, read, same⟩ := stored i inside
    obtain ⟨found, listed, here, vector, at_part, value⟩ :=
      getElem?_vectorsOf read (indexed _ begins rows row.received) index
    exact ⟨rows, row.received, found, listed, here, vector, same.trans at_part, value⟩

/-- The vectors are always aligned exactly if the rows carry the indices of the texts. -/
theorem aligned_embedBatch_iff :
    (∀ vectors, client.embedBatch target texts = .ok vectors →
      client.Aligned target texts vectors) ↔ client.Indexing target texts := by
  rcases eq_or_ne texts [] with rfl | present
  · refine iff_of_true (fun vectors returned => ?_) fun _ k less => absurd less (Nat.not_lt_zero _)
    cases returned
    exact ⟨rfl, fun i inside => absurd inside i.not_lt_zero⟩
  · exact ⟨indexing_of_aligned present, fun indexing _ => aligned_of_indexing present indexing⟩

end Alignment

section ShortResponse

def shortRow : Object :=
  .dict [(.lit "index", .int 0), (.lit "embedding", .list [.float (.finite 1)])]

/-- Two texts go out in one request, and the response has a row for the first one only. -/
def shortClient : EmbeddingClient where
  post _ _ := .response false 200 [] (some (.dict [(.lit "data", .list [shortRow])]))
  timeoutSeconds := 30
  repr _ := []
  intOf _ := none
  floatOf _ := none

def embeddingTarget : ModelTarget where
  id := "text-embedding"
  capability := .embedding
  candidate := { provider := "openai", model := "text-embedding" }
  provider :=
    { name := "openai"
      url := some (.lit "https://api.example.com")
      apiKey := some (.lit "sk-test")
      endpoints := [("embedding", .lit "/embeddings")] }

theorem shortClient_not_aligned : ¬ ∀ (client : EmbeddingClient) target texts vectors,
    client.embedBatch target texts = .ok vectors → client.Aligned target texts vectors := by
  intro all
  have read : shortClient.vectorsOf [shortRow] = .ok [[.finite 1]] := by
    refine vectorsOf_ok_iff.mpr ⟨[(0, shortRow)], rfl, ?_⟩
    rw [sortEntries, List.mergeSort_singleton]
    rfl
  have returned : shortClient.embedBatch embeddingTarget [.lit "a", .lit "b"] =
      .ok [[.finite 1]] := by
    rw [← read]
    rfl
  exact absurd (all _ _ _ _ returned).length (by decide)

end ShortResponse

end EmbeddingClient

end HeyeeAgent.InfraAi.Models
