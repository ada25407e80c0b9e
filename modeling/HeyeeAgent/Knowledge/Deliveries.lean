import HeyeeAgent.Knowledge.ChunkPipeline
import HeyeeAgent.Machine.Run

/-! # Deliveries of chunk messages

Any number of deliveries, of the same message or of others, that the consumers process at the same
time. A document whose chunks were committed keeps its success exactly as long as no failure handler
reaches its update after the commit. The handler does not look at the status, and it runs after an
error behind the own commit as well.
-/

namespace HeyeeAgent.Knowledge.Deliveries

open Python Machine

structure Delivery where
  message : KnowledgeChunkMessage
  services : Services
  draw : Draw
  phase : Phase := .finding
  /-- its replacement of the chunks has taken effect -/
  replaced : Bool := false

/-- The tables and the deliveries, with the documents whose chunks were replaced while they were not
deleted and the delivery that marked a document as failed. -/
structure State (N : Type) where
  db : Database
  deliveries : N → Option Delivery := fun _ => none
  replaced : List Str := []
  failedBy : Str → Option N := fun _ => none

inductive Event (N : Type) where
  | deliver (n : N) (message : KnowledgeChunkMessage) (services : Services) (draw : Draw)
  | call (n : N) (ending : Ending)

variable {N : Type} [DecidableEq N]

namespace Delivery

/-- The call replaces the chunks of the document. -/
def replaces (delivery : Delivery) (ending : Ending) : Option Str :=
  match delivery.phase with
  | .replacing doc chunks vectors _ =>
    if ending.commits ∧ chunks.length = vectors.length then some doc.id else none
  | _ => none

/-- The call marks the document as failed. -/
def fails (delivery : Delivery) (ending : Ending) : Option Str :=
  match delivery.phase with
  | .markingDocumentFailed doc _ => if ending.commits then some doc.id else none
  | _ => none

end Delivery

/-- A call of the delivery has ended; the tables and the phase are those behind it. -/
def State.ended (s : State N) (n : N) (delivery : Delivery) (ending : Ending) (db : Database)
    (phase : Phase) : State N :=
  let replaced := delivery.replaces ending
  let present := replaced.filter fun docId => (s.db.document docId).isSome
  let next : Delivery := { delivery with phase, replaced := delivery.replaced || replaced.isSome }
  { db
    deliveries := Function.update s.deliveries n (some next)
    replaced := present.toList ++ s.replaced
    failedBy := match delivery.fails ending with
      | some docId => Function.update s.failedBy docId (some n)
      | none => s.failedBy }

def step (cfg : Settings) (s : State N) : Event N → Option (State N)
  | .deliver n message services draw =>
    match s.deliveries n with
    | some _ => none
    | none =>
      let delivery : Delivery := { message, services, draw }
      some { s with deliveries := Function.update s.deliveries n (some delivery) }
  | .call n ending =>
    match s.deliveries n with
    | none => none
    | some delivery =>
      (processMessage cfg delivery.services delivery.message delivery.draw s.db delivery.phase
        ending).map fun (db, phase) => s.ended n delivery ending db phase

def initial (db : Database) : State N := { db }

/-- A document whose chunks were replaced is not failed, and the delivery that marked a document as
failed has replaced nothing. -/
structure Kept (s : State N) : Prop where
  status : ∀ docId ∈ s.replaced, s.db.status docId ≠ some .failed
  untouched : ∀ docId n, s.failedBy docId = some n → ∀ delivery, s.deliveries n = some delivery →
    delivery.replaced = false

/-- No failure handler reaches its update of the document after a replacement of its chunks. -/
def Meets (s : State N) : Event N → Prop
  | .deliver _ _ _ _ => True
  | .call n ending => ∀ delivery ∈ s.deliveries n, ∀ docId ∈ delivery.fails ending,
      docId ∉ s.replaced

instance (s : State N) : ∀ e, Decidable (Meets s e)
  | .deliver _ _ _ _ => isTrue trivial
  | .call n ending => inferInstanceAs (Decidable (∀ delivery ∈ s.deliveries n,
      ∀ docId ∈ delivery.fails ending, docId ∉ s.replaced))

section Invariant

/-- The document that `process_message` works on. -/
def document : Phase → Option KnowledgeDocumentForChunk
  | .insertingLog doc | .reading doc _ | .extracting doc _ _ | .splitting doc _
  | .embedding doc _ _ | .replacing doc _ _ _ | .markingLogSuccess doc _ _
  | .markingLogFailed doc _ | .markingDocumentFailed doc _ => some doc
  | .finding | .returned _ | .raised _ => none

theorem document_of_replaces {delivery : Delivery} {ending : Ending} {docId : Str}
    (replaces : delivery.replaces ending = some docId) :
    ∃ doc, document delivery.phase = some doc ∧ doc.id = docId := by
  unfold Delivery.replaces at replaces
  split at replaces
  case h_1 doc chunks vectors attempt phase =>
    split at replaces
    case isTrue => exact ⟨doc, by rw [phase]; rfl, Option.some.inj replaces⟩
    case isFalse => cases replaces
  case h_2 => cases replaces

theorem document_of_fails {delivery : Delivery} {ending : Ending} {docId : Str}
    (fails : delivery.fails ending = some docId) :
    ∃ doc, document delivery.phase = some doc ∧ doc.id = docId := by
  unfold Delivery.fails at fails
  split at fails
  case h_1 doc error phase =>
    split at fails
    case isTrue => exact ⟨doc, by rw [phase]; rfl, Option.some.inj fails⟩
    case isFalse => cases fails
  case h_2 => cases fails

theorem document_retry {cfg : Settings} {doc doc' : KnowledgeDocumentForChunk} {attempt : ℕ}
    {again : ℕ → Phase} {error : Str} (same : ∀ attempt, document (again attempt) = some doc)
    (found : document (retry cfg doc attempt again error) = some doc') : doc' = doc := by
  unfold retry at found
  split at found
  · exact (Option.some.inj found).symm
  · rw [same] at found
    exact (Option.some.inj found).symm

/-- A phase works on the document of the phase before, or on the one that was found. -/
theorem document_next {cfg : Settings} {services : Services} {message : KnowledgeChunkMessage}
    {draw : Draw} {db : Database} {phase : Phase} {ending : Ending}
    {doc : KnowledgeDocumentForChunk}
    (found : document (next cfg services message draw db phase ending) = some doc) :
    document phase = some doc ∨
      (document phase = none ∧ findDocumentForChunk db message.docId = some doc) := by
  cases phase with
  | finding =>
    cases ending with
    | returned =>
      simp only [next, gate] at found
      split at found
      case h_1 => cases found
      case h_2 row present =>
        split at found
        case h_2 =>
          cases found
          exact .inr ⟨rfl, present⟩
        all_goals cases found
    | raised error committed => cases found
  | insertingLog old => cases ending <;> first | exact .inl found | cases found
  | reading old attempt =>
    cases ending with
    | returned => exact .inl found
    | raised error committed => exact .inl (by rw [document_retry (fun _ => rfl) found]; rfl)
  | extracting old fileBytes attempt =>
    cases ending with
    | returned => exact .inl found
    | raised error committed => exact .inl (by rw [document_retry (fun _ => rfl) found]; rfl)
  | splitting old text => cases ending <;> exact .inl found
  | embedding old chunks attempt =>
    cases ending with
    | returned => exact .inl found
    | raised error committed => exact .inl (by rw [document_retry (fun _ => rfl) found]; rfl)
  | replacing old chunks vectors attempt =>
    cases ending with
    | returned =>
      simp only [next] at found
      split at found
      · exact .inl found
      · exact .inl (by rw [document_retry (fun _ => rfl) found]; rfl)
    | raised error committed => exact .inl (by rw [document_retry (fun _ => rfl) found]; rfl)
  | markingLogSuccess old chunks vectors => cases ending <;> first | exact .inl found | cases found
  | markingLogFailed old error => cases ending <;> first | exact .inl found | cases found
  | markingDocumentFailed old error => cases ending <;> cases found
  | returned result => cases ending <;> cases found
  | raised error => cases ending <;> cases found

/-- What one call does to the status of the documents. -/
theorem status_called (cfg : Settings) (delivery : Delivery) (ending : Ending) (db : Database)
    (docId : Str) :
    (if ending.commits then write cfg delivery.message delivery.draw db delivery.phase
      else db).status docId =
      if delivery.replaces ending = some docId then (db.status docId).map fun _ => .success
      else if delivery.fails ending = some docId then (db.status docId).map fun _ => .failed
      else db.status docId := by
  cases commits : ending.commits with
  | false => cases phase : delivery.phase <;> simp [Delivery.replaces, Delivery.fails, phase, commits]
  | true =>
    cases phase : delivery.phase with
    | replacing doc chunks vectors attempt =>
      by_cases lengths : chunks.length = vectors.length
      · simp [Delivery.replaces, Delivery.fails, phase, commits, write, lengths,
          status_replaceChunksAndVectorsAtomic, eq_comm]
      · simp [Delivery.replaces, Delivery.fails, phase, write, lengths]
    | markingDocumentFailed doc error =>
      simp [Delivery.replaces, Delivery.fails, phase, commits, write, status_markDocumentFailed,
        eq_comm]
    | _ => simp [Delivery.replaces, Delivery.fails, phase, write]

/-- Only one of the two writes is made, and the one that marks a failure ends the delivery. -/
theorem replaces_of_fails {delivery : Delivery} {ending : Ending} {docId : Str}
    (fails : delivery.fails ending = some docId) : delivery.replaces ending = none := by
  obtain ⟨message, services, draw, phase, replaced⟩ := delivery
  cases phase <;> first | rfl | cases fails

theorem answer_of_fails {cfg : Settings} {delivery : Delivery} {ending : Ending} {docId : Str}
    {services : Services} {message : KnowledgeChunkMessage} {draw : Draw} {db : Database}
    (fails : delivery.fails ending = some docId) :
    (next cfg services message draw db delivery.phase ending).answer.isSome := by
  obtain ⟨_, _, _, phase, _⟩ := delivery
  cases phase with
  | markingDocumentFailed doc error => cases ending <;> rfl
  | _ => cases fails

theorem step_call {cfg : Settings} {s t : State N} {n : N} {ending : Ending}
    (taken : step cfg s (.call n ending) = some t) :
    ∃ delivery, s.deliveries n = some delivery ∧ delivery.phase.answer = none ∧
      t = s.ended n delivery ending
        (if ending.commits then write cfg delivery.message delivery.draw s.db delivery.phase
          else s.db)
        (next cfg delivery.services delivery.message delivery.draw s.db delivery.phase ending) := by
  simp only [step] at taken
  split at taken
  case h_1 => cases taken
  case h_2 delivery found =>
    cases answer : delivery.phase.answer with
    | some status => simp [processMessage, answer] at taken
    | none =>
      simp only [processMessage, answer, Option.isSome_none, Bool.false_eq_true, if_false,
        Option.map_some, Option.some.injEq] at taken
      exact ⟨delivery, found, answer, taken.symm⟩

/-- What every run keeps: the documents that were replaced are there, each delivery works on the
document of its message, and the one that marked a failure has ended. -/
structure Inv (s : State N) : Prop where
  present : ∀ docId ∈ s.replaced, (s.db.status docId).isSome
  replaced : ∀ n delivery, s.deliveries n = some delivery → delivery.replaced = true →
    delivery.message.docId ∈ s.replaced
  found : ∀ n delivery, s.deliveries n = some delivery → ∀ doc, document delivery.phase = some doc →
    doc.id = delivery.message.docId ∧ (s.db.status doc.id).isSome
  marked : ∀ docId n, s.failedBy docId = some n → ∃ delivery, s.deliveries n = some delivery ∧
    delivery.phase.answer.isSome ∧ delivery.message.docId = docId

omit [DecidableEq N] in
theorem inv_initial (db : Database) : Inv (initial db : State N) where
  present docId member := by cases member
  replaced n delivery found := by cases found
  found n delivery found := by cases found
  marked docId n found := by cases found

variable {cfg : Settings} {s : State N} {n : N} {delivery : Delivery} {ending : Ending}

theorem isSome_called (cfg : Settings) (delivery : Delivery) (ending : Ending) (db : Database)
    (docId : Str) :
    ((if ending.commits then write cfg delivery.message delivery.draw db delivery.phase
      else db).status docId).isSome = (db.status docId).isSome := by
  rw [status_called]
  split
  · exact Option.isSome_map
  · split
    · exact Option.isSome_map
    · rfl

theorem mem_replaced_ended {db : Database} {phase : Phase} {docId : Str} :
    docId ∈ (s.ended n delivery ending db phase).replaced ↔
      (delivery.replaces ending = some docId ∧ (s.db.status docId).isSome) ∨
        docId ∈ s.replaced := by
  simp only [State.ended, List.mem_append, Option.mem_toList,
    Option.filter_eq_some_iff, Database.status_isSome]

/-- A delivery after one was written is that one or an older one. -/
theorem of_update {deliveries : N → Option Delivery} {m : N} {other : Delivery}
    (held : Function.update deliveries n (some delivery) m = some other) :
    (m = n ∧ other = delivery) ∨ (m ≠ n ∧ deliveries m = some other) := by
  by_cases same : m = n
  · subst same
    rw [Function.update_self, Option.some.injEq] at held
    exact .inl ⟨rfl, held.symm⟩
  · rw [Function.update_of_ne same] at held
    exact .inr ⟨same, held⟩

omit [DecidableEq N] in
/-- A delivery that has marked a failure is not the one that makes a call. -/
theorem ne_of_failedBy (inv : Inv s) {n m : N} {delivery : Delivery} {docId : Str}
    (found : s.deliveries n = some delivery) (answer : delivery.phase.answer = none)
    (failed : s.failedBy docId = some m) : m ≠ n := by
  rintro rfl
  obtain ⟨other, held, ended, -⟩ := inv.marked docId m failed
  rw [found, Option.some.injEq] at held
  subst held
  simp [answer] at ended

theorem Inv.inv_call (inv : Inv s) (found : s.deliveries n = some delivery)
    (answer : delivery.phase.answer = none) :
    Inv (s.ended n delivery ending
      (if ending.commits then write cfg delivery.message delivery.draw s.db delivery.phase
        else s.db)
      (next cfg delivery.services delivery.message delivery.draw s.db delivery.phase ending)) where
  present docId member := by
    refine (isSome_called cfg delivery ending s.db docId).trans ?_
    rcases mem_replaced_ended.mp member with ⟨-, present⟩ | older
    · exact present
    · exact inv.present docId older
  replaced m other held replaced := by
    rw [mem_replaced_ended]
    rcases of_update held with ⟨rfl, rfl⟩ | ⟨-, held⟩
    · rcases Bool.or_eq_true_iff.mp replaced with before | now
      · exact .inr (inv.replaced m delivery found before)
      · obtain ⟨docId, replaces⟩ := Option.isSome_iff_exists.mp now
        obtain ⟨doc, works, rfl⟩ := document_of_replaces replaces
        obtain ⟨same, present⟩ := inv.found m delivery found doc works
        rw [← same]
        exact .inl ⟨replaces, present⟩
    · exact .inr (inv.replaced m other held replaced)
  found m other held doc works := by
    simp only [State.ended, isSome_called]
    rcases of_update held with ⟨rfl, rfl⟩ | ⟨-, held⟩
    · rcases document_next works with before | ⟨-, looked⟩
      · exact inv.found m delivery found doc before
      · obtain ⟨same, status⟩ := findDocumentForChunk_some looked
        refine ⟨same, ?_⟩
        rw [same, status]
        rfl
    · exact inv.found m other held doc works
  marked docId m failed := by
    have older (before : s.failedBy docId = some m) : m ≠ n := ne_of_failedBy inv found answer before
    simp only [State.ended] at failed ⊢
    cases fails : delivery.fails ending with
    | none =>
      simp only [fails] at failed
      rw [Function.update_of_ne (older failed)]
      exact inv.marked docId m failed
    | some marked =>
      simp only [fails] at failed
      by_cases same : docId = marked
      · subst same
        rw [Function.update_self, Option.some.injEq] at failed
        subst failed
        rw [Function.update_self]
        obtain ⟨doc, works, rfl⟩ := document_of_fails fails
        exact ⟨_, rfl, answer_of_fails fails, (inv.found n delivery found doc works).1.symm⟩
      · rw [Function.update_of_ne same] at failed
        rw [Function.update_of_ne (older failed)]
        exact inv.marked docId m failed

theorem inv_step {t : State N} {e : Event N} (inv : Inv s) (taken : step cfg s e = some t) :
    Inv t := by
  cases e with
  | call n ending =>
    obtain ⟨delivery, found, answer, rfl⟩ := step_call taken
    exact inv.inv_call found answer
  | deliver n message services draw =>
    simp only [step] at taken
    split at taken
    case h_1 => cases taken
    case h_2 missing =>
      rw [Option.some.injEq] at taken
      subst taken
      constructor
      · exact inv.present
      · intro m other held replaced
        rcases of_update held with ⟨-, rfl⟩ | ⟨-, held⟩
        · cases replaced
        · exact inv.replaced m other held replaced
      · intro m other held doc works
        rcases of_update held with ⟨-, rfl⟩ | ⟨-, held⟩
        · cases works
        · exact inv.found m other held doc works
      · intro docId m failed
        obtain ⟨other, held, rest⟩ := inv.marked docId m failed
        have differ : m ≠ n := by
          rintro rfl
          rw [missing] at held
          cases held
        exact ⟨other, (Function.update_of_ne differ _ _).trans held, rest⟩

end Invariant

section Exactness

variable {cfg : Settings} {s t : State N}

theorem kept_deliver {n : N} {message : KnowledgeChunkMessage} {services : Services} {draw : Draw}
    (kept : Kept s) (taken : step cfg s (.deliver n message services draw) = some t) : Kept t := by
  simp only [step] at taken
  split at taken
  case h_1 => cases taken
  case h_2 missing =>
    rw [Option.some.injEq] at taken
    subst taken
    constructor
    · exact kept.status
    · intro docId m failed other held
      rcases of_update held with ⟨-, rfl⟩ | ⟨-, held⟩
      · rfl
      · exact kept.untouched docId m failed other held

theorem kept_call_iff {n : N} {ending : Ending} (inv : Inv s) (kept : Kept s)
    (taken : step cfg s (.call n ending) = some t) :
    Kept t ↔ Meets s (.call n ending) := by
  obtain ⟨delivery, found, answer, rfl⟩ := step_call taken
  constructor
  · intro kept' other held docId fails earlier
    obtain rfl : delivery = other := Option.some.inj (found.symm.trans held)
    obtain ⟨status, present⟩ := Option.isSome_iff_exists.mp (inv.present docId earlier)
    apply kept'.status docId (mem_replaced_ended.mpr (.inr earlier))
    refine (status_called cfg delivery ending s.db docId).trans ?_
    rw [replaces_of_fails fails, if_neg (by simp), if_pos (Option.mem_def.mp fails), present]
    rfl
  · intro met
    have fresh : ∀ docId ∈ delivery.fails ending, docId ∉ s.replaced := met delivery found
    constructor
    · intro docId member
      refine (congrArg (· ≠ _) (status_called cfg delivery ending s.db docId)).mpr ?_
      split
      case isTrue =>
        cases s.db.status docId <;> simp
      case isFalse silent =>
        rcases mem_replaced_ended.mp member with ⟨replaces, -⟩ | earlier
        · exact absurd replaces silent
        · rw [if_neg fun fails : delivery.fails ending = some docId => fresh docId fails earlier]
          exact kept.status docId earlier
    · intro docId m failed other held
      rcases of_update held with ⟨rfl, rfl⟩ | ⟨differ, held⟩
      · simp only [State.ended] at failed
        cases fails : delivery.fails ending with
        | none =>
          simp only [fails] at failed
          exact absurd rfl (ne_of_failedBy inv found answer failed)
        | some marked =>
          obtain ⟨doc, works, rfl⟩ := document_of_fails fails
          have unreplaced : delivery.replaced ≠ true := by
            intro before
            apply fresh doc.id fails
            rw [(inv.found m delivery found doc works).1]
            exact inv.replaced m delivery found before
          simp [replaces_of_fails fails, unreplaced]
      · simp only [State.ended] at failed
        cases fails : delivery.fails ending with
        | none =>
          simp only [fails] at failed
          exact kept.untouched docId m failed other held
        | some marked =>
          simp only [fails] at failed
          by_cases same : docId = marked
          · subst same
            rw [Function.update_self, Option.some.injEq] at failed
            exact absurd failed.symm differ
          · rw [Function.update_of_ne same] at failed
            exact kept.untouched docId m failed other held

theorem kept_step_iff {e : Event N} (inv : Inv s) (kept : Kept s) (taken : step cfg s e = some t) :
    Kept t ↔ Meets s e := by
  cases e with
  | deliver n message services draw => exact iff_of_true (kept_deliver kept taken) trivial
  | call n ending => exact kept_call_iff inv kept taken

omit [DecidableEq N] in
theorem kept_initial (db : Database) : Kept (initial db : State N) where
  status docId member := by cases member
  untouched docId n failed := by cases failed

end Exactness

/-- In every run of deliveries the documents whose chunks were committed are kept from `FAILED`
exactly if no failure handler reaches its update after such a commit. -/
theorem always_kept_iff (cfg : Settings) (db : Database) (es : List (Event N)) :
    Always (step cfg) Kept (initial db) es ↔ Along (step cfg) Meets (initial db) es :=
  always_iff_along (fun _ _ _ inv taken => inv_step inv taken)
    (fun _ _ _ inv kept taken => kept_step_iff inv kept taken) (inv_initial db) (kept_initial db)

section Runs

private def manual : Database where
  documents docId :=
    if docId = .lit "doc-1" then
      some
        { kbId := .lit "kb-1"
          docName := .lit "manual.txt"
          fileUrl := .lit "s3://kb/doc.txt"
          fileType := .lit "txt"
          fileSize := some 9
          status := .running
          sourceType := .lit "FILE"
          chunkStrategy := .lit "fixed_size"
          chunkConfig := none
          createdBy := none
          updatedBy := none }
    else none

/-- Services that make one chunk of a file. -/
private def plain : Services where
  read _ := [97]
  extractText bytes _ := bytes
  split ids text _ _ := [⟨ids 0, 0, text, [], text.length, 1, []⟩]
  embed _ := [.lit "0.1"]

private def draw : Draw where
  pipelineId := .lit "pipeline"
  logId := .lit "log"
  chunkIds _ := .lit "chunk"
  vectorIds _ _ := .lit "vector"

/-- The bookkeeping behind the commit of a single delivery raises. -/
private def bookkeepingRun : List (Event ℕ) :=
  [.deliver 0 { docId := .lit "doc-1" } plain draw] ++
    List.replicate 7 (.call 0 .returned) ++
    [.call 0 (.raised (.lit "connection lost") false), .call 0 .returned, .call 0 .returned]

theorem bookkeepingRun_fails :
    ∃ s, runFrom (step {}) (initial manual) bookkeepingRun = some s ∧
      s.db.status (.lit "doc-1") = some .failed ∧ s.db.chunks.length = 1 ∧ ¬ Kept s := by
  have ends : ((runFrom (step {}) (initial manual) bookkeepingRun).any fun s =>
      decide (s.db.status (.lit "doc-1") = some .failed ∧ s.db.chunks.length = 1 ∧
        .lit "doc-1" ∈ s.replaced)) = true := by decide +kernel
  obtain ⟨s, run, lost⟩ := (Option.any_eq_true _ _).mp ends
  obtain ⟨failed, kept, replaced⟩ := of_decide_eq_true lost
  exact ⟨s, run, failed, kept, fun kept => kept.status _ replaced failed⟩

end Runs

end HeyeeAgent.Knowledge.Deliveries
