import Mathlib.Data.Fintype.Basic
import HeyeeAgent.Knowledge.DocumentOperations

/-! # Documents that are being chunked

A management operation reads the status of its document and writes later. Nothing looks at the
status in between, so the write falls into a running document exactly when the chunking was started
behind the look; a start that no operation is waiting behind leaves every write outside.
-/

namespace HeyeeAgent.Knowledge

open Python Machine

/-- The status column of the document says `RUNNING`. -/
def Database.isRunning (db : Database) (docId : Str) : Bool :=
  (db.documents docId).any fun row => row.status = .running

namespace DocumentOperations

/-- The document that a management operation has let pass and not written yet. -/
def Task.holds : Task → Option Str
  | managing m => (Management.held m.phase).map KnowledgeDocumentDetail.id
  | _ => none

/-- The document that the call of a management operation writes. -/
def Task.manages : Task → Option Str
  | managing m =>
    match m.phase with
    | .updating detail _ _ | .deleting detail | .enabling detail _ _ => some detail.id
    | _ => none
  | _ => none

/-- The document that the call takes from `PENDING` to `RUNNING`. -/
def Task.starts (db : Database) : Task → Option Str
  | starting docId => if (db.pendingDocument docId).isSome then some docId else none
  | _ => none

theorem Task.holds_of_manages {task : Task} {docId : Str} (manages : task.manages = some docId) :
    task.holds = some docId := by
  cases task with
  | managing m => cases phase : m.phase <;> simp_all [Task.manages, Task.holds, Management.held]
  | _ => cases manages

section Writes

variable (cfg : Settings) (db : Database) (task : Task)

/-- Only the start of the chunking makes the status `RUNNING`. -/
theorem running_rewrite {docId : Str} {row : DocumentRow}
    (running : (task.rewrite cfg docId row).status = .running) :
    row.status = .running ∨
      (task = .starting docId ∧ row.deleted = false ∧ row.status = .pending) := by
  cases task with
  | starting target =>
    simp only [Task.rewrite] at running
    split at running
    case isTrue starts =>
      obtain ⟨rfl, kept, pending⟩ := starts
      exact .inr ⟨rfl, kept, pending⟩
    case isFalse => exact .inl running
  | processing p =>
    left
    cases phase : p.phase with
    | replacing doc chunks vectors attempt =>
      simp only [Task.rewrite, phase] at running
      split at running
      · cases running
      · exact running
    | markingDocumentFailed doc error =>
      simp only [Task.rewrite, phase] at running
      split at running
      · cases running
      · exact running
    | _ => simpa only [Task.rewrite, phase] using running
  | managing m =>
    left
    cases phase : m.phase with
    | updating detail docName options =>
      simp only [Task.rewrite, phase] at running
      split at running <;> exact running
    | deleting detail =>
      simp only [Task.rewrite, phase] at running
      split at running <;> exact running
    | enabling detail enabled vectors =>
      simp only [Task.rewrite, phase] at running
      split at running <;> exact running
    | _ => simpa only [Task.rewrite, phase] using running
  | _ => exact .inl running

theorem isRunning_write {docId : Str} (running : (task.write cfg db).isRunning docId = true) :
    db.isRunning docId = true ∨ task.starts db = some docId := by
  simp only [Database.isRunning, documents_write] at running ⊢
  cases found : db.documents docId with
  | none =>
    cases task with
    | uploading record =>
      simp only [found] at running
      split at running <;> cases running
    | _ => simp [found] at running
  | some row =>
    cases task with
    | uploading record =>
      left
      simp only [found] at running
      split at running <;> simpa using running
    | _ =>
      simp only [found, Option.map_some, Option.any_some, decide_eq_true_eq] at running
      rcases running_rewrite cfg _ running with before | ⟨same, kept, pending⟩
      · exact .inl (by simpa using before)
      · right
        cases same <;>
          simp [Task.starts, Database.pendingDocument, Database.document, found, Option.filter, kept,
            pending]

end Writes

section Phases

variable {cfg : Settings} {db : Database} {task : Task} {ending : Ending} {docId : Str}

theorem findDocumentDetail_calm {detail : KnowledgeDocumentDetail}
    (found : findDocumentDetail db docId = some detail) (calm : detail.status ≠ .running) :
    db.isRunning detail.id = false := by
  obtain ⟨row, present, rfl⟩ := Option.map_eq_some_iff.mp found
  simpa [Database.isRunning, (Database.document_of_mem present).1] using calm

/-- An operation holds the document of the call before, or one that it has just found in another
status than `RUNNING`; the look at it writes nothing. -/
theorem holds_next (holds : (task.next cfg db ending).holds = some docId) :
    task.holds = some docId ∨ (task.write cfg db = db ∧ db.isRunning docId = false) := by
  cases task with
  | managing m =>
    obtain ⟨detail, held, rfl⟩ := Option.map_eq_some_iff.mp holds
    rcases Management.held_next held with before | ⟨looks, found, calm⟩
    · exact .inl (by simp only [Task.holds, before, Option.map_some])
    · refine .inr ⟨?_, findDocumentDetail_calm found calm⟩
      simp only [Task.write, Management.write, looks]
  | starting target =>
    cases ending with
    | raised error committed => cases holds
    | returned =>
      simp only [Task.next] at holds
      split at holds <;> cases holds
  | uploading record => cases ending <;> cases holds
  | processing p => cases holds
  | ended failure => cases holds

theorem holds_task (operation : Operation) : operation.task.holds = none := by
  cases operation with
  | startChunking documentId =>
    simp only [Operation.task]
    split <;> rfl
  | manage documentId request embed vectorIds =>
    simp only [Operation.task, Management.start, Task.holds]
    split <;> rfl
  | _ => rfl

end Phases

section Runs

variable {N : Type} [DecidableEq N]

/-- No start of the chunking takes effect on a document that an operation holds. -/
def StartsFree (s : State N) : Event N → Prop
  | .begin _ _ => True
  | .call n ending => ∀ task ∈ s.tasks n, ending.commits = true → ∀ docId ∈ task.starts s.db,
      ∀ m, ∀ other ∈ s.tasks m, other.holds ≠ some docId

/-- No management operation commits its write on a document whose status is `RUNNING`. -/
def Frozen (s : State N) : Event N → Prop
  | .begin _ _ => True
  | .call n ending => ∀ task ∈ s.tasks n, ending.commits = true → ∀ docId ∈ task.manages,
      s.db.isRunning docId = false

/-- The documents that are held are not running. -/
def HoldsCalm (s : State N) : Prop :=
  ∀ n task docId, s.tasks n = some task → task.holds = some docId → s.db.isRunning docId = false

variable {cfg : Settings} {s t : State N} {e : Event N}

theorem holdsCalm_step (calm : HoldsCalm s) (met : StartsFree s e) (taken : step cfg s e = some t) :
    HoldsCalm t := by
  intro n task docId found holds
  cases e with
  | begin m operation =>
    obtain ⟨-, same, tasks⟩ := step_begin taken
    rw [same]
    rw [tasks] at found
    by_cases new : n = m
    · subst new
      rw [Function.update_self, Option.some.injEq] at found
      rw [← found, holds_task] at holds
      cases holds
    · rw [Function.update_of_ne new] at found
      exact calm n task docId found holds
  | call m ending =>
    obtain ⟨caller, called_by, -, -, after, tasks⟩ := step_call taken
    rw [tasks] at found
    -- the document was held before, or the caller has looked at it with this call
    have before : (∃ other, s.tasks n = some other ∧ other.holds = some docId) ∨
        (caller.write cfg s.db = s.db ∧ s.db.isRunning docId = false) := by
      by_cases own : n = m
      · subst own
        rw [Function.update_self, Option.some.injEq] at found
        rw [← found] at holds
        rcases holds_next holds with held | looked
        · exact .inl ⟨caller, called_by, held⟩
        · exact .inr looked
      · rw [Function.update_of_ne own] at found
        exact .inl ⟨task, found, holds⟩
    rw [after]
    rcases before with ⟨other, held_by, held⟩ | ⟨idle, looked⟩
    · cases commits : ending.commits with
      | false =>
        simp only [called, commits, Bool.false_eq_true, if_false]
        exact calm n other docId held_by held
      | true =>
        simp only [called, commits, if_true]
        by_contra running
        rw [Bool.not_eq_false] at running
        rcases isRunning_write cfg s.db caller running with ran | starts
        · rw [calm n other docId held_by held] at ran
          cases ran
        · exact met caller called_by commits docId starts n other held_by held
    · rw [called, idle, ite_self]
      exact looked

/-- In every run whose starts of the chunking find their document held by no operation, no
management operation writes a running document. -/
theorem frozen_of_startsFree (cfg : Settings) (db : Database) (es : List (Event N))
    (free : Along (step cfg) StartsFree (initial db) es) :
    Along (step cfg) Frozen (initial db) es := by
  refine along_of_along (I := HoldsCalm) (fun s e t calm met taken => ⟨?_, ?_⟩) ?_ free
  · cases e with
    | begin n operation => trivial
    | call n ending =>
      intro task found commits docId manages
      exact calm n task docId found (Task.holds_of_manages manages)
  · exact holdsCalm_step calm met taken
  · intro n task docId found
    cases found

/-- The chunking starts between the look of an operation at the status and its write. -/
private def startedBehind (request : Request) : List (Event Bool) :=
  [.begin false (managing request), .call false .returned, .begin true (.startChunking (.lit "doc-1")),
    .call true .returned, .call false .returned]

instance (s : State N) : ∀ e, Decidable (Frozen s e)
  | .begin _ _ => isTrue trivial
  | .call n ending => inferInstanceAs (Decidable (∀ task ∈ s.tasks n, ending.commits = true →
      ∀ docId ∈ task.manages, s.db.isRunning docId = false))

instance [Fintype N] (s : State N) : ∀ e, Decidable (StartsFree s e)
  | .begin _ _ => isTrue trivial
  | .call n ending => inferInstanceAs (Decidable (∀ task ∈ s.tasks n, ending.commits = true →
      ∀ docId ∈ task.starts s.db, ∀ m, ∀ other ∈ s.tasks m, other.holds ≠ some docId))

/-- A document is disabled, and the chunking starts behind the write. -/
private def startedAfter : List (Event Bool) :=
  [.begin false (managing (.setDocumentEnabled false)), .begin true (.startChunking (.lit "doc-1")),
    .call false .returned, .call false .returned, .call true .returned]

theorem frozen_of_startsFree_startedAfter :
    (runFrom (step {}) (initial manual) startedAfter).isSome = true ∧
      Along (step {}) Frozen (initial manual) startedAfter :=
  ⟨by decide +kernel, frozen_of_startsFree {} manual startedAfter (by decide +kernel)⟩

theorem startedBehind_not_frozen :
    ¬ Along (step {}) Frozen (initial manual)
        (startedBehind
          (.updateDocumentConfig (.lit "new name") (.lit "fixed_size") (.lit "\x7b\x7d"))) ∧
      ¬ Along (step {}) Frozen (initial manual) (startedBehind .deleteDocument) ∧
      ¬ Along (step {}) Frozen (initial manual) (startedBehind (.setDocumentEnabled false)) := by
  decide +kernel

end Runs

end DocumentOperations

end HeyeeAgent.Knowledge
