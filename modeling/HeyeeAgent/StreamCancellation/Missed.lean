import HeyeeAgent.StreamCancellation.Nodes

/-! # Cancellations that a node does not hear of

A registered stream learns of a cancel from the marker, which `register` reads once, or from the
broadcast. Between the read and the end of the stream only the broadcast can stop it, so the marker
covers a broadcast that was lost before the read, and no later one.
-/

namespace HeyeeAgent.StreamCancellation

open Machine Redis StreamTaskManager

variable {N H : Type}

def StreamPc.live : StreamPc → Bool
  | .owner | .ownerGet | .marker | .serving => true
  | _ => false

namespace Call

/-- The node and the id under which the call is in a registry. -/
def registered (call : Call N) : Option (N × String) :=
  match call.body with
  | .stream n taskId _ pc => if pc.live then some (n, taskId) else none
  | .cancel .. => none

/-- The same, once the read of the marker can no longer stop the stream. -/
def watched (call : Call N) : Option (N × String) :=
  match call.body, call.flight with
  | .stream n taskId _ .serving, _ => some (n, taskId)
  | .stream n taskId _ .marker, some ⟨_, some reply⟩ =>
    if reply.any (· ≠ "") then none else some (n, taskId)
  | _, _ => none

/-- `register` is in progress. -/
def registering (call : Call N) : Option (N × String) :=
  match call.body with
  | .stream n taskId _ .owner | .stream n taskId _ .ownerGet | .stream n taskId _ .marker =>
    some (n, taskId)
  | _ => none

/-- `register` has returned true, and `finalize` has not begun. -/
def serving (call : Call N) : Option (N × String) :=
  match call.body with
  | .stream n taskId _ .serving => some (n, taskId)
  | _ => none

/-- `cancel` has returned, and `mark_cancelled` had succeeded. -/
def persisted (call : Call N) : Option String :=
  match call.body with
  | .cancel _ taskId (.returned true _) => some taskId
  | _ => none

/-- The marker was set or its failure answered for, and the broadcast is still to come. -/
def announced (call : Call N) : Option String :=
  match call.body, call.flight with
  | .cancel _ taskId .marking, some ⟨_, some _⟩ => some taskId
  | .cancel _ taskId (.publishing _), some ⟨_, none⟩ => some taskId
  | _, _ => none

theorem registered_of_watched {call : Call N} {n : N} {taskId : String}
    (watched : call.watched = some (n, taskId)) : call.registered = some (n, taskId) := by
  obtain ⟨body, flight⟩ := call
  unfold Call.watched at watched
  unfold registered
  cases body with
  | cancel m other pc => cases watched
  | stream m other ownerId pc =>
    cases pc with
    | serving => exact watched
    | marker =>
      rcases flight with _ | ⟨command, _ | reply⟩
      · cases watched
      · cases watched
      · change (if reply.any (· ≠ "") then none else some (m, other)) = some (n, taskId) at watched
        split_ifs at watched
        exact watched
    | _ => cases watched

theorem watched_of_serving {call : Call N} {place : N × String}
    (serving : call.serving = some place) : call.watched = some place := by
  obtain ⟨body, flight⟩ := call
  unfold Call.serving at serving
  dsimp only at serving
  split at serving
  · exact serving
  · cases serving

end Call

namespace State

variable (cfg : Config) (s : State N H)

/-- The marker is in Redis, with a value that `bool` takes for true. -/
def marked (taskId : String) : Bool := (s.redis.get s.now (cfg.key taskId)).any (· ≠ "")

/-- `is_cancelled` on the node. -/
def aware (n : N) (taskId : String) : Bool := (s.nodes n).manager.isCancelled s.now taskId

/-- The registry of the node has an entry that `_purge_expired` keeps. -/
def Holds (n : N) (taskId : String) : Prop :=
  ∃ info ∈ (s.nodes n).manager.tasks.lookup taskId, ¬ Expired s.now info

/-- A stream that only a broadcast can stop, while the marker is there. -/
def Exposed (n : N) (taskId : String) : Prop :=
  (∃ call ∈ s.calls, call.watched = some (n, taskId)) ∧
    s.marked cfg taskId = true ∧ s.aware n taskId = false

/-- A call is about to broadcast the id. -/
def announcing (taskId : String) : Prop := ∃ call ∈ s.calls, call.announced = some taskId

instance (taskId : String) : Decidable (s.announcing taskId) :=
  inferInstanceAs (Decidable (∃ call ∈ s.calls, call.announced = some taskId))

/-- The node has been told of the cancel, or will be. -/
def Told (n : N) (taskId : String) : Prop :=
  taskId ∈ (s.nodes n).inbox ∨ s.announcing taskId

instance (n : N) (taskId : String) : Decidable (s.Told n taskId) :=
  inferInstanceAs (Decidable (_ ∨ _))

/-- A cancel of the id has returned and had set the marker, the marker is there and the broadcast
is over, and still the stream of the node is not cancelled. -/
structure Missed (n : N) (taskId : String) : Prop where
  returned : ∃ call ∈ s.calls, call.persisted = some taskId
  broadcast : ¬ s.announcing taskId
  delivered : taskId ∉ (s.nodes n).inbox
  registered : ∀ call ∈ s.calls, call.registering ≠ some (n, taskId)
  serving : ∃ call ∈ s.calls, call.serving = some (n, taskId)
  marked : s.marked cfg taskId = true
  unaware : s.aware n taskId = false

instance [DecidableEq N] (n : N) (taskId : String) : Decidable (s.Missed cfg n taskId) :=
  decidable_of_iff
    ((∃ call ∈ s.calls, call.persisted = some taskId) ∧ ¬ s.announcing taskId ∧
      taskId ∉ (s.nodes n).inbox ∧ (∀ call ∈ s.calls, call.registering ≠ some (n, taskId)) ∧
      (∃ call ∈ s.calls, call.serving = some (n, taskId)) ∧ s.marked cfg taskId = true ∧
      s.aware n taskId = false)
    ⟨fun ⟨returned, broadcast, delivered, registered, serving, marked, unaware⟩ =>
        ⟨returned, broadcast, delivered, registered, serving, marked, unaware⟩,
      fun missed => ⟨missed.returned, missed.broadcast, missed.delivered, missed.registered,
        missed.serving, missed.marked, missed.unaware⟩⟩

end State

/-- An id that the listener reads as it was sent, and whose marker is no owner key. -/
def Plain (taskId : String) : Prop :=
  Python.strip taskId = taskId ∧ taskId ≠ "" ∧ ¬ "owner:".toList <+: taskId.toList

instance (taskId : String) : Decidable (Plain taskId) := inferInstanceAs (Decidable (_ ∧ _ ∧ _))

/-- Every stream that only a broadcast can stop has the property. -/
def ForExposed (cfg : Config) (s : State N H) (P : N → String → Prop) : Prop :=
  ∀ call ∈ s.calls, ∀ place ∈ call.watched,
    s.marked cfg place.2 = true → s.aware place.1 place.2 = false → P place.1 place.2

instance (cfg : Config) (s : State N H) (P : N → String → Prop) [∀ n taskId, Decidable (P n taskId)] :
    Decidable (ForExposed cfg s P) :=
  inferInstanceAs (Decidable (∀ call ∈ s.calls, ∀ place ∈ call.watched, _))

section Heard

variable [DecidableEq N] (cfg : Config) (s : State N H)

/-- The server executes a command: a broadcast reaches every stream that only it can stop, and a
marker that nobody waits for comes too late for no stream. -/
def ExecutionHeard (orphan : Bool) : Command → Prop
  | .publish message => ForExposed cfg s fun n taskId =>
      taskId = message → (s.nodes n).subscribed = true ∨ taskId ∈ (s.nodes n).inbox
  | .set key _ => orphan = true → ∀ call ∈ s.calls, ∀ place ∈ call.watched,
      cfg.key place.2 = key → s.aware place.1 place.2 = true ∨ s.Told place.1 place.2
  | _ => True

instance (orphan : Bool) : (command : Command) → Decidable (ExecutionHeard cfg s orphan command)
  | .publish message => inferInstanceAs (Decidable (ForExposed cfg s fun n taskId =>
      taskId = message → (s.nodes n).subscribed = true ∨ taskId ∈ (s.nodes n).inbox))
  | .set _ _ => inferInstanceAs (Decidable (_ → _))
  | .setNx _ _ | .get _ | .delete _ => isTrue trivial

/-- The call ends its await without the reply: a broadcast that is given up was not needed, and the
marker was not there for a read that failed. -/
def AbandonHeard (raised : Bool) (call : Call N) : Prop :=
  match call.body with
  | .stream n taskId _ .marker => raised = false → s.marked cfg taskId = true →
      s.aware n taskId = true ∨ s.Told n taskId
  | .cancel _ taskId .marking => raised = true → taskId ∈ call.announced →
      ForExposed cfg s fun n other => other = taskId → other ∈ (s.nodes n).inbox
  | .cancel _ taskId (.publishing _) => taskId ∈ call.announced →
      ForExposed cfg s fun n other => other = taskId → other ∈ (s.nodes n).inbox
  | _ => True

instance (raised : Bool) (call : Call N) : Decidable (AbandonHeard cfg s raised call) := by
  unfold AbandonHeard
  split <;> infer_instance

/-- The step loses no news of a cancel: what each kind of step must not do. -/
def Heard : Event N H → Prop
  | .register _ taskId _ => Plain taskId
  | .execute c => ∀ call ∈ s.calls[c]?, ∀ flight ∈ call.flight,
      ExecutionHeard cfg s false flight.command
  | .executeOrphan index => ∀ command ∈ s.orphans[index]?, ExecutionHeard cfg s true command
  | .fail c => ∀ call ∈ s.calls[c]?, AbandonHeard cfg s false call
  | .interrupt c => ∀ call ∈ s.calls[c]?, AbandonHeard cfg s true call
  | .disconnect n => ForExposed cfg s fun m taskId =>
      m = n → taskId ∈ (s.nodes n).inbox → s.announcing taskId
  | .elapse seconds => ∀ call ∈ s.calls, ∀ place ∈ call.registered,
      ∀ info ∈ (s.nodes place.1).manager.tasks.lookup place.2, ¬ Expired (s.now + seconds) info
  | _ => True

instance (e : Event N H) : Decidable (Heard cfg s e) := by
  cases e <;> unfold Heard <;> infer_instance

end Heard

end HeyeeAgent.StreamCancellation
