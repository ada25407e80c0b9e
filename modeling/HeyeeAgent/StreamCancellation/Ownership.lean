import HeyeeAgent.StreamCancellation.Covered

/-! # Only the owner stops a stream

A cancel names its owner, or none when the service itself asks for it. Every entry that is cancelled,
every marker, every broadcast and every command that is still under way goes back to a request that
was allowed to make it. The invariant reads the requests made so far, and each kind of step keeps it.
-/

namespace HeyeeAgent.StreamCancellation

open Machine Redis StreamTaskManager State

section Registry

variable {H : Type} {Q : String → StreamTaskInfo H → Prop} {m : StreamTaskManager H} {now : ℚ}
  {taskId : String}

/-- Every entry of the registry has the property. -/
def Every (Q : String → StreamTaskInfo H → Prop) (m : StreamTaskManager H) : Prop :=
  ∀ taskId, ∀ info ∈ m.tasks.lookup taskId, Q taskId info

theorem Every.insert (every : Every Q m) {info : StreamTaskInfo H} (new : Q taskId info) :
    Every Q { m with tasks := m.tasks.insert taskId info } := by
  intro other info' found
  by_cases same : other = taskId
  · subst same
    rw [AList.lookup_insert, Option.mem_some_iff] at found
    exact found ▸ new
  · rw [AList.lookup_insert_ne same] at found
    exact every other info' found

theorem Every.erase (every : Every Q m) (taskId : String) :
    Every Q { m with tasks := m.tasks.erase taskId } := by
  intro other info found
  by_cases same : other = taskId
  · subst same
    rw [AList.lookup_erase] at found
    cases found
  · rw [AList.lookup_erase_ne same] at found
    exact every other info found

theorem Every.purgeExpired (every : Every Q m) (now : ℚ) : Every Q (m.purgeExpired now) := by
  intro other info found
  rw [lookup_purgeExpired] at found
  exact every other info (Option.filter_eq_some_iff.mp found).1

theorem Every.register (every : Every Q m) {ownerId : Option String}
    (new : Q taskId { ownerId := (ownerId.filter (· ≠ "")).map Python.strip }) :
    Every Q (m.register now taskId ownerId).1 := by
  unfold StreamTaskManager.register
  dsimp only
  split_ifs
  · exact every.purgeExpired now
  · exact (every.purgeExpired now).insert new

/-- Only the entry of the id is cancelled. -/
theorem Every.cancelLocal (every : Every Q m)
    (stopped : ∀ info expiresAt, Q taskId info → Q taskId { info with cancelled := true, expiresAt }) :
    Every Q (m.cancelLocal now taskId).1 := by
  have purged := every.purgeExpired now
  unfold StreamTaskManager.cancelLocal
  dsimp only
  split
  · exact purged
  · next info found =>
    split_ifs
    · exact purged
    · exact purged.insert (stopped info _ (purged taskId info found))

theorem Every.bind (every : Every Q m) {handle : H}
    (bound : ∀ info, Q taskId info → Q taskId { info with handle := some handle }) :
    Every Q (m.bind taskId handle).1 := by
  cases entry : m.tasks.lookup taskId with
  | none =>
    unfold StreamTaskManager.bind
    rw [entry]
    exact every
  | some info =>
    rw [bind_found entry]
    exact every.insert (bound info (every taskId info entry))

theorem Every.finalize (every : Every Q m)
    (finalized : ∀ info expiresAt, Q taskId info → Q taskId { info with handle := none, expiresAt }) :
    Every Q (m.finalize now taskId) := by
  have purged := every.purgeExpired now
  unfold StreamTaskManager.finalize
  dsimp only
  split
  · exact purged
  · next info found =>
    split_ifs
    · exact purged.insert (finalized info _ (purged taskId info found))
    · exact purged.erase taskId

end Registry

variable {N H : Type} {cfg : Config} {past : List (Event N H)} {s t : State N H} {taskId : String}

section Requests

/-- The task was registered for this owner, as `register` strips it. -/
def Registered (past : List (Event N H)) (taskId owner : String) : Prop :=
  ∃ n ownerId, .register n taskId (some ownerId) ∈ past ∧ owner = Python.strip ownerId

/-- The service has asked for the cancel of the task, or its owner has. -/
def Authorised (past : List (Event N H)) (taskId : String) : Prop :=
  (∃ n, .cancel n taskId none ∈ past) ∨
    ∃ n ownerId, .cancel n taskId (some ownerId) ∈ past ∧
      Registered past taskId (Python.strip ownerId)

/-- The service generates the ids that it registers and cancels, and a stream has an owner. A cancel
with an owner comes from outside, and may name anything. -/
def Event.Issued : Event N H → Prop
  | .register _ taskId ownerId =>
    Plain taskId ∧ ∃ owner ∈ ownerId, Python.strip owner ≠ ""
  | .cancel _ taskId none => Plain taskId
  | _ => True

/-- The ids that `stream` generates. -/
theorem plain_task {hex : List Char} (shown : ∀ c ∈ hex, Python.isSpace c = false) :
    Plain (String.ofList ("task_".toList ++ hex)) := by
  have word : ∀ c ∈ "task_".toList, Python.isSpace c = false := by
    have blanks : "task_".toList.filter Python.isSpace = [] := rfl
    exact fun c member => Bool.eq_false_iff.mpr (List.filter_eq_nil_iff.mp blanks c member)
  have characters : ∀ c ∈ "task_".toList ++ hex, Python.isSpace c = false := fun c member =>
    (List.mem_append.mp member).elim (word c) (shown c)
  refine ⟨Python.strip_eq_self (by rwa [String.toList_ofList]), ?_, ?_⟩
  · intro blank
    have lists := congrArg String.toList blank
    rw [String.toList_ofList] at lists
    cases lists
  · rintro ⟨rest, same⟩
    have heads := congrArg List.head? same
    rw [String.toList_ofList (l := "task_".toList ++ hex)] at heads
    cases heads

theorem Registered.plain {owner : String} (issued : ∀ e ∈ past, e.Issued)
    (registered : Registered past taskId owner) : Plain taskId := by
  obtain ⟨n, ownerId, member, -⟩ := registered
  exact (issued _ member).1

theorem Authorised.plain (issued : ∀ e ∈ past, e.Issued) (authorised : Authorised past taskId) :
    Plain taskId := by
  rcases authorised with ⟨n, member⟩ | ⟨n, ownerId, -, registered⟩
  · exact issued _ member
  · exact registered.plain issued

theorem Registered.mono {more : List (Event N H)} {owner : String} (sub : past ⊆ more)
    (registered : Registered past taskId owner) : Registered more taskId owner := by
  obtain ⟨n, ownerId, member, same⟩ := registered
  exact ⟨n, ownerId, sub member, same⟩

theorem Authorised.mono {more : List (Event N H)} (sub : past ⊆ more)
    (authorised : Authorised past taskId) : Authorised more taskId := by
  rcases authorised with ⟨n, member⟩ | ⟨n, ownerId, member, registered⟩
  · exact .inl ⟨n, sub member⟩
  · exact .inr ⟨n, ownerId, sub member, registered.mono sub⟩

end Requests

section Invariant

/-- An owner key is the key of a marker for an id that nobody generates. -/
theorem Config.ownerKey_eq (taskId : String) : cfg.ownerKey taskId = cfg.key ("owner:" ++ taskId) := by
  unfold Config.key Config.ownerKey
  have split : (":owner:" : String) = ":" ++ "owner:" := by decide
  rw [split]
  simp only [String.append_assoc]

theorem not_plain_owner (taskId : String) : ¬ Plain ("owner:" ++ taskId) := fun plain =>
  plain.2.2 ⟨taskId.toList, String.toList_append.symm⟩

/-- An entry has its owner, and is cancelled only with authority. -/
def Entry (past : List (Event N H)) (taskId : String) (info : StreamTaskInfo H) : Prop :=
  (∃ owner, Registered past taskId owner ∧ info.ownerId = some owner) ∧
    (info.cancelled = true → Authorised past taskId)

/-- What is stored under a key of the backend. -/
def Stored (past : List (Event N H)) (id value : String) : Prop :=
  Authorised past id ∨ ∃ taskId, id = "owner:" ++ taskId ∧ Registered past taskId value

/-- A command that somebody was allowed to send. -/
def Command.Allowed (cfg : Config) (past : List (Event N H)) : Command → Prop
  | .set key value => ∃ taskId, key = cfg.key taskId ∧ value = "1" ∧ Authorised past taskId
  | .setNx key value => ∃ taskId, key = cfg.ownerKey taskId ∧ Registered past taskId value
  | .publish message => Authorised past message
  | .get _ | .delete _ => True

/-- The call waits for what is under the key, or has read it. -/
def Reads (key : String) (answer : String → Prop) (flight : Option Flight) : Prop :=
  ∃ reply, flight = some ⟨.get key, reply⟩ ∧ ∀ value, reply = some (some value) → answer value

/-- What brought the call to where it is suspended. -/
def Call.Allowed (cfg : Config) (past : List (Event N H)) (call : Call N) : Prop :=
  (∀ flight ∈ call.flight, flight.command.Allowed cfg past) ∧
    match call.body with
    | .stream _ taskId ownerId pc => (∃ owner, Registered past taskId owner ∧ ownerId = some owner) ∧
        (pc = .marker → Reads (cfg.key taskId) (fun _ => Authorised past taskId) call.flight)
    | .cancel _ taskId (.owned ownerId) => (∃ n, .cancel n taskId (some ownerId) ∈ past) ∧
        Reads (cfg.ownerKey taskId) (Registered past taskId) call.flight
    | .cancel _ taskId .marking | .cancel _ taskId (.publishing _) => Authorised past taskId
    | .cancel _ _ (.returned _ _) | .cancel _ _ .raised => True

/-- Everything under way goes back to a request that was allowed to make it. -/
structure Guarded (cfg : Config) (past : List (Event N H)) (s : State N H) : Prop where
  entries : ∀ n, Every (Entry past) (s.nodes n).manager
  stored : ∀ id, ∀ entry ∈ s.redis.entries (cfg.key id), Stored past id entry.value
  calls : ∀ call ∈ s.calls, call.Allowed cfg past
  orphans : ∀ command ∈ s.orphans, command.Allowed cfg past
  inboxes : ∀ n, ∀ message ∈ (s.nodes n).inbox, Authorised past message

theorem Entry.mono {more : List (Event N H)} (sub : past ⊆ more) {info : StreamTaskInfo H}
    (entry : Entry past taskId info) : Entry more taskId info := by
  obtain ⟨⟨owner, registered, owned⟩, stopped⟩ := entry
  exact ⟨⟨owner, registered.mono sub, owned⟩, fun cancelled => (stopped cancelled).mono sub⟩

theorem Command.Allowed.mono {more : List (Event N H)} (sub : past ⊆ more) {command : Command}
    (allowed : command.Allowed cfg past) : command.Allowed cfg more := by
  cases command with
  | set key value =>
    obtain ⟨taskId, rfl, rfl, authorised⟩ := allowed
    exact ⟨taskId, rfl, rfl, authorised.mono sub⟩
  | setNx key value =>
    obtain ⟨taskId, rfl, registered⟩ := allowed
    exact ⟨taskId, rfl, registered.mono sub⟩
  | publish message => exact Authorised.mono sub allowed
  | get key => trivial
  | delete key => trivial

theorem Reads.mono {key : String} {answer answer' : String → Prop} {flight : Option Flight}
    (implies : ∀ value, answer value → answer' value) (reads : Reads key answer flight) :
    Reads key answer' flight := by
  obtain ⟨reply, flying, read⟩ := reads
  exact ⟨reply, flying, fun value replied => implies value (read value replied)⟩

theorem Call.Allowed.mono {more : List (Event N H)} (sub : past ⊆ more) {call : Call N}
    (allowed : call.Allowed cfg past) : call.Allowed cfg more := by
  obtain ⟨body, flight⟩ := call
  obtain ⟨commands, reason⟩ := allowed
  refine ⟨fun flight flying => (commands flight flying).mono sub, ?_⟩
  cases body with
  | stream n taskId ownerId pc =>
    obtain ⟨⟨owner, registered, owned⟩, reads⟩ := reason
    exact ⟨⟨owner, registered.mono sub, owned⟩,
      fun reading => (reads reading).mono fun _ authorised => authorised.mono sub⟩
  | cancel n taskId pc =>
    cases pc with
    | owned ownerId =>
      obtain ⟨⟨m, member⟩, reads⟩ := reason
      exact ⟨⟨m, sub member⟩, reads.mono fun _ registered => registered.mono sub⟩
    | marking => exact Authorised.mono sub reason
    | publishing persisted => exact Authorised.mono sub reason
    | returned persisted result => trivial
    | raised => trivial

/-- A stream that does not wait for its marker. -/
theorem Call.Allowed.stream {n : N} {ownerId : Option String} {pc : StreamPc} {flight : Option Flight}
    (owned : ∃ owner, Registered past taskId owner ∧ ownerId = some owner) (other : pc ≠ .marker)
    (commands : ∀ sent ∈ flight, sent.command.Allowed cfg past) :
    (⟨.stream n taskId ownerId pc, flight⟩ : Call N).Allowed cfg past :=
  ⟨commands, owned, fun reading => absurd reading other⟩

theorem no_flight {P : Flight → Prop} : ∀ flight ∈ (none : Option Flight), P flight := by
  intro flight flying
  cases flying

/-- A command that was sent is not answered yet. -/
theorem reads_sent (key : String) (answer : String → Prop) :
    Reads key answer (some ⟨.get key, none⟩) := by
  refine ⟨none, rfl, fun value got => ?_⟩
  cases got

theorem Call.Allowed.reading {n : N} {ownerId : Option String}
    (owned : ∃ owner, Registered past taskId owner ∧ ownerId = some owner) :
    (⟨.stream n taskId ownerId .marker, some ⟨.get (cfg.key taskId), none⟩⟩ :
      Call N).Allowed cfg past := by
  refine ⟨fun sent flying => ?_, owned, fun _ => reads_sent _ _⟩
  cases flying
  trivial

theorem Call.Allowed.marking {n : N} (authorised : Authorised past taskId) :
    (⟨.cancel n taskId .marking, some ⟨.set (cfg.key taskId) "1", none⟩⟩ :
      Call N).Allowed cfg past := by
  refine ⟨fun sent flying => ?_, authorised⟩
  cases flying
  exact ⟨taskId, rfl, rfl, authorised⟩

theorem Call.Allowed.publishing {n : N} {persisted : Bool} (authorised : Authorised past taskId) :
    (⟨.cancel n taskId (.publishing persisted), some ⟨.publish taskId, none⟩⟩ :
      Call N).Allowed cfg past := by
  refine ⟨fun sent flying => ?_, authorised⟩
  cases flying
  exact authorised

theorem Guarded.mono {more : List (Event N H)} (sub : past ⊆ more) (inv : Guarded cfg past s) :
    Guarded cfg more s where
  entries n id info found := (inv.entries n id info found).mono sub
  stored id entry found := by
    rcases inv.stored id entry found with authorised | ⟨taskId, same, registered⟩
    · exact .inl (authorised.mono sub)
    · exact .inr ⟨taskId, same, registered.mono sub⟩
  calls call member := (inv.calls call member).mono sub
  orphans command member := (inv.orphans command member).mono sub
  inboxes n message member := (inv.inboxes n message member).mono sub

end Invariant

namespace Guarded

/-- What is read under an owner key has been written at a registration. -/
theorem owner (inv : Guarded cfg past s) (issued : ∀ e ∈ past, e.Issued) {value : String}
    (read : s.redis.get s.now (cfg.ownerKey taskId) = some value) :
    Registered past taskId value := by
  obtain ⟨entry, found, rfl⟩ := Strings.entry_of_get read
  rw [Config.ownerKey_eq] at found
  rcases inv.stored _ entry found with authorised | ⟨other, same, registered⟩
  · exact absurd (authorised.plain issued) (not_plain_owner taskId)
  · rw [String.append_right_inj] at same
    exact same ▸ registered

/-- What is read under a marker's key has been written with authority. -/
theorem marker (inv : Guarded cfg past s) (plain : Plain taskId) {value : String}
    (read : s.redis.get s.now (cfg.key taskId) = some value) : Authorised past taskId := by
  obtain ⟨entry, found, rfl⟩ := Strings.entry_of_get read
  rcases inv.stored _ entry found with authorised | ⟨other, rfl, -⟩
  · exact authorised
  · exact absurd plain (not_plain_owner other)

theorem redis (inv : Guarded cfg past s) {redis : Strings}
    (stored : ∀ id, ∀ entry ∈ redis.entries (cfg.key id), Stored past id entry.value) :
    Guarded cfg past { s with redis } := { inv with stored }

theorem set_redis (inv : Guarded cfg past s) {id value : String} {expiresAt : Option ℚ}
    (new : Stored past id value) :
    Guarded cfg past { s with redis := s.redis.set (cfg.key id) value expiresAt } := by
  apply inv.redis
  intro other entry found
  unfold Strings.set at found
  dsimp only at found
  by_cases same : other = id
  · subst same
    rw [Function.update_self, Option.mem_some_iff] at found
    exact found ▸ new
  · rw [Function.update_of_ne fun keys => same (Config.key_injective keys)] at found
    exact inv.stored other entry found

/-- The server executes a command that somebody was allowed to send. -/
theorem execute (inv : Guarded cfg past s) {command : Command}
    (allowed : command.Allowed cfg past) : Guarded cfg past (execute cfg s command).1 := by
  cases command with
  | set key value =>
    obtain ⟨taskId, rfl, rfl, authorised⟩ := allowed
    exact inv.set_redis (.inl authorised)
  | setNx key value =>
    obtain ⟨taskId, rfl, registered⟩ := allowed
    unfold StreamCancellation.execute Strings.setNx
    dsimp only
    split_ifs
    · exact inv
    · rw [Config.ownerKey_eq]
      exact inv.set_redis (.inr ⟨taskId, rfl, registered⟩)
  | get key => exact inv
  | delete key =>
    apply inv.redis
    intro id entry found
    unfold Strings.delete at found
    dsimp only at found
    by_cases same : cfg.key id = key
    · rw [same, Function.update_self] at found
      cases found
    · rw [Function.update_of_ne same] at found
      exact inv.stored id entry found
  | publish message =>
    have node (n : N) : ((StreamCancellation.execute cfg s (.publish message)).1.nodes n).manager =
        (s.nodes n).manager ∧ ∀ other,
          other ∈ ((StreamCancellation.execute cfg s (.publish message)).1.nodes n).inbox →
            other ∈ (s.nodes n).inbox ∨ other = message := by
      unfold StreamCancellation.execute
      dsimp only
      split_ifs
      · refine ⟨rfl, fun other member => ?_⟩
        rcases List.mem_append.mp member with before | last
        · exact .inl before
        · exact .inr (List.mem_singleton.mp last)
      · exact ⟨rfl, fun other member => .inl member⟩
    refine ⟨fun n => ?_, inv.stored, inv.calls, inv.orphans, fun n other member => ?_⟩
    · rw [(node n).1]
      exact inv.entries n
    · rcases (node n).2 other member with before | rfl
      · exact inv.inboxes n other before
      · exact allowed

/-- The reply of a read is what its call waits for. -/
theorem reads_executed (inv : Guarded cfg past s) (issued : ∀ e ∈ past, e.Issued) {body : Body N}
    {command : Command} (allowed : (⟨body, some ⟨command, none⟩⟩ : Call N).Allowed cfg past) :
    (⟨body, some ⟨command, some (StreamCancellation.execute cfg s command).2⟩⟩ :
      Call N).Allowed cfg past := by
  obtain ⟨commands, reason⟩ := allowed
  have sent := commands _ rfl
  refine ⟨fun flight flying => ?_, ?_⟩
  · cases flying
    exact sent
  cases body with
  | stream n taskId ownerId pc =>
    obtain ⟨⟨owner, registered, owned⟩, reads⟩ := reason
    refine ⟨⟨owner, registered, owned⟩, ?_⟩
    rintro rfl
    obtain ⟨reply, flying, -⟩ := reads rfl
    cases flying
    exact ⟨_, rfl, fun value replied =>
      inv.marker (registered.plain issued) (Option.some.inj replied)⟩
  | cancel n taskId pc =>
    cases pc with
    | owned ownerId =>
      obtain ⟨asked, reply, flying, -⟩ := reason
      cases flying
      exact ⟨asked, _, rfl, fun value replied => inv.owner issued (Option.some.inj replied)⟩
    | marking => exact reason
    | publishing persisted => exact reason
    | returned persisted result => trivial
    | raised => trivial

theorem set (inv : Guarded cfg past s) {c : ℕ} {call : Call N} (allowed : call.Allowed cfg past) :
    Guarded cfg past { s with calls := s.calls.set c call } := by
  refine { inv with calls := fun other member => ?_ }
  rcases List.mem_or_eq_of_mem_set member with before | rfl
  · exact inv.calls other before
  · exact allowed

theorem append (inv : Guarded cfg past s) {call : Call N} (allowed : call.Allowed cfg past) :
    Guarded cfg past { s with calls := s.calls ++ [call] } := by
  refine { inv with calls := fun other member => ?_ }
  rcases List.mem_append.mp member with before | last
  · exact inv.calls other before
  · exact List.mem_singleton.mp last ▸ allowed

theorem abandon (inv : Guarded cfg past s) {call : Call N} (member : call ∈ s.calls) :
    Guarded cfg past (s.abandon call.flight) := by
  unfold State.abandon
  split
  · next command flying =>
    refine { inv with orphans := fun other listed => ?_ }
    rcases List.mem_append.mp listed with before | last
    · exact inv.orphans other before
    · exact List.mem_singleton.mp last ▸ (inv.calls call member).1 _ flying
  · exact inv

variable [DecidableEq N]

/-- A node changes, and its entries and its inbox keep what is asked of them. -/
theorem modify (inv : Guarded cfg past s) {n : N} {change : Node H → Node H}
    (entries : Every (Entry past) (change (s.nodes n)).manager)
    (inbox : ∀ message ∈ (change (s.nodes n)).inbox, Authorised past message) :
    Guarded cfg past (s.modify n change) := by
  have self : (s.modify n change).nodes n = change (s.nodes n) := Function.update_self _ _ _
  have other (m : N) (different : m ≠ n) : (s.modify n change).nodes m = s.nodes m :=
    Function.update_of_ne different _ _
  refine ⟨fun m => ?_, inv.stored, inv.calls, inv.orphans, fun m => ?_⟩
  · by_cases same : m = n
    · subst same
      rwa [self]
    · rw [other m same]
      exact inv.entries m
  · by_cases same : m = n
    · subst same
      rwa [self]
    · rw [other m same]
      exact inv.inboxes m

theorem setManager (inv : Guarded cfg past s) {n : N} {manager : StreamTaskManager H}
    (entries : Every (Entry past) manager) : Guarded cfg past (s.setManager n manager) :=
  inv.modify entries (inv.inboxes n)

omit [DecidableEq N] in
theorem every_cancelLocal (inv : Guarded cfg past s) (n : N) (authorised : Authorised past taskId) :
    Every (Entry past) ((s.nodes n).manager.cancelLocal s.now taskId).1 :=
  (inv.entries n).cancelLocal fun _ _ entry => ⟨entry.1, fun _ => authorised⟩

theorem cancelLocal (inv : Guarded cfg past s) (n : N) (authorised : Authorised past taskId) :
    Guarded cfg past (s.cancelLocal n taskId) :=
  inv.setManager (inv.every_cancelLocal n authorised)

theorem pop (inv : Guarded cfg past s) (n : N) (taskId : String) :
    Guarded cfg past (s.pop n taskId) :=
  inv.modify ((inv.entries n).erase taskId) (inv.inboxes n)

theorem endCancel (inv : Guarded cfg past s) {c : ℕ} {n : N} {persisted published : Bool}
    (authorised : Authorised past taskId) :
    Guarded cfg past (s.endCancel c n taskId persisted published) :=
  (inv.cancelLocal n authorised).set ⟨no_flight, trivial⟩

theorem startRegister (inv : Guarded cfg past s) {n : N} {ownerId : Option String}
    (requested : .register n taskId ownerId ∈ past) (issued : ∀ e ∈ past, e.Issued) :
    Guarded cfg past (startRegister cfg s n taskId ownerId) := by
  obtain ⟨-, owner, rfl, shown⟩ := issued _ requested
  have registered : Registered past taskId (Python.strip owner) := ⟨n, owner, requested, rfl⟩
  have nonempty : owner ≠ "" := fun blank => shown (by rw [blank]; rfl)
  have normalized : ((some owner).filter (· ≠ "")).map Python.strip = some (Python.strip owner) := by
    simp [Option.filter, nonempty]
  have registry : Guarded cfg past
      (s.setManager n ((s.nodes n).manager.register s.now taskId (some owner)).1) := by
    refine inv.setManager ((inv.entries n).register ⟨⟨_, registered, normalized⟩, ?_⟩)
    intro cancelled
    cases cancelled
  unfold StreamCancellation.startRegister
  dsimp only
  rw [normalized]
  apply registry.append
  split_ifs
  · exact .stream ⟨_, registered, rfl⟩ (by decide) no_flight
  · refine .stream ⟨_, registered, rfl⟩ (by decide) fun sent flying => ?_
    cases flying
    exact ⟨taskId, rfl, registered⟩

theorem startCancel (inv : Guarded cfg past s) {n : N} {ownerId : Option String}
    (requested : .cancel n taskId ownerId ∈ past) :
    Guarded cfg past (startCancel cfg s n taskId ownerId) := by
  unfold StreamCancellation.startCancel
  cases ownerId with
  | none => exact inv.append (.marking (.inl ⟨n, requested⟩))
  | some ownerId =>
    dsimp only
    have purged := (inv.entries n).purgeExpired s.now
    apply (inv.setManager purged).append
    split
    · next info found =>
      split_ifs with owned
      · -- the entry is the one of the stream, whose owner is asking
        obtain ⟨⟨owner, registered, stored⟩, -⟩ := purged taskId info found
        rw [stored, Option.all_some, beq_iff_eq] at owned
        exact .marking (.inr ⟨n, ownerId, requested, owned ▸ registered⟩)
      · exact ⟨no_flight, trivial⟩
    · refine ⟨fun flight flying => ?_, ⟨n, requested⟩, reads_sent _ _⟩
      cases flying
      trivial

theorem startFinalize (inv : Guarded cfg past s) {c : ℕ} {n : N} {ownerId : Option String}
    (owned : ∃ owner, Registered past taskId owner ∧ ownerId = some owner) :
    Guarded cfg past (startFinalize cfg s c n taskId ownerId) := by
  have entries : Every (Entry past) ((s.nodes n).manager.finalize s.now taskId) :=
    (inv.entries n).finalize fun _ _ entry => entry
  have finalized := inv.setManager (n := n) entries
  have ended : (⟨.stream n taskId ownerId .finalized, none⟩ : Call N).Allowed cfg past :=
    .stream owned (by decide) no_flight
  unfold StreamCancellation.startFinalize
  dsimp only
  split
  · split_ifs
    · exact finalized.set ended
    · refine finalized.set (.stream owned (by decide) fun sent flying => ?_)
      cases flying
      trivial
  · exact finalized.set ended

omit [DecidableEq N] in
/-- The next command of `finalize`. -/
theorem clear (inv : Guarded cfg past s) {c : ℕ} {n : N} {ownerId : Option String}
    (owned : ∃ owner, Registered past taskId owner ∧ ownerId = some owner) (key : String) :
    Guarded cfg past (s.send c (.stream n taskId ownerId .clearingOwner) (.delete key)) := by
  refine inv.set (.stream owned (by decide) fun sent flying => ?_)
  cases flying
  trivial

theorem failed (inv : Guarded cfg past s) {c : ℕ} {call : Call N} (allowed : call.Allowed cfg past)
    (taken : failed cfg s c call.body = some t) : Guarded cfg past t := by
  obtain ⟨body, flight⟩ := call
  cases body with
  | stream n taskId ownerId pc =>
    have owned := allowed.2.1
    cases pc with
    | owner | ownerGet =>
      cases taken
      exact (inv.pop n taskId).set (.stream owned (by decide) no_flight)
    | marker | clearingOwner =>
      cases taken
      exact inv.set (.stream owned (by decide) no_flight)
    | clearing =>
      cases taken
      exact inv.clear owned _
    | _ => cases taken
  | cancel n taskId pc =>
    cases pc with
    | owned ownerId =>
      cases taken
      exact inv.set ⟨no_flight, trivial⟩
    | marking =>
      cases taken
      exact inv.set (.publishing allowed.2)
    | publishing persisted =>
      cases taken
      exact inv.endCancel allowed.2
    | _ => cases taken

omit [DecidableEq N] in
theorem interrupted (inv : Guarded cfg past s) {c : ℕ} {call : Call N}
    (allowed : call.Allowed cfg past) (taken : interrupted s c call.body = some t) :
    Guarded cfg past t := by
  obtain ⟨body, flight⟩ := call
  cases body with
  | stream n taskId ownerId pc =>
    have raised : Guarded cfg past (s.put c (.stream n taskId ownerId .raised)) :=
      inv.set (.stream allowed.2.1 (by decide) no_flight)
    cases pc <;> cases taken <;> exact raised
  | cancel n taskId pc =>
    have raised : Guarded cfg past (s.put c (.cancel n taskId .raised)) := inv.set ⟨no_flight, trivial⟩
    cases pc <;> cases taken <;> exact raised

theorem replied (inv : Guarded cfg past s) {c : ℕ} {body : Body N} {command : Command}
    {reply : Option String}
    (allowed : (⟨body, some ⟨command, some reply⟩⟩ : Call N).Allowed cfg past)
    (taken : replied cfg s c reply body = some t) : Guarded cfg past t := by
  cases body with
  | stream n taskId ownerId pc =>
    obtain ⟨-, owned, reads⟩ := allowed
    cases pc with
    | owner =>
      cases ownerId with
      | none => cases taken
      | some owner =>
        cases taken
        split_ifs
        · exact inv.set (.reading owned)
        · refine inv.set (.stream owned (by decide) fun sent flying => ?_)
          cases flying
          trivial
    | ownerGet =>
      cases ownerId with
      | none => cases taken
      | some owner =>
        cases taken
        split_ifs
        · exact inv.set (.reading owned)
        · exact (inv.pop n taskId).set (.stream owned (by decide) no_flight)
    | marker =>
      simp only [StreamCancellation.replied, Option.some.injEq] at taken
      subst taken
      have serving : (⟨.stream n taskId ownerId .serving, none⟩ : Call N).Allowed cfg past :=
        .stream owned (by decide) no_flight
      split_ifs with truthy
      · -- a marker that was read has been set with authority
        obtain ⟨value, rfl, -⟩ := (Option.any_eq_true _ _).mp truthy
        obtain ⟨_, flying, answer⟩ := reads rfl
        cases flying
        exact (inv.cancelLocal n (answer value rfl)).set serving
      · exact inv.set serving
    | clearing =>
      simp only [StreamCancellation.replied, Option.some.injEq] at taken
      subst taken
      exact inv.clear owned _
    | clearingOwner =>
      simp only [StreamCancellation.replied, Option.some.injEq] at taken
      subst taken
      exact inv.set (.stream owned (by decide) no_flight)
    | _ => simp [StreamCancellation.replied] at taken
  | cancel n taskId pc =>
    obtain ⟨-, reason⟩ := allowed
    cases pc with
    | owned ownerId =>
      obtain ⟨⟨m, requested⟩, _, flying, answer⟩ := reason
      cases flying
      cases taken
      split_ifs with own
      · exact inv.set (.marking (.inr ⟨m, ownerId, requested, answer _ (congrArg some own)⟩))
      · exact inv.set ⟨no_flight, trivial⟩
    | marking =>
      cases taken
      exact inv.set (.publishing reason)
    | publishing persisted =>
      cases taken
      exact inv.endCancel reason
    | _ => cases taken

/-- Every step keeps the guard, if its event is one of the requests. -/
theorem step (inv : Guarded cfg past s) (issued : ∀ e ∈ past, e.Issued) {e : Event N H}
    (requested : e ∈ past) (taken : step cfg s e = some t) : Guarded cfg past t := by
  cases e with
  | register n taskId ownerId =>
    cases taken
    exact inv.startRegister requested issued
  | cancel n taskId ownerId =>
    cases taken
    exact inv.startCancel requested
  | finalize c =>
    simp only [StreamCancellation.step] at taken
    split at taken
    · next n taskId ownerId flight found =>
      cases taken
      exact inv.startFinalize (inv.calls _ (List.mem_of_getElem? found)).2.1
    · cases taken
  | bind n taskId handle =>
    cases taken
    exact inv.setManager ((inv.entries n).bind fun _ entry => entry)
  | check n =>
    cases taken
    exact inv.setManager ((inv.entries n).purgeExpired s.now)
  | execute c =>
    simp only [StreamCancellation.step] at taken
    split at taken
    · next body command found =>
      cases taken
      have allowed := inv.calls _ (List.mem_of_getElem? found)
      exact (inv.execute (allowed.1 _ rfl)).set (inv.reads_executed issued allowed)
    · cases taken
  | executeOrphan index =>
    obtain ⟨command, found, same⟩ := Option.map_eq_some_iff.mp taken
    subst same
    have executed := inv.execute (inv.orphans command (List.mem_of_getElem? found))
    exact { executed with
      orphans := fun other member => inv.orphans other (List.mem_of_mem_eraseIdx member) }
  | reply c =>
    simp only [StreamCancellation.step] at taken
    split at taken
    · next body command reply found =>
      exact inv.replied (inv.calls _ (List.mem_of_getElem? found)) taken
    · cases taken
  | fail c =>
    obtain ⟨call, found, taken⟩ := Option.bind_eq_some_iff.mp taken
    have member := List.mem_of_getElem? found
    exact (inv.abandon member).failed (inv.calls call member) taken
  | interrupt c =>
    obtain ⟨call, found, taken⟩ := Option.bind_eq_some_iff.mp taken
    have member := List.mem_of_getElem? found
    exact (inv.abandon member).interrupted (inv.calls call member) taken
  | subscribe n =>
    cases taken
    exact inv.modify (inv.entries n) (inv.inboxes n)
  | disconnect n =>
    cases taken
    exact inv.modify (inv.entries n) fun _ member => absurd member List.not_mem_nil
  | deliver n =>
    simp only [StreamCancellation.step] at taken
    split at taken
    · cases taken
    · next message inbox waiting =>
      have authorised := inv.inboxes n message (by rw [waiting]; exact List.mem_cons_self)
      have received : Guarded cfg past (s.modify n fun node => { node with inbox }) :=
        inv.modify (inv.entries n) fun other member =>
          inv.inboxes n other (by rw [waiting]; exact List.mem_cons_of_mem message member)
      -- the listener strips what it reads, and an id of the service is stripped
      rw [(authorised.plain issued).1] at taken
      split_ifs at taken
      · cases taken
        exact received.cancelLocal n authorised
      · cases taken
        exact received
  | elapse seconds =>
    simp only [StreamCancellation.step] at taken
    split_ifs at taken
    cases taken
    exact { inv with }

/-- Everything goes back to the requests of the run. -/
theorem run {es : List (Event N H)} (inv : Guarded cfg [] s) (issued : ∀ e ∈ es, e.Issued)
    (taken : runFrom (StreamCancellation.step cfg) s es = some t) : Guarded cfg es t := by
  have kept := history_runFrom
    (H := fun past s => (∀ e ∈ past, Event.Issued e) → Guarded cfg past s)
    (fun past s e t inv taken issued => by
      have before := inv fun e' member => issued e' (List.mem_append_left [e] member)
      exact (before.mono (List.subset_append_left past [e])).step issued
        (List.mem_append_right past (List.mem_singleton_self e)) taken)
    (fun _ => inv) taken
  exact kept issued

omit [DecidableEq N] in
theorem initial {now : ℚ} {redis : Strings} {managers : N → StreamTaskManager H}
    (unused : ∀ id, redis.entries (cfg.key id) = none) (empty : ∀ n, (managers n).tasks = ∅) :
    Guarded cfg [] (initial cfg now redis managers) where
  entries n taskId info found := by
    change info ∈ (managers n).tasks.lookup taskId at found
    rw [empty] at found
    cases found
  stored id entry found := by
    change entry ∈ redis.entries (cfg.key id) at found
    rw [unused] at found
    cases found
  calls call member := absurd member List.not_mem_nil
  orphans command member := absurd member List.not_mem_nil
  inboxes n message member := absurd member List.not_mem_nil

end Guarded

section OnlyOwner

variable [DecidableEq N]

/-- The task is cancelled on a node, or its marker is there. -/
def State.Stopped (cfg : Config) (s : State N H) (taskId : String) : Prop :=
  (∃ n, ∃ info ∈ (s.nodes n).manager.tasks.lookup taskId, info.cancelled = true) ∨
    ∃ entry, s.redis.entries (cfg.key taskId) = some entry

/-- The id that the event registers. -/
def Event.registers : Event N H → Option String
  | .register _ taskId _ => some taskId
  | _ => none

omit [DecidableEq N] in
/-- Fresh ids are registered once. -/
theorem register_unique {es : List (Event N H)} (fresh : (es.filterMap Event.registers).Nodup)
    {n m : N} {ownerId ownerId' : Option String} (registered : .register n taskId ownerId ∈ es)
    (registered' : .register m taskId ownerId' ∈ es) : ownerId = ownerId' := by
  induction es with
  | nil => cases registered
  | cons e es ih =>
    have later {n : N} {owner : Option String} (listed : .register n taskId owner ∈ es) :
        taskId ∈ es.filterMap Event.registers := List.mem_filterMap.mpr ⟨_, listed, rfl⟩
    rcases List.mem_cons.mp registered with rfl | listed
    · rcases List.mem_cons.mp registered' with same | listed'
      · cases same
        rfl
      · exact absurd (later listed') (List.nodup_cons.mp fresh).1
    · rcases List.mem_cons.mp registered' with rfl | listed'
      · exact absurd (later listed) (List.nodup_cons.mp fresh).1
      · exact ih (fresh.sublist ((List.sublist_cons_self e es).filterMap _)) listed listed'

/-- A task is cancelled or marked only after the service has asked for it, or somebody who names the
owner that it was registered with. -/
theorem stopped_by_owner {now : ℚ} {redis : Strings} {managers : N → StreamTaskManager H}
    {es : List (Event N H)} {n : N} {owner : String}
    (unused : ∀ id, redis.entries (cfg.key id) = none) (empty : ∀ n, (managers n).tasks = ∅)
    (fresh : (es.filterMap Event.registers).Nodup) (issued : ∀ e ∈ es, e.Issued)
    (taken : runFrom (step cfg) (initial cfg now redis managers) es = some s)
    (registered : .register n taskId (some owner) ∈ es) (stopped : s.Stopped cfg taskId) :
    (∃ m, .cancel m taskId none ∈ es) ∨
      ∃ m ownerId, .cancel m taskId (some ownerId) ∈ es ∧
        Python.strip ownerId = Python.strip owner := by
  have inv := (Guarded.initial unused empty).run issued taken
  have plain : Plain taskId := (issued _ registered).1
  have authorised : Authorised es taskId := by
    rcases stopped with ⟨m, info, found, cancelled⟩ | ⟨entry, found⟩
    · exact (inv.entries m taskId info found).2 cancelled
    · rcases inv.stored taskId entry found with authorised | ⟨other, rfl, -⟩
      · exact authorised
      · exact absurd plain (not_plain_owner other)
  rcases authorised with internal | ⟨m, ownerId, requested, ⟨k, owner', registered', same⟩⟩
  · exact .inl internal
  · obtain rfl := Option.some.inj (register_unique fresh registered registered')
    exact .inr ⟨m, ownerId, requested, same⟩

end OnlyOwner

/-- Two nodes; a stream is cancelled from the other one, by its owner with a blank around the name. -/
def ownedRun : List (Event Bool Unit) :=
  [.subscribe false, .register false "task_1" (some "u"), .execute 0, .reply 0, .execute 0,
    .reply 0, .cancel true "task_1" (some " u"), .execute 1, .reply 1, .execute 1, .reply 1,
    .execute 1, .reply 1, .deliver false]

theorem ownedRun_by_owner : ∃ s,
    runFrom (step {}) (initial {} 0 {} fun _ => {}) ownedRun = some s ∧ s.Stopped {} "task_1" ∧
      ((∃ m, .cancel m "task_1" none ∈ ownedRun) ∨
        ∃ m ownerId, .cancel m "task_1" (some ownerId) ∈ ownedRun ∧
          Python.strip ownerId = Python.strip "u") := by
  have marks : (runFrom (step {}) (initial {} 0 {} fun _ => {}) ownedRun).any (fun s =>
      (s.redis.entries (Config.key {} "task_1")).isSome) = true := by
    decide +kernel
  obtain ⟨s, run, marked⟩ := (Option.any_eq_true _ _).mp marks
  obtain ⟨entry, found⟩ := Option.isSome_iff_exists.mp marked
  have stopped : s.Stopped {} "task_1" := .inr ⟨entry, found⟩
  have issued : ∀ e ∈ ownedRun, e.Issued := by
    intro e listed
    simp only [ownedRun, List.mem_cons, List.not_mem_nil, or_false] at listed
    rcases listed with rfl | rfl | rfl | rfl | rfl | rfl | rfl | rfl | rfl | rfl | rfl | rfl | rfl | rfl
    case inr.inl => exact ⟨by decide +kernel, "u", rfl, by decide +kernel⟩
    all_goals trivial
  exact ⟨s, run, stopped, stopped_by_owner (fun _ => rfl) (fun _ => rfl) (by decide) issued run
    (List.mem_cons_of_mem _ List.mem_cons_self) stopped⟩

end HeyeeAgent.StreamCancellation
