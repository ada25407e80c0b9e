import HeyeeAgent.StreamCancellation.Missed

/-! # Runs that lose no news of a cancel

While a stream can only be stopped by a broadcast and its marker is there, the broadcast is still to
come or waits in the inbox of the node. Each kind of step keeps that, unless it is one of those that
lose the news, so no cancel is missed in a run that has none of them.
-/

namespace HeyeeAgent.StreamCancellation

open Machine Redis StreamTaskManager State

variable {N H : Type} {cfg : Config} {s t : State N H}

theorem Config.key_injective : Function.Injective cfg.key := by
  intro a b same
  unfold Config.key at same
  have lists := congrArg String.toList same
  simp only [String.toList_append, List.append_cancel_left_eq] at lists
  exact String.toList_injective lists

theorem Config.key_ne_ownerKey {taskId : String} (plain : Plain taskId) (other : String) :
    cfg.key taskId ≠ cfg.ownerKey other := by
  intro same
  apply plain.2.2
  unfold Config.key Config.ownerKey at same
  have split : (":owner:" : String) = ":" ++ "owner:" := by decide
  rw [split] at same
  have lists := congrArg String.toList same
  simp only [String.toList_append, List.append_assoc, List.append_cancel_left_eq] at lists
  exact ⟨other.toList, lists.symm⟩

/-- The command sets no marker and tells nobody. -/
def Command.Quiet (cfg : Config) : Command → Prop
  | .set _ _ | .publish _ => False
  | .setNx key _ => ∃ taskId, key = cfg.ownerKey taskId
  | .get _ | .delete _ => True

/-- The command in flight is that of the await where the call is suspended. -/
def Call.Sent (cfg : Config) (call : Call N) : Prop :=
  match call.body with
  | .stream _ taskId _ .marker => ∃ reply, call.flight = some ⟨.get (cfg.key taskId), reply⟩
  | .cancel _ taskId .marking => ∃ reply, call.flight = some ⟨.set (cfg.key taskId) "1", reply⟩
  | .cancel _ taskId (.publishing _) => ∃ reply, call.flight = some ⟨.publish taskId, reply⟩
  | _ => ∀ flight ∈ call.flight, flight.command.Quiet cfg

theorem Call.Sent.ownerKey {call : Call N} (sent : call.Sent cfg) {key value : String}
    {reply : Option (Option String)} (flying : call.flight = some ⟨.setNx key value, reply⟩) :
    ∃ taskId, key = cfg.ownerKey taskId := by
  obtain ⟨body, flight⟩ := call
  unfold Call.Sent at sent
  dsimp only at flying sent
  subst flying
  split at sent
  · obtain ⟨_, impossible⟩ := sent
    cases impossible
  · obtain ⟨_, impossible⟩ := sent
    cases impossible
  · obtain ⟨_, impossible⟩ := sent
    cases impossible
  · exact sent _ rfl

theorem Call.announced_of_registered {call : Call N} {place : N × String}
    (registered : call.registered = some place) : call.announced = none := by
  obtain ⟨body, flight⟩ := call
  cases body with
  | stream n taskId ownerId pc => rfl
  | cancel n taskId pc => cases registered

/-- Between the server's acceptance of a marker and the broadcast, and from a broadcast to its
arrival, every stream that only the broadcast can stop is covered. -/
structure Informed (cfg : Config) (s : State N H) : Prop where
  ttl : ∀ n, 0 < (s.nodes n).manager.cancelledTtlSeconds
  sent : ∀ call ∈ s.calls, call.Sent cfg
  orphans : ∀ key value, Command.setNx key value ∈ s.orphans → ∃ taskId, key = cfg.ownerKey taskId
  plain : ∀ call ∈ s.calls, ∀ n taskId, call.registered = some (n, taskId) → Plain taskId
  holds : ∀ call ∈ s.calls, ∀ n taskId, call.registered = some (n, taskId) → s.Holds n taskId
  /-- one call for each entry -/
  single : ∀ (c c' : ℕ) (call call' : Call N) (place : N × String),
    s.calls[c]? = some call → s.calls[c']? = some call' →
      call.registered = some place → call'.registered = some place → c = c'
  covered : ∀ n taskId, s.Exposed cfg n taskId → s.Told n taskId

namespace Informed

/-- A step that leaves the calls alone. -/
theorem of_calls (inv : Informed cfg s) (calls : t.calls = s.calls)
    (ttl : ∀ n, 0 < (t.nodes n).manager.cancelledTtlSeconds)
    (orphans : ∀ command ∈ t.orphans, command ∈ s.orphans)
    (holds : ∀ call ∈ s.calls, ∀ n taskId, call.registered = some (n, taskId) → t.Holds n taskId)
    (covered : ∀ n taskId, t.Exposed cfg n taskId → t.Told n taskId) : Informed cfg t where
  ttl := ttl
  sent call member := inv.sent call (calls ▸ member)
  orphans key value member := inv.orphans key value (orphans _ member)
  plain call member := inv.plain call (calls ▸ member)
  holds call member := holds call (calls ▸ member)
  single c c' call call' place := by
    rw [calls]
    exact inv.single c c' call call' place
  covered := covered

/-- The server's data change: a marker appears only where somebody has announced it. -/
theorem redis (inv : Informed cfg s) {redis : Strings}
    (marked : ∀ n taskId, Plain taskId → ({ s with redis } : State N H).Exposed cfg n taskId →
      s.marked cfg taskId = true ∨ s.Told n taskId) : Informed cfg { s with redis } := by
  refine inv.of_calls rfl inv.ttl (fun _ member => member) inv.holds ?_
  rintro n taskId ⟨⟨call, member, watched⟩, there, unaware⟩
  have plain := inv.plain call member n taskId (Call.registered_of_watched watched)
  rcases marked n taskId plain ⟨⟨call, member, watched⟩, there, unaware⟩ with before | told
  · exact inv.covered n taskId ⟨⟨call, member, watched⟩, before, unaware⟩
  · exact told

theorem abandon (inv : Informed cfg s) {call : Call N} (member : call ∈ s.calls) :
    Informed cfg (s.abandon call.flight) := by
  unfold State.abandon
  split
  · next command flying =>
    refine { inv with orphans := ?_ }
    intro key value listed
    rcases List.mem_append.mp listed with before | last
    · exact inv.orphans key value before
    · obtain rfl := List.mem_singleton.mp last
      exact (inv.sent call member).ownerKey flying
  · exact inv

theorem mem_set_of_mem {call other : Call N} {calls : List (Call N)} {c : ℕ}
    (found : calls[c]? = some call) (member : other ∈ calls) (call' : Call N) :
    other = call ∨ other ∈ calls.set c call' := by
  obtain ⟨i, bound, rfl⟩ := List.mem_iff_getElem.mp member
  by_cases same : i = c
  · subst same
    left
    rw [List.getElem?_eq_getElem bound] at found
    exact Option.some.inj found
  · right
    apply List.mem_of_getElem? (i := i)
    rw [List.getElem?_set_ne (Ne.symm same), List.getElem?_eq_getElem bound]

/-- The call at an index goes on. -/
theorem set (inv : Informed cfg s) {c : ℕ} {call call' : Call N}
    (found : s.calls[c]? = some call) (sent : call'.Sent cfg)
    (registered : ∀ place, call'.registered = some place → call.registered = some place)
    (watched : ∀ n taskId, call'.watched = some (n, taskId) → s.marked cfg taskId = true →
      s.aware n taskId = false → s.Told n taskId)
    (announced : ∀ taskId, call.announced = some taskId → call'.announced = some taskId ∨
      ForExposed cfg s fun n other => other = taskId → other ∈ (s.nodes n).inbox) :
    Informed cfg { s with calls := s.calls.set c call' } := by
  have member := List.mem_of_getElem? found
  have below : c < s.calls.length := (List.getElem?_eq_some_iff.mp found).1
  have here : call' ∈ s.calls.set c call' := List.mem_set below call'
  refine ⟨inv.ttl, ?_, inv.orphans, ?_, ?_, ?_, ?_⟩
  · intro other listed
    rcases List.mem_or_eq_of_mem_set listed with before | rfl
    · exact inv.sent other before
    · exact sent
  · intro other listed n taskId place
    rcases List.mem_or_eq_of_mem_set listed with before | rfl
    · exact inv.plain other before n taskId place
    · exact inv.plain call member n taskId (registered _ place)
  · intro other listed n taskId place
    rcases List.mem_or_eq_of_mem_set listed with before | rfl
    · exact inv.holds other before n taskId place
    · exact inv.holds call member n taskId (registered _ place)
  · -- the changed call keeps its place, so the entries are still told apart by their calls
    have origin : ∀ (i : ℕ) (other : Call N) (place : N × String),
        (s.calls.set c call')[i]? = some other → other.registered = some place →
          ∃ before, s.calls[i]? = some before ∧ before.registered = some place := by
      intro i other place listed placed
      by_cases same : i = c
      · subst same
        rw [List.getElem?_set_self below, Option.some.injEq] at listed
        subst listed
        exact ⟨call, found, registered place placed⟩
      · rw [List.getElem?_set_ne (Ne.symm same)] at listed
        exact ⟨other, listed, placed⟩
    intro i j first second place atI atJ placedI placedJ
    obtain ⟨_, atI', placedI'⟩ := origin i first place atI placedI
    obtain ⟨_, atJ', placedJ'⟩ := origin j second place atJ placedJ
    exact inv.single i j _ _ place atI' atJ' placedI' placedJ'
  · rintro n taskId ⟨⟨other, listed, watching⟩, marked, unaware⟩
    have told : s.Told n taskId := by
      rcases List.mem_or_eq_of_mem_set listed with before | rfl
      · exact inv.covered n taskId ⟨⟨other, before, watching⟩, marked, unaware⟩
      · exact watched n taskId watching marked unaware
    rcases told with arrived | ⟨caller, calling, broadcast⟩
    · exact .inl arrived
    · rcases mem_set_of_mem found calling call' with rfl | kept
      · rcases announced taskId broadcast with again | everywhere
        · exact .inr ⟨call', here, again⟩
        · left
          rcases List.mem_or_eq_of_mem_set listed with before | rfl
          · exact everywhere other before (n, taskId) watching marked unaware rfl
          · -- a call that announces is no stream
            have placed := registered _ (Call.registered_of_watched watching)
            rw [Call.announced_of_registered placed] at broadcast
            cases broadcast
      · exact .inr ⟨caller, kept, broadcast⟩

/-- A call starts. -/
theorem append (inv : Informed cfg s) {call : Call N} (sent : call.Sent cfg)
    (unwatched : call.watched = none)
    (fresh : ∀ n taskId, call.registered = some (n, taskId) → Plain taskId ∧ s.Holds n taskId ∧
      ∀ other ∈ s.calls, other.registered ≠ some (n, taskId)) :
    Informed cfg { s with calls := s.calls ++ [call] } := by
  have cases_mem : ∀ other ∈ s.calls ++ [call], other ∈ s.calls ∨ other = call := by
    intro other listed
    rcases List.mem_append.mp listed with before | last
    · exact .inl before
    · exact .inr (List.mem_singleton.mp last)
  refine ⟨inv.ttl, ?_, inv.orphans, ?_, ?_, ?_, ?_⟩
  · intro other listed
    rcases cases_mem other listed with before | rfl
    · exact inv.sent other before
    · exact sent
  · intro other listed n taskId place
    rcases cases_mem other listed with before | rfl
    · exact inv.plain other before n taskId place
    · exact (fresh n taskId place).1
  · intro other listed n taskId place
    rcases cases_mem other listed with before | rfl
    · exact inv.holds other before n taskId place
    · exact (fresh n taskId place).2.1
  · intro i j first second place atI atJ placedI placedJ
    have position : ∀ (i : ℕ) (other : Call N), (s.calls ++ [call])[i]? = some other →
        s.calls[i]? = some other ∨ i = s.calls.length ∧ other = call := by
      intro i other listed
      rcases lt_or_ge i s.calls.length with before | after
      · left
        rwa [List.getElem?_append_left before] at listed
      · right
        rw [List.getElem?_append_right after] at listed
        obtain ⟨bound, same⟩ := List.getElem?_eq_some_iff.mp listed
        simp only [List.length_singleton] at bound
        have last : i = s.calls.length := by omega
        subst last
        simpa [eq_comm] using same
    rcases position i first atI with atI' | ⟨rfl, rfl⟩ <;>
      rcases position j second atJ with atJ' | ⟨rfl, rfl⟩
    · exact inv.single i j first second place atI' atJ' placedI placedJ
    · exact absurd placedI ((fresh place.1 place.2 placedJ).2.2 first (List.mem_of_getElem? atI'))
    · exact absurd placedJ ((fresh place.1 place.2 placedI).2.2 second (List.mem_of_getElem? atJ'))
    · rfl
  · rintro n taskId ⟨⟨other, listed, watching⟩, marked, unaware⟩
    rcases cases_mem other listed with before | rfl
    · rcases inv.covered n taskId ⟨⟨other, before, watching⟩, marked, unaware⟩ with
        arrived | ⟨caller, calling, broadcast⟩
      · exact .inl arrived
      · exact .inr ⟨caller, List.mem_append_left _ calling, broadcast⟩
    · rw [unwatched] at watching
      cases watching

/-- A call goes on that no broadcast has to stop, and that has none to make. -/
theorem quiet (inv : Informed cfg s) {c : ℕ} {call call' : Call N}
    (found : s.calls[c]? = some call) (sent : call'.Sent cfg)
    (registered : ∀ place, call'.registered = some place → call.registered = some place)
    (unwatched : call'.watched = none) (silent : call.announced = none) :
    Informed cfg { s with calls := s.calls.set c call' } := by
  apply inv.set found sent registered
  · intro n taskId watched
    rw [unwatched] at watched
    cases watched
  · intro taskId announced
    rw [silent] at announced
    cases announced

/-- A broadcast reaches the nodes that are subscribed. -/
theorem publish (inv : Informed cfg s) (message : String) :
    Informed cfg (execute cfg s (.publish message)).1 ∧
      ∀ n, ((execute cfg s (.publish message)).1.nodes n).manager = (s.nodes n).manager ∧
        ∀ taskId, taskId ∈ (s.nodes n).inbox ∨ taskId = message ∧ (s.nodes n).subscribed = true →
          taskId ∈ ((execute cfg s (.publish message)).1.nodes n).inbox := by
  have node (n : N) : ((execute cfg s (.publish message)).1.nodes n).manager =
      (s.nodes n).manager ∧ ∀ taskId,
        taskId ∈ (s.nodes n).inbox ∨ taskId = message ∧ (s.nodes n).subscribed = true →
          taskId ∈ ((execute cfg s (.publish message)).1.nodes n).inbox := by
    unfold execute
    dsimp only
    split_ifs with subscribed
    · refine ⟨rfl, ?_⟩
      rintro taskId (before | ⟨rfl, -⟩)
      · exact List.mem_append_left _ before
      · exact List.mem_append_right _ (List.mem_singleton_self _)
    · refine ⟨rfl, ?_⟩
      rintro taskId (before | ⟨-, impossible⟩)
      · exact before
      · exact absurd impossible subscribed
  refine ⟨?_, node⟩
  apply inv.of_calls (t := (execute cfg s (.publish message)).1) rfl
  · intro n
    rw [(node n).1]
    exact inv.ttl n
  · exact fun _ member => member
  · intro call member n taskId registered
    unfold State.Holds
    rw [(node n).1]
    exact inv.holds call member n taskId registered
  · rintro n taskId ⟨watching, marked, unaware⟩
    unfold State.aware at unaware
    rw [(node n).1] at unaware
    rcases inv.covered n taskId ⟨watching, marked, unaware⟩ with arrived | coming
    · exact .inl ((node n).2 taskId (.inl arrived))
    · exact .inr coming

/-- A command that is quiet, wherever it comes from. -/
theorem execute_quiet (inv : Informed cfg s) {command : Command} (quiet : command.Quiet cfg) :
    Informed cfg (execute cfg s command).1 := by
  cases command with
  | set key value => cases quiet
  | publish message => cases quiet
  | get key => exact inv
  | setNx key value =>
    obtain ⟨other, rfl⟩ := quiet
    apply inv.redis
    rintro n taskId plain ⟨-, marked, -⟩
    left
    unfold State.marked at marked ⊢
    have same : (execute cfg s (.setNx (cfg.ownerKey other) value)).1.redis.get s.now
        (cfg.key taskId) = s.redis.get s.now (cfg.key taskId) :=
      Strings.get_setNx_ne (Config.key_ne_ownerKey plain other) _ _
    rwa [← same]
  | delete key =>
    apply inv.redis
    rintro n taskId plain ⟨-, marked, -⟩
    left
    unfold State.marked at marked ⊢
    cases found : (s.redis.delete key).get s.now (cfg.key taskId) with
    | none =>
      change ((s.redis.delete key).get s.now (cfg.key taskId)).any (· ≠ "") = true at marked
      rw [found] at marked
      cases marked
    | some value =>
      change ((s.redis.delete key).get s.now (cfg.key taskId)).any (· ≠ "") = true at marked
      rwa [Strings.get_of_delete found, ← found]

/-- The marker is set while everybody who waits for it has been told, or will be. -/
theorem execute_set (inv : Informed cfg s) {key value : String}
    (told : ∀ n taskId, cfg.key taskId = key → (∃ call ∈ s.calls, call.watched = some (n, taskId)) →
      s.aware n taskId = false → s.Told n taskId) :
    Informed cfg (execute cfg s (.set key value)).1 := by
  apply inv.redis
  rintro n taskId plain ⟨watching, marked, unaware⟩
  by_cases same : cfg.key taskId = key
  · exact .inr (told n taskId same watching unaware)
  · left
    unfold State.marked at marked ⊢
    rwa [Strings.get_set_ne same] at marked

theorem execute_calls (cfg : Config) (command : Command) :
    (execute cfg s command).1.calls = s.calls := by
  cases command <;> rfl

/-- The server executes the command of a call. -/
theorem executed (inv : Informed cfg s) {c : ℕ} {body : Body N} {command : Command}
    (found : s.calls[c]? = some ⟨body, some ⟨command, none⟩⟩)
    (heard : ExecutionHeard cfg s false command) :
    Informed cfg { (execute cfg s command).1 with
      calls := (execute cfg s command).1.calls.set c
        ⟨body, some ⟨command, some (execute cfg s command).2⟩⟩ } := by
  have sent := inv.sent _ (List.mem_of_getElem? found)
  have below : c < s.calls.length := (List.getElem?_eq_some_iff.mp found).1
  cases body with
  | cancel n taskId pc =>
    cases pc with
    | marking =>
      obtain ⟨_, flying⟩ := sent
      cases flying
      -- from here on the call announces the id
      let call' : Call N :=
        ⟨.cancel n taskId .marking, some ⟨.set (cfg.key taskId) "1", some (some "OK")⟩⟩
      have announcing : Informed cfg { s with calls := s.calls.set c call' } := by
        apply inv.quiet found
        · exact ⟨_, rfl⟩
        · exact fun _ registered => registered
        · rfl
        · rfl
      apply announcing.execute_set
      intro m other same _ _
      obtain rfl := Config.key_injective same
      exact .inr ⟨_, List.mem_set below _, rfl⟩
    | publishing persisted =>
      obtain ⟨_, flying⟩ := sent
      cases flying
      obtain ⟨published, node⟩ := inv.publish taskId
      apply published.set found
      · exact ⟨_, rfl⟩
      · exact fun _ registered => registered
      · intro m other watched
        cases watched
      · intro other announced
        obtain rfl : taskId = other := Option.some.inj announced
        right
        rintro call member ⟨m, other⟩ watched marked unaware rfl
        apply (node m).2
        unfold State.aware at unaware
        dsimp only at unaware
        rw [(node m).1] at unaware
        rcases heard call member (m, other) watched marked unaware rfl with subscribed | arrived
        · exact .inr ⟨rfl, subscribed⟩
        · exact .inl arrived
    | _ =>
      have quiet : command.Quiet cfg := sent _ rfl
      apply (inv.execute_quiet quiet).quiet ((congrArg (·[c]?) (execute_calls cfg command)).trans found)
      · intro flight flying
        cases flying
        exact quiet
      · exact fun _ registered => registered
      · rfl
      · rfl
  | stream n taskId ownerId pc =>
    cases pc with
    | marker =>
      obtain ⟨_, flying⟩ := sent
      cases flying
      apply inv.set found
      · exact ⟨_, rfl⟩
      · exact fun _ registered => registered
      · intro m other watched marked _
        change (if (s.redis.get s.now (cfg.key taskId)).any (· ≠ "") then none
          else some (n, taskId)) = some (m, other) at watched
        split_ifs at watched with absent
        cases watched
        exact absurd marked absent
      · intro other announced
        cases announced
    | _ =>
      have quiet : command.Quiet cfg := sent _ rfl
      apply (inv.execute_quiet quiet).set ((congrArg (·[c]?) (execute_calls cfg command)).trans found)
      · intro flight flying
        cases flying
        exact quiet
      · exact fun _ registered => registered
      · intro m other watched marked unaware
        apply (inv.execute_quiet quiet).covered
        have member := List.mem_of_getElem? found
        rw [← execute_calls cfg command] at member
        exact ⟨⟨_, member, watched⟩, marked, unaware⟩
      · intro other announced
        cases announced

variable [DecidableEq N]

/-- A registry changes and carries the entries of the streams of its node. -/
theorem setManager (inv : Informed cfg s) (n : N) {manager : StreamTaskManager H}
    (ttl : 0 < manager.cancelledTtlSeconds)
    (carries : ∀ call ∈ s.calls, ∀ taskId, call.registered = some (n, taskId) →
      Carries s.now (s.nodes n).manager manager taskId) :
    Informed cfg (s.setManager n manager) := by
  have other : ∀ m, m ≠ n → (s.setManager n manager).nodes m = s.nodes m := fun m different =>
    Function.update_of_ne different _ _
  have self : (s.setManager n manager).nodes n = { s.nodes n with manager } :=
    Function.update_self _ _ _
  have inboxes : ∀ m, ((s.setManager n manager).nodes m).inbox = (s.nodes m).inbox := by
    intro m
    by_cases same : m = n
    · subst same
      rw [self]
    · rw [other m same]
  apply inv.of_calls (t := s.setManager n manager) rfl
  · intro m
    by_cases same : m = n
    · subst same
      rw [self]
      exact ttl
    · rw [other m same]
      exact inv.ttl m
  · exact fun _ member => member
  · intro call member m taskId registered
    obtain ⟨info, found, fresh⟩ := inv.holds call member m taskId registered
    by_cases same : m = n
    · subst same
      obtain ⟨info', found', fresh', -⟩ := carries call member taskId registered info found fresh
      refine ⟨info', ?_, fresh'⟩
      rw [self]
      exact found'
    · refine ⟨info, ?_, fresh⟩
      rw [other m same]
      exact found
  · rintro m taskId ⟨⟨call, member, watched⟩, marked, unaware⟩
    have registered := Call.registered_of_watched watched
    have unaware' : s.aware m taskId = false := by
      by_cases same : m = n
      · subst same
        rw [Bool.eq_false_iff] at unaware ⊢
        intro aware
        apply unaware
        unfold State.aware at aware ⊢
        rw [self]
        obtain ⟨info, found, fresh, cancelled⟩ := isCancelled_iff.mp aware
        obtain ⟨info', found', fresh', kept⟩ := carries call member taskId registered info found fresh
        exact isCancelled_iff.mpr ⟨info', found', fresh', kept cancelled⟩
      · unfold State.aware at unaware ⊢
        rwa [other m same] at unaware
    rcases inv.covered m taskId ⟨⟨call, member, watched⟩, marked, unaware'⟩ with arrived | coming
    · left
      rwa [inboxes]
    · exact .inr coming

theorem aware_cancelLocal {n : N} {taskId : String}
    (ttl : 0 < (s.nodes n).manager.cancelledTtlSeconds) (holds : s.Holds n taskId) :
    (s.cancelLocal n taskId).aware n taskId = true := by
  have self : ((s.cancelLocal n taskId).nodes n).manager =
      ((s.nodes n).manager.cancelLocal s.now taskId).1 :=
    congrArg Node.manager (Function.update_self n _ s.nodes)
  unfold State.aware
  rw [self]
  exact isCancelled_cancelLocal ttl holds

theorem cancelLocal (inv : Informed cfg s) (n : N) (taskId : String) :
    Informed cfg (s.cancelLocal n taskId) := by
  apply inv.setManager n
  · rw [ttl_cancelLocal]
    exact inv.ttl n
  · intro _ _ _ _
    exact carries_cancelLocal (inv.ttl n)

/-- A stream leaves the registry with its entry. -/
theorem set_setManager (inv : Informed cfg s) {c : ℕ} {call call' : Call N} {n : N}
    {taskId : String} (found : s.calls[c]? = some call)
    (place : call.registered = some (n, taskId)) (sent : call'.Sent cfg)
    (left : call'.registered = none) {manager : StreamTaskManager H}
    (ttl : 0 < manager.cancelledTtlSeconds)
    (carries : ∀ other, other ≠ taskId → Carries s.now (s.nodes n).manager manager other) :
    Informed cfg (({ s with calls := s.calls.set c call' } : State N H).setManager n manager) := by
  have unwatched : ∀ m other, call'.watched ≠ some (m, other) := by
    intro m other watched
    rw [Call.registered_of_watched watched] at left
    cases left
  have moved := inv.set found sent (fun _ registered => by rw [left] at registered; cases registered)
    (fun m other watched => absurd watched (unwatched m other))
    (fun other announced => by rw [Call.announced_of_registered place] at announced; cases announced)
  apply moved.setManager n ttl
  intro other listed taskId' registered
  apply carries
  rintro rfl
  obtain ⟨i, bound, rfl⟩ := List.mem_iff_getElem.mp listed
  by_cases same : i = c
  · subst same
    rw [List.getElem_set_self, left] at registered
    cases registered
  · rw [List.getElem_set_ne (Ne.symm same)] at registered
    rw [List.length_set] at bound
    exact same (inv.single i c _ call _ (List.getElem?_eq_getElem bound) found registered place)

/-- `cancel` ends; its broadcast is over, or was not needed. -/
theorem endCancel (inv : Informed cfg s) {c : ℕ} {call : Call N} {n : N} {taskId : String}
    {persisted published : Bool} (found : s.calls[c]? = some call)
    (announced : ∀ taskId, call.announced = some taskId →
      ForExposed cfg s fun n other => other = taskId → other ∈ (s.nodes n).inbox) :
    Informed cfg (s.endCancel c n taskId persisted published) := by
  let returned : Call N := ⟨.cancel n taskId (.returned persisted
    (((s.nodes n).manager.cancelLocal s.now taskId).2.1 || persisted || published)), none⟩
  have moved : Informed cfg { s with calls := s.calls.set c returned } :=
    inv.set found (by intro flight flying; cases flying)
      (fun _ registered => by cases registered) (fun _ _ watched => by cases watched)
      (fun taskId calling => .inr (announced taskId calling))
  exact moved.cancelLocal n taskId

theorem failed (inv : Informed cfg s) {c : ℕ} {call : Call N} (found : s.calls[c]? = some call)
    (heard : AbandonHeard cfg s false call)
    (taken : failed cfg s c call.body = some t) : Informed cfg t := by
  obtain ⟨body, flight⟩ := call
  cases body with
  | stream n taskId ownerId pc =>
    cases pc with
    | owner | ownerGet =>
      cases taken
      apply inv.set_setManager found rfl
      · intro flight flying
        cases flying
      · rfl
      · exact inv.ttl n
      · exact fun _ other => carries_erase other
    | marker =>
      cases taken
      apply inv.set found
      · intro flight flying
        cases flying
      · exact fun _ registered => registered
      · intro m other watched marked unaware
        obtain ⟨rfl, rfl⟩ : n = m ∧ taskId = other := by simpa [Call.watched] using watched
        rcases heard rfl marked with aware | told
        · rw [unaware] at aware
          cases aware
        · exact told
      · intro other announced
        cases announced
    | clearing | clearingOwner =>
      cases taken
      apply inv.quiet found
      · intro flight flying
        cases flying
        try trivial
      · intro place registered
        cases registered
      · rfl
      · rfl
    | _ => cases taken
  | cancel n taskId pc =>
    cases pc with
    | owned ownerId =>
      cases taken
      apply inv.quiet found
      · intro flight flying
        cases flying
      · intro place registered
        cases registered
      · rfl
      · rfl
    | marking =>
      cases taken
      apply inv.set found
      · exact ⟨_, rfl⟩
      · intro place registered
        cases registered
      · intro m other watched
        cases watched
      · intro other announced
        left
        rcases flight with _ | ⟨command, _ | reply⟩
        · cases announced
        · cases announced
        · exact announced
    | publishing persisted =>
      cases taken
      apply inv.endCancel found
      intro other announced
      rcases flight with _ | ⟨command, _ | reply⟩
      · cases announced
      · obtain rfl : taskId = other := Option.some.inj announced
        exact heard rfl
      · cases announced
    | _ => cases taken

omit [DecidableEq N] in
theorem interrupted (inv : Informed cfg s) {c : ℕ} {call : Call N} (found : s.calls[c]? = some call)
    (heard : AbandonHeard cfg s true call) (taken : interrupted s c call.body = some t) :
    Informed cfg t := by
  obtain ⟨body, flight⟩ := call
  cases body with
  | stream n taskId ownerId pc =>
    have raised : Informed cfg (s.put c (.stream n taskId ownerId .raised)) := by
      apply inv.set found
      · intro flight flying
        cases flying
      · intro place registered
        cases registered
      · intro m other watched
        cases watched
      · intro other announced
        cases announced
    cases pc <;> cases taken <;> exact raised
  | cancel n taskId pc =>
    have raised (silent : ∀ other, (⟨.cancel n taskId pc, flight⟩ : Call N).announced = some other →
        ForExposed cfg s fun n id => id = other → id ∈ (s.nodes n).inbox) :
        Informed cfg (s.put c (.cancel n taskId .raised)) := by
      apply inv.set found
      · intro flight flying
        cases flying
      · intro place registered
        cases registered
      · intro m other watched
        cases watched
      · exact fun other announced => .inr (silent other announced)
    cases pc with
    | owned ownerId =>
      cases taken
      apply raised
      intro other announced
      cases announced
    | marking =>
      cases taken
      apply raised
      intro other announced
      have same : taskId = other := by
        rcases flight with _ | ⟨command, _ | reply⟩
        · cases announced
        · cases announced
        · exact Option.some.inj announced
      subst same
      exact heard rfl announced
    | publishing persisted =>
      cases taken
      apply raised
      intro other announced
      have same : taskId = other := by
        rcases flight with _ | ⟨command, _ | reply⟩
        · cases announced
        · exact Option.some.inj announced
        · cases announced
      subst same
      exact heard announced
    | _ => cases taken

theorem replied (inv : Informed cfg s) {c : ℕ} {body : Body N} {command : Command}
    {reply : Option String} (found : s.calls[c]? = some ⟨body, some ⟨command, some reply⟩⟩)
    (taken : replied cfg s c reply body = some t) : Informed cfg t := by
  -- a stream before its read of the marker, which goes on to send it
  have reads (n : N) (taskId : String) (ownerId : Option String) (pc : StreamPc)
      (live : pc.live = true) (same : body = .stream n taskId ownerId pc) :
      Informed cfg (s.send c (.stream n taskId ownerId .marker) (.get (cfg.key taskId))) := by
    subst same
    apply inv.quiet found
    · exact ⟨_, rfl⟩
    · intro place registered
      rw [← registered]
      exact if_pos live
    · rfl
    · rfl
  cases body with
  | stream n taskId ownerId pc =>
    cases pc with
    | owner =>
      cases ownerId with
      | none => cases taken
      | some owner =>
        cases taken
        split_ifs
        · exact reads n taskId (some owner) .owner rfl rfl
        · apply inv.quiet found
          · intro flight flying
            cases flying
            trivial
          · exact fun _ registered => registered
          · rfl
          · rfl
    | ownerGet =>
      cases ownerId with
      | none => cases taken
      | some owner =>
        cases taken
        split_ifs
        · exact reads n taskId (some owner) .ownerGet rfl rfl
        · apply inv.set_setManager found rfl
          · intro flight flying
            cases flying
          · rfl
          · exact inv.ttl n
          · exact fun _ other => carries_erase other
    | marker =>
      simp only [StreamCancellation.replied, Option.some.injEq] at taken
      subst taken
      by_cases truthy : reply.any (· ≠ "") = true
      · -- the marker was there: the stream is cancelled before it is served
        rw [if_pos truthy]
        have holds := inv.holds _ (List.mem_of_getElem? found) n taskId rfl
        apply (inv.cancelLocal n taskId).set found
        · intro flight flying
          cases flying
        · exact fun _ registered => registered
        · intro m other watched _ unaware
          obtain ⟨rfl, rfl⟩ : n = m ∧ taskId = other := by simpa [Call.watched] using watched
          rw [aware_cancelLocal (inv.ttl n) holds] at unaware
          cases unaware
        · intro other announced
          cases announced
      · rw [if_neg truthy]
        apply inv.set found
        · intro flight flying
          cases flying
        · exact fun _ registered => registered
        · intro m other watched marked unaware
          apply inv.covered
          refine ⟨⟨_, List.mem_of_getElem? found, ?_⟩, marked, unaware⟩
          change (if reply.any (· ≠ "") then none else some (n, taskId)) = _
          rw [if_neg truthy]
          exact watched
        · intro other announced
          cases announced
    | clearing | clearingOwner =>
      simp only [StreamCancellation.replied, Option.some.injEq] at taken
      subst taken
      apply inv.quiet found
      · intro flight flying
        cases flying
        try trivial
      · intro place registered
        cases registered
      · rfl
      · rfl
    | _ => simp [StreamCancellation.replied] at taken
  | cancel n taskId pc =>
    cases pc with
    | owned ownerId =>
      cases taken
      split_ifs
      · apply inv.quiet found
        · exact ⟨_, rfl⟩
        · intro place registered
          cases registered
        · rfl
        · rfl
      · apply inv.quiet found
        · intro flight flying
          cases flying
        · intro place registered
          cases registered
        · rfl
        · rfl
    | marking =>
      cases taken
      apply inv.set found
      · exact ⟨_, rfl⟩
      · intro place registered
        cases registered
      · intro m other watched
        cases watched
      · exact fun other announced => .inl announced
    | publishing persisted =>
      cases taken
      apply inv.endCancel found
      intro other announced
      cases announced
    | _ => cases taken

omit [DecidableEq N] in
theorem orphan (inv : Informed cfg s) {command : Command} {index : ℕ}
    (found : s.orphans[index]? = some command) (heard : ExecutionHeard cfg s true command) :
    Informed cfg { (execute cfg s command).1 with orphans := s.orphans.eraseIdx index } := by
  have executed : Informed cfg (execute cfg s command).1 := by
    cases command with
    | set key value =>
      apply inv.execute_set
      rintro n taskId same ⟨call, member, watched⟩ unaware
      rcases heard rfl call member (n, taskId) watched same with aware | told
      · rw [unaware] at aware
        cases aware
      · exact told
    | publish message => exact (inv.publish message).1
    | setNx key value =>
      exact inv.execute_quiet (inv.orphans key value (List.mem_of_getElem? found))
    | get key => exact inv.execute_quiet trivial
    | delete key => exact inv.execute_quiet trivial
  have same : (execute cfg s command).1.orphans = s.orphans := by cases command <;> rfl
  refine executed.of_calls rfl executed.ttl ?_ executed.holds executed.covered
  intro other member
  rw [same]
  exact List.mem_of_mem_eraseIdx member

theorem startRegister (inv : Informed cfg s) {n : N} {taskId : String} (plain : Plain taskId)
    (ownerId : Option String) : Informed cfg (startRegister cfg s n taskId ownerId) := by
  have registry : Informed cfg
      (s.setManager n ((s.nodes n).manager.register s.now taskId ownerId).1) :=
    inv.setManager n (by rw [ttl_register]; exact inv.ttl n) fun _ _ _ _ => carries_register
  unfold StreamCancellation.startRegister
  dsimp only
  by_cases free : ((s.nodes n).manager.register s.now taskId ownerId).2 = true
  · obtain ⟨absent, info, found, fresh⟩ := register_free free
    have place : ∀ m other, (n, taskId) = (m, other) → Plain other ∧
        (s.setManager n ((s.nodes n).manager.register s.now taskId ownerId).1).Holds m other ∧
        ∀ call ∈ s.calls, call.registered ≠ some (m, other) := by
      rintro m other ⟨⟩
      refine ⟨plain, ⟨info, ?_, fresh⟩, ?_⟩
      · unfold State.setManager State.modify
        simpa only [Function.update_self] using found
      · intro call member registered
        exact absent (inv.holds call member n taskId registered)
    rw [free]
    cases (ownerId.filter (· ≠ "")).map Python.strip with
    | some owner =>
      apply registry.append
      · intro flight flying
        cases flying
        exact ⟨taskId, rfl⟩
      · rfl
      · exact fun m other registered => place m other (Option.some.inj registered)
    | none =>
      apply registry.append
      · exact ⟨_, rfl⟩
      · rfl
      · exact fun m other registered => place m other (Option.some.inj registered)
  · rw [Bool.not_eq_true] at free
    rw [free]
    apply registry.append
    · intro flight flying
      cases flying
    · rfl
    · intro m other registered
      cases registered

theorem startCancel (inv : Informed cfg s) (n : N) (taskId : String) (ownerId : Option String) :
    Informed cfg (startCancel cfg s n taskId ownerId) := by
  have appended (s : State N H) (inv : Informed cfg s) (pc : CancelPc) (flight : Option Flight)
      (sent : (⟨.cancel n taskId pc, flight⟩ : Call N).Sent cfg) :
      Informed cfg { s with calls := s.calls ++ [⟨.cancel n taskId pc, flight⟩] } := by
    apply inv.append sent rfl
    intro m other registered
    cases registered
  have purged : Informed cfg (s.setManager n ((s.nodes n).manager.purgeExpired s.now)) :=
    inv.setManager n (by rw [ttl_purgeExpired]; exact inv.ttl n) fun _ _ _ _ => carries_purge
  unfold StreamCancellation.startCancel
  cases ownerId with
  | none => exact appended s inv .marking _ ⟨_, rfl⟩
  | some ownerId =>
    dsimp only
    split
    · split_ifs
      · exact appended _ purged .marking _ ⟨_, rfl⟩
      · exact appended _ purged (.returned false false) none (by intro flight flying; cases flying)
    · apply appended _ purged (.owned ownerId)
      intro flight flying
      cases flying
      trivial

theorem startFinalize (inv : Informed cfg s) {c : ℕ} {n : N} {taskId : String}
    {ownerId : Option String} {flight : Option Flight}
    (found : s.calls[c]? = some ⟨.stream n taskId ownerId .serving, flight⟩) :
    Informed cfg (startFinalize cfg s c n taskId ownerId) := by
  have finalized (call' : Call N) (sent : call'.Sent cfg) (left : call'.registered = none) :
      Informed cfg (({ s with calls := s.calls.set c call' } : State N H).setManager n
        ((s.nodes n).manager.finalize s.now taskId)) := by
    apply inv.set_setManager found rfl sent left
    · rw [ttl_finalize]
      exact inv.ttl n
    · exact fun _ other => carries_finalize other
  have done := finalized ⟨.stream n taskId ownerId .finalized, none⟩
    (by intro flight flying; cases flying) rfl
  unfold StreamCancellation.startFinalize
  dsimp only
  split
  · split_ifs
    · exact done
    · apply finalized ⟨.stream n taskId ownerId .clearing, some ⟨.delete (cfg.key taskId), none⟩⟩
      · intro flight flying
        cases flying
        trivial
      · rfl
  · exact done

/-- The connection of a listener changes; the inbox may lose what a later broadcast repeats. -/
theorem listener (inv : Informed cfg s) (n : N) (subscribed : Bool) (inbox : List String)
    (kept : ∀ taskId, s.Exposed cfg n taskId → taskId ∈ (s.nodes n).inbox →
      taskId ∈ inbox ∨ s.announcing taskId) :
    Informed cfg (s.modify n fun node => { node with subscribed, inbox }) := by
  have other : ∀ m, m ≠ n →
      (s.modify n fun node => { node with subscribed, inbox }).nodes m = s.nodes m :=
    fun m different => Function.update_of_ne different _ _
  have self : (s.modify n fun node => { node with subscribed, inbox }).nodes n =
      { s.nodes n with subscribed, inbox } := Function.update_self n _ _
  have manager : ∀ m, ((s.modify n fun node => { node with subscribed, inbox }).nodes m).manager =
      (s.nodes m).manager := by
    intro m
    by_cases same : m = n
    · subst same
      rw [self]
    · rw [other m same]
  refine inv.of_calls rfl ?_ (fun _ member => member) ?_ ?_
  · intro m
    rw [manager]
    exact inv.ttl m
  · intro call member m taskId registered
    unfold State.Holds
    rw [manager]
    exact inv.holds call member m taskId registered
  · rintro m taskId ⟨watching, marked, unaware⟩
    unfold State.aware at unaware
    rw [manager] at unaware
    have exposed : s.Exposed cfg m taskId := ⟨watching, marked, unaware⟩
    rcases inv.covered m taskId exposed with arrived | coming
    · by_cases same : m = n
      · subst same
        rcases kept taskId exposed arrived with still | coming
        · left
          rw [self]
          exact still
        · exact .inr coming
      · left
        rw [other m same]
        exact arrived
    · exact .inr coming

/-- The listener reads a message, which stops the stream that the message names. -/
theorem deliver (inv : Informed cfg s) {n : N} {message : String} {inbox : List String}
    (waiting : (s.nodes n).inbox = message :: inbox) :
    Informed cfg (if Python.strip message ≠ "" then
      (s.modify n fun node => { node with inbox }).cancelLocal n (Python.strip message)
      else s.modify n fun node => { node with inbox }) := by
  split_ifs with named
  · have stopped := inv.cancelLocal n (Python.strip message)
    have read := stopped.listener n (s.nodes n).subscribed inbox (by
      intro taskId exposed arrived
      left
      have arrived' : taskId ∈ message :: inbox := by
        rw [← waiting]
        simpa [State.cancelLocal, State.setManager, State.modify] using arrived
      rcases List.mem_cons.mp arrived' with rfl | behind
      · -- its own stream has just been stopped
        obtain ⟨⟨call, member, watched⟩, -, unaware⟩ := exposed
        have registered := Call.registered_of_watched watched
        have plain := inv.plain call member n taskId registered
        have holds := inv.holds call member n taskId registered
        rw [plain.1, aware_cancelLocal (inv.ttl n) holds] at unaware
        cases unaware
      · exact behind)
    have same : (s.modify n fun node => { node with inbox }).cancelLocal n (Python.strip message) =
        (s.cancelLocal n (Python.strip message)).modify n fun node =>
          { node with subscribed := (s.nodes n).subscribed, inbox } := by
      simp [State.cancelLocal, State.setManager, State.modify]
    rw [same]
    exact read
  · apply inv.listener n (s.nodes n).subscribed inbox
    intro taskId exposed arrived
    left
    rw [waiting] at arrived
    rcases List.mem_cons.mp arrived with rfl | behind
    · obtain ⟨⟨call, member, watched⟩, -, -⟩ := exposed
      have plain := inv.plain call member n taskId (Call.registered_of_watched watched)
      rw [plain.1] at named
      exact absurd plain.2.1 named
    · exact behind

omit [DecidableEq N] in
theorem elapse (inv : Informed cfg s) {seconds : ℚ} (forward : 0 ≤ seconds)
    (heard : Heard cfg s (Event.elapse seconds : Event N H)) :
    Informed cfg { s with now := s.now + seconds } := by
  have later : s.now ≤ s.now + seconds := by linarith
  refine inv.of_calls rfl inv.ttl (fun _ member => member) ?_ ?_
  · intro call member n taskId registered
    obtain ⟨info, found, -⟩ := inv.holds call member n taskId registered
    exact ⟨info, found, heard call member (n, taskId) registered info found⟩
  · rintro n taskId ⟨⟨call, member, watched⟩, marked, unaware⟩
    apply inv.covered
    refine ⟨⟨call, member, watched⟩, ?_, ?_⟩
    · unfold State.marked at marked ⊢
      cases found : s.redis.get (s.now + seconds) (cfg.key taskId) with
      | none =>
        dsimp only at marked
        rw [found] at marked
        cases marked
      | some value =>
        dsimp only at marked
        rwa [Strings.get_of_later later found, ← found]
    · -- the entry is still there, so a stop would have stayed with it
      rw [Bool.eq_false_iff] at unaware ⊢
      intro aware
      apply unaware
      obtain ⟨info, found, -, cancelled⟩ := isCancelled_iff.mp aware
      have registered := Call.registered_of_watched watched
      exact isCancelled_iff.mpr
        ⟨info, found, heard call member (n, taskId) registered info found, cancelled⟩

omit [DecidableEq N] in
theorem abandon_calls (flight : Option Flight) : (s.abandon flight).calls = s.calls := by
  unfold State.abandon
  split <;> rfl

omit [DecidableEq N] in
theorem abandon_heard {raised : Bool} {call : Call N} (flight : Option Flight)
    (heard : AbandonHeard cfg s raised call) :
    AbandonHeard cfg (s.abandon flight) raised call := by
  unfold State.abandon
  split <;> exact heard

/-- A step that loses no news keeps every stream covered. -/
theorem step (inv : Informed cfg s) {e : Event N H} (heard : Heard cfg s e)
    (taken : step cfg s e = some t) : Informed cfg t := by
  cases e with
  | register n taskId ownerId =>
    cases taken
    exact inv.startRegister heard ownerId
  | cancel n taskId ownerId =>
    cases taken
    exact inv.startCancel n taskId ownerId
  | finalize c =>
    unfold StreamCancellation.step at taken
    dsimp only at taken
    split at taken
    · next found =>
      cases taken
      exact inv.startFinalize found
    · cases taken
  | bind n taskId handle =>
    cases taken
    apply inv.setManager n
    · rw [ttl_bind]
      exact inv.ttl n
    · intro _ _ _ _
      exact carries_bind
  | check n =>
    cases taken
    apply inv.setManager n
    · rw [ttl_purgeExpired]
      exact inv.ttl n
    · intro _ _ _ _
      exact carries_purge
  | execute c =>
    unfold StreamCancellation.step at taken
    dsimp only at taken
    split at taken
    · next found =>
      cases taken
      exact inv.executed found (heard _ found _ rfl)
    · cases taken
  | executeOrphan index =>
    obtain ⟨command, found, rfl⟩ := Option.map_eq_some_iff.mp taken
    exact inv.orphan found (heard command found)
  | reply c =>
    unfold StreamCancellation.step at taken
    dsimp only at taken
    split at taken
    · next found => exact inv.replied found taken
    · cases taken
  | fail c =>
    obtain ⟨call, found, taken⟩ := Option.bind_eq_some_iff.mp taken
    exact (inv.abandon (List.mem_of_getElem? found)).failed
      ((congrArg (·[c]?) (abandon_calls call.flight)).trans found)
      (abandon_heard call.flight (heard call found)) taken
  | interrupt c =>
    obtain ⟨call, found, taken⟩ := Option.bind_eq_some_iff.mp taken
    exact (inv.abandon (List.mem_of_getElem? found)).interrupted
      ((congrArg (·[c]?) (abandon_calls call.flight)).trans found)
      (abandon_heard call.flight (heard call found)) taken
  | subscribe n =>
    cases taken
    apply inv.listener n true (s.nodes n).inbox
    exact fun taskId _ arrived => .inl arrived
  | disconnect n =>
    cases taken
    apply inv.listener n false []
    rintro taskId ⟨⟨call, member, watched⟩, marked, unaware⟩ arrived
    exact .inr (heard call member (n, taskId) watched marked unaware rfl arrived)
  | deliver n =>
    unfold StreamCancellation.step at taken
    dsimp only at taken
    split at taken
    · cases taken
    · next waiting =>
      cases taken
      exact inv.deliver waiting
  | elapse seconds =>
    unfold StreamCancellation.step at taken
    dsimp only at taken
    split_ifs at taken with forward
    cases taken
    exact inv.elapse forward heard

omit [DecidableEq N] in
theorem not_missed (inv : Informed cfg s) (n : N) (taskId : String) :
    ¬ s.Missed cfg n taskId := by
  intro missed
  obtain ⟨call, member, serving⟩ := missed.serving
  have watched := Call.watched_of_serving serving
  rcases inv.covered n taskId ⟨⟨call, member, watched⟩, missed.marked, missed.unaware⟩ with
    arrived | coming
  · exact missed.delivered arrived
  · exact missed.broadcast coming

omit [DecidableEq N] in
/-- Nothing is under way where the nodes start. -/
theorem initial (cfg : Config) (now : ℚ) (redis : Strings) (managers : N → StreamTaskManager H) :
    Informed cfg (initial cfg now redis managers) := by
  refine ⟨?_, ?_, ?_, ?_, ?_, ?_, ?_⟩
  · intro n
    have ttl := cfg.ttl_ge
    change 0 < cfg.ttlSeconds
    linarith
  · intro call member
    cases member
  · intro key value member
    cases member
  · intro call member
    cases member
  · intro call member
    cases member
  · intro c c' call call' place found
    cases found
  · rintro n taskId ⟨⟨call, member, -⟩, -, -⟩
    cases member

end Informed

section Runs

variable [DecidableEq N]

/-- A run none of whose steps loses news of a cancel never misses one. -/
theorem never_missed (cfg : Config) (now : ℚ) (redis : Strings)
    (managers : N → StreamTaskManager H) (es : List (Event N H))
    (heard : Along (step cfg) (Heard cfg) (initial cfg now redis managers) es) :
    Always (step cfg) (fun s => ∀ n taskId, ¬ s.Missed cfg n taskId)
      (initial cfg now redis managers) es := by
  have informed := always_of_along (I := Informed cfg)
    (fun _ _ _ inv heard taken => inv.step heard taken) (.initial cfg now redis managers) heard
  exact informed.mono fun _ inv => inv.not_missed

end Runs

/-- Two nodes; the stream of one is cancelled from the other and finalized. -/
def heardRun : List (Event Bool Unit) :=
  [.subscribe true, .subscribe false, .register false "task_1" (some "u"), .execute 0, .reply 0,
    .execute 0, .reply 0, .cancel true "task_1" (some "u"), .execute 1, .reply 1, .execute 1,
    .reply 1, .execute 1, .reply 1, .deliver false, .finalize 0]

theorem heardRun_never_missed :
    Along (step {}) (Heard {}) (initial {} 0 {} fun _ => {}) heardRun ∧
      Always (step {}) (fun s => ∀ n taskId, ¬ s.Missed {} n taskId)
        (initial {} 0 {} fun _ => {}) heardRun := by
  have heard : Along (step {}) (Heard {}) (initial {} 0 {} fun _ => {}) heardRun := by
    decide +kernel
  exact ⟨heard, never_missed {} 0 {} (fun _ => {}) heardRun heard⟩

/-- The same, while the listener of the serving node is disconnected. -/
def missedRun : List (Event Bool Unit) :=
  [.subscribe true, .subscribe false, .register false "task_1" (some "u"), .execute 0, .reply 0,
    .execute 0, .reply 0, .disconnect false, .cancel true "task_1" (some "u"), .execute 1,
    .reply 1, .execute 1, .reply 1, .execute 1, .reply 1, .subscribe false]

/-- The stream goes on although the cancel has returned, and nothing is left to deliver. -/
theorem missedRun_misses : ∃ s,
    runFrom (step {}) (initial {} 0 {} fun _ => {}) missedRun = some s ∧
      s.Missed {} false "task_1" ∧ (s.nodes false).inbox = [] ∧
      s.calls[1]? = some ⟨.cancel true "task_1" (.returned true true), none⟩ := by
  have misses : (runFrom (step {}) (initial {} 0 {} fun _ => {}) missedRun).any (fun s =>
      decide (s.Missed {} false "task_1" ∧ (s.nodes false).inbox = [] ∧
        s.calls[1]? = some ⟨.cancel true "task_1" (.returned true true), none⟩)) = true := by
    decide +kernel
  obtain ⟨s, run, missed⟩ := (Option.any_eq_true _ _).mp misses
  exact ⟨s, run, of_decide_eq_true missed⟩

end HeyeeAgent.StreamCancellation
