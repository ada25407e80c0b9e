import HeyeeAgent.StreamChat.Admission
import HeyeeAgent.StreamQueueLimiter.LocalLock

/-! # The turns of the asyncio tasks

Each step of the composed system is the turn of one task. It leaves the limiter calls and the
streams of all other tasks alone, and the stream that takes the turn is afterwards where its
awaited calls are. A turn ends inside the limiter's `cancel`, called from under the condition lock,
exactly when the polled stream has seen its disconnect and the registry accepts the cancellation.
-/

namespace HeyeeAgent.StreamChat

open StreamQueueLimiter Machine ServiceState

variable {H : Type*}

/-! ### Calls, their tasks and the streams -/

/-- The call has neither returned nor raised. -/
def ServiceState.Executing (s : ServiceState H) (c : CallId) : Prop :=
  match s.limiter.calls c with
  | some (.acquire _ _ pc) => pc.Executing
  | some (.cancel _ pc) | some (.release _ pc) | some (.close pc) => pc = .entering
  | none => False

/-- The limiter calls that the stream is inside of, outermost first. -/
def Stream.awaited (st : Stream) : List CallId :=
  match st.pc with
  | .acquiring c (some (.cancelling c')) => [c, c']
  | .acquiring c _ | .releasing c => [c]
  | _ => []

/-- The awaited calls are where the stream's own position says. -/
def Stream.Agrees (st : Stream) (l : LocalState) : Prop :=
  match st.pc with
  | .acquiring c none => ∃ pc, l.AcquireAt c st.taskId pc ∧ pc ≠ .polling
  | .acquiring c (some (.cancelling c')) =>
    l.AcquireAt c st.taskId .polling ∧ l.calls c' = some (.cancel st.taskId .entering)
  | .acquiring c (some _) => l.AcquireAt c st.taskId .polling
  | .releasing c => ∃ permit pc, l.calls c = some (.release permit pc)
  | _ => True

/-- The stream looks at the calls that it awaits, and at no others. -/
theorem Stream.Agrees.congr {st : Stream} {l l' : LocalState} (agrees : st.Agrees l)
    (calls : ∀ c ∈ st.awaited, l'.calls c = l.calls c) : st.Agrees l' := by
  obtain ⟨taskId, watched, pc⟩ := st
  cases pc with
  | registering => trivial
  | queued => trivial
  | finished => trivial
  | releasing c =>
    obtain ⟨permit, pc, found⟩ := agrees
    exact ⟨permit, pc, (calls c List.mem_cons_self).trans found⟩
  | acquiring c poll =>
    cases poll with
    | none =>
      obtain ⟨pc, ⟨deadline, found⟩, unpolled⟩ := agrees
      exact ⟨pc, ⟨deadline, (calls c List.mem_cons_self).trans found⟩, unpolled⟩
    | some poll =>
      cases poll with
      | cancelling c' =>
        obtain ⟨⟨deadline, found⟩, cancels⟩ := agrees
        exact ⟨⟨deadline, (calls c List.mem_cons_self).trans found⟩,
          (calls c' (List.mem_cons_of_mem c List.mem_cons_self)).trans cancels⟩
      | _ =>
        obtain ⟨deadline, found⟩ := agrees
        exact ⟨deadline, (calls c List.mem_cons_self).trans found⟩

/-- A call has a task exactly when it has been started. -/
def ServiceState.Called (s : ServiceState H) : Prop :=
  ∀ c, s.caller c = none ↔ s.limiter.calls c = none

/-- The stream agrees with the calls of its task, and all those that execute are awaited. -/
structure Own (s : ServiceState H) (i : StreamId) : Prop where
  agrees : ∀ st, s.streams i = some st → st.Agrees s.limiter ∧
    ∀ c ∈ st.awaited, s.caller c = some (.stream i)
  inside : ∀ c, s.caller c = some (.stream i) → s.Executing c →
    ∃ st, s.streams i = some st ∧ c ∈ st.awaited

structure ServiceInv (cfg : Config) (s : ServiceState H) : Prop where
  reached : Reachable (localStep cfg) {} s.limiter
  called : s.Called
  requests : ∀ r c, s.requests r = some (.inLimiter c) → s.caller c = some (.request r)
  acquirer : ∀ c taskId pc, s.limiter.AcquireAt c taskId pc → ∃ i, s.caller c = some (.stream i)
  own : ∀ i, Own s i

/-- What the turn of one task leaves alone. -/
structure ByTask (cfg : Config) (task : TaskRef) (s t : ServiceState H) : Prop where
  reached : Reachable (localStep cfg) s.limiter t.limiter
  others : ∀ c, t.caller c ≠ some task →
    t.limiter.calls c = s.limiter.calls c ∧ t.caller c = s.caller c
  kept : ∀ c task', s.caller c = some task' → t.caller c = some task'
  acquires : ∀ c taskId pc, t.limiter.AcquireAt c taskId pc →
    (∃ pc', s.limiter.AcquireAt c taskId pc') ∨ ∃ i, task = .stream i ∧ t.caller c = some task
  requests : ∀ r c, t.requests r = some (.inLimiter c) →
    s.requests r = some (.inLimiter c) ∨ t.caller c = some (.request r)
  called : s.Called → t.Called
  streams : ∀ i, task ≠ .stream i → t.streams i = s.streams i

namespace ByTask

variable {cfg : Config} {task : TaskRef} {s t u : ServiceState H}

theorem trans (first : ByTask cfg task s t) (second : ByTask cfg task t u) :
    ByTask cfg task s u where
  reached := first.reached.trans second.reached
  others c other := by
    obtain ⟨calls, caller⟩ := second.others c other
    obtain ⟨calls', caller'⟩ := first.others c (caller ▸ other)
    exact ⟨calls.trans calls', caller.trans caller'⟩
  kept c task' has := second.kept c task' (first.kept c task' has)
  acquires c taskId pc after := by
    rcases second.acquires c taskId pc after with ⟨pc', before⟩ | new
    · rcases first.acquires c taskId pc' before with old | ⟨i, stream, owner⟩
      · exact .inl old
      · exact .inr ⟨i, stream, second.kept c task owner⟩
    · exact .inr new
  requests r c calls := by
    rcases second.requests r c calls with before | owner
    · rcases first.requests r c before with old | owner
      · exact .inl old
      · exact .inr (second.kept c _ owner)
    · exact .inr owner
  called called := second.called (first.called called)
  streams i other := (second.streams i other).trans (first.streams i other)

theorem tasks (m : StreamTaskManager H) : ByTask cfg task s { s with tasks := m } where
  reached := .refl _ _
  others _ _ := ⟨rfl, rfl⟩
  kept _ _ has := has
  acquires _ _ pc after := .inl ⟨pc, after⟩
  requests _ _ calls := .inl calls
  called called := called
  streams _ _ := rfl

theorem setStream (i : StreamId) (st : Stream) : ByTask cfg (.stream i) s (s.setStream i st) where
  reached := .refl _ _
  others _ _ := ⟨rfl, rfl⟩
  kept _ _ has := has
  acquires _ _ pc after := .inl ⟨pc, after⟩
  requests _ _ calls := .inl calls
  called called := called
  streams j other := Function.update_of_ne (fun same => other (by rw [same])) ..

theorem setRequest (r : RequestId) (pc : RequestPc)
    (owner : ∀ c, pc = .inLimiter c → s.caller c = some (.request r)) :
    ByTask cfg (.request r) s (s.setRequest r pc) where
  reached := .refl _ _
  others _ _ := ⟨rfl, rfl⟩
  kept _ _ has := has
  acquires _ _ pc after := .inl ⟨pc, after⟩
  requests r' c calls := by
    by_cases same : r' = r
    · subst same
      simp only [ServiceState.setRequest, Function.update_self, Option.some.injEq] at calls
      exact .inr (owner c calls)
    · exact .inl (by simpa [ServiceState.setRequest, Function.update_of_ne same] using calls)
  called called := called
  streams _ _ := rfl

theorem resume {c : CallId} {e : LocalEvent} (goesOn : e.call = c)
    (owner : s.caller c = some task) (called : s.Called) (taken : s.resume cfg e = some t) :
    ByTask cfg task s t := by
  subst goesOn
  obtain ⟨l, stepped, rfl⟩ := Option.map_eq_some_iff.mp taken
  obtain ⟨call, updated, -⟩ := (localStep_move stepped).calls
  refine ⟨(Reachable.refl _ _).next stepped, fun c other => ⟨?_, rfl⟩, fun _ _ has => has,
    fun c taskId pc after => ?_, fun _ _ calls => .inl calls, fun called c => ?_, fun _ _ => rfl⟩
  · simp only [updated]
    exact Function.update_of_ne (by rintro rfl; exact other owner) ..
  · rcases (localStep_move stepped).acquireAt_back after with before | ⟨rfl, unseen, -⟩
    · exact .inl before
    · have started : s.limiter.calls e.call ≠ none := fun none => by
        simp [(called e.call).mpr none] at owner
      obtain ⟨-, back⟩ := (localStep_move stepped).recordsGoBack e.call
        (Option.isSome_iff_ne_none.mpr started)
      obtain ⟨pc', before, -⟩ := back taskId pc after
      exact .inl ⟨pc', before⟩
  · by_cases same : c = e.call
    · subst same
      simp [updated, owner]
    · simpa [updated, Function.update_of_ne same] using called c

theorem call {c : CallId} {e : LocalEvent} (same : e.call = c) (called : s.Called)
    (acquirer : ∀ taskId now, e = .acquire c taskId now → ∃ i, task = .stream i)
    (taken : s.call cfg task c e = some t) (starts : e.Starts) : ByTask cfg task s t := by
  subst same
  obtain ⟨l, stepped, rfl⟩ := Option.map_eq_some_iff.mp taken
  obtain ⟨call, updated, -⟩ := (localStep_move stepped).calls
  have unused := (localStep_move stepped).unused starts
  have uncalled := (called e.call).mpr unused
  refine ⟨(Reachable.refl _ _).next stepped, fun c other => ?_, fun c task' has => ?_,
    fun c taskId pc after => ?_, fun _ _ calls => .inl calls, fun called c => ?_, fun _ _ => rfl⟩
  · have distinct : c ≠ e.call := by rintro rfl; simp at other
    simp [updated, Function.update_of_ne distinct]
  · have distinct : c ≠ e.call := by rintro rfl; simp [uncalled] at has
    simpa [Function.update_of_ne distinct] using has
  · rcases (localStep_move stepped).acquireAt_back after with before | ⟨rfl, -⟩
    · exact .inl before
    · obtain ⟨_, now, start⟩ := (localStep_move stepped).starts_acquire unused after
      obtain ⟨i, stream⟩ := acquirer _ _ start
      exact .inr ⟨i, stream, by simp⟩
  · by_cases same : c = e.call
    · subst same
      simp [updated]
    · simpa [updated, Function.update_of_ne same] using called c

/-- Streams of other tasks are in the same place. -/
theorem own (turn : ByTask cfg task s t) {i : StreamId} (other : task ≠ .stream i)
    (own : Own s i) : Own t i := by
  have differs {c : CallId} (owner : t.caller c = some (.stream i)) : t.caller c ≠ some task := by
    rw [owner]; exact fun same => other (Option.some.inj same).symm
  refine ⟨fun st found => ?_, fun c owner executing => ?_⟩
  · rw [turn.streams i other] at found
    obtain ⟨agrees, owned⟩ := own.agrees st found
    have owned' : ∀ c ∈ st.awaited, t.caller c = some (.stream i) :=
      fun c member => turn.kept c _ (owned c member)
    have calls : ∀ c ∈ st.awaited, t.limiter.calls c = s.limiter.calls c :=
      fun c member => (turn.others c (differs (owned' c member))).1
    exact ⟨agrees.congr calls, owned'⟩
  · obtain ⟨calls, caller⟩ := turn.others c (differs owner)
    rw [turn.streams i other]
    refine own.inside c (caller ▸ owner) ?_
    simpa only [ServiceState.Executing, calls] using executing

end ByTask

theorem ServiceInv.turn {cfg : Config} {s t : ServiceState H} {task : TaskRef}
    (inv : ServiceInv cfg s) (turn : ByTask cfg task s t)
    (own : ∀ i, task = .stream i → Own t i) : ServiceInv cfg t where
  reached := inv.reached.trans turn.reached
  called := turn.called inv.called
  requests r c calls := by
    rcases turn.requests r c calls with before | owner
    · exact turn.kept c _ (inv.requests r c before)
    · exact owner
  acquirer c taskId pc after := by
    rcases turn.acquires c taskId pc after with ⟨pc', before⟩ | ⟨i, rfl, owner⟩
    · obtain ⟨i, owner⟩ := inv.acquirer c taskId pc' before
      exact ⟨i, turn.kept c _ owner⟩
    · exact ⟨i, owner⟩
  own i := by
    by_cases same : task = .stream i
    · exact own i same
    · exact turn.own same (inv.own i)

/-! ### The turn of a stream -/

/-- The stream is inside the limiter's `cancel` while its own acquire is polling. -/
def ServiceState.Cancelling (s : ServiceState H) (i : StreamId) : Prop :=
  ∃ st c c', s.streams i = some st ∧ st.pc = .acquiring c (some (.cancelling c'))

/-- No call of the stream executes but `c`. -/
def ServiceState.Only (s : ServiceState H) (i : StreamId) (c : CallId) : Prop :=
  ∀ c', s.caller c' = some (.stream i) → s.Executing c' → c' = c

/-- A turn of the stream, which ends inside the limiter's `cancel` exactly under a condition. -/
structure StreamTurn (cfg : Config) (s t : ServiceState H) (i : StreamId) (withdraws : Prop) :
    Prop where
  task : ByTask cfg (.stream i) s t
  own : Own t i
  cancelling : t.Cancelling i ↔ withdraws

section Turns

variable {cfg : Config} {s t u : ServiceState H} {i : StreamId} {st : Stream} {c : CallId}

theorem resume_calls {e : LocalEvent} (taken : s.resume cfg e = some t) :
    ∃ call, t.limiter.calls = Function.update s.limiter.calls e.call (some call) ∧
      t.caller = s.caller ∧ t.streams = s.streams ∧ t.tasks = s.tasks := by
  obtain ⟨l, stepped, rfl⟩ := Option.map_eq_some_iff.mp taken
  obtain ⟨call, updated, -⟩ := (localStep_move stepped).calls
  exact ⟨call, updated, rfl, rfl, rfl⟩

theorem resume_move {e : LocalEvent} (taken : s.resume cfg e = some t) :
    LocalMove cfg s.limiter e t.limiter := by
  obtain ⟨l, stepped, rfl⟩ := Option.map_eq_some_iff.mp taken
  exact localStep_move stepped

theorem ServiceState.Only.resume {e : LocalEvent} (only : s.Only i c)
    (taken : s.resume cfg e = some t) (call : e.call = c) : t.Only i c := by
  obtain ⟨_, updated, caller, -⟩ := resume_calls taken
  intro c' owner executing
  by_contra other
  refine other (only c' (caller ▸ owner) ?_)
  rw [← call] at other
  simpa only [ServiceState.Executing, updated, Function.update_of_ne other] using executing

/-- The only awaited call is the one that executes. -/
theorem Own.only (own : Own s i) (found : s.streams i = some st) (awaited : st.awaited ⊆ [c]) :
    s.Only i c := by
  intro c' owner executing
  obtain ⟨st', found', member⟩ := own.inside c' owner executing
  rw [found] at found'
  cases found'
  exact List.mem_singleton.mp (awaited member)

theorem Own.intro (found : t.streams i = some st) (agrees : st.Agrees t.limiter)
    (owned : ∀ c ∈ st.awaited, t.caller c = some (.stream i))
    (inside : ∀ c, t.caller c = some (.stream i) → t.Executing c → c ∈ st.awaited) : Own t i := by
  refine ⟨fun st' found' => ?_, fun c owner executing => ⟨st, found, inside c owner executing⟩⟩
  rw [found] at found'
  cases found'
  exact ⟨agrees, owned⟩

theorem not_cancelling (found : t.streams i = some st)
    (other : ∀ c c', st.pc ≠ .acquiring c (some (.cancelling c'))) : t.Cancelling i ↔ False := by
  refine iff_of_false ?_ id
  rintro ⟨st', c, c', found', pc⟩
  rw [found] at found'
  cases found'
  exact other c c' pc

/-- The stream awaits its acquire and does not poll. -/
theorem own_acquiring (found : t.streams i = some st) (place : st.pc = .acquiring c none)
    {pc : AcquirePc} (at_ : t.limiter.AcquireAt c st.taskId pc) (idle : pc ≠ .polling)
    (owner : t.caller c = some (.stream i)) (only : t.Only i c) : Own t i := by
  refine .intro found ?_ ?_ ?_
  · simpa only [Stream.Agrees, place] using ⟨pc, at_, idle⟩
  · simpa only [Stream.awaited, place, List.mem_singleton, forall_eq] using owner
  · simp only [Stream.awaited, place, List.mem_singleton]
    exact only

/-- The acquire of a stream goes on without beginning to poll. -/
theorem settled_turn (st : Stream) {e : LocalEvent} {pc : AcquirePc} (called : s.Called)
    (owner : s.caller c = some (.stream i)) (at_ : s.limiter.AcquireAt c st.taskId pc)
    (only : s.Only i c) (taken : s.resume cfg e = some u) (call : e.call = c)
    (unlocked : ∀ c, e ≠ .lock c) :
    StreamTurn cfg s (u.setStream i { st with pc := .acquiring c none }) i False := by
  obtain ⟨_, -, caller, streams, -⟩ := resume_calls taken
  obtain ⟨pc', after, -⟩ := (resume_move taken).acquireAt at_
  have found : (u.setStream i { st with pc := .acquiring c none }).streams i =
      some { st with pc := .acquiring c none } := Function.update_self ..
  have only' : u.Only i c := only.resume taken call
  refine ⟨(ByTask.resume call owner called taken).trans (.setStream i _), ?_, ?_⟩
  · refine own_acquiring found rfl after ?_ ((congrFun caller c).trans owner) only'
    rintro rfl
    subst call
    obtain ⟨c, locked⟩ := (resume_move taken).polls_locked after
    exact unlocked c locked
  · exact not_cancelling found (by simp)

theorem answerPoll_turn {answer : Bool} {now : ℚ} {uuid : String} {pc : AcquirePc}
    (called : s.Called) (owner : s.caller c = some (.stream i))
    (at_ : s.limiter.AcquireAt c st.taskId pc) (only : s.Only i c)
    (taken : s.answerPoll cfg i st c answer now uuid = some t) : StreamTurn cfg s t i False := by
  obtain ⟨u, resumed, rfl⟩ := Option.map_eq_some_iff.mp taken
  exact settled_turn st called owner at_ only resumed rfl (by simp)

/-- The stream's acquire is polling and nothing else of it executes. -/
theorem own_polling (found : t.streams i = some st) {poll : PollPc}
    (place : st.pc = .acquiring c (some poll)) (outside : ∀ c', poll ≠ .cancelling c')
    (at_ : t.limiter.AcquireAt c st.taskId .polling) (owner : t.caller c = some (.stream i))
    (only : t.Only i c) : Own t i := by
  have awaited : st.awaited = [c] := by
    cases poll <;> simp_all [Stream.awaited]
  refine .intro found ?_ ?_ ?_
  · cases poll with
    | cancelling c' => exact absurd rfl (outside c')
    | _ => simpa only [Stream.Agrees, place] using at_
  · simpa only [awaited, List.mem_singleton, forall_eq] using owner
  · simp only [awaited, List.mem_singleton]
    exact only

theorem StreamTurn.before {withdraws : Prop} (first : ByTask cfg (.stream i) s u)
    (turn : StreamTurn cfg u t i withdraws) : StreamTurn cfg s t i withdraws :=
  ⟨first.trans turn.task, turn.own, turn.cancelling⟩

theorem shouldCancel_turn (st : Stream) {now : ℚ} {uuid : String} (called : s.Called)
    (owner : s.caller c = some (.stream i)) (at_ : s.limiter.AcquireAt c st.taskId .polling)
    (only : s.Only i c) (taken : s.shouldCancel cfg i st c now uuid = some t) :
    StreamTurn cfg s t i False := by
  unfold shouldCancel at taken
  dsimp only at taken
  refine .before (u := { s with tasks := s.tasks.purgeExpired now }) (.tasks _) ?_
  split_ifs at taken with stop watched
  · exact answerPoll_turn (s := { s with tasks := s.tasks.purgeExpired now }) called owner at_ only
      taken
  · cases taken
    have found : (setStream { s with tasks := s.tasks.purgeExpired now } i
        { st with pc := .acquiring c (some .disconnect) }).streams i =
          some { st with pc := .acquiring c (some .disconnect) } := Function.update_self ..
    exact ⟨.setStream i _, own_polling found rfl (by simp) at_ owner only,
      not_cancelling found (by simp)⟩
  · exact answerPoll_turn (s := { s with tasks := s.tasks.purgeExpired now }) called owner at_ only
      taken

/-- `self.cancel(task_id)` under the lock enters the limiter again when the registry accepts. -/
theorem cancelPolled_turn {poll : PollPc} {persisted published : Bool} {c' : CallId} {now : ℚ}
    {uuid : String} (inv : ServiceInv cfg s) (found : s.streams i = some st)
    (place : st.pc = .acquiring c (some poll)) (outside : ∀ c', poll ≠ .cancelling c')
    (taken : s.cancelPolled cfg i st c persisted published c' now uuid = some t) :
    StreamTurn cfg s t i (s.tasks.Live now st.taskId ∨
      s.tasks.distributedEnabled = true ∧ (persisted = true ∨ published = true)) := by
  have awaited : st.awaited = [c] := by
    cases poll <;> simp_all [Stream.awaited]
  obtain ⟨agrees, owned⟩ := (inv.own i).agrees st found
  have owner : s.caller c = some (.stream i) := owned c (by simp [awaited])
  have at_ : s.limiter.AcquireAt c st.taskId .polling := by
    cases poll with
    | cancelling c' => exact absurd rfl (outside c')
    | _ => simpa only [Stream.Agrees, place] using agrees
  have only : s.Only i c := (inv.own i).only found (by simp [awaited])
  rw [← StreamTaskManager.cancel_iff]
  unfold cancelPolled at taken
  dsimp only at taken
  set answer := s.tasks.cancel now st.taskId persisted published
  refine .before (u := { s with tasks := answer.1 }) (.tasks _) ?_
  split_ifs at taken with accepted
  · obtain ⟨u, called, rfl⟩ := Option.map_eq_some_iff.mp taken
    obtain ⟨l, stepped, rfl⟩ := Option.map_eq_some_iff.mp called
    have enabled := local_executing_enabled inv.reached at_ trivial
    simp only [localStep, startCancel, enabled, ↓reduceIte] at stepped
    split_ifs at stepped with used
    cases stepped
    have distinct : c ≠ c' := by
      rintro rfl
      obtain ⟨_, suspended⟩ := at_
      simp [suspended] at used
    have turn : ByTask cfg (.stream i) { s with tasks := answer.1 } _ :=
      .call (c := c') (e := .cancel c' st.taskId) rfl inv.called (by simp) called trivial
    refine ⟨turn.trans (.setStream i _), .intro (Function.update_self ..) ?_ ?_ ?_, ?_⟩
    · obtain ⟨deadline, suspended⟩ := at_
      refine ⟨⟨deadline, ?_⟩, ?_⟩
      · simp [LocalState.setCall, setStream, Function.update_of_ne distinct, suspended]
      · simp [LocalState.setCall, setStream]
    · simp [Stream.awaited, setStream, Function.update_of_ne distinct, owner]
    · intro c₂ owner₂ executing
      by_cases new : c₂ = c'
      · simp [Stream.awaited, new]
      · simp only [setStream, Function.update_of_ne new] at owner₂
        simp only [ServiceState.Executing, setStream, LocalState.setCall,
          Function.update_of_ne new] at executing
        simp [Stream.awaited, only c₂ owner₂ executing]
    · exact iff_of_true ⟨_, c, c', Function.update_self .., rfl⟩ accepted
  · have turn := answerPoll_turn (s := { s with tasks := answer.1 }) inv.called owner at_ only taken
    exact ⟨turn.task, turn.own, turn.cancelling.trans (by simp [accepted])⟩

/-- The release of a stream goes on. -/
theorem released_turn {taskId : String} {watched : Bool} {e : LocalEvent} (inv : ServiceInv cfg s)
    (found : s.streams i = some ⟨taskId, watched, .releasing c⟩) (taken : s.resume cfg e = some t)
    (call : e.call = c) : StreamTurn cfg s t i False := by
  obtain ⟨⟨permit, pc, suspended⟩, owned⟩ := (inv.own i).agrees _ found
  have owner := owned c (by simp [Stream.awaited])
  have only := ((inv.own i).only found (by simp [Stream.awaited])).resume taken call
  obtain ⟨_, -, caller, streams, -⟩ := resume_calls taken
  have found' : t.streams i = some ⟨taskId, watched, .releasing c⟩ := by rw [streams, found]
  refine ⟨.resume call owner inv.called taken, .intro found' ?_ ?_ ?_,
    not_cancelling found' (by simp)⟩
  · subst call
    exact ⟨permit, (resume_move taken).release suspended⟩
  · simpa [Stream.awaited, caller] using owner
  · simp only [Stream.awaited, List.mem_singleton]
    exact only

/-- An interrupted stream gives up its place in the limiter. -/
theorem interruptStream_turn (inv : ServiceInv cfg s) (found : s.streams i = some st)
    (taken : s.interruptStream cfg i st = some t) : StreamTurn cfg s t i False := by
  obtain ⟨agrees, owned⟩ := (inv.own i).agrees st found
  obtain ⟨taskId, watched, pc⟩ := st
  unfold interruptStream at taken
  split at taken
  · next place =>
    cases taken
    cases place
    have stopped : (s.setStream i ⟨taskId, watched, .finished⟩).streams i =
        some ⟨taskId, watched, .finished⟩ := Function.update_self ..
    refine ⟨.setStream i _, .intro stopped trivial (by simp [Stream.awaited]) ?_,
      not_cancelling stopped (by simp)⟩
    intro c owner executing
    obtain ⟨st, found', member⟩ := (inv.own i).inside c owner executing
    rw [found] at found'
    cases found'
    exact absurd member (by simp [Stream.awaited])
  · next c place =>
    cases place
    obtain ⟨pc, at_, -⟩ := agrees
    have turn := settled_turn ⟨taskId, watched, .acquiring c none⟩ inv.called
      (owned c (by simp [Stream.awaited])) at_
      ((inv.own i).only found (by simp [Stream.awaited])) taken rfl (by simp)
    have same : t.setStream i ⟨taskId, watched, .acquiring c none⟩ = t := by
      obtain ⟨-, -, -, streams, -⟩ := resume_calls taken
      rw [setStream, Function.update_eq_self_iff.mpr (by rw [streams, found])]
    rwa [same] at turn
  · next c place =>
    cases place
    exact released_turn inv found taken rfl
  · next c c' place =>
    cases place
    -- the cancellation passes through the limiter's `cancel` and then through `acquire`
    obtain ⟨at_, inner⟩ := agrees
    have owner := owned c (by simp [Stream.awaited])
    have owner' := owned c' (by simp [Stream.awaited])
    obtain ⟨v, both, rfl⟩ := Option.map_eq_some_iff.mp taken
    obtain ⟨u, first, second⟩ := Option.bind_eq_some_iff.mp both
    have turn : ByTask cfg (.stream i) s u :=
      .resume (c := c') rfl owner' inv.called first
    have distinct : c ≠ c' := by
      rintro rfl
      obtain ⟨_, suspended⟩ := at_
      simp [suspended] at inner
    obtain ⟨l, stepped, rfl⟩ := Option.map_eq_some_iff.mp first
    simp only [localStep, inner, Option.bind_some, interruptCall, Option.some.injEq] at stepped
    subst stepped
    have polling : (s.limiter.setCall c' (.cancel taskId .raised)).AcquireAt c taskId .polling := by
      obtain ⟨deadline, suspended⟩ := at_
      exact ⟨deadline, by simp [LocalState.setCall, Function.update_of_ne distinct, suspended]⟩
    refine .before turn (settled_turn ⟨taskId, watched, .acquiring c (some (.cancelling c'))⟩
      (turn.called inv.called) owner polling ?_ second rfl (by simp))
    · intro c₂ owner₂ executing
      by_cases left : c₂ = c'
      · subst left
        simp [ServiceState.Executing, LocalState.setCall] at executing
      · obtain ⟨st, found', member⟩ := (inv.own i).inside c₂ owner₂ (by
          simpa only [ServiceState.Executing, LocalState.setCall, Function.update_of_ne left]
            using executing)
        rw [found] at found'
        cases found'
        simpa [Stream.awaited, left] using member
  · next c poll other place =>
    cases place
    have at_ : s.limiter.AcquireAt c taskId .polling := by
      cases poll with
      | cancelling c' => exact absurd rfl (other c')
      | _ => exact agrees
    have awaited : (Stream.mk taskId watched (.acquiring c (some poll))).awaited = [c] := by
      cases poll with
      | cancelling c' => exact absurd rfl (other c')
      | _ => rfl
    obtain ⟨u, resumed, rfl⟩ := Option.map_eq_some_iff.mp taken
    exact settled_turn ⟨taskId, watched, .acquiring c (some poll)⟩ inv.called
      (owned c (by simp [awaited])) at_ ((inv.own i).only found (by simp [awaited])) resumed rfl
      (by simp)
  · cases taken
  · cases taken

/-- A call that gets the lock was waiting for it. -/
theorem executing_of_lock (taken : s.resume cfg (.lock c) = some t) :
    s.limiter.lock = none ∧ s.Executing c := by
  have move := resume_move taken
  generalize t.limiter = l at move
  cases move with
  | joins free suspended | resumes free suspended | leaves free suspended =>
    exact ⟨free, by simp [ServiceState.Executing, suspended, AcquirePc.Executing]⟩
  | cancels free suspended | releases free suspended | closes free suspended =>
    exact ⟨free, by simp [ServiceState.Executing, suspended]⟩

/-- The turn of a stream that waits for the condition lock. -/
theorem lock_turn {now : ℚ} {uuid : String} (inv : ServiceInv cfg s)
    (owner : s.caller c = some (.stream i))
    (taken : serviceStep cfg s (.lock c now uuid) = some t) : StreamTurn cfg s t i False := by
  obtain ⟨u, resumed, goesOn⟩ := Option.bind_eq_some_iff.mp taken
  obtain ⟨free, executing⟩ := executing_of_lock resumed
  obtain ⟨st, found, member⟩ := (inv.own i).inside c owner executing
  obtain ⟨agrees, owned⟩ := (inv.own i).agrees st found
  obtain ⟨_, -, caller, streams, -⟩ := resume_calls resumed
  have unheld {taskId : String} {c' : CallId} : ¬ s.limiter.AcquireAt c' taskId .polling := by
    intro polling
    have held := (local_pollerHolds inv.reached c').mpr ⟨taskId, polling⟩
    simp [free] at held
  have turn : ByTask cfg (.stream i) s u := .resume (c := c) rfl owner inv.called resumed
  obtain ⟨taskId, watched, pc⟩ := st
  simp only [streams, caller, owner] at goesOn
  cases pc with
  | registering => simp [Stream.awaited] at member
  | queued => simp [Stream.awaited] at member
  | finished => simp [Stream.awaited] at member
  | releasing c' =>
    obtain rfl : c = c' := by simpa [Stream.awaited] using member
    obtain ⟨permit, pc, suspended⟩ := agrees
    obtain ⟨pc', released⟩ := (resume_move resumed).release suspended
    simp only [LocalEvent.call] at released
    simp only [released, Option.some.injEq] at goesOn
    subst goesOn
    exact released_turn inv found resumed rfl
  | acquiring c' poll =>
    cases poll with
    | some poll =>
      cases poll with
      | cancelling c₂ => exact absurd agrees.1 unheld
      | disconnect => exact absurd agrees unheld
      | marking => exact absurd agrees unheld
    | none =>
      obtain rfl : c = c' := by simpa [Stream.awaited] using member
      obtain ⟨pc, at_, idle⟩ := agrees
      obtain ⟨pc', after, -⟩ := (resume_move resumed).acquireAt at_
      have only : u.Only i c :=
        ((inv.own i).only found (by simp [Stream.awaited])).resume resumed rfl
      have owner' : u.caller c = some (.stream i) := by rw [caller, owner]
      obtain ⟨deadline, suspended⟩ := after
      by_cases polling : pc' = .polling
      · subst polling
        simp only [suspended, found, Option.bind_some] at goesOn
        exact .before turn (shouldCancel_turn ⟨taskId, watched, .acquiring c none⟩
          (turn.called inv.called) owner' ⟨deadline, suspended⟩ only goesOn)
      · have same : u = t := by
          cases pc' <;> simp_all
        subst same
        have found' : u.streams i = some ⟨taskId, watched, .acquiring c none⟩ := by
          rw [streams, found]
        exact ⟨turn, own_acquiring found' rfl ⟨deadline, suspended⟩ polling owner' only,
          not_cancelling found' (by simp)⟩

/-- A stream between two limiter calls changes its place. -/
theorem outside_turn (inv : ServiceInv cfg s) (m : StreamTaskManager H)
    (before : ∀ st, s.streams i = some st → ∀ c ∈ st.awaited, ¬ s.Executing c)
    (outside : st.pc = .registering ∨ st.pc = .queued ∨ st.pc = .finished) :
    StreamTurn cfg s (setStream { s with tasks := m } i st) i False := by
  have found : (setStream { s with tasks := m } i st).streams i = some st := Function.update_self ..
  have awaited : st.awaited = [] := by
    rcases outside with pc | pc | pc <;> simp [Stream.awaited, pc]
  refine ⟨(ByTask.tasks m).trans (.setStream i st), .intro found ?_ (by simp [awaited]) ?_,
    not_cancelling found ?_⟩
  · rcases outside with pc | pc | pc <;> simp [Stream.Agrees, pc]
  · intro c owner executing
    obtain ⟨st', found', member⟩ := (inv.own i).inside c owner executing
    exact absurd executing (before st' found' c member)
  · rcases outside with pc | pc | pc <;> simp [pc]

/-- The stream enters `acquire` or `release` between two limiter calls. -/
theorem starts_turn {e : LocalEvent} (inv : ServiceInv cfg s) (m : StreamTaskManager H)
    (idle : ∀ c, s.caller c = some (.stream i) → ¬ s.Executing c) (same : e.call = c)
    (awaited : st.awaited = [c])
    (outside : ∀ c c', st.pc ≠ .acquiring c (some (.cancelling c')))
    (taken : ServiceState.call { s with tasks := m } cfg (.stream i) c e = some u)
    (starts : e.Starts) (agrees : st.Agrees u.limiter) :
    StreamTurn cfg s (u.setStream i st) i False := by
  have turn : ByTask cfg (.stream i) { s with tasks := m } u :=
    .call same inv.called (fun _ _ _ => ⟨i, rfl⟩) taken starts
  subst same
  obtain ⟨l, stepped, rfl⟩ := Option.map_eq_some_iff.mp taken
  obtain ⟨call, updated, -⟩ := (localStep_move stepped).calls
  refine ⟨(ByTask.tasks m).trans (turn.trans (.setStream i st)),
    .intro (Function.update_self ..) agrees ?_ ?_, not_cancelling (Function.update_self ..) outside⟩
  · simp [awaited, setStream]
  · intro c owner executing
    by_contra other
    simp only [awaited, List.mem_singleton] at other
    simp only [setStream, Function.update_of_ne other] at owner
    simp only [ServiceState.Executing, setStream, updated, Function.update_of_ne other] at executing
    exact idle c owner executing

end Turns

/-! ### The condition under which no task waits for a lock that it holds -/

/-- A stream that is polled under the lock sees its client gone, and the registry accepts the
cancellation: a live entry is there, or the backend takes the marker or the broadcast. -/
def WithdrawsItself (s : ServiceState H) : ServiceEvent H → Prop
  | .disconnected i answer _ now _ => answer = true ∧ ∃ st, s.streams i = some st ∧
      s.tasks.distributedEnabled = false ∧ s.tasks.Live now st.taskId
  | .marked i persisted published _ now _ => ∃ st, s.streams i = some st ∧
      (s.tasks.Live now st.taskId ∨
        s.tasks.distributedEnabled = true ∧ (persisted = true ∨ published = true))
  | _ => False

/-- Where the `finally` block can release, no limiter call of the stream executes. -/
theorem queuePermit_idle {cfg : Config} {s : ServiceState H} {i : StreamId} {st : Stream}
    {permit : Option StreamQueuePermit} (inv : ServiceInv cfg s) (found : s.streams i = some st)
    (ready : st.queuePermit s.limiter = some permit) :
    (∀ c, s.caller c = some (.stream i) → ¬ s.Executing c) ∧ ¬ s.Cancelling i := by
  obtain ⟨taskId, watched, pc⟩ := st
  unfold Stream.queuePermit at ready
  split at ready
  · next place =>
    cases place
    refine ⟨fun c owner executing => ?_, (not_cancelling found (by simp)).mp⟩
    obtain ⟨st', found', member⟩ := (inv.own i).inside c owner executing
    rw [found] at found'
    cases found'
    simp [Stream.awaited] at member
  · next c place =>
    cases place
    refine ⟨fun c' owner executing => ?_, (not_cancelling found (by simp)).mp⟩
    obtain rfl : c' = c := (inv.own i).only found (by simp [Stream.awaited]) c' owner executing
    revert executing
    split at ready <;> simp_all [ServiceState.Executing, AcquirePc.Executing]
  · cases ready

/-- A suspended acquire that does not poll is awaited by its stream. -/
theorem acquiring_of_acquireAt {cfg : Config} {s : ServiceState H} {c : CallId} {taskId : String}
    {pc : AcquirePc} (inv : ServiceInv cfg s) (at_ : s.limiter.AcquireAt c taskId pc)
    (executing : pc.Executing) (idle : pc ≠ .polling) :
    ∃ i watched, s.caller c = some (.stream i) ∧
      s.streams i = some ⟨taskId, watched, .acquiring c none⟩ := by
  obtain ⟨i, owner⟩ := inv.acquirer c taskId pc at_
  obtain ⟨deadline, suspended⟩ := at_
  obtain ⟨⟨taskId', watched, place⟩, found, member⟩ := (inv.own i).inside c owner (by
    simpa [ServiceState.Executing, suspended] using executing)
  obtain ⟨agrees, -⟩ := (inv.own i).agrees _ found
  refine ⟨i, watched, owner, ?_⟩
  unfold Stream.awaited Stream.Agrees at *
  cases place with
  | acquiring c' poll =>
    cases poll with
    | none =>
      obtain rfl : c = c' := by simpa using member
      obtain ⟨pc', at_', -⟩ := agrees
      obtain ⟨rfl, -⟩ := at_'.unique ⟨deadline, suspended⟩
      exact found
    | some poll =>
      cases poll with
      | cancelling c₂ =>
        rcases (by simpa using member : c = c' ∨ c = c₂) with rfl | rfl
        · exact absurd (agrees.1.unique ⟨deadline, suspended⟩).2.symm idle
        · exact absurd (agrees.2.symm.trans suspended) (by simp)
      | _ =>
        obtain rfl : c = c' := by simpa using member
        exact absurd (agrees.unique ⟨deadline, suspended⟩).2.symm idle
  | releasing c' =>
    obtain rfl : c = c' := by simpa using member
    obtain ⟨_, _, released⟩ := agrees
    exact absurd (released.symm.trans suspended) (by simp)
  | _ => simp at member

theorem cancelRequested_turn {cfg : Config} {s t : ServiceState H} {r : RequestId} {c : CallId}
    {taskId : String} {persisted published : Bool} {now : ℚ} (called : s.Called)
    (taken : s.cancelRequested cfg r taskId persisted published c now = some t) :
    ByTask cfg (.request r) s t := by
  unfold cancelRequested at taken
  dsimp only at taken
  set answer := s.tasks.cancel now taskId persisted published
  refine .trans (t := { s with tasks := answer.1 }) (.tasks _) ?_
  split_ifs at taken
  · obtain ⟨u, started, rfl⟩ := Option.map_eq_some_iff.mp taken
    refine .trans (.call (c := c) rfl called (by simp) started trivial) (.setRequest r _ ?_)
    obtain ⟨l, -, rfl⟩ := Option.map_eq_some_iff.mp started
    rintro c' same
    cases same
    simp
  · cases taken
    exact .setRequest r _ (by simp)

theorem StreamTurn.iff {cfg : Config} {s t : ServiceState H} {i : StreamId} {p q : Prop}
    (turn : StreamTurn cfg s t i p) (same : p ↔ q) : StreamTurn cfg s t i q :=
  ⟨turn.task, turn.own, turn.cancelling.trans same⟩

/-- The task that an event resumes. -/
def ServiceState.actor (s : ServiceState H) : ServiceEvent H → Option TaskRef
  | .register i _ _ _ _ | .registered i _ _ _ | .acquire i _ _ | .disconnected i _ _ _ _
  | .marked i _ _ _ _ _ | .withdrawn i _ _ | .bind i _ | .stop i _ _ _ | .release i _
  | .finalize i _ | .interrupt i => some (.stream i)
  | .lock c _ _ | .wake c => s.caller c
  | .cancel r _ _ _ _ _ | .cancelMarked r _ _ _ _ | .close r _ | .interruptRequest r =>
    some (.request r)

section Events

variable {cfg : Config} {s t : ServiceState H} {i : StreamId} (inv : ServiceInv cfg s)
include inv

/-- A stream that awaits nothing has no limiter call that executes. -/
theorem idle_of_awaited {st : Stream} (found : s.streams i = some st) (awaits : st.awaited = [])
    (c : CallId) (owner : s.caller c = some (.stream i)) : ¬ s.Executing c := by
  intro executing
  obtain ⟨st', found', member⟩ := (inv.own i).inside c owner executing
  rw [found] at found'
  cases found'
  simp [awaits] at member

theorem register_turn {taskId : String} {ownerId : Option String} {watched : Bool} {now : ℚ}
    (taken : serviceStep cfg s (.register i taskId ownerId watched now) = some t) :
    StreamTurn cfg s t i False := by
  simp only [serviceStep] at taken
  split at taken
  · cases taken
  · next unused =>
    cases taken
    refine outside_turn inv _ (fun st found => by simp [found] at unused) ?_
    dsimp only
    split_ifs <;> simp

theorem registered_turn {ownerStored remotelyCancelled : Bool} {now : ℚ}
    (taken : serviceStep cfg s (.registered i ownerStored remotelyCancelled now) = some t) :
    StreamTurn cfg s t i False := by
  simp only [serviceStep] at taken
  split at taken
  · next taskId watched found =>
    cases taken
    refine outside_turn inv _ (fun st found' => ?_) ?_
    · rw [found] at found'
      cases found'
      simp [Stream.awaited]
    · dsimp only
      split_ifs <;> simp
  · cases taken

theorem acquire_turn {c : CallId} {now : ℚ}
    (taken : serviceStep cfg s (.acquire i c now) = some t) : StreamTurn cfg s t i False := by
  simp only [serviceStep] at taken
  split at taken
  · next taskId watched found =>
    split at taken
    · cases taken
    · obtain ⟨u, started, rfl⟩ := Option.map_eq_some_iff.mp taken
      obtain ⟨l, stepped, rfl⟩ := Option.map_eq_some_iff.mp started
      refine starts_turn (c := c) inv (s.tasks.purgeExpired now) (idle_of_awaited inv found rfl)
        rfl rfl (by simp) started trivial ?_
      cases localStep_move stepped with
      | acquireAnswers _ _ _ | acquireStarts _ _ _ =>
        exact ⟨_, ⟨_, Function.update_self ..⟩, by simp⟩
  · cases taken

/-- A waiting call that wakes is the one its stream awaits. -/
theorem wake_turn {c : CallId} (taken : serviceStep cfg s (.wake c) = some t) :
    ∃ i, s.caller c = some (.stream i) ∧ StreamTurn cfg s t i False := by
  have move := resume_move (s := s) (t := t) taken
  obtain ⟨taskId, deadline, suspended⟩ : ∃ taskId deadline,
      s.limiter.calls c = some (.acquire taskId deadline .waiting) := by
    generalize t.limiter = l at move
    cases move with
    | wakes suspended => exact ⟨_, _, suspended⟩
  have at_ : s.limiter.AcquireAt c taskId .waiting := ⟨deadline, suspended⟩
  obtain ⟨i, watched, owner, found⟩ := acquiring_of_acquireAt inv at_ trivial (by simp)
  obtain ⟨-, -, -, streams, -⟩ := resume_calls (s := s) (t := t) taken
  have turn := settled_turn ⟨taskId, watched, .acquiring c none⟩ inv.called owner at_
    ((inv.own i).only found (by simp [Stream.awaited])) taken rfl (by simp)
  have same : t.setStream i ⟨taskId, watched, .acquiring c none⟩ = t := by
    rw [setStream, Function.update_eq_self_iff.mpr (by rw [streams, found])]
  rw [same] at turn
  exact ⟨i, owner, turn⟩

/-- The answer of `is_disconnected` ends the poll or leads to a cancellation under the lock. -/
theorem disconnected_turn {answer : Bool} {c' : CallId} {now : ℚ} {uuid : String}
    (taken : serviceStep cfg s (.disconnected i answer c' now uuid) = some t) :
    StreamTurn cfg s t i (WithdrawsItself s (.disconnected i answer c' now uuid)) := by
  simp only [serviceStep] at taken
  split at taken
  · next taskId watched c found =>
    obtain ⟨at_, owned⟩ := (inv.own i).agrees _ found
    have owner : s.caller c = some (.stream i) := owned c (by simp [Stream.awaited])
    have only : s.Only i c := (inv.own i).only found (by simp [Stream.awaited])
    split at taken
    · next refused =>
      exact (answerPoll_turn inv.called owner at_ only taken).iff (by simp_all [WithdrawsItself])
    · next seen =>
      split at taken
      · next distributed =>
        cases taken
        refine ⟨.setStream i _, own_polling (Function.update_self ..) rfl (by simp) at_ owner only,
          (not_cancelling (Function.update_self ..) (by simp)).trans ?_⟩
        simp [WithdrawsItself, distributed]
      · next single =>
        refine (cancelPolled_turn inv found rfl (by simp) taken).iff ?_
        simp_all [WithdrawsItself]
  · cases taken

theorem marked_turn {persisted published : Bool} {c' : CallId} {now : ℚ} {uuid : String}
    (taken : serviceStep cfg s (.marked i persisted published c' now uuid) = some t) :
    StreamTurn cfg s t i (WithdrawsItself s (.marked i persisted published c' now uuid)) := by
  simp only [serviceStep] at taken
  split at taken
  · next taskId watched c found =>
    refine (cancelPolled_turn inv found rfl (by simp) taken).iff ?_
    simp [WithdrawsItself, found]
  · cases taken

/-- The call of `cancel` is still inside, so the poll does not go on. -/
theorem not_withdrawn {now : ℚ} {uuid : String} :
    serviceStep cfg s (.withdrawn i now uuid) = none := by
  simp only [serviceStep]
  split
  · next taskId watched c c' found =>
    obtain ⟨⟨-, inner⟩, -⟩ := (inv.own i).agrees _ found
    simp [inner]
  · rfl

theorem release_turn {c : CallId} (taken : serviceStep cfg s (.release i c) = some t) :
    StreamTurn cfg s t i False := by
  obtain ⟨st, found, taken⟩ := Option.bind_eq_some_iff.mp taken
  obtain ⟨permit, ready, taken⟩ := Option.bind_eq_some_iff.mp taken
  obtain ⟨u, started, rfl⟩ := Option.map_eq_some_iff.mp taken
  obtain ⟨l, stepped, rfl⟩ := Option.map_eq_some_iff.mp started
  refine starts_turn (c := c) inv s.tasks (queuePermit_idle inv found ready).1 rfl rfl
    (by simp) started trivial ?_
  cases localStep_move stepped with
  | releaseStarts _ => exact ⟨permit, _, Function.update_self ..⟩

theorem finalize_turn {now : ℚ} (taken : serviceStep cfg s (.finalize i now) = some t) :
    StreamTurn cfg s t i False := by
  simp only [serviceStep] at taken
  split at taken
  · next taskId watched c found =>
    have before (ended : ¬ s.Executing c) (st : Stream) (found' : s.streams i = some st) :
        ∀ c ∈ st.awaited, ¬ s.Executing c := by
      rw [found] at found'
      cases found'
      simpa [Stream.awaited] using ended
    split at taken
    · next permit ended =>
      cases taken
      exact outside_turn inv _ (before (by simp [ServiceState.Executing, ended])) (by simp)
    · next permit ended =>
      cases taken
      exact outside_turn inv s.tasks (before (by simp [ServiceState.Executing, ended])) (by simp)
    · cases taken
  · cases taken

/-- A stream that holds the permit uses the registry only. -/
theorem answering_turn {st : Stream} {permit : Option StreamQueuePermit}
    (found : s.streams i = some st) (ready : st.queuePermit s.limiter = some permit)
    (m : StreamTaskManager H) : StreamTurn cfg s { s with tasks := m } i False :=
  ⟨.tasks m, ⟨(inv.own i).agrees, (inv.own i).inside⟩,
    iff_of_false (queuePermit_idle inv found ready).2 id⟩

theorem cancel_turn {r : RequestId} {c : CallId} {taskId : String}
    {ownerId remoteOwner : Option String} {now : ℚ}
    (taken : serviceStep cfg s (.cancel r c taskId ownerId remoteOwner now) = some t) :
    ByTask cfg (.request r) s t := by
  simp only [serviceStep] at taken
  split at taken
  · cases taken
  · have purged : ByTask cfg (.request r) s
        (if ownerId.isSome then { s with tasks := s.tasks.purgeExpired now } else s) := by
      split
      · exact .tasks _
      · exact .tasks s.tasks
    generalize (if ownerId.isSome then { s with tasks := s.tasks.purgeExpired now } else s) = u
      at taken purged
    refine purged.trans ?_
    split at taken
    · split at taken
      · cases taken
        exact .setRequest r _ (by simp)
      · exact cancelRequested_turn (purged.called inv.called) taken
    · cases taken
      exact .setRequest r _ (by simp)

theorem close_turn {r : RequestId} {c : CallId}
    (taken : serviceStep cfg s (.close r c) = some t) : ByTask cfg (.request r) s t := by
  simp only [serviceStep] at taken
  split at taken
  · cases taken
  · obtain ⟨u, started, rfl⟩ := Option.map_eq_some_iff.mp taken
    refine .trans (.call (c := c) rfl inv.called (by simp) started trivial) (.setRequest r _ ?_)
    obtain ⟨l, -, rfl⟩ := Option.map_eq_some_iff.mp started
    rintro c' same
    cases same
    simp

/-- Every step is a turn of a stream or of a request. -/
theorem serviceStep_turn {e : ServiceEvent H} (taken : serviceStep cfg s e = some t) :
    (∃ i, s.actor e = some (.stream i) ∧ StreamTurn cfg s t i (WithdrawsItself s e)) ∨
      ∃ r, s.actor e = some (.request r) ∧ ByTask cfg (.request r) s t ∧ ¬ WithdrawsItself s e := by
  cases e with
  | register i taskId ownerId watched now => exact .inl ⟨i, rfl, register_turn inv taken⟩
  | registered i ownerStored remotelyCancelled now =>
    exact .inl ⟨i, rfl, registered_turn inv taken⟩
  | acquire i c now => exact .inl ⟨i, rfl, acquire_turn inv taken⟩
  | lock c now uuid =>
    cases owner : s.caller c with
    | none =>
      obtain ⟨u, resumed, -⟩ := Option.bind_eq_some_iff.mp taken
      obtain ⟨-, executing⟩ := executing_of_lock resumed
      simp [ServiceState.Executing, (inv.called c).mp owner] at executing
    | some task =>
      cases task with
      | stream i => exact .inl ⟨i, owner, lock_turn inv owner taken⟩
      | request r =>
        obtain ⟨u, resumed, goesOn⟩ := Option.bind_eq_some_iff.mp taken
        obtain ⟨-, -, caller, -⟩ := resume_calls resumed
        simp only [caller, owner] at goesOn
        have same : u = t := by
          split at goesOn
          · simp_all
          · exact Option.some.inj goesOn
        subst same
        exact .inr ⟨r, owner, .resume (c := c) rfl owner inv.called resumed,
          by simp [WithdrawsItself]⟩
  | wake c => exact .inl (wake_turn inv taken)
  | disconnected i answer c' now uuid => exact .inl ⟨i, rfl, disconnected_turn inv taken⟩
  | marked i persisted published c' now uuid => exact .inl ⟨i, rfl, marked_turn inv taken⟩
  | withdrawn i now uuid =>
    rw [not_withdrawn inv] at taken
    cases taken
  | bind i handle =>
    obtain ⟨st, found, taken⟩ := Option.bind_eq_some_iff.mp taken
    split at taken
    · next permit ready =>
      cases taken
      exact .inl ⟨i, rfl, answering_turn inv found ready _⟩
    · cases taken
  | stop i persisted published now =>
    obtain ⟨st, found, taken⟩ := Option.bind_eq_some_iff.mp taken
    split at taken
    · next permit ready =>
      cases taken
      exact .inl ⟨i, rfl, answering_turn inv found ready _⟩
    · cases taken
  | release i c => exact .inl ⟨i, rfl, release_turn inv taken⟩
  | finalize i now => exact .inl ⟨i, rfl, finalize_turn inv taken⟩
  | cancel r c taskId ownerId remoteOwner now =>
    exact .inr ⟨r, rfl, cancel_turn inv taken, by simp [WithdrawsItself]⟩
  | cancelMarked r c persisted published now =>
    simp only [serviceStep] at taken
    split at taken
    · exact .inr ⟨r, rfl, cancelRequested_turn inv.called taken, by simp [WithdrawsItself]⟩
    · cases taken
  | close r c => exact .inr ⟨r, rfl, close_turn inv taken, by simp [WithdrawsItself]⟩
  | interrupt i =>
    obtain ⟨st, found, taken⟩ := Option.bind_eq_some_iff.mp taken
    exact .inl ⟨i, rfl, interruptStream_turn inv found taken⟩
  | interruptRequest r =>
    simp only [serviceStep] at taken
    split at taken
    · cases taken
      exact .inr ⟨r, rfl, .setRequest r _ (by simp), by simp [WithdrawsItself]⟩
    · next c found =>
      exact .inr ⟨r, rfl, .resume (c := c) rfl (inv.requests r c found) inv.called taken,
        by simp [WithdrawsItself]⟩
    · cases taken

end Events

theorem serviceInv_initial (cfg : Config) (m : StreamTaskManager H) :
    ServiceInv cfg { tasks := m } where
  reached := .refl _ _
  called := by simp [ServiceState.Called]
  requests := by simp
  acquirer := by simp [LocalState.AcquireAt]
  own i := ⟨by simp, by simp⟩

theorem ServiceInv.step {cfg : Config} {s t : ServiceState H} {e : ServiceEvent H}
    (inv : ServiceInv cfg s) (taken : serviceStep cfg s e = some t) : ServiceInv cfg t := by
  rcases serviceStep_turn inv taken with ⟨i, -, turn⟩ | ⟨r, -, turn, -⟩
  · refine inv.turn turn.task ?_
    rintro j same
    cases same
    exact turn.own
  · exact inv.turn turn (by simp)

end HeyeeAgent.StreamChat
