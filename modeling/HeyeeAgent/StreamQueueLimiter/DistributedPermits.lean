import HeyeeAgent.StreamQueueLimiter.Distributed
import HeyeeAgent.StreamQueueLimiter.RedisAdmission

/-! # Who owns a member of the permit set

A permit enters the set when the server executes the claim of an acquire. It stays accounted for
as long as the acquire reads the reply, and the permit's release is not over before its `ZREM` is
executed. The invariant names, for each member, the acquire that holds it.
-/

namespace HeyeeAgent.StreamQueueLimiter.Distributed

open Machine Redis State

/-- The acquire has not ended. -/
def AcquirePc.Executing : AcquirePc → Prop
  | .returned _ | .raised => False
  | _ => True

/-- Each permit belongs to an acquire that is executing, or that was granted and whose release has
not ended. -/
def Owned (s : State) : Prop :=
  ∀ permitId ∈ s.redis.permits, ∃ c a pc flight, s.calls c = some ⟨.acquire a pc, flight⟩ ∧
    a.permitId = permitId ∧
      (pc.Executing ∨ pc = .returned ⟨.granted, some a.permit⟩ ∧ permitId ∉ s.released)

/-- An acquire reads the grant that the server has executed, the server grants no claim that was
given up, and a release does not end before its `ZREM`. The clauses concern permits whose lease
has not lapsed. -/
def KeepsAccount (n : ℕ) (s : State) : Event → Prop
  | .fail c | .interrupt c =>
    match s.calls c with
    | some ⟨.acquire a .claiming, some ⟨_, some 1⟩⟩ => a.permitId ∉ s.redis.permits
    | some ⟨.release permit .removing, some ⟨_, none⟩⟩ => permit.permitId ∉ s.redis.permits
    | _ => True
  | .executeOrphan index =>
    match s.orphans[index]? with
    | some (.claim taskId _ nowMs _) => ¬ Grants s.redis taskId n nowMs (scanLimit n)
    | _ => True
  | .release _ acquired =>
    match s.calls acquired with
    | some ⟨.acquire a (.returned ⟨_, some permit⟩), _⟩ =>
      (s.instances a.inst).client = true ∨ permit.permitId ∉ s.redis.permits
    | _ => True
  | _ => True

instance (n : ℕ) (s : State) (e : Event) : Decidable (KeepsAccount n s e) := by
  unfold KeepsAccount
  split <;> first | infer_instance | (split <;> infer_instance)

def NoClaim : Command → Prop
  | .claim .. => False
  | _ => True

def Plain (flight : Option Flight) : Prop := ∀ f ∈ flight, NoClaim f.command

@[simp] theorem plain_none : Plain none := by simp [Plain]

@[simp] theorem plain_some {f : Flight} : Plain (some f) ↔ NoClaim f.command := by simp [Plain]

/-- What is in flight at each await of an acquire. -/
def AcquireOk (a : AcquireArgs) (flight : Option Flight) : AcquirePc → Prop
  | .claiming => ∃ nowMs leaseUntilMs reply,
      flight = some ⟨.claim a.taskId a.permitId nowMs leaseUntilMs, reply⟩
  | .removing rest ending => (∀ command ∈ rest, NoClaim command) ∧
      (∀ result, ending = .returns result → result.permit = none) ∧ Plain flight
  | .returned result =>
      (result.permit = none ∨ result = ⟨.granted, some a.permit⟩) ∧ flight = none
  | _ => Plain flight

/-- Past its `ZREM`, the permit of a release is out of the set. -/
def ReleaseOk (permits : SortedSet String ℤ) (permit : StreamQueuePermit)
    (flight : Option Flight) : ReleasePc → Prop
  | .removing => ∃ reply, flight = some ⟨.release permit.permitId, reply⟩ ∧
      (reply.isSome → permit.permitId ∉ permits)
  | _ => permit.permitId ∉ permits ∧ Plain flight

def Ok (permits : SortedSet String ℤ) (call : Call) : Prop :=
  match call.body with
  | .acquire a pc => AcquireOk a call.flight pc
  | .release permit pc => ReleaseOk permits permit call.flight pc
  | .cancel _ (.removing rest) => (∀ command ∈ rest, NoClaim command) ∧ Plain call.flight
  | .close _ (.removing rest) => (∀ command ∈ rest, NoClaim command) ∧ Plain call.flight
  | _ => Plain call.flight

inductive Holds (permitId : String) : Call → Prop
  /-- the server has granted the claim -/
  | answered (a : AcquireArgs) (command : Command) (own : a.permitId = permitId) :
    Holds permitId ⟨.acquire a .claiming, some ⟨command, some 1⟩⟩
  | returned (a : AcquireArgs) (flight : Option Flight) (own : a.permitId = permitId) :
    Holds permitId ⟨.acquire a (.returned ⟨.granted, some a.permit⟩), flight⟩

/-- The acquire has returned the permit. -/
def Returned (s : State) (c : CallId) (permitId : String) : Prop :=
  ∃ a flight, s.calls c = some ⟨.acquire a (.returned ⟨.granted, some a.permit⟩), flight⟩ ∧
    a.permitId = permitId

structure Accounts (s : State) : Prop where
  ok : ∀ c call, s.calls c = some call → Ok s.redis.permits call
  held : ∀ permitId ∈ s.redis.permits,
    permitId ∉ s.released ∧ ∃ c call, s.calls c = some call ∧ Holds permitId call
  known : ∀ c a pc flight, s.calls c = some ⟨.acquire a pc, flight⟩ → a.permitId ∈ s.permitIds
  unique : ∀ c c' a a' pc pc' flight flight', s.calls c = some ⟨.acquire a pc, flight⟩ →
    s.calls c' = some ⟨.acquire a' pc', flight'⟩ → a.permitId = a'.permitId → c = c'
  spent : ∀ permitId ∈ s.released, ∃ c, Returned s c permitId
  lent : ∀ c permit pc flight, s.calls c = some ⟨.release permit pc, flight⟩ →
    ∃ c', Returned s c' permit.permitId

namespace Accounts

variable {s t : State} {c : CallId}

theorem owned (acc : Accounts s) : Owned s := by
  intro permitId member
  obtain ⟨unspent, c, call, found, holds⟩ := acc.held permitId member
  cases holds with
  | answered a command own => exact ⟨c, a, _, _, found, own, .inl trivial⟩
  | returned a flight own => exact ⟨c, a, _, _, found, own, .inr ⟨rfl, unspent⟩⟩

/-- An acquire that holds nothing has no permit in the set. -/
theorem unheld (acc : Accounts s) {a : AcquireArgs} {pc : AcquirePc} {flight : Option Flight}
    (found : s.calls c = some ⟨.acquire a pc, flight⟩)
    (empty : ¬ Holds a.permitId ⟨.acquire a pc, flight⟩) : a.permitId ∉ s.redis.permits := by
  intro member
  obtain ⟨-, c', call, found', holds⟩ := acc.held _ member
  have same : c' = c := by
    cases holds with
    | answered a' command own => exact acc.unique _ _ _ _ _ _ _ _ found' found own
    | returned a' flight' own => exact acc.unique _ _ _ _ _ _ _ _ found' found own
  rw [same, found] at found'
  cases found'
  exact empty holds

/-- A returned permit belongs to no acquire that is still executing. -/
theorem not_returned (acc : Accounts s) {a : AcquireArgs} {pc : AcquirePc}
    {flight : Option Flight} (found : s.calls c = some ⟨.acquire a pc, flight⟩)
    (executing : pc.Executing) {c' : CallId} : ¬ Returned s c' a.permitId := by
  rintro ⟨a', flight', found', own⟩
  cases acc.unique _ _ _ _ _ _ _ _ found' found own
  rw [found] at found'
  cases found'
  exact executing

theorem ok_permits {permits permits' : SortedSet String ℤ} {call : Call}
    (gone : ∀ permit pc, call.body = .release permit pc → permit.permitId ∉ permits →
      permit.permitId ∉ permits') (ok : Ok permits call) : Ok permits' call := by
  obtain ⟨body, flight⟩ := call
  cases body with
  | release permit pc =>
    cases pc with
    | removing =>
      obtain ⟨reply, sent, absent⟩ := ok
      exact ⟨reply, sent, fun answered => gone permit .removing rfl (absent answered)⟩
    | publishing => exact ⟨gone permit _ rfl ok.1, ok.2⟩
    | returned => exact ⟨gone permit _ rfl ok.1, ok.2⟩
    | raised => exact ⟨gone permit _ rfl ok.1, ok.2⟩
  | acquire a pc => exact ok
  | cancel inst pc => cases pc <;> exact ok
  | close inst pc => cases pc <;> exact ok

/-- Commands other than a granted claim only take permits away. -/
theorem shrink (acc : Accounts s) {redis : RedisState}
    (fewer : ∀ permitId ∈ redis.permits, permitId ∈ s.redis.permits) :
    Accounts { s with redis } :=
  { acc with
    ok := fun c call found =>
      ok_permits (fun _ _ _ absent member => absent (fewer _ member)) (acc.ok c call found)
    held := fun permitId member => acc.held permitId (fewer _ member) }

/-- A granted claim adds the permit of the acquire that waits for its reply. -/
theorem grow (acc : Accounts s) {a : AcquireArgs} {command : Command} {redis : RedisState}
    (found : s.calls c = some ⟨.acquire a .claiming, some ⟨command, some 1⟩⟩)
    (added : ∀ permitId ∈ redis.permits, permitId = a.permitId ∨ permitId ∈ s.redis.permits) :
    Accounts { s with redis } :=
  { acc with
    ok := by
      intro c' call found'
      refine ok_permits (fun permit pc same absent member => ?_) (acc.ok c' call found')
      rcases added _ member with own | old
      · obtain ⟨body, flight⟩ := call
        cases same
        obtain ⟨c'', was⟩ := acc.lent c' permit pc flight found'
        exact acc.not_returned found trivial (own ▸ was)
      · exact absent old
    held := by
      intro permitId member
      rcases added _ member with rfl | old
      · refine ⟨fun now => ?_, c, _, found, .answered a command rfl⟩
        obtain ⟨c', was⟩ := acc.spent _ now
        exact acc.not_returned found trivial was
      · exact acc.held permitId old }

/-- One call moves on while the keys stay as they are. -/
theorem move (acc : Accounts s) (call : Call)
    (calls : t.calls = Function.update s.calls c (some call)) (redis : t.redis = s.redis)
    (ok : Ok s.redis.permits call)
    (holds : ∀ permitId ∈ s.redis.permits, ∀ old, s.calls c = some old → Holds permitId old →
      Holds permitId call)
    (running : ∀ permitId, ¬ Returned s c permitId)
    (ids : ∀ permitId ∈ s.permitIds, permitId ∈ t.permitIds)
    (args : ∀ a pc flight, call = ⟨.acquire a pc, flight⟩ →
      (∃ pc flight, s.calls c = some ⟨.acquire a pc, flight⟩) ∨
        a.permitId ∉ s.permitIds ∧ a.permitId ∈ t.permitIds)
    (lent : ∀ permit pc flight, call = ⟨.release permit pc, flight⟩ →
      ∃ c', Returned s c' permit.permitId)
    (spent : ∀ permitId ∈ t.released, permitId ∈ s.released ∨
      permitId ∉ s.redis.permits ∧ ∃ c', Returned s c' permitId) : Accounts t := by
  have self : t.calls c = some call := by rw [calls, Function.update_self]
  have other {c'} (different : c' ≠ c) : t.calls c' = s.calls c' := by
    rw [calls, Function.update_of_ne different]
  have returned {c' permitId} (was : Returned s c' permitId) : Returned t c' permitId := by
    obtain ⟨a, flight, found, own⟩ := was
    have different : c' ≠ c := fun same => running permitId ⟨a, flight, same ▸ found, own⟩
    exact ⟨a, flight, (other different).trans found, own⟩
  have was_known {c' a pc flight} (found : t.calls c' = some ⟨.acquire a pc, flight⟩) :
      (∃ pc flight, s.calls c' = some ⟨.acquire a pc, flight⟩) ∨
        c' = c ∧ a.permitId ∉ s.permitIds ∧ a.permitId ∈ t.permitIds := by
    by_cases same : c' = c
    · subst same
      rw [self] at found
      exact (args a pc flight (Option.some.inj found)).imp id fun fresh => ⟨rfl, fresh⟩
    · exact .inl ⟨pc, flight, (other same).symm.trans found⟩
  refine ⟨?_, ?_, ?_, ?_, ?_, ?_⟩
  · intro c' call' found
    rw [redis]
    by_cases same : c' = c
    · subst same
      rw [self] at found
      exact Option.some.inj found ▸ ok
    · exact acc.ok c' call' ((other same).symm.trans found)
  · intro permitId member
    rw [redis] at member
    obtain ⟨unspent, c', old, found, holding⟩ := acc.held permitId member
    refine ⟨fun now => ?_, ?_⟩
    · rcases spent permitId now with before | ⟨absent, -⟩
      · exact unspent before
      · exact absent member
    · by_cases same : c' = c
      · subst same
        exact ⟨c', call, self, holds permitId member old found holding⟩
      · exact ⟨c', old, (other same).trans found, holding⟩
  · intro c' a pc flight found
    rcases was_known found with ⟨pc', flight', before⟩ | ⟨-, -, now⟩
    · exact ids _ (acc.known _ _ _ _ before)
    · exact now
  · intro c₁ c₂ a₁ a₂ pc₁ pc₂ flight₁ flight₂ found₁ found₂ own
    rcases was_known found₁ with ⟨_, _, before₁⟩ | ⟨rfl, fresh₁, -⟩ <;>
      rcases was_known found₂ with ⟨_, _, before₂⟩ | ⟨rfl, fresh₂, -⟩
    · exact acc.unique _ _ _ _ _ _ _ _ before₁ before₂ own
    · exact absurd (own ▸ acc.known _ _ _ _ before₁) fresh₂
    · exact absurd (own ▸ acc.known _ _ _ _ before₂) fresh₁
    · rfl
  · intro permitId now
    rcases spent permitId now with before | ⟨-, c', was⟩
    · obtain ⟨c', was⟩ := acc.spent permitId before
      exact ⟨c', returned was⟩
    · exact ⟨c', returned was⟩
  · intro c' permit pc flight found
    by_cases same : c' = c
    · subst same
      rw [self] at found
      obtain ⟨c'', was⟩ := lent permit pc flight (Option.some.inj found)
      exact ⟨c'', returned was⟩
    · obtain ⟨c'', was⟩ := acc.lent c' permit pc flight ((other same).symm.trans found)
      exact ⟨c'', returned was⟩

end Accounts

/-- What the resumed segments of an acquire do, short of reading a grant. -/
structure AcquireMove (s : State) (c : CallId) (a : AcquireArgs) (t : State) : Prop where
  call : ∃ pc flight, t.calls = Function.update s.calls c (some ⟨.acquire a pc, flight⟩) ∧
    AcquireOk a flight pc
  redis : t.redis = s.redis
  permitIds : t.permitIds = s.permitIds
  released : t.released = s.released

/-- A segment that changes only a limiter or the orphans. -/
structure SameCalls (s t : State) : Prop where
  calls : t.calls = s.calls
  redis : t.redis = s.redis
  permitIds : t.permitIds = s.permitIds
  released : t.released = s.released

section Segments

variable {s t u : State} {c : CallId} {a : AcquireArgs}

theorem AcquireMove.after (same : SameCalls s t) (move : AcquireMove t c a u) :
    AcquireMove s c a u where
  call := same.calls ▸ move.call
  redis := move.redis.trans same.redis
  permitIds := move.permitIds.trans same.permitIds
  released := move.released.trans same.released

theorem same_modify (inst : InstanceId) (change : Instance → Instance) :
    SameCalls s (s.modify inst change) := ⟨rfl, rfl, rfl, rfl⟩

theorem same_abandon (call : Call) : SameCalls s (s.abandon call) := by
  unfold abandon
  split <;> exact ⟨rfl, rfl, rfl, rfl⟩

theorem put_move {pc : AcquirePc} (ok : AcquireOk a none pc) :
    AcquireMove s c a (s.put c (.acquire a pc)) := ⟨⟨pc, none, rfl, ok⟩, rfl, rfl, rfl⟩

theorem send_move {pc : AcquirePc} {command : Command} (ok : AcquireOk a (some ⟨command, none⟩) pc) :
    AcquireMove s c a (s.send c (.acquire a pc) command) := ⟨⟨pc, _, rfl, ok⟩, rfl, rfl, rfl⟩

theorem leave_move {ending : Ending}
    (bare : ∀ result, ending = .returns result → result.permit = none) :
    AcquireMove s c a (s.leave c a ending) := by
  cases ending with
  | returns result =>
    exact .after (same_modify _ _) (put_move ⟨.inl (bare result rfl), rfl⟩)
  | reraises => exact .after (same_modify _ _) (put_move plain_none)

theorem removal_noClaim {taskId : String} {notify : Bool} :
    ∀ command ∈ removal taskId notify, NoClaim command := by
  intro command member
  cases notify <;> simp [removal] at member
  · rw [member]; trivial
  · rcases member with rfl | rfl <;> trivial

theorem removeWaiter_move {notify : Bool} {ending : Ending}
    (bare : ∀ result, ending = .returns result → result.permit = none) :
    AcquireMove s c a (s.removeWaiter c a notify ending) := by
  unfold removeWaiter
  dsimp only
  split_ifs
  · exact .after (same_modify _ _) (send_move ⟨removal_noClaim, bare, by simp [NoClaim]⟩)
  · exact .after (same_modify _ _) (leave_move bare)

theorem bare_status {status : QueueAcquireStatus} (result : QueueAcquireResult)
    (same : Ending.returns ⟨status, none⟩ = .returns result) : result.permit = none := by
  cases same
  rfl

theorem bare_reraises (result : QueueAcquireResult) (same : Ending.reraises = .returns result) :
    result.permit = none := nomatch same

theorem acquireLoop_move : AcquireMove s c a (s.acquireLoop c a) := by
  unfold acquireLoop
  split_ifs
  · exact removeWaiter_move bare_status
  · exact removeWaiter_move bare_status
  · exact put_move plain_none

theorem failed_move {pc : AcquirePc} {flight : Option Flight} (ok : AcquireOk a flight pc)
    (taken : failed s c (.acquire a pc) = some t) : pc.Executing ∧ AcquireMove s c a t := by
  cases pc <;> cases taken <;> refine ⟨trivial, ?_⟩
  case enqueueing => exact leave_move bare_status
  case polling => exact leave_move bare_reraises
  case claiming => exact .after (same_modify _ _) (removeWaiter_move bare_status)
  case removing rest ending => exact leave_move ok.2.1

theorem interrupted_move {pc : AcquirePc} (taken : interrupted s c (.acquire a pc) = some t) :
    pc.Executing ∧ AcquireMove s c a t := by
  cases pc with
  | enqueueing => cases taken; exact ⟨trivial, put_move plain_none⟩
  | polling => cases taken; exact ⟨trivial, removeWaiter_move bare_reraises⟩
  | locking => cases taken; exact ⟨trivial, removeWaiter_move bare_reraises⟩
  | claiming =>
    cases taken
    exact ⟨trivial, .after (same_modify _ _) (removeWaiter_move bare_reraises)⟩
  | waiting => cases taken; exact ⟨trivial, removeWaiter_move bare_reraises⟩
  | removing rest ending =>
    cases ending <;> cases taken
    · exact ⟨trivial, removeWaiter_move bare_reraises⟩
    · exact ⟨trivial, leave_move bare_reraises⟩
  | returned result => cases taken
  | raised => cases taken

theorem woken_move {pc : AcquirePc} (taken : woken s c (.acquire a pc) = some t) :
    pc = .waiting ∧ AcquireMove s c a t := by
  cases pc <;> cases taken
  exact ⟨rfl, acquireLoop_move⟩

theorem polled_move {pc : AcquirePc} {shouldCancel late : Bool}
    (taken : polled s c shouldCancel late (.acquire a pc) = some t) :
    pc = .polling ∧ AcquireMove s c a t := by
  cases pc <;> cases taken
  refine ⟨rfl, ?_⟩
  split_ifs
  · exact removeWaiter_move bare_status
  · exact removeWaiter_move bare_status
  · exact put_move plain_none

theorem locked_move {pc : AcquirePc} {nowMs leaseUntilMs : ℤ}
    (taken : locked s c nowMs leaseUntilMs (.acquire a pc) = some t) :
    pc = .locking ∧ AcquireMove s c a t := by
  cases pc <;> simp only [locked, reduceCtorEq] at taken
  split_ifs at taken
  cases taken
  exact ⟨rfl, .after (same_modify _ _) (send_move ⟨nowMs, leaseUntilMs, none, rfl⟩)⟩

/-- The reply to a claim is the one way to a permit. -/
theorem replied_move {pc : AcquirePc} {flight : Option Flight} {reply : ℕ}
    (ok : AcquireOk a flight pc) (taken : replied s c reply (.acquire a pc) = some t) :
    pc.Executing ∧ (AcquireMove s c a t ∧ (pc = .claiming → reply ≠ 1) ∨
      pc = .claiming ∧ t = (s.unlock a.inst).leave c a (.returns ⟨.granted, some a.permit⟩)) := by
  cases pc with
  | enqueueing =>
    cases taken
    refine ⟨trivial, .inl ⟨?_, nofun⟩⟩
    split_ifs
    · exact acquireLoop_move
    · exact leave_move bare_status
  | claiming =>
    cases taken
    refine ⟨trivial, ?_⟩
    by_cases one : reply = 1
    · exact .inr ⟨rfl, by rw [if_pos one]⟩
    · refine .inl ⟨?_, fun _ => one⟩
      rw [if_neg one]
      exact .after (same_modify _ _) (put_move plain_none)
  | removing rest ending =>
    cases rest <;> cases taken
    · exact ⟨trivial, .inl ⟨leave_move ok.2.1, nofun⟩⟩
    · have head := ok.1 _ (List.mem_cons_self ..)
      refine ⟨trivial, .inl ⟨send_move ⟨fun command later => ?_, ok.2.1, ?_⟩, nofun⟩⟩
      · exact ok.1 command (List.mem_cons_of_mem _ later)
      · exact plain_some.mpr head
  | polling | locking | waiting | raised => cases taken
  | returned result => cases taken

/-- The calls that never touch a permit and never claim. -/
def Body.Other : Body → Prop
  | .cancel .. | .close .. => True
  | _ => False

structure OtherMove (s : State) (c : CallId) (t : State) : Prop where
  call : ∃ call, t.calls = Function.update s.calls c (some call) ∧ Ok s.redis.permits call ∧
    call.body.Other
  redis : t.redis = s.redis
  permitIds : t.permitIds = s.permitIds
  released : t.released = s.released

theorem OtherMove.after (same : SameCalls s t) (move : OtherMove t c u) : OtherMove s c u where
  call := by
    obtain ⟨call, calls, ok, rest⟩ := move.call
    exact ⟨call, same.calls ▸ calls, same.redis ▸ ok, rest⟩
  redis := move.redis.trans same.redis
  permitIds := move.permitIds.trans same.permitIds
  released := move.released.trans same.released

theorem put_other {body : Body} (other : body.Other) (ok : Ok s.redis.permits ⟨body, none⟩) :
    OtherMove s c (s.put c body) := ⟨⟨_, rfl, ok, other⟩, rfl, rfl, rfl⟩

theorem send_other {body : Body} {command : Command} (other : body.Other)
    (ok : Ok s.redis.permits ⟨body, some ⟨command, none⟩⟩) :
    OtherMove s c (s.send c body command) := ⟨⟨_, rfl, ok, other⟩, rfl, rfl, rfl⟩

theorem stopListening_other {inst : InstanceId} : OtherMove s c (s.stopListening c inst) := by
  unfold stopListening
  exact .after (same_modify _ _) (put_other trivial plain_none)

theorem dropClient_other {inst : InstanceId} : OtherMove s c (s.dropClient c inst) := by
  unfold dropClient
  exact .after (same_modify _ _) (put_other trivial plain_none)

theorem clearWaiters_other {inst : InstanceId} : OtherMove s c (s.clearWaiters c inst) := by
  unfold clearWaiters
  dsimp only
  split_ifs
  · refine .after (same_modify _ _) (send_other trivial ⟨?_, by simp [NoClaim]⟩)
    intro command member
    rcases List.mem_pair.mp member with rfl | rfl <;> trivial
  · exact .after (same_modify _ _) stopListening_other

theorem startCancel_other {inst : InstanceId} {taskId : String} :
    OtherMove s c (startCancel s c inst taskId) := by
  unfold startCancel
  dsimp only
  split_ifs
  · exact .after (same_modify _ _) (send_other trivial ⟨removal_noClaim, by simp [NoClaim]⟩)
  · exact .after (same_modify _ _) (put_other trivial plain_none)
  · exact put_other trivial plain_none

/-- Every resumption of a `cancel`. -/
theorem cancel_resumed {inst : InstanceId} {pc : CancelPc} {flight : Option Flight} (reply : ℕ)
    (ok : Ok s.redis.permits ⟨.cancel inst pc, flight⟩)
    (taken : replied s c reply (.cancel inst pc) = some t ∨
      failed s c (.cancel inst pc) = some t ∨ interrupted s c (.cancel inst pc) = some t) :
    OtherMove s c t := by
  cases pc with
  | removing rest =>
    rcases taken with taken | taken | taken
    · cases rest with
      | nil => cases taken; exact put_other trivial plain_none
      | cons command rest =>
        cases taken
        obtain ⟨first, later⟩ := List.forall_mem_cons.mp ok.1
        exact send_other trivial ⟨later, plain_some.mpr first⟩
    · cases taken; exact put_other trivial plain_none
    · cases taken; exact put_other trivial plain_none
  | returned => rcases taken with taken | taken | taken <;> cases taken
  | raised => rcases taken with taken | taken | taken <;> cases taken

/-- Every resumption of a `close`. -/
theorem close_resumed {inst : InstanceId} {pc : ClosePc} {flight : Option Flight} (reply : ℕ)
    (ok : Ok s.redis.permits ⟨.close inst pc, flight⟩)
    (taken : replied s c reply (.close inst pc) = some t ∨ failed s c (.close inst pc) = some t ∨
      interrupted s c (.close inst pc) = some t ∨ woken s c (.close inst pc) = some t) :
    OtherMove s c t := by
  cases pc with
  | removing rest =>
    rcases taken with taken | taken | taken | taken
    · cases rest with
      | nil => cases taken; exact stopListening_other
      | cons command rest =>
        cases taken
        obtain ⟨first, later⟩ := List.forall_mem_cons.mp ok.1
        exact send_other trivial ⟨later, plain_some.mpr first⟩
    · cases taken; exact stopListening_other
    · cases taken; exact put_other trivial plain_none
    · cases taken
  | condition =>
    rcases taken with taken | taken | taken | taken <;> cases taken
    · exact put_other trivial plain_none
    · exact clearWaiters_other
  | listener =>
    rcases taken with taken | taken | taken | taken <;> cases taken
    all_goals exact put_other trivial plain_none
  | pubsub =>
    rcases taken with taken | taken | taken | taken <;> cases taken
    · exact dropClient_other
    · exact put_other trivial plain_none
    · exact dropClient_other
  | aclose =>
    rcases taken with taken | taken | taken | taken <;> cases taken
    all_goals exact put_other trivial plain_none
  | returned => rcases taken with taken | taken | taken | taken <;> cases taken
  | raised => rcases taken with taken | taken | taken | taken <;> cases taken

end Segments

end HeyeeAgent.StreamQueueLimiter.Distributed
