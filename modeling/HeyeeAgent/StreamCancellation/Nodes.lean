import HeyeeAgent.Machine.Run
import HeyeeAgent.Redis.Strings
import HeyeeAgent.StreamTaskManager
import Mathlib.Tactic.NormNum

/-! # Cancelling a stream of another node

Nodes whose `RedisCancellationBackend` has started share one server. A stream is registered, served
and finalized on its node, and a cancel can be asked for on any node; both are suspended at their
commands, as the calls of the limiter are. A call that leaves its await without the reply leaves an
orphan, which the server may still execute. A broadcast reaches the nodes that are subscribed when
it is executed, and a listener that loses its connection loses what it has not read.
-/

namespace HeyeeAgent.StreamCancellation

open Machine Redis

/-- The settings of the backend, the same on all nodes. -/
structure Config where
  keyPrefix : String := "heyee:stream:cancel"
  ttlSeconds : ℚ := 1800
  ttl_ge : 30 ≤ ttlSeconds := by decide

namespace Config

/-- `_key` -/
def key (cfg : Config) (taskId : String) : String := cfg.keyPrefix ++ ":" ++ taskId

/-- `_owner_key` -/
def ownerKey (cfg : Config) (taskId : String) : String := cfg.keyPrefix ++ ":owner:" ++ taskId

end Config

inductive Command where
  | set (key value : String)
  | setNx (key value : String)
  | get (key : String)
  | delete (key : String)
  | publish (message : String)
deriving DecidableEq

/-- A command that was sent, with the reply once the server has executed it. -/
structure Flight where
  command : Command
  reply : Option (Option String) := none
deriving DecidableEq

/-- Where a stream is suspended, from `register` to the end of `finalize`. -/
inductive StreamPc where
  /-- at the `SET NX` of `register_owner` -/
  | owner
  /-- at its `GET` -/
  | ownerGet
  /-- at the read of the marker -/
  | marker
  /-- `register` has returned true -/
  | serving
  /-- in `finalize`, at `clear` -/
  | clearing
  | clearingOwner
  | finalized
  /-- `register` has returned false -/
  | refused
  | raised
deriving DecidableEq

inductive CancelPc where
  /-- at `get_owner` -/
  | owned (ownerId : String)
  /-- at `mark_cancelled` -/
  | marking
  /-- at `publish_cancel` -/
  | publishing (persisted : Bool)
  | returned (persisted result : Bool)
  | raised
deriving DecidableEq

inductive Body (N : Type) where
  | stream (node : N) (taskId : String) (ownerId : Option String) (pc : StreamPc)
  | cancel (node : N) (taskId : String) (pc : CancelPc)
deriving DecidableEq

structure Call (N : Type) where
  body : Body N
  flight : Option Flight := none
deriving DecidableEq

/-- The registry of a node, and the connection of its listener. -/
structure Node (H : Type) where
  manager : StreamTaskManager H := {}
  subscribed : Bool := false
  inbox : List String := []

structure State (N H : Type) where
  now : ℚ := 0
  redis : Strings := {}
  nodes : N → Node H := fun _ => {}
  calls : List (Call N) := []
  orphans : List Command := []

variable {N H : Type} [DecidableEq N]

namespace State

def modify (s : State N H) (n : N) (change : Node H → Node H) : State N H :=
  { s with nodes := Function.update s.nodes n (change (s.nodes n)) }

def setManager (s : State N H) (n : N) (manager : StreamTaskManager H) : State N H :=
  s.modify n fun node => { node with manager }

/-- The call goes on without a command. -/
def put (s : State N H) (c : ℕ) (body : Body N) : State N H :=
  { s with calls := s.calls.set c { body } }

/-- The call sends a command and waits for its reply. -/
def send (s : State N H) (c : ℕ) (body : Body N) (command : Command) : State N H :=
  { s with calls := s.calls.set c { body, flight := some { command } } }

/-- The call leaves an await without its reply. -/
def abandon (s : State N H) (flight : Option Flight) : State N H :=
  match flight with
  | some ⟨command, none⟩ => { s with orphans := s.orphans ++ [command] }
  | _ => s

/-- `cancel_local`; calling the handle is an effect outside the registry. -/
def cancelLocal (s : State N H) (n : N) (taskId : String) : State N H :=
  s.setManager n ((s.nodes n).manager.cancelLocal s.now taskId).1

/-- `self._tasks.pop(task_id, None)` -/
def pop (s : State N H) (n : N) (taskId : String) : State N H :=
  s.modify n fun node =>
    { node with manager := { node.manager with tasks := node.manager.tasks.erase taskId } }

/-- `cancel` once the backend has answered. -/
def endCancel (s : State N H) (c : ℕ) (n : N) (taskId : String) (persisted published : Bool) :
    State N H :=
  let (manager, cancelled, _) := (s.nodes n).manager.cancelLocal s.now taskId
  (s.setManager n manager).put c
    (.cancel n taskId (.returned persisted (cancelled || persisted || published)))

end State

open State

/-- The server executes a command. -/
def execute (cfg : Config) (s : State N H) : Command → State N H × Option String
  | .set key value =>
    ({ s with redis := s.redis.set key value (some (s.now + cfg.ttlSeconds)) }, some "OK")
  | .setNx key value =>
    let (redis, created) := s.redis.setNx s.now key value (some (s.now + cfg.ttlSeconds))
    ({ s with redis }, if created then some "OK" else none)
  | .get key => (s, s.redis.get s.now key)
  | .delete key => ({ s with redis := s.redis.delete key }, none)
  | .publish message =>
    ({ s with nodes := fun n =>
        let node := s.nodes n
        if node.subscribed then { node with inbox := node.inbox ++ [message] } else node }, none)

/-- The start of `register`. -/
def startRegister (cfg : Config) (s : State N H) (n : N) (taskId : String)
    (ownerId : Option String) : State N H :=
  let (manager, free) := (s.nodes n).manager.register s.now taskId ownerId
  let normalizedOwner := (ownerId.filter (· ≠ "")).map Python.strip
  let call : Call N :=
    if !free then ⟨.stream n taskId normalizedOwner .refused, none⟩
    else match normalizedOwner with
      | some owner =>
        ⟨.stream n taskId normalizedOwner .owner, some ⟨.setNx (cfg.ownerKey taskId) owner, none⟩⟩
      | none => ⟨.stream n taskId normalizedOwner .marker, some ⟨.get (cfg.key taskId), none⟩⟩
  { s.setManager n manager with calls := s.calls ++ [call] }

/-- The start of `cancel`, with `is_owned_by` when an owner is given. -/
def startCancel (cfg : Config) (s : State N H) (n : N) (taskId : String)
    (ownerId : Option String) : State N H :=
  let marking : Call N := ⟨.cancel n taskId .marking, some ⟨.set (cfg.key taskId) "1", none⟩⟩
  match ownerId with
  | none => { s with calls := s.calls ++ [marking] }
  | some ownerId =>
    let manager := (s.nodes n).manager.purgeExpired s.now
    let call : Call N :=
      match manager.tasks.lookup taskId with
      | some info =>
        if info.ownerId.all (· == Python.strip ownerId) then marking
        else ⟨.cancel n taskId (.returned false false), none⟩
      | none => ⟨.cancel n taskId (.owned ownerId), some ⟨.get (cfg.ownerKey taskId), none⟩⟩
    { s.setManager n manager with calls := s.calls ++ [call] }

/-- The start of `finalize`. -/
def startFinalize (cfg : Config) (s : State N H) (c : ℕ) (n : N) (taskId : String)
    (ownerId : Option String) : State N H :=
  let manager := (s.nodes n).manager.purgeExpired s.now
  let finalized := s.setManager n ((s.nodes n).manager.finalize s.now taskId)
  match manager.tasks.lookup taskId with
  | some info =>
    if info.cancelled then finalized.put c (.stream n taskId ownerId .finalized)
    else finalized.send c (.stream n taskId ownerId .clearing) (.delete (cfg.key taskId))
  | none => finalized.put c (.stream n taskId ownerId .finalized)

/-- The reply of the command in flight is read; an empty value is false. -/
def replied (cfg : Config) (s : State N H) (c : ℕ) (reply : Option String) :
    Body N → Option (State N H)
  | .stream n taskId (some owner) .owner =>
    some (if reply.isSome then
        s.send c (.stream n taskId (some owner) .marker) (.get (cfg.key taskId))
      else s.send c (.stream n taskId (some owner) .ownerGet) (.get (cfg.ownerKey taskId)))
  | .stream n taskId (some owner) .ownerGet =>
    some (if reply = some owner then
        s.send c (.stream n taskId (some owner) .marker) (.get (cfg.key taskId))
      else (s.pop n taskId).put c (.stream n taskId (some owner) .refused))
  | .stream n taskId ownerId .marker =>
    let s := if reply.any (· ≠ "") then s.cancelLocal n taskId else s
    some (s.put c (.stream n taskId ownerId .serving))
  | .stream n taskId ownerId .clearing =>
    some (s.send c (.stream n taskId ownerId .clearingOwner) (.delete (cfg.ownerKey taskId)))
  | .stream n taskId ownerId .clearingOwner =>
    some (s.put c (.stream n taskId ownerId .finalized))
  | .cancel n taskId (.owned ownerId) =>
    some (if reply = some (Python.strip ownerId) then
        s.send c (.cancel n taskId .marking) (.set (cfg.key taskId) "1")
      else s.put c (.cancel n taskId (.returned false false)))
  | .cancel n taskId .marking =>
    some (s.send c (.cancel n taskId (.publishing true)) (.publish taskId))
  | .cancel n taskId (.publishing persisted) => some (s.endCancel c n taskId persisted true)
  | _ => none

/-- The client raises an `Exception`, which the backend answers for. -/
def failed (cfg : Config) (s : State N H) (c : ℕ) : Body N → Option (State N H)
  | .stream n taskId ownerId .owner | .stream n taskId ownerId .ownerGet =>
    some ((s.pop n taskId).put c (.stream n taskId ownerId .refused))
  | .stream n taskId ownerId .marker => some (s.put c (.stream n taskId ownerId .serving))
  | .stream n taskId ownerId .clearing =>
    some (s.send c (.stream n taskId ownerId .clearingOwner) (.delete (cfg.ownerKey taskId)))
  | .stream n taskId ownerId .clearingOwner =>
    some (s.put c (.stream n taskId ownerId .finalized))
  | .cancel n taskId (.owned _) => some (s.put c (.cancel n taskId (.returned false false)))
  | .cancel n taskId .marking =>
    some (s.send c (.cancel n taskId (.publishing false)) (.publish taskId))
  | .cancel n taskId (.publishing persisted) => some (s.endCancel c n taskId persisted false)
  | _ => none

/-- `CancelledError` is raised at the await. -/
def interrupted (s : State N H) (c : ℕ) : Body N → Option (State N H)
  | .stream n taskId ownerId .owner | .stream n taskId ownerId .ownerGet
  | .stream n taskId ownerId .marker | .stream n taskId ownerId .clearing
  | .stream n taskId ownerId .clearingOwner => some (s.put c (.stream n taskId ownerId .raised))
  | .cancel n taskId (.owned _) | .cancel n taskId .marking | .cancel n taskId (.publishing _) =>
    some (s.put c (.cancel n taskId .raised))
  | _ => none

inductive Event (N H : Type) where
  | register (n : N) (taskId : String) (ownerId : Option String)
  | cancel (n : N) (taskId : String) (ownerId : Option String)
  | finalize (c : ℕ)
  | bind (n : N) (taskId : String) (handle : H)
  /-- `is_cancelled` -/
  | check (n : N)
  /-- the server executes the command that the call has in flight -/
  | execute (c : ℕ)
  | executeOrphan (index : ℕ)
  | reply (c : ℕ)
  | fail (c : ℕ)
  | interrupt (c : ℕ)
  | subscribe (n : N)
  | disconnect (n : N)
  /-- the listener reads the next message -/
  | deliver (n : N)
  | elapse (seconds : ℚ)

/-- One segment of a call, one command at the server, or one move of a listener. -/
def step (cfg : Config) (s : State N H) : Event N H → Option (State N H)
  | .register n taskId ownerId => some (startRegister cfg s n taskId ownerId)
  | .cancel n taskId ownerId => some (startCancel cfg s n taskId ownerId)
  | .finalize c =>
    match s.calls[c]? with
    | some ⟨.stream n taskId ownerId .serving, _⟩ => some (startFinalize cfg s c n taskId ownerId)
    | _ => none
  | .bind n taskId handle => some (s.setManager n ((s.nodes n).manager.bind taskId handle).1)
  | .check n => some (s.setManager n ((s.nodes n).manager.purgeExpired s.now))
  | .execute c =>
    match s.calls[c]? with
    | some ⟨body, some ⟨command, none⟩⟩ =>
      let (s, reply) := execute cfg s command
      some { s with calls := s.calls.set c ⟨body, some ⟨command, some reply⟩⟩ }
    | _ => none
  | .executeOrphan index =>
    s.orphans[index]?.map fun command =>
      { (execute cfg s command).1 with orphans := s.orphans.eraseIdx index }
  | .reply c =>
    match s.calls[c]? with
    | some ⟨body, some ⟨_, some reply⟩⟩ => replied cfg s c reply body
    | _ => none
  | .fail c => s.calls[c]?.bind fun call => failed cfg (s.abandon call.flight) c call.body
  | .interrupt c => s.calls[c]?.bind fun call => interrupted (s.abandon call.flight) c call.body
  | .subscribe n => some (s.modify n fun node => { node with subscribed := true })
  | .disconnect n => some (s.modify n fun node => { node with subscribed := false, inbox := [] })
  | .deliver n =>
    match (s.nodes n).inbox with
    | [] => none
    | message :: inbox =>
      let s := s.modify n fun node => { node with inbox }
      let taskId := Python.strip message
      some (if taskId ≠ "" then s.cancelLocal n taskId else s)
  | .elapse seconds => if 0 ≤ seconds then some { s with now := s.now + seconds } else none

/-- Nodes whose backend has started; nothing is under way. -/
def initial (cfg : Config) (now : ℚ) (redis : Strings) (managers : N → StreamTaskManager H) :
    State N H where
  now := now
  redis := redis
  nodes n := { manager := { managers n with cancelledTtlSeconds := cfg.ttlSeconds } }

end HeyeeAgent.StreamCancellation
