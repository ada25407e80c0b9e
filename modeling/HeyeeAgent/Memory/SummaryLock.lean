import HeyeeAgent.Machine.Run
import HeyeeAgent.Redis.Strings

/-! # The lock of the summary compression

Any number of `RedisSummaryCompressionLock` objects on one Redis server, and runs of
`compress_if_needed` that share them. A call of `acquire` or `release` sends one command and lets no
other task of its process in, so it is one step. A run that is refused ends; one that acquires releases
once, however late.
-/

namespace HeyeeAgent.Memory

open Machine Redis

structure RedisSummaryCompressionLock where
  ttlSeconds : ℕ
  ownerTokens : String × String → Option String := fun _ => none

namespace RedisSummaryCompressionLock

def key (conversationId userId : String) : String :=
  "heyee:conversation-summary-lock:" ++ userId ++ ":" ++ conversationId

/-- `_RELEASE_SCRIPT` -/
def releaseScript (redis : Strings) (now : ℚ) (key ownerToken : String) : Strings :=
  if redis.get now key = some ownerToken then redis.delete key else redis

/-- `acquire` with its new token -/
def acquire (lock : RedisSummaryCompressionLock) (redis : Strings) (now : ℚ)
    (conversationId userId ownerToken : String) : RedisSummaryCompressionLock × Strings × Bool :=
  let (redis, acquired) :=
    redis.setNx now (key conversationId userId) ownerToken (some (now + lock.ttlSeconds))
  if acquired then
    ({ lock with
        ownerTokens := Function.update lock.ownerTokens (conversationId, userId) (some ownerToken) },
      redis, true)
  else (lock, redis, false)

def release (lock : RedisSummaryCompressionLock) (redis : Strings) (now : ℚ)
    (conversationId userId : String) : RedisSummaryCompressionLock × Strings :=
  let popped := { lock with
    ownerTokens := Function.update lock.ownerTokens (conversationId, userId) none }
  match lock.ownerTokens (conversationId, userId) with
  | none => (popped, redis)
  | some ownerToken =>
    if ownerToken = "" then (popped, redis)
    else (popped, releaseScript redis now (key conversationId userId) ownerToken)

variable {lock : RedisSummaryCompressionLock} {redis : Strings} {now : ℚ}
  {conversationId userId ownerToken : String}

theorem acquire_of_some {value : String}
    (found : redis.get now (key conversationId userId) = some value) :
    lock.acquire redis now conversationId userId ownerToken = (lock, redis, false) := by
  rw [acquire, Strings.setNx_of_some found]
  rfl

theorem acquire_of_none (absent : redis.get now (key conversationId userId) = none) :
    lock.acquire redis now conversationId userId ownerToken = ({ lock with
        ownerTokens := Function.update lock.ownerTokens (conversationId, userId) (some ownerToken) },
      redis.set (key conversationId userId) ownerToken (some (now + lock.ttlSeconds)), true) := by
  rw [acquire, Strings.setNx_of_none absent]
  rfl

theorem release_fst : (lock.release redis now conversationId userId).1 = { lock with
    ownerTokens := Function.update lock.ownerTokens (conversationId, userId) none } := by
  unfold release
  dsimp only
  split
  · rfl
  · split_ifs <;> rfl

/-- A release deletes the key where it holds the token that the object has. -/
theorem release_of_owned (some_token : ownerToken ≠ "")
    (owned : lock.ownerTokens (conversationId, userId) = some ownerToken)
    (found : redis.get now (key conversationId userId) = some ownerToken) :
    (lock.release redis now conversationId userId).2 = redis.delete (key conversationId userId) := by
  unfold release
  dsimp only
  rw [owned]
  dsimp only
  rw [if_neg some_token, releaseScript, if_pos found]

theorem release_cases (lock : RedisSummaryCompressionLock) (redis : Strings) (now : ℚ)
    (conversationId userId : String) :
    (lock.release redis now conversationId userId).2 = redis ∨ ∃ ownerToken,
      lock.ownerTokens (conversationId, userId) = some ownerToken ∧
      redis.get now (key conversationId userId) = some ownerToken ∧
      (lock.release redis now conversationId userId).2 =
        redis.delete (key conversationId userId) := by
  cases owned : lock.ownerTokens (conversationId, userId) with
  | none =>
    left
    unfold release
    rw [owned]
  | some ownerToken =>
    by_cases empty : ownerToken = ""
    · left
      unfold release
      rw [owned]
      exact congrArg Prod.snd (if_pos empty)
    · by_cases found : redis.get now (key conversationId userId) = some ownerToken
      · exact .inr ⟨ownerToken, rfl, found, release_of_owned empty owned found⟩
      · left
        unfold release
        rw [owned]
        dsimp only
        rw [if_neg empty, releaseScript, if_neg found]

end RedisSummaryCompressionLock

/-- A run that has acquired its lock, with the token that was stored for it and the end of its time. -/
structure CompressionRun (O : Type*) where
  lock : O
  conversationId : String
  userId : String
  ownerToken : String
  expiresAt : ℚ
  released : Bool := false

namespace CompressionRun

variable {O : Type*}

def key (run : CompressionRun O) : String :=
  RedisSummaryCompressionLock.key run.conversationId run.userId

/-- It has neither released its lock nor had it expire. -/
def Holds (run : CompressionRun O) (now : ℚ) : Prop := run.released = false ∧ now < run.expiresAt

instance (run : CompressionRun O) (now : ℚ) : Decidable (run.Holds now) :=
  inferInstanceAs (Decidable (_ ∧ _))

/-- Both use one lock object for one conversation. -/
def SharesWith (run other : CompressionRun O) : Prop :=
  run.lock = other.lock ∧ run.conversationId = other.conversationId ∧ run.userId = other.userId

instance [DecidableEq O] (run other : CompressionRun O) : Decidable (run.SharesWith other) :=
  inferInstanceAs (Decidable (_ ∧ _))

end CompressionRun

/-- `O` names the lock objects and `R` the runs; `issued` are the tokens made so far. -/
structure LockState (O R : Type*) where
  redis : Strings := {}
  now : ℚ
  locks : O → RedisSummaryCompressionLock
  runs : R → Option (CompressionRun O) := fun _ => none
  issued : List String := []

inductive LockEvent (O R : Type*) where
  | pass (later : ℚ)
  | acquire (r : R) (lock : O) (conversationId userId ownerToken : String)
  | release (r : R)

variable {O R : Type*} [DecidableEq O] [DecidableEq R]

namespace LockState

/-- One step. A new token is not empty and differs from all earlier ones. -/
def step (s : LockState O R) : LockEvent O R → Option (LockState O R)
  | .pass later => if s.now ≤ later then some { s with now := later } else none
  | .acquire r o conversationId userId ownerToken =>
    if (s.runs r).isSome ∨ ownerToken = "" ∨ ownerToken ∈ s.issued then none
    else
      let (lock, redis, acquired) :=
        (s.locks o).acquire s.redis s.now conversationId userId ownerToken
      let run : CompressionRun O :=
        { lock := o
          conversationId
          userId
          ownerToken
          expiresAt := s.now + lock.ttlSeconds }
      some { s with
        redis
        locks := Function.update s.locks o lock
        runs := if acquired then Function.update s.runs r (some run) else s.runs
        issued := ownerToken :: s.issued }
  | .release r =>
    match s.runs r with
    | none => none
    | some run =>
      if run.released then none
      else
        let (lock, redis) :=
          (s.locks run.lock).release s.redis s.now run.conversationId run.userId
        some { s with
          redis
          locks := Function.update s.locks run.lock lock
          runs := Function.update s.runs r (some { run with released := true }) }

/-- The lock that a run acquired is in Redis. -/
def Locked (s : LockState O R) (run : CompressionRun O) : Prop :=
  s.redis.get s.now run.key = some run.ownerToken

instance (s : LockState O R) (run : CompressionRun O) : Decidable (s.Locked run) :=
  inferInstanceAs (Decidable (_ = _))

/-- A release deletes the lock of no other run that holds it. -/
def Spares (s : LockState O R) (e : LockEvent O R) : Prop :=
  ∀ r, e = .release r → ∀ t, s.step e = some t → ∀ other run, other ≠ r →
    s.runs other = some run → run.Holds s.now → s.Locked run → t.Locked run

/-- Where a run releases, no other run holds the lock of its conversation through the same object. -/
def Unshared (s : LockState O R) (e : LockEvent O R) : Prop :=
  ∀ r, e = .release r → ∀ releasing, s.runs r = some releasing → ∀ other run, other ≠ r →
    s.runs other = some run → run.SharesWith releasing → ¬ run.Holds s.now

/-- Before any run -/
def initial (now : ℚ) (ttlSeconds : O → ℕ) : LockState O R where
  now
  locks o := { ttlSeconds := ttlSeconds o }

/-- While a run holds its lock, the lock is in Redis and its token in the object; a token stands for
one run. -/
structure Inv (s : LockState O R) : Prop where
  held : ∀ r run, s.runs r = some run → run.Holds s.now →
    (∀ time < run.expiresAt, s.redis.get time run.key = some run.ownerToken) ∧
    (s.locks run.lock).ownerTokens (run.conversationId, run.userId) = some run.ownerToken
  unique : ∀ r run other run', s.runs r = some run → s.runs other = some run' →
    run.ownerToken = run'.ownerToken → r = other
  issued : ∀ r run, s.runs r = some run → run.ownerToken ∈ s.issued ∧ run.ownerToken ≠ ""
  owner : ∀ o conversationId userId ownerToken,
    (s.locks o).ownerTokens (conversationId, userId) = some ownerToken →
      ∃ r run, s.runs r = some run ∧ run.lock = o ∧ run.conversationId = conversationId ∧
        run.userId = userId ∧ run.ownerToken = ownerToken

variable {s t : LockState O R}

omit [DecidableEq O] [DecidableEq R] in
theorem Inv.locked (inv : Inv s) {r : R} {run : CompressionRun O} (found : s.runs r = some run)
    (holds : run.Holds s.now) : s.Locked run :=
  (inv.held r run found holds).1 s.now holds.2

/-- What a step does in which a run acquires its lock. -/
structure Acquires (s t : LockState O R) (r : R) (run : CompressionRun O) : Prop where
  new : s.runs r = none ∧ run.ownerToken ≠ "" ∧ run.ownerToken ∉ s.issued
  absent : s.redis.get s.now run.key = none
  redis : t.redis = s.redis.set run.key run.ownerToken (some run.expiresAt)
  now : t.now = s.now
  owners : ∀ o pair, (t.locks o).ownerTokens pair =
    if o = run.lock ∧ pair = (run.conversationId, run.userId) then some run.ownerToken
    else (s.locks o).ownerTokens pair
  runs : ∀ other, t.runs other = if other = r then some run else s.runs other
  issued : t.issued = run.ownerToken :: s.issued

/-- What a step does in which a run releases its lock. -/
structure Releases (s t : LockState O R) (r : R) (run : CompressionRun O) : Prop where
  found : s.runs r = some run
  redis : t.redis = ((s.locks run.lock).release s.redis s.now run.conversationId run.userId).2
  now : t.now = s.now
  owners : ∀ o pair, (t.locks o).ownerTokens pair =
    if o = run.lock ∧ pair = (run.conversationId, run.userId) then none
    else (s.locks o).ownerTokens pair
  runs : ∀ other, t.runs other = if other = r then some { run with released := true } else s.runs other
  issued : t.issued = s.issued

/-- `acquire` makes a token, and only that where the key is taken. -/
theorem acquire_cases {r : R} {o : O} {conversationId userId ownerToken : String}
    (taken : s.step (.acquire r o conversationId userId ownerToken) = some t) :
    t = { s with issued := ownerToken :: s.issued } ∨
    Acquires s t r ⟨o, conversationId, userId, ownerToken, s.now + (s.locks o).ttlSeconds, false⟩ := by
  simp only [step] at taken
  by_cases refused : (s.runs r).isSome = true ∨ ownerToken = "" ∨ ownerToken ∈ s.issued
  · rw [if_pos refused] at taken
    cases taken
  · rw [if_neg refused] at taken
    have new := not_or.mp refused |>.imp Option.not_isSome_iff_eq_none.mp not_or.mp
    cases found : s.redis.get s.now (RedisSummaryCompressionLock.key conversationId userId) with
    | some value =>
      rw [RedisSummaryCompressionLock.acquire_of_some found] at taken
      cases taken
      left
      simp
    | none =>
      rw [RedisSummaryCompressionLock.acquire_of_none found] at taken
      cases taken
      refine .inr ⟨new, found, rfl, rfl, fun o' pair => ?_, fun other => ?_, rfl⟩
      · by_cases object : o' = o <;> by_cases same : pair = (conversationId, userId) <;>
          simp [object, same]
      · simp [Function.update_apply]

theorem release_cases {r : R} (taken : s.step (.release r) = some t) :
    ∃ run, Releases s t r run := by
  simp only [step] at taken
  cases found : s.runs r with
  | none => simp [found] at taken
  | some run =>
    rw [found] at taken
    dsimp only at taken
    split_ifs at taken with released
    cases taken
    refine ⟨run, found, rfl, rfl, fun o pair => ?_, fun other => ?_, rfl⟩
    · rw [RedisSummaryCompressionLock.release_fst]
      by_cases object : o = run.lock <;>
        by_cases same : pair = (run.conversationId, run.userId) <;> simp [object, same]
    · simp [Function.update_apply]

/-- Time only ends locks. -/
theorem inv_pass {later : ℚ} (inv : Inv s) (taken : s.step (.pass later) = some t) : Inv t := by
  simp only [step] at taken
  split_ifs at taken with passed
  cases taken
  refine ⟨fun r run found holds => inv.held r run found ⟨holds.1, ?_⟩, inv.unique, inv.issued,
    inv.owner⟩
  exact lt_of_le_of_lt passed holds.2

omit [DecidableEq O] [DecidableEq R] in
/-- The key of a run that holds its lock is taken. -/
theorem Inv.key_ne (inv : Inv s) {r : R} {run : CompressionRun O} {key : String}
    (found : s.runs r = some run) (holds : run.Holds s.now)
    (absent : s.redis.get s.now key = none) : run.key ≠ key := by
  rintro rfl
  have taken := inv.locked found holds
  rw [Locked, absent] at taken
  cases taken

/-- A run acquires a lock that no other holds. -/
theorem inv_acquires {r : R} {run : CompressionRun O} (inv : Inv s) (acquires : Acquires s t r run) :
    Inv t := by
  have earlier {other : R} {run' : CompressionRun O} (found : t.runs other = some run') :
      other = r ∧ run' = run ∨ other ≠ r ∧ s.runs other = some run' ∧
        run'.ownerToken ≠ run.ownerToken := by
    rw [acquires.runs] at found
    split_ifs at found with same
    · exact .inl ⟨same, (Option.some_inj.mp found).symm⟩
    · exact .inr ⟨same, found, fun token =>
        acquires.new.2.2 (token ▸ (inv.issued other run' found).1)⟩
  constructor
  · intro other run' found holds
    rw [acquires.redis, acquires.owners]
    rcases earlier found with ⟨rfl, rfl⟩ | ⟨-, before, -⟩
    · exact ⟨fun time less => Strings.get_set_of_lt less _, if_pos ⟨rfl, rfl⟩⟩
    · rw [acquires.now] at holds
      obtain ⟨locked, owned⟩ := inv.held other run' before holds
      have apart := inv.key_ne before holds acquires.absent
      refine ⟨fun time less => (Strings.get_set_ne apart _ _).trans (locked time less), ?_⟩
      rw [if_neg]
      · exact owned
      · rintro ⟨-, pair⟩
        obtain ⟨conversation, user⟩ := Prod.mk.inj pair
        exact apart (by rw [CompressionRun.key, conversation, user, CompressionRun.key])
  · intro first run' second run'' found found' same
    rcases earlier found with ⟨first_new, rfl⟩ | ⟨-, before, other⟩
    · rcases earlier found' with ⟨second_new, -⟩ | ⟨-, -, other⟩
      · exact first_new.trans second_new.symm
      · exact absurd same.symm other
    · rcases earlier found' with ⟨-, rfl⟩ | ⟨-, before', -⟩
      · exact absurd same other
      · exact inv.unique first run' second run'' before before' same
  · intro other run' found
    rw [acquires.issued]
    rcases earlier found with ⟨-, rfl⟩ | ⟨-, before, -⟩
    · exact ⟨List.mem_cons_self, acquires.new.2.1⟩
    · exact (inv.issued other run' before).imp_left (List.mem_cons_of_mem _)
  · intro o conversationId userId ownerToken owned
    rw [acquires.owners] at owned
    split_ifs at owned with here
    · obtain ⟨rfl, pair⟩ := here
      obtain ⟨rfl, rfl⟩ := Prod.mk.inj pair
      cases owned
      exact ⟨r, run, by rw [acquires.runs, if_pos rfl], rfl, rfl, rfl, rfl⟩
    · obtain ⟨other, run', found, rest⟩ := inv.owner o conversationId userId ownerToken owned
      refine ⟨other, run', ?_, rest⟩
      rw [acquires.runs, if_neg]
      · exact found
      · rintro rfl
        rw [acquires.new.1] at found
        cases found

section Release

variable {r : R} {releasing : CompressionRun O}

/-- The releasing run shares the lock with no other run that holds it. -/
def Alone (s : LockState O R) (r : R) (releasing : CompressionRun O) : Prop :=
  ∀ other run, other ≠ r → s.runs other = some run → run.SharesWith releasing → ¬ run.Holds s.now

/-- Without a holder beside it a release takes nothing from another run. -/
theorem get_of_alone (inv : Inv s) (releases : Releases s t r releasing)
    (alone : Alone s r releasing) {other : R} {run : CompressionRun O} (differs : other ≠ r)
    (found : s.runs other = some run) (holds : run.Holds s.now) {time : ℚ}
    (less : time < run.expiresAt) : t.redis.get time run.key = some run.ownerToken := by
  have locked := (inv.held other run found holds).1
  rw [releases.redis]
  rcases RedisSummaryCompressionLock.release_cases (s.locks releasing.lock) s.redis s.now
    releasing.conversationId releasing.userId with kept | ⟨ownerToken, owned, present, deleted⟩
  · rw [kept]
    exact locked time less
  · rw [deleted, Strings.get_delete_ne]
    · exact locked time less
    · -- the token that is deleted would be the holder's, acquired through the same object
      intro same
      have token := locked s.now holds.2
      rw [same, present] at token
      obtain ⟨owner, run', found', object, conversation, user, own⟩ :=
        inv.owner _ _ _ ownerToken owned
      obtain rfl := inv.unique owner run' other run found' found (own.trans (Option.some_inj.mp token))
      rw [found] at found'
      cases found'
      exact alone _ run differs found ⟨object, conversation, user⟩ holds

/-- Beside a holder of the same lock through the same object a release deletes that holder's lock. -/
theorem get_of_shared (inv : Inv s) (releases : Releases s t r releasing) {other : R}
    {run : CompressionRun O} (found : s.runs other = some run) (holds : run.Holds s.now)
    (shares : run.SharesWith releasing) (time : ℚ) : t.redis.get time run.key = none := by
  obtain ⟨locked, owned⟩ := inv.held other run found holds
  obtain ⟨object, conversation, user⟩ := shares
  rw [object, conversation, user] at owned
  have present := locked s.now holds.2
  rw [CompressionRun.key, conversation, user] at present
  rw [releases.redis, RedisSummaryCompressionLock.release_of_owned (inv.issued other run found).2
    owned present, CompressionRun.key, conversation, user]
  exact Strings.get_delete_self

theorem inv_releases (inv : Inv s) (releases : Releases s t r releasing)
    (alone : Alone s r releasing) : Inv t := by
  -- a run is as before, but for the flag
  have earlier {other : R} {run : CompressionRun O} (found : t.runs other = some run) :
      ∃ before, s.runs other = some before ∧ run.ownerToken = before.ownerToken ∧
        (run.released = false → other ≠ r ∧ run = before) := by
    rw [releases.runs] at found
    split_ifs at found with same
    · cases found
      exact ⟨releasing, same ▸ releases.found, rfl, nofun⟩
    · exact ⟨run, found, rfl, fun _ => ⟨same, rfl⟩⟩
  constructor
  · intro other run found holds
    obtain ⟨before, found_before, -, same⟩ := earlier found
    obtain ⟨differs, rfl⟩ := same holds.1
    rw [releases.now] at holds
    refine ⟨fun time less => get_of_alone inv releases alone differs found_before holds less, ?_⟩
    rw [releases.owners, if_neg]
    · exact (inv.held other run found_before holds).2
    · rintro ⟨object, pair⟩
      obtain ⟨conversation, user⟩ := Prod.mk.inj pair
      exact alone other run differs found_before ⟨object, conversation, user⟩ holds
  · intro first run second run' found found' same
    obtain ⟨before, found, token, -⟩ := earlier found
    obtain ⟨before', found', token', -⟩ := earlier found'
    exact inv.unique first before second before' found found' (token ▸ token' ▸ same)
  · intro other run found
    obtain ⟨before, found, token, -⟩ := earlier found
    rw [releases.issued, token]
    exact inv.issued other before found
  · intro o conversationId userId ownerToken owned
    rw [releases.owners] at owned
    split_ifs at owned with here
    obtain ⟨other, run, found, object, conversation, user, token⟩ :=
      inv.owner o conversationId userId ownerToken owned
    by_cases same : other = r
    · rw [same, releases.found] at found
      cases found
      exact absurd ⟨object.symm, by rw [conversation, user]⟩ here
    · exact ⟨other, run, by rw [releases.runs, if_neg same, found], object, conversation, user, token⟩

end Release

/-- A release spares the locks of other runs exactly if none of them holds the lock of the
conversation through the same object. -/
theorem spares_iff_unshared {e : LockEvent O R} (inv : Inv s) (taken : s.step e = some t) :
    s.Spares e ↔ s.Unshared e := by
  constructor
  · rintro spares r rfl releasing found other run differs found' shares holds
    obtain ⟨run', releases⟩ := release_cases taken
    rw [releases.found] at found
    cases found
    have locked := spares r rfl t taken other run differs found' holds (inv.locked found' holds)
    rw [Locked, get_of_shared inv releases found' holds shares] at locked
    cases locked
  · rintro unshared r rfl t' taken' other run differs found holds -
    obtain ⟨releasing, releases⟩ := release_cases taken'
    have alone : Alone s r releasing := unshared r rfl releasing releases.found
    rw [Locked, releases.now]
    exact get_of_alone inv releases alone differs found holds holds.2

theorem inv_step {e : LockEvent O R} (inv : Inv s) (unshared : s.Unshared e)
    (taken : s.step e = some t) : Inv t := by
  cases e with
  | pass later => exact inv_pass inv taken
  | acquire r o conversationId userId ownerToken =>
    rcases acquire_cases taken with rfl | acquires
    · exact ⟨inv.held, inv.unique, fun other run found =>
        (inv.issued other run found).imp_left (List.mem_cons_of_mem _), inv.owner⟩
    · exact inv_acquires inv acquires
  | release r =>
    obtain ⟨releasing, releases⟩ := release_cases taken
    exact inv_releases inv releases (unshared r rfl releasing releases.found)

omit [DecidableEq O] [DecidableEq R] in
theorem inv_initial (now : ℚ) (ttlSeconds : O → ℕ) : Inv (initial now ttlSeconds : LockState O R) :=
  ⟨nofun, nofun, nofun, nofun⟩

/-- All releases of a run of the system spare the locks of others exactly if none of them is made
while another run holds the same lock through the same object. -/
theorem along_spares_iff (now : ℚ) (ttlSeconds : O → ℕ) (es : List (LockEvent O R)) :
    Along step Spares (initial now ttlSeconds) es ↔
      Along step Unshared (initial now ttlSeconds) es := by
  constructor
  · refine along_of_along (fun s e t inv spares taken => ?_) (inv_initial now ttlSeconds)
    have unshared := (spares_iff_unshared inv taken).mp spares
    exact ⟨unshared, inv_step inv unshared taken⟩
  · refine along_of_along (fun s e t inv unshared taken => ?_) (inv_initial now ttlSeconds)
    exact ⟨(spares_iff_unshared inv taken).mpr unshared, inv_step inv unshared taken⟩

omit [DecidableEq O] [DecidableEq R] in
/-- A run that releases in time shares its lock with no other. -/
theorem alone_of_holds (inv : Inv s) {r : R} {releasing : CompressionRun O}
    (found : s.runs r = some releasing) (in_time : releasing.Holds s.now) : Alone s r releasing := by
  rintro other run differs found' ⟨-, conversation, user⟩ holds
  have own := inv.locked found in_time
  have locked := inv.locked found' holds
  rw [Locked, CompressionRun.key, conversation, user, ← CompressionRun.key, own] at locked
  exact differs (inv.unique other run r releasing found' found (Option.some_inj.mp locked).symm)

/-- Every run releases before its lock expires. -/
def Timely (s : LockState O R) (e : LockEvent O R) : Prop :=
  ∀ r, e = .release r → ∀ run, s.runs r = some run → run.Holds s.now

/-- Runs that release in time spare one another, whatever they share. -/
theorem along_unshared_of_timely (now : ℚ) (ttlSeconds : O → ℕ) {es : List (LockEvent O R)}
    (timely : Along step Timely (initial now ttlSeconds) es) :
    Along step Unshared (initial now ttlSeconds) es := by
  refine along_of_along (fun s e t inv timely taken => ?_) (inv_initial now ttlSeconds) timely
  have unshared : s.Unshared e := by
    rintro r rfl releasing found
    exact alone_of_holds inv found (timely r rfl releasing found)
  exact ⟨unshared, inv_step inv unshared taken⟩

/-- A run outlives its lock, and another one acquires it through the same object. -/
def expired : List (LockEvent Unit ℕ) :=
  [.acquire 0 () "c" "u" "first", .pass 121, .acquire 1 () "c" "u" "second"]

/-- The late release of the first run deletes the lock of the second. -/
theorem expired_not_spared : ¬ ∀ es : List (LockEvent Unit ℕ),
    Along step Spares (initial 0 fun _ => 120) es := by
  intro all
  have ends : ((runFrom step (initial 0 fun _ => 120) expired).any fun s =>
      (s.runs 1).any fun run => decide (run.Holds s.now ∧ s.Locked run) &&
        (s.step (.release 0)).any fun t => !decide (t.Locked run)) = true := by
    decide +kernel
  obtain ⟨s, reached, shown⟩ := (Option.any_eq_true _ _).mp ends
  obtain ⟨run, found, shown⟩ := (Option.any_eq_true _ _).mp shown
  rw [Bool.and_eq_true, decide_eq_true_eq] at shown
  obtain ⟨⟨holds, locked⟩, deleted⟩ := shown
  obtain ⟨t, taken, deleted⟩ := (Option.any_eq_true _ _).mp deleted
  have spares := (all (expired ++ [.release 0])).met reached taken
  have kept : t.Locked run := spares 0 rfl t taken 1 run (by decide) found holds locked
  rw [decide_eq_true kept] at deleted
  cases deleted

end LockState

end HeyeeAgent.Memory
