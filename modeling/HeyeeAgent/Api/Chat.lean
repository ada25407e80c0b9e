import HeyeeAgent.StreamTaskManager

/-! # The identity of a caller

`POST /chat/stream` takes the user from the `X-User-Id` header or from the body, the stream makes it
the owner of its task, and the cancel endpoint takes the caller from the header alone. A request is
accepted before the stream runs, and `is_owned_by` compares the two later on any node.
-/

namespace HeyeeAgent.Api.Chat

structure HTTPException where
  statusCode : ℕ
  detail : String
deriving DecidableEq

def unauthorized : HTTPException := ⟨401, "Unauthorized"⟩

def forbidden : HTTPException := ⟨403, "Forbidden"⟩

section Endpoints

variable (requireAuthenticatedUser : Bool) (userId : Option ℤ) (header : Option String)

/-- `_with_trusted_identity`: the user of the copied request. -/
def withTrustedIdentity : Except HTTPException String :=
  let requestedUserId := userId.map Int.repr
  match header with
  | some header =>
    let authenticatedUserId := Python.strip header
    if authenticatedUserId = "" then .error unauthorized
    else if requestedUserId.any (· ≠ authenticatedUserId) then .error forbidden
    else .ok authenticatedUserId
  | none =>
    if requireAuthenticatedUser then .error unauthorized
    else .ok (match requestedUserId with
      | some user => if user = "" then "0" else user
      | none => "0")

/-- `owner_id` in `stream`; the user of the copied request is a text. -/
def ownerId (userId : Option String) : String := userId.getD "0"

/-- The owner of the task that an accepted request starts. -/
def streamOwnerId : Except HTTPException String :=
  (withTrustedIdentity requireAuthenticatedUser userId header).map fun user => ownerId (some user)

/-- The owner that `cancel_stream_chat` derives. -/
def cancelOwnerId : Except HTTPException String :=
  let given := header.filter (· ≠ "")
  if requireAuthenticatedUser ∧ given = none then .error unauthorized
  else .ok (match given with
    | some header => Python.strip header
    | none => "0")

end Endpoints

section Ownership

variable {H : Type} {m : StreamTaskManager H} {now : ℚ} {taskId owner caller : String}

/-- The caller is taken for the owner, on the node that has registered the task and on any other. -/
structure Owns (H : Type) (owner caller : String) : Prop where
  registered : ∀ (m : StreamTaskManager H) (now later : ℚ) (taskId : String)
    (remoteOwner : Option String), (m.register now taskId (some owner)).2 = true →
      (m.register now taskId (some owner)).1.isOwnedBy later taskId caller remoteOwner = true
  elsewhere : ∀ (m : StreamTaskManager H) (now : ℚ) (taskId : String),
    m.distributedEnabled = true → m.tasks.lookup taskId = none →
      m.isOwnedBy now taskId caller (some (Python.strip owner)) = true

theorem lookup_registered (shown : owner ≠ "") (later : ℚ)
    (free : (m.register now taskId (some owner)).2 = true) :
    ((m.register now taskId (some owner)).1.purgeExpired later).tasks.lookup taskId =
      some { ownerId := some (Python.strip owner) } := by
  have normalized : ((some owner).filter (· ≠ "")).map Python.strip = some (Python.strip owner) := by
    simp [Option.filter, shown]
  rw [StreamTaskManager.lookup_purgeExpired]
  unfold StreamTaskManager.register at free ⊢
  dsimp only at free ⊢
  split_ifs at free ⊢
  rw [AList.lookup_insert, normalized, Option.filter_some_pos]
  rw [decide_eq_true_eq]
  rintro ⟨expiresAt, set, -⟩
  cases set

/-- The owner is whoever gives the same name, up to blanks at its ends. -/
theorem owns_iff (shown : owner ≠ "") :
    Owns H owner caller ↔ Python.strip owner = Python.strip caller := by
  constructor
  · intro owns
    have registered := owns.registered {} 0 0 "task" none (by
      unfold StreamTaskManager.register
      simp [StreamTaskManager.purgeExpired])
    unfold StreamTaskManager.isOwnedBy at registered
    rw [lookup_registered shown 0 (by
      unfold StreamTaskManager.register
      simp [StreamTaskManager.purgeExpired])] at registered
    simpa using registered
  · intro same
    constructor
    · intro m now later taskId remoteOwner free
      unfold StreamTaskManager.isOwnedBy
      rw [lookup_registered shown later free]
      simp [same]
    · intro m now taskId enabled absent
      have purged : (m.purgeExpired now).tasks.lookup taskId = none := by
        rw [StreamTaskManager.lookup_purgeExpired, absent]
        rfl
      unfold StreamTaskManager.isOwnedBy
      rw [purged]
      simp [enabled, same]

end Ownership

section Integers

theorem isSpace_of_isDigit {c : Char} (digit : c.isDigit = true) : Python.isSpace c = false := by
  have bounds : 48 ≤ c.toNat ∧ c.toNat ≤ 57 := Char.isDigit_iff_toNat.mp digit
  simp only [Python.isSpace, Python.isSpaceCode, Bool.or_eq_false_iff, Bool.and_eq_false_iff,
    decide_eq_false_iff_not, beq_eq_false_iff_ne]
  omega

theorem isSpace_repr (n : ℤ) : ∀ c ∈ (Int.repr n).toList, Python.isSpace c = false := by
  have digits (k : ℕ) : ∀ c ∈ k.repr.toList, Python.isSpace c = false := by
    intro c member
    rw [Nat.toList_repr] at member
    exact isSpace_of_isDigit (Nat.isDigit_of_mem_toDigits (by decide) (by decide) member)
  cases n with
  | ofNat k => exact digits k
  | negSucc k =>
    intro c member
    rw [Int.repr, String.toList_append] at member
    rcases List.mem_append.mp member with sign | digit
    · rw [List.mem_singleton.mp sign]
      decide
    · exact digits k.succ c digit

theorem repr_eq_zero {n : ℤ} : Int.repr n = "0" ↔ n = 0 := by
  constructor
  · intro same
    cases n with
    | ofNat k =>
      have digits : Nat.toDigits 10 k = ['0'] := by
        rw [← Nat.toList_repr]
        exact congrArg String.toList same
      have value := Nat.ofDigitChars_ten_toDigits (n := k)
      rw [digits] at value
      exact congrArg Int.ofNat value.symm
    | negSucc k =>
      have signs := congrArg (fun text : String => text.toList.head?) same
      rw [Int.repr, String.toList_append] at signs
      cases signs
  · rintro rfl
    rfl

theorem repr_ne_empty (n : ℤ) : Int.repr n ≠ "" := by
  intro blank
  have lists := congrArg String.toList blank
  cases n with
  | ofNat k =>
    rw [Int.repr, Nat.toList_repr] at lists
    exact Nat.toDigits_ne_nil lists
  | negSucc k =>
    rw [Int.repr, String.toList_append] at lists
    cases lists

end Integers

section Agreement

variable {H : Type} {requireAuthenticatedUser : Bool} {userId : Option ℤ} {header : Option String}

/-- Whoever has started a stream is taken for its owner when they cancel it with the same header. -/
def CanStop (H : Type) (requireAuthenticatedUser : Bool) (userId : Option ℤ)
    (header : Option String) : Prop :=
  ∀ owner, streamOwnerId requireAuthenticatedUser userId header = .ok owner →
    ∃ caller, cancelOwnerId requireAuthenticatedUser header = .ok caller ∧ Owns H owner caller

theorem canStop_of_header (header : String) :
    CanStop H requireAuthenticatedUser userId (some header) := by
  intro owner started
  unfold streamOwnerId withTrustedIdentity at started
  dsimp only at started
  split_ifs at started with blank conflict
  · cases started
  · cases started
  obtain rfl : Python.strip header = owner := Except.ok.inj started
  have given : header ≠ "" := by
    rintro rfl
    exact blank rfl
  refine ⟨Python.strip header, ?_, (owns_iff blank).mpr rfl⟩
  simp [cancelOwnerId, Option.filter, given]

/-- Without a header the stream is owned by the user of the body, and the cancel comes from user 0. -/
theorem canStop_without_header :
    CanStop H false userId none ↔ userId = none ∨ userId = some 0 := by
  cases userId with
  | none =>
    refine iff_of_true ?_ (.inl rfl)
    intro owner started
    cases started
    exact ⟨"0", rfl, (owns_iff (by decide)).mpr rfl⟩
  | some n =>
    have shown : Int.repr n ≠ "" := repr_ne_empty n
    have started : streamOwnerId false (some n) none = .ok (Int.repr n) := by
      simp [streamOwnerId, withTrustedIdentity, shown, Except.map, ownerId]
    have stripped : Python.strip (Int.repr n) = Int.repr n := Python.strip_eq_self (isSpace_repr n)
    have owns : Owns H (Int.repr n) "0" ↔ n = 0 := by
      rw [owns_iff shown, stripped, ← repr_eq_zero]
      exact Iff.rfl
    constructor
    · intro canStop
      obtain ⟨caller, derived, owned⟩ := canStop (Int.repr n) started
      cases derived
      exact .inr (congrArg some (owns.mp owned))
    · intro zero owner started'
      cases started.symm.trans started'
      refine ⟨"0", rfl, owns.mpr ?_⟩
      simpa using zero

/-- The caller can stop what it has started exactly when it has sent a header, or a header is
required, or the body names no user but 0. -/
theorem canStop_iff (requireAuthenticatedUser : Bool) (userId : Option ℤ) (header : Option String) :
    CanStop H requireAuthenticatedUser userId header ↔
      header.isSome = true ∨ requireAuthenticatedUser = true ∨ userId = none ∨ userId = some 0 := by
  cases header with
  | some header => exact iff_of_true (canStop_of_header header) (.inl rfl)
  | none =>
    cases requireAuthenticatedUser with
    | true =>
      refine iff_of_true ?_ (.inr (.inl rfl))
      intro owner started
      cases started
    | false =>
      rw [canStop_without_header]
      simp

/-- A local user 5 starts a stream, and is no owner of it. -/
theorem localUser_cannot_stop : streamOwnerId false (some 5) none = .ok "5" ∧
    cancelOwnerId false none = .ok "0" ∧ ¬ CanStop Unit false (some 5) none := by
  refine ⟨by decide, by decide, fun canStop => ?_⟩
  obtain ⟨caller, derived, owns⟩ := canStop "5" (by decide)
  cases derived
  have same := (owns_iff (by decide)).mp owns
  revert same
  decide

end Agreement

end HeyeeAgent.Api.Chat
