import Mathlib.Algebra.Order.Ring.Rat
import Mathlib.Data.Rat.Defs
import Mathlib.Logic.Function.Basic

/-! # String keys of a Redis server

A key holds a value and perhaps the time at which it expires. A command reads the server's clock;
an expired key is absent. Lemmas say what a command does to what is read under a key, and callers
use nothing else.
-/

namespace Redis

structure StringValue where
  value : String
  expiresAt : Option ℚ := none

structure Strings where
  entries : String → Option StringValue := fun _ => none

namespace Strings

variable {db : Strings} {now later : ℚ} {key key' value : String}

/-- `GET` -/
def get (db : Strings) (now : ℚ) (key : String) : Option String :=
  match db.entries key with
  | none => none
  | some entry => if entry.expiresAt.all (now < ·) then some entry.value else none

/-- `SET` with an optional `EX`. -/
def set (db : Strings) (key value : String) (expiresAt : Option ℚ) : Strings :=
  ⟨Function.update db.entries key (some ⟨value, expiresAt⟩)⟩

/-- `SET NX`, with whether the key has been created. -/
def setNx (db : Strings) (now : ℚ) (key value : String) (expiresAt : Option ℚ) : Strings × Bool :=
  if (db.get now key).isSome then (db, false) else (db.set key value expiresAt, true)

/-- `DEL` -/
def delete (db : Strings) (key : String) : Strings := ⟨Function.update db.entries key none⟩

theorem entry_of_get (found : db.get now key = some value) :
    ∃ entry, db.entries key = some entry ∧ entry.value = value := by
  unfold get at found
  cases entry : db.entries key with
  | none => simp [entry] at found
  | some stored =>
    rw [entry] at found
    dsimp only at found
    split_ifs at found
    exact ⟨stored, rfl, Option.some.inj found⟩

/-- A key with a time to live is read until it expires. -/
theorem get_set_of_lt {expiresAt : ℚ} (alive : now < expiresAt) (value : String) :
    (db.set key value (some expiresAt)).get now key = some value := by
  simp [get, set, alive]

theorem setNx_of_some (found : db.get now key = some value) (new : String) (expiresAt : Option ℚ) :
    db.setNx now key new expiresAt = (db, false) := by
  rw [setNx, found, Option.isSome_some, if_pos rfl]

theorem setNx_of_none (absent : db.get now key = none) (new : String) (expiresAt : Option ℚ) :
    db.setNx now key new expiresAt = (db.set key new expiresAt, true) := by
  rw [setNx, absent, Option.isSome_none, if_neg Bool.false_ne_true]

theorem get_set_ne (other : key' ≠ key) (value : String) (expiresAt : Option ℚ) :
    (db.set key value expiresAt).get now key' = db.get now key' := by
  simp [get, set, Function.update_of_ne other]

theorem get_setNx_ne (other : key' ≠ key) (value : String) (expiresAt : Option ℚ) :
    (db.setNx now key value expiresAt).1.get later key' = db.get later key' := by
  unfold setNx
  split_ifs with present
  · rfl
  · exact get_set_ne other value expiresAt

theorem get_delete_self : (db.delete key).get now key = none := by simp [get, delete]

theorem get_delete_ne (other : key' ≠ key) : (db.delete key).get now key' = db.get now key' := by
  simp [get, delete, Function.update_of_ne other]

/-- What is read under a key after a `DEL` has been there before. -/
theorem get_of_delete (found : (db.delete key).get now key' = some value) :
    db.get now key' = some value := by
  by_cases same : key' = key
  · subst same
    simp [get_delete_self] at found
  · rwa [get_delete_ne same] at found

/-- A key only disappears with time. -/
theorem get_of_later (passed : now ≤ later) (found : db.get later key = some value) :
    db.get now key = some value := by
  unfold get at found ⊢
  cases entry : db.entries key with
  | none => simp [entry] at found
  | some stored =>
    rw [entry] at found
    dsimp only at found ⊢
    split_ifs at found with alive
    have alive' : stored.expiresAt.all (now < ·) = true := by
      cases expiry : stored.expiresAt with
      | none => rfl
      | some at_ =>
        rw [expiry] at alive
        simp only [Option.all_some, decide_eq_true_eq] at alive ⊢
        exact lt_of_le_of_lt passed alive
    rw [if_pos alive']
    exact found

end Strings

end Redis
