import HeyeeAgent.Redis.SortedSet

/-! # A sorted set under a key that expires

A key that has expired holds nothing, and a command that removes the last member removes the key
with its expiry. Where the scores are times of the same clock, a key that outlasts its scores only
takes members with it whose own time is over.
-/

namespace Redis

variable {μ κ : Type*} [LinearOrder μ] [LinearOrder κ]

structure ExpiringSet (μ κ : Type*) [LinearOrder μ] [LinearOrder κ] where
  set : SortedSet μ κ := ∅
  expiresAt : Option κ := none

namespace ExpiringSet

variable {key : ExpiringSet μ κ} {now later max score : κ} {member : μ} {e : μ × κ}

/-- What a command finds under the key. -/
def live (key : ExpiringSet μ κ) (now : κ) : ExpiringSet μ κ :=
  if key.expiresAt.any (· < now) then {} else key

/-- The key after a command that removes members. -/
def shrunk (key : ExpiringSet μ κ) (set : SortedSet μ κ) : ExpiringSet μ κ :=
  if set.entries.isEmpty then {} else { key with set }

def zremrangebyscore (key : ExpiringSet μ κ) (max : κ) : ExpiringSet μ κ :=
  key.shrunk (key.set.zremrangebyscore max)

def zrem (key : ExpiringSet μ κ) (member : μ) : ExpiringSet μ κ := key.shrunk (key.set.zrem member)

def zadd (key : ExpiringSet μ κ) (score : κ) (member : μ) : ExpiringSet μ κ :=
  { key with set := key.set.zadd score member }

/-- `PEXPIRE`, with the time at which the key expires. -/
def pexpire (key : ExpiringSet μ κ) (expiresAt : κ) : ExpiringSet μ κ :=
  { key with expiresAt := some expiresAt }

/-- The key does not expire before a score of its set. -/
def Outlasts (key : ExpiringSet μ κ) : Prop :=
  ∀ expiresAt ∈ key.expiresAt, ∀ e ∈ key.set.entries, e.2 ≤ expiresAt

@[simp] theorem entries_shrunk (key : ExpiringSet μ κ) (set : SortedSet μ κ) :
    (key.shrunk set).set.entries = set.entries := by
  unfold shrunk
  split_ifs with empty
  · exact (List.isEmpty_iff.mp empty).symm
  · rfl

theorem mem_entries_zremrangebyscore :
    e ∈ (key.zremrangebyscore max).set.entries ↔ e ∈ key.set.entries ∧ max < e.2 := by
  rw [zremrangebyscore, entries_shrunk, SortedSet.mem_entries_zremrangebyscore]

theorem mem_entries_zrem : e ∈ (key.zrem member).set.entries ↔ e ∈ key.set.entries ∧ e.1 ≠ member := by
  rw [zrem, entries_shrunk, SortedSet.mem_entries_zrem]

theorem zcard_zremrangebyscore_le (key : ExpiringSet μ κ) (max : κ) :
    (key.zremrangebyscore max).set.zcard ≤ key.set.zcard := by
  rw [zremrangebyscore, SortedSet.zcard, entries_shrunk]
  exact key.set.zcard_zremrangebyscore_le max

theorem zcard_zrem_le (key : ExpiringSet μ κ) (member : μ) :
    (key.zrem member).set.zcard ≤ key.set.zcard := by
  rw [zrem, SortedSet.zcard, entries_shrunk]
  exact key.set.zcard_zrem_le member

theorem live_eq_or (key : ExpiringSet μ κ) (now : κ) : key.live now = key ∨ key.live now = {} := by
  unfold live
  split_ifs
  · exact .inr rfl
  · exact .inl rfl

theorem mem_entries_of_live (found : e ∈ (key.live now).set.entries) : e ∈ key.set.entries := by
  rcases key.live_eq_or now with same | empty
  · rwa [same] at found
  · rw [empty] at found
    cases found

theorem zcard_live_le (key : ExpiringSet μ κ) (now : κ) :
    (key.live now).set.zcard ≤ key.set.zcard := by
  rcases key.live_eq_or now with same | empty
  · rw [same]
  · rw [empty]
    exact Nat.zero_le _

theorem mem_live_pexpire (alive : now ≤ later) (held : e ∈ key.set.entries) :
    e ∈ ((key.pexpire later).live now).set.entries := by
  have unexpired : ¬ (some later).any (· < now) := by
    rw [Option.any_some, decide_eq_true_iff, not_lt]
    exact alive
  rw [live, pexpire, if_neg unexpired]
  exact held

/-- What has expired stays so. -/
theorem live_live (le : now ≤ later) : (key.live now).live later = key.live later := by
  rcases key.live_eq_or now with same | empty
  · rw [same]
  · have expired : key.expiresAt.any (· < later) ∨ key = {} := by
      unfold live at empty
      split_ifs at empty with before
      · obtain ⟨expiresAt, held, lower⟩ := (Option.any_eq_true _ _).mp before
        refine .inl ((Option.any_eq_true _ _).mpr ⟨expiresAt, held, ?_⟩)
        rw [decide_eq_true_iff] at lower ⊢
        exact lower.trans_le le
      · exact .inr empty
    rcases expired with expired | rfl
    · rw [empty, live, live, if_pos expired]
      exact ite_self _
    · rw [empty]

namespace Outlasts

theorem live (outlasts : key.Outlasts) (now : κ) : (key.live now).Outlasts := by
  rcases key.live_eq_or now with same | empty
  · rwa [same]
  · rw [empty]
    exact fun expiresAt held => absurd held (Option.not_mem_none expiresAt)

/-- A member whose time is not over is found. -/
theorem mem_entries_live (outlasts : key.Outlasts) (held : e ∈ key.set.entries) (before : now ≤ e.2) :
    e ∈ (key.live now).set.entries := by
  unfold ExpiringSet.live
  split_ifs with expired
  · obtain ⟨expiresAt, ends, lower⟩ := (Option.any_eq_true _ _).mp expired
    rw [decide_eq_true_iff] at lower
    exact absurd (before.trans (outlasts expiresAt ends e held)) (not_le_of_gt lower)
  · exact held

theorem shrunk (outlasts : key.Outlasts) {set : SortedSet μ κ}
    (subset : ∀ e ∈ set.entries, e ∈ key.set.entries) : (key.shrunk set).Outlasts := by
  intro expiresAt ends e held
  rw [entries_shrunk] at held
  unfold ExpiringSet.shrunk at ends
  split_ifs at ends
  · cases ends
  · exact outlasts expiresAt ends e (subset e held)

end Outlasts

end ExpiringSet

end Redis
