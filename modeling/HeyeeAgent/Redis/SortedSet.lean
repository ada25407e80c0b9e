import Mathlib.Data.List.Nodup
import Mathlib.Order.Lattice

/-! # Sorted sets of a Redis server

A sorted set keeps one score for each of its members and lists them by score, and by member where
scores are equal. The order and the uniqueness of members are fields, so a command builds its
result together with them. Lemmas say what a command does to membership, to scores, to the
cardinality and to ranks, and callers use nothing else.
-/

namespace Redis

variable {μ κ : Type*} [LinearOrder μ] [LinearOrder κ]

/-- By score, and among equal scores by member. -/
def Precedes (a b : μ × κ) : Prop := a.2 < b.2 ∨ a.2 = b.2 ∧ a.1 < b.1

instance : DecidableRel (Precedes (μ := μ) (κ := κ)) := fun a b =>
  inferInstanceAs (Decidable (a.2 < b.2 ∨ a.2 = b.2 ∧ a.1 < b.1))

theorem Precedes.trans {a b c : μ × κ} (first : Precedes a b) (second : Precedes b c) :
    Precedes a c := by
  unfold Precedes at *
  rcases first with lower | ⟨same, member⟩ <;> rcases second with lower' | ⟨same', member'⟩
  · exact .inl (lower.trans lower')
  · exact .inl (same' ▸ lower)
  · exact .inl (same ▸ lower')
  · exact .inr ⟨same.trans same', member.trans member'⟩

theorem Precedes.asymm {a b : μ × κ} (first : Precedes a b) : ¬ Precedes b a := by
  intro second
  rcases first.trans second with lower | ⟨-, lower⟩
  · exact lt_irrefl _ lower
  · exact lt_irrefl _ lower

theorem precedes_or_precedes {a b : μ × κ} (other : a.1 ≠ b.1) : Precedes a b ∨ Precedes b a := by
  unfold Precedes
  rcases lt_trichotomy a.2 b.2 with lower | same | higher
  · exact .inl (.inl lower)
  · rcases lt_or_gt_of_ne other with lower | higher
    · exact .inl (.inr ⟨same, lower⟩)
    · exact .inr (.inr ⟨same.symm, higher⟩)
  · exact .inr (.inl higher)

structure SortedSet (μ κ : Type*) [LinearOrder μ] [LinearOrder κ] where
  entries : List (μ × κ) := []
  ordered : entries.Pairwise Precedes := by exact .nil
  distinct : (entries.map Prod.fst).Nodup := by exact .nil

namespace SortedSet

instance : EmptyCollection (SortedSet μ κ) := ⟨{}⟩

instance : Membership μ (SortedSet μ κ) := ⟨fun z m => m ∈ z.entries.map Prod.fst⟩

instance (m : μ) (z : SortedSet μ κ) : Decidable (m ∈ z) :=
  inferInstanceAs (Decidable (m ∈ z.entries.map Prod.fst))

theorem mem_iff {z : SortedSet μ κ} {m : μ} : m ∈ z ↔ ∃ k, (m, k) ∈ z.entries := by
  change m ∈ z.entries.map Prod.fst ↔ _
  simp

@[simp] theorem notMem_empty (m : μ) : m ∉ (∅ : SortedSet μ κ) := List.not_mem_nil

/-- The members that satisfy a test, with the scores they had. -/
def filter (z : SortedSet μ κ) (keep : μ × κ → Bool) : SortedSet μ κ where
  entries := z.entries.filter keep
  ordered := z.ordered.filter keep
  distinct := z.distinct.sublist (List.filter_sublist.map Prod.fst)

theorem mem_entries_filter {z : SortedSet μ κ} {keep : μ × κ → Bool} {e : μ × κ} :
    e ∈ (z.filter keep).entries ↔ e ∈ z.entries ∧ keep e = true := List.mem_filter

def zcard (z : SortedSet μ κ) : ℕ := z.entries.length

theorem zcard_filter_le (z : SortedSet μ κ) (keep : μ × κ → Bool) :
    (z.filter keep).zcard ≤ z.zcard := List.length_filter_le ..

/-- `ZREM` of one member; an absent member is left out of account. -/
def zrem (z : SortedSet μ κ) (m : μ) : SortedSet μ κ := z.filter fun e => e.1 ≠ m

@[simp] theorem mem_entries_zrem {z : SortedSet μ κ} {m : μ} {e : μ × κ} :
    e ∈ (z.zrem m).entries ↔ e ∈ z.entries ∧ e.1 ≠ m := by
  simp [zrem, mem_entries_filter]

@[simp] theorem mem_zrem {z : SortedSet μ κ} {m m' : μ} : m' ∈ z.zrem m ↔ m' ∈ z ∧ m' ≠ m := by
  simp only [mem_iff, mem_entries_zrem]
  exact ⟨fun ⟨k, member, other⟩ => ⟨⟨k, member⟩, other⟩,
    fun ⟨⟨k, member⟩, other⟩ => ⟨k, member, other⟩⟩

theorem zcard_zrem_le (z : SortedSet μ κ) (m : μ) : (z.zrem m).zcard ≤ z.zcard :=
  z.zcard_filter_le _

/-- `ZREMRANGEBYSCORE key -inf max`. -/
def zremrangebyscore (z : SortedSet μ κ) (max : κ) : SortedSet μ κ := z.filter fun e => max < e.2

@[simp] theorem mem_entries_zremrangebyscore {z : SortedSet μ κ} {max : κ} {e : μ × κ} :
    e ∈ (z.zremrangebyscore max).entries ↔ e ∈ z.entries ∧ max < e.2 := by
  simp [zremrangebyscore, mem_entries_filter]

theorem mem_of_mem_zremrangebyscore {z : SortedSet μ κ} {max : κ} {m : μ}
    (member : m ∈ z.zremrangebyscore max) : m ∈ z := by
  obtain ⟨k, member⟩ := mem_iff.mp member
  exact mem_iff.mpr ⟨k, (mem_entries_zremrangebyscore.mp member).1⟩

theorem zcard_zremrangebyscore_le (z : SortedSet μ κ) (max : κ) :
    (z.zremrangebyscore max).zcard ≤ z.zcard := z.zcard_filter_le _

/-- `ZADD`: the member gets the score, whether or not it had one before. -/
def zadd (z : SortedSet μ κ) (k : κ) (m : μ) : SortedSet μ κ where
  entries := (z.zrem m).entries.filter (fun e => Precedes e (m, k)) ++
    (m, k) :: (z.zrem m).entries.filter (fun e => Precedes (m, k) e)
  ordered := by
    refine List.pairwise_append.mpr ⟨(z.zrem m).ordered.filter _,
      List.pairwise_cons.mpr ⟨?_, (z.zrem m).ordered.filter _⟩, ?_⟩
    · intro e above
      simpa using (List.mem_filter.mp above).2
    · intro e below e' rest
      have lower : Precedes e (m, k) := by simpa using (List.mem_filter.mp below).2
      rcases List.mem_cons.mp rest with rfl | above
      · exact lower
      · exact lower.trans (by simpa using (List.mem_filter.mp above).2)
  distinct := by
    have parts := List.pairwise_map.mp (z.zrem m).distinct
    have fresh (e) (member : e ∈ (z.zrem m).entries) : e.1 ≠ m := (mem_entries_zrem.mp member).2
    refine List.pairwise_map.mpr (List.pairwise_append.mpr ⟨parts.filter _,
      List.pairwise_cons.mpr ⟨?_, parts.filter _⟩, ?_⟩)
    · intro e above
      exact (fresh e (List.mem_filter.mp above).1).symm
    · intro e below e' rest
      rcases List.mem_cons.mp rest with rfl | above
      · exact fresh e (List.mem_filter.mp below).1
      · intro same
        have one : e = e' := List.inj_on_of_nodup_map (z.zrem m).distinct
          (List.mem_filter.mp below).1 (List.mem_filter.mp above).1 same
        have lower : Precedes e (m, k) := by simpa using (List.mem_filter.mp below).2
        have higher : Precedes (m, k) e' := by simpa using (List.mem_filter.mp above).2
        exact lower.asymm (one ▸ higher)

@[simp] theorem mem_entries_zadd {z : SortedSet μ κ} {k : κ} {m : μ} {e : μ × κ} :
    e ∈ (z.zadd k m).entries ↔ e = (m, k) ∨ e ∈ z.entries ∧ e.1 ≠ m := by
  change e ∈ _ ++ _ :: _ ↔ _
  simp only [List.mem_append, List.mem_cons, List.mem_filter, mem_entries_zrem, decide_eq_true_eq]
  constructor
  · rintro (⟨old, -⟩ | rfl | ⟨old, -⟩)
    · exact .inr old
    · exact .inl rfl
    · exact .inr old
  · rintro (rfl | old)
    · exact .inr (.inl rfl)
    · rcases precedes_or_precedes (b := (m, k)) old.2 with lower | higher
      · exact .inl ⟨old, lower⟩
      · exact .inr (.inr ⟨old, higher⟩)

@[simp] theorem mem_zadd {z : SortedSet μ κ} {k : κ} {m m' : μ} :
    m' ∈ z.zadd k m ↔ m' = m ∨ m' ∈ z := by
  simp only [mem_iff, mem_entries_zadd, Prod.mk.injEq]
  constructor
  · rintro ⟨k', ⟨rfl, -⟩ | ⟨old, -⟩⟩
    · exact .inl rfl
    · exact .inr ⟨k', old⟩
  · intro either
    by_cases same : m' = m
    · exact ⟨k, .inl ⟨same, rfl⟩⟩
    · obtain ⟨k', old⟩ := either.resolve_left same
      exact ⟨k', .inr ⟨old, same⟩⟩

/-- A new member makes the set larger by one at most. -/
theorem zcard_zadd_le (z : SortedSet μ κ) (k : κ) (m : μ) : (z.zadd k m).zcard ≤ z.zcard + 1 := by
  have parts : ∀ entries : List (μ × κ),
      (entries.filter fun e => Precedes e (m, k)).length +
        (entries.filter fun e => Precedes (m, k) e).length ≤ entries.length := by
    intro entries
    induction entries with
    | nil => exact Nat.le_refl 0
    | cons e entries ih =>
      have once : Precedes e (m, k) → ¬ Precedes (m, k) e := Precedes.asymm
      simp only [List.filter_cons, decide_eq_true_eq]
      split_ifs with lower higher higher
      · exact absurd higher (once lower)
      all_goals simp only [List.length_cons]; omega
  have split := parts (z.zrem m).entries
  have removed := z.zcard_zrem_le m
  simp only [zcard, zadd, List.length_append, List.length_cons] at *
  omega

/-- `ZADD ... XX`: only a member that is there gets the score. -/
def zaddXX (z : SortedSet μ κ) (k : κ) (m : μ) : SortedSet μ κ := if m ∈ z then z.zadd k m else z

/-- An update never adds a member, and never loses one. -/
@[simp] theorem mem_zaddXX {z : SortedSet μ κ} {k : κ} {m m' : μ} :
    m' ∈ z.zaddXX k m ↔ m' ∈ z := by
  unfold zaddXX
  split_ifs with present
  · rw [mem_zadd]
    exact ⟨fun either => either.elim (· ▸ present) id, .inr⟩
  · rfl

/-- As lists of members, sets with the same members have the same size. -/
theorem zcard_eq_of_mem_iff {z z' : SortedSet μ κ} (same : ∀ m, m ∈ z ↔ m ∈ z') :
    z.zcard = z'.zcard := by
  have perm : (z.entries.map Prod.fst).Perm (z'.entries.map Prod.fst) :=
    (List.perm_ext_iff_of_nodup z.distinct z'.distinct).mpr same
  simpa [zcard] using perm.length_eq

@[simp] theorem zcard_zaddXX (z : SortedSet μ κ) (k : κ) (m : μ) :
    (z.zaddXX k m).zcard = z.zcard := zcard_eq_of_mem_iff fun _ => mem_zaddXX

/-- `ZRANGE key 0 stop`, both ends included. -/
def zrange (z : SortedSet μ κ) (stop : ℕ) : List μ := (z.entries.take (stop + 1)).map Prod.fst

/-- `ZRANK`: the position in the order of the set. -/
def zrank (z : SortedSet μ κ) (m : μ) : Option ℕ := z.entries.findIdx? fun e => e.1 = m

theorem mem_of_zrank {z : SortedSet μ κ} {m : μ} {rank : ℕ} (found : z.zrank m = some rank) :
    m ∈ z := by
  have position := List.findIdx?_eq_some_iff_getElem.mp found
  obtain ⟨bound, same, -⟩ := position
  exact List.mem_map.mpr ⟨z.entries[rank], List.getElem_mem bound, by simpa using same⟩

/-- A member's rank is the number of entries before it. -/
theorem zrank_eq_countP {z : SortedSet μ κ} {m : μ} {k : κ} (member : (m, k) ∈ z.entries) :
    z.zrank m = some (z.entries.countP fun e => Precedes e (m, k)) := by
  obtain ⟨entries, ordered, distinct⟩ := z
  change entries.findIdx? _ = _
  induction entries with
  | nil => cases member
  | cons e entries ih =>
    obtain ⟨first, rest⟩ := List.pairwise_cons.mp ordered
    rcases List.mem_cons.mp member with rfl | later
    · have none_before : entries.countP (fun e => Precedes e (m, k)) = 0 :=
        List.countP_eq_zero.mpr fun e above => by simpa using (first e above).asymm
      have irrefl : ¬ Precedes (m, k) (m, k) := fun self => self.asymm self
      simp [List.findIdx?_cons, none_before, irrefl]
    · have lower : Precedes e (m, k) := first _ later
      have fresh : e.1 ≠ m := fun same => (List.nodup_cons.mp distinct).1
        (same ▸ List.mem_map.mpr ⟨(m, k), later, rfl⟩)
      have tail := ih rest (List.nodup_cons.mp distinct).2 later
      simp [List.findIdx?_cons, fresh, tail, lower]

/-- Fewer entries have a smaller score than the rank says. -/
theorem countP_score_lt_le {z : SortedSet μ κ} {m : μ} {k : κ} {rank : ℕ}
    (member : (m, k) ∈ z.entries) (found : z.zrank m = some rank) :
    z.entries.countP (fun e => e.2 < k) ≤ rank := by
  have counted := Option.some.inj (found.symm.trans (zrank_eq_countP member))
  rw [counted]
  refine List.countP_mono_left fun e _ lower => ?_
  simp only [decide_eq_true_eq] at lower ⊢
  exact .inl lower

/-- Ranks follow the scores. -/
theorem zrank_le_zrank {z : SortedSet μ κ} {m m' : μ} {k k' : κ} {rank rank' : ℕ}
    (member : (m, k) ∈ z.entries) (member' : (m', k') ∈ z.entries) (lower : k < k')
    (found : z.zrank m = some rank) (found' : z.zrank m' = some rank') : rank ≤ rank' := by
  have counted := Option.some.inj (found.symm.trans (zrank_eq_countP member))
  have counted' := Option.some.inj (found'.symm.trans (zrank_eq_countP member'))
  rw [counted, counted']
  refine List.countP_mono_left fun e _ before => ?_
  simp only [decide_eq_true_eq] at before ⊢
  exact before.trans (.inl lower)

end SortedSet

end Redis
