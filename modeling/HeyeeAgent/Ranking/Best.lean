import Mathlib.Data.List.Sort
import Mathlib.Data.List.Count
import Mathlib.Data.List.Perm.Subperm
import Mathlib.Order.Basic

/-! # The best of a pool

The best `k` entries of a pool by a key. A pool may be cut down part by part before they are taken:
what is dropped does not count as long as `k` entries are kept that are as good.
-/

namespace Ranking

variable {α β γ : Type*} [LinearOrder β] [LinearOrder γ] {key : α → β} {k : ℕ}
  {pool pool' kept kept' chosen sorted : List α}

/-- What is kept of a pool stands for all of it: for an entry that is dropped there are `k` as good. -/
def Covers (key : α → β) (k : ℕ) (pool kept : List α) : Prop :=
  ∃ dropped, (kept ++ dropped).Perm pool ∧ ∀ b ∈ dropped, k ≤ kept.countP fun a => key b ≤ key a

/-- The best `k` entries, in descending order. -/
structure Best (key : α → β) (k : ℕ) (pool chosen : List α) : Prop where
  descending : chosen.Pairwise fun a b => key b ≤ key a
  length_le : chosen.length ≤ k
  covers : Covers key k pool chosen

section Covering

theorem Covers.refl (key : α → β) (k : ℕ) (pool : List α) : Covers key k pool pool :=
  ⟨[], by rw [List.append_nil], fun _ member => absurd member List.not_mem_nil⟩

theorem Covers.of_perm (perm : kept.Perm pool) : Covers key k pool kept :=
  ⟨[], by rwa [List.append_nil], fun _ member => absurd member List.not_mem_nil⟩

theorem Covers.subperm (covers : Covers key k pool kept) : kept.Subperm pool := by
  obtain ⟨dropped, perm, -⟩ := covers
  exact (List.sublist_append_left kept dropped).subperm.trans perm.subperm

theorem countP_mono_key {b c : α} (less : key b ≤ key c) :
    kept.countP (fun a => key c ≤ key a) ≤ kept.countP fun a => key b ≤ key a := by
  apply List.countP_mono_left
  intro a _ good
  rw [decide_eq_true_eq] at good ⊢
  exact less.trans good

theorem Covers.trans (first : Covers key k pool kept) (second : Covers key k kept kept') :
    Covers key k pool kept' := by
  obtain ⟨dropped, perm, good⟩ := first
  obtain ⟨dropped', perm', good'⟩ := second
  refine ⟨dropped' ++ dropped, ?_, fun b member => ?_⟩
  · rw [← List.append_assoc]
    exact (perm'.append_right dropped).trans perm
  · rcases List.mem_append.mp member with later | earlier
    · exact good' b later
    · by_cases better : ∃ c ∈ dropped', key b ≤ key c
      · -- an entry as good was dropped in turn, so what covers that one covers this one
        obtain ⟨c, later, less⟩ := better
        exact (good' c later).trans (countP_mono_key less)
      · have none_left : dropped'.countP (fun a => key b ≤ key a) = 0 := by
          rw [List.countP_eq_zero]
          intro c later
          rw [decide_eq_true_eq]
          exact fun less => better ⟨c, later, less⟩
        have count := perm'.countP_eq fun a => decide (key b ≤ key a)
        rw [List.countP_append, none_left, Nat.add_zero] at count
        exact count ▸ good b earlier

theorem Covers.append (first : Covers key k pool kept) (second : Covers key k pool' kept') :
    Covers key k (pool ++ pool') (kept ++ kept') := by
  obtain ⟨dropped, perm, good⟩ := first
  obtain ⟨dropped', perm', good'⟩ := second
  refine ⟨dropped ++ dropped', ?_, fun b member => ?_⟩
  · refine List.Perm.trans ?_ (perm.append perm')
    rw [List.append_assoc, List.append_assoc]
    apply List.Perm.append_left
    rw [← List.append_assoc, ← List.append_assoc]
    exact List.perm_append_comm.append_right dropped'
  · rw [List.countP_append]
    rcases List.mem_append.mp member with here | there
    · exact (good b here).trans (Nat.le_add_right ..)
    · exact (good' b there).trans (Nat.le_add_left ..)

/-- Parts of a pool may be cut down one by one. -/
theorem Covers.flatMap {ι : Type*} {parts : List ι} {pool kept : ι → List α}
    (covers : ∀ part ∈ parts, Covers key k (pool part) (kept part)) :
    Covers key k (parts.flatMap pool) (parts.flatMap kept) := by
  induction parts with
  | nil => exact Covers.refl key k []
  | cons part parts ih =>
    obtain ⟨first, rest⟩ := List.forall_mem_cons.mp covers
    rw [List.flatMap_cons, List.flatMap_cons]
    exact first.append (ih rest)

/-- A key that keeps the order of another one. -/
theorem Covers.of_monotone {key' : α → γ} (covers : Covers key k pool kept)
    (mono : ∀ a ∈ pool, ∀ b ∈ pool, key a ≤ key b → key' a ≤ key' b) : Covers key' k pool kept := by
  obtain ⟨dropped, perm, good⟩ := covers
  refine ⟨dropped, perm, fun b member => (good b member).trans (List.countP_mono_left ?_)⟩
  intro a chosen better
  rw [decide_eq_true_eq] at better ⊢
  exact mono b (perm.subset (List.mem_append_right _ member)) a
    (perm.subset (List.mem_append_left _ chosen)) better

theorem Covers.map {δ : Type*} {f : δ → α} {pool kept : List δ} (covers : Covers (key ∘ f) k pool kept) :
    Covers key k (pool.map f) (kept.map f) := by
  obtain ⟨dropped, perm, good⟩ := covers
  refine ⟨dropped.map f, ?_, fun b member => ?_⟩
  · rw [← List.map_append]
    exact perm.map f
  · obtain ⟨c, there, rfl⟩ := List.mem_map.mp member
    rw [List.countP_map]
    exact good c there

/-- The first `k` of a descending list are as good as those behind them. -/
theorem covers_take (descending : sorted.Pairwise fun a b => key b ≤ key a) :
    Covers key k sorted (sorted.take k) := by
  refine ⟨sorted.drop k, by rw [List.take_append_drop], fun b later => ?_⟩
  have bound : k ≤ sorted.length := by
    have := List.length_pos_of_mem later
    rw [List.length_drop] at this
    omega
  rw [← List.take_append_drop k sorted] at descending
  have better := (List.pairwise_append.mp descending).2.2
  have all : (sorted.take k).countP (fun a => key b ≤ key a) = (sorted.take k).length := by
    rw [List.countP_eq_length]
    intro a earlier
    exact decide_eq_true (better a earlier b later)
  rw [all, List.length_take]
  omega

end Covering

section Taking

/-- The best of what is kept are the best of the pool. -/
theorem best_take (covers : Covers key k pool kept) (perm : sorted.Perm kept)
    (descending : sorted.Pairwise fun a b => key b ≤ key a) : Best key k pool (sorted.take k) where
  descending := descending.sublist (List.take_sublist ..)
  length_le := List.length_take_le ..
  covers := (covers.trans (Covers.of_perm perm)).trans (covers_take descending)

/-- Nothing that is left out is better than anything that is chosen, and only with `k` entries chosen is
anything left out. -/
theorem Best.rest (best : Best key k pool chosen) :
    ∃ rest, (chosen ++ rest).Perm pool ∧ (∀ a ∈ chosen, ∀ b ∈ rest, key b ≤ key a) ∧
      (rest ≠ [] → chosen.length = k) := by
  obtain ⟨rest, perm, good⟩ := best.covers
  have full (b : α) (member : b ∈ rest) :
      chosen.countP (fun a => key b ≤ key a) = chosen.length ∧ chosen.length = k := by
    have := good b member
    have := best.length_le
    have := List.countP_le_length (p := fun a => decide (key b ≤ key a)) (l := chosen)
    omega
  refine ⟨rest, perm, fun a chosen b member => ?_, fun nonempty => ?_⟩
  · exact of_decide_eq_true (List.countP_eq_length.mp (full b member).1 a chosen)
  · obtain ⟨b, member⟩ := List.exists_mem_of_ne_nil rest nonempty
    exact (full b member).2

end Taking

end Ranking
