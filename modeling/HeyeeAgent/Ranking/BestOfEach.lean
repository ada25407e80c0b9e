import HeyeeAgent.Python.Object

/-! # The best item of every group

A loop that keeps the best item of each group in a dictionary. An item as good as the kept one does
not displace it, so the first of the best items stands in the end.
-/

namespace Ranking

open Python

variable {α β κ : Type*} [LinearOrder β] {key : α → κ} {rank : α → β} {items : List α} {item a : α}
  {k : κ}

/-- The first of the best items of a group -/
structure FirstBest (key : α → κ) (rank : α → β) (items : List α) (k : κ) (a : α) : Prop where
  key_eq : key a = k
  split : ∃ before after, items = before ++ a :: after ∧
    (∀ b ∈ before, key b = k → rank b < rank a) ∧ ∀ b ∈ after, key b = k → rank b ≤ rank a

theorem FirstBest.mem (first : FirstBest key rank items k a) : a ∈ items := by
  obtain ⟨before, after, rfl, -, -⟩ := first.split
  simp

theorem FirstBest.le (first : FirstBest key rank items k a) {b : α} (member : b ∈ items)
    (same : key b = k) : rank b ≤ rank a := by
  obtain ⟨before, after, rfl, less, le⟩ := first.split
  rcases List.mem_append.mp member with earlier | later
  · exact (less b earlier same).le
  · rcases List.mem_cons.mp later with rfl | later
    · exact le_rfl
    · exact le b later same

/-- An item behind is not better, or of another group. -/
theorem FirstBest.concat (first : FirstBest key rank items k a)
    (covered : key item = k → rank item ≤ rank a) : FirstBest key rank (items ++ [item]) k a where
  key_eq := first.key_eq
  split := by
    obtain ⟨before, after, rfl, less, le⟩ := first.split
    refine ⟨before, after ++ [item], by simp, less, fun b member same => ?_⟩
    rcases List.mem_append.mp member with later | last
    · exact le b later same
    · rw [List.mem_singleton.mp last] at same ⊢
      exact covered same

/-- An item better than those before is the best one. -/
theorem firstBest_last (better : ∀ b ∈ items, key b = key item → rank b < rank item) :
    FirstBest key rank (items ++ [item]) (key item) item where
  key_eq := rfl
  split := ⟨items, [], rfl, better, fun _ member => absurd member List.not_mem_nil⟩

section Dictionary

variable [DecidableEq κ] {better : α → α → Bool} {best : Dict κ α}

/-- A turn of the loop -/
def keepBest (key : α → κ) (better : α → α → Bool) (best : Dict κ α) (item : α) : Dict κ α :=
  match best.get (key item) with
  | none => best.set (key item) item
  | some current => if better item current then best.set (key item) item else best

def bestOfEach (key : α → κ) (better : α → α → Bool) (items : List α) : Dict κ α :=
  items.foldl (keepBest key better) []

theorem bestOfEach_concat : bestOfEach key better (items ++ [item]) =
    keepBest key better (bestOfEach key better items) item := by
  rw [bestOfEach, List.foldl_append]
  rfl

theorem get_keepBest_of_ne (other : k ≠ key item) :
    (keepBest key better best item).get k = best.get k := by
  unfold keepBest
  split
  · exact Dict.get_set_of_ne other
  · split_ifs
    · exact Dict.get_set_of_ne other
    · rfl

theorem nodup_set (distinct : best.keys.Nodup) (k : κ) (a : α) : (best.set k a).keys.Nodup := by
  unfold Dict.set
  split_ifs with taken
  · have same : Dict.keys (best.map fun entry => if entry.1 = k then (k, a) else entry) =
        best.keys := by
      rw [Dict.keys, Dict.keys, List.map_map]
      refine List.map_congr_left fun entry _ => ?_
      dsimp only [Function.comp_apply]
      split_ifs with same
      · exact same.symm
      · rfl
    rwa [same]
  · rw [Dict.keys, List.map_append]
    exact distinct.append (List.nodup_singleton k) (List.disjoint_singleton.mpr taken)

theorem get_of_mem (distinct : best.keys.Nodup) (member : (k, a) ∈ best) : best.get k = some a := by
  induction best with
  | nil => exact absurd member List.not_mem_nil
  | cons entry best ih =>
    obtain ⟨fresh, distinct⟩ := List.nodup_cons.mp distinct
    rw [Dict.get]
    rcases List.mem_cons.mp member with rfl | later
    · rw [List.find?_cons_of_pos (by simp)]
      rfl
    · rw [List.find?_cons_of_neg]
      · exact ih distinct later
      · intro same
        rw [of_decide_eq_true same] at fresh
        exact fresh (List.mem_map_of_mem later)

theorem nodup_keys_bestOfEach : (bestOfEach key better items).keys.Nodup := by
  induction items using List.reverseRecOn with
  | nil => exact List.nodup_nil
  | append_singleton items item ih =>
    rw [bestOfEach_concat]
    unfold keepBest
    split
    · exact nodup_set ih _ _
    · split_ifs
      · exact nodup_set ih _ _
      · exact ih

/-- A group has an entry exactly if it has items, and the entry is the first of its best ones. -/
theorem get_bestOfEach (ordered : ∀ a ∈ items, ∀ b ∈ items, better a b = true ↔ rank b < rank a)
    (k : κ) :
    (∀ a, (bestOfEach key better items).get k = some a → FirstBest key rank items k a) ∧
      ((bestOfEach key better items).get k = none → ∀ a ∈ items, key a ≠ k) := by
  induction items using List.reverseRecOn with
  | nil => exact ⟨fun a found => (by cases found), fun _ a member => absurd member List.not_mem_nil⟩
  | append_singleton items item ih =>
    obtain ⟨some_ih, none_ih⟩ := ih fun a first b second =>
      ordered a (by simp [first]) b (by simp [second])
    rw [bestOfEach_concat]
    by_cases own : k = key item
    · subst own
      unfold keepBest
      cases found : (bestOfEach key better items).get (key item) with
      | none =>
        dsimp only
        rw [Dict.get_set_self]
        refine ⟨fun a same => ?_, fun missing => by cases missing⟩
        cases same
        exact firstBest_last fun b member same => absurd same (none_ih found b member)
      | some current =>
        have first := some_ih current found
        have compares := ordered item (by simp) current (List.mem_append_left _ first.mem)
        dsimp only
        split_ifs with displaces
        · rw [Dict.get_set_self]
          refine ⟨fun a same => ?_, fun missing => by cases missing⟩
          cases same
          exact firstBest_last fun b member same =>
            (first.le member same).trans_lt (compares.mp displaces)
        · rw [found]
          refine ⟨fun a same => ?_, fun missing => by cases missing⟩
          cases same
          exact first.concat fun _ => not_lt.mp fun less => displaces (compares.mpr less)
    · rw [get_keepBest_of_ne own]
      refine ⟨fun a found => (some_ih a found).concat fun same => absurd same.symm own,
        fun missing a member => ?_⟩
      rcases List.mem_append.mp member with earlier | last
      · exact none_ih missing a earlier
      · rw [List.mem_singleton.mp last]
        exact fun same => own same.symm

end Dictionary

end Ranking
