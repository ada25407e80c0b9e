import HeyeeAgent.Machine.Run
import Mathlib.Data.List.Nodup
import Mathlib.Data.List.Perm.Basic

/-! # Bounded first-in-first-out admission

Requests join a queue, may be withdrawn from any place in it, and are granted a permit only at
its head and only while fewer than `capacity` permits are held. The histories of joins, grants and
freed permits are part of the state, so that order and ownership are properties of one state. The
requests and the permits are arbitrary types.
-/

namespace Admission

variable {ι κ : Type*} [DecidableEq ι] [DecidableEq κ]

structure Queue (ι κ : Type*) where
  joined : List ι := []
  waiting : List ι := []
  granted : List (ι × κ) := []
  held : List κ := []
  freed : List κ := []

inductive Op (ι κ : Type*) where
  | join (request : ι)
  | withdraw (rest : List ι)
  | grant (request : ι) (permit : κ)
  | free (permit : κ)

/-- A grant takes the head of the queue and a permit that was never seen before. -/
def step (capacity : ℕ) (q : Queue ι κ) : Op ι κ → Option (Queue ι κ)
  | .join i =>
    if i ∈ q.joined then none
    else some { q with joined := q.joined ++ [i], waiting := q.waiting ++ [i] }
  | .withdraw rest => if rest.Sublist q.waiting then some { q with waiting := rest } else none
  | .grant i k =>
    if q.waiting.head? = some i ∧ q.held.length < capacity ∧
        k ∉ q.granted.map Prod.snd ∧ k ∉ q.freed then
      some { q with
        waiting := q.waiting.tail
        granted := q.granted ++ [(i, k)]
        held := k :: q.held }
    else none
  | .free k => some { q with held := q.held.erase k, freed := q.freed ++ [k] }

/-- Requests stay in the order of their joins: first those granted, then those still waiting. -/
structure Ordered (q : Queue ι κ) : Prop where
  nodup : q.joined.Nodup
  sublist : (q.granted.map Prod.fst ++ q.waiting).Sublist q.joined

/-- The held permits are those granted and not freed since, and they fit the capacity. -/
structure Bounded (capacity : ℕ) (q : Queue ι κ) : Prop where
  length_le : q.held.length ≤ capacity
  nodup : q.held.Nodup
  issued_nodup : (q.granted.map Prod.snd).Nodup
  mem_held : ∀ k, k ∈ q.held ↔ k ∈ q.granted.map Prod.snd ∧ k ∉ q.freed

omit [DecidableEq ι] [DecidableEq κ] in
theorem ordered_empty : Ordered ({} : Queue ι κ) := ⟨.nil, List.nil_sublist _⟩

omit [DecidableEq ι] [DecidableEq κ] in
theorem bounded_empty (capacity : ℕ) : Bounded capacity ({} : Queue ι κ) :=
  ⟨Nat.zero_le _, .nil, .nil, by simp⟩

theorem step_ordered {capacity : ℕ} {q r : Queue ι κ} {op : Op ι κ} (ordered : Ordered q)
    (taken : step capacity q op = some r) : Ordered r := by
  cases op with
  | join i =>
    simp only [step] at taken
    split_ifs at taken with fresh
    cases taken
    refine ⟨?_, ?_⟩
    · exact ordered.nodup.append (List.nodup_singleton i) (by simpa using fresh)
    · rw [← List.append_assoc]
      exact ordered.sublist.append (List.Sublist.refl [i])
  | withdraw rest =>
    simp only [step] at taken
    split_ifs at taken with kept
    cases taken
    exact ⟨ordered.nodup, (kept.append_left _).trans ordered.sublist⟩
  | grant i k =>
    simp only [step] at taken
    split_ifs at taken with enabled
    cases taken
    refine ⟨ordered.nodup, ?_⟩
    -- the head only moves from the waiting part to the granted part
    obtain ⟨rest, waiting⟩ := List.head?_eq_some_iff.mp enabled.1
    have sub := ordered.sublist
    rw [waiting] at sub
    simpa only [waiting, List.map_append, List.map_cons, List.map_nil, List.tail_cons,
      List.append_assoc, List.singleton_append] using sub
  | free k =>
    cases taken
    exact ⟨ordered.nodup, ordered.sublist⟩

theorem step_bounded {capacity : ℕ} {q r : Queue ι κ} {op : Op ι κ} (bounded : Bounded capacity q)
    (taken : step capacity q op = some r) : Bounded capacity r := by
  cases op with
  | join i =>
    simp only [step] at taken
    split_ifs at taken
    cases taken
    exact ⟨bounded.length_le, bounded.nodup, bounded.issued_nodup, bounded.mem_held⟩
  | withdraw rest =>
    simp only [step] at taken
    split_ifs at taken
    cases taken
    exact ⟨bounded.length_le, bounded.nodup, bounded.issued_nodup, bounded.mem_held⟩
  | grant i k =>
    simp only [step] at taken
    split_ifs at taken with enabled
    cases taken
    obtain ⟨-, room, unissued, unfreed⟩ := enabled
    have unheld : k ∉ q.held := fun held => unissued ((bounded.mem_held k).mp held).1
    refine ⟨room, List.nodup_cons.mpr ⟨unheld, bounded.nodup⟩, ?_, ?_⟩
    · simp only [List.map_append, List.map_cons, List.map_nil]
      exact bounded.issued_nodup.append (List.nodup_singleton k) (by simpa using unissued)
    · intro other
      have old := bounded.mem_held other
      simp only [List.map_append, List.map_cons, List.map_nil, List.mem_append, List.mem_cons,
        List.not_mem_nil, or_false]
      constructor
      · rintro (rfl | held)
        · exact ⟨.inr rfl, unfreed⟩
        · exact ⟨.inl (old.mp held).1, (old.mp held).2⟩
      · rintro ⟨issued | rfl, kept⟩
        · exact .inr (old.mpr ⟨issued, kept⟩)
        · exact .inl rfl
  | free k =>
    cases taken
    refine ⟨Nat.le_trans List.length_erase_le bounded.length_le, bounded.nodup.erase k,
      bounded.issued_nodup, ?_⟩
    intro other
    have old := bounded.mem_held other
    simp only [bounded.nodup.mem_erase_iff, List.mem_append, List.mem_singleton, old]
    tauto

section Runs

variable {capacity : ℕ} {q : Queue ι κ} (reached : Machine.Reachable (step capacity) {} q)
include reached

theorem reachable_ordered : Ordered q :=
  Machine.invariant_reachable (fun _ _ _ => step_ordered) ordered_empty reached

theorem reachable_bounded : Bounded capacity q :=
  Machine.invariant_reachable (fun _ _ _ => step_bounded) (bounded_empty capacity) reached

end Runs

section Order

variable {α : Type*} {l sub : List α} {x y : α}

theorem pair_sublist_cons_iff {a : α} :
    [x, y].Sublist (a :: l) ↔ [x, y].Sublist l ∨ (x = a ∧ y ∈ l) := by
  rw [List.sublist_cons_iff]
  simp

/-- In a duplicate-free list two members stand in one order only. -/
theorem not_pair_sublist_swap (nodup : l.Nodup) (first : [x, y].Sublist l) :
    ¬ [y, x].Sublist l := by
  induction l with
  | nil => simp at first
  | cons a l ih =>
    obtain ⟨fresh, rest⟩ := List.nodup_cons.mp nodup
    intro second
    rcases pair_sublist_cons_iff.mp first with later | ⟨rfl, memY⟩
    · rcases pair_sublist_cons_iff.mp second with other | ⟨rfl, -⟩
      · exact ih rest later other
      · exact fresh (later.subset (by simp))
    · rcases pair_sublist_cons_iff.mp second with other | ⟨rfl, memX⟩
      · exact fresh (other.subset (by simp))
      · exact fresh memX

theorem pair_sublist_or (memX : x ∈ l) (memY : y ∈ l) (distinct : x ≠ y) :
    [x, y].Sublist l ∨ [y, x].Sublist l := by
  induction l with
  | nil => simp at memX
  | cons a l ih =>
    simp only [pair_sublist_cons_iff]
    rcases List.mem_cons.mp memX with rfl | laterX
    · exact .inl (.inr ⟨rfl, (List.mem_cons.mp memY).resolve_left distinct.symm⟩)
    · rcases List.mem_cons.mp memY with rfl | laterY
      · exact .inr (.inr ⟨rfl, laterX⟩)
      · exact (ih laterX laterY).imp .inl .inl

/-- A sublist of a duplicate-free list lists its members in the order of the whole. -/
theorem pair_sublist_of_sublist (nodup : l.Nodup) (included : sub.Sublist l)
    (first : [x, y].Sublist l) (memX : x ∈ sub) (memY : y ∈ sub) : [x, y].Sublist sub := by
  have distinct : x ≠ y := by
    rintro rfl
    exact absurd (nodup.sublist first) (by simp)
  refine (pair_sublist_or memX memY distinct).resolve_right fun swapped => ?_
  exact not_pair_sublist_swap nodup first (swapped.trans included)

end Order

omit [DecidableEq ι] [DecidableEq κ] in
/-- Two granted requests were granted in the order in which they joined. -/
theorem Ordered.granted_in_order {q : Queue ι κ} (ordered : Ordered q) {x y : ι}
    (first : [x, y].Sublist q.joined) (grantedX : x ∈ q.granted.map Prod.fst)
    (grantedY : y ∈ q.granted.map Prod.fst) : [x, y].Sublist (q.granted.map Prod.fst) :=
  pair_sublist_of_sublist ordered.nodup
    ((List.sublist_append_left _ q.waiting).trans ordered.sublist) first grantedX grantedY

omit [DecidableEq ι] [DecidableEq κ] in
/-- Nobody who joined before a granted request is still in the queue. -/
theorem Ordered.earlier_not_waiting {q : Queue ι κ} (ordered : Ordered q) {x y : ι}
    (first : [x, y].Sublist q.joined) (grantedY : y ∈ q.granted.map Prod.fst) :
    x ∉ q.waiting := by
  intro waiting
  have swapped : [y, x].Sublist (q.granted.map Prod.fst ++ q.waiting) :=
    (List.singleton_sublist.mpr grantedY).append (List.singleton_sublist.mpr waiting)
  exact not_pair_sublist_swap ordered.nodup first (swapped.trans ordered.sublist)

end Admission
