import Mathlib.Data.Finset.Card
import Mathlib.Data.Fintype.EquivFin
import Mathlib.Logic.Relation
import Mathlib.Order.WellFounded

/-! # Trees by their parent links

Nodes of which each has at most one parent. Where no node is above itself, every node has a path up
to a root, and only one; on a finite set of nodes the converse holds as well.
-/

namespace ParentLinks

open Relation

variable {α : Type*} {parent : α → Option α} {a b root : α} {path : List α}

/-- A node and its parent -/
def Link (parent : α → Option α) (a b : α) : Prop := parent a = some b

/-- The path from a node up to its root -/
inductive Ascent (parent : α → Option α) : α → List α → Prop
  | root {a : α} (top : parent a = none) : Ascent parent a [a]
  | step {a b : α} {path : List α} (link : parent a = some b) (above : Ascent parent b path) :
      Ascent parent a (a :: path)

theorem rightUnique_link : Relator.RightUnique (Link parent) :=
  fun _ _ _ first second => Option.some_inj.mp (first.symm.trans second)

theorem Ascent.unique {path' : List α} (ascent : Ascent parent a path)
    (ascent' : Ascent parent a path') : path = path' := by
  induction ascent generalizing path' with
  | root top =>
    cases ascent' with
    | root => rfl
    | step link => rw [top] at link; cases link
  | step link above ih =>
    cases ascent' with
    | root top => rw [top] at link; cases link
    | step link' above' =>
      obtain rfl := rightUnique_link link link'
      rw [ih above']

/-- Above a node the paths are shorter. -/
theorem Ascent.exists_lt (ascent : Ascent parent a path) (up : TransGen (Link parent) a b) :
    ∃ path', Ascent parent b path' ∧ path'.length < path.length := by
  induction up with
  | single link =>
    cases ascent with
    | root top => rw [Link, top] at link; cases link
    | step link' above =>
      obtain rfl := rightUnique_link link link'
      exact ⟨_, above, Nat.lt_succ_self _⟩
  | tail _ link ih =>
    obtain ⟨path', ascent', less⟩ := ih
    cases ascent' with
    | root top => rw [Link, top] at link; cases link
    | step link' above =>
      obtain rfl := rightUnique_link link link'
      exact ⟨_, above, (Nat.lt_succ_self _).trans less⟩

/-- A node with a path to a root is not above itself. -/
theorem Ascent.not_above (ascent : Ascent parent a path) : ¬ TransGen (Link parent) a a := by
  intro cycle
  obtain ⟨path', ascent', less⟩ := ascent.exists_lt cycle
  rw [ascent.unique ascent'] at less
  exact lt_irrefl _ less

theorem Ascent.mem (ascent : Ascent parent a path) (member : b ∈ path) :
    ReflTransGen (Link parent) a b := by
  induction ascent with
  | root => rw [List.mem_singleton.mp member]
  | step link _ ih =>
    rcases List.mem_cons.mp member with rfl | later
    · exact .refl
    · exact .head link (ih later)

theorem Ascent.nodup (ascent : Ascent parent a path) : path.Nodup := by
  induction ascent with
  | root => exact List.nodup_singleton _
  | step link above ih =>
    refine List.nodup_cons.mpr ⟨fun member => ?_, ih⟩
    exact (Ascent.step link above).not_above (.head' link (above.mem member))

/-- What is on a path has a path of its own, and is the first node or the parent of one. -/
theorem Ascent.of_mem (ascent : Ascent parent a path) (member : b ∈ path) :
    (∃ path', Ascent parent b path' ∧ path'.length ≤ path.length) ∧
      (b = a ∨ ∃ c, parent c = some b) := by
  induction ascent with
  | root top =>
    obtain rfl := List.mem_singleton.mp member
    exact ⟨⟨_, .root top, le_rfl⟩, .inl rfl⟩
  | step link above ih =>
    rcases List.mem_cons.mp member with rfl | later
    · exact ⟨⟨_, .step link above, le_rfl⟩, .inl rfl⟩
    · obtain ⟨⟨path', ascent', short⟩, origin⟩ := ih later
      refine ⟨⟨path', ascent', short.trans (Nat.le_succ _)⟩, .inr ?_⟩
      rcases origin with rfl | parent
      · exact ⟨_, link⟩
      · exact parent

/-- The path ends in a root. -/
theorem Ascent.exists_root (ascent : Ascent parent a path) :
    ∃ root, parent root = none ∧ ReflTransGen (Link parent) a root := by
  induction ascent with
  | root top => exact ⟨_, top, .refl⟩
  | step link _ ih =>
    obtain ⟨root, top, up⟩ := ih
    exact ⟨root, top, .head link up⟩

theorem exists_ascent_of_root (top : parent root = none) (up : ReflTransGen (Link parent) a root) :
    ∃ path, Ascent parent a path := by
  induction up using ReflTransGen.head_induction_on with
  | refl => exact ⟨_, .root top⟩
  | head link _ ih =>
    obtain ⟨path, ascent⟩ := ih
    exact ⟨_, .step link ascent⟩

/-- Nothing is above a root. -/
theorem eq_of_root (top : parent root = none) (up : ReflTransGen (Link parent) root a) :
    a = root := by
  rcases up.cases_head with same | ⟨b, link, -⟩
  · exact same.symm
  · rw [Link, top] at link
    cases link

theorem root_unique {root' : α} (top : parent root = none) (top' : parent root' = none)
    (up : ReflTransGen (Link parent) a root) (up' : ReflTransGen (Link parent) a root') :
    root = root' := by
  rcases ReflTransGen.total_of_right_unique rightUnique_link up up' with above | above
  · exact (eq_of_root top above).symm
  · exact eq_of_root top' above

section Finite

variable {s : Finset α}

theorem mem_of_above (closed : ∀ a ∈ s, ∀ b, parent a = some b → b ∈ s) (inside : a ∈ s)
    (up : ReflTransGen (Link parent) a b) : b ∈ s := by
  induction up with
  | refl => exact inside
  | tail _ link ih => exact closed _ ih _ link

/-- A path is no longer than there are nodes. -/
theorem Ascent.length_le (closed : ∀ a ∈ s, ∀ b, parent a = some b → b ∈ s) (inside : a ∈ s)
    (ascent : Ascent parent a path) : path.length ≤ s.card := by
  classical
  rw [← List.toFinset_card_of_nodup ascent.nodup]
  refine Finset.card_le_card fun b member => ?_
  exact mem_of_above closed inside (ascent.mem (List.mem_toFinset.mp member))

/-- Among finitely many nodes each one has a path to a root exactly if none is above itself. -/
theorem exists_ascent_iff (closed : ∀ a ∈ s, ∀ b, parent a = some b → b ∈ s) :
    (∀ a ∈ s, ∃ path, Ascent parent a path) ↔ ∀ a ∈ s, ¬ TransGen (Link parent) a a := by
  constructor
  · intro each a inside
    obtain ⟨path, ascent⟩ := each a inside
    exact ascent.not_above
  · intro acyclic a inside
    -- by well-founded induction upwards
    let above : s → s → Prop := fun x y => TransGen (Link parent) y.1 x.1
    have trans : IsTrans s above := ⟨fun _ _ _ first second => second.trans first⟩
    have irrefl : Std.Irrefl above := ⟨fun x => acyclic x.1 x.2⟩
    have wellFounded : WellFounded above := Finite.wellFounded_of_trans_of_irrefl above
    suffices climbs : ∀ x : s, ∃ path, Ascent parent x.1 path from climbs ⟨a, inside⟩
    intro x
    induction x using wellFounded.induction with
    | _ x ih =>
      cases found : parent x.1 with
      | none => exact ⟨_, .root found⟩
      | some b =>
        obtain ⟨path, ascent⟩ := ih ⟨b, closed x.1 x.2 b found⟩ (.single found)
        exact ⟨_, .step found ascent⟩

end Finite

end ParentLinks
