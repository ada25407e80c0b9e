import Mathlib.Data.List.Chain
import Mathlib.Order.Lattice

/-! # Stretches of intervals

A row of intervals that follow each other, with or without gaps, cut into stretches of neighbours. A
stretch reaches from the start of its first interval to the end of its last one, so the stretches
follow each other too, and an interval lies in the reach of its own stretch only.
-/

namespace Intervals

/-- A row of neighbours with at least one in it -/
structure Stretch (ι : Type*) where
  first : ι
  rest : List ι

variable {ι α : Type*}

namespace Stretch

variable (stretch other : Stretch ι)

def items : List ι := stretch.first :: stretch.rest

def last : ι := stretch.rest.getLastD stretch.first

/-- Without the last one, if there is another one -/
def dropLast : Stretch ι := ⟨stretch.first, stretch.rest.dropLast⟩

/-- One stretch of two neighbours -/
def append : Stretch ι := ⟨stretch.first, stretch.rest ++ other.items⟩

def reach (start stop : ι → α) : α × α := (start stretch.first, stop stretch.last)

theorem last_mem : stretch.last ∈ stretch.items := List.getLastD_mem_cons

@[simp] theorem items_append : (stretch.append other).items = stretch.items ++ other.items := rfl

@[simp] theorem last_append : (stretch.append other).last = other.last := by
  rw [last, append, items, List.getLastD_eq_getLast?, List.getLast?_append, List.getLast?_cons,
    Option.some_or, Option.getD_some, last, List.getLastD_eq_getLast?]

theorem last_cons (first : ι) (rest : List ι) (item : ι) :
    (Stretch.mk item (first :: rest)).last = (Stretch.mk first rest).last := List.getLastD_cons

end Stretch

section Rows

variable [Preorder α] {start stop : ι → α} {items : List ι} {stretches : List (Stretch ι)}
  {stretch : Stretch ι} {item : ι}

/-- Intervals with something in them, each behind the ones before it -/
structure Ordered (start stop : ι → α) (items : List ι) : Prop where
  proper : ∀ item ∈ items, start item < stop item
  follows : items.Pairwise fun before after => stop before ≤ start after

theorem ordered_nil : Ordered start stop [] := ⟨List.forall_mem_nil _, .nil⟩

theorem Ordered.sublist {some : List ι} (ordered : Ordered start stop items)
    (part : some.Sublist items) : Ordered start stop some where
  proper := fun item member => ordered.proper item (part.subset member)
  follows := ordered.follows.sublist part

theorem Ordered.of_cons (ordered : Ordered start stop (item :: items)) :
    start item < stop item ∧ (∀ later ∈ items, stop item ≤ start later) ∧
      Ordered start stop items :=
  ⟨ordered.proper item List.mem_cons_self, (List.pairwise_cons.mp ordered.follows).1,
    ordered.sublist (List.sublist_cons_self item items)⟩

/-- The first interval of a stretch starts first, and the last one ends last. -/
theorem Ordered.within_reach (ordered : Ordered start stop stretch.items)
    (member : item ∈ stretch.items) :
    start stretch.first ≤ start item ∧ stop item ≤ stop stretch.last := by
  obtain ⟨first, rest⟩ := stretch
  induction rest generalizing first item with
  | nil =>
    cases List.mem_singleton.mp member
    exact ⟨le_rfl, le_rfl⟩
  | cons second rest ih =>
    obtain ⟨longer, behind, ordered⟩ := ordered.of_cons
    have within {inner : ι} (inside : inner ∈ (Stretch.mk second rest).items) :=
      ih second ordered inside
    rw [Stretch.last_cons]
    rcases List.mem_cons.mp member with rfl | later
    · have next := behind second List.mem_cons_self
      have reached := (within (Stretch.last_mem ⟨second, rest⟩)).1
      have last := ordered.proper _ (Stretch.last_mem ⟨second, rest⟩)
      exact ⟨le_rfl, next.trans (reached.trans last.le)⟩
    · have here := longer.le.trans (behind second List.mem_cons_self)
      exact ⟨here.trans (within later).1, (within later).2⟩

theorem Ordered.of_append {more : List ι} (ordered : Ordered start stop (items ++ more)) :
    Ordered start stop items ∧ Ordered start stop more ∧
      ∀ before ∈ items, ∀ after ∈ more, stop before ≤ start after :=
  ⟨ordered.sublist (List.sublist_append_left items more),
    ordered.sublist (List.sublist_append_right items more),
    (List.pairwise_append.mp ordered.follows).2.2⟩

/-- The interval lies between the ends of the reach. -/
def Within (start stop : ι → α) (item : ι) (reach : α × α) : Prop :=
  reach.1 ≤ start item ∧ stop item ≤ reach.2

/-- An interval lies in the reach of one stretch. -/
theorem Ordered.exists_unique_reach (ordered : Ordered start stop (stretches.flatMap Stretch.items))
    (member : item ∈ stretches.flatMap Stretch.items) :
    ∃! reach, reach ∈ stretches.map (fun stretch => stretch.reach start stop) ∧
      Within start stop item reach := by
  induction stretches with
  | nil => cases member
  | cons stretch stretches ih =>
    rw [List.flatMap_cons] at ordered member
    obtain ⟨here, behind, apart⟩ := ordered.of_append
    have proper := ordered.proper item member
    rcases List.mem_append.mp member with inside | later
    · refine ⟨_, ⟨List.mem_cons_self, here.within_reach inside⟩, ?_⟩
      rintro reach ⟨listed, from_start, -⟩
      rcases List.mem_cons.mp listed with same | listed
      · exact same
      · obtain ⟨other, member, rfl⟩ := List.mem_map.mp listed
        have first : other.first ∈ stretches.flatMap Stretch.items :=
          List.mem_flatMap.mpr ⟨other, member, List.mem_cons_self⟩
        exact absurd (proper.trans_le ((apart item inside _ first).trans from_start)) (lt_irrefl _)
    · obtain ⟨reach, ⟨listed, within⟩, only⟩ := ih behind later
      refine ⟨reach, ⟨List.mem_cons_of_mem _ listed, within⟩, ?_⟩
      rintro other ⟨among, covers⟩
      rcases List.mem_cons.mp among with rfl | among
      · have ends := apart _ stretch.last_mem item later
        exact absurd (proper.trans_le (covers.2.trans ends)) (lt_irrefl _)
      · exact only other ⟨among, covers⟩

/-- Intervals that end where the next one starts follow each other. -/
theorem ordered_of_joined (proper : ∀ item ∈ items, start item < stop item)
    (joined : items.IsChain fun item next => stop item = start next) : Ordered start stop items := by
  induction items with
  | nil => exact ordered_nil
  | cons item items ih =>
    obtain ⟨here, later⟩ := List.forall_mem_cons.mp proper
    obtain ⟨meets, chain⟩ := List.isChain_cons.mp joined
    have behind := ih later chain
    refine ⟨proper, List.pairwise_cons.mpr ⟨fun after member => ?_, behind.follows⟩⟩
    cases items with
    | nil => cases member
    | cons next items =>
      have row : Ordered start stop (Stretch.mk next items).items := behind
      rw [meets next rfl]
      exact (row.within_reach member).1

/-- The point lies in the interval. -/
def Contains (start stop : ι → α) (point : α) (item : ι) : Prop :=
  start item ≤ point ∧ point < stop item

/-- No two of them hold a point in common. -/
theorem Ordered.eq_of_contains {one other : ι} {point : α} (ordered : Ordered start stop items)
    (member : one ∈ items) (member' : other ∈ items) (contains : Contains start stop point one)
    (contains' : Contains start stop point other) : one = other := by
  have apart {before after : ι} (ends : stop before ≤ start after)
      (inside : Contains start stop point before) : ¬ Contains start stop point after :=
    fun within => lt_irrefl point (inside.2.trans_le (ends.trans within.1))
  induction items with
  | nil => cases member
  | cons item items ih =>
    obtain ⟨-, behind, ordered⟩ := ordered.of_cons
    rcases List.mem_cons.mp member with rfl | later
    · rcases List.mem_cons.mp member' with rfl | later'
      · rfl
      · exact absurd contains' (apart (behind other later') contains)
    · rcases List.mem_cons.mp member' with rfl | later'
      · exact absurd contains (apart (behind one later) contains')
      · exact ih ordered later later'

end Rows

section Points

variable [LinearOrder α] {start stop : ι → α} {stretch : Stretch ι} {point : α}

/-- Intervals that end where the next one starts leave no gap in their reach. -/
theorem exists_contains (joined : stretch.items.IsChain fun item next => stop item = start next)
    (from_start : start stretch.first ≤ point) (to_end : point < stop stretch.last) :
    ∃ item ∈ stretch.items, Contains start stop point item := by
  obtain ⟨first, rest⟩ := stretch
  induction rest generalizing first with
  | nil => exact ⟨first, List.mem_cons_self, from_start, to_end⟩
  | cons next rest ih =>
    obtain ⟨meets, joined⟩ := List.isChain_cons_cons.mp joined
    rcases lt_or_ge point (stop first) with inside | behind
    · exact ⟨first, List.mem_cons_self, from_start, inside⟩
    · rw [Stretch.last_cons] at to_end
      obtain ⟨item, member, contains⟩ := ih next joined (meets ▸ behind) to_end
      exact ⟨item, List.mem_cons_of_mem first member, contains⟩

end Points

end Intervals
