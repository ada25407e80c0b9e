import HeyeeAgent.Python.Float
import Mathlib.Data.List.Sort
import Mathlib.Data.List.Nodup
import Mathlib.Data.Finset.Card

/-! # Sorting and dictionaries of Python

`sorted` is stable, so among the items that come first in it the first of the list does. With `nan`
among the keys the order is that of the implementation. A dictionary keeps its keys in the order in
which they were set; filled by `setdefault` it keeps the first item of every key.
-/

namespace Python

variable {α κ : Type*}

section Sorted

/-- `sorted(items, key=key)` -/
def sortedBy (key : α → ℕ) (items : List α) : List α :=
  items.insertionSort fun a b => key a ≤ key b

variable {key : α → ℕ} {items items' : List α}

theorem perm_sortedBy (key : α → ℕ) (items : List α) : (sortedBy key items).Perm items :=
  List.perm_insertionSort _ items

theorem pairwise_sortedBy (key : α → ℕ) (items : List α) :
    (sortedBy key items).Pairwise fun a b => key a ≤ key b := by
  have : IsTrans α fun a b => key a ≤ key b := ⟨fun _ _ _ => Nat.le_trans⟩
  have : Std.Total fun a b : α => key a ≤ key b := ⟨fun a b => Nat.le_total (key a) (key b)⟩
  exact List.pairwise_insertionSort _ items

/-- With distinct keys the order of the items does not matter. -/
theorem sortedBy_of_perm (perm : items.Perm items') (distinct : (items.map key).Nodup) :
    sortedBy key items = sortedBy key items' := by
  have sorted := perm_sortedBy key items
  refine List.Perm.eq_of_pairwise ?_ (pairwise_sortedBy key items) (pairwise_sortedBy key items')
    (sorted.trans (perm.trans (perm_sortedBy key items').symm))
  intro a b first second le ge
  have second' := perm.symm.subset ((perm_sortedBy key items').subset second)
  exact List.inj_on_of_nodup_map distinct (sorted.subset first) second' (Nat.le_antisymm le ge)

/-- Where an item is inserted, it comes before the items with a key that is no less. -/
theorem find_orderedInsert {p : α → Bool} {x : α}
    (sorted : items.Pairwise fun a b => key a ≤ key b) :
    (items.orderedInsert (fun a b => key a ≤ key b) x).find? p =
      if p x then
        match items.find? p with
        | some a => if key x ≤ key a then some x else some a
        | none => some x
      else items.find? p := by
  induction items with
  | nil => cases shown : p x <;> simp [shown]
  | cons b items ih =>
    obtain ⟨least, sorted⟩ := List.pairwise_cons.mp sorted
    rw [List.orderedInsert_cons]
    by_cases before : key x ≤ key b
    · rw [if_pos before]
      cases shown : p x with
      | false => rw [List.find?_cons_of_neg (by simp [shown]), if_neg Bool.false_ne_true]
      | true =>
        rw [List.find?_cons_of_pos shown, if_pos rfl]
        cases found : (b :: items).find? p with
        | none => rfl
        | some a =>
          have bound : key b ≤ key a := by
            rcases List.mem_cons.mp (List.mem_of_find?_eq_some found) with rfl | member
            · exact Nat.le_refl _
            · exact least a member
          exact (if_pos (Nat.le_trans before bound)).symm
    · rw [if_neg before]
      cases first : p b with
      | false =>
        rw [List.find?_cons_of_neg (by simp [first]), List.find?_cons_of_neg (by simp [first])]
        exact ih sorted
      | true =>
        rw [List.find?_cons_of_pos first, List.find?_cons_of_pos first]
        dsimp only
        rw [if_neg before, ite_self]

/-- The first item with a property in the sorted list is the first of those with the least key. -/
theorem find_sortedBy {p : α → Bool} {a : α} (found : (sortedBy key items).find? p = some a) :
    ∃ before after, items = before ++ a :: after ∧
      (∀ b ∈ before, p b = true → key a < key b) ∧ ∀ b ∈ after, p b = true → key a ≤ key b := by
  induction items generalizing a with
  | nil => cases found
  | cons x items ih =>
    have inserted := find_orderedInsert (p := p) (x := x) (pairwise_sortedBy key items)
    rw [sortedBy, List.insertionSort_cons, ← sortedBy, inserted] at found
    cases shown : p x with
    | false =>
      rw [shown, if_neg Bool.false_ne_true] at found
      obtain ⟨before, after, rfl, less, le⟩ := ih found
      refine ⟨x :: before, after, rfl, fun b member holds => ?_, le⟩
      rcases List.mem_cons.mp member with rfl | member
      · rw [shown] at holds
        cases holds
      · exact less b member holds
    | true =>
      rw [shown, if_pos rfl] at found
      cases later : (sortedBy key items).find? p with
      | none =>
        rw [later] at found
        cases found
        refine ⟨[], items, rfl, fun b member => absurd member List.not_mem_nil, ?_⟩
        intro b member holds
        have fails := List.find?_eq_none.mp later b ((perm_sortedBy key items).symm.subset member)
        exact absurd holds fails
      | some c =>
        obtain ⟨before, after, split, less, le⟩ := ih later
        rw [later] at found
        dsimp only at found
        split_ifs at found with first
        · cases found
          refine ⟨[], items, rfl, fun b member => absurd member List.not_mem_nil, ?_⟩
          intro b member holds
          have bound : key c ≤ key b := by
            rw [split] at member
            rcases List.mem_append.mp member with member | member
            · exact (less b member holds).le
            · rcases List.mem_cons.mp member with rfl | member
              · exact Nat.le_refl _
              · exact le b member holds
          exact Nat.le_trans first bound
        · cases found
          refine ⟨x :: before, after, by rw [split, List.cons_append], fun b member holds => ?_, le⟩
          rcases List.mem_cons.mp member with rfl | member
          · exact Nat.lt_of_not_le first
          · exact less b member holds

/-- `sorted(items, key=key, reverse=True)` for floats -/
structure FloatSort where
  run : {α : Type} → (α → PyFloat) → List α → List α
  perm : ∀ {α : Type} (key : α → PyFloat) (items : List α), (run key items).Perm items
  /-- Equal keys stay in their order. -/
  descending : ∀ {α : Type} (key : α → PyFloat) (items : List α), (∀ a ∈ items, key a ≠ .nan) →
    run key items = items.insertionSort fun a b => PyFloat.le (key b) (key a) = true

/-- One that inserts the items. -/
def FloatSort.insertion : FloatSort where
  run key items := items.insertionSort fun a b => PyFloat.le (key b) (key a) = true
  perm _ items := List.perm_insertionSort _ items
  descending _ _ _ := rfl

/-- What is sorted descends. -/
theorem FloatSort.pairwise_run {α : Type} (sorting : FloatSort) {key : α → PyFloat} {items : List α}
    (numbers : ∀ a ∈ items, key a ≠ .nan) :
    (sorting.run key items).Pairwise fun a b => PyFloat.le (key b) (key a) = true := by
  have mapped : ((sorting.run key items).map fun a => (key a).rank).Pairwise (· ≥ ·) := by
    rw [sorting.descending key items numbers, List.map_insertionSort _ (· ≥ ·)]
    · exact List.pairwise_insertionSort _ _
    · intro a first b second
      exact PyFloat.le_iff_rank (numbers b second) (numbers a first)
  have member := fun a => (sorting.perm key items).mem_iff (a := a)
  refine List.Pairwise.imp_of_mem (fun {a b} first second less => ?_) (List.pairwise_map.mp mapped)
  exact (PyFloat.le_iff_rank (numbers b ((member b).mp second)) (numbers a ((member a).mp first))).mpr
    less

end Sorted

section Membership

/-- `a in items` -/
def isIn [DecidableEq α] (a : α) (items : List α) : Bool := a ∈ items

@[simp] theorem isIn_iff [DecidableEq α] {a : α} {items : List α} :
    isIn a items = true ↔ a ∈ items := decide_eq_true_iff

theorem not_isIn_iff [DecidableEq α] {a : α} {items : List α} :
    (!isIn a items) = true ↔ a ∉ items := by rw [Bool.not_eq_true', ← Bool.not_eq_true, isIn_iff]

end Membership

section Dictionary

/-- A dictionary, in the order in which its keys were set. -/
abbrev Dict (κ α : Type*) := List (κ × α)

namespace Dict

variable [DecidableEq κ] {dict : Dict κ α} {key : α → κ} {items : List α} {k : κ} {a : α}

def keys (dict : Dict κ α) : List κ := dict.map Prod.fst

def get (dict : Dict κ α) (k : κ) : Option α := (dict.find? fun entry => entry.1 = k).map Prod.snd

def setdefault (dict : Dict κ α) (k : κ) (a : α) : Dict κ α :=
  if k ∈ dict.keys then dict else dict ++ [(k, a)]

/-- Every item under its key, if the key is not taken. -/
def collect (key : α → κ) (dict : Dict κ α) (items : List α) : Dict κ α :=
  items.foldl (fun dict a => dict.setdefault (key a) a) dict

/-- `k in dict` -/
def has (dict : Dict κ α) (k : κ) : Bool := k ∈ dict.keys

@[simp] theorem has_iff : dict.has k = true ↔ k ∈ dict.keys := decide_eq_true_iff

theorem nodup_setdefault (distinct : dict.keys.Nodup) (k : κ) (a : α) :
    (dict.setdefault k a).keys.Nodup := by
  unfold setdefault
  split_ifs with taken
  · exact distinct
  · rw [keys, List.map_append]
    exact List.Nodup.append distinct (List.nodup_singleton k) (List.disjoint_singleton.mpr taken)

theorem nodup_collect (distinct : dict.keys.Nodup) (items : List α) :
    (collect key dict items).keys.Nodup := by
  induction items generalizing dict with
  | nil => exact distinct
  | cons a items ih => exact ih (nodup_setdefault distinct (key a) a)

theorem mem_keys_setdefault {k' : κ} :
    k' ∈ (dict.setdefault k a).keys ↔ k' ∈ dict.keys ∨ k' = k := by
  unfold setdefault
  split_ifs with taken
  · exact ⟨.inl, fun listed => listed.elim id fun same => same ▸ taken⟩
  · rw [keys, List.map_append, List.mem_append]
    exact or_congr Iff.rfl List.mem_singleton

theorem mem_setdefault {entry : κ × α} : entry ∈ dict.setdefault k a ↔
    entry ∈ dict ∨ k ∉ dict.keys ∧ entry = (k, a) := by
  unfold setdefault
  split_ifs with taken
  · exact ⟨.inl, fun listed => listed.elim id fun new => absurd taken new.1⟩
  · rw [List.mem_append, List.mem_singleton]
    exact or_congr Iff.rfl ⟨fun same => ⟨taken, same⟩, And.right⟩

/-- The entries are those that were there, and the first item of every other key. -/
theorem mem_collect : (k, a) ∈ collect key dict items ↔
    (k, a) ∈ dict ∨ k ∉ dict.keys ∧ items.find? (fun b => key b = k) = some a := by
  induction items generalizing dict with
  | nil => simp [collect]
  | cons b items ih =>
    rw [collect, List.foldl_cons, ← collect, ih, mem_setdefault, mem_keys_setdefault]
    by_cases same : key b = k
    · rw [List.find?_cons_of_pos (by simpa using same), Option.some.injEq]
      subst same
      constructor
      · rintro ((before | ⟨new, first⟩) | ⟨new, -⟩)
        · exact .inl before
        · exact .inr ⟨new, (Prod.mk.inj first).2.symm⟩
        · exact absurd (.inr rfl) new
      · rintro (before | ⟨new, rfl⟩)
        · exact .inl (.inl before)
        · exact .inl (.inr ⟨new, rfl⟩)
    · rw [List.find?_cons_of_neg (by simpa using same)]
      constructor
      · rintro ((before | ⟨-, first⟩) | ⟨new, found⟩)
        · exact .inl before
        · exact absurd (Prod.mk.inj first).1.symm same
        · exact .inr ⟨fun listed => new (.inl listed), found⟩
      · rintro (before | ⟨new, found⟩)
        · exact .inl (.inl before)
        · exact .inr ⟨fun listed => listed.elim new fun eq => same eq.symm, found⟩

/-- An item stands under its own key. -/
theorem key_of_mem_collect {entry : κ × α} (member : entry ∈ collect key [] items) :
    entry.1 = key entry.2 ∧ entry.2 ∈ items := by
  rcases mem_collect.mp member with before | ⟨-, found⟩
  · cases before
  · have holds := List.find?_some found
    rw [decide_eq_true_eq] at holds
    exact ⟨holds.symm, List.mem_of_find?_eq_some found⟩

theorem toFinset_keys_collect (items : List α) :
    (collect key [] items).keys.toFinset = (items.map key).toFinset := by
  ext k
  rw [List.mem_toFinset, List.mem_toFinset, keys]
  constructor
  · intro listed
    obtain ⟨entry, member, rfl⟩ := List.mem_map.mp listed
    obtain ⟨own, member⟩ := key_of_mem_collect member
    exact own ▸ List.mem_map_of_mem member
  · intro listed
    obtain ⟨b, member, same⟩ := List.mem_map.mp listed
    have there : (items.find? fun b => key b = k).isSome :=
      List.find?_isSome.mpr ⟨b, member, decide_eq_true same⟩
    obtain ⟨a, found⟩ := Option.isSome_iff_exists.mp there
    exact List.mem_map.mpr ⟨(k, a), mem_collect.mpr (.inr ⟨List.not_mem_nil, found⟩), rfl⟩

/-- As many entries as there are different keys. -/
theorem length_collect (items : List α) :
    (collect key [] items).length = (items.map key).toFinset.card := by
  have empty : (keys ([] : Dict κ α)).Nodup := List.nodup_nil
  have distinct : (collect key [] items).keys.Nodup := nodup_collect empty items
  rw [← toFinset_keys_collect, List.toFinset_card_of_nodup distinct, keys, List.length_map]

/-- Items with different keys are all kept. -/
theorem collect_of_nodup (distinct : (items.map key).Nodup) :
    collect key [] items = items.map fun a => (key a, a) := by
  have general (dict : Dict κ α) (apart : ∀ b ∈ items, key b ∉ dict.keys) :
      collect key dict items = dict ++ items.map fun a => (key a, a) := by
    induction items generalizing dict with
    | nil => exact (List.append_nil dict).symm
    | cons b items ih =>
      obtain ⟨fresh, distinct⟩ := List.nodup_cons.mp distinct
      have set : dict.setdefault (key b) b = dict ++ [(key b, b)] :=
        if_neg (apart b List.mem_cons_self)
      rw [collect, List.foldl_cons, ← collect, set, ih distinct, List.append_assoc]
      · rfl
      · intro c member listed
        rw [keys, List.map_append, List.mem_append] at listed
        rcases listed with before | last
        · exact apart c (List.mem_cons_of_mem b member) before
        · rw [List.map_singleton, List.mem_singleton] at last
          exact fresh (List.mem_map.mpr ⟨c, member, last⟩)
  exact general [] fun b _ => List.not_mem_nil

theorem mem_of_get (found : dict.get k = some a) : (k, a) ∈ dict := by
  obtain ⟨entry, first, rfl⟩ := Option.map_eq_some_iff.mp found
  have same := List.find?_some first
  rw [decide_eq_true_eq] at same
  subst same
  exact List.mem_of_find?_eq_some first

end Dict

end Dictionary

end Python
