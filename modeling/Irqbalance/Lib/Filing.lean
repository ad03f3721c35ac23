import Mathlib.Algebra.BigOperators.Group.List.Basic
import Mathlib.Algebra.Group.Basic
import Mathlib.Data.List.Nodup
import Mathlib.Logic.Function.Basic

/-! # Items filed in lists

A family of lists is a filing of some items when each item with a place occurs exactly once in
the list of its place and nowhere else, an item without a place occurs nowhere, and the lists
hold nothing but items. Moving, filing, adding and removing an item keep a filing.
-/

namespace Filing

variable {α P : Type*} [DecidableEq α] [DecidableEq P]

/-- The lists file the items under their places. -/
structure Filed (lists : P → List α) (items : List α) (place : α → Option P) : Prop where
  count : ∀ a ∈ items, ∀ p, (lists p).count a = if place a = some p then 1 else 0
  items : ∀ p, ∀ a ∈ lists p, a ∈ items

/-- Take an item out of one list and append it to another, possibly the same. -/
def move (lists : P → List α) (p q : P) (a : α) : P → List α :=
  let taken := Function.update lists p ((lists p).erase a)
  Function.update taken q (taken q ++ [a])

/-- Append an item to one list. -/
def file (lists : P → List α) (q : P) (a : α) : P → List α :=
  Function.update lists q (lists q ++ [a])

variable {lists lists' : P → List α} {items items' : List α} {place place' : α → Option P}
  {a b : α} {p q : P}

theorem move_eq_file : move lists p q a =
    file (Function.update lists p ((lists p).erase a)) q a := rfl

theorem count_file (b : α) (r : P) : (file lists q a r).count b =
    (lists r).count b + if b = a ∧ r = q then 1 else 0 := by
  by_cases same : r = q
  · subst same
    by_cases item : b = a
    · subst item; simp [file]
    · simp [file, item, Ne.symm item]
  · simp [file, same]

theorem count_erase (b : α) (r : P) :
    (Function.update lists p ((lists p).erase a) r).count b =
      (lists r).count b - if b = a ∧ r = p then 1 else 0 := by
  by_cases same : r = p
  · subst same
    by_cases item : b = a
    · subst item; simp
    · simp [item, List.count_erase_of_ne item]
  · simp [same]

omit [DecidableEq α] in
theorem mem_file {r : P} : b ∈ file lists q a r ↔ b ∈ lists r ∨ (b = a ∧ r = q) := by
  by_cases same : r = q
  · subst same; simp [file]
  · simp [file, same]

theorem mem_move {r : P} (member : b ∈ move lists p q a r) : b ∈ lists r ∨ (b = a ∧ r = q) := by
  rw [move_eq_file, mem_file] at member
  apply member.imp_left
  intro old
  by_cases same : r = p
  · subst same
    rw [Function.update_self] at old
    exact List.mem_of_mem_erase old
  · rwa [Function.update_of_ne same] at old

/-- Moving one item leaves the occurrences of the others alone. -/
theorem mem_move_of_ne {r : P} (other : b ≠ a) : b ∈ move lists p q a r ↔ b ∈ lists r := by
  rw [← List.count_pos_iff, ← List.count_pos_iff, move_eq_file, count_file, count_erase]
  simp [other]

/-- Moving one item takes its weight from one list to another. -/
theorem sum_move {M : Type*} [AddCommGroup M] (weight : α → M) (member : a ∈ lists p) (r : P) :
    ((move lists p q a r).map weight).sum = ((lists r).map weight).sum - (if r = p then weight a else 0) +
      if r = q then weight a else 0 := by
  have taken : ((Function.update lists p ((lists p).erase a) r).map weight).sum =
      ((lists r).map weight).sum - if r = p then weight a else 0 := by
    by_cases source : r = p
    · subst source
      rw [Function.update_self, if_pos rfl, ← List.sum_map_erase weight member, add_sub_cancel_left]
    · rw [Function.update_of_ne source, if_neg source, sub_zero]
  rw [move_eq_file, file]
  by_cases target : r = q
  · subst target
    rw [Function.update_self, if_pos rfl, List.map_append, List.sum_append, taken, List.map_singleton,
      List.sum_singleton]
  · rw [Function.update_of_ne target, if_neg target, add_zero, taken]

namespace Filed

theorem mem_iff (filed : Filed lists items place) (member : a ∈ items) (p : P) :
    a ∈ lists p ↔ place a = some p := by
  rw [← List.count_pos_iff, filed.count a member p]
  split <;> simp [*]

theorem place_of_mem (filed : Filed lists items place) (member : a ∈ lists p) :
    place a = some p := (filed.mem_iff (filed.items p a member) p).mp member

/-- No list of a filing repeats an item. -/
theorem nodup (filed : Filed lists items place) (p : P) : (lists p).Nodup := by
  rw [List.nodup_iff_count_le_one]
  intro a
  by_cases member : a ∈ lists p
  · rw [filed.count a (filed.items p a member) p]
    split <;> omega
  · rw [List.count_eq_zero.mpr member]
    omega

/-- Only the multiset of each list and the places of the items matter. -/
theorem congr (filed : Filed lists items place) (perm : ∀ p, (lists' p).Perm (lists p))
    (same : ∀ a ∈ items, place' a = place a) : Filed lists' items place' where
  count a member p := by rw [(perm p).count_eq, filed.count a member p, same a member]
  items p a member := filed.items p a ((perm p).mem_iff.mp member)

theorem move (filed : Filed lists items place) (member : a ∈ items) (filedAt : place a = some p) :
    Filed (Filing.move lists p q a) items (Function.update place a (some q)) where
  count b bMember r := by
    rw [move_eq_file, count_file, count_erase, filed.count b bMember r]
    by_cases item : b = a
    · subst item
      simp only [filedAt, Function.update_self, true_and, Option.some.injEq, eq_comm (a := r)]
      split <;> simp
    · simp [item]
  items r b bMember := by
    rcases mem_move bMember with old | ⟨rfl, _⟩
    · exact filed.items r b old
    · exact member

theorem file (filed : Filed lists items place) (member : a ∈ items) (unfiled : place a = none) :
    Filed (Filing.file lists q a) items (Function.update place a (some q)) where
  count b bMember r := by
    rw [count_file, filed.count b bMember r]
    by_cases item : b = a
    · subst item
      simp [unfiled, eq_comm (a := r)]
    · simp [item]
  items r b bMember := by
    rcases mem_file.mp bMember with old | ⟨rfl, _⟩
    · exact filed.items r b old
    · exact member

/-- A new item without a place joins. -/
theorem insert (filed : Filed lists items place) (fresh : a ∉ items) (unfiled : place' a = none)
    (same : ∀ b ∈ items, place' b = place b) : Filed lists (items ++ [a]) place' where
  count b bMember r := by
    rcases List.mem_append.mp bMember with old | new
    · rw [same b old]
      exact filed.count b old r
    · obtain rfl := List.mem_singleton.mp new
      rw [unfiled, List.count_eq_zero.mpr fun member => fresh (filed.items r b member)]
      rfl
  items r b bMember := List.mem_append_left _ (filed.items r b bMember)

/-- An item leaves every list and the items. -/
theorem remove (filed : Filed lists items place)
    (gone : ∀ b, b ∈ items' ↔ b ∈ items ∧ b ≠ a) :
    Filed (fun p => (lists p).erase a) items' place where
  count b bMember r := by
    obtain ⟨old, other⟩ := (gone b).mp bMember
    rw [List.count_erase_of_ne other, filed.count b old r]
  items r b bMember := by
    have other : b ≠ a := by
      rintro rfl
      exact (filed.nodup r).not_mem_erase bMember
    exact (gone b).mpr ⟨filed.items r b (List.mem_of_mem_erase bMember), other⟩

/-- Nothing is filed in empty lists. -/
theorem empty : Filed (fun _ : P => ([] : List α)) [] place where
  count _ member := absurd member List.not_mem_nil
  items _ _ member := absurd member List.not_mem_nil

end Filed

end Filing
