import Mathlib.Data.List.Sort

/-! # The first maximum of a list

Folding a list with a strict comparison keeps the first of its greatest elements. The fold can be
done group by group, and stably sorting the list in descending order yields the same choice under
every filter: the first element that passes.
-/

namespace FirstMax

variable {α : Type*} (key : α → ℤ)

/-- The greater of two candidates, and the earlier one of two equals. -/
def better (best : Option α) (c : α) : Option α :=
  match best with
  | none => some c
  | some b => if key c > key b then some c else some b

/-- Descending order of keys. -/
abbrev above (a b : α) : Prop := key b ≤ key a

/-- The first of the greatest elements. -/
def firstMax (l : List α) : Option α := l.foldl (better key) none

variable {key} {l : List α} {a b : α} {best : Option α}

theorem better_assoc (best : Option α) (b c : α) :
    better key (better key best b) c = (better key (some b) c).elim best (better key best) := by
  cases best with
  | none =>
    simp only [better]
    split <;> rfl
  | some a =>
    by_cases first : key b > key a <;> by_cases second : key c > key b <;>
      by_cases third : key c > key a <;> simp [better, first, second, third] <;> omega

/-- The fold from any start compares the start with the maximum of the list. -/
theorem foldl_better (best : Option α) (l : List α) :
    l.foldl (better key) best = (firstMax key l).elim best (better key best) := by
  induction l generalizing best with
  | nil => rfl
  | cons c rest ih =>
    have start : firstMax key (c :: rest) = rest.foldl (better key) (some c) := rfl
    rw [List.foldl_cons, ih, start, ih]
    cases firstMax key rest with
    | none => rfl
    | some m => exact better_assoc best c m

theorem firstMax_cons (a : α) (l : List α) : firstMax key (a :: l) =
    (firstMax key l).elim (some a) (better key (some a)) := foldl_better (some a) l

variable (key) in
/-- The maxima of groups give the maximum of all. -/
theorem foldl_groups (groups : List (List α)) (best : Option α) :
    groups.foldl (fun best group => (firstMax key group).elim best (better key best)) best =
      groups.flatten.foldl (better key) best := by
  induction groups generalizing best with
  | nil => rfl
  | cons group rest ih => rw [List.foldl_cons, ih, List.flatten_cons, List.foldl_append, foldl_better best group]

theorem mem_of_firstMax (found : firstMax key l = some a) : a ∈ l := by
  induction l generalizing a with
  | nil => contradiction
  | cons c rest ih =>
    rw [firstMax_cons] at found
    cases tail : firstMax key rest with
    | none =>
      rw [tail] at found
      exact Option.some.inj found ▸ List.mem_cons_self
    | some m =>
      rw [tail] at found
      simp only [Option.elim_some, better] at found
      split at found
      · exact Option.some.inj found ▸ List.mem_cons_of_mem _ (ih tail)
      · exact Option.some.inj found ▸ List.mem_cons_self

theorem firstMax_congr {key' : α → ℤ} (same : ∀ c ∈ l, key' c = key c) : firstMax key' l = firstMax key l := by
  induction l with
  | nil => rfl
  | cons a rest ih =>
    have tail := ih fun c member => same c (List.mem_cons_of_mem a member)
    rw [firstMax_cons, firstMax_cons, tail]
    cases found : firstMax key rest with
    | none => rfl
    | some m =>
      have member := mem_of_firstMax found
      simp only [Option.elim_some, better, same a List.mem_cons_self, same m (List.mem_cons_of_mem a member)]

theorem find?_orderedInsert {p : α → Bool} (sorted : l.Pairwise (above key)) (a : α) :
    (l.orderedInsert (above key) a).find? p =
      if p a then (l.find? p).elim (some a) (better key (some a)) else l.find? p := by
  induction l with
  | nil =>
    cases passes : p a <;> simp [List.orderedInsert, passes]
  | cons b rest ih =>
    obtain ⟨head, tail⟩ := List.pairwise_cons.mp sorted
    rw [List.orderedInsert]
    split
    · rename_i below
      cases passes : p a with
      | false => simp [passes]
      | true =>
        rw [List.find?_cons_of_pos passes, if_pos rfl]
        cases found : (b :: rest).find? p with
        | none => rfl
        | some c =>
          have bound : key c ≤ key b := by
            rcases List.mem_cons.mp (List.mem_of_find?_eq_some found) with rfl | later
            · exact le_rfl
            · exact head c later
          simp only [Option.elim_some, better]
          rw [if_neg (not_lt.mpr (bound.trans below))]
    · rename_i greater
      cases first : p b with
      | false => rw [List.find?_cons_of_neg (by simp [first]), List.find?_cons_of_neg (by simp [first]), ih tail]
      | true =>
        rw [List.find?_cons_of_pos first, List.find?_cons_of_pos first]
        simp only [Option.elim_some, better]
        rw [if_pos (not_le.mp greater), ite_self]

/-- Sorting in descending order puts the first maximum of every filtered list first. -/
theorem find?_insertionSort (p : α → Bool) (l : List α) :
    (l.insertionSort (above key)).find? p = firstMax key (l.filter p) := by
  induction l with
  | nil => rfl
  | cons a rest ih =>
    have sorted : (rest.insertionSort (above key)).Pairwise (above key) := by
      have : Std.Total (above key) := ⟨fun a b => le_total (key b) (key a)⟩
      have : IsTrans α (above key) := ⟨fun a b c ab bc => le_trans bc ab⟩
      exact List.pairwise_insertionSort (above key) rest
    rw [List.insertionSort_cons, find?_orderedInsert sorted, ih]
    cases passes : p a with
    | false => simp [passes]
    | true => simp [passes, firstMax_cons]

end FirstMax
