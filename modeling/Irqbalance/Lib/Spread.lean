import Mathlib.Algebra.Order.BigOperators.Group.List
import Mathlib.Algebra.Order.Ring.Nat

/-! # Items put into the cheapest bin

The cost of a bin is its load and a penalty of its own. Where each item goes to a bin of least cost among
those that are open, no bin gets ahead of an open one by more than the heaviest item and the penalty of that
one, and therefore no bin gets further ahead of the mean of the open ones.
-/

namespace Spread

variable {β : Type*} {bins : List β} {isOpen isOpen' : β → Prop} {load load' slack slack' penalty : β → ℕ}

/-- No bin is ahead of an open one by more than the slack of that one. -/
def Within (bins : List β) (isOpen : β → Prop) (slack load : β → ℕ) : Prop :=
  ∀ a ∈ bins, ∀ b ∈ bins, isOpen b → load a ≤ load b + slack b

theorem Within.mono (within : Within bins isOpen slack load) (fewer : ∀ b ∈ bins, isOpen' b → isOpen b)
    (more : ∀ b ∈ bins, isOpen' b → slack b ≤ slack' b) : Within bins isOpen' slack' load := by
  intro a memberA b memberB open'
  have before := within a memberA b memberB (fewer b memberB open')
  exact before.trans (Nat.add_le_add_left (more b memberB open') _)

/-- An item that comes to a bin of least cost. -/
theorem Within.put {bound amount : ℕ} {best : β} (within : Within bins isOpen (fun b => bound + penalty b) load)
    (least : ∀ b ∈ bins, isOpen b → load best + penalty best ≤ load b + penalty b) (few : amount ≤ bound)
    (target : load' best = load best + amount) (others : ∀ b ≠ best, load' b = load b) :
    Within bins isOpen (fun b => bound + penalty b) load' := by
  intro a memberA b memberB open'
  dsimp only
  have grown : load b ≤ load' b := by
    by_cases own : b = best
    · subst own
      omega
    · exact (others b own).ge
  by_cases own : a = best
  · subst own
    have cost := least b memberB open'
    omega
  · rw [others a own]
    apply (within a memberA b memberB open').trans
    exact Nat.add_le_add_right grown _

/-- A bin against open ones together. -/
theorem Within.mean {a : β} {opened : List β} (within : Within bins isOpen slack load) (member : a ∈ bins)
    (are : ∀ b ∈ opened, b ∈ bins ∧ isOpen b) :
    opened.length * load a ≤ (opened.map fun b => load b + slack b).sum := by
  have each : ∀ x ∈ opened.map fun b => load b + slack b, load a ≤ x := by
    intro x listed
    obtain ⟨b, memberB, rfl⟩ := List.mem_map.mp listed
    exact within a member b (are b memberB).1 (are b memberB).2
  have total := List.card_nsmul_le_sum _ _ each
  rwa [List.length_map] at total

/-- A summand that has become smaller makes room in the sum. -/
theorem sum_map_add_le {α : Type*} {l : List α} {f g : α → ℕ} {a : α} {amount : ℕ} (member : a ∈ l)
    (own : f a + amount ≤ g a) (others : ∀ x ∈ l, f x ≤ g x) : (l.map f).sum + amount ≤ (l.map g).sum := by
  obtain ⟨before, after, rfl⟩ := List.append_of_mem member
  have front := List.sum_le_sum fun x listed => others x (List.mem_append_left _ listed)
  have back := List.sum_le_sum fun x listed => others x (List.mem_append_right _ (List.mem_cons_of_mem a listed))
  simp only [List.map_append, List.map_cons, List.sum_append, List.sum_cons]
  omega

end Spread
