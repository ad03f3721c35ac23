import Irqbalance.Proofs.Placement
import Mathlib.Data.Int.ConditionallyCompleteOrder
import Mathlib.Data.List.MinMax
import Mathlib.Data.Prod.Lex
import Mathlib.Order.ConditionallyCompleteLattice.Basic

/-! # The best object is an exact minimum

`find_best_object` keeps the raw load of its choice and computes the penalty again at each
candidate. Below the bound on loads no cost wraps, every cost stays below the sentinel, and the
walk over a list is the first minimum of one linear order.
-/

namespace Irqbalance

variable {K : Env} {s : State} {d : ObjRef}

/-- The order of preference: a lower cost with the penalty, then more slots, then fewer interrupts. -/
def preference (s : State) (o : ObjRef) : ℕ ×ₗ ℤᵒᵈ ×ₗ ℕ :=
  toLex ((s.objs o).load + slotsPenalty (s.objs o),
    toLex (OrderDual.toDual (s.objs o).slotsLeft, (s.objs o).interrupts.length))

/-- No eligible candidate comes before this one in the order of preference, and none in front of
it in the list is as good. -/
structure FirstLeast (K : Env) (s : State) (candidates : List ObjRef) (best : ObjRef) : Prop where
  eligible : eligibleObject K s best = true
  split : ∃ before after, candidates = before ++ best :: after ∧
    (∀ o ∈ before, eligibleObject K s o = true → preference s best < preference s o) ∧
    ∀ o ∈ after, eligibleObject K s o = true → preference s best ≤ preference s o

/-- What the walk carries for a choice. -/
def placementOf (s : State) : Option ObjRef → ObjPlacement
  | none => {}
  | some best => ⟨some best, (s.objs best).load⟩

theorem placementOf_best (choice : Option ObjRef) : (placementOf s choice).best = choice := by
  cases choice <;> rfl

/-- An eligible object has a slot, so that its penalty is bounded. -/
theorem slotsPenalty_le (eligible : eligibleObject K s d = true) : slotsPenalty (s.objs d) ≤ 9000 := by
  have slots : 0 < (s.objs d).slotsLeft := by
    simp only [eligibleObject, Bool.and_eq_true, Bool.not_eq_true', decide_eq_false_iff_not] at eligible
    omega
  unfold slotsPenalty SLOTS_PENALTY_THRESHOLD SLOTS_PENALTY_FACTOR
  split
  · have few : (10 - (s.objs d).slotsLeft).toNat ≤ 9 := by omega
    exact (Nat.mod_le _ _).trans (by omega)
  · exact Nat.zero_le _

theorem u64_cost (eligible : eligibleObject K s d = true) (load : (s.objs d).load < 2 ^ 64 - 10000) :
    u64 ((s.objs d).load + slotsPenalty (s.objs d)) = (s.objs d).load + slotsPenalty (s.objs d) ∧
      (s.objs d).load + slotsPenalty (s.objs d) < 2 ^ 64 - 1 := by
  have penalty := slotsPenalty_le eligible
  exact ⟨Nat.mod_eq_of_lt (by omega), by omega⟩

theorem preference_lt {a b : ObjRef} : preference s a < preference s b ↔
    (s.objs a).load + slotsPenalty (s.objs a) < (s.objs b).load + slotsPenalty (s.objs b) ∨
      (s.objs a).load + slotsPenalty (s.objs a) = (s.objs b).load + slotsPenalty (s.objs b) ∧
        breaksTie s a b = true := by
  simp only [preference, breaksTie, Prod.Lex.toLex_lt_toLex, OrderDual.toDual_lt_toDual, Bool.or_eq_true,
    Bool.and_eq_true, decide_eq_true_eq, beq_iff_eq, EmbeddingLike.apply_eq_iff_eq]

/-- One candidate after another, the walk keeps the first minimum. -/
theorem findBestObject_placementOf {choice : Option ObjRef} (eligible : eligibleObject K s d = true)
    (load : (s.objs d).load < 2 ^ 64 - 10000)
    (chosen : ∀ b ∈ choice, eligibleObject K s b = true ∧ (s.objs b).load < 2 ^ 64 - 10000) :
    findBestObject K s d (placementOf s choice) =
      placementOf s (List.argAux (fun a b => preference s a < preference s b) choice d) := by
  obtain ⟨exact, bounded⟩ := u64_cost eligible load
  unfold findBestObject
  rw [eligible]
  cases choice with
  | none =>
    simp only [Bool.not_true, Bool.false_eq_true, if_false, placementOf, exact]
    rw [if_pos bounded]
    rfl
  | some b =>
    obtain ⟨bEligible, bLoad⟩ := chosen b rfl
    have cost := (u64_cost bEligible bLoad).1
    simp only [Bool.not_true, Bool.false_eq_true, if_false, placementOf, exact, cost, Option.all_some, List.argAux]
    by_cases cheaper : (s.objs d).load + slotsPenalty (s.objs d) < (s.objs b).load + slotsPenalty (s.objs b)
    · rw [if_pos cheaper, if_pos (preference_lt.mpr (.inl cheaper))]
    · rw [if_neg cheaper]
      by_cases tie : (s.objs d).load + slotsPenalty (s.objs d) = (s.objs b).load + slotsPenalty (s.objs b) ∧
        breaksTie s d b = true
      · rw [if_pos tie, if_pos (preference_lt.mpr (.inr tie))]
      · rw [if_neg tie, if_neg fun less => (preference_lt.mp less).elim cheaper tie]

/-- The walk over a list ends at the first minimum of its eligible elements. -/
theorem findBestObjects_argmin {candidates : List ObjRef} (loads : ∀ o ∈ candidates, (s.objs o).load < 2 ^ 64 - 10000) :
    forEach candidates (findBestObject K s) {} =
      placementOf s ((candidates.filter (eligibleObject K s)).argmin (preference s)) := by
  induction candidates using List.reverseRecOn with
  | nil => rfl
  | append_singleton rest d ih =>
    have walked := ih fun o member => loads o (List.mem_append_left _ member)
    rw [forEach, List.foldl_append, List.foldl_cons, List.foldl_nil, ← forEach, walked, List.filter_append,
      List.filter_singleton]
    cases eligible : eligibleObject K s d with
    | false =>
      simp only [cond_false, List.append_nil]
      simp [findBestObject, eligible]
    | true =>
      rw [findBestObject_placementOf eligible (loads d (List.mem_append_right _ (List.mem_singleton_self d)))]
      · simp only [cond_true]
        rw [List.argmin, List.argmin, List.foldl_append]
        rfl
      · intro b chosen
        obtain ⟨member, eligible⟩ := List.mem_filter.mp (List.argmin_mem chosen)
        exact ⟨eligible, loads b (List.mem_append_left _ member)⟩

/-- The best object is the first minimum of the eligible candidates. -/
theorem bestObject_argmin {candidates : List ObjRef} (loads : ∀ o ∈ candidates, (s.objs o).load < 2 ^ 64 - 10000) :
    bestObject K s candidates = (candidates.filter (eligibleObject K s)).argmin (preference s) := by
  rw [bestObject, findBestObjects_argmin loads, placementOf_best]

/-- Below the bound on loads, the best object costs least. -/
theorem bestObject_least {candidates : List ObjRef} {best : ObjRef} (chosen : bestObject K s candidates = some best)
    (loads : ∀ o ∈ candidates, (s.objs o).load < 2 ^ 64 - 10000) :
    ∀ o ∈ candidates, eligibleObject K s o = true →
      (s.objs best).load + slotsPenalty (s.objs best) ≤ (s.objs o).load + slotsPenalty (s.objs o) := by
  rw [bestObject_argmin loads] at chosen
  intro o member eligible
  have least := (List.mem_argmin_iff.mp chosen).2.1 o (List.mem_filter.mpr ⟨member, eligible⟩)
  have behind := fun cheaper => not_lt.mpr least (preference_lt.mpr (.inl cheaper))
  exact not_lt.mp behind

theorem firstLeast_of_argmin {candidates : List ObjRef} {best : ObjRef}
    (least : best ∈ (candidates.filter (eligibleObject K s)).argmin (preference s)) :
    FirstLeast K s candidates best := by
  obtain ⟨listed, lower, first⟩ := List.mem_argmin_iff.mp least
  obtain ⟨member, eligible⟩ := List.mem_filter.mp listed
  obtain ⟨before, after, split, fresh⟩ := List.eq_append_cons_of_mem member
  refine ⟨eligible, before, after, split, fun o earlier passes => ?_, fun o later passes => ?_⟩
  · have among : o ∈ candidates.filter (eligibleObject K s) :=
      List.mem_filter.mpr ⟨by rw [split]; exact List.mem_append_left _ earlier, passes⟩
    apply lt_of_not_ge
    intro atMost
    have order := first o among atMost
    rw [split, List.filter_append, List.filter_cons_of_pos eligible] at order
    have own : best ∉ before.filter (eligibleObject K s) := fun found => fresh (List.mem_filter.mp found).1
    have other : o ∈ before.filter (eligibleObject K s) := List.mem_filter.mpr ⟨earlier, passes⟩
    rw [List.idxOf_append_of_mem other, List.idxOf_append_of_notMem own, List.idxOf_cons_self] at order
    exact absurd (List.idxOf_lt_length_iff.mpr other) (not_lt.mpr order)
  · exact lower o (List.mem_filter.mpr ⟨by rw [split]; simp [later], passes⟩)

/-- The walk finds nothing exactly when no candidate is eligible, and else the first candidate that
is least among the eligible ones, with its load as the cost. -/
theorem findBestObject_firstLeast (K : Env) (s : State) (candidates : List ObjRef)
    (loads : ∀ o ∈ candidates, (s.objs o).load < 2 ^ 64 - 10000) :
    ((forEach candidates (findBestObject K s) {}).best = none ↔
      ∀ o ∈ candidates, eligibleObject K s o = false) ∧
    ∀ best, (forEach candidates (findBestObject K s) {}).best = some best →
      FirstLeast K s candidates best ∧
        (forEach candidates (findBestObject K s) {}).bestCost = (s.objs best).load := by
  rw [findBestObjects_argmin loads, placementOf_best]
  constructor
  · rw [List.argmin_eq_none, List.filter_eq_nil_iff]
    simp only [Bool.not_eq_true]
  · intro best least
    refine ⟨firstLeast_of_argmin least, ?_⟩
    rw [least]
    rfl

/-- Two CPUs: the one with less load has few slots left. -/
def headroom : State where
  objs o := if o = 0 then { load := 5000, slotsLeft := 2 } else { load := 8000, slotsLeft := 10 }

/-- The penalty makes the CPU with more load the better one. -/
theorem findBestObject_headroom :
    ((forEach [0, 1] (findBestObject {} headroom) {}).best = none ↔
      ∀ o ∈ [0, 1], eligibleObject {} headroom o = false) ∧
    ∀ best, (forEach [0, 1] (findBestObject {} headroom) {}).best = some best →
      FirstLeast {} headroom [0, 1] best ∧
        (forEach [0, 1] (findBestObject {} headroom) {}).bestCost = (headroom.objs best).load :=
  findBestObject_firstLeast {} headroom [0, 1] (by decide)

end Irqbalance
