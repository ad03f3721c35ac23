import Irqbalance.Model.IrqList
import Irqbalance.Proofs.Unsigned
import Mathlib.Algebra.Order.BigOperators.Group.List
import Mathlib.Algebra.Order.Group.Nat
import Mathlib.Algebra.Order.Ring.Nat
import Mathlib.Algebra.Group.Action.Defs

/-! # The statistics of a list of objects

`gather_load_stats` and `compute_deviations` add up in 64 bits. Squares of nanoseconds are large: two
CPUs that differ by less than nine seconds can exceed the accumulator.
-/

namespace Irqbalance

variable {K : Env} {objs : List ObjRef} {s : State} {o : ObjRef}

/-- The sum of the loads. -/
def totalLoad (objs : List ObjRef) (s : State) : ℕ := (objs.map fun o => (s.objs o).load).sum

/-- How many objects divide the total; `find_overloaded_objs` counts at least one. -/
def loadSources (objs : List ObjRef) : ℕ := if objs.length = 0 then 1 else objs.length

/-- The average load. -/
def averageLoad (objs : List ObjRef) (s : State) : ℕ := totalLoad objs s / loadSources objs

/-- The distance of an object's load from the average. -/
def deviation (objs : List ObjRef) (s : State) (o : ObjRef) : ℕ :=
  (((s.objs o).load : ℤ) - averageLoad objs s).natAbs

/-- The sum of the squared distances. -/
def squaredDeviations (objs : List ObjRef) (s : State) : ℕ := (objs.map fun o => deviation objs s o ^ 2).sum

/-- The statistics are those of the integers. -/
structure ExactStats (objs : List ObjRef) (s : State) : Prop where
  totalLoad : (loadStats objs s).totalLoad = Irqbalance.totalLoad objs s
  deviations : (loadStats objs s).deviations = squaredDeviations objs s

theorem gathered_eq (objs : List ObjRef) (s : State) (info : LoadBalanceInfo) :
    (forEach objs (fun o => gatherLoadStats (s.objs o)) info).totalLoad =
        forEach objs (fun o acc => u64 (acc + (s.objs o).load)) info.totalLoad ∧
      (forEach objs (fun o => gatherLoadStats (s.objs o)) info).loadSources = info.loadSources + objs.length ∧
        (forEach objs (fun o => gatherLoadStats (s.objs o)) info).deviations = info.deviations := by
  induction objs generalizing info with
  | nil => exact ⟨rfl, rfl, rfl⟩
  | cons o rest ih =>
    obtain ⟨total, sources, deviations⟩ := ih (gatherLoadStats (s.objs o) info)
    refine ⟨total, sources.trans ?_, deviations⟩
    change info.loadSources + 1 + rest.length = info.loadSources + (rest.length + 1)
    omega

/-- One squared distance, as `compute_deviations` calculates it. -/
def wrappedSquare (avg load : ℕ) : ℕ :=
  let deviation := if load > avg then u64Sub load avg else u64Sub avg load
  u64 (deviation * deviation)

theorem computed_eq (objs : List ObjRef) (s : State) (info : LoadBalanceInfo) :
    (forEach objs (fun o => computeDeviations (s.objs o)) info).deviations =
        forEach objs (fun o acc => u64 (acc + wrappedSquare info.avgLoad (s.objs o).load)) info.deviations ∧
      (forEach objs (fun o => computeDeviations (s.objs o)) info).totalLoad = info.totalLoad := by
  induction objs generalizing info with
  | nil => exact ⟨rfl, rfl⟩
  | cons o rest ih => exact ih (computeDeviations (s.objs o) info)

/-- What `find_overloaded_objs` calculates. -/
theorem loadStats_eq : (loadStats objs s).totalLoad = u64 (totalLoad objs s) ∧
    (loadStats objs s).deviations = u64 ((objs.map fun o =>
      wrappedSquare (u64 (totalLoad objs s) / loadSources objs) (s.objs o).load).sum) := by
  obtain ⟨total, sources, deviations⟩ := gathered_eq objs s {}
  have sum : (forEach objs (fun o => gatherLoadStats (s.objs o)) {}).totalLoad = u64 (totalLoad objs s) := by
    rw [total]
    exact (forEach_u64 _ objs 0).trans (by rw [Nat.zero_add]; rfl)
  have count : (forEach objs (fun o => gatherLoadStats (s.objs o)) {}).loadSources = objs.length :=
    sources.trans (Nat.zero_add _)
  unfold loadStats
  generalize forEach objs (fun o => gatherLoadStats (s.objs o)) {} = info at sum count deviations ⊢
  obtain ⟨computed, kept⟩ := computed_eq objs s { info with
    loadSources := if info.loadSources = 0 then 1 else info.loadSources
    avgLoad := info.totalLoad / if info.loadSources = 0 then 1 else info.loadSources }
  refine ⟨kept.trans sum, computed.trans ?_⟩
  dsimp only
  rw [deviations, sum, count]
  exact (forEach_u64 _ objs 0).trans (by rw [Nat.zero_add]; rfl)

/-- The square of a distance between two numbers of 64 bits. -/
theorem wrappedSquare_eq {avg load : ℕ} (avgSmall : avg < 2 ^ 64) (loadSmall : load < 2 ^ 64) :
    wrappedSquare avg load = u64 (((load : ℤ) - avg).natAbs ^ 2) := by
  unfold wrappedSquare
  split
  · rename_i above
    rw [u64Sub_of_le above.le loadSmall, show ((load : ℤ) - avg).natAbs = load - avg by omega, pow_two]
  · rename_i below
    rw [u64Sub_of_le (not_lt.mp below) avgSmall, show ((load : ℤ) - avg).natAbs = avg - load by omega, pow_two]

theorem sum_u64 {α : Type*} (f : α → ℕ) (l : List α) : u64 ((l.map fun x => u64 (f x)).sum) = u64 ((l.map f).sum) := by
  induction l with
  | nil => rfl
  | cons x rest ih =>
    rw [List.map_cons, List.sum_cons, List.map_cons, List.sum_cons, u64_u64_add, ← u64_add_u64, ih, u64_add_u64]

theorem averageLoad_le : averageLoad objs s ≤ totalLoad objs s := Nat.div_le_self _ _

/-- The deviations when the total has not wrapped. -/
theorem loadStats_deviations (small : totalLoad objs s < 2 ^ 64) :
    (loadStats objs s).deviations = u64 (squaredDeviations objs s) := by
  rw [loadStats_eq.2, u64_of_lt small, squaredDeviations, ← sum_u64 fun o => deviation objs s o ^ 2]
  congr 2
  apply List.map_congr_left
  intro o member
  have load : (s.objs o).load ≤ totalLoad objs s := List.le_sum_of_mem (List.mem_map_of_mem member)
  exact wrappedSquare_eq (averageLoad_le.trans_lt small) (load.trans_lt small)

theorem exactStats_of_small (small : totalLoad objs s < 2 ^ 64) (squares : squaredDeviations objs s < 2 ^ 64) :
    ExactStats objs s :=
  ⟨loadStats_eq.1.trans (u64_of_lt small), (loadStats_deviations small).trans (u64_of_lt squares)⟩

/-- The statistics are exact as long as the sums fit 64 bits. -/
theorem loadStats_exact (objs : List ObjRef) (s : State) :
    ExactStats objs s ↔ totalLoad objs s < 2 ^ 64 ∧ squaredDeviations objs s < 2 ^ 64 := by
  refine ⟨fun exact => ?_, fun fits => exactStats_of_small fits.1 fits.2⟩
  have small : totalLoad objs s < 2 ^ 64 := u64_eq_iff.mp (loadStats_eq.1.symm.trans exact.totalLoad)
  exact ⟨small, u64_eq_iff.mp ((loadStats_deviations small).symm.trans exact.deviations)⟩

theorem sum_map_le {α : Type*} {f : α → ℕ} {l : List α} {bound : ℕ} (each : ∀ x ∈ l, f x ≤ bound) :
    (l.map f).sum ≤ l.length * bound := by
  have sum := List.sum_le_card_nsmul (l.map f) bound (List.forall_mem_map.mpr each)
  rwa [List.length_map, smul_eq_mul] at sum

/-- A bound on the loads bounds the squares. -/
theorem exactStats_of_bound {bound : ℕ} (loads : ∀ o ∈ objs, (s.objs o).load ≤ bound)
    (small : objs.length * bound ^ 2 < 2 ^ 64) : ExactStats objs s := by
  have total : totalLoad objs s ≤ objs.length * bound := sum_map_le loads
  have average : averageLoad objs s ≤ bound := by
    unfold averageLoad loadSources
    split
    · rename_i none
      rw [none, Nat.zero_mul] at total
      omega
    · exact Nat.div_le_of_le_mul total
  have distances : ∀ o ∈ objs, deviation objs s o ^ 2 ≤ bound ^ 2 := by
    intro o member
    have load := loads o member
    refine Nat.pow_le_pow_left ?_ 2
    unfold deviation
    omega
  refine exactStats_of_small ?_ ((sum_map_le distances).trans_lt small)
  exact total.trans_lt ((Nat.mul_le_mul_left _ (Nat.le_self_pow two_ne_zero bound)).trans_lt small)

/-- One CPU has served interrupts for all of the ten seconds of the default interval, the other for
none of them. -/
def busyAndIdle : State where
  objs o := if o = 0 then { load := 10 * 10 ^ 9 } else { load := 0 }

/-- The squares of two times five seconds exceed 64 bits. -/
theorem loadStats_busyAndIdle : (∀ o ∈ [0, 1], (busyAndIdle.objs o).load ≤ 10 * 10 ^ 9) ∧
    ¬ ExactStats [0, 1] busyAndIdle := by
  refine ⟨by decide, fun exact => ?_⟩
  have deviations := exact.deviations
  revert deviations
  decide +kernel

end Irqbalance
