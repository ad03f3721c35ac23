import Irqbalance.Model.Thermal

/-! # The calls that a thermal notification causes

The loop counts the attributes and keeps the last three values. Over a whole payload this makes one
group of every three values, and a call for each group whose CPU passes the range check.
-/

namespace Irqbalance

open CText (toInt)

/-- The complete groups of three. -/
def triples {α : Type*} : List α → List (α × α × α)
  | a :: b :: c :: rest => (a, b, c) :: triples rest
  | _ => []

/-- One call for each complete triple whose CPU lies inside the masks, in order. -/
def CallsInside (values : List (BitVec 32)) (calls : List UpdateCall) : Prop :=
  calls = ((triples values).filter fun t => t.1.toNat < NR_CPUS).map fun t =>
    ⟨t.1.toNat, t.2.1 == 0 && t.2.2 == 0⟩

/-- The number of the CPU is neither the first one beyond the masks nor negative as an `int`. -/
def Indexes (t : BitVec 32 × BitVec 32 × BitVec 32) : Prop := t.1.toNat ≠ NR_CPUS ∧ t.1.toNat < 2 ^ 31

/-- The calls for one triple. -/
def callsOf (t : BitVec 32 × BitVec 32 × BitVec 32) : List UpdateCall :=
  if t.1.toInt ≤ NR_CPUS then [⟨t.1.toInt, t.2.1.toInt == 0 && t.2.2.toInt == 0⟩] else []

/-- The counter and the values of the triple before have no influence on a triple. -/
theorem updateCallsFrom_eq {i : ℕ} (start : i % 3 = 0) (eventData : ℕ → ℤ) (values : List (BitVec 32)) :
    updateCallsFrom i eventData values = (triples values).flatMap callsOf := by
  induction values using triples.induct generalizing i eventData with
  | case1 cpu perf efficiency rest ih =>
    have second : (i + 1) % 3 = 1 := by omega
    have third : (i + 1 + 1) % 3 = 2 := by omega
    have next : (i + 1 + 1 + 1) % 3 = 0 := by omega
    rw [triples, List.flatMap_cons, callsOf]
    by_cases valid : cpu.toInt ≤ 4096
    · simp [updateCallsFrom, INDEX_MAX, INDEX_EFFI, INDEX_CPUNUM, INDEX_PERF, start, second, third, ih next, valid]
    · simp [updateCallsFrom, INDEX_MAX, INDEX_EFFI, INDEX_CPUNUM, start, second, third, ih next, valid]
  | case2 values short =>
    rw [triples]
    · cases values with
      | nil => rfl
      | cons cpu rest =>
        cases rest with
        | nil => simp [updateCallsFrom, INDEX_MAX, INDEX_EFFI, start]
        | cons perf rest =>
          cases rest with
          | nil =>
            have second : (i + 1) % 3 = 1 := by omega
            simp [updateCallsFrom, INDEX_MAX, INDEX_EFFI, start, second]
          | cons efficiency rest => exact absurd rfl (short cpu perf efficiency rest)
    · exact short

theorem updateCalls_eq (values : List (BitVec 32)) : updateCalls values = (triples values).flatMap callsOf :=
  updateCallsFrom_eq rfl _ values

/-- A triple that indexes the masks or is skipped has the calls that are expected of it. -/
theorem callsOf_eq {t : BitVec 32 × BitVec 32 × BitVec 32} (indexes : Indexes t) :
    callsOf t = if t.1.toNat < NR_CPUS then [⟨t.1.toNat, t.2.1 == 0 && t.2.2 == 0⟩] else [] := by
  obtain ⟨cpu, perf, efficiency⟩ := t
  obtain ⟨notFirst, notNegative⟩ := indexes
  have value : cpu.toInt = cpu.toNat := by
    rw [BitVec.toInt_eq_toNat_cond, if_pos (by dsimp only at notNegative; omega)]
  have zero (v : BitVec 32) : (v.toInt == 0) = (v == 0) := by
    rw [Bool.eq_iff_iff, beq_iff_eq, beq_iff_eq, ← BitVec.toInt_inj]
    rfl
  rw [callsOf, zero, zero, value]
  refine if_congr ?_ rfl rfl
  dsimp only [NR_CPUS] at notFirst ⊢
  omega

/-- A call outside of the masks. -/
theorem callsOf_outside {t : BitVec 32 × BitVec 32 × BitVec 32} (outside : ¬ Indexes t) :
    ∃ call ∈ callsOf t, ¬ (0 ≤ call.curCpuidx ∧ call.curCpuidx < NR_CPUS) := by
  obtain ⟨cpu, perf, efficiency⟩ := t
  have passes : cpu.toInt ≤ NR_CPUS ∧ ¬ (0 ≤ cpu.toInt ∧ cpu.toInt < NR_CPUS) := by
    rw [Indexes, not_and_or, not_not, not_lt] at outside
    have bound := cpu.isLt
    rw [BitVec.toInt_eq_toNat_cond]
    dsimp only [NR_CPUS] at outside ⊢
    split <;> omega
  refine ⟨⟨cpu.toInt, perf.toInt == 0 && efficiency.toInt == 0⟩, ?_, passes.2⟩
  rw [callsOf, if_pos passes.1]
  exact List.mem_singleton_self _

/-- A notification causes one call for each triple whose CPU lies inside the masks, and no other, exactly
when none of its triples has the number of CPUs or a number of 2^31 or more in the place of a CPU. -/
theorem updateCalls_inside (values : List (BitVec 32)) :
    CallsInside values (updateCalls values) ↔ ∀ t ∈ triples values, Indexes t := by
  rw [CallsInside, updateCalls_eq]
  generalize triples values = l
  constructor
  · intro same t member
    by_contra outside
    obtain ⟨call, made, missed⟩ := callsOf_outside outside
    have expected : call ∈ l.flatMap callsOf := List.mem_flatMap.mpr ⟨t, member, made⟩
    rw [same] at expected
    obtain ⟨t', passes, rfl⟩ := List.mem_map.mp expected
    have inside := of_decide_eq_true (List.mem_filter.mp passes).2
    exact missed ⟨Int.natCast_nonneg _, Int.ofNat_lt.mpr inside⟩
  · intro indexes
    induction l with
    | nil => rfl
    | cons t rest ih =>
      rw [List.flatMap_cons, callsOf_eq (indexes t List.mem_cons_self),
        ih fun t' member => indexes t' (List.mem_cons_of_mem t member), List.filter_cons]
      by_cases inside : t.1.toNat < NR_CPUS <;> simp [inside]

/-- CPU 4096 passes the range check. -/
theorem updateCalls_beyond : ¬ CallsInside [4096, 0, 0] (updateCalls [4096, 0, 0]) := by
  unfold CallsInside
  decide +kernel

theorem event_fields {cpu perf efficiency online : ℤ} (bound : cpu.toNat < NR_CPUS) (low : 0 ≤ cpu) :
    let e : ThermalEvent := ⟨⟨cpu.toNat, bound⟩, perf, efficiency, online⟩
    (e.cpu.val : ℤ) = cpu ∧ e.perf = perf ∧ e.efficiency = efficiency :=
  ⟨Int.toNat_of_nonneg low, rfl, rfl⟩

/-- A triple of a payload that stays inside the masks is skipped or becomes an event. -/
theorem thermalEvents_triple {online : ℤ} {cpu perf efficiency : ℕ} {rest : List ℕ} {events : List ThermalEvent}
    (inside : thermalEvents online (cpu :: perf :: efficiency :: rest) = some events) :
    (toInt cpu > NR_CPUS ∧ thermalEvents online rest = some events) ∨
      ∃ e later, events = e :: later ∧ thermalEvents online rest = some later ∧
        (e.cpu.val : ℤ) = toInt cpu ∧ e.perf = toInt perf ∧ e.efficiency = toInt efficiency := by
  rw [thermalEvents] at inside
  split at inside
  · rename_i beyond
    exact .inl ⟨beyond, inside⟩
  · split at inside
    · rename_i within
      obtain ⟨later, parsed, rfl⟩ := Option.map_eq_some_iff.mp inside
      exact .inr ⟨_, later, rfl, parsed, event_fields (by omega) within.1⟩
    · contradiction

/-- The events of a payload that stays inside the masks are its calls. -/
theorem updateCalls_events {online : ℤ} {values : List (BitVec 32)} {events : List ThermalEvent}
    (inside : thermalEvents online (values.map BitVec.toNat) = some events) :
    updateCalls values = events.map fun e => ⟨e.cpu.val, e.needToBan⟩ := by
  have signed (v : BitVec 32) : toInt v.toNat = v.toInt := (BitVec.toInt_eq_toNat_bmod v).symm
  rw [updateCalls_eq]
  induction values using triples.induct generalizing events with
  | case1 cpu perf efficiency rest ih =>
    rw [triples, List.flatMap_cons, callsOf]
    rcases thermalEvents_triple inside with ⟨beyond, skipped⟩ | ⟨e, later, rfl, parsed, number, first, second⟩
    · rw [signed] at beyond
      rw [if_neg (not_le.mpr beyond), List.nil_append, ih skipped]
    · rw [signed] at number first second
      have within : cpu.toInt ≤ NR_CPUS := by
        rw [← number]
        exact Int.ofNat_le.mpr e.cpu.isLt.le
      rw [if_pos within, ih parsed, List.map_cons, List.singleton_append, number, ThermalEvent.needToBan, first,
        second]
  | case2 values short =>
    have none : thermalEvents online (values.map BitVec.toNat) = some [] := by
      cases values with
      | nil => rfl
      | cons cpu rest =>
        cases rest with
        | nil => rfl
        | cons perf rest =>
          cases rest with
          | nil => rfl
          | cons efficiency rest => exact absurd rfl (short cpu perf efficiency rest)
    rw [none] at inside
    obtain rfl := Option.some.inj inside
    rw [triples]
    · rfl
    · exact short

end Irqbalance
