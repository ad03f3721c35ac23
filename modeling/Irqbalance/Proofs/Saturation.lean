import Irqbalance.Proofs.Fallback

/-! # Saturated CPUs after activation

A CPU whose write returned `ENOSPC` is clamped to no slots. The clamp of the CPUs that the fallback
tried stays. The IRQ's own CPU loses it again when the fallback fails, because the forced rebalance
that follows gives a slot back for the IRQ that leaves.
-/

namespace Irqbalance

variable {K : Env}

section Slots

variable {s s' : State} {src dst : Option ObjRef} {info : IrqRef} {o c d : ObjRef}

theorem migrateIrq_slots : ((migrateIrq src dst info s).objs d).slotsLeft = (s.objs d).slotsLeft := by
  unfold migrateIrq
  split
  · rfl
  · exact (setIrqList_obj d).2.trans (setIrqList_obj d).2

theorem migrateIrq_moved (moved : (s.irqs info).moved = true) :
    ((migrateIrq src dst info s).irqs info).moved = true := by
  unfold migrateIrq
  split
  · exact moved
  · simp [State.setIrq]

/-- A move concerns the slots of the two objects only. -/
theorem migrateIrqObj_slots (source : d ≠ o) (target : dst ≠ some d) :
    ((migrateIrqObj (some o) dst info s).objs d).slotsLeft = (s.objs d).slotsLeft := by
  simp only [migrateIrqObj, Option.isNone_some, Bool.false_eq_true, if_false]
  split
  · exact migrateIrq_slots
  · cases dst with
    | none => simpa [State.setIrq, State.setObj, source] using migrateIrq_slots
    | some c =>
      have other : d ≠ c := fun same => target (congrArg some same.symm)
      simpa [State.setIrq, State.setObj, source, other] using migrateIrq_slots

/-- An IRQ that is evicted gives its slot back, also to a full CPU. -/
theorem migrateIrqObj_released (moved : (s.irqs info).moved = true) (full : (s.objs o).slotsLeft = SLOTS_SATURATED) :
    ((migrateIrqObj (some o) none info s).objs o).slotsLeft = 1 := by
  have slots : ((migrateIrq (some o) none info s).objs o).slotsLeft = 0 := migrateIrq_slots.trans full
  simp only [migrateIrqObj, Option.isNone_some, Bool.false_eq_true, if_false, migrateIrq_moved moved,
    Bool.not_true]
  simp [State.setIrq, State.setObj, releaseSlot, slots, INT_MAX]

/-- The end of a fallback leaves other CPUs alone. -/
theorem adoptFallback_slots (source : d ≠ o) (target : d ≠ c) :
    ((adoptFallback info o c s).objs d).slotsLeft = (s.objs d).slotsLeft := by
  have moved : ((migrateIrqObj (some o) (some c) info s).objs d).slotsLeft = (s.objs d).slotsLeft :=
    migrateIrqObj_slots source fun same => target (Option.some.inj same).symm
  unfold adoptFallback
  dsimp only
  split
  · simpa [clearMoved, State.setIrq, setSlots, State.setObj, source] using moved
  · exact moved

/-- The end of a fallback clamps the CPU that the IRQ leaves. -/
theorem adoptFallback_clamps (cpu : (s.objs o).objType = .cpu) :
    ((adoptFallback info o c s).objs o).slotsLeft = SLOTS_SATURATED := by
  unfold adoptFallback
  dsimp only
  rw [migrateIrqObj_frame.tree.objType, if_pos cpu]
  simp [clearMoved, State.setIrq, setSlots, State.setObj]

end Slots

section Activation

variable {s : State} {info : IrqRef} {o c d : ObjRef} {clock : ℕ}

theorem sameTree_looked : SameTree s (looked s) := by constructor <;> intros <;> rfl

theorem sameTree_saturateCpu : SameTree s (saturateCpu o s) := by
  unfold saturateCpu
  split
  · exact sameTree_setObj rfl rfl rfl rfl rfl
  · exact .refl s

theorem saturateCpu_clamps (cpu : (s.objs o).objType = .cpu) :
    ((saturateCpu o s).objs o).slotsLeft = SLOTS_SATURATED := by
  simp [saturateCpu, cpu, setSlots, State.setObj]

/-- A CPU that takes the IRQ was not full. -/
theorem foundFull_attempts : FoundFull K clock (fallbackAttempts K s clock info o) d ↔
    FoundFull K clock (refusals K MAX_FALLBACK_ATTEMPTS clock (offersOf s info o)) d := by
  unfold fallbackAttempts
  cases taken : firstTaken K MAX_FALLBACK_ATTEMPTS clock (offersOf s info o) with
  | none => rw [Option.toList_none, List.append_nil]
  | some c =>
    obtain ⟨_, _, accepted⟩ := firstTaken_after taken
    generalize refusals K MAX_FALLBACK_ATTEMPTS clock (offersOf s info o) = l at accepted ⊢
    rw [Option.toList_some]
    constructor
    · rintro ⟨k, found, full⟩
      rcases Nat.lt_trichotomy k l.length with below | rfl | beyond
      · exact ⟨k, by rwa [List.getElem?_append_left below] at found, full⟩
      · rw [full] at accepted
        contradiction
      · rw [List.getElem?_eq_none (by rw [List.length_append]; exact beyond)] at found
        contradiction
    · rintro ⟨k, found, full⟩
      have below : k < l.length := (List.getElem?_eq_some_iff.mp found).1
      exact ⟨k, by rwa [List.getElem?_append_left below], full⟩

/-- The fallback of an IRQ that is about to be activated on a full CPU finds another CPU. -/
def FallbackTakes (K : Env) (s : State) (info : IrqRef) (o : ObjRef) : Prop :=
  ∃ k < (fallbackAttempts K s (s.clock + 2) info o).length, (K.write (s.clock + 2 + k)).accepted = true

theorem fallbackTakes_iff : FallbackTakes K s info o ↔
    (firstTaken K MAX_FALLBACK_ATTEMPTS (s.clock + 2) (offersOf s info o)).isSome = true := by
  unfold FallbackTakes fallbackAttempts
  cases taken : firstTaken K MAX_FALLBACK_ATTEMPTS (s.clock + 2) (offersOf s info o) with
  | none =>
    refine iff_of_false ?_ Bool.false_ne_true
    rintro ⟨k, bound, accepted⟩
    rw [Option.toList_none, List.append_nil] at bound
    rw [refusals_refused bound] at accepted
    contradiction
  | some c =>
    obtain ⟨_, _, accepted⟩ := firstTaken_after taken
    refine iff_of_true ⟨_, ?_, accepted⟩ rfl
    rw [Option.toList_some, List.length_append]
    exact Nat.lt_succ_self _

/-- After a failed fallback, the IRQ goes back to be placed and frees a slot of its CPU, unless its
balance level keeps it there. -/
theorem requeued_saturated {Limit : ObjRef → Prop} {level : Level} (moved : (s.irqs info).moved = true)
    (assigned : (s.irqs info).assignedObj = some o) (given : (s.irqs info).level = level)
    (slots : ∀ d, d = o ∨ Limit d → (s.objs d).slotsLeft = SLOTS_SATURATED) :
    (∀ d, d = o ∨ Limit d →
      ((clearMoved info (forceRebalanceIrq info s)).objs d).slotsLeft = SLOTS_SATURATED) ↔ level = .none := by
  unfold forceRebalanceIrq
  rw [given, assigned]
  by_cases fixed : level = .none
  · rw [if_pos fixed]
    exact iff_of_true slots fixed
  · rw [if_neg fixed]
    refine iff_of_false (fun all => ?_) fixed
    have released := migrateIrqObj_released moved (slots o (.inl rfl))
    have clamped := all o (.inl rfl)
    dsimp only [clearMoved, State.setIrq] at clamped
    rw [released] at clamped
    contradiction

theorem Refused.objType {l : List ObjRef} {s' : State} (refused : Refused K info l s s') :
    (s'.objs d).objType = (s.objs d).objType := by
  by_cases full : FoundFull K s.clock l d
  · rw [refused.full d full]
  · rw [refused.kept d full]

/-- Refusals mark the CPUs that they find full, and no other CPU loses its mark. -/
theorem Refused.saturated {l : List ObjRef} {s' : State} (refused : Refused K info l s s')
    (clamped : (s.objs o).slotsLeft = SLOTS_SATURATED) (limit : d = o ∨ FoundFull K s.clock l d) :
    (s'.objs d).slotsLeft = SLOTS_SATURATED := by
  by_cases full : FoundFull K s.clock l d
  · rw [refused.full d full]
  · obtain rfl := limit.resolve_right full
    rw [refused.kept d full, clamped]

/-- A CPU is not tried again after it was found full. -/
theorem foundFull_ne (taken : firstTaken K MAX_FALLBACK_ATTEMPTS clock (offersOf s info o) = some c)
    (full : FoundFull K clock (refusals K MAX_FALLBACK_ATTEMPTS clock (offersOf s info o)) d) : d ≠ c := by
  obtain ⟨k, found, _⟩ := full
  have distinct := List.Nodup.sublist (firstTaken_after taken).1.sublist offersOf_nodup
  exact fun same =>
    (List.nodup_append.mp distinct).2.2 d (List.mem_of_getElem? found) c (List.mem_singleton_self c) same

/-- A fallback that succeeds marks the IRQ's old CPU and keeps the marks of other CPUs than the new one. -/
theorem adoptFallback_saturated {Limit : ObjRef → Prop} (cpu : (s.objs o).objType = .cpu)
    (slots : ∀ d, d = o ∨ Limit d → (s.objs d).slotsLeft = SLOTS_SATURATED)
    (other : ∀ d, Limit d → d ≠ c) (limit : d = o ∨ Limit d) :
    ((adoptFallback info o c s).objs d).slotsLeft = SLOTS_SATURATED := by
  by_cases own : d = o
  · rw [own]
    exact adoptFallback_clamps cpu
  · exact (adoptFallback_slots own (other d (limit.resolve_left own))).trans (slots d limit)

/-- After an activation that found the IRQ's CPU full, all full CPUs are marked exactly when the
IRQ stays for its balance level or moves to another CPU. -/
theorem activateMapping_saturated (K : Env) (s : State) (info : IrqRef) (o : ObjRef)
    (moved : (s.irqs info).moved = true) (assigned : (s.irqs info).assignedObj = some o)
    (cpu : (s.objs o).objType = .cpu)
    (differs : K.readable s.clock = true ∧ s.affinity (s.irqs info).irq ≠ appliedMask s o)
    (full : (K.write (s.clock + 1)).error = some .ENOSPC) :
    (∀ c, c = o ∨ FoundFull K (s.clock + 2) (fallbackAttempts K s (s.clock + 2) info o) c →
      ((activateMapping K info s).objs c).slotsLeft = SLOTS_SATURATED) ↔
    (s.irqs info).level = .none ∨ FallbackTakes K s info o := by
  have issued : ¬ (!K.readable s.clock || s.affinity (s.irqs info).irq == appliedMask s o) = true := by
    simp [differs.1, differs.2]
  rw [activateMapping_moved moved assigned, if_neg issued, full]
  dsimp only
  rw [activateError_ENOSPC, fallbackTakes_iff]
  simp only [foundFull_attempts]
  have retrying : Retrying s (saturateCpu o (wrote K info o (looked s))) o CPU_MASK_NONE :=
    ⟨sameTree_looked.trans (sameTree_wrote.trans sameTree_saturateCpu), fun c own _ => saturateCpu_slots own⟩
  have irqs : (saturateCpu o (wrote K info o (looked s))).irqs = s.irqs := saturateCpu_irqs
  have clock : (saturateCpu o (wrote K info o (looked s))).clock = s.clock + 2 := saturateCpu_clock
  have clamped : ((saturateCpu o (wrote K info o (looked s))).objs o).slotsLeft = SLOTS_SATURATED :=
    saturateCpu_clamps cpu
  have outcome := tryFallbackCpu_eq (K := K) retrying irqs assigned
  generalize saturateCpu o (wrote K info o (looked s)) = s₂ at retrying irqs clock clamped outcome ⊢
  dsimp only at outcome
  rw [← clock]
  have refusing (k : ℕ)
      (bound : k < (refusals K MAX_FALLBACK_ATTEMPTS s₂.clock (offersOf s info o)).length) :
      (K.write (s₂.clock + k)).accepted = false := refusals_refused bound
  have after := forEach_refused info refusing
  have slots := fun d => after.saturated (d := d) clamped
  have irqs' := (congrArg State.irqs after.state).trans irqs
  have cpu' := after.objType.trans ((retrying.tree.objType o).trans cpu)
  generalize forEach (refusals K MAX_FALLBACK_ATTEMPTS s₂.clock (offersOf s info o))
    (refused K info) s₂ = s₃ at outcome slots irqs' cpu'
  cases taken : firstTaken K MAX_FALLBACK_ATTEMPTS s₂.clock (offersOf s info o) with
  | none =>
    rw [taken] at outcome
    dsimp only at outcome
    rw [outcome]
    simp only [Bool.false_eq_true, if_false, Option.isSome_none, or_false]
    exact requeued_saturated (by rw [irqs']; exact moved) (by rw [irqs']; exact assigned) (by rw [irqs']) slots
  | some c =>
    rw [taken] at outcome
    dsimp only at outcome
    rw [outcome]
    refine iff_of_true (fun d limit => ?_) (.inr rfl)
    rw [if_pos rfl]
    exact adoptFallback_saturated (s := setAssigned info c (wrote K info c s₃)) cpu' slots
      (fun d => foundFull_ne taken) limit

/-- One interrupt, number 24, which is balanced over CPUs. -/
def ethernetIrq : IrqSources where
  procIrqs := [{ irq := 24, irqClass := IRQ_ETH }]

/-- The interrupt has just been placed on CPU 0. -/
def placedOnCpu : State :=
  run fullKernel (boot (fun _ => CPU_MASK_NONE) [] []) [.rebuild sharedCache CPU_MASK_NONE ethernetIrq,
    .calculatePlacement]

/-- Entry 0 is the interrupt and object 1 is CPU 0. -/
theorem activateMapping_saturated_cpu :
    (∀ c, c = 1 ∨ FoundFull fullKernel (placedOnCpu.clock + 2)
        (fallbackAttempts fullKernel placedOnCpu (placedOnCpu.clock + 2) 0 1) c →
      ((activateMapping fullKernel 0 placedOnCpu).objs c).slotsLeft = SLOTS_SATURATED) ↔
    (placedOnCpu.irqs 0).level = .none ∨ FallbackTakes fullKernel placedOnCpu 0 1 := by
  have moved : (placedOnCpu.irqs 0).moved = true := by decide +kernel
  have assigned : (placedOnCpu.irqs 0).assignedObj = some 1 := by decide +kernel
  have cpu : (placedOnCpu.objs 1).objType = .cpu := by decide +kernel
  have differs : fullKernel.readable placedOnCpu.clock = true ∧
      placedOnCpu.affinity (placedOnCpu.irqs 0).irq ≠ appliedMask placedOnCpu 1 := by decide +kernel
  have full : (fullKernel.write (placedOnCpu.clock + 1)).error = some .ENOSPC := by decide +kernel
  exact activateMapping_saturated fullKernel placedOnCpu 0 1 moved assigned cpu differs full

/-- The level `core` declines a fallback, and the forced rebalance frees a slot on the full CPU. -/
theorem saturated_placedOnCpu : ¬ ∀ c, c = 1 ∨ FoundFull fullKernel (placedOnCpu.clock + 2)
      (fallbackAttempts fullKernel placedOnCpu (placedOnCpu.clock + 2) 0 1) c →
    ((activateMapping fullKernel 0 placedOnCpu).objs c).slotsLeft = SLOTS_SATURATED := by
  intro clamped
  have own := clamped 1 (.inl rfl)
  revert own
  decide +kernel

end Activation

end Irqbalance
