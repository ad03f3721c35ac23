import Irqbalance.Proofs.Location

/-! # What rebalancing can do

`update_migration_status` sorts interrupt lists, switches the powersave mode of CPUs and moves
interrupts from their objects to the rebalance list. `Balancing` lists these effects, and
`updateMigrationStatus_path` says that there are no others.
-/

namespace Irqbalance

open Relation (ReflTransGen)

variable {K : Env}

/-- One effect of `update_migration_status`. -/
inductive Balancing (s : State) : State → Prop
  | sorted (p : Option ObjRef) (l : List IrqRef) (perm : l.Perm (s.irqList p)) :
      Balancing s (s.setIrqList p l)
  | mode (on : Bool) {o : ObjRef} (member : o ∈ s.cpus) : Balancing s (setPowersaveMode on o s)
  | evicted {s' : State} {info : IrqRef} {o : ObjRef} (member : info ∈ s.irqList (some o))
      (level : (s.irqs info).level ≠ .none) (moved : Migrated (some o) none info s s') :
      Balancing s s'

section Effects

variable {s s' : State} {info : IrqRef}

theorem retained_mode {on : Bool} {o : ObjRef} : Retained s (setPowersaveMode on o s) :=
  retained_setObj rfl

theorem Balancing.located (effect : Balancing s s') (valid : Located s) : Located s' := by
  cases effect with
  | sorted p l perm => exact (retained_setIrqList perm).located valid
  | mode _ _ => exact retained_mode.located valid
  | evicted member level moved => exact moved.located member (fun _ => level) valid

theorem Balancing.sameTree (effect : Balancing s s') : SameTree s s' := by
  cases effect with
  | sorted _ _ _ => exact sameTree_setIrqList
  | mode _ _ => exact sameTree_setObj rfl rfl rfl rfl rfl
  | evicted _ _ moved => exact moved.tree

theorem Balancing.sameDb (effect : Balancing s s') : SameDb s s' := by
  cases effect with
  | sorted _ _ _ => exact sameDb_setIrqList
  | mode _ _ => exact sameDb_setObj
  | evicted _ _ moved => exact moved.db

theorem Balancing.sameKernel (effect : Balancing s s') : SameKernel s s' := by
  cases effect with
  | sorted _ _ _ => exact sameKernel_setIrqList
  | mode _ _ => exact sameKernel_setObj
  | evicted _ _ moved => exact moved.kernel

theorem Balancing.path_located (path : ReflTransGen Balancing s s') (valid : Located s) : Located s' :=
  path_preserves (fun _ _ valid effect => effect.located valid) valid path

theorem Balancing.path_sameTree (path : ReflTransGen Balancing s s') : SameTree s s' :=
  path_preserves (I := SameTree s) (fun _ _ same effect => same.trans effect.sameTree) (.refl s) path

theorem Balancing.path_sameDb (path : ReflTransGen Balancing s s') : SameDb s s' :=
  path_preserves (I := SameDb s) (fun _ _ same effect => same.trans effect.sameDb) (.refl s) path

/-- `force_rebalance_irq` of an entry that is in the list of an object, or may not be balanced. -/
theorem forceRebalanceIrq_path (valid : Located s) (member : info ∈ s.interruptsDb)
    {o : ObjRef} (assigned : (s.irqs info).assignedObj = some o) :
    ReflTransGen Balancing s (forceRebalanceIrq info s) := by
  simp only [forceRebalanceIrq, assigned]
  split
  · exact .refl
  · rename_i level
    have listed : info ∈ s.irqList (some o) := valid.listed member assigned
    exact .single (.evicted listed level (valid.migrated listed))

end Effects

section Overload

variable {s₀ s : State} {b : LoadBalanceInfo}

/-- `move_candidate_irqs` leaves the IRQ or queues it, and only the two running loads change. -/
theorem moveCandidateIrqs_cases (info : IrqRef) :
    moveCandidateIrqs K info (b, s) = (b, s) ∨
      ∃ adjusted least o, (s.irqs info).assignedObj = some o ∧ moveCandidateIrqs K info (b, s) =
        ({ b with adjustmentLoad := adjusted, minLoad := least }, forceRebalanceIrq info s) := by
  unfold moveCandidateIrqs
  cases assigned : (s.irqs info).assignedObj with
  | none =>
    simp only [assigned, ite_self]
    exact .inl trivial
  | some o =>
    simp only [assigned]
    by_cases level : (s.irqs info).level = .none
    · rw [if_pos level]; exact .inl rfl
    by_cases single : (s.objs o).interrupts.length ≤ 1
    · rw [if_neg level, if_pos single]; exact .inl rfl
    by_cases idle : (s.irqs info).load ≤ 1
    · rw [if_neg level, if_neg single, if_pos idle]; exact .inl rfl
    rw [if_neg level, if_neg single, if_neg idle]
    exact (ite_eq_or_eq _ _ _).symm.imp_right fun moved => ⟨_, _, o, rfl, moved⟩

theorem moveCandidateIrqs_path (valid : Located s) {info : IrqRef} (member : info ∈ s.interruptsDb) :
    ReflTransGen Balancing s (moveCandidateIrqs K info (b, s)).2 ∧
      (moveCandidateIrqs K info (b, s)).1.powersave = b.powersave := by
  rcases moveCandidateIrqs_cases (K := K) (b := b) (s := s) info with
    kept | ⟨adjusted, least, o, assigned, moved⟩
  · rw [kept]
    exact ⟨.refl, rfl⟩
  · rw [moved]
    exact ⟨forceRebalanceIrq_path valid member assigned, rfl⟩

theorem countOverUnder_powersave {o : ObjRef} {x : TopoObj} :
    (countOverUnder K o x b).powersave = b.powersave ∨
      (countOverUnder K o x b).powersave = some o := by
  unfold countOverUnder
  grind

theorem sortIrqList_effect (p : Option ObjRef) : Balancing s (sortIrqList K p s) :=
  .sorted p _ (List.perm_insertionSort _ _)

theorem migrateOverloadedIrqs_path (valid : Located s) {o : ObjRef} :
    ReflTransGen Balancing s (migrateOverloadedIrqs K o (b, s)).2 ∧
      ((migrateOverloadedIrqs K o (b, s)).1.powersave = b.powersave ∨
        (migrateOverloadedIrqs K o (b, s)).1.powersave = some o) := by
  have counted := countOverUnder_powersave (K := K) (b := b) (o := o) (x := s.objs o)
  unfold migrateOverloadedIrqs
  dsimp only
  split
  · obtain ⟨s₁, sorted⟩ : ∃ s₁, s₁ = sortIrqList K (some o) s := ⟨_, rfl⟩
    have effect : Balancing s s₁ := sorted ▸ sortIrqList_effect (some o)
    have valid₁ := effect.located valid
    rw [← sorted]
    have walk := forEach_preserves (l := (s₁.objs o).interrupts) (f := moveCandidateIrqs K)
      (s := ({ countOverUnder K o (s.objs o) b with adjustmentLoad := (s₁.objs o).load }, s₁))
      (I := fun acc => ReflTransGen Balancing s₁ acc.2 ∧
        acc.1.powersave = (countOverUnder K o (s.objs o) b).powersave)
      ⟨.refl, rfl⟩ (fun info member acc walked => by
        have located := Balancing.path_located walked.1 valid₁
        have memberDb : info ∈ acc.2.interruptsDb := by
          rw [(Balancing.path_sameDb walked.1).interruptsDb]
          exact valid₁.mem_db (p := some o) member
        have next := moveCandidateIrqs_path (K := K) (b := acc.1) located memberDb
        exact ⟨walked.1.trans next.1, next.2.trans walked.2⟩)
    exact ⟨.head effect walk.1, by rw [walk.2]; exact counted⟩
  · exact ⟨.refl, counted⟩

/-- The statistics count no object. -/
theorem loadStats_counters (objs : List ObjRef) (s : State) : (loadStats objs s).numOver = 0 ∧
    (loadStats objs s).numUnder = 0 ∧ (loadStats objs s).numPowersave = 0 ∧
      (loadStats objs s).powersave = none := by
  let uncounted (info : LoadBalanceInfo) : Prop :=
    info.numOver = 0 ∧ info.numUnder = 0 ∧ info.numPowersave = 0 ∧ info.powersave = none
  have gathered : uncounted (forEach objs (fun o => gatherLoadStats (s.objs o)) {}) :=
    forEach_preserves (I := uncounted) ⟨rfl, rfl, rfl, rfl⟩ fun _ _ _ none => none
  unfold loadStats
  exact forEach_preserves (I := uncounted) gathered fun _ _ _ none => none

theorem findOverloadedObjs_path (valid : Located s) (objs : List ObjRef) :
    ReflTransGen Balancing s (findOverloadedObjs K objs s).2 ∧
      ∀ o, (findOverloadedObjs K objs s).1.powersave = some o → o ∈ objs := by
  refine forEach_preserves (I := fun acc : LoadBalanceInfo × State =>
    ReflTransGen Balancing s acc.2 ∧ ∀ o, acc.1.powersave = some o → o ∈ objs) ⟨.refl, ?_⟩ ?_
  · intro o chosen
    rw [(loadStats_counters _ _).2.2.2] at chosen
    contradiction
  · rintro o member ⟨b, s'⟩ ⟨path, candidates⟩
    obtain ⟨next, choice⟩ := migrateOverloadedIrqs_path (K := K) (b := b) (o := o)
      (Balancing.path_located path valid)
    refine ⟨path.trans next, fun o' chosen => ?_⟩
    rcases choice with same | own
    · exact candidates o' (same ▸ chosen)
    · exact Option.some.inj (own.symm.trans chosen) ▸ member

end Overload

section Status

variable {s : State}

/-- Emptying the list of an object that enters powersave mode. -/
theorem evictAll_path (valid : Located s) (o : ObjRef) :
    ReflTransGen Balancing s (forEach (s.objs o).interrupts forceRebalanceIrq s) := by
  refine forEach_pending (I := ReflTransGen Balancing s)
    (R := fun info s' => (s'.irqs info).assignedObj = some o)
    (valid.filed.nodup (some o)) .refl ?_ ?_ ?_
  · intro info member
    exact valid.assigned (p := some o) member
  · intro info member s' path assigned
    have memberDb : info ∈ s'.interruptsDb := by
      rw [(Balancing.path_sameDb path).interruptsDb]
      exact valid.mem_db (p := some o) member
    exact path.trans (forceRebalanceIrq_path (Balancing.path_located path valid) memberDb assigned)
  · intro x memberX y _ other s' path assignedX assignedY
    have valid' := Balancing.path_located path valid
    have memberDb : x ∈ s'.interruptsDb := by
      rw [(Balancing.path_sameDb path).interruptsDb]
      exact valid.mem_db (p := some o) memberX
    simp only [forceRebalanceIrq, assignedX]
    split
    · exact assignedY
    · have listed : x ∈ s'.irqList (some o) := valid'.listed memberDb assignedX
      rw [(valid'.migrated listed).other other]
      exact assignedY

theorem updatePowersave_path (valid : Located s) {b : LoadBalanceInfo}
    (candidate : ∀ o, b.powersave = some o → o ∈ s.cpus) :
    ReflTransGen Balancing s (updatePowersave K b s) := by
  unfold updatePowersave
  split
  · exact .refl
  split
  · exact .refl
  split
  · rename_i o chosen
    have effect : Balancing s (setPowersaveMode true o s) :=
      .mode true (candidate o (Option.eq_some_of_filter_eq_some chosen))
    dsimp only
    split
    · exact .head effect (evictAll_path (effect.located valid) o)
    · exact .single effect
  · split
    · apply forEach_preserves (I := ReflTransGen Balancing s) .refl
      intro o member s' path
      refine path.tail (.mode false ?_)
      rw [(Balancing.path_sameTree path).cpus]
      exact member
    · exact .refl

/-- `update_migration_status` has no other effects. -/
theorem updateMigrationStatus_path (valid : Located s) :
    ReflTransGen Balancing s (updateMigrationStatus K s) := by
  obtain ⟨cpus, candidate⟩ := findOverloadedObjs_path (K := K) valid s.cpus
  unfold updateMigrationStatus
  generalize findOverloadedObjs K s.cpus s = first at cpus candidate ⊢
  obtain ⟨b, s₁⟩ := first
  have valid₁ := Balancing.path_located cpus valid
  have modes : ReflTransGen Balancing s₁ (updatePowersave K b s₁) :=
    updatePowersave_path valid₁ fun o chosen => by
      rw [(Balancing.path_sameTree cpus).cpus]
      exact candidate o chosen
  dsimp only
  generalize updatePowersave K b s₁ = s₂ at modes ⊢
  have valid₂ := Balancing.path_located modes valid₁
  have caches := (findOverloadedObjs_path (K := K) valid₂ s₂.cacheDomains).1
  generalize (findOverloadedObjs K s₂.cacheDomains s₂).2 = s₃ at caches ⊢
  have valid₃ := Balancing.path_located caches valid₂
  have packages := (findOverloadedObjs_path (K := K) valid₃ s₃.packages).1
  generalize (findOverloadedObjs K s₃.packages s₃).2 = s₄ at packages ⊢
  have valid₄ := Balancing.path_located packages valid₃
  have nodes := (findOverloadedObjs_path (K := K) valid₄ s₄.numaNodes).1
  exact cpus.trans (modes.trans (caches.trans (packages.trans nodes)))

end Status

end Irqbalance
