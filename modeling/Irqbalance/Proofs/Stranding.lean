import Irqbalance.Proofs.Powersave

/-! # How many CPUs sleep

`update_migration_status` decides about powersave mode from the loads of all CPUs, those that sleep
included. It puts one CPU to sleep that is awake and stands below the average by a deviation, whether
or not another one is awake. A machine keeps a CPU awake exactly as long as no cycle does this to its
last one.
-/

namespace Irqbalance

variable {K : Env}

/-- What the statistics and the powersave decision look at is the same. -/
structure SameLoads (s s' : State) : Prop where
  cpus : s'.cpus = s.cpus
  cycleCount : s'.cycleCount = s.cycleCount
  load : ∀ o, (s'.objs o).load = (s.objs o).load
  powersaveMode : ∀ o, (s'.objs o).powersaveMode = (s.objs o).powersaveMode

section Loads

variable {s s' s'' : State} {info : IrqRef} {o : ObjRef}

theorem SameLoads.refl (s : State) : SameLoads s s := ⟨rfl, rfl, fun _ => rfl, fun _ => rfl⟩

theorem SameLoads.trans (first : SameLoads s s') (second : SameLoads s' s'') : SameLoads s s'' where
  cpus := second.cpus.trans first.cpus
  cycleCount := second.cycleCount.trans first.cycleCount
  load o := (second.load o).trans (first.load o)
  powersaveMode o := (second.powersaveMode o).trans (first.powersaveMode o)

theorem sameLoads_setIrqList (p : Option ObjRef) (l : List IrqRef) : SameLoads s (s.setIrqList p l) where
  cpus := rfl
  cycleCount := rfl
  load o := by
    simp only [State.setIrqList]
    split <;> rfl
  powersaveMode o := by
    simp only [State.setIrqList]
    split <;> rfl

theorem sameLoads_setObj {obj : TopoObj} (load : obj.load = (s.objs o).load)
    (mode : obj.powersaveMode = (s.objs o).powersaveMode) : SameLoads s (s.setObj o obj) where
  cpus := rfl
  cycleCount := rfl
  load := setObj_field TopoObj.load load
  powersaveMode := setObj_field TopoObj.powersaveMode mode

theorem sameLoads_setIrq {entry : IrqInfo} : SameLoads s (s.setIrq info entry) :=
  ⟨rfl, rfl, fun _ => rfl, fun _ => rfl⟩

theorem sameLoads_release : SameLoads s (s.setObj o (releaseSlot (s.objs o))) := by
  refine sameLoads_setObj ?_ ?_ <;> unfold releaseSlot <;> split <;> rfl

/-- An interrupt that is taken from an object leaves the loads alone. -/
theorem migrateIrqObj_loads (src : Option ObjRef) : SameLoads s (migrateIrqObj src none info s) := by
  have unlinked (src : Option ObjRef) : SameLoads s (migrateIrq src none info s) := by
    unfold migrateIrq
    split
    · exact .refl s
    · exact ((sameLoads_setIrqList _ _).trans (sameLoads_setIrqList _ _)).trans sameLoads_setIrq
  unfold migrateIrqObj
  dsimp only
  generalize (if src.isNone then (s.irqs info).assignedObj else src) = src
  split
  · exact unlinked src
  · cases src with
    | none => exact (unlinked none).trans sameLoads_setIrq
    | some o => exact ((unlinked (some o)).trans sameLoads_release).trans sameLoads_setIrq

theorem forceRebalanceIrq_loads : SameLoads s (forceRebalanceIrq info s) := by
  unfold forceRebalanceIrq
  split
  · exact .refl s
  · split
    · exact ⟨rfl, rfl, fun _ => rfl, fun _ => rfl⟩
    · exact migrateIrqObj_loads _

end Loads

section Statistics

variable {s s' : State} {b b' : LoadBalanceInfo} {o : ObjRef}

/-- The average and the deviation are the same. -/
structure SameStats (b b' : LoadBalanceInfo) : Prop where
  loadSources : b'.loadSources = b.loadSources
  deviations : b'.deviations = b.deviations
  avgLoad : b'.avgLoad = b.avgLoad

theorem SameStats.trans {b'' : LoadBalanceInfo} (first : SameStats b b') (second : SameStats b' b'') :
    SameStats b b'' where
  loadSources := second.loadSources.trans first.loadSources
  deviations := second.deviations.trans first.deviations
  avgLoad := second.avgLoad.trans first.avgLoad

theorem SameStats.under (same : SameStats b b') (loads : SameLoads s s') :
    b'.under K (s'.objs o) = b.under K (s.objs o) := by
  simp only [LoadBalanceInfo.under, same.loadSources, same.deviations, same.avgLoad, loads.load]

theorem SameStats.over (same : SameStats b b') (loads : SameLoads s s') :
    b'.over K (s'.objs o) = b.over K (s.objs o) := by
  simp only [LoadBalanceInfo.over, same.loadSources, same.deviations, same.avgLoad, loads.load]

/-- The counters of two records are the same. -/
structure SameCounts (b b' : LoadBalanceInfo) : Prop extends SameStats b b' where
  numOver : b'.numOver = b.numOver
  numUnder : b'.numUnder = b.numUnder
  numPowersave : b'.numPowersave = b.numPowersave
  powersave : b'.powersave = b.powersave

theorem SameCounts.refl (b : LoadBalanceInfo) : SameCounts b b := ⟨⟨rfl, rfl, rfl⟩, rfl, rfl, rfl, rfl⟩

theorem moveCandidateIrqs_counts (info : IrqRef) : SameCounts b (moveCandidateIrqs K info (b, s)).1 ∧
    SameLoads s (moveCandidateIrqs K info (b, s)).2 := by
  rcases moveCandidateIrqs_cases (K := K) (b := b) (s := s) info with
    kept | ⟨adjusted, least, o, assigned, moved⟩
  · rw [kept]
    exact ⟨.refl b, .refl s⟩
  · rw [moved]
    exact ⟨⟨⟨rfl, rfl, rfl⟩, rfl, rfl, rfl, rfl⟩, forceRebalanceIrq_loads⟩

theorem SameCounts.trans {b'' : LoadBalanceInfo} (first : SameCounts b b') (second : SameCounts b' b'') :
    SameCounts b b'' where
  toSameStats := first.toSameStats.trans second.toSameStats
  numOver := second.numOver.trans first.numOver
  numUnder := second.numUnder.trans first.numUnder
  numPowersave := second.numPowersave.trans first.numPowersave
  powersave := second.powersave.trans first.powersave

/-- What `count_over_under` adds for an object. -/
structure CountsObject (K : Env) (o : ObjRef) (obj : TopoObj) (b b' : LoadBalanceInfo) : Prop
    extends SameStats b b' where
  numOver : b'.numOver = b.numOver + (!b.under K obj && b.over K obj).toNat
  numUnder : b'.numUnder = b.numUnder + (b.under K obj).toNat
  numPowersave : b'.numPowersave = b.numPowersave + obj.powersaveMode.toNat
  powersave : b'.powersave =
    if K.powerThresh.isSome && b.powersave.isNone && (b.under K obj && !obj.powersaveMode) then some o
    else b.powersave

theorem countOverUnder_counts (obj : TopoObj) : CountsObject K o obj b (countOverUnder K o obj b) := by
  have same (n : ℕ) : ({ b with numPowersave := n }).under K obj = b.under K obj ∧
      ({ b with numPowersave := n }).over K obj = b.over K obj := ⟨rfl, rfl⟩
  unfold countOverUnder
  cases mode : obj.powersaveMode <;> cases below : b.under K obj <;> cases above : b.over K obj <;>
    simp only [same, below, above, if_true, if_false, Bool.false_eq_true] <;>
    constructor <;> first | exact ⟨rfl, rfl, rfl⟩ | simp [mode, below, above]

/-- `migrate_overloaded_irqs` counts its object, and moves interrupts without changing a load. -/
theorem migrateOverloadedIrqs_counts : SameCounts (countOverUnder K o (s.objs o) b)
      (migrateOverloadedIrqs K o (b, s)).1 ∧ SameLoads s (migrateOverloadedIrqs K o (b, s)).2 := by
  unfold migrateOverloadedIrqs
  dsimp only
  split
  · refine forEach_preserves (I := fun acc : LoadBalanceInfo × State =>
      SameCounts (countOverUnder K o (s.objs o) b) acc.1 ∧ SameLoads s acc.2) ?_ ?_
    · exact ⟨⟨⟨rfl, rfl, rfl⟩, rfl, rfl, rfl, rfl⟩, sameLoads_setIrqList _ _⟩
    · rintro info _ ⟨b₁, s₁⟩ ⟨counts, loads⟩
      have next := moveCandidateIrqs_counts (K := K) (b := b₁) (s := s₁) info
      exact ⟨counts.trans next.1, loads.trans next.2⟩
  · exact ⟨.refl _, .refl s⟩

end Statistics

/-- The CPU stands below the average by a deviation. -/
def under (K : Env) (objs : List ObjRef) (s : State) (o : ObjRef) : Bool :=
  (loadStats objs s).under K (s.objs o)

/-- The CPU stands above the average by a deviation, and not below it. -/
def overloaded (K : Env) (objs : List ObjRef) (s : State) (o : ObjRef) : Bool :=
  !(loadStats objs s).under K (s.objs o) && (loadStats objs s).over K (s.objs o)

section Counting

variable {s : State} {objs : List ObjRef}

/-- The counters once the objects in front have been counted. -/
structure Counted (K : Env) (objs : List ObjRef) (s : State) (front : List ObjRef)
    (acc : LoadBalanceInfo × State) : Prop extends SameStats (loadStats objs s) acc.1 where
  loads : SameLoads s acc.2
  numOver : acc.1.numOver = front.countP (overloaded K objs s)
  numUnder : acc.1.numUnder = front.countP (under K objs s)
  numPowersave : acc.1.numPowersave = front.countP fun o => (s.objs o).powersaveMode
  powersave : acc.1.powersave =
    if K.powerThresh.isSome then front.find? fun o => under K objs s o && !(s.objs o).powersaveMode else none

theorem Counted.next {front : List ObjRef} {acc : LoadBalanceInfo × State} {o : ObjRef}
    (counted : Counted K objs s front acc) :
    Counted K objs s (front ++ [o]) (migrateOverloadedIrqs K o acc) := by
  obtain ⟨b, s'⟩ := acc
  obtain ⟨stats, loads, numOver, numUnder, numPowersave, powersave⟩ := counted
  obtain ⟨counts, after⟩ := migrateOverloadedIrqs_counts (K := K) (b := b) (s := s') (o := o)
  have seen := countOverUnder_counts (K := K) (o := o) (b := b) (s'.objs o)
  have below : b.under K (s'.objs o) = under K objs s o := stats.under loads
  have above : (!b.under K (s'.objs o) && b.over K (s'.objs o)) = overloaded K objs s o := by
    rw [below, stats.over loads]
    rfl
  have toNat (c : Bool) : c.toNat = if c then 1 else 0 := by cases c <;> rfl
  constructor
  · exact (stats.trans seen.toSameStats).trans counts.toSameStats
  · exact loads.trans after
  · rw [counts.numOver, seen.numOver, above, numOver, List.countP_append, List.countP_singleton, toNat]
  · rw [counts.numUnder, seen.numUnder, below, numUnder, List.countP_append, List.countP_singleton, toNat]
  · rw [counts.numPowersave, seen.numPowersave, loads.powersaveMode, numPowersave, List.countP_append,
      List.countP_singleton, toNat]
  · rw [counts.powersave, seen.powersave, below, loads.powersaveMode, powersave, List.find?_append]
    cases K.powerThresh.isSome with
    | false => rfl
    | true =>
      cases front.find? fun c => under K objs s c && !(s.objs c).powersaveMode with
      | some _ => rfl
      | none => simp [List.find?_singleton]

theorem findOverloadedObjs_counted : Counted K objs s objs (findOverloadedObjs K objs s) := by
  have walk (front rest : List ObjRef) (acc : LoadBalanceInfo × State)
      (counted : Counted K objs s front acc) :
      Counted K objs s (front ++ rest) (forEach rest (migrateOverloadedIrqs K) acc) := by
    induction rest generalizing front acc with
    | nil => rwa [List.append_nil]
    | cons o rest ih =>
      have next := ih (front ++ [o]) _ counted.next
      rwa [List.append_assoc, List.singleton_append] at next
  obtain ⟨numOver, numUnder, numPowersave, powersave⟩ := loadStats_counters objs s
  refine walk [] objs (loadStats objs s, s) ⟨⟨rfl, rfl, rfl⟩, .refl s, numOver, numUnder, numPowersave, ?_⟩
  rw [powersave]
  exact (ite_self _).symm

end Counting

section Decision

variable {s : State} {o : ObjRef}

/-- The decision puts the last CPU to sleep that is awake: it stands below the average by a
deviation, no CPU stands above it by one, and enough CPUs stand below. -/
def LastGoesToSleep (K : Env) (s : State) : Prop :=
  ∃ thresh o, K.powerThresh = some thresh ∧ 5 < s.cycleCount ∧ o ∈ s.cpus ∧
    (∀ c ∈ s.cpus, (s.objs c).powersaveMode = false ↔ c = o) ∧ under K s.cpus s o = true ∧
    (∀ c ∈ s.cpus, overloaded K s.cpus s c = false) ∧ thresh ≤ s.cpus.countP (under K s.cpus s)

/-- A CPU that takes interrupts. -/
def SomeAwake (s : State) : Prop := ∃ o ∈ s.cpus, (s.objs o).powersaveMode = false

theorem someAwake_congr {s' : State} (cpus : s'.cpus = s.cpus)
    (powersaveMode : ∀ o, (s'.objs o).powersaveMode = (s.objs o).powersaveMode) :
    SomeAwake s' ↔ SomeAwake s := by
  simp only [SomeAwake, cpus, powersaveMode]

theorem SameLoads.someAwake {s' : State} (same : SameLoads s s') : SomeAwake s' ↔ SomeAwake s :=
  someAwake_congr same.cpus same.powersaveMode

theorem forEach_wakes {l : List ObjRef} (member : o ∈ l) :
    ((forEach l (setPowersaveMode false) s).objs o).powersaveMode = false := by
  refine forEach_establishes (I := fun _ => True)
    (Q := fun s : State => (s.objs o).powersaveMode = false) member trivial (fun _ _ _ _ => trivial) ?_ ?_
  · intro s _
    simp [setPowersaveMode, State.setObj]
  · intro c _ s _ awake
    exact forall_setObj (P := fun d x => (s.objs d).powersaveMode = false → x.powersaveMode = false)
      (fun _ => rfl) (fun _ _ => id) o awake

theorem forEach_wakes_cpus (l : List ObjRef) : (forEach l (setPowersaveMode false) s).cpus = s.cpus :=
  forEach_preserves (I := fun s' : State => s'.cpus = s.cpus) rfl fun _ _ _ same => same

/-- The last CPU that is awake is the candidate of the statistics. -/
theorem LastGoesToSleep.candidate {b : LoadBalanceInfo} {s' : State} {thresh : ℕ}
    (counted : Counted K s.cpus s s.cpus (b, s')) (given : K.powerThresh = some thresh)
    (last : LastGoesToSleep K s) :
    (b.powersave.filter fun _ => decide (b.numOver = 0 ∧ thresh ≤ b.numUnder)) ≠ none := by
  obtain ⟨_, o, given', _, member, alone, below, above, enough⟩ := last
  obtain rfl := Option.some.inj (given'.symm.trans given)
  have found : (s.cpus.find? fun c => under K s.cpus s c && !(s.objs c).powersaveMode).isSome := by
    rw [List.find?_isSome]
    exact ⟨o, member, by simp [below, (alone o member).mpr rfl]⟩
  obtain ⟨c, first⟩ := Option.isSome_iff_exists.mp found
  have chosen : b.powersave = some c := by
    rw [counted.powersave, given, ← first]
    rfl
  have none : b.numOver = 0 := by
    rw [counted.numOver, List.countP_eq_zero]
    intro c cpu
    rw [above c cpu]
    exact Bool.false_ne_true
  rw [← counted.numUnder] at enough
  simp [chosen, none, enough]

/-- A CPU enters powersave mode, and some other one is awake or it was the last. -/
theorem sleep_someAwake {b : LoadBalanceInfo} {s' : State} {thresh : ℕ}
    (counted : Counted K s.cpus s s.cpus (b, s')) (given : K.powerThresh = some thresh)
    (late : 5 < s.cycleCount)
    (chosen : (b.powersave.filter fun _ => decide (b.numOver = 0 ∧ thresh ≤ b.numUnder)) = some o) :
    SomeAwake (setPowersaveMode true o s') ↔ ¬ LastGoesToSleep K s := by
  obtain ⟨candidate, limits⟩ := Option.filter_eq_some_iff.mp chosen
  obtain ⟨idle, enough⟩ := of_decide_eq_true limits
  rw [counted.powersave, given] at candidate
  have first : (s.cpus.find? fun c => under K s.cpus s c && !(s.objs c).powersaveMode) = some o := candidate
  have member := List.mem_of_find?_eq_some first
  obtain ⟨below, sleeps⟩ : under K s.cpus s o = true ∧ (s.objs o).powersaveMode = false := by
    simpa using List.find?_some first
  rw [counted.numOver, List.countP_eq_zero] at idle
  rw [counted.numUnder] at enough
  have mode (c : ObjRef) : ((setPowersaveMode true o s').objs c).powersaveMode = false ↔
      (s.objs c).powersaveMode = false ∧ c ≠ o := by
    by_cases same : c = o
    · subst same
      simp [setPowersaveMode, State.setObj]
    · simpa [setPowersaveMode, State.setObj, same] using
        iff_of_eq (congrArg (· = false) (counted.loads.powersaveMode c))
  have cpus : (setPowersaveMode true o s').cpus = s.cpus := counted.loads.cpus
  constructor
  · rintro ⟨c, cpu, awake⟩ ⟨_, last, _, _, _, alone, _⟩
    rw [cpus] at cpu
    obtain ⟨awake, other⟩ := (mode c).mp awake
    exact other (((alone c cpu).mp awake).trans ((alone o member).mp sleeps).symm)
  · intro others
    by_contra stranded
    refine others ⟨thresh, o, given, late, member, fun c cpu => ⟨fun awake => ?_, ?_⟩, below,
      fun c cpu => Bool.eq_false_iff.mpr (idle c cpu), enough⟩
    · by_contra other
      exact stranded ⟨c, cpus ▸ cpu, (mode c).mpr ⟨awake, other⟩⟩
    · rintro rfl
      exact sleeps

/-- One decision leaves a CPU awake unless it takes the last one. -/
theorem updatePowersave_someAwake {b : LoadBalanceInfo} {s' : State}
    (counted : Counted K s.cpus s s.cpus (b, s')) (awake : SomeAwake s) :
    SomeAwake (updatePowersave K b s') ↔ ¬ LastGoesToSleep K s := by
  have before : SomeAwake s' := counted.loads.someAwake.mpr awake
  unfold updatePowersave
  cases given : K.powerThresh with
  | none =>
    apply iff_of_true before
    rintro ⟨_, _, given', _⟩
    rw [given] at given'
    contradiction
  | some thresh =>
    dsimp only
    split
    · rename_i early
      rw [counted.loads.cycleCount] at early
      apply iff_of_true before
      rintro ⟨_, _, _, late, _⟩
      omega
    · rename_i late
      rw [counted.loads.cycleCount, Nat.not_le] at late
      cases chosen : b.powersave.filter fun _ => decide (b.numOver = 0 ∧ thresh ≤ b.numUnder) with
      | some o =>
        rw [← sleep_someAwake counted given late chosen]
        dsimp only
        split
        · apply SameLoads.someAwake
          exact forEach_preserves (I := SameLoads (setPowersaveMode true o s')) (.refl _)
            fun info _ _ same => same.trans forceRebalanceIrq_loads
        · exact Iff.rfl
      | none =>
        refine iff_of_true ?_ fun last => last.candidate counted given chosen
        dsimp only
        split
        · obtain ⟨o, cpu, _⟩ := before
          exact ⟨o, by rw [forEach_wakes_cpus]; exact cpu, forEach_wakes cpu⟩
        · exact before

theorem updateMigrationStatus_someAwake (awake : SomeAwake s) :
    SomeAwake (updateMigrationStatus K s) ↔ ¬ LastGoesToSleep K s := by
  have counted : Counted K s.cpus s s.cpus (findOverloadedObjs K s.cpus s) := findOverloadedObjs_counted
  unfold updateMigrationStatus
  generalize findOverloadedObjs K s.cpus s = acc at counted ⊢
  obtain ⟨b, s'⟩ := acc
  rw [← updatePowersave_someAwake counted awake]
  dsimp only
  have other (objs : List ObjRef) (s : State) : SomeAwake (findOverloadedObjs K objs s).2 ↔ SomeAwake s :=
    findOverloadedObjs_counted.loads.someAwake
  rw [other, other, other]

end Decision

section Runs

variable {s : State}

/-- While a machine has more than one CPU, one of them is awake. -/
def NotStranded (s : State) : Prop := 2 ≤ s.cpus.length → SomeAwake s

theorem step_notStranded (op : Op) (valid : Located s) (awake : NotStranded s)
    (spared : op = .updateMigrationStatus → 2 ≤ s.cpus.length → ¬ LastGoesToSleep K s) :
    NotStranded (step K s op) := by
  have unchanged {s' : State} (tree : SameTree s s')
      (modes : ∀ o, (s'.objs o).powersaveMode = (s.objs o).powersaveMode) : NotStranded s' := by
    intro several
    rw [tree.cpus] at several
    exact (someAwake_congr tree.cpus modes).mpr (awake several)
  cases op with
  | rebuild m banned src =>
    intro several
    obtain ⟨o, cpu⟩ := List.exists_mem_of_length_pos (Nat.lt_of_lt_of_le Nat.zero_lt_two several)
    exact ⟨o, cpu, (rebuild_spec m banned src s).awake o⟩
  | hotplug src irq hint =>
    cases found : getIrqInfo irq s with
    | some _ =>
      simp only [step, found, Option.isSome_some, if_true]
      exact awake
    | none =>
      have grown := (hotplug_spec (K := K) src irq hint found valid).2
      simp only [step, found, Option.isSome_none, Bool.false_eq_true, if_false]
      exact unchanged grown.tree fun o => by rw [grown.objs]
  | clearNoExisting =>
    have path := clearNoExistingIrqs_path valid
    exact unchanged (Vanishing.path_sameTree path) (Vanishing.path_powersaveMode path)
  | updateMigrationStatus =>
    intro several
    have same : (step K s .updateMigrationStatus).cpus = s.cpus :=
      (Balancing.path_sameTree (updateMigrationStatus_path valid)).cpus
    rw [same] at several
    exact (updateMigrationStatus_someAwake (awake several)).mpr (spared rfl several)
  | calculatePlacement =>
    have path := calculatePlacement_path (K := K) valid
    exact unchanged (Placing.path_sameTree path) (Placing.path_powersaveMode path)
  | activateMappings =>
    have path := activateMappings_path (K := K) valid
    exact unchanged (Activating.path_sameTree path) (Activating.path_powersaveMode path)
  | account objs irqs cycle bans => exact awake

/-- In every run, every update of the migration status leaves a CPU awake exactly when none of them
puts the last one to sleep. -/
theorem run_neverStranded (K : Env) (affinity : ℤ → CpuMask) (bans : List ℤ)
    (modules : List (List Char)) (ops : List Op) :
    EachStep (step K) (fun s op => op = .updateMigrationStatus → 2 ≤ s.cpus.length →
        SomeAwake (step K s op)) (boot affinity bans modules) ops ↔
      EachStep (step K) (fun s op => op = .updateMigrationStatus → 2 ≤ s.cpus.length →
        ¬ LastGoesToSleep K s) (boot affinity bans modules) ops := by
  constructor
  · refine EachStep.of_invariant (I := fun _ => True) trivial fun s op _ awake => ⟨trivial, ?_⟩
    rintro rfl several last
    have before : SomeAwake s := by
      obtain ⟨_, o, _, _, member, alone, _⟩ := last
      exact ⟨o, member, (alone o member).mpr rfl⟩
    exact (updateMigrationStatus_someAwake before).mp (awake rfl several) last
  · refine EachStep.of_invariant (I := fun s => Located s ∧ NotStranded s)
      ⟨boot_located affinity bans modules, fun several => by contradiction⟩ ?_
    rintro s op ⟨valid, awake⟩ spared
    have next := step_notStranded op valid awake spared
    refine ⟨⟨step_located op valid, next⟩, ?_⟩
    rintro rfl several
    exact (updateMigrationStatus_someAwake (awake several)).mpr (spared rfl several)

/-- `--powerthresh=1`. -/
def thresholdOne : Env where
  powerThresh := some 1
  underAverage load variance avg := decide (load ≤ avg ∧ variance ≤ (avg - load) ^ 2)
  overAverage load variance avg := decide (avg ≤ load ∧ variance ≤ (load - avg) ^ 2)

/-- Two cycles of a machine whose CPUs are loaded alike. -/
def evenLoad : List Op :=
  [.rebuild sharedCache CPU_MASK_NONE legacyIrq,
    .account (fun _ => ⟨1000, 1000, 10⟩) (fun _ => ⟨10, 0, 10, true⟩) 6 [],
    .updateMigrationStatus,
    .account (fun _ => ⟨1000, 1000, 10⟩) (fun _ => ⟨10, 0, 10, true⟩) 7 [],
    .updateMigrationStatus]

/-- A CPU at the average is no deviation below it, but it counts as such when all loads are equal:
the first cycle puts CPU 0 to sleep and the second one CPU 1. -/
theorem neverStranded_evenLoad : ¬ EachStep (step thresholdOne)
    (fun s op => op = .updateMigrationStatus → 2 ≤ s.cpus.length → SomeAwake (step thresholdOne s op))
    (boot (fun _ => CPU_MASK_NONE) [] []) evenLoad := by
  rintro ⟨_, _, _, _, awake, _⟩
  obtain ⟨o, cpu, mode⟩ := awake rfl (by decide +kernel)
  revert o
  decide +kernel

end Runs

end Irqbalance
