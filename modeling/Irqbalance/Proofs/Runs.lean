import Irqbalance.Proofs.Activation
import Irqbalance.Proofs.Balance
import Irqbalance.Proofs.Database
import Irqbalance.Proofs.Placement
import Irqbalance.Proofs.Shape

/-! # Every operation keeps every interrupt where it belongs

One specification for each operation of a run, and from these the invariant of all runs that
start with empty databases.
-/

namespace Irqbalance

open Relation (ReflTransGen)

variable {K : Env}

section Clearing

variable {s : State} {d c : ObjRef}

theorem setUnprobed_adjusted (d : ObjRef) : Adjusted s (setSlots d INT_MAX s) :=
  adjusted_setObj (s.objs d).load INT_MAX fun _ => rfl

theorem clearObjSlots_adjusted (fuel : ℕ) (d : ObjRef) : Adjusted s (clearObjSlots fuel d s) := by
  induction fuel generalizing d s with
  | zero => exact .refl s
  | succ fuel ih =>
    exact forEach_preserves (I := Adjusted s) (setUnprobed_adjusted d)
      fun c _ s' adjusted => adjusted.trans (ih c)

theorem clearObjSlots_self (fuel : ℕ) (d : ObjRef) :
    ((clearObjSlots (fuel + 1) d s).objs d).slotsLeft = INT_MAX := by
  refine forEach_preserves (I := fun s' : State => (s'.objs d).slotsLeft = INT_MAX) ?_
    fun c _ s' unprobed => (clearObjSlots_adjusted fuel c).unprobed d unprobed
  simp [State.setObj]

theorem clearObjSlots_child (fuel : ℕ) (child : c ∈ (s.objs d).children) :
    ((clearObjSlots (fuel + 2) d s).objs c).slotsLeft = INT_MAX := by
  have member : c ∈ ((setSlots d INT_MAX s).objs d).children := by
    rw [(setUnprobed_adjusted d).tree.children]
    exact child
  exact forEach_establishes (I := fun _ => True) (f := clearObjSlots (fuel + 1))
    (Q := fun s' => (s'.objs c).slotsLeft = INT_MAX) member trivial (fun _ _ _ _ => trivial)
    (fun s' _ => clearObjSlots_self fuel c)
    fun c' _ s' _ unprobed => (clearObjSlots_adjusted (fuel + 1) c').unprobed c unprobed

theorem clearSlots_adjusted : Adjusted s (clearSlots s) :=
  forEach_preserves (I := Adjusted s) (.refl s)
    fun d _ _ adjusted => adjusted.trans (clearObjSlots_adjusted 4 d)

/-- The children of every node have unprobed slots. -/
theorem clearSlots_child (node : d ∈ s.numaNodes) (child : c ∈ (s.objs d).children) :
    ((clearSlots s).objs c).slotsLeft = INT_MAX :=
  forEach_establishes (I := Adjusted s) (f := clearObjSlots 4)
    (Q := fun s' => (s'.objs c).slotsLeft = INT_MAX) node (.refl s)
    (fun d' _ _ adjusted => adjusted.trans (clearObjSlots_adjusted 4 d'))
    (fun s' adjusted => clearObjSlots_child 2 (by rw [adjusted.tree.children]; exact child))
    fun d' _ _ _ unprobed => (clearObjSlots_adjusted 4 d').unprobed c unprobed

theorem Adjusted.retained {s s' : State} (adjusted : Adjusted s s') : Retained s s' :=
  .of_irqs adjusted.db adjusted.irqs adjusted.lists

end Clearing

section Rebuilding

variable {s : State}

/-- What a rebuild leaves behind. -/
structure Rebuilt (s s' : State) : Prop where
  located : Located s'
  kernel : SameKernel s s'
  entry : ∀ i ∈ s'.interruptsDb, ∃ irq, Blank s' irq (s'.irqs i)
  banning : Banning s'
  usable : ∀ o, (s'.objs o).objType ≠ .node → (s'.objs o).mask &&& s'.bannedCpus = CPU_MASK_NONE
  nests : ∀ o, ∀ c ∈ (s'.objs o).children, (s'.objs o).objType.nests (s'.objs c).objType
  nodes : ∀ o ∈ s'.numaNodes, (s'.objs o).objType = .node
  cpus : ∀ o ∈ s'.cpus, (s'.objs o).objType = .cpu
  awake : ∀ o, (s'.objs o).powersaveMode = false
  unprobed : ∀ n ∈ s'.numaNodes, ∀ c ∈ (s'.objs n).children, (s'.objs c).slotsLeft = INT_MAX

/-- Empty databases over a new topology. -/
theorem freeIrqDb_consistent (shaped : Shaped s) : Consistent (freeIrqDb s) where
  distinct := List.nodup_nil
  fresh _ none := by contradiction
  filed := by
    have lists : (freeIrqDb s).irqList = fun _ => [] := by
      funext p
      cases p with
      | none => rfl
      | some o => exact (shaped.obj o).interrupts
    rw [lists]
    exact Filing.Filed.empty
  banned _ none := by contradiction

theorem rebuildIrqDb_additions (src : IrqSources) :
    Additions (fun _ => True) (freeIrqDb s) (rebuildIrqDb K src s) := by
  have devices : Additions (fun _ => True) (freeIrqDb s)
      (buildDevIrqs K src (-1) src.pciDevs (freeIrqDb s)) := by
    have requested := buildDevIrqs_additions (K := K) (s := freeIrqDb s) src (-1) src.pciDevs
    generalize buildDevIrqs K src (-1) src.pciDevs (freeIrqDb s) = s₁ at requested
    induction requested with
    | nil => exact .nil
    | step _ _ added ih => exact ih.step trivial added
  exact devices.trans (.forEach fun hint _ _ => .single trivial (addNewIrq_added src none rfl))

/-- The topology is built from nothing. -/
theorem rebuild_topology (m : Machine) (banned : CpuMask) (s : State) :
    let s' := parseCpuTree K m banned (buildNumaNodeList K m (freeIrqDb (freeTopology s)))
    Shaped s' ∧ Banning s' ∧ SameKernel s s' := by
  have freed : OnlyNodes (freeIrqDb (freeTopology s)) := freeTopology_onlyNodes (s := freeIrqDb s)
  have kernel₀ : SameKernel s (freeIrqDb (freeTopology s)) := ⟨rfl, rfl, rfl⟩
  generalize freeIrqDb (freeTopology s) = s₀ at freed kernel₀ ⊢
  obtain ⟨nodes, kernel₁⟩ := buildNumaNodeList_onlyNodes (K := K) m freed
  dsimp only
  generalize buildNumaNodeList K m s₀ = s₁ at nodes kernel₁ ⊢
  have parsed := parseCpuTree_extended (K := K) m banned nodes
  have bans : SameKernel s₁ (s₁.setBans banned) := ⟨rfl, rfl, rfl⟩
  exact ⟨parsed.shaped, parsed.banning rfl, kernel₀.trans (kernel₁.trans (bans.trans parsed.kernel))⟩

/-- The database is filled anew, and all its entries wait. -/
theorem rebuild_queued (shaped : Shaped s) (src : IrqSources) :
    let s' := rebuildIrqDb K src s
    Located (forEach s'.interruptsDb forceRebalanceIrq s') ∧
      Grown (freeIrqDb s) (forEach s'.interruptsDb forceRebalanceIrq s') := by
  have additions := rebuildIrqDb_additions (K := K) (s := s) src
  have empty := freeIrqDb_consistent shaped
  have waiting : (rebuildIrqDb K src s).rebalanceIrqList = [] := additions.frame.2.2.2
  have valid := additions.consistent empty
  have grown := additions.grown empty
  dsimp only
  generalize rebuildIrqDb K src s = s₁ at waiting valid grown ⊢
  have unassigned (i : IrqRef) (member : i ∈ s₁.interruptsDb) : (s₁.irqs i).assignedObj = none := by
    obtain ⟨_, blank⟩ := (grown.entry i member).resolve_left fun old => List.not_mem_nil old.1
    exact blank.assigned
  constructor
  · exact located_forceRebalance valid (List.nodup_append.mp valid.nodup_db).1
      (fun i member => ⟨member, unassigned i member, by rw [waiting]; exact List.not_mem_nil⟩)
      fun i member absent => absurd member absent
  · exact forEach_forceRebalance_grown grown unassigned

/-- `free_object_tree`, `build_object_tree` and the queueing that follows. -/
theorem rebuild_spec (m : Machine) (banned : CpuMask) (src : IrqSources) (s : State) :
    Rebuilt s (rebuild K m banned src s) := by
  obtain ⟨shaped, banning, kernel⟩ := rebuild_topology (K := K) m banned s
  unfold rebuild
  dsimp only at shaped banning kernel ⊢
  generalize parseCpuTree K m banned (buildNumaNodeList K m (freeIrqDb (freeTopology s))) = s₂
    at shaped banning kernel ⊢
  obtain ⟨located, queued⟩ := rebuild_queued (K := K) shaped src
  generalize forEach (rebuildIrqDb K src s₂).interruptsDb forceRebalanceIrq (rebuildIrqDb K src s₂) = s₄
    at located queued ⊢
  have cleared := clearSlots_adjusted (s := s₄)
  have emptied : SameTree s₂ (freeIrqDb s₂) := by constructor <;> intros <;> rfl
  have tree : SameTree s₂ (clearSlots s₄) := emptied.trans (queued.tree.trans cleared.tree)
  have emptyKernel : SameKernel s₂ (freeIrqDb s₂) := ⟨rfl, rfl, rfl⟩
  exact {
    located := cleared.retained.located located
    kernel := kernel.trans (emptyKernel.trans (queued.kernel.trans cleared.kernel))
    entry := fun i member => by
      rw [cleared.db.interruptsDb] at member
      obtain ⟨irq, blank⟩ := (queued.entry i member).resolve_left fun old => List.not_mem_nil old.1
      rw [cleared.irqs]
      exact ⟨irq, blank.irq, blank.assigned, blank.moved, fun node named => by
        rw [tree.numaNodes]
        exact blank.numaNode node named, blank.unseen⟩
    banning := by
      unfold Banning
      rw [tree.unbannedCpus, tree.bannedCpus]
      exact banning
    usable := fun o other => by
      rw [tree.objType] at other
      rw [tree.mask, tree.bannedCpus]
      exact (shaped.obj o).usable other
    nests := fun o c child => by
      rw [tree.children] at child
      rw [tree.objType, tree.objType]
      exact ((shaped.obj o).children c child).2
    nodes := fun o node => by
      rw [tree.numaNodes] at node
      rw [tree.objType]
      exact (shaped.numaNodes o node).2
    cpus := fun o cpu => by
      rw [tree.cpus] at cpu
      rw [tree.objType]
      exact (shaped.cpus o cpu).2
    awake := fun o => by
      have objs : s₄.objs = s₂.objs := queued.objs
      rw [cleared.powersaveMode, objs]
      exact (shaped.obj o).awake
    unprobed := fun n node c child => by
      rw [cleared.tree.numaNodes] at node
      rw [cleared.tree.children] at child
      exact clearSlots_child node child }

end Rebuilding

section Vanishing

variable {s s' : State}

/-- One effect of `clear_no_existing_irqs`. -/
inductive Vanishing (s : State) : State → Prop
  | marked {info : IrqRef} :
      Vanishing s (s.setIrq info { s.irqs info with existing := false })
  | removed {s' : State} {info : IrqRef} (member : info ∈ s.interruptsDb ++ s.bannedIrqs)
      (removed : Removed info s s') : Vanishing s s'

theorem retained_mark {info : IrqRef} :
    Retained s (s.setIrq info { s.irqs info with existing := false }) :=
  retained_setIrq rfl rfl rfl fun _ => rfl

theorem Vanishing.located (effect : Vanishing s s') (valid : Located s) : Located s' := by
  cases effect with
  | marked => exact retained_mark.located valid
  | removed _ removed => exact removed.located valid

theorem Vanishing.sameKernel (effect : Vanishing s s') : SameKernel s s' := by
  cases effect with
  | marked => exact sameKernel_setIrq
  | removed _ removed => exact removed.kernel

theorem Vanishing.sameTree (effect : Vanishing s s') : SameTree s s' := by
  cases effect with
  | marked => exact sameTree_setIrq
  | removed _ removed => exact removed.tree

theorem Vanishing.powersaveMode (effect : Vanishing s s') (o : ObjRef) :
    (s'.objs o).powersaveMode = (s.objs o).powersaveMode := by
  cases effect with
  | marked => rfl
  | removed _ removed => exact removed.powersaveMode o

theorem Vanishing.path_sameTree (path : ReflTransGen Vanishing s s') : SameTree s s' :=
  path_preserves (I := SameTree s) (fun _ _ same effect => same.trans effect.sameTree) (.refl s) path

theorem Vanishing.path_powersaveMode (path : ReflTransGen Vanishing s s') (o : ObjRef) :
    (s'.objs o).powersaveMode = (s.objs o).powersaveMode :=
  path_preserves (I := fun s' => (s'.objs o).powersaveMode = (s.objs o).powersaveMode)
    (fun _ _ same effect => (effect.powersaveMode o).trans same) rfl path

theorem Vanishing.path_located (path : ReflTransGen Vanishing s s') (valid : Located s) : Located s' :=
  path_preserves (fun _ _ valid effect => effect.located valid) valid path

theorem removeNoExistingIrq_effect {info : IrqRef} (valid : Consistent s)
    (member : info ∈ s.interruptsDb ++ s.bannedIrqs) :
    Vanishing s (removeNoExistingIrq info s) := by
  rcases removeNoExistingIrq_spec valid member with ⟨_, marked⟩ | ⟨_, removed⟩
  · rw [marked]
    exact .marked
  · exact .removed member removed

/-- The removal of one entry leaves the others in the databases. -/
theorem removeNoExistingIrq_other {info i : IrqRef} (valid : Consistent s)
    (member : info ∈ s.interruptsDb ++ s.bannedIrqs) (other : i ≠ info)
    (memberI : i ∈ s.interruptsDb ++ s.bannedIrqs) :
    i ∈ (removeNoExistingIrq info s).interruptsDb ++ (removeNoExistingIrq info s).bannedIrqs := by
  rcases removeNoExistingIrq_spec valid member with ⟨_, marked⟩ | ⟨_, removed⟩
  · rw [marked]
    exact memberI
  · rw [removed.interruptsDb, removed.bannedIrqs]
    exact List.mem_append.mpr ((List.mem_append.mp memberI).imp (List.mem_erase_of_ne other).mpr
      (List.mem_erase_of_ne other).mpr)

theorem removeAll_path {list : List IrqRef} (valid : Located s) (distinct : list.Nodup)
    (members : ∀ i ∈ list, i ∈ s.interruptsDb ++ s.bannedIrqs) :
    ReflTransGen Vanishing s (forEach list removeNoExistingIrq s) := by
  refine forEach_pending (I := ReflTransGen Vanishing s)
    (R := fun info s' => info ∈ s'.interruptsDb ++ s'.bannedIrqs) distinct .refl members ?_ ?_
  · intro info _ s' path member
    exact path.tail (removeNoExistingIrq_effect (Vanishing.path_located path valid).toConsistent member)
  · intro x _ y _ other s' path memberX memberY
    exact removeNoExistingIrq_other (Vanishing.path_located path valid).toConsistent memberX other memberY

theorem clearNoExistingIrqs_path (valid : Located s) :
    ReflTransGen Vanishing s (clearNoExistingIrqs s) := by
  have managed := removeAll_path valid (List.nodup_append.mp valid.nodup_db).1
    fun i => List.mem_append_left s.bannedIrqs
  unfold clearNoExistingIrqs
  generalize forEach s.interruptsDb removeNoExistingIrq s = s₁ at managed ⊢
  have valid₁ := Vanishing.path_located managed valid
  exact managed.trans (removeAll_path valid₁ (List.nodup_append.mp valid₁.nodup_db).2.1
    fun i => List.mem_append_right s₁.interruptsDb)

end Vanishing

section Operations

variable {s : State}

theorem account_retained (objs : ObjRef → ObjStats) (irqs : IrqRef → IrqStats) (cycle : ℕ)
    (bans : List ℤ) : Retained s (account objs irqs cycle bans s) :=
  ⟨⟨rfl, rfl, rfl, fun _ => rfl, fun _ => rfl⟩, fun _ => rfl, fun _ _ => rfl,
    fun p => by cases p <;> exact .rfl⟩

theorem hotplug_spec (src : IrqSources) (irq : ℕ) (hint : IrqHint)
    (unknown : getIrqInfo irq s = none) (valid : Located s) :
    Located (procIrqHotplug K src { hint with irq := irq } s) ∧
      Grown s (procIrqHotplug K src { hint with irq := irq } s) :=
  procIrqHotplug_spec src { hint with irq := irq } (Int.natCast_nonneg irq) unknown valid

/-- No operation misplaces an interrupt. -/
theorem step_located (op : Op) (valid : Located s) : Located (step K s op) := by
  cases op with
  | rebuild m banned src => exact (rebuild_spec m banned src s).located
  | hotplug src irq hint =>
    cases found : getIrqInfo irq s with
    | some _ =>
      simp only [step, found, Option.isSome_some, if_true]
      exact valid
    | none =>
      simp only [step, found, Option.isSome_none, Bool.false_eq_true, if_false]
      exact (hotplug_spec src irq hint found valid).1
  | clearNoExisting => exact Vanishing.path_located (clearNoExistingIrqs_path valid) valid
  | updateMigrationStatus => exact Balancing.path_located (updateMigrationStatus_path valid) valid
  | calculatePlacement => exact Placing.path_located (calculatePlacement_path valid) valid
  | activateMappings => exact Activating.path_located (activateMappings_path valid) valid
  | account objs irqs cycle bans => exact (account_retained objs irqs cycle bans).located valid

/-- A process that has read its configuration and built nothing yet. -/
def boot (affinity : ℤ → CpuMask) (bans : List ℤ) (modules : List (List Char)) : State :=
  { affinity := affinity, clBannedIrqs := bans, clBannedModules := modules }

theorem boot_located (affinity : ℤ → CpuMask) (bans : List ℤ) (modules : List (List Char)) :
    Located (boot affinity bans modules) where
  distinct := List.nodup_nil
  fresh _ none := by contradiction
  filed := by
    have lists : (boot affinity bans modules).irqList = fun _ => [] := by
      funext p
      cases p <;> rfl
    rw [lists]
    exact Filing.Filed.empty
  banned _ none := by contradiction
  settled _ none := by contradiction

theorem run_located (ops : List Op) (valid : Located s) : Located (run K s ops) := by
  induction ops generalizing s with
  | nil => exact valid
  | cons op rest ih => exact ih (step_located op valid)

/-- Where `irq_info` records are, and where they are not. -/
structure IrqLocation (s : State) : Prop where
  distinct : ((s.interruptsDb ++ s.bannedIrqs).map fun i => (s.irqs i).irq).Nodup
  assigned : ∀ i ∈ s.interruptsDb, ∀ o, (s.irqs i).assignedObj = some o →
    (s.objs o).interrupts.count i = 1 ∧ (∀ o', o' ≠ o → i ∉ (s.objs o').interrupts) ∧
      i ∉ s.rebalanceIrqList
  unassigned : ∀ i ∈ s.interruptsDb, (s.irqs i).assignedObj = none →
    (∀ o, i ∉ (s.objs o).interrupts) ∧
      ((s.irqs i).level ≠ .none → s.rebalanceIrqList.count i = 1)
  listed : (∀ o, ∀ i ∈ (s.objs o).interrupts, i ∈ s.interruptsDb) ∧
    ∀ i ∈ s.rebalanceIrqList, i ∈ s.interruptsDb

theorem Located.irqLocation (valid : Located s) : IrqLocation s where
  distinct := valid.distinct
  assigned i member o assigned := by
    have filed := valid.filed.mem_iff member
    have placed := place_some assigned
    have count := valid.filed.count i member (some o)
    rw [placed, if_pos rfl] at count
    refine ⟨count, fun o' other listed => ?_, fun waiting => ?_⟩
    · have elsewhere := (filed (some o')).mp listed
      rw [placed, Option.some.injEq, Option.some.injEq] at elsewhere
      exact other elsewhere.symm
    · have elsewhere := (filed none).mp waiting
      rw [placed, Option.some.injEq] at elsewhere
      contradiction
  unassigned i member unassigned := by
    refine ⟨fun o listed => ?_, fun level => ?_⟩
    · have assigned := valid.assigned (p := some o) listed
      rw [unassigned] at assigned
      contradiction
    · have waiting := (valid.settled i member unassigned).mpr level
      have count := valid.filed.count i member none
      rwa [place_none unassigned, if_pos waiting, if_pos rfl] at count
  listed := ⟨fun o _ member => valid.mem_db (p := some o) member,
    fun _ member => valid.mem_db (p := none) member⟩

/-- In every run, every interrupt is in exactly the list that its `irq_info` says. -/
theorem run_irqLocation (K : Env) (affinity : ℤ → CpuMask) (bans : List ℤ)
    (modules : List (List Char)) (ops : List Op) :
    IrqLocation (run K (boot affinity bans modules) ops) :=
  (run_located ops (boot_located affinity bans modules)).irqLocation

/-- CPUs 0 and 1 in one package, without NUMA. -/
def twoCpus : Machine where
  online := (BitVec.ofNat NR_CPUS 3)
  cpuDirs := [{ number := 0, coreSiblings := some (BitVec.ofNat NR_CPUS 3) },
    { number := 1, coreSiblings := some (BitVec.ofNat NR_CPUS 3) }]

/-- One network interrupt, number 24. -/
def oneIrq : IrqSources where
  procIrqs := [{ irq := 24, irqClass := IRQ_ETH }]

/-- A scan that finds `twoCpus` under a ban. -/
def scanTwoCpus (banned : CpuMask) : List Op :=
  [.rebuild twoCpus banned oneIrq, .calculatePlacement, .activateMappings]

end Operations

end Irqbalance
