import Irqbalance.Proofs.Fallback
import Irqbalance.Proofs.NumaTree

/-! # NUMA locality

An interrupt that prefers a node with a CPU that may be used is put on that node, and every later move
follows links of the tree: down to a child, or to a CPU below a cache domain or a package above. So it
never leaves the node, on machines whose caches and packages keep to nodes.
-/

namespace Irqbalance

open Relation (ReflTransGen)

variable {K : Env}

/-- An assigned interrupt is on an object that lies in the node it prefers, if that is a node of the
machine with a CPU that is not banned. -/
def NumaLocal (s : State) : Prop :=
  ∀ i ∈ s.interruptsDb, ∀ n, (s.irqs i).numaNode = some n → (s.objs n).number ≠ NUMA_NO_NODE →
    cpusIntersects (s.objs n).mask s.unbannedCpus = true → ∀ o, (s.irqs i).assignedObj = some o →
      Within ((s.objs o).mask &&& s.cpuOnlineMap) (s.objs n).mask

/-- The same with the whole mask of the object. -/
def Resident (s : State) : Prop :=
  ∀ i ∈ s.interruptsDb, ∀ n, (s.irqs i).numaNode = some n → (s.objs n).number ≠ NUMA_NO_NODE →
    cpusIntersects (s.objs n).mask s.unbannedCpus = true → ∀ o, (s.irqs i).assignedObj = some o →
      Within (s.objs o).mask (s.objs n).mask

section Links

variable {s s' : State} {a c o scope : ObjRef} {type : ObjType}

theorem Resident.numaLocal (resident : Resident s) : NumaLocal s :=
  fun i member n preferred real usable o assigned =>
    within_and_left.trans (resident i member n preferred real usable o assigned)

theorem Nested.congr (nested : Nested s) (tree : SameTree s s') : Nested s' := by
  have follows (a b : ObjRef) : Follows s' a b ↔ Follows s a b :=
    follows_congr tree.numaNodes (fun n _ => tree.number n) (fun n _ => tree.mask n) (tree.mask a) (tree.mask b)
  refine ⟨fun p c member => ?_, fun c p link below => ?_, fun o node => ?_⟩
  · rw [tree.children] at member
    exact (follows p c).mpr (nested.child p c member)
  · rw [tree.parent] at link
    rw [tree.objType] at below
    exact (follows c p).mpr (nested.parent c p link below)
  · rw [tree.objType] at node
    rw [tree.parent]
    exact nested.top o node

/-- An ancestor below a node. -/
theorem nearestAncestor_follows (nested : Nested s) (below : type ≠ .node) (fuel : ℕ)
    (found : nearestAncestor s type fuel (s.objs c).parent = some a) : Follows s c a := by
  induction fuel generalizing c with
  | zero => contradiction
  | succ fuel ih =>
    cases link : (s.objs c).parent with
    | none =>
      rw [link] at found
      contradiction
    | some p =>
      rw [link, nearestAncestor] at found
      split at found
      · rename_i same
        obtain rfl := Option.some.inj found
        exact nested.parent c p link (by rw [same]; exact below)
      · have inner : (s.objs p).objType ≠ .node := by
          intro node
          rw [nested.top p node] at found
          cases fuel <;> contradiction
        exact (nested.parent c p link inner).trans (ih found)

theorem searchScope_follows {level : Level} (nested : Nested s) (searched : searchScope s o level = some scope) :
    Follows s o scope := by
  unfold searchScope at searched
  split at searched
  · cases level with
    | cache => exact nearestAncestor_follows nested (fun same => by contradiction) _ searched
    | package => exact nearestAncestor_follows nested (fun same => by contradiction) _ searched
    | none => contradiction
    | core => contradiction
  · obtain rfl := Option.some.inj searched
    exact fun _ _ within => within

theorem cpusUnder_follows (nested : Nested s) (fuel : ℕ) (member : c ∈ cpusUnder s fuel o) : Follows s o c := by
  induction fuel generalizing o with
  | zero => contradiction
  | succ fuel ih =>
    rw [cpusUnder] at member
    split at member
    · rw [List.mem_singleton.mp member]
      exact fun _ _ within => within
    · obtain ⟨child, listed, below⟩ := List.mem_flatMap.mp member
      exact (nested.child o child listed).trans (ih below)

/-- A fallback stays in the node. -/
theorem fallbackOffers_follows {level : Level} (nested : Nested s) (searched : searchScope s o level = some scope)
    (member : c ∈ fallbackOffers s o scope) : Follows s o c := by
  have ranked : c ∈ ranking s o scope := disjointFrom_subset member
  rw [ranking, List.mem_insertionSort] at ranked
  exact (searchScope_follows nested searched).trans
    (cpusUnder_follows nested TREE_DEPTH (List.mem_filter.mp ranked).1)

end Links

section Effects

variable {s s' : State} {info : IrqRef} {dst : ObjRef} {src : Option ObjRef}

/-- Entries of the new state keep or lose the object that they had. -/
theorem Resident.of_vacated (resident : Resident s) (tree : SameTree s s')
    (vacated : ∀ i ∈ s'.interruptsDb, (s'.irqs i).assignedObj = none ∨ (i ∈ s.interruptsDb ∧
      (s'.irqs i).numaNode = (s.irqs i).numaNode ∧ (s'.irqs i).assignedObj = (s.irqs i).assignedObj)) :
    Resident s' := by
  intro i member n preferred real usable o assigned
  rcases vacated i member with gone | ⟨old, sameNode, sameObj⟩
  · rw [gone] at assigned
    contradiction
  · rw [sameNode] at preferred
    rw [sameObj] at assigned
    rw [tree.number] at real
    rw [tree.mask, tree.unbannedCpus] at usable
    rw [tree.mask, tree.mask]
    exact resident i old n preferred real usable o assigned

/-- One entry gets an object that lies in its node. -/
theorem Resident.move (resident : Resident s) (tree : SameTree s s') (db : SameDb s s')
    (others : ∀ i, i ≠ info → (s'.irqs i).assignedObj = (s.irqs i).assignedObj)
    (own : (s'.irqs info).assignedObj = some dst)
    (inside : ∀ n, (s.irqs info).numaNode = some n → (s.objs n).number ≠ NUMA_NO_NODE →
      cpusIntersects (s.objs n).mask s.unbannedCpus = true → Within (s.objs dst).mask (s.objs n).mask) :
    Resident s' := by
  intro i member n preferred real usable o assigned
  rw [db.interruptsDb] at member
  rw [db.numaNode] at preferred
  rw [tree.number] at real
  rw [tree.mask, tree.unbannedCpus] at usable
  rw [tree.mask, tree.mask]
  by_cases same : i = info
  · subst same
    obtain rfl := Option.some.inj (own.symm.trans assigned)
    exact inside n preferred real usable
  · rw [others i same] at assigned
    exact resident i member n preferred real usable o assigned

/-- An interrupt that is on an object moves to one that follows it. -/
theorem Resident.follow {src : ObjRef} (resident : Resident s) (guarded : Guarded s) (member : info ∈ s.interruptsDb)
    (assigned : (s.irqs info).assignedObj = some src) (follows : Follows s src dst) (n : ObjRef)
    (preferred : (s.irqs info).numaNode = some n) (real : (s.objs n).number ≠ NUMA_NO_NODE)
    (usable : cpusIntersects (s.objs n).mask s.unbannedCpus = true) : Within (s.objs dst).mask (s.objs n).mask :=
  follows n ⟨guarded.preferred info member n preferred, real⟩
    (resident info member n preferred real usable src assigned)

theorem Balancing.resident (effect : Balancing s s') (resident : Resident s) : Resident s' := by
  apply resident.of_vacated effect.sameTree
  intro i member
  rw [effect.sameDb.interruptsDb] at member
  exact (effect.vacated i).symm.imp_right fun same => ⟨member, effect.sameDb.numaNode i, same⟩

theorem Vanishing.resident (effect : Vanishing s s') (resident : Resident s) : Resident s' := by
  refine resident.of_vacated effect.sameTree fun i member => .inr ?_
  cases effect with
  | marked => exact ⟨member, (retained_mark.db).numaNode i, retained_mark.assigned i⟩
  | removed _ removed =>
    rw [removed.interruptsDb] at member
    exact ⟨List.mem_of_mem_erase member, by rw [removed.irqs], by rw [removed.irqs]⟩

theorem Grown.resident (grown : Grown s s') (resident : Resident s) : Resident s' := by
  apply resident.of_vacated grown.tree
  intro i member
  rcases grown.entry i member with ⟨old, same⟩ | ⟨_, blank⟩
  · exact .inr ⟨old, by rw [same], by rw [same]⟩
  · exact .inl blank.assigned

theorem Placing.resident (effect : Placing K s s') (valid : Located s) (guarded : Guarded s) (nested : Nested s)
    (resident : Resident s) : Resident s' := by
  have tree := effect.sameTree
  have db := effect.sameDb
  cases effect with
  | sorted _ _ _ =>
    refine resident.of_vacated tree fun i member => .inr ⟨?_, db.numaNode i, rfl⟩
    rwa [db.interruptsDb] at member
  | @placed _ info node member target moved =>
    refine resident.move tree db (fun i other => by rw [moved.other other]) moved.assigned
      fun n preferred real usable => ?_
    rcases target with ⟨same, _⟩ | ⟨unsuitable, _⟩
    · obtain rfl := Option.some.inj (same.symm.trans preferred)
      exact BitVec.and_self
    · exact absurd ⟨.inl real, usable⟩ (unsuitable n preferred)
  | descended effect =>
    cases effect with
    | @descended info d best member _ child _ moved =>
      exact resident.move tree db (fun i other => by rw [moved.other other]) moved.assigned
        (resident.follow guarded (valid.mem_db member) (valid.assigned member) (nested.child d best child))

/-- A visit of `activate_mapping` leaves the entry, evicts it or falls back. -/
theorem activateMapping_resident (valid : Located s) (guarded : Guarded s) (nested : Nested s)
    (member : info ∈ s.interruptsDb) (resident : Resident s) : Resident (activateMapping K info s) := by
  have path := activateMapping_path (K := K) valid member
  have tree := Activating.path_sameTree path
  have db := Activating.path_sameDb path
  rcases activateMapping_cases (K := K) valid member with ⟨unassigned, _⟩ | ⟨o, scope, c, falls, taken, irqs⟩
  · apply resident.of_vacated tree
    intro i memberI
    rw [db.interruptsDb] at memberI
    by_cases same : i = info
    · subst same
      exact unassigned.own.symm.imp_right fun same => ⟨memberI, db.numaNode i, same⟩
    · exact .inr ⟨memberI, db.numaNode i, by rw [unassigned.others i same]⟩
  · have offered : c ∈ fallbackOffers s o scope :=
      (firstTaken_after taken).1.subset (List.mem_append_right _ (List.mem_singleton_self c))
    refine resident.move tree db (fun i other => by rw [irqs, Function.update_of_ne other])
      (by rw [irqs, Function.update_self]) (resident.follow guarded member falls.assigned ?_)
    exact fallbackOffers_follows nested falls.scope offered

end Effects

section Runs

variable {s : State} {m : Machine}

/-- The operation finds a machine in which caches and packages keep to nodes. -/
def FindsNuma (K : Env) : Op → Prop
  | .rebuild m _ _ => K.numaAvail = true → NumaMachine K m
  | _ => True

/-- A rebuild makes links that stay in the node. -/
theorem rebuild_nested (numa : K.numaAvail = true → NumaMachine K m) (banned : CpuMask) (src : IrqSources)
    (s : State) : Nested (rebuild K m banned src s) := by
  have freed : OnlyNodes (freeIrqDb (freeTopology s)) := freeTopology_onlyNodes (s := freeIrqDb s)
  have entries := buildNumaNodeList_entries (K := K) m freed rfl
  have bare : Nesting (buildNumaNodeList K m (freeIrqDb (freeTopology s))) :=
    (buildNumaNodeList_bare m (freeTopology_bare (s := freeIrqDb s))).nesting
  have nodes := (buildNumaNodeList_onlyNodes (K := K) m freed).1
  obtain ⟨nesting, _⟩ := parseCpuTree_nesting numa entries banned nodes bare
  unfold rebuild
  dsimp only
  generalize parseCpuTree K m banned (buildNumaNodeList K m (freeIrqDb (freeTopology s))) = s₁ at nesting ⊢
  have emptied : SameTree s₁ (freeIrqDb s₁) := by constructor <;> intros <;> rfl
  have filled := emptied.trans (rebuildIrqDb_additions (K := K) (s := s₁) src).frame.1
  generalize rebuildIrqDb K src s₁ = s₂ at filled ⊢
  have queued : SameTree s₂ (forEach s₂.interruptsDb forceRebalanceIrq s₂) :=
    forEach_preserves (I := SameTree s₂) (.refl s₂) fun _ _ _ same => same.trans forceRebalanceIrq_frame.tree
  exact nesting.toNested.congr (filled.trans (queued.trans clearSlots_adjusted.tree))

/-- What a run keeps. -/
structure Housed (s : State) : Prop where
  located : Located s
  guarded : Guarded s
  nested : Nested s
  resident : Resident s

theorem calculatePlacement_housed (housed : Housed s) : Housed (calculatePlacement K s) :=
  path_preserves (fun _ _ housed effect => ⟨effect.located housed.located, effect.guarded housed.guarded,
    housed.nested.congr effect.sameTree, effect.resident housed.located housed.guarded housed.nested
      housed.resident⟩) housed (calculatePlacement_path housed.located)

theorem activateMappings_housed (housed : Housed s) : Housed (activateMappings K s) := by
  refine (forEach_preserves (I := fun s' => Housed s' ∧ SameDb s s') ⟨housed, .refl s⟩ ?_).1
  rintro info member s' ⟨housed, db⟩
  rw [← db.interruptsDb] at member
  have path := activateMapping_path (K := K) housed.located member
  have tree := Activating.path_sameTree path
  have guarded : Guarded (activateMapping K info s') :=
    path_preserves (fun _ _ guarded effect => effect.guarded guarded) housed.guarded path
  exact ⟨⟨Activating.path_located path housed.located, guarded, housed.nested.congr tree,
    activateMapping_resident housed.located housed.guarded housed.nested member housed.resident⟩,
    db.trans (Activating.path_sameDb path)⟩

theorem step_housed (op : Op) (finds : FindsNuma K op) (housed : Housed s) : Housed (step K s op) := by
  have located := step_located (K := K) op housed.located
  have guarded := step_guarded (K := K) op housed.located housed.guarded
  cases op with
  | rebuild m banned src =>
    refine ⟨located, guarded, rebuild_nested finds banned src s, fun i member n _ _ _ o assigned => ?_⟩
    obtain ⟨_, blank⟩ := (rebuild_spec (K := K) m banned src s).entry i member
    rw [show ((step K s (.rebuild m banned src)).irqs i).assignedObj = none from blank.assigned] at assigned
    contradiction
  | hotplug src irq hint =>
    cases found : getIrqInfo irq s with
    | some _ =>
      simp only [step, found, Option.isSome_some, if_true]
      exact housed
    | none =>
      simp only [step, found, Option.isSome_none, Bool.false_eq_true, if_false] at located guarded ⊢
      have grown := (hotplug_spec (K := K) src irq hint found housed.located).2
      exact ⟨located, guarded, housed.nested.congr grown.tree, grown.resident housed.resident⟩
  | clearNoExisting =>
    have path := clearNoExistingIrqs_path housed.located
    exact ⟨located, guarded, housed.nested.congr (Vanishing.path_sameTree path),
      path_preserves (fun _ _ resident effect => effect.resident resident) housed.resident path⟩
  | updateMigrationStatus =>
    have path := updateMigrationStatus_path (K := K) housed.located
    exact ⟨located, guarded, housed.nested.congr (Balancing.path_sameTree path),
      path_preserves (fun _ _ resident effect => effect.resident resident) housed.resident path⟩
  | calculatePlacement => exact calculatePlacement_housed housed
  | activateMappings => exact activateMappings_housed housed
  | account objs irqs cycle bans =>
    exact ⟨located, guarded, housed.nested.congr (by constructor <;> intros <;> rfl), housed.resident⟩

theorem boot_housed (affinity : ℤ → CpuMask) (bans : List ℤ) (modules : List (List Char)) :
    Housed (boot affinity bans modules) where
  located := boot_located affinity bans modules
  guarded := boot_guarded affinity bans modules
  nested := ⟨fun _ _ none => by contradiction, fun _ _ none => by contradiction, fun _ _ => rfl⟩
  resident _ none := by contradiction

theorem run_housed (ops : List Op) (finds : ∀ op ∈ ops, FindsNuma K op) (housed : Housed s) :
    Housed (run K s ops) := by
  induction ops generalizing s with
  | nil => exact housed
  | cons op rest ih =>
    exact ih (fun op member => finds op (List.mem_cons_of_mem _ member))
      (step_housed op (finds op List.mem_cons_self) housed)

/-- In every run on such machines, every interrupt stays in the node that it prefers. -/
theorem run_numaLocal (K : Env) (affinity : ℤ → CpuMask) (bans : List ℤ) (modules : List (List Char))
    (ops : List Op) (finds : ∀ op ∈ ops, FindsNuma K op) :
    NumaLocal (run K (boot affinity bans modules) ops) :=
  (run_housed ops finds (boot_housed affinity bans modules)).resident.numaLocal

/-- A CPU of `twoNodes`: one package has all four CPUs, and the CPUs of a node share a cache. -/
def nodeCpu (number node : ℕ) (cache : CpuMask) : CpuDir where
  number := number
  coreSiblings := some (BitVec.ofNat NR_CPUS 15)
  sharedCpuMaps := [some cache]
  node := some node

/-- CPUs 0 and 1 in node 0, CPUs 2 and 3 in node 1. -/
def twoNodes : Machine where
  online := BitVec.ofNat NR_CPUS 15
  cpuDirs := [nodeCpu 0 0 (BitVec.ofNat NR_CPUS 3), nodeCpu 1 0 (BitVec.ofNat NR_CPUS 3),
    nodeCpu 2 1 (BitVec.ofNat NR_CPUS 12), nodeCpu 3 1 (BitVec.ofNat NR_CPUS 12)]
  nodeDirs := [⟨0, some (BitVec.ofNat NR_CPUS 3)⟩, ⟨1, some (BitVec.ofNat NR_CPUS 12)⟩]

theorem twoNodes_numa : NumaMachine { numaAvail := true } twoNodes where
  ids := by decide
  disjoint := by decide +kernel
  linked := by decide +kernel
  own := by decide +kernel
  caches := by decide +kernel
  packages d known online := .inr ⟨twoNodes.nodeDirs, List.Subset.refl _, by
    have same : ∀ d ∈ twoNodes.cpuDirs, d.siblings = BitVec.ofNat NR_CPUS 15 := by decide +kernel
    rw [same d known]
    decide +kernel⟩

/-- A network device in node 1 with interrupt 40. -/
def remoteIrq : IrqSources where
  pciDevs := [{ msiIrqs := some [40], pciInfo := some ⟨0x8086, 0, 0, 0, 0x020000⟩, numaNode := some 1 }]

/-- The interrupt is placed while CPU 2 is banned. -/
theorem run_numaLocal_twoNodes : NumaLocal (run { numaAvail := true } (boot (fun _ => CPU_MASK_NONE) [] [])
    [.rebuild twoNodes (BitVec.ofNat NR_CPUS 4) remoteIrq, .calculatePlacement, .activateMappings]) := by
  apply run_numaLocal _ _ _ _ _
  intro op member
  rcases List.mem_cons.mp member with rfl | rest
  · exact fun _ => twoNodes_numa
  · simp only [List.mem_cons, List.not_mem_nil, or_false] at rest
    rcases rest with rfl | rfl <;> trivial

/-- It is on CPU 3. -/
example :
    let s := run { numaAvail := true } (boot (fun _ => CPU_MASK_NONE) [] [])
      [.rebuild twoNodes (BitVec.ofNat NR_CPUS 4) remoteIrq, .calculatePlacement, .activateMappings]
    s.interruptsDb.map (fun i => ((s.irqs i).numaNode.map fun n => (s.objs n).number,
      (s.irqs i).assignedObj.map fun o => (s.objs o).mask)) = [(some 1, some (BitVec.ofNat NR_CPUS 8))] := by
  decide +kernel

end Runs

end Irqbalance
