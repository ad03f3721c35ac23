import Irqbalance.Proofs.Runs

/-! # What a built topology guarantees between rebuilds

`Guarded` collects the facts about masks, types, modes and slots that every run maintains after a
rebuild: only node masks can contain banned CPUs, only CPUs can be saturated or put into powersave
mode, and the node of every entry belongs to the tree.
-/

namespace Irqbalance

open Relation (ReflTransGen)

variable {K : Env}

/-- What the masks, types, modes and slots of a built topology look like between rebuilds. -/
structure Guarded (s : State) : Prop where
  usable : ∀ o, (s.objs o).objType ≠ .node → (s.objs o).mask &&& s.bannedCpus = CPU_MASK_NONE
  nests : ∀ o, ∀ c ∈ (s.objs o).children, (s.objs o).objType.nests (s.objs c).objType
  nodes : ∀ o ∈ s.numaNodes, (s.objs o).objType = .node
  cpus : ∀ o ∈ s.cpus, (s.objs o).objType = .cpu
  awake : ∀ o, (s.objs o).objType ≠ .cpu → (s.objs o).powersaveMode = false
  unprobed : ∀ n ∈ s.numaNodes, ∀ c ∈ (s.objs n).children, (s.objs c).objType ≠ .cpu →
    (s.objs c).slotsLeft = INT_MAX
  preferred : ∀ i ∈ s.interruptsDb, ∀ n, (s.irqs i).numaNode = some n → n ∈ s.numaNodes

section Objects

variable {s s' : State} {o c d : ObjRef} {info : IrqRef}

/-- A child is no node. -/
theorem Guarded.child_ne_node (guarded : Guarded s) (child : c ∈ (s.objs d).children) :
    (s.objs c).objType ≠ .node := by
  intro node
  have nests := guarded.nests d c child
  rw [node] at nests
  cases type : (s.objs d).objType <;> rw [type] at nests <;> exact nests

/-- A child of a node is a package or a cache domain. -/
theorem Guarded.child_ne_cpu (guarded : Guarded s) (node : (s.objs d).objType = .node)
    (child : c ∈ (s.objs d).children) : (s.objs c).objType ≠ .cpu := by
  intro cpu
  have nests := guarded.nests d c child
  rw [node, cpu] at nests
  exact nests

/-- `find_best_object` accepts the children of a node at any time. -/
theorem Guarded.child_eligible (guarded : Guarded s) (node : d ∈ s.numaNodes)
    (child : c ∈ (s.objs d).children) : eligibleObject K s c = true := by
  have notNode := guarded.child_ne_node child
  have notCpu := guarded.child_ne_cpu (guarded.nodes d node) child
  have slots : (s.objs c).slotsLeft = INT_MAX := guarded.unprobed d node c child notCpu
  simp [eligibleObject, notNode, guarded.awake c notCpu, slots, INT_MAX]

/-- The guard of a state carries over when tree, modes, slots and preferred nodes do. -/
theorem Guarded.congr (guarded : Guarded s) (tree : SameTree s s')
    (powersaveMode : ∀ o, (s.objs o).objType ≠ .cpu →
      (s'.objs o).powersaveMode = (s.objs o).powersaveMode)
    (unprobed : ∀ o, (s.objs o).objType ≠ .cpu → (s.objs o).slotsLeft = INT_MAX →
      (s'.objs o).slotsLeft = INT_MAX)
    (preferred : ∀ i ∈ s'.interruptsDb, ∀ n, (s'.irqs i).numaNode = some n → n ∈ s.numaNodes) :
    Guarded s' where
  usable o other := by
    rw [tree.objType] at other
    rw [tree.mask, tree.bannedCpus]
    exact guarded.usable o other
  nests o c child := by
    rw [tree.children] at child
    rw [tree.objType, tree.objType]
    exact guarded.nests o c child
  nodes o node := by
    rw [tree.numaNodes] at node
    rw [tree.objType]
    exact guarded.nodes o node
  cpus o cpu := by
    rw [tree.cpus] at cpu
    rw [tree.objType]
    exact guarded.cpus o cpu
  awake o other := by
    rw [tree.objType] at other
    rw [powersaveMode o other]
    exact guarded.awake o other
  unprobed n node c child other := by
    rw [tree.numaNodes] at node
    rw [tree.children] at child
    rw [tree.objType] at other
    exact unprobed c other (guarded.unprobed n node c child other)
  preferred i member n named := by
    rw [tree.numaNodes]
    exact preferred i member n named

theorem Guarded.preferred_congr (guarded : Guarded s) (db : SameDb s s') :
    ∀ i ∈ s'.interruptsDb, ∀ n, (s'.irqs i).numaNode = some n → n ∈ s.numaNodes := by
  intro i member n named
  rw [db.interruptsDb] at member
  rw [db.numaNode] at named
  exact guarded.preferred i member n named

theorem Migrated.guarded {src dst : Option ObjRef} (moved : Migrated src dst info s s')
    (guarded : Guarded s) : Guarded s' :=
  guarded.congr moved.tree (fun o _ => moved.powersaveMode o) (fun o _ => moved.unprobed o)
    (guarded.preferred_congr moved.db)

/-- A change that leaves the objects alone. -/
theorem Guarded.of_objs (guarded : Guarded s) (tree : SameTree s s') (db : SameDb s s')
    (objs : s'.objs = s.objs) : Guarded s' :=
  guarded.congr tree (fun o _ => by rw [objs]) (fun o _ => by rw [objs]; exact id)
    (guarded.preferred_congr db)

theorem guarded_setIrqList {p : Option ObjRef} {l : List IrqRef} (guarded : Guarded s) :
    Guarded (s.setIrqList p l) :=
  guarded.congr sameTree_setIrqList (fun o _ => (setIrqList_obj o).1)
    (fun o _ => by rw [(setIrqList_obj o).2]; exact id) (guarded.preferred_congr sameDb_setIrqList)

/-- Storing back a CPU with another mode or slot counter. -/
theorem guarded_setCpu {obj : TopoObj} (guarded : Guarded s) (cpu : (s.objs o).objType = .cpu)
    (tree : SameTree s (s.setObj o obj)) : Guarded (s.setObj o obj) := by
  have other (o' : ObjRef) (notCpu : (s.objs o').objType ≠ .cpu) : (s.setObj o obj).objs o' = s.objs o' := by
    have distinct : o' ≠ o := by
      rintro rfl
      exact notCpu cpu
    simp [State.setObj, distinct]
  exact guarded.congr tree (fun o' notCpu => by rw [other o' notCpu])
    (fun o' notCpu => by rw [other o' notCpu]; exact id) (guarded.preferred_congr sameDb_setObj)

end Objects

section Effects

variable {s s' : State}

theorem Balancing.guarded (effect : Balancing s s') (guarded : Guarded s) : Guarded s' := by
  cases effect with
  | sorted _ _ _ => exact guarded_setIrqList guarded
  | mode _ member =>
    exact guarded_setCpu guarded (guarded.cpus _ member) (sameTree_setObj rfl rfl rfl rfl rfl)
  | evicted _ _ moved => exact moved.guarded guarded

theorem Placing.guarded (effect : Placing K s s') (guarded : Guarded s) : Guarded s' := by
  cases effect with
  | sorted _ _ _ => exact guarded_setIrqList guarded
  | placed _ _ moved => exact moved.guarded guarded
  | descended effect =>
    obtain ⟨_, _, _, moved⟩ := effect.migrated
    exact moved.guarded guarded

theorem Activating.guarded (effect : Activating K s s') (guarded : Guarded s) : Guarded s' := by
  have tree := effect.sameTree
  have db := effect.sameDb
  cases effect with
  | read => exact guarded.of_objs tree db rfl
  | written _ _ _ => exact guarded.of_objs tree db rfl
  | saturated cpu => exact guarded_setCpu guarded cpu tree
  | fellBack _ _ moved => exact moved.guarded guarded
  | evicted _ _ moved => exact moved.guarded guarded
  | settled _ _ => exact guarded.of_objs tree db rfl
  | idled _ => exact guarded.of_objs tree db rfl
  | abandoned _ => exact guarded.of_objs tree db rfl

theorem Vanishing.guarded (effect : Vanishing s s') (guarded : Guarded s) : Guarded s' := by
  cases effect with
  | marked => exact guarded.of_objs sameTree_setIrq (sameDb_setIrq rfl rfl) rfl
  | removed _ removed =>
    refine guarded.congr removed.tree (fun o _ => removed.powersaveMode o)
      (fun o _ => removed.unprobed o) fun i member n named => ?_
    rw [removed.interruptsDb] at member
    rw [removed.irqs] at named
    exact guarded.preferred i (List.mem_of_mem_erase member) n named

theorem Grown.guarded (grown : Grown s s') (guarded : Guarded s) : Guarded s' := by
  refine guarded.congr grown.tree (fun o _ => by rw [grown.objs])
    (fun o _ => by rw [grown.objs]; exact id) fun i member n named => ?_
  rcases grown.entry i member with ⟨old, same⟩ | ⟨_, blank⟩
  · rw [same] at named
    exact guarded.preferred i old n named
  · exact blank.numaNode n named

theorem Rebuilt.guarded (rebuilt : Rebuilt s s') : Guarded s' where
  usable := rebuilt.usable
  nests := rebuilt.nests
  nodes := rebuilt.nodes
  cpus := rebuilt.cpus
  awake o _ := rebuilt.awake o
  unprobed n node c child _ := rebuilt.unprobed n node c child
  preferred i member n named := by
    obtain ⟨_, blank⟩ := rebuilt.entry i member
    exact blank.numaNode n named

end Effects

section Steps

variable {s : State}

/-- Every operation keeps the guarantees. -/
theorem step_guarded (op : Op) (valid : Located s) (guarded : Guarded s) : Guarded (step K s op) := by
  cases op with
  | rebuild m banned src => exact (rebuild_spec m banned src s).guarded
  | hotplug src irq hint =>
    cases found : getIrqInfo irq s with
    | some _ =>
      simp only [step, found, Option.isSome_some, if_true]
      exact guarded
    | none =>
      simp only [step, found, Option.isSome_none, Bool.false_eq_true, if_false]
      exact (hotplug_spec src irq hint found valid).2.guarded guarded
  | clearNoExisting =>
    exact path_preserves (fun _ _ guarded effect => effect.guarded guarded) guarded
      (clearNoExistingIrqs_path valid)
  | updateMigrationStatus =>
    exact path_preserves (fun _ _ guarded effect => effect.guarded guarded) guarded
      (updateMigrationStatus_path valid)
  | calculatePlacement =>
    exact path_preserves (fun _ _ guarded effect => effect.guarded guarded) guarded
      (calculatePlacement_path valid)
  | activateMappings =>
    exact path_preserves (fun _ _ guarded effect => effect.guarded guarded) guarded
      (activateMappings_path valid)
  | account objs irqs cycle bans =>
    exact guarded.congr (by constructor <;> intros <;> rfl) (fun _ _ => rfl) (fun _ _ => id)
      (guarded.preferred_congr (account_retained objs irqs cycle bans).db)

theorem run_guarded (ops : List Op) (valid : Located s) (guarded : Guarded s) : Guarded (run K s ops) := by
  induction ops generalizing s with
  | nil => exact guarded
  | cons op rest ih => exact ih (step_located op valid) (step_guarded op valid guarded)

theorem boot_guarded (affinity : ℤ → CpuMask) (bans : List ℤ) (modules : List (List Char)) :
    Guarded (boot affinity bans modules) where
  usable _ _ := BitVec.zero_and
  nests _ _ none := by contradiction
  nodes _ none := by contradiction
  cpus _ none := by contradiction
  awake _ _ := rfl
  unprobed _ none := by contradiction
  preferred _ none := by contradiction

end Steps

end Irqbalance
