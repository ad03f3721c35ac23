import Irqbalance.Proofs.BestObject
import Irqbalance.Proofs.Charges
import Irqbalance.Proofs.LoadSums

/-! # How far down an IRQ is placed

Each pass of `calculate_placement` stops an IRQ at the objects of exactly one type. A package-level IRQ
that a node hands to a cache domain has passed the packages without being seen, and goes on to a CPU.
-/

namespace Irqbalance

open Relation (ReflTransGen)

variable {K : Env} {m : Machine} {s s' s'' t : State} {info i : IrqRef} {o d n c best : ObjRef}

/-- The types of object on which an IRQ of the level may be. -/
def Allows : Level → ObjType → Prop
  | .package, type => type = .node ∨ type = .package
  | .cache, type => type = .node ∨ type = .package ∨ type = .cache
  | _, _ => True

/-- No node is left for the IRQ. One that could take it after the other passes was out of slots and has
got them back from interrupts that have gone down. -/
def NowhereToGo (K : Env) (s : State) (i : IrqRef) : Prop := ∀ node, ¬ NodeTarget K (placeWaiting K s) i node ∧
  (NodeTarget K (calculatePlacement K s) i node → ((placeWaiting K s).objs node).slotsLeft ≤ 0)

/-- Each waiting IRQ stays because no node is left for it, or is placed within its level. -/
def LevelsKept (K : Env) (s : State) : Prop := ∀ i ∈ s.rebalanceIrqList,
  (i ∈ (calculatePlacement K s).rebalanceIrqList ∧ NowhereToGo K s i) ∨
    ∃ o, ((calculatePlacement K s).irqs i).assignedObj = some o ∧ i ∈ ((calculatePlacement K s).objs o).interrupts ∧
      Allows (s.irqs i).level ((calculatePlacement K s).objs o).objType

/-- On this topology the placement always keeps to the levels. -/
def AlwaysKept (K : Env) (t : State) : Prop := ∀ s, SameTree t s → Located s →
  (∀ i ∈ s.rebalanceIrqList, ∃ n ∈ s.numaNodes, (s.irqs i).numaNode = some n) → LevelsKept K s

/-- Nodes with a CPU that is not banned have packages as children. -/
def OnlyPackages (t : State) : Prop := ∀ n ∈ t.numaNodes, cpusIntersects (t.objs n).mask t.unbannedCpus = true →
  ∀ c ∈ (t.objs n).children, (t.objs c).objType = .package

section Draining

/-- Moves change nothing about what a node offers but its slots. -/
theorem nodeTarget_of_slots (tree : SameTree s s') (db : SameDb s s')
    (powersave : ∀ o, (s'.objs o).powersaveMode = (s.objs o).powersaveMode)
    (slots : 0 < (s'.objs n).slotsLeft → 0 < (s.objs n).slotsLeft) (target : NodeTarget K s' i n) :
    NodeTarget K s i n := by
  have suitable (n : ObjRef) : SuitableNode K s' n ↔ SuitableNode K s n := by
    unfold SuitableNode
    rw [tree.number, tree.mask, tree.unbannedCpus]
  unfold NodeTarget at target ⊢
  simp only [suitable, db.numaNode, tree.numaNodes] at target
  refine target.imp_right fun ⟨unsuitable, listed, eligible⟩ => ⟨unsuitable, listed, ?_⟩
  simp only [eligibleObject, Bool.and_eq_true, Bool.not_eq_true', decide_eq_false_iff_not, not_le,
    tree.objType, tree.number, tree.mask, tree.unbannedCpus, powersave] at eligible ⊢
  exact ⟨eligible.1, slots eligible.2⟩

/-- Interrupts that descend do not come back to the waiting ones. -/
theorem Descending.waiting (effect : Descending K s s') (waiting : i ∈ s'.rebalanceIrqList) :
    i ∈ s.rebalanceIrqList := by
  cases effect with
  | descended _ _ _ _ moved =>
    have member : i ∈ s'.irqList none := waiting
    rw [moved.lists] at member
    exact (Filing.mem_move member).resolve_right fun elsewhere => by simp at elsewhere

/-- After the first pass, interrupts only descend. -/
theorem calculatePlacement_descends (valid : Located s) :
    ReflTransGen (Descending K) (placeWaiting K s) (calculatePlacement K s) := by
  rcases calculatePlacement_cases (K := K) valid with ⟨none, same⟩ | ⟨s₂, s₃, first, _, nodes, rest⟩
  · have sorted : (sortIrqList K Option.none s).rebalanceIrqList.Perm s.rebalanceIrqList := List.perm_insertionSort _ _
    rw [none] at sorted
    rw [same, placeWaiting, sorted.eq_nil, forEach_nil]
  · have valid₁ := (sortIrqList_placing (K := K) Option.none).located valid
    have valid₂ : Located s₂ := by
      rw [first]
      exact Placing.path_located (placeWaiting_path valid₁) valid₁
    have down := placeInObjects_path (K := K) valid₂ s₂.numaNodes
    rw [← nodes] at down
    rw [← first]
    exact down.trans rest

theorem Descending.path_waiting (path : ReflTransGen (Descending K) s s') (waiting : i ∈ s'.rebalanceIrqList) :
    i ∈ s.rebalanceIrqList :=
  path_preserves (I := fun s' => i ∈ s'.rebalanceIrqList → i ∈ s.rebalanceIrqList)
    (fun _ _ before effect waiting => before (effect.waiting waiting)) id path waiting

theorem Descending.path_powersaveMode (path : ReflTransGen (Descending K) s s') (o : ObjRef) :
    (s'.objs o).powersaveMode = (s.objs o).powersaveMode :=
  path_preserves (I := fun s' => (s'.objs o).powersaveMode = (s.objs o).powersaveMode)
    (fun _ _ same effect => by
      obtain ⟨_, _, _, moved⟩ := effect.migrated
      exact (moved.powersaveMode o).trans same) rfl path

/-- Descents give a node nothing but slots. -/
theorem Descending.path_nodeTarget (path : ReflTransGen (Descending K) s s') (target : NodeTarget K s' i n)
    (before : ¬ NodeTarget K s i n) : (s.objs n).slotsLeft ≤ 0 := by
  have placing := Descending.path_placing path
  by_contra free
  exact before (nodeTarget_of_slots (Placing.path_sameTree placing) (Placing.path_sameDb placing)
    (Descending.path_powersaveMode path) (fun _ => not_le.mp free) target)

/-- An IRQ that its own visit leaves waiting has found no node. -/
theorem placeIrqInNode_nowhere (valid : Located s) (waits : i ∈ s.rebalanceIrqList)
    (named : (s.irqs i).numaNode ≠ none) (still : i ∈ (placeIrqInNode K i s).rebalanceIrqList) :
    ∀ node, ¬ NodeTarget K (placeIrqInNode K i s) i node := by
  rcases placeIrqInNode_eq (K := K) i s with ⟨node, _, placed⟩ | ⟨same, nowhere⟩
  · have moved := valid.toConsistent.migrated (p := none) (q := some node) waits
    rw [placed] at still
    have unassigned := (moved.consistent waits valid.toConsistent).assigned (p := none) still
    rw [moved.assigned] at unassigned
    contradiction
  · rw [same]
    have known := valid.toConsistent.mem_db (p := none) waits
    have unassigned := valid.toConsistent.assigned (p := none) waits
    exact nowhere (((valid.settled i known) unassigned).mp waits) named

/-- The visit of any IRQ leaves no new node for another one that still waits. -/
theorem placeIrqInNode_target {info : IrqRef} (valid : Consistent s) (waits : info ∈ s.rebalanceIrqList)
    (still : i ∈ (placeIrqInNode K info s).rebalanceIrqList) (target : NodeTarget K (placeIrqInNode K info s) i n) :
    i ∈ s.rebalanceIrqList ∧ NodeTarget K s i n := by
  rcases placeIrqInNode_eq (K := K) info s with ⟨node, _, placed⟩ | ⟨same, _⟩
  · have charged : Charged none node info s (migrateIrqObj none (some node) info s) := valid.charged (p := none) waits
    rw [placed] at still target
    constructor
    · by_cases own : i = info
      · exact own ▸ waits
      · exact (charged.mem_irqList (p := none) own).mp still
    · apply nodeTarget_of_slots charged.tree charged.db charged.powersaveMode _ target
      exact fun free => free.trans_le (charged.slots rfl n)
  · rw [same] at still target
    exact ⟨still, target⟩

/-- After the first pass no node is left for an IRQ that still waits. -/
theorem placeWaiting_drained (valid : Located s)
    (named : ∀ i ∈ s.rebalanceIrqList, ∃ n ∈ s.numaNodes, (s.irqs i).numaNode = some n)
    (waited : i ∈ s.rebalanceIrqList) (waiting : i ∈ (placeWaiting K s).rebalanceIrqList) :
    ∀ node, ¬ NodeTarget K (placeWaiting K s) i node := by
  have sorting := sortIrqList_placing (K := K) (s := s) none
  have sorted : (sortIrqList K none s).rebalanceIrqList.Perm s.rebalanceIrqList := List.perm_insertionSort _ _
  have numaNode : ((sortIrqList K none s).irqs i).numaNode = (s.irqs i).numaNode := sorting.sameDb.numaNode i
  have valid₁ := sorting.located valid
  unfold placeWaiting at waiting ⊢
  generalize sortIrqList K none s = s₁ at waiting sorted numaNode valid₁ ⊢
  refine forEach_pending_establishes (x := i) (I := ReflTransGen (Placing K) s₁)
    (R := fun info s' => info ∈ s'.rebalanceIrqList)
    (Q := fun s' => i ∈ s'.rebalanceIrqList → ∀ node, ¬ NodeTarget K s' i node)
    (sorted.mem_iff.mpr waited) (valid₁.filed.nodup none) .refl (fun _ member => member) ?_ ?_ ?_ ?_ waiting
  · intro info _ s' path waits
    exact path.trans (placeIrqInNode_path (Placing.path_located path valid₁).toConsistent waits)
  · intro x _ y _ other s' path waitsX waitsY
    exact (placeIrqInNode_other (p := none) (Placing.path_located path valid₁).toConsistent waitsX other).mpr waitsY
  · intro s' path waits still
    obtain ⟨n, _, preferred⟩ := named i waited
    apply placeIrqInNode_nowhere (Placing.path_located path valid₁) waits _ still
    rw [(Placing.path_sameDb path).numaNode, numaNode, preferred]
    exact Option.some_ne_none n
  · intro y _ s' path waits before still node target
    obtain ⟨waiting', target'⟩ :=
      placeIrqInNode_target (Placing.path_located path valid₁).toConsistent waits still target
    exact before waiting' node target'

end Draining

section Stopping

/-- Where a waiting IRQ can be during the passes, if the nodes with CPUs have packages only. -/
def Stopping (t s : State) (i : IrqRef) : Prop := i ∈ s.rebalanceIrqList ∨
  ∃ o, (s.irqs i).assignedObj = some o ∧ Allows (t.irqs i).level (t.objs o).objType ∧
    ((t.objs o).objType = .node → o ∈ t.numaNodes ∧ cpusIntersects (t.objs o).mask t.unbannedCpus = true)

/-- A node that an IRQ is given to has a CPU that is not banned. -/
theorem NodeTarget.usable (target : NodeTarget K s i n) (node : (s.objs n).objType = .node) :
    cpusIntersects (s.objs n).mask s.unbannedCpus = true := by
  rcases target with ⟨_, suitable⟩ | ⟨_, _, eligible⟩
  · exact suitable.2
  · simp only [eligibleObject, node, Bool.and_eq_true, Bool.not_eq_true', beq_self_eq_true, Bool.true_and,
      Bool.not_eq_false'] at eligible
    exact eligible.1.1.2

/-- The level stops an IRQ that goes down one level at a time. -/
theorem Allows.child (nests : TypesNest s) (child : c ∈ (s.objs d).children)
    (package : (s.objs d).objType = .node → (s.objs c).objType = .package) {level : Level}
    (allowed : Allows level (s.objs d).objType) (waits : restsOn (s.objs d).objType level = false) :
    Allows level (s.objs c).objType := by
  rcases nests.cases child with ⟨type, _⟩ | ⟨type, cache⟩ | ⟨type, cpu⟩
  · rw [package type]
    cases level <;> simp [Allows]
  · rw [cache]
    rw [type] at waits
    cases level <;> simp_all [Allows, restsOn]
  · rw [cpu]
    rw [type] at waits allowed
    cases level <;> simp_all [Allows, restsOn]

/-- A move of one IRQ leaves the others where they can be. -/
theorem Migrated.stopping {src : Option ObjRef} (moved : Migrated src (some best) info s s')
    (target : i = info → Allows (t.irqs i).level (t.objs best).objType ∧
      ((t.objs best).objType = .node → best ∈ t.numaNodes ∧ cpusIntersects (t.objs best).mask t.unbannedCpus = true))
    (stopping : Stopping t s i) : Stopping t s' i := by
  by_cases own : i = info
  · obtain ⟨allowed, usable⟩ := target own
    exact .inr ⟨best, own ▸ moved.assigned, allowed, usable⟩
  · apply stopping.imp (moved.mem_irqList (p := none) own).mpr
    rintro ⟨o, assigned, kept⟩
    exact ⟨o, by rw [moved.other own, assigned], kept⟩

/-- A node stops any IRQ within its level. -/
theorem Stopping.placeIrqInNode {info : IrqRef} (stopping : Stopping t s i) (valid : Consistent s) (db : SameDb t s)
    (tree : SameTree t s) (nodes : ∀ n ∈ t.numaNodes, (t.objs n).objType = .node)
    (named : ∃ n ∈ t.numaNodes, (t.irqs i).numaNode = some n) (waits : info ∈ s.rebalanceIrqList) :
    Stopping t (placeIrqInNode K info s) i := by
  rcases placeIrqInNode_eq (K := K) info s with ⟨node, target, placed⟩ | ⟨unchanged, _⟩
  · rw [placed]
    refine (valid.migrated (p := none) (q := some node) waits).stopping (fun own => ?_) stopping
    subst own
    have listed : node ∈ t.numaNodes := by
      rcases target with ⟨preferred, _⟩ | ⟨_, listed, _⟩
      · obtain ⟨n, node', preferred'⟩ := named
        rw [db.numaNode, preferred'] at preferred
        exact Option.some.inj preferred ▸ node'
      · exact tree.numaNodes ▸ listed
    have type : (t.objs node).objType = .node := nodes node listed
    have usable := target.usable ((tree.objType node).trans type)
    rw [tree.mask, tree.unbannedCpus] at usable
    refine ⟨?_, fun _ => ⟨listed, usable⟩⟩
    rw [type]
    cases (t.irqs i).level <;> simp [Allows]
  · rw [unchanged]
    exact stopping

/-- An IRQ that is not at its level yet has a level further down. -/
theorem Stopping.findBestObjectForIrq {d : ObjRef} {info : IrqRef} (stopping : Stopping t s i) (valid : Consistent s)
    (tree : SameTree t s) (level : (s.irqs info).level = (t.irqs info).level) (only : OnlyPackages t)
    (nests : TypesNest t) (listed : info ∈ (s.objs d).interrupts) :
    Stopping t (findBestObjectForIrq K d info s) i := by
  rcases findBestObjectForIrq_eq (K := K) d info s with unchanged | ⟨c, _, waits, chosen, descended⟩
  · rw [unchanged]
    exact stopping
  · rw [descended]
    refine (valid.migrated (p := some d) (q := some c) listed).stopping (fun own => ?_) stopping
    subst own
    have child : c ∈ (t.objs d).children := tree.children d ▸ (bestObject_some chosen).1
    have assigned := valid.assigned (p := some d) listed
    obtain ⟨allowed, usable⟩ : Allows (t.irqs i).level (t.objs d).objType ∧ ((t.objs d).objType = .node →
        d ∈ t.numaNodes ∧ cpusIntersects (t.objs d).mask t.unbannedCpus = true) := by
      rcases stopping with waiting | ⟨o, there, kept⟩
      · have unassigned := valid.assigned (p := none) waiting
        rw [assigned] at unassigned
        contradiction
      · rw [assigned] at there
        exact Option.some.inj there ▸ kept
    rw [tree.objType, level] at waits
    refine ⟨allowed.child nests child (fun node => ?_) waits, fun node => absurd node (nests.child_ne_node child)⟩
    obtain ⟨root, intersects⟩ := usable node
    exact only d root intersects c child

/-- In such a topology an IRQ that has waited is where it can be after the passes. -/
theorem calculatePlacement_stopping (valid : Located s) (only : OnlyPackages s) (nests : TypesNest s)
    (nodes : ∀ n ∈ s.numaNodes, (s.objs n).objType = .node)
    (named : ∀ i ∈ s.rebalanceIrqList, ∃ n ∈ s.numaNodes, (s.irqs i).numaNode = some n)
    (waited : i ∈ s.rebalanceIrqList) : Stopping s (calculatePlacement K s) i := by
  apply calculatePlacement_preserves (I := fun s' => Stopping s s' i) valid
  · have sorted : (sortIrqList K none s).rebalanceIrqList.Perm s.rebalanceIrqList := List.perm_insertionSort _ _
    exact .inl (sorted.mem_iff.mpr waited)
  · intro s' info path waits stopping
    exact stopping.placeIrqInNode (Placing.path_located path valid).toConsistent (Placing.path_sameDb path)
      (Placing.path_sameTree path) nodes (named i waited) waits
  · intro s' d info path _ listed stopping
    exact stopping.findBestObjectForIrq (Placing.path_located path valid).toConsistent (Placing.path_sameTree path)
      (Placing.path_level path info) only nests listed

theorem SameTree.onlyPackages (same : SameTree t s) (only : OnlyPackages t) : OnlyPackages s := by
  intro n root usable c child
  rw [same.numaNodes] at root
  rw [same.mask, same.unbannedCpus] at usable
  rw [same.children] at child
  rw [same.objType]
  exact only n root usable c child

/-- Where nodes with CPUs have packages only, every IRQ stops within its level. -/
theorem OnlyPackages.kept (only : OnlyPackages t) (nests : TypesNest t)
    (nodes : ∀ n ∈ t.numaNodes, (t.objs n).objType = .node) : AlwaysKept K t := by
  intro s same valid named i waited
  have nodes' (n : ObjRef) (listed : n ∈ s.numaNodes) : (s.objs n).objType = .node := by
    rw [same.numaNodes] at listed
    rw [same.objType]
    exact nodes n listed
  have stopping : Stopping s (calculatePlacement K s) i :=
    calculatePlacement_stopping valid (same.onlyPackages only) (same.typesNest nests) nodes' named waited
  have placing := calculatePlacement_path (K := K) valid
  have valid' := Placing.path_located placing valid
  rcases stopping with waiting | ⟨o, assigned, allowed, _⟩
  · have path := calculatePlacement_descends (K := K) valid
    have nowhere := placeWaiting_drained valid named waited (Descending.path_waiting path waiting)
    exact .inl ⟨waiting, fun node => ⟨nowhere node, fun target => Descending.path_nodeTarget path target (nowhere node)⟩⟩
  · have known : i ∈ (calculatePlacement K s).interruptsDb := by
      rw [(Placing.path_sameDb placing).interruptsDb]
      exact valid.toConsistent.mem_db (p := none) waited
    refine .inr ⟨o, assigned, valid'.toConsistent.listed known assigned, ?_⟩
    rw [(Placing.path_sameTree placing).objType]
    exact allowed

end Stopping

section Skipping

/-- A waiting package-level IRQ that prefers a node, of whose children one has less load than the others. -/
def skipping (t : State) (n c : ObjRef) : State :=
  { t with
    objs := fun o => { t.objs o with load := if o = c then 0 else 1, powersaveMode := false, slotsLeft := INT_MAX }
    irqs := fun _ => { level := .package, numaNode := some n }
    nextIrq := 1, interruptsDb := [0], bannedIrqs := [], rebalanceIrqList := [0] }

/-- The IRQ is below the packages. -/
def Skipped (s : State) : Prop :=
  ∃ o, (s.irqs 0).assignedObj = some o ∧ (s.objs o).objType ≠ .node ∧ (s.objs o).objType ≠ .package

theorem skipping_sameTree (t : State) (n c : ObjRef) : SameTree t (skipping t n c) := by
  constructor <;> intros <;> rfl

theorem skipping_located (idle : ∀ o, (t.objs o).interrupts = []) : Located (skipping t n c) :=
  located_of_waiting (List.nodup_singleton _) (fun i member => by simp_all [skipping]) rfl rfl idle
    fun i _ => ⟨rfl, by simp [skipping]⟩

/-- No move brings an IRQ back up. -/
theorem Descending.skipped (effect : Descending K s s') (valid : Located s) (nests : TypesNest s)
    (skipped : Skipped s) : Skipped s' := by
  obtain ⟨o, assigned, node, package⟩ := skipped
  cases effect with
  | @descended info d best member waits child eligible moved =>
    by_cases own : info = 0
    · subst own
      obtain rfl := Option.some.inj ((valid.toConsistent.assigned member).symm.trans assigned)
      rcases nests.cases child with ⟨type, _⟩ | ⟨type, _⟩ | ⟨_, cpu⟩
      · exact absurd type node
      · exact absurd type package
      · refine ⟨best, moved.assigned, ?_, ?_⟩ <;> rw [moved.tree.objType, cpu] <;> decide
    · refine ⟨o, by rw [moved.other (Ne.symm own), assigned], ?_, ?_⟩ <;> rwa [moved.tree.objType]

theorem Descending.path_skipped (path : ReflTransGen (Descending K) s s') (valid : Located s) (nests : TypesNest s)
    (skipped : Skipped s) : Skipped s' := by
  have kept : (Located s' ∧ TypesNest s') ∧ Skipped s' :=
    path_preserves (I := fun s => (Located s ∧ TypesNest s) ∧ Skipped s)
      (fun a b inv effect => ⟨⟨effect.located inv.1.1,
        (Placing.descended effect).sameTree.typesNest inv.1.2⟩, effect.skipped inv.1.1 inv.1.2 inv.2⟩)
      ⟨⟨valid, nests⟩, skipped⟩ path
  exact kept.2

/-- The IRQ goes to the node that it prefers. -/
theorem skipping_placed (idle : ∀ o, (t.objs o).interrupts = [])
    (specified : (t.objs n).number ≠ NUMA_NO_NODE ∨ K.numaAvail = false)
    (usable : cpusIntersects (t.objs n).mask t.unbannedCpus = true) :
    Charged none n 0 (skipping t n c) (placeWaiting K (skipping t n c)) := by
  have valid := skipping_located (n := n) (c := c) idle
  have sorted : sortIrqList K none (skipping t n c) = skipping t n c := rfl
  have suitable : SuitableNode K (skipping t n c) n := ⟨specified, usable⟩
  have placed : placeWaiting K (skipping t n c) = migrateIrqObj none (some n) 0 (skipping t n c) := by
    unfold placeWaiting
    rw [sorted]
    change placeIrqInNode K 0 (skipping t n c) = _
    rcases placeIrqInNode_eq (K := K) 0 (skipping t n c) with ⟨node, ⟨preferred, _⟩ | ⟨unsuitable, _⟩, placed⟩ | ⟨_, nowhere⟩
    · obtain rfl : n = node := Option.some.inj preferred
      exact placed
    · exact absurd suitable (unsuitable n rfl)
    · exact absurd (.inl ⟨rfl, suitable⟩) (nowhere (by simp [skipping]) (Option.some_ne_none n) n)
  rw [placed]
  exact valid.toConsistent.charged (p := none) (List.mem_singleton_self 0)

/-- Of objects with all slots, the one with less load than the others is the best. -/
theorem bestObject_lightest {s : State} {candidates : List ObjRef} (listed : c ∈ candidates)
    (eligible : ∀ o ∈ candidates, eligibleObject K s o = true)
    (unprobed : ∀ o ∈ candidates, (s.objs o).slotsLeft = INT_MAX)
    (load : ∀ o ∈ candidates, (s.objs o).load = if o = c then 0 else 1) : bestObject K s candidates = some c := by
  have loads : ∀ o ∈ candidates, (s.objs o).load < 2 ^ 64 - 10000 := by
    intro o member
    rw [load o member]
    split <;> decide
  have cost {o : ObjRef} (member : o ∈ candidates) : (s.objs o).load + slotsPenalty (s.objs o) = if o = c then 0 else 1 := by
    have free : slotsPenalty (s.objs o) = 0 := by
      unfold slotsPenalty
      rw [unprobed o member]
      rfl
    rw [free, load o member, Nat.add_zero]
  cases chosen : bestObject K s candidates with
  | none =>
    rw [bestObject_argmin loads, List.argmin_eq_none, List.filter_eq_nil_iff] at chosen
    exact absurd (eligible c listed) (chosen c listed)
  | some best =>
    have least := bestObject_least chosen loads c listed (eligible c listed)
    rw [cost (bestObject_some chosen).1, cost listed, if_pos rfl] at least
    by_contra other
    rw [if_neg fun same => other (congrArg some same)] at least
    contradiction

/-- The walk over the nodes moves the IRQ on to the child with less load. -/
theorem skipping_descends {s : State} (furnished : Furnished t) (child : c ∈ (t.objs n).children)
    (node : (t.objs n).objType = .node) (packages : (t.objs c).objType ≠ .package)
    (charged : Charged none n 0 (skipping t n c) s) : Skipped (placeIrqInObject K n s) := by
  have same : SameTree t s := (skipping_sameTree t n c).trans charged.tree
  have located := charged.located (List.mem_singleton_self 0) (fun none => by contradiction)
    (skipping_located furnished.idle)
  have resting : (s.objs n).interrupts = [0] := by
    change s.irqList (some n) = _
    rw [charged.lists]
    simp [Filing.move, State.irqList, skipping, furnished.idle]
  have chosen : bestObject K s (s.objs n).children = some c := by
    rw [same.children]
    have unprobed (o : ObjRef) : (s.objs o).slotsLeft = INT_MAX := charged.unprobed o rfl
    refine bestObject_lightest child (fun o member => ?_) (fun o _ => unprobed o) fun o member => ?_
    · have inner := furnished.nests.child_ne_node member
      simp [eligibleObject, same.objType, inner, unprobed, charged.powersaveMode, skipping, INT_MAX]
    · have inner := furnished.nests.child_ne_node member
      rw [charged.load, if_neg fun own => inner (by rw [own]; exact node)]
      rfl
  have moved : (s.irqs 0).moved = true := by
    rw [charged.irqs, Function.update_self]
  have waits : restsOn (s.objs n).objType (s.irqs 0).level = false := by
    rw [same.objType, node, charged.level]
    rfl
  have descends : findBestObjectForIrq K n 0 s = migrateIrqObj (some n) (some c) 0 s := by
    simp [findBestObjectForIrq, moved, waits, chosen]
  have member : 0 ∈ s.irqList (some n) := by
    change 0 ∈ (s.objs n).interrupts
    rw [resting]
    exact List.mem_singleton_self 0
  have migrated := located.toConsistent.migrated (q := some c) member
  unfold placeIrqInObject
  rw [resting, forEach_cons, forEach_nil, descends]
  refine ⟨c, migrated.assigned, ?_, ?_⟩
  · rw [migrated.tree.objType, same.objType]
    exact furnished.nests.child_ne_node child
  · rwa [migrated.tree.objType, same.objType]

/-- A child of a node that is no package draws the IRQ below the packages. -/
theorem skipping_skipped (furnished : Furnished t) (listed : n ∈ t.numaNodes) (child : c ∈ (t.objs n).children)
    (specified : (t.objs n).number ≠ NUMA_NO_NODE ∨ K.numaAvail = false)
    (usable : cpusIntersects (t.objs n).mask t.unbannedCpus = true) (package : (t.objs c).objType ≠ .package) :
    Skipped (calculatePlacement K (skipping t n c)) := by
  have start := skipping_located (n := n) (c := c) furnished.idle
  have charged := skipping_placed (K := K) (c := c) furnished.idle specified usable
  rcases calculatePlacement_cases (K := K) start with ⟨nothing, _⟩ | ⟨s₂, s₃, first, _, nodes, rest⟩
  · contradiction
  rw [← first] at charged
  have node := furnished.nodes n listed
  have same : SameTree t s₂ := (skipping_sameTree t n c).trans charged.tree
  have located := charged.located (List.mem_singleton_self 0) (fun none => by contradiction) start
  have descended := skipping_descends (K := K) furnished child node package charged
  -- the other nodes have no interrupts
  have other (d : ObjRef) (apart : d ≠ n) : placeIrqInObject K d s₂ = s₂ := by
    have empty : (s₂.objs d).interrupts = [] := by
      change s₂.irqList (some d) = _
      rw [charged.lists]
      simp [Filing.move, State.irqList, skipping, furnished.idle, apart]
    unfold placeIrqInObject
    rw [empty]
    rfl
  let I s' := (Located s' ∧ SameTree t s') ∧ (s' = s₂ ∨ Skipped s')
  have visit (d : ObjRef) (s' : State) (inv : I s') : I (placeIrqInObject K d s') ∧
      (Skipped s' → Skipped (placeIrqInObject K d s')) := by
    obtain ⟨⟨valid, tree⟩, before⟩ := inv
    have path := placeIrqInObject_path (K := K) valid d
    have keep := Descending.path_skipped path valid (tree.typesNest furnished.nests)
    refine ⟨⟨⟨Descending.path_located path valid, tree.trans (Placing.path_sameTree (Descending.path_placing path))⟩, ?_⟩, keep⟩
    rcases before with rfl | skipped
    · by_cases own : d = n
      · exact .inr (own ▸ descended)
      · exact .inl (other d own)
    · exact .inr (keep skipped)
  have walked : I s₃ ∧ Skipped s₃ := by
    rw [nodes]
    refine ⟨forEach_preserves ⟨⟨located, same⟩, .inl rfl⟩ fun d _ s' inv => (visit d s' inv).1, ?_⟩
    refine forEach_establishes (x := n) (I := I) (same.numaNodes ▸ listed) ⟨⟨located, same⟩, .inl rfl⟩
      (fun d _ s' inv => (visit d s' inv).1) (fun s' inv => ?_) fun d _ s' inv => (visit d s' inv).2
    rcases inv.2 with rfl | skipped
    · exact descended
    · exact (visit n s' inv).2 skipped
  exact Descending.path_skipped rest walked.1.1.1 (walked.1.1.2.typesNest furnished.nests) walked.2

/-- A child of a built node belongs to a node that is given or, without NUMA, to the only one. -/
theorem parseCpuTree_specified (m : Machine) (banned : CpuMask) (s : State) {n c : ObjRef} :
    let t := parseCpuTree K m banned (buildNumaNodeList K m (freeTopology s))
    n ∈ t.numaNodes → c ∈ (t.objs n).children → (t.objs n).number ≠ NUMA_NO_NODE ∨ K.numaAvail = false := by
  intro t listed child
  have only := (buildNumaNodeList_onlyNodes (K := K) m (freeTopology_onlyNodes (s := s))).1
  have bare := buildNumaNodeList_bare (K := K) m (freeTopology_bare (s := s))
  obtain ⟨entries, s₁, _, grouped, connected⟩ := parseCpuTree_connected (K := K) m banned only bare
  have shaped := grouped.extended.shaped
  have known : n ∈ s₁.numaNodes := connected.linked.numaNodes ▸ listed
  have type := (shaped.numaNodes n known).2
  have recorded {e : Entry} (node : e.node K (State.setBans (buildNumaNodeList K m (freeTopology s)) banned) = some n) :
      (t.objs n).number ≠ NUMA_NO_NODE ∨ K.numaAvail = false := by
    have old : n < (buildNumaNodeList K m (freeTopology s)).nextObj :=
      ((setBans_shaped only banned).numaNodes n (recordedNode_mem node)).1
    rw [connected.linked.number, grouped.extended.number n old]
    exact recordedNode_specified node
  have single {o : ObjRef} (one : (s₁.objs o).numaNodes = [n]) : (t.objs n).number ≠ NUMA_NO_NODE ∨ K.numaAvail = false := by
    obtain ⟨e, _, _, node⟩ := (grouped.numaNodes o n).mp (by rw [one]; exact List.mem_singleton_self n)
    exact recorded node
  rcases (connected.node n c type).mp child with old | ⟨p, _, ⟨_, one⟩ | ⟨_, _, one⟩⟩
  · obtain ⟨e, entry, ⟨rfl, _⟩ | ⟨rfl, _⟩ | ⟨_, node, _⟩⟩ := (grouped.children n c).mp old
    · rw [(grouped.known entry).2.1.2] at type
      contradiction
    · rw [(grouped.known entry).2.2.2] at type
      contradiction
    · exact recorded node
  · exact single one
  · exact single one

/-- Where the placement keeps to the levels, the children of the nodes with CPUs are packages. -/
theorem AlwaysKept.onlyPackages (kept : AlwaysKept K t) (furnished : Furnished t)
    (specified : ∀ n ∈ t.numaNodes, ∀ c ∈ (t.objs n).children, (t.objs n).number ≠ NUMA_NO_NODE ∨ K.numaAvail = false) :
    OnlyPackages t := by
  intro n listed usable c child
  by_contra package
  obtain ⟨o, assigned, node, other⟩ := skipping_skipped (K := K) furnished listed child (specified n listed c child) usable package
  have start := skipping_located (n := n) (c := c) furnished.idle
  have placing := calculatePlacement_path (K := K) start
  have waited : 0 ∈ (skipping t n c).rebalanceIrqList := List.mem_singleton_self 0
  rcases kept (skipping t n c) (skipping_sameTree t n c) start (fun i _ => ⟨n, listed, rfl⟩) 0 waited with
    ⟨waiting, _⟩ | ⟨o', assigned', _, allowed⟩
  · have unassigned := (Placing.path_located placing start).toConsistent.assigned (p := none) waiting
    rw [assigned] at unassigned
    exact absurd unassigned (Option.some_ne_none o)
  · obtain rfl := Option.some.inj (assigned.symm.trans assigned')
    exact allowed.elim node other

end Skipping

/-- The placement keeps to the levels on a topology exactly if each child of a node with a CPU that is not
banned is a package. -/
theorem calculatePlacement_levels (K : Env) (m : Machine) (banned : CpuMask) (s : State) :
    let t := parseCpuTree K m banned (buildNumaNodeList K m (freeTopology s))
    AlwaysKept K t ↔ OnlyPackages t := by
  have furnished := parseCpuTree_furnished (K := K) m banned s
  intro t
  constructor
  · intro kept
    exact kept.onlyPackages furnished fun n listed c child => parseCpuTree_specified m banned s listed child
  · intro only
    exact only.kept furnished.nests furnished.nodes

instance : Decidable (OnlyPackages t) := inferInstanceAs (Decidable (∀ n ∈ _, _ → ∀ c ∈ _, _))

/-- On that machine a package-level IRQ that prefers the first node ends on a CPU. -/
theorem calculatePlacement_interleaved : ¬ AlwaysKept { numaAvail := true } (parseCpuTree { numaAvail := true }
    interleaved CPU_MASK_NONE (buildNumaNodeList { numaAvail := true } interleaved (freeTopology {}))) := by
  intro kept
  refine absurd (kept.onlyPackages (parseCpuTree_furnished interleaved CPU_MASK_NONE {}) ?_) (by decide +kernel)
  exact fun n listed c child => parseCpuTree_specified interleaved CPU_MASK_NONE {} listed child

end Irqbalance
