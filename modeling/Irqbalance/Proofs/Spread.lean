import Irqbalance.Lib.Spread
import Irqbalance.Proofs.BestObject
import Irqbalance.Proofs.Charges
import Irqbalance.Proofs.Slots

/-! # How evenly a placement spreads the interrupts

An object hands its IRQs to its children one by one, each to the child whose load and penalty are least, and
the load of the child grows at once. The children of an object therefore drift apart by no more than the
heaviest IRQ and the penalty for few slots, whatever comes down from above and in which order. A child that
is not eligible, such as a CPU in powersave mode, may stay behind.
-/

namespace Irqbalance

open Relation (ReflTransGen)

variable {K : Env} {s s' s₀ : State} {info : IrqRef} {d x best : ObjRef} {src dst : Option ObjRef} {B : ℕ}

/-- Among the children of an object none is ahead of an eligible one by more than the bound and the penalty of
that one. -/
def Even (K : Env) (B : ℕ) (d : ObjRef) (s : State) : Prop :=
  Spread.Within (s.objs d).children (fun c => eligibleObject K s c = true)
    (fun c => B + slotsPenalty (s.objs c)) fun c => (s.objs c).load

section Moves

/-- A move only gives a slot back to its source, where slots have been probed. -/
theorem migrateIrqObj_slots_le
    (unprobed : (if src.isNone then (s.irqs info).assignedObj else src) = some x → (s.objs x).slotsLeft = INT_MAX) :
    ((migrateIrqObj src dst info s).objs x).slotsLeft ≤ (s.objs x).slotsLeft := by
  unfold migrateIrqObj
  dsimp only
  generalize (if src.isNone then (s.irqs info).assignedObj else src) = src at *
  have same : ((migrateIrq src dst info s).objs x).slotsLeft = (s.objs x).slotsLeft := migrateIrq_slots
  generalize migrateIrq src dst info s = s₁ at same ⊢
  have released {o : ObjRef} (own : src = some o) :
      ((s₁.setObj o (releaseSlot (s₁.objs o))).objs x).slotsLeft ≤ (s.objs x).slotsLeft := by
    apply forall_setObj (P := fun d obj => d = x → obj.slotsLeft ≤ (s.objs x).slotsLeft) _ _ x rfl
    · rintro rfl
      rw [releaseSlot, if_neg (not_not.mpr (same.trans (unprobed own)))]
      exact same.le
    · rintro d - rfl
      exact same.le
  have taken {s₂ : State} (o : ObjRef) (load : ℕ) (before : (s₂.objs x).slotsLeft ≤ (s.objs x).slotsLeft) :
      ((s₂.setObj o { takeSlot (s₂.objs o) with load := load }).objs x).slotsLeft ≤ (s.objs x).slotsLeft := by
    apply forall_setObj (P := fun d obj => d = x → obj.slotsLeft ≤ (s.objs x).slotsLeft) _ _ x rfl
    · rintro rfl
      exact (takeSlot_le _).trans before
    · rintro d - rfl
      exact before
  split
  · exact same.le
  · cases src with
    | none =>
      cases dst with
      | none => exact same.le
      | some o => exact taken o _ same.le
    | some o =>
      cases dst with
      | none => exact released rfl
      | some o' => exact taken o' _ (released rfl)

/-- An object that is eligible with fewer slots has been so with more. -/
theorem eligibleObject_mono (tree : SameTree s s') (mode : (s'.objs x).powersaveMode = (s.objs x).powersaveMode)
    (slots : (s'.objs x).slotsLeft ≤ (s.objs x).slotsLeft) (eligible : eligibleObject K s' x = true) :
    eligibleObject K s x = true := by
  unfold eligibleObject at *
  rw [tree.objType, tree.number, tree.mask, tree.unbannedCpus, mode] at eligible
  simp only [Bool.and_eq_true, Bool.not_eq_true', decide_eq_false_iff_not] at eligible ⊢
  refine ⟨eligible.1, ?_⟩
  have free := eligible.2
  omega

/-- The penalty grows when slots are spent. -/
theorem slotsPenalty_mono (eligible : eligibleObject K s' x = true)
    (slots : (s'.objs x).slotsLeft ≤ (s.objs x).slotsLeft) : slotsPenalty (s.objs x) ≤ slotsPenalty (s'.objs x) := by
  have free := eligibleObject_slots eligible
  unfold slotsPenalty u64 SLOTS_PENALTY_THRESHOLD SLOTS_PENALTY_FACTOR
  split
  · rw [if_pos (by omega), Nat.mod_eq_of_lt (by omega), Nat.mod_eq_of_lt (by omega)]
    omega
  · exact Nat.zero_le _

end Moves

section Room

/-- The object is below a child of this one. -/
def PastObject (s₀ : State) (d : ObjRef) : Option ObjRef → Prop
  | none => False
  | some o => ∃ c ∈ (s₀.objs d).children, Below s₀ c o

theorem PastObject.child (past : PastObject s₀ d (some x)) (child : best ∈ (s₀.objs x).children) :
    PastObject s₀ d (some best) := by
  obtain ⟨c, top, below⟩ := past
  exact ⟨c, top, below.tail child⟩

/-- Nothing is below itself. -/
theorem not_pastObject_self (nests : TypesNest s₀) : ¬ PastObject s₀ d (some d) := by
  rintro ⟨c, child, below⟩
  have down : ∀ o, Below s₀ c o → (s₀.objs o).objType.toNat ≤ (s₀.objs c).objType.toNat := by
    intro o path
    induction path with
    | refl => exact le_rfl
    | tail _ last ih => exact (nests_rank (nests.child _ _ last)).le.trans ih
  exact absurd (down d below) (not_le.mpr (nests_rank (nests.child d c child)))

open Classical in
/-- The loads of the IRQs that can still come to the children of an object. -/
noncomputable def pending (s₀ : State) (d : ObjRef) (s : State) : ℕ :=
  (s₀.interruptsDb.map fun i => if PastObject s₀ d (s.irqs i).assignedObj then 0 else (s₀.irqs i).load + 1).sum

/-- The loads of all IRQs with the 1 that each move adds. -/
def allCharges (s : State) : ℕ := (s.interruptsDb.map fun i => (s.irqs i).load + 1).sum

theorem pending_le : pending s₀ d s ≤ allCharges s₀ := by
  apply List.sum_le_sum
  intro i _
  split
  · exact Nat.zero_le _
  · exact le_rfl

/-- An IRQ goes on below, or comes from the object to one of its children. -/
theorem pending_move (charged : Charged src best info s s') (leads : LeadsTo s₀ src best) (forest : Forest s₀)
    (nests : TypesNest s₀) (assigned : (s.irqs info).assignedObj = src) (known : info ∈ s₀.interruptsDb) :
    pending s₀ d s' + (if best ∈ (s₀.objs d).children then (s₀.irqs info).load + 1 else 0) ≤ pending s₀ d s := by
  have onward : PastObject s₀ d src → PastObject s₀ d (some best) := by
    cases src with
    | none => exact False.elim
    | some o => exact fun past => past.child leads
  have others (i : IrqRef) : PastObject s₀ d (s.irqs i).assignedObj → PastObject s₀ d (s'.irqs i).assignedObj := by
    by_cases own : i = info
    · subst own
      rw [assigned, charged.assigned]
      exact onward
    · rw [charged.other own]
      exact id
  classical
  have kept (i : IrqRef) : (if PastObject s₀ d (s'.irqs i).assignedObj then 0 else (s₀.irqs i).load + 1) ≤
      if PastObject s₀ d (s.irqs i).assignedObj then 0 else (s₀.irqs i).load + 1 := by
    by_cases past : PastObject s₀ d (s.irqs i).assignedObj
    · rw [if_pos (others i past), if_pos past]
    · rw [if_neg past]
      split <;> omega
  unfold pending
  apply Spread.sum_map_add_le known
  · by_cases child : best ∈ (s₀.objs d).children
    · have source : src = some d := (forest.leadsTo leads).mp child
      have arrived : PastObject s₀ d (some best) := ⟨best, child, .refl⟩
      rw [assigned, charged.assigned, source, if_pos child, if_pos arrived, if_neg (not_pastObject_self nests),
        Nat.zero_add]
    · rw [if_neg child, Nat.add_zero]
      exact kept info
  · intro i _
    exact kept i

end Room

section Spreading

/-- What a placement that started in `s₀` keeps about the children of an object. -/
structure Spreading (K : Env) (B : ℕ) (d : ObjRef) (s₀ s : State) : Prop where
  irqLoad : ∀ i, (s.irqs i).load = (s₀.irqs i).load
  unprobed : ∀ c ∈ (s₀.objs d).children, (s₀.objs c).objType ≠ .cpu → (s.objs c).slotsLeft = INT_MAX
  room : ∀ c ∈ (s₀.objs d).children, (s.objs c).load + pending s₀ d s ≤ (s₀.objs c).load + allCharges s₀
  even : Even K B d s

/-- A move to the best child, or to an object elsewhere. -/
theorem Spreading.step (spreading : Spreading K B d s₀ s) (valid : Consistent s) (tree : SameTree s₀ s) (db : SameDb s₀ s)
    (forest : Forest s₀) (nests : TypesNest s₀) (room : ∀ c ∈ (s₀.objs d).children, (s₀.objs c).load + allCharges s₀ < 2 ^ 64 - 10000)
    (heaviest : ∀ i ∈ s₀.interruptsDb, (s₀.irqs i).load + 1 ≤ B) (leads : LeadsTo s₀ src best)
    (least : src = some d → ∀ o ∈ (s₀.objs d).children, eligibleObject K s o = true →
      (s.objs best).load + slotsPenalty (s.objs best) ≤ (s.objs o).load + slotsPenalty (s.objs o))
    (member : info ∈ s.irqList src) : Spreading K B d s₀ (migrateIrqObj src (some best) info s) := by
  have charged : Charged src best info s (migrateIrqObj src (some best) info s) := valid.charged member
  have assigned : (s.irqs info).assignedObj = src := valid.assigned member
  have source : (if src.isNone then (s.irqs info).assignedObj else src) = src := by
    rw [assigned]
    split <;> rfl
  have known : info ∈ s₀.interruptsDb := by
    rw [← db.interruptsDb]
    exact valid.mem_db member
  have slots : ∀ c ∈ (s₀.objs d).children,
      ((migrateIrqObj src (some best) info s).objs c).slotsLeft ≤ (s.objs c).slotsLeft := by
    intro c child
    apply migrateIrqObj_slots_le
    rw [source]
    rintro rfl
    apply spreading.unprobed c child
    intro cpu
    have below := nests.child c best leads
    rw [cpu] at below
    exact below
  have remaining := pending_move (d := d) charged leads forest nests assigned known
  have children : ((migrateIrqObj src (some best) info s).objs d).children = (s₀.objs d).children :=
    (charged.tree.children d).trans (tree.children d)
  generalize migrateIrqObj src (some best) info s = s' at *
  have loads : ∀ c ∈ (s₀.objs d).children, (s'.objs c).load =
      (s.objs c).load + if c = best then (s₀.irqs info).load + 1 else 0 := by
    intro c child
    rw [charged.load, spreading.irqLoad]
    split
    · rename_i own
      subst own
      rw [if_pos child] at remaining
      have free := room c child
      have before := spreading.room c child
      exact Nat.mod_eq_of_lt (by omega)
    · rfl
  refine ⟨fun i => (charged.irqLoad i).trans (spreading.irqLoad i), fun c child other => ?_, fun c child => ?_, ?_⟩
  · exact charged.unprobed c (spreading.unprobed c child other)
  · have before := spreading.room c child
    rw [loads c child]
    by_cases own : c = best
    · subst own
      rw [if_pos child] at remaining
      rw [if_pos rfl]
      omega
    · rw [if_neg own]
      omega
  · have even : Spread.Within (s₀.objs d).children (fun c => eligibleObject K s c = true)
        (fun c => B + slotsPenalty (s.objs c)) fun c => (s'.objs c).load := by
      have before := spreading.even
      unfold Even at before
      rw [tree.children] at before
      by_cases child : best ∈ (s₀.objs d).children
      · apply before.put (least ((forest.leadsTo leads).mp child)) (heaviest info known)
        · rw [loads best child, if_pos rfl]
        · intro c other
          rw [charged.load, if_neg other]
      · intro a childA b childB eligible
        have outside {c : ObjRef} (listed : c ∈ (s₀.objs d).children) : (s'.objs c).load = (s.objs c).load := by
          have other : c ≠ best := by
            rintro rfl
            exact child listed
          rw [loads c listed, if_neg other, Nat.add_zero]
        dsimp only
        rw [outside childA, outside childB]
        exact before a childA b childB eligible
    unfold Even
    rw [children]
    apply even.mono
    · intro c child eligible
      exact eligibleObject_mono charged.tree (charged.powersaveMode c) (slots c child) eligible
    · intro c child eligible
      exact Nat.add_le_add_left (slotsPenalty_mono eligible (slots c child)) B

/-- The placement of waiting IRQs leaves the children of an object as even as they were, or as even as the
heaviest IRQ allows. -/
theorem calculatePlacement_spreading (valid : Located s) (guarded : Guarded s) (slotted : Slotted s) (forest : Forest s)
    (shown : InForest s d) (room : ∀ c ∈ (s.objs d).children, (s.objs c).load + allCharges s < 2 ^ 64 - 10000)
    (heaviest : ∀ i ∈ s.interruptsDb, (s.irqs i).load + 1 ≤ B) (even : Even K B d s) :
    Spreading K B d s (calculatePlacement K s) := by
  have nests : TypesNest s := guarded.typesNest
  apply calculatePlacement_preserves valid
  · refine ⟨fun _ => rfl, fun c child other => ?_, fun c child => Nat.add_le_add_left pending_le _, even⟩
    exact slotted.unprobed c (shown.below (.single child)) other
  · intro s' info path waiting spreading
    have valid' := (Placing.path_located path valid).toConsistent
    have tree := Placing.path_sameTree path
    have db := Placing.path_sameDb path
    rcases placeIrqInNode_eq (K := K) info s' with ⟨node, target, placed⟩ | ⟨same, _⟩
    · have leads : LeadsTo s none node := by
        rcases target with ⟨named, _⟩ | ⟨_, listed, _⟩
        · rw [db.numaNode] at named
          apply guarded.preferred info _ node named
          rw [← db.interruptsDb]
          exact valid'.mem_db (p := none) waiting
        · rwa [tree.numaNodes] at listed
      rw [placed]
      exact spreading.step valid' tree db forest nests room heaviest leads (fun none => by contradiction) waiting
    · rw [same]
      exact spreading
  · intro s' d' info path _ listed spreading
    have valid' := (Placing.path_located path valid).toConsistent
    have tree := Placing.path_sameTree path
    rcases findBestObjectForIrq_eq (K := K) d' info s' with same | ⟨best, _, _, chosen, descended⟩
    · rw [same]
      exact spreading
    · have leads : LeadsTo s (some d') best := by
        have child := (bestObject_some chosen).1
        rwa [tree.children] at child
      rw [descended]
      apply spreading.step valid' tree (Placing.path_sameDb path) forest nests room heaviest leads _ listed
      intro own
      obtain rfl := Option.some.inj own
      rw [tree.children] at chosen
      apply bestObject_least chosen
      intro o child
      have free := room o child
      have before := spreading.room o child
      omega

/-- In every reachable state whose objects are each in one list of children, and where the loads cannot
overflow, a placement leaves the children of an object as even as they were, or as even as the heaviest IRQ
allows, and then none of them is further above the mean of the eligible ones. -/
theorem run_spread (K : Env) (affinity : ℤ → CpuMask) (bans : List ℤ) (modules : List (List Char)) (ops : List Op)
    {s : State} (reached : s = run K (boot affinity bans modules) ops) (forest : Forest s) {d : ObjRef}
    (shown : InForest s d) (room : ∀ c ∈ (s.objs d).children, (s.objs c).load + allCharges s < 2 ^ 64 - 10000)
    {B : ℕ} (heaviest : ∀ i ∈ s.interruptsDb, (s.irqs i).load + 1 ≤ B) (even : Even K B d s) :
    let s' := calculatePlacement K s
    let eligible := (s.objs d).children.filter (eligibleObject K s')
    Even K B d s' ∧ ∀ c ∈ (s.objs d).children, eligible.length * (s'.objs c).load ≤
      (eligible.map fun b => (s'.objs b).load + (B + slotsPenalty (s'.objs b))).sum := by
  have valid : Located s := reached ▸ run_located ops (boot_located affinity bans modules)
  have guarded : Guarded s :=
    reached ▸ run_guarded ops (boot_located affinity bans modules) (boot_guarded affinity bans modules)
  have slotted : Slotted s :=
    reached ▸ run_slotted ops (boot_located affinity bans modules) (boot_guarded affinity bans modules)
      (boot_slotted affinity bans modules)
  have spreading := calculatePlacement_spreading valid guarded slotted forest shown room heaviest even
  have children : ((calculatePlacement K s).objs d).children = (s.objs d).children :=
    (Placing.path_sameTree (calculatePlacement_path valid)).children d
  refine ⟨spreading.even, fun c child => ?_⟩
  have within := spreading.even
  unfold Even at within
  rw [children] at within
  exact within.mean child fun b member => List.mem_filter.mp member

/-- `Forest` for the objects that have been allocated. -/
abbrev AllocatedForest (t : State) : Prop := ∀ p < t.nextObj,
  (t.objs p).children.Nodup ∧ (∀ n ∈ t.numaNodes, n ∉ (t.objs p).children) ∧
    ∀ p' < t.nextObj, ∀ c ∈ (t.objs p).children, c ∈ (t.objs p').children → p = p'

/-- Whether a built topology is a forest shows in the objects that have been allocated. -/
theorem rebuild_forest (m : Machine) (banned : CpuMask) (src : IrqSources) (s : State)
    (checked : AllocatedForest (parseCpuTree K m banned (buildNumaNodeList K m (freeIrqDb (freeTopology s))))) :
    Forest (rebuild K m banned src s) := by
  obtain ⟨shaped, _, _⟩ := rebuild_topology (K := K) m banned s
  unfold rebuild
  dsimp only at shaped checked ⊢
  generalize parseCpuTree K m banned (buildNumaNodeList K m (freeIrqDb (freeTopology s))) = t at shaped checked ⊢
  obtain ⟨_, queued⟩ := rebuild_queued (K := K) shaped src
  have emptied : SameTree t (freeIrqDb t) := by constructor <;> intros <;> rfl
  have tree := emptied.trans (queued.tree.trans clearSlots_adjusted.tree)
  generalize clearSlots (forEach (rebuildIrqDb K src t).interruptsDb forceRebalanceIrq (rebuildIrqDb K src t)) = s₄
    at tree ⊢
  have allocated {p c : ObjRef} (child : c ∈ (t.objs p).children) : p < t.nextObj := by
    by_contra fresh
    rw [(shaped.obj p).fresh (not_lt.mp fresh)] at child
    exact List.not_mem_nil child
  refine ⟨fun p => ?_, fun p p' c child child' => ?_, fun n root p child => ?_⟩
  · rw [tree.children]
    by_cases used : p < t.nextObj
    · exact (checked p used).1
    · rw [(shaped.obj p).fresh (not_lt.mp used)]
      exact List.nodup_nil
  · rw [tree.children] at child child'
    exact (checked p (allocated child)).2.2 p' (allocated child') c child child'
  · rw [tree.children] at child
    rw [tree.numaNodes] at root
    exact (checked p (allocated child)).2.1 n root child

/-- The bookkeeping of loads leaves the tree. -/
theorem account_forest {objs : ObjRef → ObjStats} {irqs : IrqRef → IrqStats} {cycle : ℕ} {bans : List ℤ}
    (forest : Forest s) : Forest (account objs irqs cycle bans s) :=
  ⟨forest.once, forest.single, forest.root⟩

/-- Three interrupts that are balanced over CPUs. -/
def threeIrqs : IrqSources where
  procIrqs := [{ irq := 24, irqClass := IRQ_ETH }, { irq := 25, irqClass := IRQ_ETH }, { irq := 26, irqClass := IRQ_ETH }]

/-- The CPUs, objects 1 and 4, share a cache domain, which is object 2. CPU 0 has a load of 5, and
interrupts with loads of 3, 4 and 5 wait. -/
def threeWaiting : State := account (fun o => ⟨if o = 1 then 5 else 0, 0, 0⟩) (fun i => ⟨0, 0, i + 3, true⟩) 1 []
  (rebuild {} sharedCache CPU_MASK_NONE threeIrqs (boot (fun _ => CPU_MASK_NONE) [] []))

/-- The CPUs stay within the bound of 6 that the heaviest interrupt allows. -/
theorem run_spread_three : let s' := calculatePlacement {} threeWaiting
    let eligible := (threeWaiting.objs 2).children.filter (eligibleObject {} s')
    Even {} 6 2 s' ∧ ∀ c ∈ (threeWaiting.objs 2).children, eligible.length * (s'.objs c).load ≤
      (eligible.map fun b => (s'.objs b).load + (6 + slotsPenalty (s'.objs b))).sum := by
  have built : Forest (rebuild {} sharedCache CPU_MASK_NONE threeIrqs (boot (fun _ => CPU_MASK_NONE) [] [])) :=
    rebuild_forest _ _ _ _ (by decide +kernel)
  have forest : Forest threeWaiting := account_forest built
  have reached : threeWaiting = run {} (boot (fun _ => CPU_MASK_NONE) [] []) [
      .rebuild sharedCache CPU_MASK_NONE threeIrqs,
      .account (fun o => ⟨if o = 1 then 5 else 0, 0, 0⟩) (fun i => ⟨0, 0, i + 3, true⟩) 1 []] := by
    rw [run, List.foldl_cons, List.foldl_cons, List.foldl_nil, step, step, threeWaiting]
  have shown : InForest threeWaiting 2 :=
    ⟨0, by decide +kernel, .tail (b := 3) (.single (by decide +kernel)) (by decide +kernel)⟩
  exact run_spread {} _ _ _ _ reached forest shown
    (by decide +kernel) (by decide +kernel) (by unfold Even Spread.Within; decide +kernel)

end Spreading

end Irqbalance
