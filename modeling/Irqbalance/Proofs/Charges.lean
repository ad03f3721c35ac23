import Irqbalance.Proofs.Guard
import Irqbalance.Proofs.TreeText
import Irqbalance.Proofs.Unsigned
import Mathlib.Algebra.BigOperators.ModEq

/-! # What a placement adds to the loads

Each move of `calculate_placement` adds the load of an IRQ to its new object and takes nothing from the
old one, so that the load that has come to an object beyond that of its children is the load of the IRQs
that have stopped there.
-/

namespace Irqbalance

variable {K : Env} {s s' s'' : State} {info i : IrqRef} {o d best x : ObjRef} {src dst : Option ObjRef}

section Moves

/-- `migrate_irq` touches neither loads nor slots. -/
theorem migrateIrq_loads (src dst : Option ObjRef) (info : IrqRef) (s : State) :
    (∀ x, ((migrateIrq src dst info s).objs x).load = (s.objs x).load ∧
      ((migrateIrq src dst info s).objs x).slotsLeft = (s.objs x).slotsLeft) ∧
      ∀ i, ((migrateIrq src dst info s).irqs i).load = (s.irqs i).load := by
  have relisted (p : Option ObjRef) (l : List IrqRef) (s : State) (x : ObjRef) :
      ((s.setIrqList p l).objs x).load = (s.objs x).load ∧
        ((s.setIrqList p l).objs x).slotsLeft = (s.objs x).slotsLeft := by
    simp only [State.setIrqList]
    split <;> exact ⟨rfl, rfl⟩
  unfold migrateIrq
  split
  · exact ⟨fun x => ⟨rfl, rfl⟩, fun i => rfl⟩
  · refine ⟨fun x => ⟨?_, ?_⟩, fun i => ?_⟩
    · exact ((relisted _ _ _ x).1).trans (relisted _ _ _ x).1
    · exact ((relisted _ _ _ x).2).trans (relisted _ _ _ x).2
    · by_cases own : i = info
      · subst own
        simp [State.setIrq, State.setIrqList]
      · simp [State.setIrq, State.setIrqList, own]

/-- A move with what it does to loads and slots. -/
structure Charged (src : Option ObjRef) (best : ObjRef) (info : IrqRef) (s s' : State) : Prop
    extends Migrated src (some best) info s s' where
  load : ∀ x, (s'.objs x).load =
    if x = best then u64 ((s.objs x).load + ((s.irqs info).load + 1)) else (s.objs x).load
  irqLoad : ∀ i, (s'.irqs i).load = (s.irqs i).load
  slots : src = none → ∀ x, (s'.objs x).slotsLeft ≤ (s.objs x).slotsLeft

theorem takeSlot_le (obj : TopoObj) : (takeSlot obj).slotsLeft ≤ obj.slotsLeft := by
  unfold takeSlot
  split
  · exact sub_le_self _ (by decide)
  · exact le_rfl

/-- The source of a move regains its slot. -/
def releaseFrom (src : Option ObjRef) (s : State) : State :=
  match src with
  | some o => s.setObj o (releaseSlot (s.objs o))
  | none => s

/-- The target of a move spends a slot and is charged. -/
def charge (best : ObjRef) (info : IrqRef) (s : State) : State :=
  let obj := takeSlot (s.objs best)
  let s := s.setObj best { obj with load := u64 (obj.load + u64 ((s.irqs info).load + 1)) }
  s.setIrq info { s.irqs info with assignedObj := some best }

theorem releaseFrom_load (src : Option ObjRef) (s : State) (x : ObjRef) :
    ((releaseFrom src s).objs x).load = (s.objs x).load := by
  cases src with
  | none => rfl
  | some o =>
    obtain ⟨slots, released, _⟩ := releaseSlot_spec (s.objs o)
    by_cases own : x = o
    · subst own
      simp [releaseFrom, State.setObj, released]
    · simp [releaseFrom, State.setObj, own]

/-- A move of an entry in its list. -/
theorem Consistent.charged {p : Option ObjRef} (valid : Consistent s) (member : info ∈ s.irqList p) :
    Charged p best info s (migrateIrqObj p (some best) info s) := by
  have moved : Migrated p (some best) info s (migrateIrqObj p (some best) info s) := valid.migrated member
  obtain ⟨objs, irqs⟩ := migrateIrq_loads p (some best) info s
  have source : (if p.isNone then (s.irqs info).assignedObj else p) = p := by
    cases p with
    | none => exact valid.assigned member
    | some _ => rfl
  have found : ((migrateIrq p (some best) info s).irqs info).moved = true := by
    rw [migrateIrq_eq (find_sameIrq member (valid.unique_irqList (List.mem_append_left _ (valid.mem_db member))))]
    simp [State.setIrq]
  have result : migrateIrqObj p (some best) info s =
      charge best info (releaseFrom p (migrateIrq p (some best) info s)) := by
    unfold migrateIrqObj
    dsimp only
    rw [source, found]
    rfl
  generalize migrateIrq p (some best) info s = s₁ at objs irqs result
  rw [result]
  have released (x : ObjRef) : ((releaseFrom p s₁).objs x).load = (s.objs x).load :=
    (releaseFrom_load p s₁ x).trans (objs x).1
  have same : (releaseFrom p s₁).irqs = s₁.irqs := by cases p <;> rfl
  refine { result ▸ moved with load := fun x => ?_, irqLoad := fun i => ?_, slots := fun waiting x => ?_ }
  · by_cases own : x = best
    · subst own
      rw [if_pos rfl, ← released x, ← irqs info, ← same]
      have taken : (takeSlot ((releaseFrom p s₁).objs x)).load = ((releaseFrom p s₁).objs x).load := by
        unfold takeSlot
        split <;> rfl
      simp [charge, State.setIrq, State.setObj, taken]
    · rw [if_neg own, ← released x]
      simp [charge, State.setIrq, State.setObj, own]
  · rw [← irqs i, ← same]
    by_cases own : i = info
    · subst own
      simp [charge, State.setIrq, State.setObj]
    · simp [charge, State.setIrq, State.setObj, own]
  · subst waiting
    rw [← (objs x).2]
    by_cases own : x = best
    · subst own
      simpa [charge, releaseFrom, State.setIrq, State.setObj] using takeSlot_le (s₁.objs x)
    · simp [charge, releaseFrom, State.setIrq, State.setObj, own]

end Moves

section Accounting

/-- The load of an object beyond the loads of its children. -/
def ownLoad (s : State) (o : ObjRef) : ℤ :=
  (s.objs o).load - ((s.objs o).children.map fun c => ((s.objs c).load : ℤ)).sum

/-- What the placement of interrupts adds to a load. -/
def charges (s : State) (l : List IrqRef) : ℤ := (l.map fun i => ((s.irqs i).load : ℤ) + 1).sum

/-- Each object is once in one list of children, and a node in none. -/
structure Forest (s : State) : Prop where
  once : ∀ p, (s.objs p).children.Nodup
  single : ∀ p p' c, c ∈ (s.objs p).children → c ∈ (s.objs p').children → p = p'
  root : ∀ n ∈ s.numaNodes, ∀ p, n ∉ (s.objs p).children

/-- The loads of a state during the placement that started in `s₀`. -/
structure Accounting (s₀ s : State) : Prop where
  irqLoad : ∀ i, (s.irqs i).load = (s₀.irqs i).load
  balance : ∀ o, ownLoad s o - charges s₀ (s.irqList (some o)) ≡
    ownLoad s₀ o - charges s₀ (s₀.irqList (some o)) [ZMOD 2 ^ 64]
  rest : ∀ i ∉ s₀.rebalanceIrqList, s.irqs i = s₀.irqs i ∧ ∀ p, i ∈ s.irqList p ↔ i ∈ s₀.irqList p
  visited : ∀ x, (s.objs x).load = (s₀.objs x).load ∨
    ∃ i ∈ s₀.rebalanceIrqList, ∃ o, (s.irqs i).assignedObj = some o ∧ Below s₀ x o

/-- The moves of a placement lead from nothing to a node and from an object to one of its children. -/
def LeadsTo (s : State) (src : Option ObjRef) (best : ObjRef) : Prop :=
  match src with
  | none => best ∈ s.numaNodes
  | some d => best ∈ (s.objs d).children

variable {s₀ : State}

theorem Forest.leadsTo (forest : Forest s) (leads : LeadsTo s src best) :
    best ∈ (s.objs o).children ↔ src = some o := by
  cases src with
  | none => exact iff_of_false (forest.root best leads o) (by simp)
  | some d =>
    constructor
    · exact fun child => congrArg some (forest.single d o best leads child)
    · intro same
      exact Option.some.inj same ▸ leads

/-- A move adds a load to its target, in 64 bits. -/
theorem Charged.load_modEq (charged : Charged src best info s s') (x : ObjRef) :
    ((s'.objs x).load : ℤ) ≡ (s.objs x).load + if x = best then ((s.irqs info).load : ℤ) + 1 else 0 [ZMOD 2 ^ 64] := by
  rw [charged.load]
  split
  · have reduced : ((u64 ((s.objs x).load + ((s.irqs info).load + 1)) : ℕ) : ℤ) =
        ((s.objs x).load + ((s.irqs info).load + 1) : ℤ) % 2 ^ 64 := by
      unfold u64
      push_cast
      rfl
    rename_i own
    subst own
    rw [reduced]
    exact Int.mod_modEq _ _
  · rw [add_zero]

/-- What a move adds to an object beyond its children is what it adds to the charges of its interrupts. -/
theorem Charged.balance (charged : Charged src best info s s') (tree : SameTree s₀ s) (forest : Forest s₀)
    (leads : LeadsTo s₀ src best) (member : info ∈ s.irqList src)
    (irqLoad : ∀ i, (s.irqs i).load = (s₀.irqs i).load) (o : ObjRef) :
    ownLoad s' o - charges s₀ (s'.irqList (some o)) ≡ ownLoad s o - charges s₀ (s.irqList (some o)) [ZMOD 2 ^ 64] := by
  generalize cost : ((s.irqs info).load : ℤ) + 1 = L
  have children : (s'.objs o).children = (s₀.objs o).children := (charged.tree.children o).trans (tree.children o)
  have own := charged.load_modEq o
  have below : ((s₀.objs o).children.map fun c => ((s'.objs c).load : ℤ)).sum ≡
      ((s₀.objs o).children.map fun c => ((s.objs c).load : ℤ)).sum + (if src = some o then L else 0) [ZMOD 2 ^ 64] := by
    have added := Int.ModEq.listSum_map (l := (s₀.objs o).children) fun c _ => charged.load_modEq c
    rw [List.sum_map_add, cost] at added
    have once : ((s₀.objs o).children.map fun c => if c = best then L else 0).sum = if src = some o then L else 0 := by
      rw [List.sum_map_eq_nsmul_single best _ fun c other _ => if_neg other, if_pos rfl]
      by_cases child : best ∈ (s₀.objs o).children
      · rw [List.count_eq_one_of_mem (forest.once o) child, one_smul, if_pos ((forest.leadsTo leads).mp child)]
      · rw [List.count_eq_zero_of_not_mem child, zero_smul, if_neg fun same => child ((forest.leadsTo leads).mpr same)]
    rwa [once] at added
  have lists : charges s₀ (s'.irqList (some o)) = charges s₀ (s.irqList (some o)) -
      (if src = some o then L else 0) + if o = best then L else 0 := by
    unfold charges
    rw [charged.lists, Filing.sum_move _ member, ← irqLoad, cost]
    simp only [eq_comm (a := some o), Option.some_inj, eq_comm (a := best)]
  rw [cost] at own
  unfold ownLoad
  rw [children, tree.children o, lists]
  have difference := own.sub below
  have moved := difference.sub_right (charges s₀ (s.irqList (some o)) - (if src = some o then L else 0) +
    if o = best then L else 0)
  apply moved.trans
  ring_nf
  rfl

/-- A move of an IRQ that has been waiting. -/
theorem Accounting.step (accounting : Accounting s₀ s) (charged : Charged src best info s s') (tree : SameTree s₀ s)
    (forest : Forest s₀) (leads : LeadsTo s₀ src best) (member : info ∈ s.irqList src)
    (assigned : (s.irqs info).assignedObj = src) (waited : info ∈ s₀.rebalanceIrqList) : Accounting s₀ s' where
  irqLoad i := (charged.irqLoad i).trans (accounting.irqLoad i)
  balance o := (charged.balance tree forest leads member accounting.irqLoad o).trans (accounting.balance o)
  rest i outside := by
    obtain ⟨same, lists⟩ := accounting.rest i outside
    have other : i ≠ info := by
      rintro rfl
      exact outside waited
    exact ⟨(charged.other other).trans same, fun p => (charged.mem_irqList other).trans (lists p)⟩
  visited x := by
    by_cases target : x = best
    · exact .inr ⟨info, waited, best, charged.assigned, target ▸ .refl⟩
    rw [charged.load, if_neg target]
    rcases accounting.visited x with same | ⟨i, waited', o, there, below⟩
    · exact .inl same
    · right
      by_cases own : i = info
      · subst own
        -- the path is the one that has led to the source
        have source : src = some o := assigned.symm.trans there
        subst source
        exact ⟨i, waited, best, charged.assigned, below.tail leads⟩
      · exact ⟨i, waited', o, by rw [charged.other own, there], below⟩

/-- Sorting the waiting IRQs changes no load. -/
theorem accounting_sorted : Accounting s (sortIrqList K none s) where
  irqLoad _ := rfl
  balance _ := .refl _
  rest i outside := ⟨rfl, fun p => by
    have sorted : (s.rebalanceIrqList.insertionSort fun a b => sortIrqsLe K s a b = true).Perm s.rebalanceIrqList :=
      List.perm_insertionSort _ _
    cases p with
    | none => exact sorted.mem_iff
    | some o => exact Iff.rfl⟩
  visited _ := .inl rfl

/-- What comes to an object itself, and where loads change at all. -/
structure Accounted (s s' : State) : Prop where
  own : ∀ o, ownLoad s' o ≡
    ownLoad s o + charges s (s.rebalanceIrqList.filter fun i => (s'.irqs i).assignedObj = some o) [ZMOD 2 ^ 64]
  apart : ∀ x, (∀ i ∈ s.rebalanceIrqList, ∀ o, (s'.irqs i).assignedObj = some o → ¬ Below s x o) →
    (s'.objs x).load = (s.objs x).load

/-- The interrupts of an object after the placement: those before, and those that have waited. -/
theorem Accounting.interrupts (accounting : Accounting s₀ s) (valid₀ : Located s₀) (valid : Located s)
    (db : SameDb s₀ s) (o : ObjRef) : (s.irqList (some o)).Perm
      (s₀.irqList (some o) ++ s₀.rebalanceIrqList.filter fun i => (s.irqs i).assignedObj = some o) := by
  have waits {i : IrqRef} (waiting : i ∈ s₀.rebalanceIrqList) : (s₀.irqs i).assignedObj = none :=
    valid₀.toConsistent.assigned (p := none) waiting
  refine (List.perm_ext_iff_of_nodup (valid.filed.nodup _) ?_).mpr fun i => ?_
  · apply List.Nodup.append (valid₀.filed.nodup _) ((valid₀.filed.nodup none).filter _)
    intro i resting placed
    have none := waits (List.mem_filter.mp placed).1
    rw [valid₀.toConsistent.assigned resting] at none
    contradiction
  · rw [List.mem_append, List.mem_filter]
    by_cases waited : i ∈ s₀.rebalanceIrqList
    · have apart : i ∉ s₀.irqList (some o) := by
        intro resting
        have none := waits waited
        rw [valid₀.toConsistent.assigned resting] at none
        contradiction
      have known : i ∈ s.interruptsDb := by
        rw [db.interruptsDb]
        exact valid₀.toConsistent.mem_db (p := none) waited
      have listed : i ∈ s.irqList (some o) ↔ (s.irqs i).assignedObj = some o :=
        ⟨fun member => valid.toConsistent.assigned member, fun assigned => valid.toConsistent.listed known assigned⟩
      rw [listed]
      simp [waited, apart]
    · rw [(accounting.rest i waited).2 (some o)]
      simp [waited]

/-- A waiting IRQ is charged to the node it comes to. -/
theorem Accounting.placeIrqInNode (accounting : Accounting s₀ s) (valid : Consistent s) (db : SameDb s₀ s)
    (tree : SameTree s₀ s) (forest : Forest s₀)
    (preferred : ∀ i ∈ s₀.rebalanceIrqList, ∀ n, (s₀.irqs i).numaNode = some n → n ∈ s₀.numaNodes)
    (waiting : info ∈ s.rebalanceIrqList) : Accounting s₀ (placeIrqInNode K info s) := by
  have waited : info ∈ s₀.rebalanceIrqList := by
    by_contra outside
    exact outside (((accounting.rest info outside).2 none).mp waiting)
  rcases placeIrqInNode_eq (K := K) info s with ⟨node, target, placed⟩ | ⟨same, _⟩
  · have leads : LeadsTo s₀ none node := by
      rcases target with ⟨named, _⟩ | ⟨_, listed, _⟩
      · rw [db.numaNode] at named
        exact preferred info waited node named
      · rw [tree.numaNodes] at listed
        exact listed
    rw [placed]
    exact accounting.step (valid.charged (p := none) waiting) tree forest leads waiting
      (valid.assigned (p := none) waiting) waited
  · rw [same]
    exact accounting

/-- An IRQ that goes down is one that has waited: the others have not moved. -/
theorem Accounting.findBestObjectForIrq {d : ObjRef} (accounting : Accounting s₀ s) (valid : Consistent s)
    (tree : SameTree s₀ s) (forest : Forest s₀) (resting : ∀ i ∈ (s₀.objs d).interrupts, (s₀.irqs i).moved = false)
    (listed : info ∈ (s.objs d).interrupts) : Accounting s₀ (findBestObjectForIrq K d info s) := by
  rcases findBestObjectForIrq_eq (K := K) d info s with same | ⟨best, moved, _, chosen, descended⟩
  · rw [same]
    exact accounting
  · have waited : info ∈ s₀.rebalanceIrqList := by
      by_contra outside
      obtain ⟨same, lists⟩ := accounting.rest info outside
      have still := resting info ((lists (some d)).mp listed)
      rw [same, still] at moved
      contradiction
    have leads : LeadsTo s₀ (some d) best := by
      have child := (bestObject_some chosen).1
      rw [tree.children] at child
      exact child
    rw [descended]
    exact accounting.step (valid.charged (p := some d) listed) tree forest leads listed
      (valid.assigned (p := some d) listed) waited

/-- The balance of an object at the end of the placement, when its interrupts are known. -/
theorem Accounting.own (accounting : Accounting s₀ s) (valid₀ : Located s₀) (valid : Located s) (db : SameDb s₀ s)
    (o : ObjRef) : ownLoad s o ≡ ownLoad s₀ o +
      charges s₀ (s₀.rebalanceIrqList.filter fun i => (s.irqs i).assignedObj = some o) [ZMOD 2 ^ 64] := by
  have perm := accounting.interrupts valid₀ valid db o
  have total : charges s₀ (s.irqList (some o)) = charges s₀ (s₀.irqList (some o)) +
      charges s₀ (s₀.rebalanceIrqList.filter fun i => (s.irqs i).assignedObj = some o) := by
    unfold charges
    rw [(perm.map _).sum_eq, List.map_append, List.sum_append]
  have balance := accounting.balance o
  rw [total] at balance
  have moved := balance.add_right (charges s₀ (s₀.irqList (some o)) +
    charges s₀ (s₀.rebalanceIrqList.filter fun i => (s.irqs i).assignedObj = some o))
  rw [sub_add_cancel] at moved
  apply moved.trans
  rw [← add_assoc, sub_add_cancel]

/-- The placement charges each object for the waiting IRQs that stop there, and leaves the loads off their
ways. -/
theorem calculatePlacement_accounted (K : Env) (s : State) (valid : Located s) (forest : Forest s)
    (preferred : ∀ i ∈ s.rebalanceIrqList, ∀ n, (s.irqs i).numaNode = some n → n ∈ s.numaNodes)
    (resting : ∀ o ∈ s.numaNodes ++ s.packages ++ s.cacheDomains, ∀ i ∈ (s.objs o).interrupts,
      (s.irqs i).moved = false) : Accounted s (calculatePlacement K s) := by
  have placing := calculatePlacement_path (K := K) valid
  have accounting : Accounting s (calculatePlacement K s) := by
    apply calculatePlacement_preserves valid accounting_sorted
    · intro s' info path waiting accounting
      exact accounting.placeIrqInNode (Placing.path_located path valid).toConsistent (Placing.path_sameDb path)
        (Placing.path_sameTree path) forest preferred waiting
    · intro s' d info path walked listed accounting
      exact accounting.findBestObjectForIrq (Placing.path_located path valid).toConsistent
        (Placing.path_sameTree path) forest (resting d walked) listed
  refine ⟨fun o => ?_, fun x apart => ?_⟩
  · exact accounting.own valid (Placing.path_located placing valid) (Placing.path_sameDb placing) o
  · rcases accounting.visited x with same | ⟨i, waited, o, there, below⟩
    · exact same
    · exact absurd below (apart i waited o there)

/-- Two IRQs that wait for a node with a package, a cache domain and two CPUs. -/
def twoWaiting : State where
  objs
    | 0 => { objType := .node, mask := BitVec.ofNat NR_CPUS 3, slotsLeft := INT_MAX, children := [1] }
    | 1 => { objType := .package, parent := some 0, slotsLeft := INT_MAX, children := [2] }
    | 2 => { objType := .cache, parent := some 1, slotsLeft := INT_MAX, children := [3, 4] }
    | 3 => { parent := some 2, slotsLeft := INT_MAX, load := 70 }
    | 4 => { parent := some 2, slotsLeft := INT_MAX }
    | _ => {}
  irqs i := { irq := i, level := if i = 0 then .core else .cache, load := 6, numaNode := some 0 }
  nextIrq := 2
  numaNodes := [0]
  packages := [1]
  cacheDomains := [2]
  cpus := [3, 4]
  interruptsDb := [0, 1]
  rebalanceIrqList := [0, 1]
  unbannedCpus := BitVec.ofNat NR_CPUS 3

theorem twoWaiting_forest : Forest twoWaiting := by
  refine ⟨fun p => ?_, fun p p' c child child' => ?_, fun n node p child => ?_⟩
  · rcases p with _ | _ | _ | _ | _ | p <;> first | decide | exact List.nodup_nil
  · rcases p with _ | _ | _ | _ | _ | p <;> rcases p' with _ | _ | _ | _ | _ | p' <;>
      simp_all [twoWaiting]
  · rcases p with _ | _ | _ | _ | _ | p <;> simp_all [twoWaiting]

/-- Both IRQs come down to the idle CPU and to the cache domain. -/
theorem calculatePlacement_accounted_two : Accounted twoWaiting (calculatePlacement {} twoWaiting) := by
  have idle : ∀ o, (twoWaiting.objs o).interrupts = [] := by
    intro o
    rcases o with _ | _ | _ | _ | _ | o <;> rfl
  refine calculatePlacement_accounted {} twoWaiting ?_ twoWaiting_forest (by decide) fun o _ i listed => ?_
  · exact located_of_waiting (by decide) (by decide) rfl rfl idle (by decide)
  · rw [idle] at listed
    exact absurd listed List.not_mem_nil

end Accounting

end Irqbalance
