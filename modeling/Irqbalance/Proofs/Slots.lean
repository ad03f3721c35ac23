import Irqbalance.Proofs.LoadSums
import Irqbalance.Proofs.Saturation

/-! # Slot counters

`slots_left` is `INT_MAX` until an activation fails on a CPU, then a counter. `SlotsKept` says that
an operation takes no counter below zero and probes nothing but CPUs. Every move spends a slot that
the choice of its target has seen, except the placement on the preferred node of an entry. Such a
node belongs to `numa_nodes`, and `clear_slots` has reset it.
-/

namespace Irqbalance

variable {K : Env} {s s' s'' : State} {info : IrqRef} {o c d : ObjRef}

/-- No counter drops below zero, and only CPUs are probed. -/
structure SlotsKept (s s' : State) : Prop where
  tree : SameTree s s'
  nonneg : ∀ o, 0 ≤ (s.objs o).slotsLeft → 0 ≤ (s'.objs o).slotsLeft
  unprobed : ∀ o, (s.objs o).objType ≠ .cpu → (s.objs o).slotsLeft = INT_MAX → (s'.objs o).slotsLeft = INT_MAX

/-- What the counters look like between two operations. -/
structure Slotted (s : State) : Prop where
  nonneg : ∀ o, 0 ≤ (s.objs o).slotsLeft
  unprobed : ∀ o, InForest s o → (s.objs o).objType ≠ .cpu → (s.objs o).slotsLeft = INT_MAX

namespace SlotsKept

theorem refl (s : State) : SlotsKept s s := ⟨.refl s, fun _ => id, fun _ _ => id⟩

theorem trans (first : SlotsKept s s') (second : SlotsKept s' s'') : SlotsKept s s'' where
  tree := first.tree.trans second.tree
  nonneg o before := second.nonneg o (first.nonneg o before)
  unprobed o other before := second.unprobed o (first.tree.objType o ▸ other) (first.unprobed o other before)

theorem of_slots (tree : SameTree s s') (slots : ∀ o, (s'.objs o).slotsLeft = (s.objs o).slotsLeft) :
    SlotsKept s s' where
  tree := tree
  nonneg o before := (slots o).symm ▸ before
  unprobed o _ before := (slots o).trans before

theorem setIrq {i : IrqInfo} : SlotsKept s (s.setIrq info i) := of_slots sameTree_setIrq fun _ => rfl

theorem setIrqList {p : Option ObjRef} {l : List IrqRef} : SlotsKept s (s.setIrqList p l) :=
  of_slots sameTree_setIrqList fun o => (setIrqList_obj o).2

theorem setObj {obj : TopoObj} (tree : SameTree s (s.setObj o obj))
    (nonneg : 0 ≤ (s.objs o).slotsLeft → 0 ≤ obj.slotsLeft)
    (unprobed : (s.objs o).objType ≠ .cpu → (s.objs o).slotsLeft = INT_MAX → obj.slotsLeft = INT_MAX) :
    SlotsKept s (s.setObj o obj) where
  tree := tree
  nonneg := forall_setObj (P := fun d x => 0 ≤ (s.objs d).slotsLeft → 0 ≤ x.slotsLeft) nonneg fun _ _ => id
  unprobed := forall_setObj (P := fun d x => (s.objs d).objType ≠ .cpu → (s.objs d).slotsLeft = INT_MAX →
    x.slotsLeft = INT_MAX) unprobed fun _ _ _ before => before

theorem saturated (cpu : (s.objs o).objType = .cpu) : SlotsKept s (setSlots o SLOTS_SATURATED s) :=
  setObj (sameTree_setObj rfl rfl rfl rfl rfl) (fun _ => Int.le_refl 0) fun other => absurd cpu other

theorem forEach {α : Type*} {l : List α} {cb : α → State → State}
    (visit : ∀ x ∈ l, ∀ s, SlotsKept s (cb x s)) : SlotsKept s (forEach l cb s) :=
  forEach_preserves (I := SlotsKept s) (.refl s) fun x member s' kept => kept.trans (visit x member s')

theorem slotted (kept : SlotsKept s s') (slotted : Slotted s) : Slotted s' where
  nonneg o := kept.nonneg o (slotted.nonneg o)
  unprobed o shown other := by
    rw [kept.tree.objType] at other
    exact kept.unprobed o other (slotted.unprobed o (kept.tree.inForest.mp shown) other)

end SlotsKept

section Moving

variable {src dst : Option ObjRef}

theorem slotsKept_migrateIrq : SlotsKept s (migrateIrq src dst info s) :=
  .of_slots migrateIrq_frame.tree fun _ => migrateIrq_slots

theorem releaseSlot_slots (obj : TopoObj) : obj.slotsLeft ≤ (releaseSlot obj).slotsLeft := by
  unfold releaseSlot
  split
  · exact Int.le_add_one (Int.le_refl _)
  · exact Int.le_refl _

theorem slotsKept_releaseSlot : SlotsKept s (s.setObj o (releaseSlot (s.objs o))) := by
  refine .setObj (sameFrame_releaseSlot o).tree (fun before => before.trans (releaseSlot_slots _)) fun _ before => ?_
  rw [releaseSlot, if_neg (not_not.mpr before)]
  exact before

theorem slotsKept_takeSlot {load : ℕ} (free : 0 < (s.objs o).slotsLeft) :
    SlotsKept s (s.setObj o { takeSlot (s.objs o) with load := load }) := by
  refine .setObj (sameFrame_takeSlot o load).tree (fun _ => ?_) fun _ before => ?_
  · dsimp only [takeSlot]
    split
    · exact Int.sub_nonneg_of_le free
    · exact free.le
  · dsimp only [takeSlot]
    rw [if_neg (not_not.mpr before)]
    exact before

theorem slotsLeft_releaseSlot (o d : ObjRef) :
    (s.objs d).slotsLeft ≤ ((s.setObj o (releaseSlot (s.objs o))).objs d).slotsLeft :=
  forall_setObj (P := fun d x => (s.objs d).slotsLeft ≤ x.slotsLeft) (releaseSlot_slots _) (fun _ _ => le_rfl) d

/-- A move to an object with a slot left, or to the rebalance list. -/
theorem slotsKept_migrateIrqObj (free : ∀ d, dst = some d → 0 < (s.objs d).slotsLeft) :
    SlotsKept s (migrateIrqObj src dst info s) := by
  unfold migrateIrqObj
  dsimp only
  generalize (if src.isNone then (s.irqs info).assignedObj else src) = src
  have moved : SlotsKept s (migrateIrq src dst info s) := slotsKept_migrateIrq
  have slots (d : ObjRef) : ((migrateIrq src dst info s).objs d).slotsLeft = (s.objs d).slotsLeft := migrateIrq_slots
  generalize migrateIrq src dst info s = s₁ at moved slots ⊢
  have stored {s : State} : SlotsKept s (s.setIrq info { s.irqs info with assignedObj := dst }) := .setIrq
  have left (d : ObjRef) (target : dst = some d) : 0 < (s₁.objs d).slotsLeft := by
    rw [slots d]
    exact free d target
  split
  · exact moved
  · cases src with
    | none =>
      cases dst with
      | none => exact moved.trans stored
      | some d => exact (moved.trans (slotsKept_takeSlot (left d rfl))).trans stored
    | some o =>
      have released := moved.trans (slotsKept_releaseSlot (o := o))
      cases dst with
      | none => exact released.trans stored
      | some d =>
        have left := (left d rfl).trans_le (slotsLeft_releaseSlot o d)
        exact (released.trans (slotsKept_takeSlot left)).trans stored

/-- Nothing is spent on the rebalance list. -/
theorem slotsKept_forceRebalanceIrq : SlotsKept s (forceRebalanceIrq info s) := by
  unfold forceRebalanceIrq
  split
  · exact .refl s
  · split
    · exact .of_slots (by constructor <;> intros <;> rfl) fun _ => rfl
    · exact slotsKept_migrateIrqObj fun d none => by contradiction

end Moving

section Balancing

theorem slotsKept_moveCandidateIrqs (acc : LoadBalanceInfo × State) :
    SlotsKept acc.2 (moveCandidateIrqs K info acc).2 := by
  obtain ⟨b, s⟩ := acc
  rcases moveCandidateIrqs_cases (K := K) (b := b) (s := s) info with kept | ⟨_, _, _, _, moved⟩
  · rw [kept]
    exact .refl s
  · rw [moved]
    exact slotsKept_forceRebalanceIrq

theorem slotsKept_migrateOverloadedIrqs (acc : LoadBalanceInfo × State) :
    SlotsKept acc.2 (migrateOverloadedIrqs K o acc).2 := by
  obtain ⟨lb, s⟩ := acc
  unfold migrateOverloadedIrqs
  dsimp only
  split
  · exact forEach_preserves (I := fun acc : LoadBalanceInfo × State => SlotsKept s acc.2) .setIrqList
      fun _ _ acc kept => kept.trans (slotsKept_moveCandidateIrqs acc)
  · exact .refl s

theorem slotsKept_findOverloadedObjs (objs : List ObjRef) : SlotsKept s (findOverloadedObjs K objs s).2 :=
  forEach_preserves (I := fun acc : LoadBalanceInfo × State => SlotsKept s acc.2) (.refl s)
    fun _ _ acc kept => kept.trans (slotsKept_migrateOverloadedIrqs acc)

theorem slotsKept_setPowersaveMode {on : Bool} : SlotsKept s (setPowersaveMode on o s) :=
  .setObj (sameTree_setObj rfl rfl rfl rfl rfl) id fun _ => id

theorem slotsKept_updatePowersave (lb : LoadBalanceInfo) : SlotsKept s (updatePowersave K lb s) := by
  unfold updatePowersave
  split
  · exact .refl s
  · split
    · exact .refl s
    · split
      · dsimp only
        split
        · exact slotsKept_setPowersaveMode.trans (.forEach fun _ _ _ => slotsKept_forceRebalanceIrq)
        · exact slotsKept_setPowersaveMode
      · split
        · exact .forEach fun _ _ _ => slotsKept_setPowersaveMode
        · exact .refl s

theorem slotsKept_updateMigrationStatus : SlotsKept s (updateMigrationStatus K s) := by
  have cpus := slotsKept_findOverloadedObjs (K := K) (s := s) s.cpus
  unfold updateMigrationStatus
  generalize findOverloadedObjs K s.cpus s = first at cpus ⊢
  obtain ⟨b, s₁⟩ := first
  dsimp only
  have modes := slotsKept_updatePowersave (K := K) (s := s₁) b
  generalize updatePowersave K b s₁ = s₂ at modes ⊢
  have caches := slotsKept_findOverloadedObjs (K := K) (s := s₂) s₂.cacheDomains
  generalize (findOverloadedObjs K s₂.cacheDomains s₂).2 = s₃ at caches ⊢
  have packages := slotsKept_findOverloadedObjs (K := K) (s := s₃) s₃.packages
  exact cpus.trans (modes.trans (caches.trans (packages.trans (slotsKept_findOverloadedObjs _))))

end Balancing

section Placing

/-- `find_best_object` refuses objects without slots. -/
theorem eligibleObject_slots (eligible : eligibleObject K s d = true) : 0 < (s.objs d).slotsLeft := by
  simp only [eligibleObject, Bool.and_eq_true, Bool.not_eq_true', decide_eq_false_iff_not] at eligible
  exact Int.not_le.mp eligible.2

/-- A move to the best of some objects. -/
theorem slotsKept_best {src : Option ObjRef} {candidates : List ObjRef} {best : ObjRef}
    (chosen : bestObject K s candidates = some best) : SlotsKept s (migrateIrqObj src (some best) info s) := by
  refine slotsKept_migrateIrqObj fun d target => ?_
  obtain rfl := Option.some.inj target
  exact eligibleObject_slots (bestObject_some chosen).2

theorem slotsKept_findBestObjectForIrq : SlotsKept s (findBestObjectForIrq K d info s) := by
  unfold findBestObjectForIrq
  split
  · exact .refl s
  · split
    · exact .refl s
    · split
      · exact .refl s
      · rename_i best chosen
        exact slotsKept_best chosen

theorem slotsKept_placeIrqInObject : SlotsKept s (placeIrqInObject K d s) :=
  .forEach fun _ _ _ => slotsKept_findBestObjectForIrq

/-- The preferred node is taken without a look at its slots. -/
theorem slotsKept_placeIrqInNode (free : ∀ n, (s.irqs info).numaNode = some n → 0 < (s.objs n).slotsLeft) :
    SlotsKept s (placeIrqInNode K info s) := by
  unfold placeIrqInNode
  split
  · exact .refl s
  · split
    · exact .refl s
    · rename_i node named
      split
      · refine slotsKept_migrateIrqObj fun d target => ?_
        obtain rfl := Option.some.inj target
        exact free node named
      · split
        · exact .refl s
        · rename_i best chosen
          exact slotsKept_best chosen

theorem placeIrqInNode_frame : SameFrame s (placeIrqInNode K info s) := by
  unfold placeIrqInNode
  split
  · exact .refl s
  · split
    · exact .refl s
    · split
      · exact migrateIrqObj_frame
      · split
        · exact .refl s
        · exact migrateIrqObj_frame

/-- The nodes of a built topology have all their slots. -/
theorem Slotted.node (slotted : Slotted s) (guarded : Guarded s) (node : d ∈ s.numaNodes) :
    (s.objs d).slotsLeft = INT_MAX := by
  apply slotted.unprobed d ⟨d, node, .refl⟩
  rw [guarded.nodes d node]
  decide

theorem slotsKept_calculatePlacement (located : Located s) (guarded : Guarded s) (slotted : Slotted s) :
    SlotsKept s (calculatePlacement K s) := by
  have sorted : SlotsKept s (sortIrqList K none s) := .setIrqList
  unfold calculatePlacement
  dsimp only
  split
  · refine SlotsKept.trans (.trans (.trans (sorted.trans ?_) (.forEach fun _ _ _ => slotsKept_placeIrqInObject))
      (.forEach fun _ _ _ => slotsKept_placeIrqInObject)) (.forEach fun _ _ _ => slotsKept_placeIrqInObject)
    refine (forEach_preserves (I := fun s' => SlotsKept (sortIrqList K none s) s' ∧
      SameFrame (sortIrqList K none s) s') ⟨.refl _, .refl _⟩ fun i waits s' kept => ?_).1
    refine ⟨kept.1.trans (slotsKept_placeIrqInNode fun n named => ?_), kept.2.trans placeIrqInNode_frame⟩
    -- a waiting entry is in the database, and its node in `numa_nodes`
    have waiting : i ∈ s.irqList none := (List.perm_insertionSort _ _).mem_iff.mp waits
    have named₀ : (s.irqs i).numaNode = some n := (kept.2.db.numaNode i).symm.trans named
    have node := guarded.preferred i (located.mem_db waiting) n named₀
    have notCpu : (s.objs n).objType ≠ .cpu := by
      rw [guarded.nodes n node]
      decide
    rw [(sorted.trans kept.1).unprobed n notCpu (slotted.node guarded node)]
    decide
  · exact sorted

end Placing

section Activating

variable {original fallback scope : ObjRef} {tried : CpuMask}

/-- A CPU that the search under an object finds has a slot left. -/
theorem findBestCpuUnderObj_slots {fuel : ℕ} (chosen : findBestCpuUnderObj s original tried fuel scope = some fallback) :
    0 < (s.objs fallback).slotsLeft := by
  have valid := findBestCpuUnderObj_valid chosen
  simp only [isValidFallback, Bool.and_eq_true, Bool.not_eq_true', decide_eq_false_iff_not] at valid
  exact Int.not_le.mp valid.1.1.2

theorem slotsKept_setAssigned (info : IrqRef) (o : ObjRef) : SlotsKept s (setAssigned info o s) := .setIrq

theorem slotsKept_writeAffinity {irq : ℤ} {mask : CpuMask} : SlotsKept s (writeAffinity K irq mask s).2 :=
  .of_slots (by constructor <;> intros <;> rfl) fun _ => rfl

theorem slotsKept_adoptFallback (info : IrqRef) (o : ObjRef) (free : 0 < (s.objs c).slotsLeft) :
    SlotsKept s (adoptFallback info o c s) := by
  have moved : SlotsKept s (migrateIrqObj (some o) (some c) info s) :=
    slotsKept_migrateIrqObj fun d target => Option.some.inj target ▸ free
  unfold adoptFallback
  dsimp only
  split
  · rename_i cpu
    exact (moved.trans (.saturated cpu)).trans .setIrq
  · exact moved.trans .setIrq

theorem slotsKept_fallbackLoop (attempts : ℕ) :
    SlotsKept s (fallbackLoop K info original scope attempts tried s).2 := by
  induction attempts generalizing s tried with
  | zero => exact .refl s
  | succ attempts ih =>
    unfold fallbackLoop
    split
    · exact .refl s
    · rename_i fallback chosen
      have free := findBestCpuUnderObj_slots chosen
      have cpu := isValidFallback_cpu (findBestCpuUnderObj_valid chosen)
      have wrote : SlotsKept s (setAssigned info fallback (wrote K info fallback s)) :=
        .trans slotsKept_writeAffinity .setIrq
      have adopted := wrote.trans (slotsKept_adoptFallback info original free)
      simp only [writeAffinity_setAssigned]
      cases K.write s.clock with
      | ok => exact adopted
      | closeError _ => exact adopted
      | openError _ =>
        have restored := wrote.trans (slotsKept_setAssigned info original)
        exact restored.trans ih
      | writeError e =>
        dsimp only
        split
        · have clamped := wrote.trans (.saturated cpu)
          have restored := clamped.trans (slotsKept_setAssigned info original)
          exact restored.trans ih
        · have restored := wrote.trans (slotsKept_setAssigned info original)
          exact restored.trans ih

theorem slotsKept_tryFallbackCpu (info : IrqRef) (original : ObjRef) :
    SlotsKept s (tryFallbackCpu K info original s).2 := by
  unfold tryFallbackCpu
  dsimp only
  split
  · exact .refl s
  · split
    · exact .refl s
    · exact slotsKept_fallbackLoop _

theorem slotsKept_activateError (e : Errno) : SlotsKept s (activateError K e info o s) := by
  have full : SlotsKept s (if (s.objs o).objType = .cpu then setSlots o SLOTS_SATURATED s else s) := by
    split
    · rename_i cpu
      exact .saturated cpu
    · exact .refl s
  have tried := full.trans (slotsKept_tryFallbackCpu (K := K) info o)
  unfold activateError
  split
  any_goals exact .refl s
  · dsimp only
    generalize tryFallbackCpu K info o _ = tried' at tried ⊢
    obtain ⟨placed, s₁⟩ := tried'
    cases placed with
    | true => exact tried
    | false => exact (tried.trans slotsKept_forceRebalanceIrq).trans .setIrq
  · exact .setIrq

theorem slotsKept_activateMapping : SlotsKept s (activateMapping K info s) := by
  have looked : SlotsKept s (looked s) := .of_slots (by constructor <;> intros <;> rfl) fun _ => rfl
  have wrote (o : ObjRef) : SlotsKept s (wrote K info o (Irqbalance.looked s)) := looked.trans slotsKept_writeAffinity
  cases moved : (s.irqs info).moved with
  | false =>
    simp only [activateMapping, moved, Bool.not_false, if_true]
    exact .refl s
  | true =>
    cases assigned : (s.irqs info).assignedObj with
    | none =>
      simp only [activateMapping, moved, Bool.not_true, Bool.false_eq_true, if_false, assigned]
      exact .refl s
    | some o =>
      rw [activateMapping_moved moved assigned]
      split
      · exact looked.trans .setIrq
      · split
        · exact (wrote o).trans .setIrq
        · exact (wrote o).trans (slotsKept_activateError _)

end Activating

section Removing

theorem slotsKept_probeAgain {obj : TopoObj} (tree : SameTree s (s.setObj o obj)) (slots : obj.slotsLeft = INT_MAX) :
    SlotsKept s (s.setObj o obj) := by
  refine .setObj tree (fun _ => ?_) fun _ _ => slots
  rw [slots]
  decide

/-- The slots of the object that an IRQ leaves are probed again. -/
theorem slotsKept_removeNoExistingIrq : SlotsKept s (removeNoExistingIrq info s) := by
  have unlinked (l l' l'' : List IrqRef) :
      SlotsKept s { s with interruptsDb := l, bannedIrqs := l', rebalanceIrqList := l'' } :=
    .of_slots (by constructor <;> intros <;> rfl) fun _ => rfl
  unfold removeNoExistingIrq
  split
  · exact .setIrq
  · dsimp only
    split
    · exact unlinked _ _ _
    · split
      · exact (unlinked _ _ _).trans (slotsKept_probeAgain (sameTree_setObj rfl rfl rfl rfl rfl) rfl)
      · exact unlinked _ _ _

theorem slotsKept_clearNoExistingIrqs : SlotsKept s (clearNoExistingIrqs s) :=
  .trans (.forEach fun _ _ _ => slotsKept_removeNoExistingIrq) (.forEach fun _ _ _ => slotsKept_removeNoExistingIrq)

end Removing

section Rebuilding

/-- The counters as `calloc` leaves them. -/
def Unset (s : State) : Prop := ∀ o, (s.objs o).slotsLeft = 0

theorem Unset.setObj {obj : TopoObj} (unset : Unset s) (zero : obj.slotsLeft = 0) : Unset (s.setObj o obj) :=
  forall_setObj (P := fun _ x => x.slotsLeft = 0) zero fun d _ => unset d

theorem Unset.recordNode (unset : Unset s) (obj : ObjRef) (nodeid : ℤ) : Unset (recordNode K obj nodeid s) := by
  unfold Irqbalance.recordNode addNumaNodeToTopoObj
  split
  · split
    · exact unset
    · rename_i node _
      split
      · exact unset
      · obtain ⟨s₁, recorded, unset₁⟩ : ∃ s₁, s₁ = (if node ∈ (s.objs obj).numaNodes then s
            else s.setObj obj { s.objs obj with numaNodes := (s.objs obj).numaNodes ++ [node] }) ∧ Unset s₁ := by
          refine ⟨_, rfl, ?_⟩
          split
          · exact unset
          · exact unset.setObj (unset obj)
        rw [← recorded]
        dsimp only
        split
        · split
          · exact unset₁
          · have added : Unset (s₁.addChild node obj) := unset₁.setObj (unset₁ node)
            exact added.setObj (added obj)
        · exact unset₁
  · exact unset

theorem Unset.adoptChild (unset : Unset s) (o child : ObjRef) : Unset (adoptChild o child s) := by
  unfold Irqbalance.adoptChild
  split
  · exact unset
  · have added : Unset (s.addChild o child) := unset.setObj (unset o)
    exact added.setObj (added child)

theorem Unset.doOneCpu (unset : Unset s) (m : Machine) (d : CpuDir) : Unset (doOneCpu K m d s) := by
  have found {s : State} (unset : Unset s) (mask : CpuMask) : Unset (findCacheDomain mask s).2 := by
    unfold findCacheDomain
    split
    · exact unset
    · exact unset.setObj rfl
  have found' {s : State} (unset : Unset s) (id : ℤ) (mask : CpuMask) : Unset (findPackage id mask s).2 := by
    unfold findPackage
    split
    · exact unset
    · exact unset.setObj rfl
  unfold Irqbalance.doOneCpu addCpuToCacheDomain addCacheDomainToPackage
  split
  · exact unset
  · dsimp only
    split
    · exact unset
    · apply Unset.recordNode
      apply Unset.adoptChild
      apply found'
      apply Unset.recordNode
      apply Unset.adoptChild
      apply found
      exact Unset.setObj unset rfl

theorem Unset.connectCpuMemTopo (unset : Unset s) (fuel : ℕ) (p : ObjRef) : Unset (connectCpuMemTopo fuel p s) := by
  induction fuel generalizing s p with
  | zero => exact unset
  | succ fuel ih =>
    unfold Irqbalance.connectCpuMemTopo
    split
    · exact unset
    · rename_i node _
      obtain ⟨s₁, linked, unset₁⟩ : ∃ s₁, s₁ = (if (s.objs p).objType == .package && (s.objs p).parent.isNone
          then s.setObj p { s.objs p with parent := some node } else s) ∧ Unset s₁ := by
        refine ⟨_, rfl, ?_⟩
        split
        · exact unset.setObj (unset p)
        · exact unset
      rw [← linked]
      dsimp only
      split
      · exact unset₁
      · exact unset₁.setObj (unset₁ node)
    · exact forEach_preserves unset fun c _ _ unset => ih unset c

theorem unset_parseCpuTree (m : Machine) (banned : CpuMask) (s : State) :
    Unset (parseCpuTree K m banned (buildNumaNodeList K m (freeIrqDb (freeTopology s)))) := by
  have added {s : State} (unset : Unset s) (id : ℤ) (mask : CpuMask) : Unset (addOneNode id mask s) :=
    unset.setObj rfl
  have freed : Unset (freeIrqDb (freeTopology s)) := fun _ => rfl
  have nodes : Unset (buildNumaNodeList K m (freeIrqDb (freeTopology s))) := by
    unfold buildNumaNodeList
    dsimp only
    split
    · exact forEach_preserves (added freed _ _) fun d _ _ unset => added unset _ _
    · exact added freed _ _
  exact forEach_preserves (forEach_preserves nodes fun d _ _ unset => unset.doOneCpu m d)
    fun p _ _ unset => unset.connectCpuMemTopo 3 p

theorem slotsKept_clearObjSlots (fuel : ℕ) : SlotsKept s (clearObjSlots fuel d s) := by
  induction fuel generalizing s d with
  | zero => exact .refl s
  | succ fuel ih =>
    have own : SlotsKept s (setSlots d INT_MAX s) := slotsKept_probeAgain (sameTree_setObj rfl rfl rfl rfl rfl) rfl
    exact own.trans (.forEach fun c _ s => ih)

/-- `clear_obj_slots` reaches everything at or below its object. -/
theorem clearObjSlots_below (nests : TypesNest s) {fuel : ℕ} (deep : (s.objs d).objType.toNat < fuel)
    (below : Below s d o) : ((clearObjSlots fuel d s).objs o).slotsLeft = INT_MAX := by
  induction fuel generalizing s d with
  | zero => exact absurd deep (Nat.not_lt_zero _)
  | succ fuel ih =>
    rcases below.cases_head with rfl | ⟨c, child, below⟩
    · exact clearObjSlots_self fuel d
    · have own := (setUnprobed_adjusted (s := s) d).tree
      have member : c ∈ ((setSlots d INT_MAX s).objs d).children := by
        rw [own.children]
        exact child
      refine forEach_establishes (I := SameTree s) (f := clearObjSlots fuel)
        (Q := fun s' => (s'.objs o).slotsLeft = INT_MAX) member own ?_ ?_ ?_
      · intro c' _ s' same
        exact same.trans (clearObjSlots_adjusted fuel c').tree
      · intro s' same
        apply ih (same.typesNest nests)
        · rw [same.objType]
          exact nests.rank child deep
        · exact same.below.mpr below
      · intro c' _ s' _ cleared
        exact (clearObjSlots_adjusted fuel c').unprobed o cleared

theorem clearSlots_forest (nests : TypesNest s) (shown : InForest s o) :
    ((clearSlots s).objs o).slotsLeft = INT_MAX := by
  obtain ⟨n, node, below⟩ := shown
  refine forEach_establishes (I := SameTree s) (f := clearObjSlots 4)
    (Q := fun s' => (s'.objs o).slotsLeft = INT_MAX) node (.refl s) ?_ ?_ ?_
  · intro d _ s' same
    exact same.trans (clearObjSlots_adjusted 4 d).tree
  · intro s' same
    exact clearObjSlots_below (same.typesNest nests) (rank_lt_depth n) (same.below.mpr below)
  · intro d _ s' _ cleared
    exact (clearObjSlots_adjusted 4 d).unprobed o cleared

/-- A rebuild resets the counters of the whole forest. -/
theorem rebuild_slotted (m : Machine) (banned : CpuMask) (src : IrqSources) (s : State) :
    Slotted (rebuild K m banned src s) := by
  have unset := unset_parseCpuTree (K := K) m banned s
  obtain ⟨shaped, _, _⟩ := rebuild_topology (K := K) m banned s
  unfold rebuild
  dsimp only at shaped ⊢
  generalize parseCpuTree K m banned (buildNumaNodeList K m (freeIrqDb (freeTopology s))) = s₂ at unset shaped ⊢
  obtain ⟨_, queued⟩ := rebuild_queued (K := K) shaped src
  generalize forEach (rebuildIrqDb K src s₂).interruptsDb forceRebalanceIrq (rebuildIrqDb K src s₂) = s₄ at queued ⊢
  have objs : s₄.objs = s₂.objs := queued.objs
  have nests : TypesNest s₄ := by
    refine ⟨fun p c child => ?_⟩
    rw [objs] at child ⊢
    exact ((shaped.obj p).children c child).2
  have tree := (clearSlots_adjusted (s := s₄)).tree
  have kept : SlotsKept s₄ (clearSlots s₄) := .forEach fun n _ _ => slotsKept_clearObjSlots 4
  refine ⟨fun o => kept.nonneg o ?_, fun o shown _ => clearSlots_forest nests (tree.inForest.mp shown)⟩
  rw [objs, unset]

end Rebuilding

section Steps

/-- Every operation keeps the counters meaningful. -/
theorem step_slotted (op : Op) (located : Located s) (guarded : Guarded s) (slotted : Slotted s) :
    Slotted (step K s op) := by
  cases op with
  | rebuild m banned src => exact rebuild_slotted m banned src s
  | hotplug src irq hint =>
    cases found : getIrqInfo irq s with
    | some _ =>
      simp only [step, found, Option.isSome_some, if_true]
      exact slotted
    | none =>
      simp only [step, found, Option.isSome_none, Bool.false_eq_true, if_false]
      have grown := (hotplug_spec (K := K) src irq hint found located).2
      exact SlotsKept.slotted (.of_slots grown.tree fun o => by rw [grown.objs]) slotted
  | clearNoExisting => exact slotsKept_clearNoExistingIrqs.slotted slotted
  | updateMigrationStatus => exact slotsKept_updateMigrationStatus.slotted slotted
  | calculatePlacement => exact (slotsKept_calculatePlacement located guarded slotted).slotted slotted
  | activateMappings => exact SlotsKept.slotted (.forEach fun _ _ _ => slotsKept_activateMapping) slotted
  | account objs irqs cycle bans =>
    have tree : SameTree s (account objs irqs cycle bans s) := by constructor <;> intros <;> rfl
    exact SlotsKept.slotted (.of_slots tree fun _ => rfl) slotted

theorem run_slotted (ops : List Op) (located : Located s) (guarded : Guarded s) (slotted : Slotted s) :
    Slotted (run K s ops) := by
  induction ops generalizing s with
  | nil => exact slotted
  | cons op rest ih =>
    exact ih (step_located op located) (step_guarded op located guarded) (step_slotted op located guarded slotted)

theorem boot_slotted (affinity : ℤ → CpuMask) (bans : List ℤ) (modules : List (List Char)) :
    Slotted (boot affinity bans modules) where
  nonneg _ := Int.le_refl 0
  unprobed := by
    rintro o ⟨n, none, _⟩
    contradiction

/-- In every run no counter is negative, and what the nodes lead to above the CPUs is never probed. -/
theorem run_slots (K : Env) (affinity : ℤ → CpuMask) (bans : List ℤ) (modules : List (List Char)) (ops : List Op) :
    let s := run K (boot affinity bans modules) ops
    (∀ o, 0 ≤ (s.objs o).slotsLeft) ∧
      ∀ o, InForest s o → (s.objs o).objType ≠ .cpu → (s.objs o).slotsLeft = INT_MAX := by
  have final := run_slotted (K := K) ops (boot_located affinity bans modules) (boot_guarded affinity bans modules)
    (boot_slotted affinity bans modules)
  exact ⟨final.nonneg, final.unprobed⟩

/-- No node leads to a package whose caches belong to two nodes, and `clear_slots` does not reach it. -/
theorem run_slots_interleaved :
    let s := run { numaAvail := true } (boot (fun _ => CPU_MASK_NONE) [] []) [.rebuild interleaved CPU_MASK_NONE {}]
    ¬ ∀ o ∈ s.numaNodes ++ s.packages ++ s.cacheDomains, (s.objs o).slotsLeft = INT_MAX := by
  decide +kernel

end Steps

end Irqbalance
