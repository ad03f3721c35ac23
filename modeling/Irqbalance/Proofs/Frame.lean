import Irqbalance.Model.Daemon
import Irqbalance.Lib.Filing

/-! # What the operations leave alone

Most operations change only a few fields. `SameTree`, `SameDb` and `SameKernel` collect what they
preserve, and `migrateIrqObj_spec` says everything a move of one IRQ does, so that no later
proof has to unfold it.
-/

namespace Irqbalance

/-- The topology and the CPU masks are unchanged; loads, slots, modes and lists may differ. -/
structure SameTree (s s' : State) : Prop where
  numaNodes : s'.numaNodes = s.numaNodes
  packages : s'.packages = s.packages
  cacheDomains : s'.cacheDomains = s.cacheDomains
  cpus : s'.cpus = s.cpus
  bannedCpus : s'.bannedCpus = s.bannedCpus
  unbannedCpus : s'.unbannedCpus = s.unbannedCpus
  cpuOnlineMap : s'.cpuOnlineMap = s.cpuOnlineMap
  objType : ∀ o, (s'.objs o).objType = (s.objs o).objType
  number : ∀ o, (s'.objs o).number = (s.objs o).number
  mask : ∀ o, (s'.objs o).mask = (s.objs o).mask
  parent : ∀ o, (s'.objs o).parent = (s.objs o).parent
  children : ∀ o, (s'.objs o).children = (s.objs o).children

/-- The databases hold the same entries with the same numbers and NUMA nodes. -/
structure SameDb (s s' : State) : Prop where
  interruptsDb : s'.interruptsDb = s.interruptsDb
  bannedIrqs : s'.bannedIrqs = s.bannedIrqs
  nextIrq : s'.nextIrq = s.nextIrq
  irq : ∀ i, (s'.irqs i).irq = (s.irqs i).irq
  numaNode : ∀ i, (s'.irqs i).numaNode = (s.irqs i).numaNode

/-- Procfs has not been accessed. -/
structure SameKernel (s s' : State) : Prop where
  affinity : s'.affinity = s.affinity
  clock : s'.clock = s.clock
  writes : s'.writes = s.writes

theorem SameTree.refl (s : State) : SameTree s s := by constructor <;> intros <;> rfl

theorem SameDb.refl (s : State) : SameDb s s := by constructor <;> intros <;> rfl

theorem SameKernel.refl (s : State) : SameKernel s s := by constructor <;> rfl

theorem SameTree.trans {s s' s'' : State} (first : SameTree s s') (second : SameTree s' s'') :
    SameTree s s'' where
  numaNodes := second.numaNodes.trans first.numaNodes
  packages := second.packages.trans first.packages
  cacheDomains := second.cacheDomains.trans first.cacheDomains
  cpus := second.cpus.trans first.cpus
  bannedCpus := second.bannedCpus.trans first.bannedCpus
  unbannedCpus := second.unbannedCpus.trans first.unbannedCpus
  cpuOnlineMap := second.cpuOnlineMap.trans first.cpuOnlineMap
  objType o := (second.objType o).trans (first.objType o)
  number o := (second.number o).trans (first.number o)
  mask o := (second.mask o).trans (first.mask o)
  parent o := (second.parent o).trans (first.parent o)
  children o := (second.children o).trans (first.children o)

theorem SameDb.trans {s s' s'' : State} (first : SameDb s s') (second : SameDb s' s'') :
    SameDb s s'' where
  interruptsDb := second.interruptsDb.trans first.interruptsDb
  bannedIrqs := second.bannedIrqs.trans first.bannedIrqs
  nextIrq := second.nextIrq.trans first.nextIrq
  irq i := (second.irq i).trans (first.irq i)
  numaNode i := (second.numaNode i).trans (first.numaNode i)

theorem SameKernel.trans {s s' s'' : State} (first : SameKernel s s') (second : SameKernel s' s'') :
    SameKernel s s'' where
  affinity := second.affinity.trans first.affinity
  clock := second.clock.trans first.clock
  writes := second.writes.trans first.writes

section Objects

variable {s : State} {o : ObjRef} {obj : TopoObj}

/-- What holds of the stored object, and of each other one, holds of every object behind the store. -/
theorem forall_setObj {P : ObjRef → TopoObj → Prop} (own : P o obj) (others : ∀ d ≠ o, P d (s.objs d))
    (d : ObjRef) : P d ((s.setObj o obj).objs d) := by
  by_cases same : d = o
  · subst same; simpa [State.setObj] using own
  · simpa [State.setObj, same] using others d same

/-- A field that the stored object keeps is the same everywhere. -/
theorem setObj_field {β : Type} (f : TopoObj → β) (same : f obj = f (s.objs o)) (d : ObjRef) :
    f ((s.setObj o obj).objs d) = f (s.objs d) :=
  forall_setObj (P := fun d x => f x = f (s.objs d)) same (fun _ _ => rfl) d

/-- Storing back an object that differs only in load, slots, mode or list keeps the topology. -/
theorem sameTree_setObj (objType : obj.objType = (s.objs o).objType)
    (number : obj.number = (s.objs o).number) (mask : obj.mask = (s.objs o).mask)
    (parent : obj.parent = (s.objs o).parent) (children : obj.children = (s.objs o).children) :
    SameTree s (s.setObj o obj) :=
  ⟨rfl, rfl, rfl, rfl, rfl, rfl, rfl, setObj_field TopoObj.objType objType, setObj_field TopoObj.number number,
    setObj_field TopoObj.mask mask, setObj_field TopoObj.parent parent, setObj_field TopoObj.children children⟩

theorem sameDb_setObj : SameDb s (s.setObj o obj) := ⟨rfl, rfl, rfl, fun _ => rfl, fun _ => rfl⟩

theorem sameKernel_setObj : SameKernel s (s.setObj o obj) := ⟨rfl, rfl, rfl⟩

/-- An object stored back with its own list leaves every list alone. -/
theorem irqList_setObj (same : obj.interrupts = (s.objs o).interrupts) :
    (s.setObj o obj).irqList = s.irqList := by
  funext p
  cases p with
  | none => rfl
  | some o' => exact setObj_field TopoObj.interrupts same o'

end Objects

section Interrupts

variable {s : State} {i : IrqRef} {info : IrqInfo}

/-- What holds of the stored entry, and of each other one, holds of every entry behind the store. -/
theorem forall_setIrq {P : IrqRef → IrqInfo → Prop} (own : P i info) (others : ∀ j ≠ i, P j (s.irqs j))
    (j : IrqRef) : P j ((s.setIrq i info).irqs j) := by
  by_cases same : j = i
  · subst same; simpa [State.setIrq] using own
  · simpa [State.setIrq, same] using others j same

/-- A field that the stored entry keeps is the same everywhere. -/
theorem setIrq_field {β : Type} (f : IrqInfo → β) (same : f info = f (s.irqs i)) (j : IrqRef) :
    f ((s.setIrq i info).irqs j) = f (s.irqs j) :=
  forall_setIrq (P := fun j x => f x = f (s.irqs j)) same (fun _ _ => rfl) j

theorem sameTree_setIrq : SameTree s (s.setIrq i info) := by constructor <;> intros <;> rfl

theorem sameKernel_setIrq : SameKernel s (s.setIrq i info) := ⟨rfl, rfl, rfl⟩

theorem irqList_setIrq : (s.setIrq i info).irqList = s.irqList := by
  funext p; cases p <;> rfl

/-- Storing back an entry that keeps its number and NUMA node keeps the databases. -/
theorem sameDb_setIrq (irq : info.irq = (s.irqs i).irq)
    (numaNode : info.numaNode = (s.irqs i).numaNode) : SameDb s (s.setIrq i info) :=
  ⟨rfl, rfl, rfl, setIrq_field IrqInfo.irq irq, setIrq_field IrqInfo.numaNode numaNode⟩

end Interrupts

section Lists

variable {s : State} {p : Option ObjRef} {l : List IrqRef}

theorem sameTree_setIrqList : SameTree s (s.setIrqList p l) := by
  constructor <;> intros <;> first | rfl | (simp only [State.setIrqList]; split <;> rfl)

theorem sameDb_setIrqList : SameDb s (s.setIrqList p l) := ⟨rfl, rfl, rfl, fun _ => rfl, fun _ => rfl⟩

theorem sameKernel_setIrqList : SameKernel s (s.setIrqList p l) := ⟨rfl, rfl, rfl⟩

theorem irqList_setIrqList : (s.setIrqList p l).irqList = Function.update s.irqList p l := by
  funext q
  by_cases h : q = p
  · subst h
    cases q <;> simp [State.irqList, State.setIrqList]
  · rw [Function.update_of_ne h]
    cases q with
    | none => simp [State.irqList, State.setIrqList, Ne.symm h]
    | some o => simp [State.irqList, State.setIrqList, Ne.symm h]

/-- Powersave modes and slots do not depend on the lists. -/
theorem setIrqList_obj (o : ObjRef) :
    ((s.setIrqList p l).objs o).powersaveMode = (s.objs o).powersaveMode ∧
      ((s.setIrqList p l).objs o).slotsLeft = (s.objs o).slotsLeft := by
  simp only [State.setIrqList]
  split <;> exact ⟨rfl, rfl⟩

end Lists

section Migration

variable {s : State} {src dst : Option ObjRef} {info : IrqRef}

/-- Everything `migrate_irq_obj` does when it finds the link. -/
structure Migrated (src dst : Option ObjRef) (info : IrqRef) (s s' : State) : Prop where
  tree : SameTree s s'
  db : SameDb s s'
  kernel : SameKernel s s'
  irqs : s'.irqs =
    Function.update s.irqs info { s.irqs info with moved := true, assignedObj := dst }
  lists : s'.irqList = Filing.move s.irqList src dst info
  powersaveMode : ∀ o, (s'.objs o).powersaveMode = (s.objs o).powersaveMode
  unprobed : ∀ o, (s.objs o).slotsLeft = INT_MAX → (s'.objs o).slotsLeft = INT_MAX

/-- Searching by number finds the entry itself where numbers identify entries. -/
theorem find_sameIrq {l : List IrqRef} (member : info ∈ l)
    (unique : ∀ j ∈ l, (s.irqs j).irq = (s.irqs info).irq → j = info) :
    l.find? (sameIrq s info) = some info := by
  cases found : l.find? (sameIrq s info) with
  | none => exact absurd (List.find?_eq_none.mp found info member) (by simp [sameIrq])
  | some j =>
    have same : sameIrq s info j = true := List.find?_some found
    exact congrArg some (unique j (List.mem_of_find?_eq_some found) (by simpa [sameIrq] using same))

/-- Unlinking by number unlinks the entry itself where numbers identify entries. -/
theorem eraseP_sameIrq {l : List IrqRef}
    (unique : ∀ j ∈ l, (s.irqs j).irq = (s.irqs info).irq → j = info) :
    l.eraseP (sameIrq s info) = l.erase info := by
  induction l with
  | nil => rfl
  | cons j rest ih =>
    have tail := ih fun k member => unique k (List.mem_cons_of_mem j member)
    by_cases same : j = info
    · subst same; simp [sameIrq]
    · have differ : sameIrq s info j = false := by
        simpa [sameIrq] using fun equal => same (unique j List.mem_cons_self equal)
      rw [List.eraseP_cons_of_neg (by simp [differ]), List.erase_cons_tail (by simpa using same), tail]

/-- Where the search finds the entry itself, it is unlinked. -/
theorem eraseP_of_found {l : List IrqRef} (found : l.find? (sameIrq s info) = some info) :
    l.eraseP (sameIrq s info) = l.erase info := by
  have own : sameIrq s info info = true := by simp [sameIrq]
  induction l with
  | nil => rfl
  | cons j rest ih =>
    cases first : sameIrq s info j with
    | true =>
      rw [List.find?_cons_of_pos first] at found
      obtain rfl := Option.some.inj found
      rw [List.eraseP_cons_of_pos first, List.erase_cons_head]
    | false =>
      rw [List.find?_cons_of_neg (by simp [first])] at found
      have other : j ≠ info := by
        rintro rfl
        rw [own] at first
        contradiction
      rw [List.eraseP_cons_of_neg (by simp [first]), List.erase_cons_tail (by simpa using other), ih found]

theorem migrateIrq_eq (link : (s.irqList src).find? (sameIrq s info) = some info) :
    migrateIrq src dst info s =
      let s' := s.setIrqList src ((s.irqList src).erase info)
      (s'.setIrqList dst (s'.irqList dst ++ [info])).setIrq info { s.irqs info with moved := true } := by
  simp only [migrateIrq, link, eraseP_of_found link]
  rfl

theorem releaseSlot_spec (obj : TopoObj) :
    ∃ slots, releaseSlot obj = { obj with slotsLeft := slots } ∧
      (obj.slotsLeft = INT_MAX → slots = INT_MAX) := by
  unfold releaseSlot
  split
  · exact ⟨_, rfl, fun unprobed => absurd unprobed ‹_›⟩
  · exact ⟨_, rfl, id⟩

theorem takeSlot_spec (obj : TopoObj) :
    ∃ slots, takeSlot obj = { obj with slotsLeft := slots } ∧
      (obj.slotsLeft = INT_MAX → slots = INT_MAX) := by
  unfold takeSlot
  split
  · exact ⟨_, rfl, fun unprobed => absurd unprobed ‹_›⟩
  · exact ⟨_, rfl, id⟩

/-- Only loads and probed slot counters may differ. -/
structure Adjusted (s s' : State) : Prop where
  tree : SameTree s s'
  db : SameDb s s'
  kernel : SameKernel s s'
  irqs : s'.irqs = s.irqs
  lists : s'.irqList = s.irqList
  powersaveMode : ∀ o, (s'.objs o).powersaveMode = (s.objs o).powersaveMode
  unprobed : ∀ o, (s.objs o).slotsLeft = INT_MAX → (s'.objs o).slotsLeft = INT_MAX

theorem Adjusted.refl (s : State) : Adjusted s s :=
  ⟨.refl s, .refl s, .refl s, rfl, rfl, fun _ => rfl, fun _ => id⟩

theorem Adjusted.trans {s s' s'' : State} (first : Adjusted s s') (second : Adjusted s' s'') :
    Adjusted s s'' where
  tree := first.tree.trans second.tree
  db := first.db.trans second.db
  kernel := first.kernel.trans second.kernel
  irqs := second.irqs.trans first.irqs
  lists := second.lists.trans first.lists
  powersaveMode o := (second.powersaveMode o).trans (first.powersaveMode o)
  unprobed o unprobed := second.unprobed o (first.unprobed o unprobed)

/-- Storing back an object with another load and another probed slot counter. -/
theorem adjusted_setObj {o : ObjRef} (load : ℕ) (slots : ℤ)
    (unprobed : (s.objs o).slotsLeft = INT_MAX → slots = INT_MAX) :
    Adjusted s (s.setObj o { s.objs o with load := load, slotsLeft := slots }) where
  tree := sameTree_setObj rfl rfl rfl rfl rfl
  db := sameDb_setObj
  kernel := sameKernel_setObj
  irqs := rfl
  lists := irqList_setObj rfl
  powersaveMode := setObj_field TopoObj.powersaveMode rfl
  unprobed :=
    forall_setObj (P := fun d x => (s.objs d).slotsLeft = INT_MAX → x.slotsLeft = INT_MAX) unprobed fun _ _ => id

private theorem adjusted_source (src : Option ObjRef) : Adjusted s (match src with
    | some o => s.setObj o (releaseSlot (s.objs o))
    | none => s) := by
  cases src with
  | none => exact .refl s
  | some o =>
    obtain ⟨slots, released, unprobed⟩ := releaseSlot_spec (s.objs o)
    simpa only [released] using adjusted_setObj (s.objs o).load slots unprobed

private theorem adjusted_target (dst : Option ObjRef) (cost : ℕ) : Adjusted s (match dst with
    | some o => s.setObj o { takeSlot (s.objs o) with load := u64 ((takeSlot (s.objs o)).load + cost) }
    | none => s) := by
  cases dst with
  | none => exact .refl s
  | some o =>
    obtain ⟨slots, taken, unprobed⟩ := takeSlot_spec (s.objs o)
    simpa only [taken] using adjusted_setObj (u64 ((s.objs o).load + cost)) slots unprobed

/-- A move of an entry whose number finds its own link in the source list. -/
theorem migrateIrqObj_found (found : src = none → (s.irqs info).assignedObj = none)
    (link : (s.irqList src).find? (sameIrq s info) = some info) :
    Migrated src dst info s (migrateIrqObj src dst info s) := by
  have source : (if src.isNone then (s.irqs info).assignedObj else src) = src := by
    cases src with
    | none => exact found rfl
    | some _ => rfl
  obtain ⟨s₁, moved⟩ : ∃ s₁, s₁ = migrateIrq src dst info s := ⟨_, rfl⟩
  have stored := moved.trans (migrateIrq_eq link)
  have found₁ : s₁.irqs = Function.update s.irqs info { s.irqs info with moved := true } := by
    rw [stored]; rfl
  have lists₁ : s₁.irqList = Filing.move s.irqList src dst info := by
    simp only [stored, irqList_setIrq, irqList_setIrqList, Filing.move]
  have objs₁ (o : ObjRef) : (s₁.objs o).powersaveMode = (s.objs o).powersaveMode ∧
      (s₁.objs o).slotsLeft = (s.objs o).slotsLeft := by
    rw [stored]
    have first := setIrqList_obj (s := s) (p := src) (l := (s.irqList src).erase info) o
    have second := setIrqList_obj (s := s.setIrqList src ((s.irqList src).erase info)) (p := dst)
      (l := (s.setIrqList src ((s.irqList src).erase info)).irqList dst ++ [info]) o
    exact ⟨second.1.trans first.1, second.2.trans first.2⟩
  have tree₁ : SameTree s s₁ := by
    rw [stored]
    exact (sameTree_setIrqList.trans sameTree_setIrqList).trans sameTree_setIrq
  have db₁ : SameDb s s₁ := by
    rw [stored]
    exact (sameDb_setIrqList.trans sameDb_setIrqList).trans (sameDb_setIrq rfl rfl)
  have kernel₁ : SameKernel s s₁ := by
    rw [stored]
    exact (sameKernel_setIrqList.trans sameKernel_setIrqList).trans sameKernel_setIrq
  have set : (s₁.irqs info).moved = true := by simp [found₁]
  obtain ⟨s₂, released⟩ : ∃ s₂, s₂ = match src with
    | some o => s₁.setObj o (releaseSlot (s₁.objs o))
    | none => s₁ := ⟨_, rfl⟩
  obtain ⟨s₃, taken⟩ : ∃ s₃, s₃ = match dst with
    | some o => s₂.setObj o { takeSlot (s₂.objs o) with
        load := u64 ((takeSlot (s₂.objs o)).load + u64 ((s₂.irqs info).load + 1)) }
    | none => s₂ := ⟨_, rfl⟩
  have adjusted : Adjusted s₁ s₃ := by
    have first : Adjusted s₁ s₂ := released ▸ adjusted_source src
    exact first.trans (taken ▸ adjusted_target dst _)
  have result : migrateIrqObj src dst info s =
      s₃.setIrq info { s₃.irqs info with assignedObj := dst } := by
    have goOn : ¬ (!(s₁.irqs info).moved) = true := by rw [set]; exact Bool.false_ne_true
    unfold migrateIrqObj
    dsimp only
    rw [source, ← moved, taken, released]
    apply (if_neg goOn).trans
    cases src <;> cases dst <;> rfl
  rw [result]
  exact {
    tree := (tree₁.trans adjusted.tree).trans sameTree_setIrq
    db := (db₁.trans adjusted.db).trans (sameDb_setIrq rfl rfl)
    kernel := (kernel₁.trans adjusted.kernel).trans sameKernel_setIrq
    irqs := by simp [State.setIrq, adjusted.irqs, found₁]
    lists := by rw [irqList_setIrq, adjusted.lists, lists₁]
    powersaveMode := fun o => (adjusted.powersaveMode o).trans (objs₁ o).1
    unprobed := fun o before => adjusted.unprobed o ((objs₁ o).2.trans before) }

/-- A move of an entry out of the list it is in, where numbers identify that list's entries. -/
theorem migrateIrqObj_spec (found : src = none → (s.irqs info).assignedObj = none)
    (member : info ∈ s.irqList src)
    (unique : ∀ j ∈ s.irqList src, (s.irqs j).irq = (s.irqs info).irq → j = info) :
    Migrated src dst info s (migrateIrqObj src dst info s) :=
  migrateIrqObj_found found (find_sameIrq member unique)

/-- Tree, databases and ban list stay as they are. -/
structure SameFrame (s s' : State) : Prop where
  tree : SameTree s s'
  db : SameDb s s'
  bans : s'.clBannedIrqs = s.clBannedIrqs

theorem SameFrame.refl (s : State) : SameFrame s s := ⟨.refl s, .refl s, rfl⟩

theorem SameFrame.trans {s s' s'' : State} (first : SameFrame s s') (second : SameFrame s' s'') : SameFrame s s'' :=
  ⟨first.tree.trans second.tree, first.db.trans second.db, second.bans.trans first.bans⟩

theorem sameFrame_releaseSlot (o : ObjRef) : SameFrame s (s.setObj o (releaseSlot (s.objs o))) := by
  obtain ⟨slots, released, _⟩ := releaseSlot_spec (s.objs o)
  rw [released]
  exact ⟨sameTree_setObj rfl rfl rfl rfl rfl, sameDb_setObj, rfl⟩

theorem sameFrame_takeSlot (o : ObjRef) (load : ℕ) :
    SameFrame s (s.setObj o { takeSlot (s.objs o) with load := load }) := by
  obtain ⟨slots, taken, _⟩ := takeSlot_spec (s.objs o)
  rw [taken]
  exact ⟨sameTree_setObj rfl rfl rfl rfl rfl, sameDb_setObj, rfl⟩

/-- `migrate_irq` and `migrate_irq_obj`, also when the link is not found. -/
theorem migrateIrq_frame : SameFrame s (migrateIrq src dst info s) := by
  unfold migrateIrq
  split
  · exact .refl s
  · refine ⟨(sameTree_setIrqList.trans sameTree_setIrqList).trans sameTree_setIrq,
      (sameDb_setIrqList.trans sameDb_setIrqList).trans (sameDb_setIrq rfl rfl), ?_⟩
    cases src <;> cases dst <;> rfl

theorem migrateIrqObj_frame : SameFrame s (migrateIrqObj src dst info s) := by
  have stored {s : State} : SameFrame s (s.setIrq info { s.irqs info with assignedObj := dst }) :=
    ⟨sameTree_setIrq, sameDb_setIrq rfl rfl, rfl⟩
  unfold migrateIrqObj
  dsimp only
  generalize (if src.isNone then (s.irqs info).assignedObj else src) = src
  split
  · exact migrateIrq_frame
  · cases src <;> cases dst
    · exact migrateIrq_frame.trans stored
    · exact (migrateIrq_frame.trans (sameFrame_takeSlot _ _)).trans stored
    · exact (migrateIrq_frame.trans (sameFrame_releaseSlot _)).trans stored
    · exact ((migrateIrq_frame.trans (sameFrame_releaseSlot _)).trans (sameFrame_takeSlot _ _)).trans stored

theorem forceRebalanceIrq_frame : SameFrame s (forceRebalanceIrq info s) := by
  unfold forceRebalanceIrq
  split
  · exact .refl s
  · split
    · exact ⟨by constructor <;> intros <;> rfl, ⟨rfl, rfl, rfl, fun _ => rfl, fun _ => rfl⟩, rfl⟩
    · exact migrateIrqObj_frame

end Migration

end Irqbalance
