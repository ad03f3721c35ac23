import Irqbalance.Proofs.Location

/-! # The databases stay consistent

Entries join one at a time under a new number, unassigned; `force_rebalance_irq` queues them; a
vanished interrupt leaves every list at once. Here each function of classify.c that touches the
databases gets its one specification.
-/

namespace Irqbalance

variable {K : Env}

section Lookup

variable {s : State} {irq : ℤ}

/-- An irq number is unknown when no entry of either database has it. -/
theorem getIrqInfo_eq_none : getIrqInfo irq s = none ↔
    ∀ i ∈ s.interruptsDb ++ s.bannedIrqs, (s.irqs i).irq ≠ irq := by
  simp only [getIrqInfo, Option.or_eq_none_iff, List.find?_eq_none, List.mem_append, beq_iff_eq,
    or_imp, forall_and, ne_eq]

theorem getIrqInfo_some {i : IrqRef} (found : getIrqInfo irq s = some i) :
    i ∈ s.interruptsDb ++ s.bannedIrqs ∧ (s.irqs i).irq = irq := by
  rw [getIrqInfo, Option.or_eq_some_iff] at found
  rcases found with found | ⟨_, found⟩
  · exact ⟨List.mem_append_left _ (List.mem_of_find?_eq_some found),
      by simpa using List.find?_some found⟩
  · exact ⟨List.mem_append_right _ (List.mem_of_find?_eq_some found),
      by simpa using List.find?_some found⟩

theorem getNumaNode_mem {nodeid : ℤ} {node : ObjRef} (found : getNumaNode K nodeid s = some node) :
    node ∈ s.numaNodes := List.mem_of_find?_eq_some found

end Lookup

section Insertion

variable {s : State} {info : IrqInfo} {i : IrqRef}

/-- A new entry of `interrupts_db`. -/
def State.insertDb (s : State) (info : IrqInfo) : State :=
  let (i, s) := s.allocIrq info
  { s with interruptsDb := s.interruptsDb ++ [i] }

/-- A new entry of `banned_irqs`. -/
def State.insertBanned (s : State) (info : IrqInfo) : State :=
  let (i, s) := s.allocIrq info
  { s with bannedIrqs := s.bannedIrqs ++ [i] }

/-- What every new entry looks like. -/
structure Blank (s : State) (irq : ℤ) (info : IrqInfo) : Prop where
  irq : info.irq = irq
  assigned : info.assignedObj = none
  moved : info.moved = false
  numaNode : ∀ node, info.numaNode = some node → node ∈ s.numaNodes
  unseen : info.irqCount = 0 ∧ info.lastIrqCount = 0 ∧ info.existing = false

/-- What `add_new_irq` does. -/
inductive Added (s : State) (irq : ℤ) : State → Prop
  | known (found : getIrqInfo irq s ≠ none) : Added s irq s
  | banned {info : IrqInfo} (unknown : getIrqInfo irq s = none) (blank : Blank s irq info)
      (level : info.level = .none) : Added s irq (s.insertBanned info)
  | managed {info : IrqInfo} (unknown : getIrqInfo irq s = none) (blank : Blank s irq info) :
      Added s irq (s.insertDb info)

theorem addNewIrq_added {irq : ℤ} (src : IrqSources) (dev : Option PciDev) {h : IrqHint}
    (named : h.irq = irq) : Added s irq (addNewIrq K src dev h s) := by
  subst named
  unfold addNewIrq
  cases found : getIrqInfo h.irq s with
  | some i =>
    rw [Option.isSome_some, if_pos rfl]
    exact .known (by rw [found]; exact Option.some_ne_none i)
  | none =>
    simp only [Option.isSome_none, Bool.false_eq_true, if_false]
    split
    · have absent : (s.bannedIrqs.find? fun i => (s.irqs i).irq == h.irq) = none :=
        (Option.or_eq_none_iff.mp found).2
      simp only [addBannedIrq, absent, Option.isSome_none, Bool.false_eq_true, if_false]
      exact .banned found ⟨rfl, rfl, rfl, fun node named => by contradiction, rfl, rfl, rfl⟩ rfl
    · refine .managed found ⟨rfl, rfl, rfl, fun node named => ?_, rfl, rfl, rfl⟩
      rcases Option.or_eq_some_iff.mp named with named | ⟨_, named⟩
      · exact getNumaNode_mem named
      · exact getNumaNode_mem named

theorem insertDb_irqs_of_ne (other : i ≠ s.nextIrq) : (s.insertDb info).irqs i = s.irqs i := by
  simp [State.insertDb, State.allocIrq, State.setIrq, other]

theorem insertDb_irqs_self : (s.insertDb info).irqs s.nextIrq = info := by
  simp [State.insertDb, State.allocIrq, State.setIrq]

theorem insertBanned_irqs_of_ne (other : i ≠ s.nextIrq) :
    (s.insertBanned info).irqs i = s.irqs i := by
  simp [State.insertBanned, State.allocIrq, State.setIrq, other]

theorem insertBanned_irqs_self : (s.insertBanned info).irqs s.nextIrq = info := by
  simp [State.insertBanned, State.allocIrq, State.setIrq]

theorem insertDb_irqList : (s.insertDb info).irqList = s.irqList := by funext p; cases p <;> rfl

theorem insertBanned_irqList : (s.insertBanned info).irqList = s.irqList := by
  funext p; cases p <;> rfl

theorem sameTree_insertDb : SameTree s (s.insertDb info) := by constructor <;> intros <;> rfl

theorem sameTree_insertBanned : SameTree s (s.insertBanned info) := by constructor <;> intros <;> rfl

namespace Consistent

variable (valid : Consistent s)
include valid

/-- Allocated entries are not the next one. -/
theorem ne_nextIrq (member : i ∈ s.interruptsDb ++ s.bannedIrqs) : i ≠ s.nextIrq :=
  (valid.fresh i member).ne

/-- A number that no entry has keeps the numbers distinct. -/
private theorem distinct_append {db banned : List IrqRef} {irqs : IrqRef → IrqInfo} {irq : ℤ}
    (old : ∀ i ∈ s.interruptsDb ++ s.bannedIrqs, irqs i = s.irqs i)
    (new : (irqs s.nextIrq).irq = irq) (unknown : getIrqInfo irq s = none)
    (perm : (db ++ banned).Perm (s.nextIrq :: (s.interruptsDb ++ s.bannedIrqs))) :
    ((db ++ banned).map fun i => (irqs i).irq).Nodup := by
  rw [(perm.map _).nodup_iff, List.map_cons, List.nodup_cons]
  have same : (s.interruptsDb ++ s.bannedIrqs).map (fun i => (irqs i).irq) =
      (s.interruptsDb ++ s.bannedIrqs).map fun i => (s.irqs i).irq :=
    List.map_congr_left fun i member => by rw [old i member]
  rw [same, new]
  refine ⟨fun member => ?_, valid.distinct⟩
  obtain ⟨i, memberI, same⟩ := List.mem_map.mp member
  exact getIrqInfo_eq_none.mp unknown i memberI same

theorem insertDb {irq : ℤ} (unknown : getIrqInfo irq s = none) (blank : Blank s irq info) :
    Consistent (s.insertDb info) where
  distinct := by
    refine valid.distinct_append (fun i member => insertDb_irqs_of_ne (valid.ne_nextIrq member))
      (insertDb_irqs_self.symm ▸ blank.irq) unknown ?_
    exact (List.perm_append_singleton _ _).append_right _
  fresh i member := by
    change i ∈ s.interruptsDb ++ [s.nextIrq] ++ s.bannedIrqs at member
    change i < s.nextIrq + 1
    have old := valid.fresh i
    grind
  filed := by
    rw [insertDb_irqList]
    refine valid.filed.insert (fun member => ?_) ?_ fun i member => ?_
    · exact valid.ne_nextIrq (List.mem_append_left _ member) rfl
    · rw [place_none (by rw [insertDb_irqs_self, blank.assigned])]
      apply if_neg
      intro waiting
      exact valid.ne_nextIrq (List.mem_append_left _ (valid.mem_db (p := none) waiting)) rfl
    · unfold place
      rw [insertDb_irqs_of_ne (valid.ne_nextIrq (List.mem_append_left _ member))]
      rfl
  banned i member := by
    rw [insertDb_irqs_of_ne (valid.ne_nextIrq (List.mem_append_right _ member))]
    exact valid.banned i member

theorem insertBanned {irq : ℤ} (unknown : getIrqInfo irq s = none) (blank : Blank s irq info)
    (level : info.level = .none) : Consistent (s.insertBanned info) where
  distinct := by
    refine valid.distinct_append
      (fun i member => insertBanned_irqs_of_ne (valid.ne_nextIrq member))
      (insertBanned_irqs_self.symm ▸ blank.irq) unknown ?_
    exact ((List.perm_append_singleton _ _).append_left _).trans List.perm_middle
  fresh i member := by
    change i ∈ s.interruptsDb ++ (s.bannedIrqs ++ [s.nextIrq]) at member
    change i < s.nextIrq + 1
    have old := valid.fresh i
    grind
  filed := by
    rw [insertBanned_irqList]
    apply valid.filed.congr (fun _ => .rfl)
    intro i member
    unfold place
    rw [insertBanned_irqs_of_ne (valid.ne_nextIrq (List.mem_append_left _ member))]
    rfl
  banned i member := by
    rcases List.mem_append.mp member with old | new
    · rw [insertBanned_irqs_of_ne (valid.ne_nextIrq (List.mem_append_right _ old))]
      exact valid.banned i old
    · obtain rfl := List.mem_singleton.mp new
      rw [insertBanned_irqs_self]
      exact ⟨blank.assigned, level⟩

theorem added {s' : State} {irq : ℤ} (added : Added s irq s') : Consistent s' := by
  cases added with
  | known _ => exact valid
  | banned unknown blank level => exact valid.insertBanned unknown blank level
  | managed unknown blank => exact valid.insertDb unknown blank

end Consistent

end Insertion

section Additions

variable {s s' s'' : State} {allowed : ℤ → Prop} {irq : ℤ}

/-- A sequence of additions of allowed irq numbers. -/
inductive Additions (allowed : ℤ → Prop) (s : State) : State → Prop
  | nil : Additions allowed s s
  | step {s' s'' : State} {irq : ℤ} (before : Additions allowed s s') (permitted : allowed irq)
      (added : Added s' irq s'') : Additions allowed s s''

theorem Additions.trans (first : Additions allowed s s') (second : Additions allowed s' s'') :
    Additions allowed s s'' := by
  induction second with
  | nil => exact first
  | step _ permitted added ih => exact ih.step permitted added

theorem Additions.single {a : ℤ → Prop} (permitted : a irq) (added : Added s irq s') :
    Additions a s s' := .step .nil permitted added

theorem Additions.forEach {α : Type*} {list : List α} {cb : α → State → State}
    (visit : ∀ x ∈ list, ∀ s, Additions allowed s (cb x s)) : Additions allowed s (forEach list cb s) :=
  forEach_preserves .nil fun x member _ before => before.trans (visit x member _)

/-- The requested irq, or any irq during a rescan. -/
def Requested (buildIrq irq : ℤ) : Prop := buildIrq < 0 ∨ irq = buildIrq

theorem requested_of_selected {buildIrq : ℤ} {irqs : List ℤ}
    (member : irq ∈ selectMsiIrqs buildIrq irqs) : Requested buildIrq irq := by
  have wanted : irq ∈ irqs.filter fun irq => irq ≠ 0 ∧ (buildIrq < 0 ∨ irq = buildIrq) := by
    unfold selectMsiIrqs at member
    split at member
    · exact List.mem_of_mem_take member
    · exact member
  have choice := (List.mem_filter.mp wanted).2
  simp only [decide_eq_true_eq] at choice
  exact choice.2

theorem buildOneDevEntry_additions (src : IrqSources) (buildIrq : ℤ) (dev : PciDev) :
    Additions (Requested buildIrq) s (buildOneDevEntry K src buildIrq dev s) := by
  unfold buildOneDevEntry
  split
  · exact .forEach fun irq member _ =>
      .single (requested_of_selected member) (addNewIrq_added src (some dev) rfl)
  · split
    · exact .nil
    · split
      · rename_i irq _ wanted
        exact .single wanted.2.2 (addNewIrq_added src (some dev) rfl)
      · exact .nil

theorem buildDevIrqs_additions (src : IrqSources) (buildIrq : ℤ) (devs : List PciDev) :
    Additions (Requested buildIrq) s (buildDevIrqs K src buildIrq devs s) := by
  induction devs generalizing s with
  | nil => exact .nil
  | cons dev devs ih =>
    have first := buildOneDevEntry_additions (K := K) (s := s) src buildIrq dev
    rw [buildDevIrqs]
    split
    · exact first
    · exact first.trans ih

theorem Additions.consistent (additions : Additions allowed s s') (valid : Consistent s) :
    Consistent s' := by
  induction additions with
  | nil => exact valid
  | step _ _ added ih => exact ih.added added

/-- An addition changes nothing but the databases. -/
theorem Added.frame (added : Added s irq s') : SameTree s s' ∧ SameKernel s s' ∧
    s'.objs = s.objs ∧ s'.rebalanceIrqList = s.rebalanceIrqList := by
  cases added with
  | known _ => exact ⟨.refl s, .refl s, rfl, rfl⟩
  | banned _ _ _ => exact ⟨sameTree_insertBanned, ⟨rfl, rfl, rfl⟩, rfl, rfl⟩
  | managed _ _ => exact ⟨sameTree_insertDb, ⟨rfl, rfl, rfl⟩, rfl, rfl⟩

theorem Additions.frame (additions : Additions allowed s s') : SameTree s s' ∧ SameKernel s s' ∧
    s'.objs = s.objs ∧ s'.rebalanceIrqList = s.rebalanceIrqList := by
  induction additions with
  | nil => exact ⟨.refl s, .refl s, rfl, rfl⟩
  | step _ _ added ih =>
    obtain ⟨tree, kernel, objs, waiting⟩ := ih
    obtain ⟨tree', kernel', objs', waiting'⟩ := added.frame
    exact ⟨tree.trans tree', kernel.trans kernel', objs'.trans objs, waiting'.trans waiting⟩

/-- An entry of the database after additions was there before, or it is new: unassigned, unmoved
and attached to a node of the tree. -/
theorem Additions.entry (additions : Additions allowed s s') (valid : Consistent s) {i : IrqRef}
    (member : i ∈ s'.interruptsDb) : (i ∈ s.interruptsDb ∧ s'.irqs i = s.irqs i) ∨
      ∃ irq, Blank s irq (s'.irqs i) := by
  induction additions with
  | nil => exact .inl ⟨member, rfl⟩
  | @step s' s'' irq before _ added ih =>
    have valid' := before.consistent valid
    cases added with
    | known _ => exact ih member
    | banned _ _ _ =>
      rw [insertBanned_irqs_of_ne (valid'.ne_nextIrq (List.mem_append_left _ member))]
      exact ih member
    | managed _ blank =>
      rcases List.mem_append.mp member with old | new
      · rw [insertDb_irqs_of_ne (valid'.ne_nextIrq (List.mem_append_left _ old))]
        exact ih old
      · obtain rfl := List.mem_singleton.mp new
        rw [insertDb_irqs_self]
        exact .inr ⟨irq, blank.irq, blank.assigned, blank.moved, by
          rw [← before.frame.1.numaNodes]; exact blank.numaNode, blank.unseen⟩

theorem getIrqInfo_insertDb {info : IrqInfo} (blank : Blank s irq info) :
    getIrqInfo irq (s.insertDb info) ≠ none := by
  intro unknown
  refine getIrqInfo_eq_none.mp unknown s.nextIrq ?_ (by rw [insertDb_irqs_self, blank.irq])
  exact List.mem_append_left _ (List.mem_append_right _ (List.mem_singleton_self _))

theorem getIrqInfo_insertBanned {info : IrqInfo} (blank : Blank s irq info) :
    getIrqInfo irq (s.insertBanned info) ≠ none := by
  intro unknown
  refine getIrqInfo_eq_none.mp unknown s.nextIrq ?_ (by rw [insertBanned_irqs_self, blank.irq])
  exact List.mem_append_right _ (List.mem_append_right _ (List.mem_singleton_self _))

theorem Added.known' (added : Added s irq s') : getIrqInfo irq s' ≠ none := by
  cases added with
  | known found => exact found
  | banned _ blank _ => exact getIrqInfo_insertBanned blank
  | managed _ blank => exact getIrqInfo_insertDb blank

/-- Once an irq is known, adding it again changes nothing. -/
theorem Added.eq_of_known (added : Added s irq s') (found : getIrqInfo irq s ≠ none) : s' = s := by
  cases added with
  | known _ => rfl
  | banned unknown _ _ => exact absurd unknown found
  | managed unknown _ => exact absurd unknown found

/-- Additions of one irq number add at most one entry. -/
theorem Additions.one (additions : Additions (· = irq) s s') : s' = s ∨ Added s irq s' := by
  induction additions with
  | nil => exact .inl rfl
  | @step s' s'' number before permitted added ih =>
    obtain rfl : number = irq := permitted
    rcases ih with rfl | first
    · exact .inr added
    · obtain rfl := added.eq_of_known first.known'
      exact .inr first

end Additions

section Queueing

variable {s : State} {info : IrqRef}

/-- Append to `rebalance_irq_list`. -/
def State.queue (s : State) (info : IrqRef) : State :=
  { s with rebalanceIrqList := s.rebalanceIrqList ++ [info] }

theorem forceRebalanceIrq_unassigned (unassigned : (s.irqs info).assignedObj = none) :
    forceRebalanceIrq info s = if (s.irqs info).level = .none then s else s.queue info := by
  simp only [forceRebalanceIrq, unassigned, State.queue]

theorem queue_irqList : (s.queue info).irqList = Filing.file s.irqList none info := by
  funext p
  cases p with
  | none => simp [State.queue, State.irqList, Filing.file]
  | some o => simp [State.queue, State.irqList, Filing.file]

theorem Consistent.queue (valid : Consistent s) (member : info ∈ s.interruptsDb)
    (unassigned : (s.irqs info).assignedObj = none) (idle : info ∉ s.rebalanceIrqList) :
    Consistent (s.queue info) where
  distinct := valid.distinct
  fresh := valid.fresh
  banned := valid.banned
  filed := by
    rw [queue_irqList]
    have filed := valid.filed.file (q := none) member ((place_none unassigned).trans (if_neg idle))
    apply filed.congr (fun _ => .rfl)
    intro i _
    by_cases same : i = info
    · subst same
      rw [Function.update_self, place_none (s := s.queue i) unassigned]
      exact if_pos (List.mem_append_right _ (List.mem_singleton_self _))
    · rw [Function.update_of_ne same]
      simp [place, State.queue, same]

theorem settled_queue_self (level : (s.irqs info).level ≠ .none) : Settled (s.queue info) info :=
  fun _ => iff_of_true (List.mem_append_right _ (List.mem_singleton_self _)) level

theorem settled_queue_of_ne {i : IrqRef} (other : i ≠ info) (settled : Settled s i) :
    Settled (s.queue info) i := by
  intro unassigned
  have waiting : i ∈ (s.queue info).rebalanceIrqList ↔ i ∈ s.rebalanceIrqList := by
    simp [State.queue, other]
  exact waiting.trans (settled unassigned)

/-- Queueing all entries of a fresh database settles them. -/
theorem located_forceRebalance {l : List IrqRef} (valid : Consistent s) (distinct : l.Nodup)
    (pending : ∀ i ∈ l, i ∈ s.interruptsDb ∧ (s.irqs i).assignedObj = none ∧
      i ∉ s.rebalanceIrqList)
    (settled : ∀ i ∈ s.interruptsDb, i ∉ l → Settled s i) :
    Located (forEach l forceRebalanceIrq s) := by
  induction l generalizing s with
  | nil => exact ⟨valid, fun i member => settled i member List.not_mem_nil⟩
  | cons info rest ih =>
    obtain ⟨notRest, distinct⟩ := List.nodup_cons.mp distinct
    obtain ⟨member, unassigned, idle⟩ := pending info List.mem_cons_self
    rw [forEach_cons, forceRebalanceIrq_unassigned unassigned]
    split
    · rename_i level
      apply ih valid distinct (fun i memberI => pending i (List.mem_cons_of_mem _ memberI))
      intro i memberI notRest
      by_cases same : i = info
      · subst same
        exact fun _ => iff_of_false idle (not_not_intro level)
      · exact settled i memberI (by simp [same, notRest])
    · rename_i level
      refine ih (valid.queue member unassigned idle) distinct ?_ ?_
      · intro i memberI
        obtain ⟨memberDb, unassignedI, idleI⟩ := pending i (List.mem_cons_of_mem _ memberI)
        have other : i ≠ info := fun same => notRest (same ▸ memberI)
        exact ⟨memberDb, unassignedI, by simp [State.queue, idleI, other]⟩
      · intro i memberI notRest
        by_cases same : i = info
        · subst same; exact settled_queue_self level
        · exact settled_queue_of_ne same (settled i memberI (by simp [same, notRest]))

end Queueing

section Growth

variable {s s' : State} {irq : ℤ}

/-- Only the databases and the rebalance list have grown; every new entry is unassigned. -/
structure Grown (s s' : State) : Prop where
  tree : SameTree s s'
  kernel : SameKernel s s'
  objs : s'.objs = s.objs
  entry : ∀ i ∈ s'.interruptsDb, (i ∈ s.interruptsDb ∧ s'.irqs i = s.irqs i) ∨
    ∃ irq, Blank s irq (s'.irqs i)

theorem Grown.queue (grown : Grown s s') (info : IrqRef) : Grown s (s'.queue info) where
  tree := grown.tree.trans (by constructor <;> intros <;> rfl)
  kernel := grown.kernel.trans ⟨rfl, rfl, rfl⟩
  objs := grown.objs
  entry := grown.entry

theorem Additions.grown {allowed : ℤ → Prop} (additions : Additions allowed s s')
    (valid : Consistent s) : Grown s s' :=
  ⟨additions.frame.1, additions.frame.2.1, additions.frame.2.2.1,
    fun _ member => additions.entry valid member⟩

/-- Queueing entries that no object holds. -/
theorem forEach_forceRebalance_grown {l : List IrqRef} (grown : Grown s s')
    (unassigned : ∀ i ∈ l, (s'.irqs i).assignedObj = none) :
    Grown s (forEach l forceRebalanceIrq s') := by
  induction l generalizing s' with
  | nil => exact grown
  | cons info rest ih =>
    rw [forEach_cons, forceRebalanceIrq_unassigned (unassigned info List.mem_cons_self)]
    have tail := fun i member => unassigned i (List.mem_cons_of_mem info member)
    split
    · exact ih grown tail
    · exact ih (grown.queue info) tail

/-- The requested irq is added once, in the walk over the devices or after it. -/
theorem hotplug_added (src : IrqSources) (hint : IrqHint) (positive : 0 ≤ hint.irq)
    (unknown : getIrqInfo hint.irq s = none) :
    ∃ s₁, Added s hint.irq s₁ ∧ getIrqInfo hint.irq s₁ ≠ none ∧ procIrqHotplug K src hint s =
      match getIrqInfo hint.irq s₁ with
      | none => s₁
      | some info => forceRebalanceIrq info s₁ := by
  obtain ⟨s₀, built⟩ : ∃ s₀, s₀ = buildDevIrqs K src hint.irq src.pciDevs s := ⟨_, rfl⟩
  have additions : Additions (· = hint.irq) s s₀ := by
    have requested := buildDevIrqs_additions (K := K) (s := s) src hint.irq src.pciDevs
    rw [← built] at requested
    clear built
    induction requested with
    | nil => exact .nil
    | step _ permitted added ih =>
      rcases permitted with negative | same
      · exact absurd negative (not_lt.mpr positive)
      · exact ih.step same added
  unfold procIrqHotplug
  rw [← built]
  rcases additions.one with rfl | added
  · have again := addNewIrq_added (K := K) (s := s₀) src none (h := hint) rfl
    simp only [unknown, Option.isSome_none, Bool.false_eq_true, if_false]
    exact ⟨_, again, again.known', rfl⟩
  · have known := added.known'
    simp only [Option.isSome_iff_ne_none.mpr known, if_true]
    exact ⟨_, added, known, rfl⟩

/-- `proc_irq_hotplug` of an unknown irq. -/
theorem procIrqHotplug_spec (src : IrqSources) (hint : IrqHint) (positive : 0 ≤ hint.irq)
    (unknown : getIrqInfo hint.irq s = none) (valid : Located s) :
    Located (procIrqHotplug K src hint s) ∧ Grown s (procIrqHotplug K src hint s) := by
  obtain ⟨s₁, added, known, result⟩ := hotplug_added (K := K) src hint positive unknown
  have valid₁ : Consistent s₁ := valid.toConsistent.added added
  have grown : Grown s s₁ :=
    (Additions.single (a := fun _ => True) trivial added).grown valid.toConsistent
  rw [result]
  cases found : getIrqInfo hint.irq s₁ with
  | none => exact absurd found known
  | some info =>
    obtain ⟨memberInfo, number⟩ := getIrqInfo_some found
    have old {i : IrqRef} (member : i ∈ s.interruptsDb ++ s.bannedIrqs) : i ≠ s.nextIrq :=
      valid.ne_nextIrq member
    cases added with
    | known found' => exact absurd unknown found'
    | @banned new _ blank level =>
      -- a banned entry has no level and is not queued
      have self : info = s.nextIrq := by
        refine valid₁.unique ?_ memberInfo ?_
        · exact List.mem_append_right _ (List.mem_append_right _ (List.mem_singleton_self _))
        · rw [insertBanned_irqs_self, blank.irq, number]
      have entry : (s.insertBanned new).irqs info = new := self ▸ insertBanned_irqs_self
      dsimp only
      rw [forceRebalanceIrq_unassigned (by rw [entry, blank.assigned]), entry, if_pos level]
      refine ⟨⟨valid₁, fun i member => ?_⟩, grown⟩
      have settled := valid.settled i member
      unfold Settled at settled ⊢
      rw [insertBanned_irqs_of_ne (old (List.mem_append_left _ member))]
      exact settled
    | @managed new _ blank =>
      have self : info = s.nextIrq := by
        refine valid₁.unique ?_ memberInfo ?_
        · exact List.mem_append_left _ (List.mem_append_right _ (List.mem_singleton_self _))
        · rw [insertDb_irqs_self, blank.irq, number]
      have entry : (s.insertDb new).irqs info = new := self ▸ insertDb_irqs_self
      have memberDb : info ∈ (s.insertDb new).interruptsDb :=
        self ▸ List.mem_append_right _ (List.mem_singleton_self _)
      have unassigned : ((s.insertDb new).irqs info).assignedObj = none := by rw [entry, blank.assigned]
      have idle : info ∉ (s.insertDb new).rebalanceIrqList := fun waiting =>
        old (List.mem_append_left _ (valid.mem_db (p := none) waiting)) self
      have settles := located_forceRebalance (l := [info]) valid₁ (List.nodup_singleton info)
        (by simpa using ⟨memberDb, unassigned, idle⟩) fun i member other => by
          have different : i ≠ s.nextIrq := by simpa [self] using other
          have memberI : i ∈ s.interruptsDb := by
            rcases List.mem_append.mp member with old | new
            · exact old
            · exact absurd (List.mem_singleton.mp new) different
          have settled := valid.settled i memberI
          unfold Settled at settled ⊢
          rw [insertDb_irqs_of_ne different]
          exact settled
      exact ⟨settles, forEach_forceRebalance_grown (l := [info]) grown (by simpa using unassigned)⟩

end Growth

section Removal

variable {s s' : State} {info : IrqRef}

/-- What `remove_no_existing_irq` does to an interrupt that has vanished. -/
structure Removed (info : IrqRef) (s s' : State) : Prop where
  tree : SameTree s s'
  kernel : SameKernel s s'
  irqs : s'.irqs = s.irqs
  nextIrq : s'.nextIrq = s.nextIrq
  interruptsDb : s'.interruptsDb = s.interruptsDb.erase info
  bannedIrqs : s'.bannedIrqs = s.bannedIrqs.erase info
  lists : ∀ p, s'.irqList p = (s.irqList p).erase info
  powersaveMode : ∀ o, (s'.objs o).powersaveMode = (s.objs o).powersaveMode
  unprobed : ∀ o, (s.objs o).slotsLeft = INT_MAX → (s'.objs o).slotsLeft = INT_MAX

/-- Take an entry out of the databases and the rebalance list. -/
def State.forget (s : State) (info : IrqRef) : State :=
  { s with
    interruptsDb := s.interruptsDb.erase info
    bannedIrqs := s.bannedIrqs.erase info
    rebalanceIrqList := s.rebalanceIrqList.erase info }

theorem sameTree_forget : SameTree s (s.forget info) := by constructor <;> intros <;> rfl

/-- Unlinking by number unlinks the entry itself. -/
theorem removeNoExistingIrq_eq (valid : Consistent s)
    (member : info ∈ s.interruptsDb ++ s.bannedIrqs) (vanished : (s.irqs info).existing = false) :
    removeNoExistingIrq info s = match (s.irqs info).assignedObj with
      | none => s.forget info
      | some o =>
        if info ∈ (s.objs o).interrupts then
          (s.forget info).setObj o { s.objs o with
            interrupts := (s.objs o).interrupts.erase info, slotsLeft := INT_MAX }
        else s.forget info := by
  have unlink {l : List IrqRef} (within : ∀ j ∈ l, j ∈ s.interruptsDb ++ s.bannedIrqs) :
      l.eraseP (sameIrq s info) = l.erase info :=
    eraseP_sameIrq fun j memberJ same => valid.unique member (within j memberJ) same
  have listed (p : Option ObjRef) : ∀ j ∈ s.irqList p, j ∈ s.interruptsDb ++ s.bannedIrqs :=
    fun j memberJ => List.mem_append_left _ (valid.mem_db memberJ)
  have link (o : ObjRef) : (s.objs o).interrupts.any (sameIrq s info) = true ↔
      info ∈ (s.objs o).interrupts := by
    refine ⟨fun some => ?_, fun memberO => List.any_eq_true.mpr ⟨info, memberO, by simp [sameIrq]⟩⟩
    obtain ⟨j, memberJ, same⟩ := List.any_eq_true.mp some
    exact valid.unique member (listed o j memberJ) (by simpa [sameIrq] using same) ▸ memberJ
  have db := unlink fun j => List.mem_append_left s.bannedIrqs
  have banned := unlink fun j => List.mem_append_right s.interruptsDb
  have waiting := unlink (listed none)
  have forgotten : ({ s with
      interruptsDb := unlinkIrq s info s.interruptsDb
      bannedIrqs := unlinkIrq s info s.bannedIrqs
      rebalanceIrqList := unlinkIrq s info s.rebalanceIrqList } : State) = s.forget info := by
    simp only [unlinkIrq, db, banned, State.forget, Irqbalance.State.mk.injEq, true_and, and_true]
    exact waiting
  simp only [removeNoExistingIrq, vanished, Bool.false_eq_true, if_false, forgotten]
  change (match (s.irqs info).assignedObj with | none => _ | some o => _) = _
  cases (s.irqs info).assignedObj with
  | none => rfl
  | some o =>
    change (if (s.objs o).interrupts.any (sameIrq s info) then
      (s.forget info).setObj o { s.objs o with
        interrupts := (s.objs o).interrupts.eraseP (sameIrq s info), slotsLeft := INT_MAX }
      else s.forget info) = _
    have own : (s.objs o).interrupts.eraseP (sameIrq s info) = (s.objs o).interrupts.erase info :=
      unlink (listed (some o))
    rw [own]
    exact if_congr (link o) rfl rfl

/-- Forgetting an entry that no object lists removes it. -/
theorem forget_removed (absent : ∀ o, info ∉ (s.objs o).interrupts) : Removed info s (s.forget info) where
  tree := sameTree_forget
  kernel := ⟨rfl, rfl, rfl⟩
  irqs := rfl
  nextIrq := rfl
  interruptsDb := rfl
  bannedIrqs := rfl
  lists p := by
    cases p with
    | none => rfl
    | some o => exact (List.erase_of_not_mem (absent o)).symm
  powersaveMode _ := rfl
  unprobed _ := id

/-- An entry that one object lists is removed with its link, and the object is probed again. -/
theorem unlink_removed {o : ObjRef} (only : ∀ o', o' ≠ o → info ∉ (s.objs o').interrupts) :
    Removed info s ((s.forget info).setObj o { s.objs o with
      interrupts := (s.objs o).interrupts.erase info, slotsLeft := INT_MAX }) where
  tree := sameTree_forget.trans (sameTree_setObj rfl rfl rfl rfl rfl)
  kernel := ⟨rfl, rfl, rfl⟩
  irqs := rfl
  nextIrq := rfl
  interruptsDb := rfl
  bannedIrqs := rfl
  lists p := by
    cases p with
    | none => rfl
    | some o' =>
      by_cases same : o' = o
      · subst same; simp [State.irqList, State.setObj]
      · have absent := (List.erase_of_not_mem (only o' same)).symm
        simpa [State.irqList, State.setObj, State.forget, same] using absent
  powersaveMode := setObj_field TopoObj.powersaveMode rfl
  unprobed := forall_setObj (P := fun d x => (s.objs d).slotsLeft = INT_MAX → x.slotsLeft = INT_MAX)
    (fun _ => rfl) fun _ _ => id

/-- What it does to any entry: the mark of an existing one is only cleared. -/
theorem removeNoExistingIrq_spec (valid : Consistent s)
    (member : info ∈ s.interruptsDb ++ s.bannedIrqs) :
    ((s.irqs info).existing = true ∧
      removeNoExistingIrq info s = s.setIrq info { s.irqs info with existing := false }) ∨
        ((s.irqs info).existing = false ∧ Removed info s (removeNoExistingIrq info s)) := by
  cases existing : (s.irqs info).existing with
  | true => exact .inl ⟨rfl, by simp only [removeNoExistingIrq, existing, if_true]⟩
  | false =>
    refine .inr ⟨rfl, ?_⟩
    rw [removeNoExistingIrq_eq valid member existing]
    split
    · rename_i unassigned
      apply forget_removed
      intro o memberO
      exact absurd ((valid.assigned (p := some o) memberO).symm.trans unassigned) (Option.some_ne_none o)
    · rename_i o assigned
      have only (o' : ObjRef) (other : o' ≠ o) : info ∉ (s.objs o').interrupts := fun memberO =>
        other (Option.some.inj ((valid.assigned (p := some o') memberO).symm.trans assigned))
      split
      · exact unlink_removed only
      · rename_i absent
        apply forget_removed
        intro o'
        by_cases own : o' = o
        · exact own ▸ absent
        · exact only o' own

theorem Removed.consistent (removed : Removed info s s') (valid : Consistent s) : Consistent s' where
  distinct := by
    have sub : (s'.interruptsDb ++ s'.bannedIrqs).Sublist (s.interruptsDb ++ s.bannedIrqs) := by
      rw [removed.interruptsDb, removed.bannedIrqs]
      exact List.erase_sublist.append List.erase_sublist
    rw [removed.irqs]
    exact valid.distinct.sublist (sub.map _)
  fresh i member := by
    rw [removed.interruptsDb, removed.bannedIrqs] at member
    rw [removed.nextIrq]
    refine valid.fresh i (List.mem_append.mpr ?_)
    exact (List.mem_append.mp member).imp List.mem_of_mem_erase List.mem_of_mem_erase
  filed := by
    have distinctDb := (List.nodup_append.mp valid.nodup_db).1
    have gone (b : IrqRef) : b ∈ s'.interruptsDb ↔ b ∈ s.interruptsDb ∧ b ≠ info := by
      rw [removed.interruptsDb, distinctDb.mem_erase_iff, and_comm]
    apply (valid.filed.remove gone).congr (fun p => by rw [removed.lists p])
    intro i member
    have waiting : i ∈ s'.rebalanceIrqList ↔ i ∈ s.rebalanceIrqList := by
      have kept : s'.rebalanceIrqList = s.rebalanceIrqList.erase info := removed.lists none
      rw [kept]
      exact List.mem_erase_of_ne ((gone i).mp member).2
    simp only [place, removed.irqs, waiting]
  banned i member := by
    rw [removed.bannedIrqs] at member
    rw [removed.irqs]
    exact valid.banned i (List.mem_of_mem_erase member)

theorem Removed.located (removed : Removed info s s') (valid : Located s) : Located s' where
  toConsistent := removed.consistent valid.toConsistent
  settled i member := by
    have distinctDb := (List.nodup_append.mp valid.nodup_db).1
    rw [removed.interruptsDb, distinctDb.mem_erase_iff] at member
    have waiting : i ∈ s'.rebalanceIrqList ↔ i ∈ s.rebalanceIrqList := by
      have kept : s'.rebalanceIrqList = s.rebalanceIrqList.erase info := removed.lists none
      rw [kept]
      exact List.mem_erase_of_ne member.1
    unfold Settled
    rw [removed.irqs, waiting]
    exact valid.settled i member.2

end Removal

end Irqbalance
