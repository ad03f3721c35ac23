import Irqbalance.Proofs.Guard

/-! # Banned CPUs and the masks that are written

CPU, cache and package masks exclude banned CPUs, node masks do not. So the written masks avoid
banned CPUs as long as no interrupt stays on a node whose online CPUs include a banned one. The
walk over the nodes empties such a node into its children; a node without children keeps its
interrupts, and that is the one way in which a banned CPU gets any.
-/

namespace Irqbalance

open Relation (ReflTransGen)

variable {K : Env}

/-- The mask written for an IRQ on this object has no banned CPU. -/
def Safe (s : State) (o : ObjRef) : Prop := appliedMask s o &&& s.bannedCpus = CPU_MASK_NONE

/-- `place_irq_in_node` can move an IRQ to this node. -/
def Placeable (K : Env) (s : State) (n : ObjRef) : Prop :=
  ((s.objs n).number ≠ NUMA_NO_NODE ∨ K.numaAvail = false) ∧
    cpusIntersects (s.objs n).mask s.unbannedCpus = true

/-- Nodes that IRQs can be moved to and that contain an online banned CPU have children. -/
def NodesServed (K : Env) (s : State) : Prop :=
  ∀ n ∈ s.numaNodes, Placeable K s n → ¬ Safe s n → (s.objs n).children ≠ []

/-- No IRQ rests on an unsafe object. -/
def Quiet (s : State) : Prop :=
  ∀ i ∈ s.interruptsDb, ∀ o, (s.irqs i).assignedObj = some o → Safe s o

section Objects

variable {s s' : State} {o c d : ObjRef} {info : IrqRef}

theorem Safe.congr (tree : SameTree s s') : Safe s' o ↔ Safe s o := by
  simp only [Safe, appliedMask, tree.cpuOnlineMap, tree.mask, tree.bannedCpus]

theorem Placeable.congr (tree : SameTree s s') : Placeable K s' o ↔ Placeable K s o := by
  simp only [Placeable, tree.number, tree.mask, tree.unbannedCpus]

/-- Only nodes can be unsafe. -/
theorem Guarded.safe (guarded : Guarded s) (other : (s.objs o).objType ≠ .node) : Safe s o := by
  unfold Safe appliedMask
  rw [BitVec.and_assoc, guarded.usable o other, BitVec.and_zero]

end Objects

section Rest

variable {s s' : State} {info : IrqRef} {src dst : Option ObjRef}

/-- Entries that keep their object stay quiet. -/
theorem Quiet.congr (quiet : Quiet s) (tree : SameTree s s')
    (entry : ∀ i ∈ s'.interruptsDb, (s'.irqs i).assignedObj = none ∨
      i ∈ s.interruptsDb ∧ (s'.irqs i).assignedObj = (s.irqs i).assignedObj) : Quiet s' := by
  intro i member o assigned
  rw [Safe.congr tree]
  rcases entry i member with unassigned | ⟨old, same⟩
  · rw [unassigned] at assigned
    contradiction
  · exact quiet i old o (same ▸ assigned)

theorem Migrated.quiet (moved : Migrated src dst info s s') (safe : ∀ o, dst = some o → Safe s o)
    (quiet : Quiet s) : Quiet s' := by
  intro i member o assigned
  rw [Safe.congr moved.tree]
  by_cases same : i = info
  · subst same
    exact safe o (moved.assigned.symm.trans assigned)
  · rw [moved.other same] at assigned
    rw [moved.db.interruptsDb] at member
    exact quiet i member o assigned

theorem Retained.quiet (same : Retained s s') (tree : SameTree s s') (quiet : Quiet s) : Quiet s' :=
  quiet.congr tree fun i member => .inr ⟨by rw [same.db.interruptsDb] at member; exact member,
    same.assigned i⟩

theorem Balancing.quiet (effect : Balancing s s') (quiet : Quiet s) : Quiet s' := by
  have tree := effect.sameTree
  cases effect with
  | sorted p l perm => exact (retained_setIrqList perm).quiet tree quiet
  | mode _ _ => exact retained_mode.quiet tree quiet
  | evicted _ _ moved => exact moved.quiet (fun o none => by contradiction) quiet

/-- Activation moves IRQs to CPUs only. -/
theorem Activating.quiet (effect : Activating K s s') (guarded : Guarded s) (quiet : Quiet s) :
    Quiet s' := by
  have tree := effect.sameTree
  cases effect with
  | read => exact retained_read.quiet tree quiet
  | written _ _ _ => exact retained_wrote.quiet tree quiet
  | saturated _ => exact retained_setSlots.quiet tree quiet
  | @fellBack _ _ _ fallback _ _ _ chosen moved =>
    refine moved.quiet (fun o same => ?_) quiet
    obtain rfl := Option.some.inj same
    have cpu := isValidFallback_cpu (findBestCpuUnderObj_valid chosen)
    exact guarded.safe (by rw [cpu]; exact ObjType.noConfusion)
  | evicted _ _ moved => exact moved.quiet (fun o none => by contradiction) quiet
  | settled _ _ => exact retained_clearMoved.quiet tree quiet
  | idled _ => exact retained_clearMoved.quiet tree quiet
  | abandoned assigned => exact (retained_abandon assigned).quiet tree quiet

theorem Vanishing.quiet (effect : Vanishing s s') (quiet : Quiet s) : Quiet s' := by
  cases effect with
  | marked => exact retained_mark.quiet sameTree_setIrq quiet
  | removed _ removed =>
    refine quiet.congr removed.tree fun i member => .inr ?_
    rw [removed.interruptsDb] at member
    exact ⟨List.mem_of_mem_erase member, by rw [removed.irqs]⟩

theorem Grown.quiet (grown : Grown s s') (quiet : Quiet s) : Quiet s' := by
  apply quiet.congr grown.tree
  intro i member
  rcases grown.entry i member with ⟨old, same⟩ | ⟨_, blank⟩
  · exact .inr ⟨old, by rw [same]⟩
  · exact .inl blank.assigned

theorem Rebuilt.quiet (rebuilt : Rebuilt s s') : Quiet s' := by
  intro i member o assigned
  obtain ⟨_, blank⟩ := rebuilt.entry i member
  rw [blank.assigned] at assigned
  contradiction

end Rest

section Placement

variable {s s' : State} {d info : ObjRef}

/-- While nodes are being filled, an entry on an unsafe node can still move on. -/
def Leaving (K : Env) (s : State) : Prop :=
  ∀ i ∈ s.interruptsDb, ∀ o, (s.irqs i).assignedObj = some o → Safe s o ∨
    ((s.irqs i).moved = true ∧ (s.irqs i).level ≠ .none ∧ o ∈ s.numaNodes ∧ Placeable K s o)

/-- The unsafe nodes hold no entries. -/
def Drained (s : State) (d : ObjRef) : Prop := ¬ Safe s d → (s.objs d).interrupts = []

theorem Quiet.leaving (quiet : Quiet s) : Leaving K s :=
  fun i member o assigned => .inl (quiet i member o assigned)

/-- Where `place_irq_in_node` moves an IRQ. -/
theorem NodeTarget.placeable {n : ObjRef} (guarded : Guarded s) (member : info ∈ s.interruptsDb)
    (target : NodeTarget K s info n) : n ∈ s.numaNodes ∧ Placeable K s n := by
  rcases target with ⟨preferred, suitable⟩ | ⟨_, node, eligible⟩
  · exact ⟨guarded.preferred info member n preferred, suitable⟩
  · have type := guarded.nodes n node
    simp only [eligibleObject, type, beq_self_eq_true, Bool.and_true, Bool.true_and,
      Bool.and_eq_true, Bool.not_eq_true', Bool.and_eq_false_iff, beq_eq_false_iff_ne,
      Bool.not_eq_false'] at eligible
    exact ⟨node, eligible.1.1.1.symm, eligible.1.1.2⟩

theorem Migrated.leaving {src dst : Option ObjRef} (moved : Migrated src dst info s s')
    (target : ∀ o, dst = some o → Safe s o ∨
      ((s.irqs info).level ≠ .none ∧ o ∈ s.numaNodes ∧ Placeable K s o))
    (leaving : Leaving K s) : Leaving K s' := by
  intro i member o assigned
  rw [moved.db.interruptsDb] at member
  rw [Safe.congr moved.tree, Placeable.congr moved.tree, moved.tree.numaNodes, moved.level]
  by_cases same : i = info
  · subst same
    rcases target o (moved.assigned.symm.trans assigned) with safe | ⟨level, node, placeable⟩
    · exact .inl safe
    · exact .inr ⟨by simp [moved.irqs], level, node, placeable⟩
  · rw [moved.other same] at assigned ⊢
    exact leaving i member o assigned

theorem Descending.leaving (effect : Descending K s s') (guarded : Guarded s)
    (leaving : Leaving K s) : Leaving K s' := by
  cases effect with
  | @descended _ _ _ _ _ child _ moved =>
    refine moved.leaving (fun o same => .inl ?_) leaving
    obtain rfl := Option.some.inj same
    exact guarded.safe (guarded.child_ne_node child)

theorem Placing.leaving (effect : Placing K s s') (valid : Located s) (guarded : Guarded s)
    (leaving : Leaving K s) : Leaving K s' := by
  cases effect with
  | sorted _ _ _ =>
    intro i member o assigned
    rw [Safe.congr sameTree_setIrqList, Placeable.congr sameTree_setIrqList]
    exact leaving i member o assigned
  | @placed _ info node member target moved =>
    refine moved.leaving (fun o same => .inr ?_) leaving
    obtain rfl := Option.some.inj same
    have memberDb := valid.mem_db member
    exact ⟨(valid.settled info memberDb (valid.assigned member)).mp member,
      target.placeable guarded memberDb⟩
  | descended effect => exact effect.leaving guarded leaving

theorem Drained.congr (drained : Drained s d) (tree : SameTree s s')
    (kept : ∀ i ∈ (s'.objs d).interrupts, i ∈ (s.objs d).interrupts) : Drained s' d := by
  intro risky
  rw [Safe.congr tree] at risky
  apply List.eq_nil_iff_forall_not_mem.mpr
  intro i member
  have old := kept i member
  rw [drained risky] at old
  exact List.not_mem_nil old

/-- Nothing descends to a node. -/
theorem Descending.drained (effect : Descending K s s') (guarded : Guarded s) (node : d ∈ s.numaNodes)
    (drained : Drained s d) : Drained s' d := by
  cases effect with
  | @descended _ _ _ _ _ child _ moved =>
    apply drained.congr moved.tree
    intro i member
    have added : i ∈ s'.irqList (some d) := member
    rw [moved.lists] at added
    rcases Filing.mem_move added with old | ⟨_, target⟩
    · exact old
    · rw [Option.some.injEq] at target
      exact absurd (guarded.nodes d node) (target ▸ guarded.child_ne_node child)

/-- What holds throughout the walk over the nodes. -/
structure Draining (K : Env) (s : State) : Prop where
  located : Located s
  guarded : Guarded s
  leaving : Leaving K s
  served : NodesServed K s

theorem NodesServed.congr (served : NodesServed K s) (tree : SameTree s s') : NodesServed K s' := by
  intro n node placeable risky
  rw [tree.numaNodes] at node
  rw [Placeable.congr tree] at placeable
  rw [Safe.congr tree] at risky
  rw [tree.children]
  exact served n node placeable risky

theorem Descending.draining (effect : Descending K s s') (draining : Draining K s) :
    Draining K s' where
  located := effect.located draining.located
  guarded := (Placing.descended effect).guarded draining.guarded
  leaving := effect.leaving draining.guarded draining.leaving
  served := draining.served.congr (Placing.descended effect).sameTree

/-- An unsafe node with children gives up each of its entries. -/
theorem findBestObjectForIrq_leaves (draining : Draining K s) (risky : ¬ Safe s d)
    (member : info ∈ (s.objs d).interrupts) :
    ∃ best ∈ (s.objs d).children, Descending K s (findBestObjectForIrq K d info s) ∧
      Migrated (some d) (some best) info s (findBestObjectForIrq K d info s) := by
  have memberDb := draining.located.mem_db (p := some d) member
  have assigned := draining.located.assigned (p := some d) member
  obtain ⟨moved, level, node, placeable⟩ :=
    (draining.leaving info memberDb d assigned).resolve_left risky
  have type := draining.guarded.nodes d node
  have waits : restsOn (s.objs d).objType (s.irqs info).level = false := by
    rw [type]
    cases known : (s.irqs info).level with
    | none => exact absurd known level
    | package => rfl
    | cache => rfl
    | core => rfl
  obtain ⟨child, childMember⟩ := List.exists_mem_of_ne_nil _ (draining.served d node placeable risky)
  have chosen := bestObject_ne_none (K := K) childMember
    (draining.guarded.child_eligible node childMember)
  obtain ⟨best, found⟩ := Option.ne_none_iff_exists'.mp chosen
  have result : findBestObjectForIrq K d info s = migrateIrqObj (some d) (some best) info s := by
    simp only [findBestObjectForIrq, moved, waits, found, Bool.not_true, Bool.false_eq_true, if_false]
  have step := draining.located.migrated (q := some best) (p := some d) member
  obtain ⟨bestMember, eligible⟩ := bestObject_some found
  rw [result]
  exact ⟨best, bestMember, .descended member waits bestMember eligible step, step⟩

/-- The walk over the list of an unsafe node empties it. -/
theorem drain {list : List IrqRef} (draining : Draining K s) (risky : ¬ Safe s d)
    (distinct : list.Nodup) (members : ∀ i, i ∈ (s.objs d).interrupts ↔ i ∈ list) :
    ((forEach list (findBestObjectForIrq K d) s).objs d).interrupts = [] := by
  induction list generalizing s with
  | nil => exact List.eq_nil_iff_forall_not_mem.mpr fun i member => List.not_mem_nil ((members i).mp member)
  | cons info rest ih =>
    obtain ⟨fresh, distinct⟩ := List.nodup_cons.mp distinct
    obtain ⟨best, child, effect, moved⟩ := findBestObjectForIrq_leaves draining risky
      ((members info).mpr List.mem_cons_self)
    apply ih (effect.draining draining) (by rw [Safe.congr moved.tree]; exact risky) distinct
    intro i
    have later := effect.located draining.located
    by_cases same : i = info
    · subst same
      refine iff_of_false (fun member => ?_) fresh
      have target := (later.assigned (p := some d) member).symm.trans moved.assigned
      rw [Option.some.injEq] at target
      subst target
      have node : d ∈ s.numaNodes := by
        have memberDb := draining.located.mem_db (p := some d) ((members i).mpr List.mem_cons_self)
        have assigned := draining.located.assigned (p := some d) ((members i).mpr List.mem_cons_self)
        exact ((draining.leaving i memberDb d assigned).resolve_left risky).2.2.1
      exact draining.guarded.child_ne_node child (draining.guarded.nodes d node)
    · have kept : i ∈ ((findBestObjectForIrq K d info s).objs d).interrupts ↔
          i ∈ (s.objs d).interrupts := moved.mem_irqList (p := some d) same
      rw [kept, members i, List.mem_cons, or_iff_right same]

theorem placeIrqInObject_draining (draining : Draining K s) (d : ObjRef) :
    Draining K (placeIrqInObject K d s) :=
  path_preserves (fun _ _ draining effect => effect.draining draining) draining
    (placeIrqInObject_path draining.located d)

theorem placeIrqInObject_drained (draining : Draining K s) (d : ObjRef) :
    Drained (placeIrqInObject K d s) d := by
  intro risky
  have tree := Placing.path_sameTree
    (Descending.path_placing (placeIrqInObject_path (K := K) draining.located d))
  rw [Safe.congr tree] at risky
  exact drain draining risky (draining.located.filed.nodup (some d)) fun _ => Iff.rfl

/-- After the walk over the nodes every unsafe node is empty. -/
theorem placeInNodes_drained (draining : Draining K s) (node : d ∈ s.numaNodes) :
    Drained (forEach s.numaNodes (placeIrqInObject K) s) d := by
  have numaNodes (s' : State) (inv : Draining K s' ∧ s'.numaNodes = s.numaNodes) (c : ObjRef) :
      Draining K (placeIrqInObject K c s') ∧ (placeIrqInObject K c s').numaNodes = s.numaNodes := by
    refine ⟨placeIrqInObject_draining inv.1 c, ?_⟩
    rw [(Placing.path_sameTree (Descending.path_placing
      (placeIrqInObject_path (K := K) inv.1.located c))).numaNodes]
    exact inv.2
  refine forEach_establishes (I := fun s' => Draining K s' ∧ s'.numaNodes = s.numaNodes)
    (Q := fun s' => Drained s' d) node ⟨draining, rfl⟩ (fun c _ s' inv => numaNodes s' inv c)
    (fun s' inv => placeIrqInObject_drained inv.1 d) fun c _ s' inv drained => ?_
  have both := path_preserves (I := fun s'' => (Draining K s'' ∧ s''.numaNodes = s.numaNodes) ∧ Drained s'' d)
    (fun a b inv effect => ⟨⟨effect.draining inv.1.1, by
      rw [(Placing.descended effect).sameTree.numaNodes]
      exact inv.1.2⟩, effect.drained inv.1.1.guarded (by rw [inv.1.2]; exact node) inv.2⟩)
    ⟨inv, drained⟩ (placeIrqInObject_path (K := K) inv.1.located c)
  exact both.2

/-- Where every unsafe node is empty, no entry is left on one. -/
theorem Draining.quiet (draining : Draining K s) (drained : ∀ d ∈ s.numaNodes, Drained s d) :
    Quiet s := by
  intro i member o assigned
  by_contra risky
  obtain ⟨_, _, node, _⟩ := (draining.leaving i member o assigned).resolve_left risky
  have listed := draining.located.listed member assigned
  rw [drained o node risky] at listed
  exact List.not_mem_nil listed

theorem Descending.quiet (effect : Descending K s s') (guarded : Guarded s) (quiet : Quiet s) :
    Quiet s' := by
  cases effect with
  | descended _ _ child _ moved =>
    refine moved.quiet (fun o same => ?_) quiet
    obtain rfl := Option.some.inj same
    exact guarded.safe (guarded.child_ne_node child)

/-- `calculate_placement` moves every IRQ off the unsafe nodes that are served. -/
theorem calculatePlacement_quiet (valid : Located s) (guarded : Guarded s) (quiet : Quiet s)
    (served : NodesServed K s) : Quiet (calculatePlacement K s) := by
  have sorted := sortIrqList_placing (K := K) (s := s) none
  rcases calculatePlacement_cases (K := K) valid with ⟨_, same⟩ | ⟨s₂, s₃, _, waiting, nodes, rest⟩
  · rw [same]
    exact (retained_setIrqList (List.perm_insertionSort _ _)).quiet sorted.sameTree quiet
  · have filling : Draining K s₂ := by
      refine path_preserves (I := Draining K) (fun a b draining effect => ?_) ?_ (.head sorted waiting)
      · exact ⟨effect.located draining.located, effect.guarded draining.guarded,
          effect.leaving draining.located draining.guarded draining.leaving,
          draining.served.congr effect.sameTree⟩
      · exact ⟨valid, guarded, quiet.leaving, served⟩
    have walked := path_preserves (I := Draining K) (fun _ _ draining effect => effect.draining draining)
      filling (placeInObjects_path filling.located s₂.numaNodes)
    have drained := fun d (node : d ∈ s₂.numaNodes) => placeInNodes_drained filling node
    have numaNodes := (Placing.path_sameTree (Descending.path_placing
      (placeInObjects_path (K := K) filling.located s₂.numaNodes))).numaNodes
    rw [← nodes] at walked drained numaNodes
    rw [← numaNodes] at drained
    have settled : Guarded (calculatePlacement K s) ∧ Quiet (calculatePlacement K s) :=
      path_preserves (I := fun s => Guarded s ∧ Quiet s)
        (fun _ _ inv effect => ⟨(Placing.descended effect).guarded inv.1, effect.quiet inv.1 inv.2⟩)
        ⟨walked.guarded, walked.quiet drained⟩ rest
    exact settled.2

end Placement

section Runs

variable {s s' s'' : State} {o : ObjRef}

/-- The masks written between two states avoid the banned CPUs. -/
def BannedUntouched (s s' : State) : Prop :=
  ∃ new, s'.writes = s.writes ++ new ∧ ∀ w ∈ new, w.mask &&& s'.bannedCpus = CPU_MASK_NONE

theorem BannedUntouched.of_kernel (kernel : SameKernel s s') : BannedUntouched s s' :=
  ⟨[], by rw [kernel.writes, List.append_nil], fun w none => by contradiction⟩

theorem BannedUntouched.trans (first : BannedUntouched s s') (second : BannedUntouched s' s'')
    (bans : s''.bannedCpus = s'.bannedCpus) : BannedUntouched s s'' := by
  obtain ⟨new, writes, avoid⟩ := first
  obtain ⟨new', writes', avoid'⟩ := second
  refine ⟨new ++ new', by rw [writes', writes, List.append_assoc], fun w member => ?_⟩
  rcases List.mem_append.mp member with early | late
  · rw [bans]
    exact avoid w early
  · exact avoid' w late

/-- One write for an IRQ that rests on a safe object. -/
theorem wrote_untouched {info : IrqRef} {o : ObjRef} (safe : Safe s o) :
    BannedUntouched s (wrote K info o s) := by
  unfold wrote writeAffinity
  cases K.write s.clock with
  | openError e => exact ⟨[], (List.append_nil _).symm, fun w none => by contradiction⟩
  | ok => exact ⟨_, rfl, fun w member => by rw [List.mem_singleton.mp member]; exact safe⟩
  | writeError e => exact ⟨_, rfl, fun w member => by rw [List.mem_singleton.mp member]; exact safe⟩
  | closeError e => exact ⟨_, rfl, fun w member => by rw [List.mem_singleton.mp member]; exact safe⟩

theorem Activating.untouched (effect : Activating K s s') (guarded : Guarded s) (quiet : Quiet s) :
    BannedUntouched s s' := by
  rcases effect.wrote_or_idle with idle | ⟨info, member, o, target, rfl⟩
  · exact ⟨[], by rw [idle, List.append_nil], fun w none => by contradiction⟩
  · apply wrote_untouched
    rcases target with assigned | cpu
    · exact quiet info member o assigned
    · exact guarded.safe (by rw [cpu]; exact ObjType.noConfusion)

/-- The invariant of runs whose nodes are served. -/
structure Kept (s : State) : Prop where
  located : Located s
  guarded : Guarded s
  quiet : Quiet s

/-- Before placement the nodes must be served; the other operations need no condition. -/
theorem step_kept (op : Op) (kept : Kept s) (served : op = .calculatePlacement → NodesServed K s) :
    Kept (step K s op) ∧ BannedUntouched s (step K s op) := by
  have located := step_located (K := K) op kept.located
  have guarded := step_guarded (K := K) op kept.located kept.guarded
  suffices result : Quiet (step K s op) ∧ BannedUntouched s (step K s op) from
    ⟨⟨located, guarded, result.1⟩, result.2⟩
  cases op with
  | rebuild m banned src =>
    have rebuilt := rebuild_spec (K := K) m banned src s
    exact ⟨rebuilt.quiet, .of_kernel rebuilt.kernel⟩
  | hotplug src irq hint =>
    cases found : getIrqInfo irq s with
    | some _ =>
      simp only [step, found, Option.isSome_some, if_true]
      exact ⟨kept.quiet, .of_kernel (.refl s)⟩
    | none =>
      simp only [step, found, Option.isSome_none, Bool.false_eq_true, if_false]
      have grown := (hotplug_spec (K := K) src irq hint found kept.located).2
      exact ⟨grown.quiet kept.quiet, .of_kernel grown.kernel⟩
  | clearNoExisting =>
    have both := path_preserves (I := fun s' => Quiet s' ∧ SameKernel s s')
      (fun _ _ inv effect => ⟨effect.quiet inv.1, inv.2.trans effect.sameKernel⟩)
      ⟨kept.quiet, .refl s⟩ (clearNoExistingIrqs_path kept.located)
    exact ⟨both.1, .of_kernel both.2⟩
  | updateMigrationStatus =>
    have both := path_preserves (I := fun s' => Quiet s' ∧ SameKernel s s')
      (fun _ _ inv effect => ⟨effect.quiet inv.1, inv.2.trans effect.sameKernel⟩)
      ⟨kept.quiet, .refl s⟩ (updateMigrationStatus_path (K := K) kept.located)
    exact ⟨both.1, .of_kernel both.2⟩
  | calculatePlacement =>
    have kernel := path_preserves (I := SameKernel s)
      (fun _ _ same effect => same.trans effect.sameKernel)
      (.refl s) (calculatePlacement_path (K := K) kept.located)
    exact ⟨calculatePlacement_quiet kept.located kept.guarded kept.quiet (served rfl), .of_kernel kernel⟩
  | activateMappings =>
    have both := path_preserves (I := fun s' => Guarded s' ∧ Quiet s' ∧ BannedUntouched s s')
      (fun _ _ inv effect => ⟨effect.guarded inv.1, effect.quiet inv.1 inv.2.1,
        inv.2.2.trans (effect.untouched inv.1 inv.2.1) effect.sameTree.bannedCpus⟩)
      ⟨kept.guarded, kept.quiet, .of_kernel (.refl s)⟩ (activateMappings_path (K := K) kept.located)
    exact both.2
  | account objs irqs cycle bans =>
    have tree : SameTree s (account objs irqs cycle bans s) := by constructor <;> intros <;> rfl
    exact ⟨(account_retained objs irqs cycle bans).quiet tree kept.quiet, .of_kernel ⟨rfl, rfl, rfl⟩⟩

theorem boot_kept (affinity : ℤ → CpuMask) (bans : List ℤ) (modules : List (List Char)) :
    Kept (boot affinity bans modules) where
  located := boot_located affinity bans modules
  guarded := boot_guarded affinity bans modules
  quiet _ none := by contradiction

/-- In every run in which the nodes are served at each placement, no written mask contains a CPU
that is banned at the time. -/
theorem run_bannedUntouched (K : Env) (affinity : ℤ → CpuMask) (bans : List ℤ)
    (modules : List (List Char)) (ops : List Op)
    (served : EachStep (step K) (fun s op => op = .calculatePlacement → NodesServed K s)
      (boot affinity bans modules) ops) :
    EachStep (step K) (fun s op => BannedUntouched s (step K s op)) (boot affinity bans modules) ops :=
  served.of_invariant (boot_kept affinity bans modules) fun _ op kept => step_kept op kept

instance : Decidable (Safe s o) := inferInstanceAs (Decidable (_ = _))

instance : Decidable (Placeable K s o) := inferInstanceAs (Decidable (_ ∧ _))

instance : Decidable (NodesServed K s) := inferInstanceAs (Decidable (∀ n ∈ s.numaNodes, _))

theorem run_bannedUntouched_one :
    EachStep (step {}) (fun s op => BannedUntouched s (step {} s op)) (boot (fun _ => CPU_MASK_NONE) [] [])
      (scanTwoCpus (BitVec.ofNat NR_CPUS 2)) :=
  run_bannedUntouched {} (fun _ => CPU_MASK_NONE) [] [] (scanTwoCpus (BitVec.ofNat NR_CPUS 2))
    ⟨nofun, fun _ => by decide +kernel, nofun, trivial⟩

/-- A single write into the banned CPUs. -/
theorem BannedUntouched.refute {w : AffinityWrite} (before : s.writes = []) (after : s'.writes = [w])
    (overlap : w.mask &&& s'.bannedCpus ≠ CPU_MASK_NONE) : ¬ BannedUntouched s s' := by
  rintro ⟨new, writes, avoid⟩
  rw [before, after, List.nil_append] at writes
  exact overlap (avoid w (writes ▸ List.mem_singleton_self w))

/-- With both CPUs banned the node has no package; its interrupt stays and is sent to both CPUs. -/
theorem bannedUntouched_all_banned :
    ¬ EachStep (step {}) (fun s op => BannedUntouched s (step {} s op)) (boot (fun _ => CPU_MASK_NONE) [] [])
      (scanTwoCpus (BitVec.ofNat NR_CPUS 3)) :=
  fun each => BannedUntouched.refute (w := ⟨24, (BitVec.ofNat NR_CPUS 3)⟩) (by decide +kernel) (by decide +kernel)
    (by decide +kernel) each.2.2.1

end Runs

end Irqbalance
