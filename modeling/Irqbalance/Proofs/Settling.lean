import Irqbalance.Proofs.CpuList
import Irqbalance.Proofs.Interrupts
import Irqbalance.Proofs.Rescan
import Irqbalance.Proofs.Thermal

/-! # A rescan settles

The rescan branch of `scan` reads /proc/interrupts a second time. Its databases are new, so that only a
line with another number of columns than there are online CPUs can ask for the next rescan. Where none
does, the daemon goes on balancing for as long as the files agree with each other and nobody asks.
-/

namespace Irqbalance

variable {K : Env} {s s' s₁ : State} {d : Daemon} {src : IrqSources} {lines previous : List ProcLine}

section Online

theorem addNumaNodeToTopoObj_online (obj : ObjRef) (nodeid : ℤ) :
    (addNumaNodeToTopoObj K obj nodeid s).cpuOnlineMap = s.cpuOnlineMap := by
  unfold addNumaNodeToTopoObj
  dsimp only
  repeat' split
  all_goals rfl

theorem addCacheDomainToPackage_online (cache : ObjRef) (packageid nodeid : ℤ) (packageMask : CpuMask) :
    (addCacheDomainToPackage K cache packageid packageMask nodeid s).cpuOnlineMap = s.cpuOnlineMap := by
  unfold addCacheDomainToPackage findPackage recordNode adoptChild
  dsimp only
  repeat' split
  all_goals first | rfl | exact addNumaNodeToTopoObj_online _ _

theorem addCpuToCacheDomain_online (cpu : ObjRef) (cacheMask : CpuMask) (nodeid : ℤ) :
    (addCpuToCacheDomain K cpu cacheMask nodeid s).2.cpuOnlineMap = s.cpuOnlineMap := by
  unfold addCpuToCacheDomain findCacheDomain recordNode adoptChild
  dsimp only
  repeat' split
  all_goals first | rfl | exact addNumaNodeToTopoObj_online _ _

/-- `do_one_cpu` marks a CPU that is online, whether or not it is banned. -/
theorem doOneCpu_online (m : Machine) (d : CpuDir) : (doOneCpu K m d s).cpuOnlineMap =
    if cpuIsset d.number m.online then s.cpuOnlineMap ||| cpumaskOfCpu d.number else s.cpuOnlineMap := by
  unfold doOneCpu
  cases online : cpuIsset d.number m.online with
  | false => rfl
  | true =>
    dsimp only [Bool.not_true]
    split
    · contradiction
    split
    · rfl
    · exact (addCacheDomainToPackage_online _ _ _ _).trans (addCpuToCacheDomain_online _ _ _)

theorem connectCpuMemTopo_online (fuel : ℕ) (p : ObjRef) :
    (connectCpuMemTopo fuel p s).cpuOnlineMap = s.cpuOnlineMap := by
  induction fuel generalizing p s with
  | zero => rfl
  | succ fuel ih =>
    rw [connectCpuMemTopo]
    split
    · rfl
    · dsimp only
      split <;> split <;> rfl
    · exact forEach_preserves (I := fun s' : State => s'.cpuOnlineMap = s.cpuOnlineMap) rfl
        fun c _ s' same => (ih c).trans same

/-- The CPUs whose directories are there and that are online. -/
def Machine.onlineCpus (m : Machine) : List ℕ :=
  ((m.cpuDirs.map CpuDir.number).filter fun n => cpuIsset n m.online).dedup

/-- The walk over the directories marks the CPUs that are online, one by one. -/
theorem forEach_doOneCpu_online (m : Machine) (dirs : List CpuDir) (i : ℕ) :
    (forEach dirs (doOneCpu K m) s).cpuOnlineMap.getLsbD i = true ↔
      s.cpuOnlineMap.getLsbD i = true ∨ i ∈ (dirs.map CpuDir.number).filter fun n => cpuIsset n m.online := by
  induction dirs generalizing s with
  | nil => simp
  | cons d dirs ih =>
    rw [forEach_cons, ih, doOneCpu_online, List.map_cons]
    cases online : cpuIsset d.number m.online with
    | false => simp only [List.filter_cons, online, Bool.false_eq_true, if_false]
    | true =>
      have bound : d.number < NR_CPUS := BitVec.lt_of_getLsbD online
      simp only [List.filter_cons, online, if_true, BitVec.getLsbD_or, Bool.or_eq_true,
        getLsbD_cpumaskOfCpu bound, decide_eq_true_eq, List.mem_cons, or_assoc]

/-- The weight of a mask is the number of its CPUs. -/
theorem cpusWeight_eq_length {m : CpuMask} {cpus : List ℕ} (bits : ∀ i, m.getLsbD i = true ↔ i ∈ cpus) :
    cpusWeight m = cpus.dedup.length := by
  have bound : ∀ i ∈ cpus, i < NR_CPUS := fun i member => BitVec.lt_of_getLsbD ((bits i).mpr member)
  have values : (cpus.pmap Fin.mk bound).map Fin.val = cpus := by simp [List.map_pmap]
  have weight : cpusWeight m = (cpus.pmap Fin.mk bound).dedup.length := by
    apply cpusWeight_eq
    intro c
    rw [bits]
    conv_lhs => rw [← values]
    exact List.mem_map_of_injective Fin.val_injective
  conv_rhs => rw [← values, List.dedup_map_of_injective Fin.val_injective, List.length_map]
  exact weight

/-- Behind a rebuild, `cpu_online_map` holds the CPUs that are online. -/
theorem rebuild_online (m : Machine) (banned : CpuMask) (src : IrqSources) (s : State) :
    cpusWeight (rebuild K m banned src s).cpuOnlineMap = m.onlineCpus.length := by
  have nodes : (buildNumaNodeList K m (freeIrqDb (freeTopology s))).cpuOnlineMap = CPU_MASK_NONE := by
    unfold buildNumaNodeList
    dsimp only
    split
    · exact forEach_preserves (I := fun s' : State => s'.cpuOnlineMap = CPU_MASK_NONE) rfl fun _ _ _ same => same
    · rfl
  have tree : (parseCpuTree K m banned (buildNumaNodeList K m (freeIrqDb (freeTopology s)))).cpuOnlineMap =
      (forEach m.cpuDirs (doOneCpu K m)
        ((buildNumaNodeList K m (freeIrqDb (freeTopology s))).setBans banned)).cpuOnlineMap :=
    forEach_preserves (I := fun s' : State => s'.cpuOnlineMap = _) rfl
      fun p _ _ same => (connectCpuMemTopo_online 3 p).trans same
  obtain ⟨shaped, _⟩ := rebuild_topology (K := K) m banned s
  unfold rebuild
  dsimp only at shaped ⊢
  have queued := (rebuild_queued (K := K) shaped src).2.tree.cpuOnlineMap
  rw [clearSlots_adjusted.tree.cpuOnlineMap, queued]
  change cpusWeight (parseCpuTree K m banned (buildNumaNodeList K m (freeIrqDb (freeTopology s)))).cpuOnlineMap = _
  rw [tree]
  apply cpusWeight_eq_length
  intro i
  rw [forEach_doOneCpu_online]
  have none : ((buildNumaNodeList K m (freeIrqDb (freeTopology s))).setBans banned).cpuOnlineMap = CPU_MASK_NONE := nodes
  simp [none]

end Online

section Raising

/-- The line does not fit the CPUs or the count so far. -/
def Disagrees (s : State) (line : ProcLine) : Prop :=
  line.counts.length ≠ cpusWeight s.cpuOnlineMap ∨ u64 line.counts.sum < previousCount line.irq s

variable {s₀ : State}

/-- Behind the lines so far, the rest asks for a rescan where one of its lines disagrees. -/
theorem Reading.raises (reading : Reading s₀ previous s) (valid₀ : Located s₀)
    (online : s.cpuOnlineMap = s₀.cpuOnlineMap) (distinct : ((previous ++ lines).map ProcLine.irq).Nodup) :
    (parseProcLines K src lines s).2 = true ↔ ∃ line ∈ lines, Disagrees s₀ line := by
  induction lines generalizing previous s with
  | nil => simp [parseProcLines]
  | cons line rest ih =>
    obtain ⟨s₁, info, identified, same, reads⟩ := parseProcLines_step (K := K) src line rest reading.located
    have fresh : ∀ line' ∈ previous, line'.irq ≠ line.irq := by
      rw [List.map_append, List.map_cons] at distinct
      exact fun line' within same => (List.nodup_append.mp distinct).2.2 line'.irq (List.mem_map_of_mem within)
        line.irq List.mem_cons_self same
    rw [reading.previous valid₀ fresh identified, same, online] at reads
    rw [reads, List.exists_mem_cons_iff]
    split
    · rename_i disagrees
      exact iff_of_true rfl (.inl disagrees)
    · rename_i agrees
      have grown : (s₁.irqs info).irqCount ≤ u64 line.counts.sum := by
        rw [reading.previous valid₀ fresh identified]
        exact not_lt.mp (not_or.mp agrees).2
      have split : previous ++ line :: rest = previous ++ [line] ++ rest := by
        rw [List.append_assoc, List.singleton_append]
      rw [split] at distinct
      rw [ih (reading.step valid₀ fresh identified grown) (same.trans online) distinct]
      exact (or_iff_right agrees).symm

/-- The loop asks for a rescan where a line disagrees. -/
theorem parseProcLines_raises (src : IrqSources) (valid : Located s) (distinct : (lines.map ProcLine.irq).Nodup) :
    (parseProcLines K src lines s).2 = true ↔ ∃ line ∈ lines, Disagrees s line :=
  (Reading.refl valid).raises valid rfl distinct

end Raising

section Counts

/-- The databases, their counts and marks and the online CPUs are as before. -/
structure SameTally (s s' : State) : Prop where
  db : SameDb s s'
  online : s'.cpuOnlineMap = s.cpuOnlineMap
  irqCount : ∀ i, (s'.irqs i).irqCount = (s.irqs i).irqCount
  existing : ∀ i, (s'.irqs i).existing = (s.irqs i).existing

theorem SameTally.refl (s : State) : SameTally s s := ⟨.refl s, rfl, fun _ => rfl, fun _ => rfl⟩

theorem SameTally.trans (first : SameTally s s₁) (second : SameTally s₁ s') : SameTally s s' where
  db := first.db.trans second.db
  online := second.online.trans first.online
  irqCount i := (second.irqCount i).trans (first.irqCount i)
  existing i := (second.existing i).trans (first.existing i)

/-- An entry is stored back with its number, its count and its mark. -/
theorem sameTally_setIrq {i : IrqRef} {info : IrqInfo} (irq : info.irq = (s.irqs i).irq)
    (numaNode : info.numaNode = (s.irqs i).numaNode) (irqCount : info.irqCount = (s.irqs i).irqCount)
    (existing : info.existing = (s.irqs i).existing) : SameTally s (s.setIrq i info) :=
  ⟨sameDb_setIrq irq numaNode, rfl, setIrq_field IrqInfo.irqCount irqCount, setIrq_field IrqInfo.existing existing⟩

theorem Migrated.sameTally {p q : Option ObjRef} {info : IrqRef} (moved : Migrated p q info s s') :
    SameTally s s' := by
  have kept {β : Type} (f : IrqInfo → β) (same : f { s.irqs info with moved := true, assignedObj := q } = f (s.irqs info))
      (i : IrqRef) : f (s'.irqs i) = f (s.irqs i) := by
    rw [moved.irqs]
    exact setIrq_field f same i
  exact ⟨moved.db, moved.tree.cpuOnlineMap, kept IrqInfo.irqCount rfl, kept IrqInfo.existing rfl⟩

theorem Balancing.sameTally (effect : Balancing s s') : SameTally s s' := by
  cases effect with
  | sorted p l _ => exact ⟨sameDb_setIrqList, rfl, fun _ => rfl, fun _ => rfl⟩
  | mode on _ => exact ⟨sameDb_setObj, rfl, fun _ => rfl, fun _ => rfl⟩
  | evicted _ _ moved => exact moved.sameTally

theorem Placing.sameTally (effect : Placing K s s') : SameTally s s' := by
  cases effect with
  | sorted p l _ => exact ⟨sameDb_setIrqList, rfl, fun _ => rfl, fun _ => rfl⟩
  | placed _ _ moved => exact moved.sameTally
  | descended effect =>
    cases effect with
    | descended _ _ _ _ moved => exact moved.sameTally

theorem Activating.sameTally (effect : Activating K s s') : SameTally s s' := by
  cases effect with
  | read => exact ⟨⟨rfl, rfl, rfl, fun _ => rfl, fun _ => rfl⟩, rfl, fun _ => rfl, fun _ => rfl⟩
  | written =>
    unfold wrote writeAffinity
    dsimp only
    split <;> exact ⟨⟨rfl, rfl, rfl, fun _ => rfl, fun _ => rfl⟩, rfl, fun _ => rfl, fun _ => rfl⟩
  | saturated => exact ⟨sameDb_setObj, rfl, fun _ => rfl, fun _ => rfl⟩
  | fellBack _ _ moved => exact moved.sameTally
  | evicted _ _ moved => exact moved.sameTally
  | settled | idled | abandoned => exact sameTally_setIrq rfl rfl rfl rfl

/-- What each effect leaves alone, a path of them leaves alone. -/
theorem path_sameTally {Effect : State → State → Prop} (effect : ∀ a b, Effect a b → SameTally a b)
    (path : Relation.ReflTransGen Effect s s') : SameTally s s' :=
  path_preserves (I := SameTally s) (fun a b same next => same.trans (effect a b next)) (.refl s) path

theorem parseProcStat_sameTally (r : StatReading) : SameTally s (parseProcStat r s) :=
  ⟨⟨rfl, rfl, rfl, fun _ => rfl, fun _ => rfl⟩, rfl, fun _ => rfl, fun _ => rfl⟩

theorem parseProcStat_located (r : StatReading) (valid : Located s) : Located (parseProcStat r s) :=
  (account_retained _ _ _ _).located valid

/-- The balancing branch of `scan` touches no count. -/
theorem balance_sameTally (r : ScanReading) (valid : Located d.state) :
    SameTally d.state (balance K r d).state ∧ Located (balance K r d).state := by
  have charged := parseProcStat_sameTally (s := d.state) r.stat
  have valid₁ := parseProcStat_located r.stat valid
  unfold balance
  dsimp only
  generalize parseProcStat r.stat d.state = s₁ at charged valid₁ ⊢
  obtain ⟨balanced, valid₂⟩ : SameTally s₁ (if s₁.cycleCount ≠ 0 then updateMigrationStatus K s₁ else s₁) ∧
      Located (if s₁.cycleCount ≠ 0 then updateMigrationStatus K s₁ else s₁) := by
    split
    · have path := updateMigrationStatus_path (K := K) valid₁
      exact ⟨path_sameTally (fun _ _ => Balancing.sameTally) path, Balancing.path_located path valid₁⟩
    · exact ⟨.refl s₁, valid₁⟩
  generalize (if s₁.cycleCount ≠ 0 then updateMigrationStatus K s₁ else s₁) = s₂ at balanced valid₂ ⊢
  have placing := calculatePlacement_path (K := K) valid₂
  have placed := path_sameTally (fun _ _ => Placing.sameTally) placing
  have valid₃ := Placing.path_located placing valid₂
  generalize calculatePlacement K s₂ = s₃ at placed valid₃ ⊢
  have activating := activateMappings_path (K := K) valid₃
  have activated := path_sameTally (fun _ _ => Activating.sameTally) activating
  have valid₄ := Activating.path_located activating valid₃
  generalize activateMappings K s₃ = s₄ at activated valid₄ ⊢
  have counted : SameTally s₄ { s₄ with cycleCount := u64 (s₄.cycleCount + 1) } :=
    ⟨⟨rfl, rfl, rfl, fun _ => rfl, fun _ => rfl⟩, rfl, fun _ => rfl, fun _ => rfl⟩
  have same : Retained s₄ { s₄ with cycleCount := u64 (s₄.cycleCount + 1) } :=
    .of_irqs ⟨rfl, rfl, rfl, fun _ => rfl, fun _ => rfl⟩ rfl (by funext p; cases p <;> rfl)
  exact ⟨charged.trans (balanced.trans (placed.trans (activated.trans counted))), same.located valid₄⟩

end Counts

section Fresh

/-- Nothing has been counted or marked. -/
def Uncounted (s : State) : Prop := ∀ i ∈ s.entries, (s.irqs i).irqCount = 0 ∧ (s.irqs i).existing = false

theorem Additions.uncounted {allowed : ℤ → Prop} (additions : Additions allowed s s') (valid : Consistent s)
    (uncounted : Uncounted s) : Uncounted s' := by
  induction additions with
  | nil => exact uncounted
  | @step s₁ s' irq before _ added ih =>
    cases found : getIrqInfo irq s₁ with
    | some i =>
      cases added with
      | known _ => exact ih
      | banned unknown _ _ => rw [found] at unknown; contradiction
      | managed unknown _ => rw [found] at unknown; contradiction
    | none =>
      have discovered := added.discovered found (before.consistent valid)
      intro j member
      rcases (discovered.entries j).mp member with old | rfl
      · rw [discovered.old j old]
        exact ih j old
      · exact ⟨discovered.blank.unseen.1, discovered.blank.unseen.2.2⟩

/-- Queueing entries that have no place counts and marks nothing. -/
theorem forEach_forceRebalance_irqs {l : List IrqRef} (unassigned : ∀ i ∈ l, (s.irqs i).assignedObj = none) :
    (forEach l forceRebalanceIrq s).entries = s.entries ∧ (forEach l forceRebalanceIrq s).irqs = s.irqs := by
  apply forEach_preserves (I := fun s' : State => s'.entries = s.entries ∧ s'.irqs = s.irqs) ⟨rfl, rfl⟩
  rintro i member s' ⟨entries, irqs⟩
  rw [forceRebalanceIrq_unassigned (by rw [irqs]; exact unassigned i member)]
  split
  · exact ⟨entries, irqs⟩
  · exact ⟨entries, irqs⟩

/-- The entries of a rebuild have not been counted. -/
theorem rebuild_uncounted (m : Machine) (banned : CpuMask) (src : IrqSources) (s : State) :
    Uncounted (rebuild K m banned src s) := by
  obtain ⟨shaped, _⟩ := rebuild_topology (K := K) m banned s
  unfold rebuild
  dsimp only at shaped ⊢
  generalize parseCpuTree K m banned (buildNumaNodeList K m (freeIrqDb (freeTopology s))) = s₂ at shaped ⊢
  have additions := rebuildIrqDb_additions (K := K) (s := s₂) src
  have empty := freeIrqDb_consistent shaped
  have uncounted := additions.uncounted empty fun i none => absurd none List.not_mem_nil
  have unassigned (i : IrqRef) (member : i ∈ (rebuildIrqDb K src s₂).interruptsDb) :
      ((rebuildIrqDb K src s₂).irqs i).assignedObj = none := by
    obtain ⟨_, blank⟩ := ((additions.grown empty).entry i member).resolve_left fun old => List.not_mem_nil old.1
    exact blank.assigned
  obtain ⟨entries, irqs⟩ := forEach_forceRebalance_irqs unassigned
  generalize forEach (rebuildIrqDb K src s₂).interruptsDb forceRebalanceIrq (rebuildIrqDb K src s₂) = s₄
    at entries irqs ⊢
  have cleared := clearSlots_adjusted (s := s₄)
  intro i member
  rw [State.entries, cleared.db.interruptsDb, cleared.db.bannedIrqs] at member
  rw [cleared.irqs, irqs]
  exact uncounted i (entries ▸ member)

end Fresh

section Settled

/-- The databases hold interrupts of the file, with its counts and no mark. -/
structure Current (lines : List ProcLine) (s : State) : Prop where
  located : Located s
  unmarked : ∀ i ∈ s.entries, (s.irqs i).existing = false
  counted : ∀ i ∈ s.entries, ∃ line ∈ lines, (s.irqs i).irq = line.irq ∧ (s.irqs i).irqCount = u64 line.counts.sum

theorem parseProcLines_online (src : IrqSources) (lines : List ProcLine) (valid : Located s) :
    (parseProcLines K src lines s).1.cpuOnlineMap = s.cpuOnlineMap := by
  induction lines generalizing s with
  | nil => rfl
  | cons line rest ih =>
    obtain ⟨s₁, info, identified, same, reads⟩ := parseProcLines_step (K := K) src line rest valid
    rw [reads]
    split
    · exact same
    · exact (ih (identified.located.counted _ _)).trans same

/-- A reading that asks for no rescan leaves the databases as the file has them. -/
theorem parseProcLines_current (src : IrqSources) (valid : Located s) (unmarked : ∀ i ∈ s.entries, (s.irqs i).existing = false)
    (distinct : (lines.map ProcLine.irq).Nodup) (ended : (parseProcLines K src lines s).2 = false) :
    Current lines (clearNoExistingIrqs (parseProcLines K src lines s).1) := by
  have reading : Reading s lines (parseProcLines K src lines s).1 :=
    parseProcLines_reading (.refl valid) valid distinct (Prod.ext rfl ended)
  generalize (parseProcLines K src lines s).1 = s₁ at reading ⊢
  have swept := clearNoExistingIrqs_entries reading.located
  refine ⟨Vanishing.path_located (clearNoExistingIrqs_path reading.located) reading.located,
    fun i member => by rw [(swept i).2 member], fun i member => ?_⟩
  obtain ⟨known, existing⟩ := (swept i).1.mp member
  rw [(swept i).2 member]
  rcases reading.entry i known with ⟨line, within, from'⟩ | ⟨old, same⟩
  · exact ⟨line, within, from'.irq, from'.irqCount⟩
  · rw [same, unmarked i old] at existing
    contradiction

/-- The file goes on from the one before it: a column for each CPU, and no count goes back. -/
structure Continues (cpus : ℕ) (previous lines : List ProcLine) : Prop where
  distinct : (lines.map ProcLine.irq).Nodup
  columns : ∀ line ∈ lines, line.counts.length = cpus
  grown : ∀ before ∈ previous, ∀ line ∈ lines, before.irq = line.irq → u64 before.counts.sum ≤ u64 line.counts.sum

/-- The databases are those of the file, and no rescan is pending. -/
structure UpToDate (cpus : ℕ) (lines : List ProcLine) (d : Daemon) : Prop where
  idle : d.needRescan = false
  current : Current lines d.state
  online : cpusWeight d.state.cpuOnlineMap = cpus

/-- The message asks for no rescan. -/
def quiet (buff : List Char) : Bool :=
  !hasPrefix buff "settings ban irqs ".toList && !hasPrefix buff "settings cpus ".toList

/-- Each file that a scan reads goes on from the one before it, and nobody asks for a rescan. -/
def Stable (cpus : ℕ) : List ProcLine → List Event → Prop
  | _, [] => True
  | previous, .scan r :: rest =>
    (∀ lines, r.interrupts.lines = some lines → Continues cpus previous lines) ∧
      Stable cpus (r.interrupts.lines.getD previous) rest
  | previous, .terminate :: rest => Stable cpus previous rest
  | previous, .message buff :: rest => quiet buff = true ∧ Stable cpus previous rest
  | _, .hangup :: _ | _, .thermal _ :: _ => False

variable {cpus : ℕ}

/-- A file that goes on from the last disagrees with nothing. -/
theorem Current.agrees (current : Current previous s) (continues : Continues (cpusWeight s.cpuOnlineMap) previous lines) :
    ¬ ∃ line ∈ lines, Disagrees s line := by
  rintro ⟨line, within, columns | restarted⟩
  · exact columns (continues.columns line within)
  · unfold previousCount at restarted
    cases found : getIrqInfo line.irq s with
    | none =>
      rw [found] at restarted
      exact Nat.not_lt_zero _ restarted
    | some i =>
      obtain ⟨member, number⟩ := getIrqInfo_some found
      obtain ⟨before, read, irq, count⟩ := current.counted i member
      rw [found] at restarted
      apply Nat.not_lt.mpr (continues.grown before read line within _) (count ▸ restarted)
      exact Int.natCast_inj.mp (irq.symm.trans number)

/-- Reading a file asks for a rescan or leaves the databases as the file has them. -/
theorem parseProcInterrupts_upToDate {r : InterruptsReading} (read : r.lines = some lines)
    (idle : d.needRescan = false) (valid : Located d.state)
    (unmarked : ∀ i ∈ d.state.entries, (d.state.irqs i).existing = false)
    (distinct : (lines.map ProcLine.irq).Nodup) :
    ((parseProcInterrupts K r d).needRescan = true ↔ ∃ line ∈ lines, Disagrees d.globals line) ∧
      ((parseProcInterrupts K r d).needRescan = false →
        UpToDate (cpusWeight d.state.cpuOnlineMap) lines (parseProcInterrupts K r d)) := by
  have start := located_globals valid
  have raises := parseProcLines_raises (K := K) r.src start distinct
  have current := parseProcLines_current (K := K) r.src start unmarked distinct
  have located := (parseProcLines_synced (K := K) r.src lines start).located
  have online := parseProcLines_online (K := K) r.src lines start
  unfold parseProcInterrupts
  rw [read]
  dsimp only
  generalize parseProcLines K r.src lines d.globals = result at raises current located online ⊢
  obtain ⟨s, raised⟩ := result
  have flag : (d.settings.needRescan || raised) = raised := by rw [show d.settings.needRescan = false from idle, Bool.false_or]
  dsimp only at raises current located online ⊢
  rw [flag]
  refine ⟨raises, fun ended => ?_⟩
  obtain rfl : raised = false := ended
  rw [if_neg Bool.false_ne_true]
  have swept := (Vanishing.path_sameTree (clearNoExistingIrqs_path located)).cpuOnlineMap
  exact ⟨rfl, current rfl, congrArg cpusWeight (swept.trans online)⟩

/-- A file that goes on from the last is read without a request. -/
theorem UpToDate.parse {r : InterruptsReading} (upToDate : UpToDate cpus previous d)
    (continues : ∀ lines, r.lines = some lines → Continues cpus previous lines) :
    UpToDate cpus (r.lines.getD previous) (parseProcInterrupts K r d) := by
  obtain ⟨idle, current, online⟩ := upToDate
  cases read : r.lines with
  | none =>
    unfold parseProcInterrupts
    rw [read]
    exact ⟨idle, current, online⟩
  | some lines =>
    have goesOn := continues lines read
    obtain ⟨raises, settles⟩ := parseProcInterrupts_upToDate (K := K) read idle current.located current.unmarked
      goesOn.distinct
    have before : Current previous d.globals := ⟨located_globals current.located, current.unmarked, current.counted⟩
    have agrees : ¬ ∃ line ∈ lines, Disagrees d.globals line := by
      apply before.agrees
      rw [show cpusWeight d.globals.cpuOnlineMap = cpus from online]
      exact goesOn
    rw [← online]
    exact settles (Bool.eq_false_of_not_eq_true fun raised => agrees (raises.mp raised))

/-- What a scan that reads no file, or one that goes on from the last, leaves behind. -/
theorem UpToDate.scan {r : ScanReading} (upToDate : UpToDate cpus previous d)
    (continues : ∀ lines, r.interrupts.lines = some lines → Continues cpus previous lines) :
    takesRescan K r d = false ∧ UpToDate cpus (r.interrupts.lines.getD previous) (scan K r d) := by
  have read := upToDate.parse (K := K) continues
  have takes : takesRescan K r d = false := by rw [takesRescan, read.idle, Bool.and_false]
  refine ⟨takes, ?_⟩
  obtain ⟨same, located⟩ := balance_sameTally (K := K) r read.current.located
  rw [scan_of_not_takesRescan takes]
  refine ⟨read.idle, ⟨located, fun i member => ?_, fun i member => ?_⟩, (congrArg cpusWeight same.online).trans read.online⟩
  all_goals rw [State.entries, same.db.interruptsDb, same.db.bannedIrqs] at member
  · rw [same.existing]
    exact read.current.unmarked i member
  · rw [same.db.irq, same.irqCount]
    exact read.current.counted i member

theorem handleSettings_quiet {buff : List Char} {c : Settings} (still : quiet buff = true) :
    (handleSettings buff c).needRescan = c.needRescan := by
  obtain ⟨bans, masks⟩ := Bool.and_eq_true_iff.mp still
  rw [Bool.not_eq_true'] at bans masks
  unfold handleSettings
  simp only [bans, masks, Bool.false_eq_true, if_false]
  split
  · split <;> rfl
  · rfl

/-- A message that asks for no rescan leaves the databases and the flag as they are. -/
theorem UpToDate.message {buff : List Char} (upToDate : UpToDate cpus lines d) (still : quiet buff = true) :
    UpToDate cpus lines (handleMessage buff d) := by
  refine ⟨?_, upToDate.current, upToDate.online⟩
  change (sockHandle d.state buff d.settings).1.needRescan = false
  unfold sockHandle
  dsimp only
  split
  · rw [handleSettings_quiet still]
    exact upToDate.idle
  · exact upToDate.idle

/-- As long as the files go on, no scan takes the rescan branch. -/
theorem UpToDate.stable {before after : List Event} {r : ScanReading} (upToDate : UpToDate cpus lines d)
    (stable : Stable cpus lines (before ++ .scan r :: after)) : takesRescan K r (mainLoop K d before) = false := by
  induction before generalizing lines d with
  | nil => exact (upToDate.scan stable.1).1
  | cons e rest ih =>
    cases e with
    | scan r' => exact ih (upToDate.scan stable.1).2 stable.2
    | hangup => contradiction
    | terminate => exact ih ⟨upToDate.idle, upToDate.current, upToDate.online⟩ stable
    | message buff => exact ih (upToDate.message stable.1) stable.2
    | thermal events => contradiction

/-- The daemon in the middle of the rescan branch, with everything built anew. -/
def Daemon.rebuilt (K : Env) (r : ScanReading) (d : Daemon) : Daemon :=
  { d with
    settings := { d.settings with needRescan := false }
    state := rebuild K r.tree.machine (d.bannedCpus r.tree) r.tree.src { d.globals with cycleCount := 0 } }

/-- New databases only disagree about the number of CPUs. -/
theorem disagrees_of_uncounted {line : ProcLine} (uncounted : Uncounted s) :
    Disagrees s line ↔ line.counts.length ≠ cpusWeight s.cpuOnlineMap := by
  have first : previousCount line.irq s = 0 := by
    unfold previousCount
    cases found : getIrqInfo line.irq s with
    | none => rfl
    | some i => exact (uncounted i (getIrqInfo_some found).1).1
  rw [Disagrees, first]
  exact or_iff_left (Nat.not_lt_zero _)

/-- The second reading of a rescan. -/
theorem rescan_upToDate {r : ScanReading} (read : r.interruptsAfter.lines = some lines)
    (distinct : (lines.map ProcLine.irq).Nodup) :
    ((rescan K r d).needRescan = true ↔
        ∃ line ∈ lines, line.counts.length ≠ r.tree.machine.onlineCpus.length) ∧
      ((rescan K r d).needRescan = false → UpToDate r.tree.machine.onlineCpus.length lines (rescan K r d)) := by
  have rebuilt := rebuild_spec (K := K) r.tree.machine (d.bannedCpus r.tree) r.tree.src { d.globals with cycleCount := 0 }
  have uncounted : Uncounted (d.rebuilt K r).globals := rebuild_uncounted r.tree.machine (d.bannedCpus r.tree)
    r.tree.src { d.globals with cycleCount := 0 }
  have online : cpusWeight (d.rebuilt K r).globals.cpuOnlineMap = r.tree.machine.onlineCpus.length :=
    rebuild_online r.tree.machine (d.bannedCpus r.tree) r.tree.src { d.globals with cycleCount := 0 }
  obtain ⟨raises, settles⟩ := parseProcInterrupts_upToDate (K := K) (d := d.rebuilt K r) read rfl rebuilt.located
    (fun i member => (uncounted i member).2) distinct
  simp only [disagrees_of_uncounted uncounted, online] at raises
  refine ⟨raises, fun ended => ?_⟩
  obtain ⟨idle, current, weight⟩ := settles ended
  have charged := parseProcStat_sameTally (s := (parseProcInterrupts K r.interruptsAfter (d.rebuilt K r)).state) r.stat
  refine ⟨idle, ⟨parseProcStat_located r.stat current.located, fun i member => ?_, fun i member => ?_⟩, ?_⟩
  · exact current.unmarked i member
  · exact current.counted i member
  · exact weight.trans online

/-- A rescan does not stop the daemon. -/
theorem rescan_keepGoing (r : ScanReading) : (rescan K r d).keepGoing = d.keepGoing :=
  parseProcInterrupts_keepGoing (d := d.rebuilt K r) r.interruptsAfter

/-- Behind a rescan, a line with another number of columns than there are online CPUs makes the next scan
rescan again. Without one no scan does, as long as the files go on from each other and nobody asks. -/
theorem rescan_settles (K : Env) (d : Daemon) (r : ScanReading) (lines : List ProcLine)
    (takes : takesRescan K r d = true) (read : r.interruptsAfter.lines = some lines)
    (distinct : (lines.map ProcLine.irq).Nodup) :
    ((∃ line ∈ lines, line.counts.length ≠ r.tree.machine.onlineCpus.length) →
      ∀ mid r', (∀ e ∈ mid, e.isScan = false ∧ e.isTerminate = false) →
        takesRescan K r' (mainLoop K (scan K r d) mid) = true) ∧
    ((∀ line ∈ lines, line.counts.length = r.tree.machine.onlineCpus.length) →
      ∀ before r' after, Stable r.tree.machine.onlineCpus.length lines (before ++ .scan r' :: after) →
        takesRescan K r' (mainLoop K (scan K r d) before) = false) := by
  obtain ⟨raises, settles⟩ := rescan_upToDate (K := K) (d := parseProcInterrupts K r.interrupts d) read distinct
  have goesOn : (parseProcInterrupts K r.interrupts d).keepGoing = true := (Bool.and_eq_true_iff.mp takes).1
  rw [scan_of_takesRescan takes]
  constructor
  · intro differs mid r' waiting
    have unstopped : mid.any Event.isTerminate = false := by
      rw [List.any_eq_false]
      intro e member
      rw [(waiting e member).2]
      exact Bool.false_ne_true
    have scanless : ∀ e ∈ mid, e.isScan = false := fun e member => (waiting e member).1
    rw [takesRescan_eq, mainLoop_keepGoing scanless, unstopped, rescan_keepGoing, goesOn,
      parseProcInterrupts_needRescan _ (mainLoop_needRescan scanless (raises.mpr differs))]
    rfl
  · intro agree before r' after stable
    have idle : (rescan K r (parseProcInterrupts K r.interrupts d)).needRescan = false := by
      apply Bool.eq_false_of_not_eq_true
      rw [raises]
      rintro ⟨line, within, differs⟩
      exact differs (agree line within)
    exact (settles idle).stable stable

/-- A daemon with a hangup that the next scan serves. -/
def hungUp : Daemon := mainLoop {} quietStart [.scan quietReading, .hangup]

/-- The line of interrupt 24 with these counts. -/
def countsOf24 (counts : List ℕ) : List ProcLine := [⟨24, { irq := 24 }, counts⟩]

/-- A scan that finds one CPU more in the file than in the tree, at its second reading. -/
def lateReading : ScanReading := { quietReading with interruptsAfter := { lines := some (countsOf24 [0, 0, 0]) } }

/-- A scan that finds interrupt 24 raised. -/
def raisedReading : ScanReading := { quietReading with interrupts := { lines := some (countsOf24 [3, 4]) } }

theorem twoCpus_onlineCpus : twoCpus.onlineCpus.length = 2 := by decide +kernel

/-- The rescan is followed by another one where the CPU has come late, and by none where the interrupt has
only been raised. -/
theorem rescan_settles_quiet :
    takesRescan {} quietReading (mainLoop {} (scan {} lateReading hungUp) [.message "stats".toList]) = true ∧
      takesRescan {} raisedReading
        (mainLoop {} (scan {} quietReading hungUp) [.message "settings sleep 5".toList, .scan raisedReading]) = false := by
  have served (r : ScanReading) (lines : r.interrupts = quietReading.interrupts) : takesRescan {} r hungUp = true := by
    unfold takesRescan
    rw [lines]
    decide +kernel
  have goesOn (previous : List ℕ) (grown : u64 previous.sum ≤ 7) :
      Continues 2 (countsOf24 previous) (countsOf24 [3, 4]) := by
    refine ⟨by decide, by decide, fun before read line within _ => ?_⟩
    obtain rfl := List.mem_singleton.mp read
    obtain rfl := List.mem_singleton.mp within
    exact grown
  constructor
  · apply (rescan_settles {} hungUp lateReading (countsOf24 [0, 0, 0]) (served _ rfl) rfl (by decide)).1
    · refine ⟨_, List.mem_singleton_self _, ?_⟩
      rw [show lateReading.tree.machine = twoCpus from rfl, twoCpus_onlineCpus]
      decide
    · simp [Event.isScan, Event.isTerminate]
  · have two : quietReading.tree.machine.onlineCpus.length = 2 := twoCpus_onlineCpus
    refine (rescan_settles {} hungUp quietReading (countsOf24 [0, 0]) (served _ rfl) rfl (by decide)).2
      (fun line within => ?_) [.message "settings sleep 5".toList, .scan raisedReading] raisedReading [] ?_
    · obtain rfl := List.mem_singleton.mp within
      rw [two]
      rfl
    · rw [two]
      refine ⟨by decide, fun lines read => ?_, fun lines read => ?_, trivial⟩
      · obtain rfl := Option.some.inj read
        exact goesOn [0, 0] (by decide)
      · obtain rfl := Option.some.inj read
        exact goesOn [3, 4] (by decide)

end Settled

end Irqbalance
