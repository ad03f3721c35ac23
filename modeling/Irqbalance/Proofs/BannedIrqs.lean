import Irqbalance.Proofs.Rescan

/-! # Interrupts on the ban list

An entry for a banned number is filed away from the database that placement and activation walk over.
A message that changes the ban list leaves the database as it is and requests a rescan, which builds
the database anew before anything is written. A stop signal between the two voids the request.
-/

namespace Irqbalance

open Relation (ReflTransGen)

variable {K : Env}

/-- No entry of the database has a banned number. -/
def Unbanned (bans : List ℤ) (s : State) : Prop := ∀ i ∈ s.interruptsDb, (s.irqs i).irq ∉ bans

section Topology

variable {s : State} {o c : ObjRef} {id : ℤ} {m : Machine} {d : CpuDir} {mask : CpuMask}

theorem addNumaNodeToTopoObj_bans : (addNumaNodeToTopoObj K o id s).clBannedIrqs = s.clBannedIrqs := by
  unfold addNumaNodeToTopoObj
  dsimp only
  repeat' split
  all_goals rfl

theorem recordNode_bans : (recordNode K o id s).clBannedIrqs = s.clBannedIrqs := by
  unfold recordNode
  split
  · exact addNumaNodeToTopoObj_bans
  · rfl

theorem adoptChild_bans : (adoptChild o c s).clBannedIrqs = s.clBannedIrqs := by
  unfold adoptChild
  split <;> rfl

theorem findPackage_bans : (findPackage id mask s).2.clBannedIrqs = s.clBannedIrqs := by
  unfold findPackage
  split <;> rfl

theorem findCacheDomain_bans : (findCacheDomain mask s).2.clBannedIrqs = s.clBannedIrqs := by
  unfold findCacheDomain
  split <;> rfl

theorem doOneCpu_bans : (doOneCpu K m d s).clBannedIrqs = s.clBannedIrqs := by
  unfold doOneCpu
  split
  · rfl
  dsimp only
  split
  · rfl
  · simp only [addCacheDomainToPackage, addCpuToCacheDomain, recordNode_bans, adoptChild_bans,
      findPackage_bans, findCacheDomain_bans]
    rfl

theorem connectCpuMemTopo_bans (fuel : ℕ) : (connectCpuMemTopo fuel o s).clBannedIrqs = s.clBannedIrqs := by
  induction fuel generalizing o s with
  | zero => rfl
  | succ fuel ih =>
    rw [connectCpuMemTopo]
    split
    · rfl
    · dsimp only
      repeat' split
      all_goals rfl
    · exact forEach_preserves (I := fun s' : State => s'.clBannedIrqs = s.clBannedIrqs) rfl
        fun _ _ _ same => ih.trans same

theorem parseCpuTree_bans : (parseCpuTree K m mask s).clBannedIrqs = s.clBannedIrqs := by
  have cpus : (forEach m.cpuDirs (doOneCpu K m) (s.setBans mask)).clBannedIrqs = s.clBannedIrqs :=
    forEach_preserves (I := fun s' : State => s'.clBannedIrqs = s.clBannedIrqs) rfl
      fun _ _ _ same => doOneCpu_bans.trans same
  exact forEach_preserves (I := fun s' : State => s'.clBannedIrqs = s.clBannedIrqs) cpus
    fun _ _ _ same => (connectCpuMemTopo_bans 3).trans same

theorem buildNumaNodeList_bans : (buildNumaNodeList K m s).clBannedIrqs = s.clBannedIrqs := by
  unfold buildNumaNodeList
  dsimp only
  split
  · exact forEach_preserves (I := fun s' : State => s'.clBannedIrqs = s.clBannedIrqs) rfl
      fun _ _ _ same => same
  · rfl

end Topology

section Additions

variable {s s' : State} {bans : List ℤ} {irq : ℤ} {info : IrqRef}

/-- What adding entries keeps. -/
structure Clean (bans : List ℤ) (s : State) : Prop where
  consistent : Consistent s
  unbanned : Unbanned bans s
  bans : s.clBannedIrqs = bans

theorem Unbanned.of_db (unbanned : Unbanned bans s) (db : SameDb s s') : Unbanned bans s' := by
  intro i member
  rw [db.irq]
  exact unbanned i (db.interruptsDb ▸ member)

/-- A banned number does not enter the database. -/
theorem addNewIrq_banned {src : IrqSources} {dev : Option PciDev} {hint : IrqHint}
    (banned : hint.irq ∈ s.clBannedIrqs) : (addNewIrq K src dev hint s).interruptsDb = s.interruptsDb := by
  have found : checkForIrqBan hint (dev.bind (·.driver)) s = true := by
    simp [checkForIrqBan, banned]
  unfold addNewIrq
  split
  · rfl
  · dsimp only
    rw [if_pos (.inr found)]
    unfold addBannedIrq
    split <;> rfl

theorem addNewIrq_clean {src : IrqSources} {dev : Option PciDev} {hint : IrqHint} (clean : Clean bans s) :
    Clean bans (addNewIrq K src dev hint s) := by
  have added : Added s hint.irq (addNewIrq K src dev hint s) := addNewIrq_added src dev rfl
  have excluded : hint.irq ∈ s.clBannedIrqs → (addNewIrq K src dev hint s).interruptsDb = s.interruptsDb :=
    addNewIrq_banned
  generalize addNewIrq K src dev hint s = s' at added excluded ⊢
  have old (i : IrqRef) (member : i ∈ s.interruptsDb) : i ≠ s.nextIrq :=
    clean.consistent.ne_nextIrq (List.mem_append_left _ member)
  refine ⟨clean.consistent.added added, ?_, ?_⟩
  · cases added with
    | known _ => exact clean.unbanned
    | banned _ _ _ =>
      intro i member
      rw [insertBanned_irqs_of_ne (old i member)]
      exact clean.unbanned i member
    | managed _ blank =>
      intro i member
      rcases List.mem_append.mp member with before | new
      · rw [insertDb_irqs_of_ne (old i before)]
        exact clean.unbanned i before
      · obtain rfl := List.mem_singleton.mp new
        rw [insertDb_irqs_self, blank.irq, ← clean.bans]
        intro banned
        have same : s.interruptsDb ++ [s.nextIrq] = s.interruptsDb := excluded banned
        simp at same
  · cases added with
    | known _ => exact clean.bans
    | banned _ _ _ => exact clean.bans
    | managed _ _ => exact clean.bans

theorem buildOneDevEntry_clean {src : IrqSources} {buildIrq : ℤ} {dev : PciDev} (clean : Clean bans s) :
    Clean bans (buildOneDevEntry K src buildIrq dev s) := by
  unfold buildOneDevEntry
  split
  · exact forEach_preserves clean fun _ _ _ clean => addNewIrq_clean clean
  · split
    · exact clean
    · split
      · exact addNewIrq_clean clean
      · exact clean

theorem buildDevIrqs_clean {src : IrqSources} {buildIrq : ℤ} {devs : List PciDev} (clean : Clean bans s) :
    Clean bans (buildDevIrqs K src buildIrq devs s) := by
  induction devs generalizing s with
  | nil => exact clean
  | cons dev devs ih =>
    have first : Clean bans (buildOneDevEntry K src buildIrq dev s) := buildOneDevEntry_clean clean
    rw [buildDevIrqs]
    split
    · exact first
    · exact ih first

theorem Added.clBannedIrqs (added : Added s irq s') : s'.clBannedIrqs = s.clBannedIrqs := by
  cases added with
  | known _ => rfl
  | banned _ _ _ => rfl
  | managed _ _ => rfl

theorem Additions.clBannedIrqs {allowed : ℤ → Prop} (additions : Additions allowed s s') :
    s'.clBannedIrqs = s.clBannedIrqs := by
  induction additions with
  | nil => rfl
  | step _ _ added ih => exact added.clBannedIrqs.trans ih

theorem rebuildIrqDb_clean (src : IrqSources) (shaped : Shaped s) :
    Clean s.clBannedIrqs (rebuildIrqDb K src s) := by
  have empty : Clean s.clBannedIrqs (freeIrqDb s) :=
    ⟨freeIrqDb_consistent shaped, fun _ none => by contradiction, rfl⟩
  exact forEach_preserves (buildDevIrqs_clean empty) fun _ _ _ clean => addNewIrq_clean clean

/-- After a rescan the database has none of the numbers that are banned then. -/
theorem rebuild_unbanned (m : Machine) (banned : CpuMask) (src : IrqSources) (s : State) :
    Unbanned s.clBannedIrqs (rebuild K m banned src s) := by
  have freed : OnlyNodes (freeIrqDb (freeTopology s)) := freeTopology_onlyNodes (s := freeIrqDb s)
  have tree : (parseCpuTree K m banned (buildNumaNodeList K m (freeIrqDb (freeTopology s)))).clBannedIrqs =
      s.clBannedIrqs := parseCpuTree_bans.trans buildNumaNodeList_bans
  have parsed := parseCpuTree_extended (K := K) m banned (buildNumaNodeList_onlyNodes (K := K) m freed).1
  have clean := rebuildIrqDb_clean (K := K) src parsed.shaped
  unfold rebuild
  dsimp only
  rw [tree] at clean
  generalize rebuildIrqDb K src (parseCpuTree K m banned (buildNumaNodeList K m
    (freeIrqDb (freeTopology s)))) = s₁ at clean ⊢
  have queued : SameDb s₁ (forEach s₁.interruptsDb forceRebalanceIrq s₁) :=
    forEach_preserves (I := SameDb s₁) (.refl s₁) fun _ _ _ same => same.trans forceRebalanceIrq_frame.db
  exact clean.unbanned.of_db (queued.trans clearSlots_adjusted.db)

end Additions

section Parsing

variable {s s' : State} {bans : List ℤ} {info : IrqRef} {src : IrqSources}

/-- What reading /proc/interrupts keeps. -/
structure Synced (s s' : State) : Prop where
  located : Located s'
  kernel : SameKernel s s'
  bans : s'.clBannedIrqs = s.clBannedIrqs
  unbanned : Unbanned s.clBannedIrqs s → Unbanned s.clBannedIrqs s'

theorem Synced.refl (valid : Located s) : Synced s s := ⟨valid, .refl s, rfl, id⟩

theorem Synced.trans {s'' : State} (first : Synced s s') (second : Synced s' s'') : Synced s s'' where
  located := second.located
  kernel := first.kernel.trans second.kernel
  bans := second.bans.trans first.bans
  unbanned clean := by
    have middle := first.unbanned clean
    have last := second.unbanned
    rw [first.bans] at last
    exact last middle

theorem procIrqHotplug_synced {irq : ℕ} {hint : IrqHint} (unknown : getIrqInfo irq s = none)
    (valid : Located s) : Synced s (procIrqHotplug K src { hint with irq := irq } s) := by
  obtain ⟨located, grown⟩ := hotplug_spec (K := K) src irq hint unknown valid
  have devices := (buildDevIrqs_additions (K := K) (s := s) src irq src.pciDevs).clBannedIrqs
  have clean (unbanned : Unbanned s.clBannedIrqs s) :
      Clean s.clBannedIrqs (buildDevIrqs K src irq src.pciDevs s) :=
    buildDevIrqs_clean ⟨valid.toConsistent, unbanned, rfl⟩
  refine ⟨located, grown.kernel, ?_, fun unbanned => ?_⟩
  · have added (present : Bool) : (if present then buildDevIrqs K src irq src.pciDevs s else addNewIrq K src none
        { hint with irq := irq } (buildDevIrqs K src irq src.pciDevs s)).clBannedIrqs = s.clBannedIrqs := by
      split
      · exact devices
      · exact (addNewIrq_added src none rfl).clBannedIrqs.trans devices
    unfold procIrqHotplug
    dsimp only
    split
    · exact added _
    · exact forceRebalanceIrq_frame.bans.trans (added _)
  · have added (present : Bool) : Unbanned s.clBannedIrqs (if present then buildDevIrqs K src irq src.pciDevs s
        else addNewIrq K src none { hint with irq := irq } (buildDevIrqs K src irq src.pciDevs s)) := by
      split
      · exact (clean unbanned).unbanned
      · exact (addNewIrq_clean (clean unbanned)).unbanned
    unfold procIrqHotplug
    dsimp only
    split
    · exact added _
    · exact (added _).of_db forceRebalanceIrq_frame.db

/-- One line of /proc/interrupts for a known number. -/
theorem setIrq_synced {entry : IrqInfo} (valid : Located s) (irq : entry.irq = (s.irqs info).irq)
    (numaNode : entry.numaNode = (s.irqs info).numaNode) (assigned : entry.assignedObj = (s.irqs info).assignedObj)
    (level : entry.level = (s.irqs info).level) : Synced s (s.setIrq info entry) :=
  ⟨(retained_setIrq irq numaNode assigned fun _ => level).located valid, sameKernel_setIrq, rfl,
    fun clean => clean.of_db (sameDb_setIrq irq numaNode)⟩

theorem parseProcLines_synced (src : IrqSources) (lines : List ProcLine) (valid : Located s) :
    Synced s (parseProcLines K src lines s).1 := by
  induction lines generalizing s with
  | nil => exact .refl valid
  | cons line rest ih =>
    have known : Synced s (if (getIrqInfo line.irq s).isSome then s
        else procIrqHotplug K src { line.hint with irq := line.irq } s) := by
      cases found : getIrqInfo line.irq s with
      | some _ => exact .refl valid
      | none => exact procIrqHotplug_synced found valid
    rw [parseProcLines]
    dsimp only
    generalize (if (getIrqInfo line.irq s).isSome then s
      else procIrqHotplug K src { line.hint with irq := line.irq } s) = s₁ at known ⊢
    cases getIrqInfo line.irq s₁ with
    | none => exact known
    | some info =>
      dsimp only
      have seen : Synced s₁ (s₁.setIrq info { s₁.irqs info with existing := true }) :=
        setIrq_synced known.located rfl rfl rfl rfl
      have marked := known.trans seen
      generalize s₁.setIrq info { s₁.irqs info with existing := true } = s₂ at marked ⊢
      split
      · exact marked
      split
      · exact marked
      · have counted : Synced s₂ (s₂.setIrq info { s₂.irqs info with
            lastIrqCount := (s₂.irqs info).irqCount, irqCount := u64 line.counts.sum }) :=
          setIrq_synced marked.located rfl rfl rfl rfl
        exact (marked.trans counted).trans (ih counted.located)

theorem clearNoExistingIrqs_synced (bans : List ℤ) (valid : Located s) : Located (clearNoExistingIrqs s) ∧
    SameKernel s (clearNoExistingIrqs s) ∧ (Unbanned bans s → Unbanned bans (clearNoExistingIrqs s)) := by
  refine path_preserves (I := fun s' => Located s' ∧ SameKernel s s' ∧ (Unbanned bans s → Unbanned bans s')) ?_
    ⟨valid, .refl s, id⟩ (clearNoExistingIrqs_path valid)
  rintro s₁ s₂ ⟨located, kernel, unbanned⟩ effect
  refine ⟨effect.located located, kernel.trans effect.sameKernel, fun clean => ?_⟩
  have middle := unbanned clean
  cases effect with
  | marked => exact middle.of_db (sameDb_setIrq rfl rfl)
  | removed _ removed =>
    intro i member
    rw [removed.interruptsDb] at member
    rw [removed.irqs]
    exact middle i (List.mem_of_mem_erase member)

end Parsing

/-- New writes are for numbers that are not banned. -/
def Untouched (bans : List ℤ) (s s' : State) : Prop :=
  ∃ new, s'.writes = s.writes ++ new ∧ ∀ w ∈ new, w.irq ∉ bans

section Balancing

variable {s s' : State} {bans : List ℤ} {d : Daemon}

theorem Untouched.of_kernel (kernel : SameKernel s s') : Untouched bans s s' :=
  ⟨[], by rw [kernel.writes, List.append_nil], fun _ none => by contradiction⟩

theorem Untouched.trans {s'' : State} (first : Untouched bans s s') (second : Untouched bans s' s'') :
    Untouched bans s s'' := by
  obtain ⟨new, writes, avoid⟩ := first
  obtain ⟨new', writes', avoid'⟩ := second
  refine ⟨new ++ new', by rw [writes', writes, List.append_assoc], fun w member => ?_⟩
  exact (List.mem_append.mp member).elim (avoid w) (avoid' w)

theorem Untouched.drop (untouched : Untouched bans s s') : ∀ w ∈ s'.writes.drop s.writes.length, w.irq ∉ bans := by
  obtain ⟨new, writes, avoid⟩ := untouched
  rw [writes, List.drop_left]
  exact avoid

/-- Activation writes for entries of the database only. -/
theorem Activating.untouchedIrqs (effect : Activating K s s') (unbanned : Unbanned bans s) :
    Untouched bans s s' := by
  have idle {s' : State} (writes : s'.writes = s.writes) : Untouched bans s s' :=
    ⟨[], by rw [writes, List.append_nil], fun _ none => by contradiction⟩
  rcases effect.wrote_or_idle with same | ⟨info, member, o, _, rfl⟩
  · exact idle same
  · cases answer : K.write s.clock with
    | openError _ => exact idle (by simp [wrote, writeAffinity, answer])
    | _ =>
      refine ⟨[⟨(s.irqs info).irq, appliedMask s o⟩], by simp [wrote, writeAffinity, answer], fun w same => ?_⟩
      rw [List.mem_singleton.mp same]
      exact unbanned info member

/-- What a callback leaves behind: a request, or a database without banned numbers. -/
structure Obeys (d : Daemon) : Prop where
  located : Located d.state
  unbanned : d.needRescan = false → Unbanned d.settings.clBannedIrqs d.state

theorem located_globals (valid : Located d.state) : Located d.globals := by
  have lists : d.globals.irqList = d.state.irqList := by
    funext p
    cases p <;> rfl
  have same : Retained d.state d.globals := .of_irqs ⟨rfl, rfl, rfl, fun _ => rfl, fun _ => rfl⟩ rfl lists
  exact same.located valid

/-- What `parse_proc_interrupts` keeps. -/
theorem parseProcInterrupts_spec (r : InterruptsReading) (valid : Located d.state) :
    Located (parseProcInterrupts K r d).state ∧ SameKernel d.state (parseProcInterrupts K r d).state ∧
      (parseProcInterrupts K r d).settings.clBannedIrqs = d.settings.clBannedIrqs ∧
        (Unbanned d.settings.clBannedIrqs d.state →
          Unbanned d.settings.clBannedIrqs (parseProcInterrupts K r d).state) := by
  unfold parseProcInterrupts
  cases r.lines with
  | none => exact ⟨valid, .refl _, rfl, id⟩
  | some lines =>
    have read := parseProcLines_synced (K := K) r.src lines (located_globals valid)
    dsimp only
    generalize parseProcLines K r.src lines d.globals = result at read ⊢
    obtain ⟨s, raised⟩ := result
    dsimp only at read ⊢
    have kernel : SameKernel d.state s := ⟨read.kernel.affinity, read.kernel.clock, read.kernel.writes⟩
    have unbanned : Unbanned d.settings.clBannedIrqs d.state → Unbanned d.settings.clBannedIrqs s := read.unbanned
    split
    · exact ⟨read.located, kernel, rfl, unbanned⟩
    · obtain ⟨located, same, clean⟩ := clearNoExistingIrqs_synced d.settings.clBannedIrqs read.located
      exact ⟨located, kernel.trans same, rfl, fun before => clean (unbanned before)⟩

theorem parseProcStat_retained (r : StatReading) : Retained s (parseProcStat r s) ∧ SameKernel s (parseProcStat r s) :=
  ⟨account_retained _ _ _ _, ⟨rfl, rfl, rfl⟩⟩

/-- What the operations that come after parsing keep. -/
structure Writing (bans : List ℤ) (s s' : State) : Prop where
  located : Located s'
  unbanned : Unbanned bans s'
  untouched : Untouched bans s s'

theorem Writing.of_db {s'' : State} (writing : Writing bans s s') (located : Located s'') (db : SameDb s' s'')
    (untouched : Untouched bans s' s'') : Writing bans s s'' :=
  ⟨located, writing.unbanned.of_db db, writing.untouched.trans untouched⟩

theorem Writing.balancing (writing : Writing bans s s') : Writing bans s (updateMigrationStatus K s') :=
  path_preserves (fun _ _ writing effect => writing.of_db (effect.located writing.located) effect.sameDb
    (.of_kernel effect.sameKernel)) writing (updateMigrationStatus_path writing.located)

theorem Writing.placing (writing : Writing bans s s') : Writing bans s (calculatePlacement K s') :=
  path_preserves (fun _ _ writing effect => writing.of_db (effect.located writing.located) effect.sameDb
    (.of_kernel effect.sameKernel)) writing (calculatePlacement_path writing.located)

theorem Writing.activating (writing : Writing bans s s') : Writing bans s (activateMappings K s') :=
  path_preserves (fun _ _ writing effect => writing.of_db (effect.located writing.located) effect.sameDb
    (effect.untouchedIrqs writing.unbanned)) writing (activateMappings_path writing.located)

theorem retained_cycle {cycle : ℕ} : Retained s { s with cycleCount := cycle } := by
  have lists : { s with cycleCount := cycle }.irqList = s.irqList := by
    funext p
    cases p <;> rfl
  exact .of_irqs ⟨rfl, rfl, rfl, fun _ => rfl, fun _ => rfl⟩ rfl lists

/-- A scan that does not rescan writes for entries of the database only. -/
theorem balance_writing (r : ScanReading) (writing : Writing bans s d.state) :
    Writing bans s (balance K r d).state := by
  obtain ⟨counted, kernel⟩ := parseProcStat_retained (s := d.state) r.stat
  have accounted : Writing bans s (parseProcStat r.stat d.state) :=
    writing.of_db (counted.located writing.located) counted.db (.of_kernel kernel)
  unfold balance
  dsimp only
  generalize parseProcStat r.stat d.state = s₁ at accounted ⊢
  have balanced : Writing bans s (if s₁.cycleCount ≠ 0 then updateMigrationStatus K s₁ else s₁) := by
    split
    · exact accounted.balancing
    · exact accounted
  have activated := balanced.placing (K := K).activating (K := K)
  exact activated.of_db (retained_cycle.located activated.located) retained_cycle.db (.of_kernel ⟨rfl, rfl, rfl⟩)

/-- A rescan leaves a database without the numbers that are banned then, and writes nothing. -/
theorem rescan_spec (r : ScanReading) : Located (rescan K r d).state ∧ SameKernel d.state (rescan K r d).state ∧
    (rescan K r d).settings.clBannedIrqs = d.settings.clBannedIrqs ∧
      Unbanned d.settings.clBannedIrqs (rescan K r d).state := by
  have rebuilt := rebuild_spec (K := K) r.tree.machine (d.bannedCpus r.tree) r.tree.src
    { d.globals with cycleCount := 0 }
  have clean := rebuild_unbanned (K := K) r.tree.machine (d.bannedCpus r.tree) r.tree.src
    { d.globals with cycleCount := 0 }
  unfold rescan
  dsimp only
  generalize rebuild K r.tree.machine (d.bannedCpus r.tree) r.tree.src { d.globals with cycleCount := 0 } = s
    at rebuilt clean ⊢
  have kernel : SameKernel d.state s := ⟨rebuilt.kernel.affinity, rebuilt.kernel.clock, rebuilt.kernel.writes⟩
  obtain ⟨located, parsed, bans, unbanned⟩ := parseProcInterrupts_spec (K := K)
    (d := { d with settings := { d.settings with needRescan := false }, state := s }) r.interruptsAfter
    rebuilt.located
  generalize parseProcInterrupts K r.interruptsAfter
    { d with settings := { d.settings with needRescan := false }, state := s } = d₁
    at located parsed bans unbanned ⊢
  obtain ⟨counted, unwritten⟩ := parseProcStat_retained (s := d₁.state) r.stat
  exact ⟨counted.located located, (kernel.trans parsed).trans unwritten, bans,
    (unbanned clean).of_db counted.db⟩

/-- A scan obeys the ban list if it may rescan, or has nothing to rescan for. -/
theorem scan_obeys (r : ScanReading) (obeys : Obeys d)
    (heeded : d.keepGoing = true ∨ Unbanned d.settings.clBannedIrqs d.state) :
    Obeys (scan K r d) ∧ Untouched d.settings.clBannedIrqs d.state (scan K r d).state := by
  obtain ⟨located, kernel, bans, unbanned⟩ := parseProcInterrupts_spec (K := K) r.interrupts obeys.located
  have keepGoing := parseProcInterrupts_keepGoing (K := K) (d := d) r.interrupts
  have requested := parseProcInterrupts_needRescan (K := K) (d := d) r.interrupts
  have read : Untouched d.settings.clBannedIrqs d.state (parseProcInterrupts K r.interrupts d).state :=
    .of_kernel kernel
  unfold scan
  dsimp only
  generalize parseProcInterrupts K r.interrupts d = d₁ at located bans unbanned keepGoing requested read ⊢
  split
  next takes =>
    obtain ⟨rebuilt, unwritten, same, clean⟩ := rescan_spec (K := K) (d := d₁) r
    refine ⟨⟨rebuilt, fun _ => ?_⟩, read.trans (.of_kernel unwritten)⟩
    rw [same]
    exact clean
  next passed =>
    have clean : Unbanned d.settings.clBannedIrqs d₁.state := by
      apply unbanned
      rcases heeded with going | clean
      · refine obeys.unbanned (Bool.eq_false_iff.mpr fun pending => passed ?_)
        rw [keepGoing, going, show d₁.settings.needRescan = true from requested pending]
        rfl
      · exact clean
    have balanced := balance_writing (K := K) (d := d₁) r ⟨located, clean, read⟩
    refine ⟨⟨balanced.located, fun _ => ?_⟩, balanced.untouched⟩
    rw [show (balance K r d₁).settings = d₁.settings from rfl, bans]
    exact balanced.unbanned

/-- A message that changes the ban list requests a rescan. -/
theorem handleSettings_bans (buff : List Char) (c : Settings) : (handleSettings buff c).needRescan = true ∨
    ((handleSettings buff c).clBannedIrqs = c.clBannedIrqs ∧ (handleSettings buff c).needRescan = c.needRescan) := by
  unfold handleSettings
  dsimp only
  repeat' split
  all_goals first | exact .inl rfl | exact .inr ⟨rfl, rfl⟩

theorem handleMessage_bans (buff : List Char) (d : Daemon) : (handleMessage buff d).needRescan = true ∨
    ((handleMessage buff d).settings.clBannedIrqs = d.settings.clBannedIrqs ∧
      (handleMessage buff d).needRescan = d.needRescan) := by
  unfold handleMessage Daemon.needRescan sockHandle
  dsimp only
  split
  · exact handleSettings_bans buff d.settings
  · exact .inr ⟨rfl, rfl⟩

/-- The scan does not fall through a pending request with a banned number in the database. -/
def Heeds (d : Daemon) : Event → Prop
  | .scan _ => d.keepGoing = true ∨ Unbanned d.settings.clBannedIrqs d.state
  | _ => True

/-- Every callback obeys the ban list that it finds. -/
theorem dispatch_obeys {e : Event} (obeys : Obeys d) (heeded : Heeds d e) :
    Obeys (dispatch K d e) ∧ Untouched d.settings.clBannedIrqs d.state (dispatch K d e).state := by
  cases e with
  | scan r => exact scan_obeys r obeys heeded
  | hangup =>
    change Obeys (forceRescan d) ∧ Untouched _ _ (forceRescan d).state
    unfold forceRescan
    split
    · exact ⟨⟨obeys.located, nofun⟩, .of_kernel (.refl _)⟩
    · exact ⟨obeys, .of_kernel (.refl _)⟩
  | terminate => exact ⟨⟨obeys.located, obeys.unbanned⟩, .of_kernel (.refl _)⟩
  | message buff =>
    refine ⟨⟨obeys.located, fun idle => ?_⟩, .of_kernel (.refl _)⟩
    change Unbanned (handleMessage buff d).settings.clBannedIrqs d.state
    rcases handleMessage_bans buff d with raised | ⟨same, pending⟩
    · rw [show (handleMessage buff d).needRescan = false from idle] at raised
      contradiction
    · rw [same]
      exact obeys.unbanned (pending.symm.trans idle)
  | thermal events =>
    refine ⟨⟨obeys.located, fun idle => obeys.unbanned (Bool.eq_false_iff.mpr fun pending => ?_)⟩,
      .of_kernel (.refl _)⟩
    have raised := dispatch_needRescan (K := K) (d := d) (e := .thermal events) rfl pending
    rw [raised] at idle
    contradiction

end Balancing

section Running

variable {c : Settings} {oneShotMode : Bool} {modules : List (List Char)} {affinity : ℤ → CpuMask}

/-- `rebuild` on a daemon that has built nothing yet, short of clearing the slots. -/
theorem queued_spec (r : TreeReading) (banned : CpuMask) (bans : List ℤ) :
    let s := boot affinity bans modules
    let built := buildObjectTree K r banned s
    Located (forEach built.interruptsDb forceRebalanceIrq built) ∧
      Unbanned bans (forEach built.interruptsDb forceRebalanceIrq built) := by
  intro s built
  have rebuilt : rebuild K r.machine banned r.src s =
      clearSlots (forEach built.interruptsDb forceRebalanceIrq built) := rfl
  have located := (rebuild_spec (K := K) r.machine banned r.src s).located
  have clean := rebuild_unbanned (K := K) r.machine banned r.src s
  rw [rebuilt] at located clean
  have adjusted := clearSlots_adjusted (s := forEach built.interruptsDb forceRebalanceIrq built)
  have back : SameDb (clearSlots (forEach built.interruptsDb forceRebalanceIrq built))
      (forEach built.interruptsDb forceRebalanceIrq built) :=
    ⟨adjusted.db.interruptsDb.symm, adjusted.db.bannedIrqs.symm, adjusted.db.nextIrq.symm,
      fun i => (adjusted.db.irq i).symm, fun i => (adjusted.db.numaNode i).symm⟩
  have retained := Retained.of_irqs back adjusted.irqs.symm adjusted.lists.symm
  exact ⟨retained.located located, clean.of_db back⟩

/-- The daemon enters the main loop with a database that has no banned number. -/
theorem startup_obeys (r : ScanReading) : Obeys (startup K c oneShotMode modules affinity r) := by
  let d : Daemon :=
    { state := { affinity := affinity, clBannedModules := modules }, settings := c, oneShotMode := oneShotMode }
  let built := buildObjectTree K r.tree (d.bannedCpus r.tree) (boot affinity c.clBannedIrqs modules)
  have queued : Located (forEach built.interruptsDb forceRebalanceIrq built) ∧
      Unbanned c.clBannedIrqs (forEach built.interruptsDb forceRebalanceIrq built) := queued_spec r.tree _ _
  have starts : startup K c oneShotMode modules affinity r =
      let d₁ := parseProcInterrupts K r.interrupts
        { d with state := forEach built.interruptsDb forceRebalanceIrq built }
      { d₁ with state := clearSlots (parseProcStat r.stat d₁.state) } := rfl
  rw [starts]
  dsimp only
  generalize forEach built.interruptsDb forceRebalanceIrq built = s at queued ⊢
  obtain ⟨located, _, bans, unbanned⟩ := parseProcInterrupts_spec (K := K) (d := { d with state := s })
    r.interrupts queued.1
  generalize parseProcInterrupts K r.interrupts { d with state := s } = d₁ at located bans unbanned ⊢
  have counted := (parseProcStat_retained (s := d₁.state) r.stat).1
  have cleared : Adjusted (parseProcStat r.stat d₁.state) (clearSlots (parseProcStat r.stat d₁.state)) :=
    clearSlots_adjusted
  refine ⟨cleared.retained.located (counted.located located), fun _ => ?_⟩
  dsimp only
  rw [bans]
  exact (unbanned queued.2).of_db (counted.db.trans cleared.db)

/-- In a run whose scans heed the requests for a rescan, nothing is written for an interrupt that is on
the ban list, whatever callbacks the main loop dispatches in whatever order. -/
theorem run_bannedIrqsUntouched (K : Env) (c : Settings) (oneShotMode : Bool) (modules : List (List Char))
    (affinity : ℤ → CpuMask) (r : ScanReading) (events : List Event)
    (heeded : EachStep (dispatch K) Heeds (startup K c oneShotMode modules affinity r) events) :
    EachStep (dispatch K) (fun d e => Untouched d.settings.clBannedIrqs d.state (dispatch K d e).state)
      (startup K c oneShotMode modules affinity r) events :=
  EachStep.of_invariant (I := Obeys) (startup_obeys r) (fun _ _ obeys heeds => dispatch_obeys obeys heeds) heeded

/-- Interrupt 24 is balanced, banned by a message and left alone by the rescan and the scan after it. -/
theorem run_bannedIrqsUntouched_message :
    EachStep (dispatch {}) (fun d e => Untouched d.settings.clBannedIrqs d.state (dispatch {} d e).state)
      quietStart [.scan quietReading, .message "settings ban irqs 24".toList, .scan quietReading,
        .scan quietReading] := by
  refine run_bannedIrqsUntouched {} { sleepInterval := 10 } false [] (fun _ => CPU_MASK_NONE) quietReading _ ?_
  refine ⟨.inl ?_, trivial, .inl ?_, .inl ?_, trivial⟩ <;> decide +kernel

/-- A kernel that is never done with the previous write. -/
def busyKernel : Env where
  write _ := .writeError .EBUSY

/-- `--oneshot` on `twoCpus`. -/
def oneShotStart : Daemon :=
  startup busyKernel { sleepInterval := 10 } true [] (fun _ => CPU_MASK_NONE) quietReading

/-- In one-shot mode a new sleep interval keeps the timer running after the scan that clears
`keep_going`, and the next scan retries the write for an interrupt that has been banned since. -/
theorem bannedIrqsUntouched_oneShot : ¬ EachStep (dispatch busyKernel)
    (fun d e => Untouched d.settings.clBannedIrqs d.state (dispatch busyKernel d e).state) oneShotStart
    [.message "settings sleep 5".toList, .scan quietReading, .message "settings ban irqs 24".toList,
      .scan quietReading] := by
  rintro ⟨_, _, _, retried, _⟩
  exact absurd retried.drop (by decide +kernel)

end Running

end Irqbalance
