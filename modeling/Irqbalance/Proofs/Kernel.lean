import Irqbalance.Proofs.Runs

/-! # The kernel agrees with the recorded assignments

A write is followed by clearing `moved` only when the kernel took the mask of the assigned object,
and an entry whose object changes is marked as moved. So an unmoved entry that is still managed
has the affinity that its object asks for, in every run in which affinities can be read back.
-/

namespace Irqbalance

open Relation (ReflTransGen)

variable {K : Env}

/-- The kernel's mask of one entry is that of its object, unless the entry is on the move. -/
def Agrees (s : State) (i : IrqRef) : Prop :=
  ∀ o, (s.irqs i).assignedObj = some o → (s.irqs i).moved = false → (s.irqs i).level ≠ .none →
    s.affinity (s.irqs i).irq = s.cpuOnlineMap &&& (s.objs o).mask

/-- All managed entries agree. -/
def KernelAgrees (s : State) : Prop := ∀ i ∈ s.interruptsDb, Agrees s i

section Effects

variable {s s' : State} {i info : IrqRef} {src dst : Option ObjRef}

/-- The agreement of an entry depends on four of its fields, the tree and the kernel. -/
theorem Agrees.congr (agrees : Agrees s i) (tree : SameTree s s')
    (affinity : s'.affinity (s.irqs i).irq = s.affinity (s.irqs i).irq)
    (irq : (s'.irqs i).irq = (s.irqs i).irq)
    (assigned : (s'.irqs i).assignedObj = (s.irqs i).assignedObj)
    (moved : (s'.irqs i).moved = (s.irqs i).moved) (level : (s'.irqs i).level = (s.irqs i).level) :
    Agrees s' i := by
  intro o assignedO unmoved managed
  rw [assigned] at assignedO
  rw [moved] at unmoved
  rw [level] at managed
  rw [irq, affinity, tree.cpuOnlineMap, tree.mask]
  exact agrees o assignedO unmoved managed

theorem Agrees.of_irqs (agrees : Agrees s i) (tree : SameTree s s') (kernel : SameKernel s s')
    (irqs : s'.irqs i = s.irqs i) : Agrees s' i :=
  agrees.congr tree (by rw [kernel.affinity]) (by rw [irqs]) (by rw [irqs]) (by rw [irqs]) (by rw [irqs])

theorem Migrated.agrees (moved : Migrated src dst info s s') (agrees : Agrees s i) : Agrees s' i := by
  by_cases same : i = info
  · subst same
    intro o _ unmoved
    simp [moved.irqs] at unmoved
  · exact agrees.of_irqs moved.tree moved.kernel (moved.other same)

/-- Storing back one entry concerns that entry only. -/
theorem Agrees.setIrq {new : IrqInfo} (agrees : Agrees s i) (own : i = info → Agrees (s.setIrq info new) i) :
    Agrees (s.setIrq info new) i := by
  by_cases same : i = info
  · exact own same
  · exact agrees.of_irqs sameTree_setIrq sameKernel_setIrq (by simp [State.setIrq, same])

theorem Balancing.agrees (effect : Balancing s s') (agrees : KernelAgrees s) : KernelAgrees s' := by
  intro i member
  rw [effect.sameDb.interruptsDb] at member
  cases effect with
  | sorted _ _ _ => exact (agrees i member).of_irqs sameTree_setIrqList sameKernel_setIrqList rfl
  | mode _ _ =>
    exact (agrees i member).of_irqs (sameTree_setObj rfl rfl rfl rfl rfl) sameKernel_setObj rfl
  | evicted _ _ moved => exact moved.agrees (agrees i member)

theorem Placing.agrees (effect : Placing K s s') (agrees : KernelAgrees s) : KernelAgrees s' := by
  intro i member
  rw [effect.sameDb.interruptsDb] at member
  cases effect with
  | sorted _ _ _ => exact (agrees i member).of_irqs sameTree_setIrqList sameKernel_setIrqList rfl
  | placed _ _ moved => exact moved.agrees (agrees i member)
  | descended effect =>
    obtain ⟨_, _, _, moved⟩ := effect.migrated
    exact moved.agrees (agrees i member)

/-- `moved` is cleared only after agreement, or where nothing is promised. -/
theorem Activating.agrees (readable : ∀ n, K.readable n = true) (valid : Located s)
    (effect : Activating K s s') (agrees : KernelAgrees s) : KernelAgrees s' := by
  intro i member
  have tree := effect.sameTree
  rw [effect.sameDb.interruptsDb] at member
  cases effect with
  | read => exact (agrees i member).congr tree rfl rfl rfl rfl rfl
  | @written info o memberInfo moved target =>
    by_cases same : i = info
    · subst same
      intro o' _ unmoved
      rw [show ((wrote K i o s).irqs i).moved = (s.irqs i).moved from rfl, moved] at unmoved
      contradiction
    · refine (agrees i member).congr tree ?_ rfl rfl rfl rfl
      have other : (s.irqs i).irq ≠ (s.irqs info).irq := fun equal => same
        (valid.unique (List.mem_append_left _ memberInfo) (List.mem_append_left _ member) equal)
      simp only [wrote, writeAffinity]
      split
      · rw [Function.update_of_ne other]
      · rfl
  | saturated _ => exact (agrees i member).of_irqs tree sameKernel_setObj rfl
  | fellBack _ _ moved => exact moved.agrees (agrees i member)
  | evicted _ _ moved => exact moved.agrees (agrees i member)
  | @settled info o assigned settles =>
    apply (agrees i member).setIrq
    rintro rfl o' assigned' _ _
    simp only [State.setIrq, Function.update_self] at assigned' ⊢
    obtain rfl := Option.some.inj (assigned.symm.trans assigned')
    rcases settles with ⟨n, unreadable⟩ | settles
    · rw [readable n] at unreadable
      contradiction
    · exact settles
  | @idled info idle =>
    apply (agrees i member).setIrq
    rintro rfl o assigned _ managed
    simp only [State.setIrq, Function.update_self] at assigned managed
    rcases idle with unassigned | unmanaged
    · rw [unassigned] at assigned
      contradiction
    · exact absurd unmanaged managed
  | @abandoned info _ =>
    apply (agrees i member).setIrq
    rintro rfl o _ _ managed
    simp [State.setIrq] at managed

theorem Vanishing.agrees (effect : Vanishing s s') (agrees : KernelAgrees s) : KernelAgrees s' := by
  intro i member
  cases effect with
  | @marked info =>
    apply (agrees i member).setIrq
    rintro rfl
    exact (agrees i member).congr sameTree_setIrq rfl (by simp [State.setIrq]) (by simp [State.setIrq])
      (by simp [State.setIrq]) (by simp [State.setIrq])
  | removed _ removed =>
    rw [removed.interruptsDb] at member
    exact (agrees i (List.mem_of_mem_erase member)).of_irqs removed.tree removed.kernel
      (congrFun removed.irqs i)

theorem Grown.agrees (grown : Grown s s') (agrees : KernelAgrees s) : KernelAgrees s' := by
  intro i member
  rcases grown.entry i member with ⟨old, same⟩ | ⟨irq, blank⟩
  · exact (agrees i old).of_irqs grown.tree grown.kernel same
  · intro o assigned
    rw [blank.assigned] at assigned
    contradiction

end Effects

section Runs

variable {s : State}

theorem step_agrees (readable : ∀ n, K.readable n = true) (op : Op) (valid : Located s)
    (agrees : KernelAgrees s) : KernelAgrees (step K s op) := by
  cases op with
  | rebuild m banned src =>
    intro i member o assigned
    obtain ⟨irq, blank⟩ := (rebuild_spec (K := K) m banned src s).entry i member
    rw [show (step K s (.rebuild m banned src)).irqs i = (rebuild K m banned src s).irqs i from rfl,
      blank.assigned] at assigned
    contradiction
  | hotplug src irq hint =>
    cases found : getIrqInfo irq s with
    | some _ =>
      simp only [step, found, Option.isSome_some, if_true]
      exact agrees
    | none =>
      simp only [step, found, Option.isSome_none, Bool.false_eq_true, if_false]
      exact (hotplug_spec src irq hint found valid).2.agrees agrees
  | clearNoExisting =>
    exact path_preserves (fun _ _ agrees effect => effect.agrees agrees) agrees
      (clearNoExistingIrqs_path valid)
  | updateMigrationStatus =>
    exact path_preserves (fun _ _ agrees effect => effect.agrees agrees) agrees
      (updateMigrationStatus_path valid)
  | calculatePlacement =>
    exact path_preserves (fun _ _ agrees effect => effect.agrees agrees) agrees
      (calculatePlacement_path valid)
  | activateMappings =>
    have both := path_preserves (I := fun s => Located s ∧ KernelAgrees s)
      (fun _ _ inv effect => ⟨effect.located inv.1, effect.agrees readable inv.1 inv.2⟩)
      ⟨valid, agrees⟩ (activateMappings_path valid)
    exact both.2
  | account objs irqs cycle bans =>
    exact fun i member => (agrees i member).congr (by constructor <;> intros <;> rfl) rfl rfl rfl rfl rfl

theorem run_agrees (readable : ∀ n, K.readable n = true) (ops : List Op) (valid : Located s)
    (agrees : KernelAgrees s) : KernelAgrees (run K s ops) := by
  induction ops generalizing s with
  | nil => exact agrees
  | cons op rest ih => exact ih (step_located op valid) (step_agrees readable op valid agrees)

end Runs

/-- After every operation of every run, `activate_mappings` included, each unmoved managed entry
has the affinity its object asks for, if affinities can be read back. -/
theorem run_kernelAgrees (K : Env) (readable : ∀ n, K.readable n = true)
    (affinity : ℤ → CpuMask) (bans : List ℤ) (modules : List (List Char)) (ops : List Op) :
    KernelAgrees (run K (boot affinity bans modules) ops) :=
  run_agrees readable ops (boot_located affinity bans modules) fun _ none => by contradiction

theorem run_kernelAgrees_one :
    KernelAgrees (run {} (boot (fun _ => CPU_MASK_NONE) [] []) (scanTwoCpus (BitVec.ofNat NR_CPUS 2))) :=
  run_kernelAgrees {} (fun _ => rfl) (fun _ => CPU_MASK_NONE) [] [] (scanTwoCpus (BitVec.ofNat NR_CPUS 2))

/-- There the entry is assigned to CPU 0 and the kernel has the mask. -/
example :
    let s := run {} (boot (fun _ => CPU_MASK_NONE) [] []) (scanTwoCpus (BitVec.ofNat NR_CPUS 2))
    s.interruptsDb = [0] ∧ (s.irqs 0).assignedObj.isSome ∧ (s.irqs 0).moved = false ∧
      s.affinity 24 = (BitVec.ofNat NR_CPUS 1) := by
  decide +kernel

end Irqbalance
