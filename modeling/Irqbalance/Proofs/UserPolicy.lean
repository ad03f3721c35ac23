import Irqbalance.Proofs.Database

/-! # How a user policy shapes a new entry

Every exit of `add_one_irq_to_db` but one applies the level of the policy, or the default level of the
class. The exit for a device whose PCI class is unknown skips both, so that the entry keeps the level
`BALANCE_NONE` of its allocation and is never balanced.
-/

namespace Irqbalance

variable {K : Env} {s : State}

/-- The level that an entry of this class should have. -/
def wantedLevel (pol : UserIrqPolicy) (irqClass : ℤ) : Level :=
  if pol.level ≥ 0 then Level.ofPolicy pol.level else mapClassToLevel irqClass

/-- One entry is new, with the level and the node of the policy where it has one. -/
structure Honours (K : Env) (pol : UserIrqPolicy) (hint : IrqHint) (s s' : State) (i : IrqRef) : Prop where
  db : s'.interruptsDb = s.interruptsDb ++ [i]
  bannedIrqs : s'.bannedIrqs = s.bannedIrqs
  fresh : i ∉ s.interruptsDb ++ s.bannedIrqs
  entries : ∀ j ∈ s.interruptsDb ++ s.bannedIrqs, s'.irqs j = s.irqs j
  irq : (s'.irqs i).irq = hint.irq
  level : (s'.irqs i).level = wantedLevel pol (s'.irqs i).irqClass
  numaNode : pol.numaNodeSet = 1 → ∀ node, getNumaNode K pol.numaNode s = some node →
    (s'.irqs i).numaNode = some node

/-- The entry's class is known, or its level would be `BALANCE_NONE` in any case. -/
def Classifiable (dev : Option PciDev) (hint : IrqHint) (pol : UserIrqPolicy) : Prop :=
  (∀ d ∈ dev, 0 ≤ getIrqClass d) ∨ wantedLevel pol hint.irqClass = .none

/-- The level is right exactly when the class is known or no other level is wanted. -/
theorem classifyIrq_level {dev : Option PciDev} {hint : IrqHint} {pol : UserIrqPolicy} :
    (classifyIrq dev hint pol).2 = wantedLevel pol (classifyIrq dev hint pol).1 ↔
      Classifiable dev hint pol := by
  unfold classifyIrq Classifiable wantedLevel
  cases dev with
  | none => exact iff_of_true rfl (.inl fun d none => absurd none (Option.not_mem_none d))
  | some d =>
    by_cases unknown : getIrqClass d < 0
    · have noClass : ¬ ∀ d' ∈ some d, 0 ≤ getIrqClass d' := fun known =>
        absurd (known d rfl) (not_le.mpr unknown)
      have early : (Option.isSome (some d) && decide (getIrqClass d < 0)) = true := by simpa using unknown
      dsimp only
      rw [if_pos early, or_iff_right noClass]
      exact eq_comm
    · have late : ¬ (Option.isSome (some d) && decide (getIrqClass d < 0)) = true := by simpa using unknown
      dsimp only
      rw [if_neg late]
      exact iff_of_true rfl (.inl fun d' same => Option.some.inj same ▸ not_lt.mp unknown)

/-- What `add_new_irq` adds for an interrupt that is unknown and not banned. -/
theorem addNewIrq_managed {src : IrqSources} {dev : Option PciDev} {hint : IrqHint}
    (unknown : getIrqInfo hint.irq s = none) (permitted : (src.policy dev hint.irq).ban ≠ 1)
    (unbanned : checkForIrqBan hint (dev.bind (·.driver)) s = false) :
    ∃ info, addNewIrq K src dev hint s = s.insertDb info ∧ info.irq = hint.irq ∧
      (info.irqClass, info.level) = classifyIrq dev hint (src.policy dev hint.irq) ∧
      info.numaNode = (getNumaNode K (if (src.policy dev hint.irq).numaNodeSet = 1
        then (src.policy dev hint.irq).numaNode else readNumaNode K src dev hint.irq) s).or
          (getNumaNode K NUMA_NO_NODE s) := by
  have notBanned : ¬ ((src.policy dev hint.irq).ban = 1 ∨
      checkForIrqBan hint (dev.bind (·.driver)) s = true) := by
    rw [unbanned, not_or]
    exact ⟨permitted, Bool.false_ne_true⟩
  rw [addNewIrq, unknown, Option.isSome_none, if_neg Bool.false_ne_true]
  dsimp only
  rw [if_neg notBanned]
  exact ⟨_, rfl, rfl, rfl, rfl⟩

/-- The policy is honoured exactly when the class of the device is known or the level would be
`BALANCE_NONE` in any case. -/
theorem addNewIrq_honours (K : Env) (src : IrqSources) (dev : Option PciDev) (hint : IrqHint) (s : State)
    (allocated : ∀ i ∈ s.interruptsDb ++ s.bannedIrqs, i < s.nextIrq)
    (unknown : getIrqInfo hint.irq s = none) (permitted : (src.policy dev hint.irq).ban ≠ 1)
    (unbanned : checkForIrqBan hint (dev.bind (·.driver)) s = false) :
    (∃ i, Honours K (src.policy dev hint.irq) hint s (addNewIrq K src dev hint s) i) ↔
      Classifiable dev hint (src.policy dev hint.irq) := by
  obtain ⟨info, added, irq, classified, node⟩ := addNewIrq_managed (K := K) unknown permitted unbanned
  have irqClass := congrArg Prod.fst classified
  have level := congrArg Prod.snd classified
  dsimp only at irqClass level
  rw [added, ← classifyIrq_level, ← level, ← irqClass]
  constructor
  · rintro ⟨i, honours⟩
    obtain rfl : i = s.nextIrq :=
      (List.singleton_injective (List.append_cancel_left honours.db)).symm
    simpa only [insertDb_irqs_self] using honours.level
  · intro wanted
    refine ⟨s.nextIrq, rfl, rfl, fun member => absurd (allocated _ member) (lt_irrefl _), ?_, ?_, ?_, ?_⟩
    · intro j member
      exact insertDb_irqs_of_ne (Nat.ne_of_lt (allocated j member))
    · rw [insertDb_irqs_self, irq]
    · rw [insertDb_irqs_self, wanted]
    · intro given chosen found
      rw [insertDb_irqs_self, node, if_pos given, found, Option.some_or]

/-- Level and node of a policy that asks for both. -/
def pinned : UserIrqPolicy := { level := 3, numaNodeSet := 1, numaNode := 1 }

/-- Objects 0 and 1 are the nodes 0 and 1, and entry 0 is interrupt 7. -/
def twoHomes : State where
  objs o := { objType := .node, number := o }
  numaNodes := [0, 1]
  nextObj := 2
  irqs i := { irq := 7 + i }
  interruptsDb := [0]
  nextIrq := 1

theorem addNewIrq_honours_eth :
    (∃ i, Honours { numaAvail := true } pinned { irq := 24, irqClass := IRQ_ETH } twoHomes
      (addNewIrq { numaAvail := true } { policy := fun _ _ => pinned } none { irq := 24, irqClass := IRQ_ETH } twoHomes) i) ↔
        Classifiable none { irq := 24, irqClass := IRQ_ETH } pinned :=
  addNewIrq_honours { numaAvail := true } { policy := fun _ _ => pinned } none { irq := 24, irqClass := IRQ_ETH } twoHomes
    (by decide) (by decide) (by decide) (by decide)

/-- A device without readable PCI files, whose policy asks for the level of a core. -/
theorem addNewIrq_unclassified : ¬ ∃ i, Honours {} { level := 3 } { irq := 24 } {}
    (addNewIrq {} { policy := fun _ _ => { level := 3 } } (some {}) { irq := 24 } {}) i := by
  rintro ⟨i, honours⟩
  obtain rfl : (0 : IrqRef) = i := List.singleton_injective honours.db
  have level : ((addNewIrq {} { policy := fun _ _ => { level := 3 } } (some {}) { irq := 24 } {}).irqs 0).level =
      .none := by decide +kernel
  have wanted := honours.level
  rw [level] at wanted
  exact absurd wanted (by decide)

end Irqbalance
