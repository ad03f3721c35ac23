import Irqbalance.Model.IrqList
import Irqbalance.Model.CpuTree
import Mathlib.Data.List.Infix

/-! # The interrupt databases

`classify.c`: how an irq number enters `interrupts_db` or `banned_irqs`, how it leaves, and the
PCI classification in between. `IrqSources` is what sysfs, /proc and the user's policy scripts
say at one moment. Allocation succeeds.
-/

namespace Irqbalance

variable (env : Env)

/-- `struct pci_info`. -/
structure PciInfo where
  vendor : ℕ
  device : ℕ
  subVendor : ℕ
  subDevice : ℕ
  pciClass : ℕ
deriving DecidableEq, Repr

/-- A device directory under /sys/bus/pci/devices. `none` stands for a missing file. -/
structure PciDev where
  /-- The leading number of each entry of `msi_irqs`. -/
  msiIrqs : Option (List ℤ) := none
  irq : Option ℤ := none
  /-- The base name of the `driver` link. -/
  driver : Option (List Char) := none
  /-- What `get_pci_info` reads; `none` when a file is missing or invalid. -/
  pciInfo : Option PciInfo := none
  numaNode : Option ℤ := none

/-- `struct user_irq_policy`; -1 is no policy. -/
structure UserIrqPolicy where
  ban : ℤ := -1
  level : ℤ := -1
  numaNodeSet : ℤ := -1
  numaNode : ℤ := -1
deriving DecidableEq, Repr

/-- The fields of an `irq_info` used as a hint. -/
structure IrqHint where
  irq : ℤ
  irqClass : ℤ := 0
  type : ℤ := 0
  name : Option (List Char) := none
deriving DecidableEq, Repr

/-- Everything outside the daemon that decides what its databases contain. -/
structure IrqSources where
  /-- /sys/bus/pci/devices in `readdir` order. -/
  pciDevs : List PciDev := []
  /-- /proc/irq/N/node. -/
  procIrqNode : ℤ → Option ℤ := fun _ => none
  /-- The outcome of `get_irq_user_policy`. -/
  policy : Option PciDev → ℤ → UserIrqPolicy := fun _ _ => {}
  /-- `collect_full_irq_list`: the numbered lines of /proc/interrupts. -/
  procIrqs : List IrqHint := []

/-- `IRQ_NODEF` to `IRQ_ETH`, `IRQ_TYPE_LEGACY` and `IRQ_TYPE_MSIX`. -/
def IRQ_NODEF : ℤ := -1
def IRQ_OTHER : ℤ := 0
def IRQ_LEGACY : ℤ := 1
def IRQ_SCSI : ℤ := 2
def IRQ_VIDEO : ℤ := 3
def IRQ_ETH : ℤ := 4
def IRQ_TYPE_LEGACY : ℤ := 0
def IRQ_TYPE_MSIX : ℤ := 2

/-- `apply_pci_quirks`. -/
def applyPciQuirks (pci : PciInfo) (irqClass : ℤ) : ℤ :=
  let irqClass :=
    if pci.vendor = 0x10b5 ∧ pci.device = 0x8619 ∧ pci.subVendor = 0x1120 ∧
        (pci.subDevice = 0x055b ∨ pci.subDevice = 0xdd00) then IRQ_SCSI else irqClass
  if pci.vendor = 0x177d ∧ pci.device = 0x0093 ∧ pci.subVendor = 0x1120 ∧
      pci.subDevice = 0x0568 then IRQ_SCSI else irqClass

/-- `major_class_codes`. -/
def majorClassCodes : List ℤ :=
  [IRQ_OTHER, IRQ_SCSI, IRQ_ETH, IRQ_VIDEO, IRQ_OTHER, IRQ_OTHER, IRQ_LEGACY, IRQ_OTHER,
    IRQ_OTHER, IRQ_LEGACY, IRQ_OTHER, IRQ_OTHER, IRQ_NODEF, IRQ_ETH, IRQ_SCSI, IRQ_OTHER,
    IRQ_OTHER, IRQ_OTHER, IRQ_LEGACY, IRQ_LEGACY]

/-- `serial_sub_codes`. -/
def serialSubCodes : List ℤ :=
  [IRQ_LEGACY, IRQ_LEGACY, IRQ_LEGACY, IRQ_LEGACY, IRQ_SCSI, IRQ_LEGACY, IRQ_SCSI, IRQ_LEGACY,
    IRQ_LEGACY, IRQ_LEGACY] ++ List.replicate 0x76 IRQ_NODEF ++ [IRQ_LEGACY]

/-- `map_pci_irq_class`; both tables end where the source's length checks say. -/
def mapPciIrqClass (pciClass : ℕ) : ℤ :=
  let major := pciClass / 2 ^ 16
  let sub := pciClass % 2 ^ 16 / 2 ^ 8
  if major = 0xc then serialSubCodes.getD sub IRQ_NODEF else majorClassCodes.getD major IRQ_NODEF

/-- `get_irq_class`. -/
def getIrqClass (dev : PciDev) : ℤ :=
  match dev.pciInfo with
  | none => IRQ_NODEF
  | some pci =>
    let irqClass := mapPciIrqClass pci.pciClass
    if irqClass < 0 then IRQ_NODEF else applyPciQuirks pci irqClass

/-- `map_class_to_level`. -/
def mapClassToLevel (irqClass : ℤ) : Level :=
  ([.package, .cache, .core, .core, .core, .core, .core, .core] : List Level).getD
    irqClass.toNat .none

/-- The balance level that a policy writes as a number. -/
def Level.ofPolicy (level : ℤ) : Level :=
  if level = 0 then .none else if level = 1 then .package else if level = 2 then .cache else .core

/-- `get_irq_info`. -/
def getIrqInfo (irq : ℤ) (s : State) : Option IrqRef :=
  (s.interruptsDb.find? fun i => (s.irqs i).irq == irq).or
    (s.bannedIrqs.find? fun i => (s.irqs i).irq == irq)

/-- `calloc` and initialise an `irq_info`. -/
def State.allocIrq (s : State) (info : IrqInfo) : IrqRef × State :=
  (s.nextIrq, { s.setIrq s.nextIrq info with nextIrq := s.nextIrq + 1 })

/-- `add_banned_irq` on `banned_irqs`. -/
def addBannedIrq (irq : ℤ) (s : State) : State :=
  if (s.bannedIrqs.find? fun i => (s.irqs i).irq == irq).isSome then s else
  let (i, s) := s.allocIrq { irq := irq, banned := true }
  { s with bannedIrqs := s.bannedIrqs ++ [i] }

/-- The level and class of a new entry: the early exit of an unknown PCI class leaves both the
level `BALANCE_NONE` and the class of the hint. -/
def classifyIrq (dev : Option PciDev) (hint : IrqHint) (pol : UserIrqPolicy) : ℤ × Level :=
  let irqClass := match dev with
    | some d => getIrqClass d
    | none => hint.irqClass
  if dev.isSome && decide (irqClass < 0) then (hint.irqClass, .none)
  else (irqClass,
    if pol.level ≥ 0 then Level.ofPolicy pol.level else mapClassToLevel irqClass)

/-- The NUMA node number read from sysfs or /proc. -/
def readNumaNode (src : IrqSources) (dev : Option PciDev) (irq : ℤ) : ℤ :=
  if env.numaAvail then
    match dev with
    | some d => d.numaNode.getD NUMA_NO_NODE
    | none => (src.procIrqNode irq).getD NUMA_NO_NODE
  else NUMA_NO_NODE

/-- `add_one_irq_to_db`. -/
def addOneIrqToDb (src : IrqSources) (dev : Option PciDev) (hint : IrqHint) (pol : UserIrqPolicy)
    (s : State) : State :=
  let (irqClass, level) := classifyIrq dev hint pol
  let nodeid := if pol.numaNodeSet = 1 then pol.numaNode else readNumaNode env src dev hint.irq
  let node := (getNumaNode env nodeid s).or (getNumaNode env NUMA_NO_NODE s)
  let (i, s) := s.allocIrq
    { irq := hint.irq, type := hint.type, irqClass := irqClass, level := level, numaNode := node }
  { s with interruptsDb := s.interruptsDb ++ [i] }

/-- `add_banned_module`, with `substr_find` as its test. -/
def addBannedModule (modname : List Char) (modlist : List (List Char)) : List (List Char) :=
  if modlist.any fun mod => decide (mod <:+: modname) then modlist else modlist ++ [modname]

/-- `add_cl_banned_module`, for each `--banmod` of the command line. -/
def addClBannedModule (modname : List Char) (s : State) : State :=
  { s with clBannedModules := addBannedModule modname s.clBannedModules }

/-- `check_for_module_ban`: a banned module is a substring of the name. -/
def checkForModuleBan (name : List Char) (s : State) : Bool :=
  s.clBannedModules.any fun mod => decide (mod <:+: name)

/-- `check_for_irq_ban`. -/
def checkForIrqBan (hint : IrqHint) (mod : Option (List Char)) (s : State) : Bool :=
  s.clBannedIrqs.any (· == hint.irq) ||
    mod.any (fun m => !m.isEmpty && checkForModuleBan m s) ||
    hint.name.any (fun n => !n.isEmpty && checkForModuleBan n s)

/-- `add_new_irq`. -/
def addNewIrq (src : IrqSources) (dev : Option PciDev) (hint : IrqHint) (s : State) : State :=
  if (getIrqInfo hint.irq s).isSome then s else
  let pol := src.policy dev hint.irq
  if pol.ban = 1 ∨ checkForIrqBan hint (dev.bind (·.driver)) s then addBannedIrq hint.irq s
  else addOneIrqToDb env src dev hint pol s

/-- The entries of `msi_irqs` that `build_one_dev_entry` adds: all of them, or the first that is
the requested irq. -/
def selectMsiIrqs (buildIrq : ℤ) (irqs : List ℤ) : List ℤ :=
  let wanted := irqs.filter fun irq => irq ≠ 0 ∧ (buildIrq < 0 ∨ irq = buildIrq)
  if buildIrq ≥ 0 then wanted.take 1 else wanted

/-- `build_one_dev_entry`, as compiled for x86. -/
def buildOneDevEntry (src : IrqSources) (buildIrq : ℤ) (dev : PciDev) (s : State) : State :=
  match dev.msiIrqs with
  | some irqs =>
    forEach (selectMsiIrqs buildIrq irqs)
      (fun irq => addNewIrq env src (some dev)
        { irq := irq, irqClass := IRQ_OTHER, type := IRQ_TYPE_MSIX }) s
  | none =>
    match dev.irq with
    | none => s
    | some irq =>
      if irq ≠ 0 ∧ irq ≠ 255 ∧ (buildIrq < 0 ∨ irq = buildIrq) then
        addNewIrq env src (some dev)
          { irq := irq, irqClass := IRQ_OTHER, type := IRQ_TYPE_LEGACY } s
      else s

/-- `build_dev_irqs`: a hotplugged irq ends the walk as soon as it is known. -/
def buildDevIrqs (src : IrqSources) (buildIrq : ℤ) : List PciDev → State → State
  | [], s => s
  | dev :: devs, s =>
    let s := buildOneDevEntry env src buildIrq dev s
    if buildIrq ≥ 0 ∧ (getIrqInfo buildIrq s).isSome then s else buildDevIrqs src buildIrq devs s

/-- `proc_irq_hotplug`, which fails only when the new entry cannot be allocated. -/
def procIrqHotplug (src : IrqSources) (hint : IrqHint) (s : State) : State :=
  let s := buildDevIrqs env src hint.irq src.pciDevs s
  let s := if (getIrqInfo hint.irq s).isSome then s else addNewIrq env src none hint s
  match getIrqInfo hint.irq s with
  | none => s
  | some info => forceRebalanceIrq info s

/-- `free_irq_db`. -/
def freeIrqDb (s : State) : State :=
  { s with interruptsDb := [], bannedIrqs := [], rebalanceIrqList := [] }

/-- `rebuild_irq_db`. -/
def rebuildIrqDb (src : IrqSources) (s : State) : State :=
  let s := freeIrqDb s
  let s := buildDevIrqs env src (-1) src.pciDevs s
  forEach src.procIrqs (addNewIrq env src none) s

/-- Unlink the first entry of a list that has the irq number of `info`. -/
def unlinkIrq (s : State) (info : IrqRef) (l : List IrqRef) : List IrqRef :=
  l.eraseP (sameIrq s info)

/-- `remove_no_existing_irq`. -/
def removeNoExistingIrq (info : IrqRef) (s : State) : State :=
  if (s.irqs info).existing then s.setIrq info { s.irqs info with existing := false } else
  let s := { s with
    interruptsDb := unlinkIrq s info s.interruptsDb
    bannedIrqs := unlinkIrq s info s.bannedIrqs
    rebalanceIrqList := unlinkIrq s info s.rebalanceIrqList }
  match (s.irqs info).assignedObj with
  | none => s
  | some o =>
    if (s.objs o).interrupts.any (sameIrq s info) then
      s.setObj o { s.objs o with
        interrupts := unlinkIrq s info (s.objs o).interrupts
        slotsLeft := INT_MAX }
    else s

/-- `clear_no_existing_irqs`. -/
def clearNoExistingIrqs (s : State) : State :=
  let s := forEach s.interruptsDb removeNoExistingIrq s
  forEach s.bannedIrqs removeNoExistingIrq s

end Irqbalance
