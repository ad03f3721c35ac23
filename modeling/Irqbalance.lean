import Irqbalance.Proofs.Database
import Irqbalance.Proofs.Balance
import Irqbalance.Proofs.Placement
import Irqbalance.Proofs.Activation
import Irqbalance.Proofs.Shape
import Irqbalance.Proofs.Runs
import Irqbalance.Proofs.Kernel
import Irqbalance.Proofs.BannedCpus
import Irqbalance.Proofs.Powersave
import Irqbalance.Model.Bans
import Irqbalance.Model.Ui
import Irqbalance.Proofs.IrqBans
import Irqbalance.Proofs.BannedCpulist
import Irqbalance.Proofs.CpuBans
import Irqbalance.Proofs.Records
import Irqbalance.Proofs.Setup
import Irqbalance.Proofs.Policy
import Irqbalance.Proofs.Settings
import Irqbalance.Proofs.Thermal
import Irqbalance.Proofs.UserPolicy
import Irqbalance.Proofs.Stranding
import Irqbalance.Proofs.Saturation
import Irqbalance.Proofs.BannedIrqs
import Irqbalance.Proofs.Locality
import Irqbalance.Proofs.Forest
import Irqbalance.Proofs.TreeText
import Irqbalance.Proofs.BestObject
import Irqbalance.Proofs.ThermalCalls
import Irqbalance.Proofs.Deviations
import Irqbalance.Proofs.Selection
import Irqbalance.Proofs.Overload
import Irqbalance.Proofs.LoadShares
import Irqbalance.Proofs.LoadSums
import Irqbalance.Proofs.Charges
import Irqbalance.Proofs.Levels
import Irqbalance.Proofs.Interrupts
import Irqbalance.Proofs.AffinityText
import Irqbalance.Proofs.AssignedObjects
import Irqbalance.Proofs.ModuleBans
import Irqbalance.Proofs.Slots
import Irqbalance.Proofs.ReadOrder
import Irqbalance.Proofs.Spread
import Irqbalance.Proofs.Settling
import Irqbalance.Proofs.CommandLine
import Irqbalance.Proofs.MainLoop
import Irqbalance.Proofs.UiLoop
import Irqbalance.Proofs.SleepInput
import Irqbalance.Proofs.BitmapOps
import Irqbalance.Proofs.Connection
import Irqbalance.Proofs.StatText
import Irqbalance.Proofs.ThermalSession
import Irqbalance.Model.Sysfs
import Irqbalance.Proofs.Sysfs
