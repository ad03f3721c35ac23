import Irqbalance.Model.Bitmap

/-! # Which CPUs are banned

`setup_banned_cpus` with everything it consults. The first of the user's masks, the two environment
variables and the two sysfs files that is present decides.
-/

namespace Irqbalance

/-- Where bans come from. -/
structure BanSources where
  /-- `banned_cpumask_from_ui`. -/
  bannedCpumaskFromUi : Option (List Char) := none
  /-- `getenv("IRQBALANCE_BANNED_CPUS")`. -/
  bannedCpusEnv : Option (List Char) := none
  /-- `getenv("IRQBALANCE_BANNED_CPULIST")`. -/
  bannedCpulistEnv : Option (List Char) := none
  /-- The first line of /sys/devices/system/cpu/isolated, if there is one. -/
  isolated : Option (List Char) := none
  /-- The first line of /sys/devices/system/cpu/nohz_full, if there is one. -/
  nohzFull : Option (List Char) := none
  thermalBannedCpus : CpuMask := CPU_MASK_NONE

/-- `get_mask_from_cpulist` on a line of a file. -/
def getMaskFromCpulist (line : Option (List Char)) : Option CpuMask :=
  match line with
  | none => some CPU_MASK_NONE
  | some line =>
    if line = [] ∨ line.head? = some '\n' then some CPU_MASK_NONE else (cpulistParse line).map Prod.fst

/-- What is banned without a mask of the user: the isolated and the adaptive-ticks CPUs. -/
def autoBannedCpus (src : BanSources) : Option CpuMask :=
  match getMaskFromCpulist src.isolated, getMaskFromCpulist src.nohzFull with
  | some isolatedCpus, some nohzFull => some (nohzFull ||| isolatedCpus)
  | _, _ => none

/-- The two environment variables of `setup_banned_cpus`, and what it does without them. -/
def envBannedCpus (src : BanSources) : Option CpuMask :=
  match src.bannedCpusEnv.filter fun env => !env.isEmpty with
  | some env => some (cpumaskParseUser env).1
  | none =>
    match src.bannedCpulistEnv with
    | some env => (cpulistParse env).map Prod.fst
    | none => autoBannedCpus src

/-- `setup_banned_cpus`; `none` when a parser writes in front of the mask. -/
def setupBannedCpus (src : BanSources) : Option CpuMask :=
  let banned := match src.bannedCpumaskFromUi with
    | some mask => (cpulistParse mask).map Prod.fst
    | none => envBannedCpus src
  banned.map (· ||| src.thermalBannedCpus)

end Irqbalance
