import Irqbalance.Model.Thermal
import Irqbalance.Proofs.CpuList
import Mathlib.Data.List.Dedup

/-! # Thermal bans over rounds of events

A round lasts until as many CPUs have reported as are online. `banmask` is only ever added to within a
round, so that a ban is kept when the CPU reports again and is well.
-/

namespace Irqbalance

section Weight

variable {m : CpuMask}

theorem popcount_eq (fuel n : ℕ) (small : n < 2 ^ fuel) :
    popcount fuel n = ((List.range fuel).filter n.testBit).length := by
  induction fuel generalizing n with
  | zero => rfl
  | succ fuel ih =>
    have half : n / 2 < 2 ^ fuel := by
      rw [pow_succ] at small
      omega
    have tail : (n.testBit ∘ Nat.succ) = (n / 2).testBit := by
      funext i
      exact Nat.testBit_succ n i
    rw [List.range_succ_eq_map, List.filter_cons, List.filter_map, tail, popcount]
    by_cases zero : n = 0
    · subst zero
      have clear : (List.range fuel).filter (Nat.testBit 0) = [] := List.filter_eq_nil_iff.mpr (by simp)
      simp [clear]
    · rw [if_neg zero, ih _ half]
      by_cases odd : n.testBit 0 = true
      · have one : n % 2 = 1 := by simpa using odd
        rw [if_pos odd, List.length_cons, List.length_map, one, Nat.add_comm]
      · have none : n % 2 = 0 := by simpa using odd
        rw [if_neg odd, List.length_map, none, Nat.zero_add]

/-- The weight of a mask is the number of different CPUs of any list of its CPUs. -/
theorem cpusWeight_eq {cpus : List (Fin NR_CPUS)} (bits : ∀ c : Fin NR_CPUS, m.getLsbD c = true ↔ c ∈ cpus) :
    cpusWeight m = cpus.dedup.length := by
  have same : ((List.range NR_CPUS).filter m.toNat.testBit).Perm (cpus.dedup.map Fin.val) := by
    refine (List.perm_ext_iff_of_nodup (List.nodup_range.filter _)
      ((List.nodup_dedup cpus).map Fin.val_injective)).mpr fun i => ?_
    rw [List.mem_filter, List.mem_range, List.mem_map]
    constructor
    · rintro ⟨bound, set⟩
      exact ⟨⟨i, bound⟩, List.mem_dedup.mpr ((bits ⟨i, bound⟩).mp set), rfl⟩
    · rintro ⟨c, member, rfl⟩
      exact ⟨c.isLt, (bits c).mpr (List.mem_dedup.mp member)⟩
  rw [cpusWeight, popcount_eq _ _ m.isLt, same.length_eq, List.length_map]

end Weight

/-- The event closes the round: as many CPUs have reported as are online. -/
def Closes (round : List ThermalEvent) (e : ThermalEvent) : Prop :=
  e.online ≤ ((round ++ [e]).map (·.cpu)).dedup.length

instance (round : List ThermalEvent) (e : ThermalEvent) : Decidable (Closes round e) :=
  inferInstanceAs (Decidable (_ ≤ _))

/-- The CPU's most recent event of the round bans it. -/
def LatestBans (round : List ThermalEvent) (c : Fin NR_CPUS) : Prop :=
  ∃ e ∈ (round.filter fun e => e.cpu = c).getLast?, e.needToBan = true

/-- The daemon's masks, and the events of the open round. -/
abbrev ThermalRun := Thermal × List ThermalEvent

/-- One event. -/
def thermalStep (run : ThermalRun) (e : ThermalEvent) : ThermalRun :=
  (updateBannedCpus run.1 e, if Closes run.2 e then [] else run.2 ++ [e])

/-- At the end of a round the CPUs banned last are banned, with a rescan if they are others than before;
nothing changes in between. -/
def FollowsLatest (run : ThermalRun) (e : ThermalEvent) : Prop :=
  let after := (thermalStep run e).1
  if Closes run.2 e then
    (∀ c : Fin NR_CPUS, after.thermalBannedCpus.getLsbD c = true ↔ LatestBans (run.2 ++ [e]) c) ∧
      (after.needRescan = true ↔
        run.1.needRescan = true ∨ after.thermalBannedCpus ≠ run.1.thermalBannedCpus)
  else after.thermalBannedCpus = run.1.thermalBannedCpus ∧ after.needRescan = run.1.needRescan

/-- In a round that closes, no CPU is banned by an event and well again in its most recent one. -/
def NoRecovery (run : ThermalRun) (e : ThermalEvent) : Prop :=
  Closes run.2 e → ∀ b ∈ run.2 ++ [e], b.needToBan = true → LatestBans (run.2 ++ [e]) b.cpu

section Rounds

variable {run : ThermalRun} {e : ThermalEvent} {round : List ThermalEvent} {c : Fin NR_CPUS}

/-- The masks hold the CPUs of the open round, and those that were banned in it. -/
structure Tracks (run : ThermalRun) : Prop where
  seen : ∀ c : Fin NR_CPUS, run.1.itrmask.getLsbD c = true ↔ ∃ e ∈ run.2, e.cpu = c
  banned : ∀ c : Fin NR_CPUS, run.1.banmask.getLsbD c = true ↔ ∃ e ∈ run.2, e.cpu = c ∧ e.needToBan = true

theorem tracks_blank {t : Thermal} (blank : t.banmask = CPU_MASK_NONE ∧ t.itrmask = CPU_MASK_NONE) :
    Tracks (t, []) where
  seen c := by simp [blank.2]
  banned c := by simp [blank.1]

theorem getLsbD_setBit (c c' : Fin NR_CPUS) (m : CpuMask) :
    (setBit c' m).getLsbD c = true ↔ m.getLsbD c = true ∨ c = c' := by
  rw [setBit, BitVec.getLsbD_or, getLsbD_cpumaskOfCpu c'.isLt, Bool.or_eq_true, decide_eq_true_eq, Fin.val_inj]

theorem exists_mem_snoc {P : ThermalEvent → Prop} :
    (∃ b ∈ round ++ [e], P b) ↔ (∃ b ∈ round, P b) ∨ P e := by
  simp [or_and_right, exists_or]

/-- The masks once an event has been added to them. -/
theorem Tracks.add (tracks : Tracks run) :
    (∀ c : Fin NR_CPUS, (setBit e.cpu run.1.itrmask).getLsbD c = true ↔ ∃ b ∈ run.2 ++ [e], b.cpu = c) ∧
      ∀ c : Fin NR_CPUS, (if e.needToBan then setBit e.cpu run.1.banmask else run.1.banmask).getLsbD c = true ↔
        ∃ b ∈ run.2 ++ [e], b.cpu = c ∧ b.needToBan = true := by
  constructor
  · intro c
    rw [getLsbD_setBit, tracks.seen, exists_mem_snoc, @eq_comm _ c]
  · intro c
    rw [exists_mem_snoc]
    by_cases ban : e.needToBan = true
    · rw [if_pos ban, getLsbD_setBit, tracks.banned, @eq_comm _ c, and_iff_left ban]
    · rw [if_neg ban, tracks.banned, or_iff_left (fun both => ban both.2)]

/-- What an event does: the round closes, or the masks grow. -/
theorem updateBannedCpus_cases (tracks : Tracks run) :
    if Closes run.2 e then
      (updateBannedCpus run.1 e).banmask = CPU_MASK_NONE ∧ (updateBannedCpus run.1 e).itrmask = CPU_MASK_NONE ∧
        (updateBannedCpus run.1 e).thermalBannedCpus =
          (if e.needToBan then setBit e.cpu run.1.banmask else run.1.banmask) ∧
        ((updateBannedCpus run.1 e).needRescan = true ↔ run.1.needRescan = true ∨
          (updateBannedCpus run.1 e).thermalBannedCpus ≠ run.1.thermalBannedCpus)
    else updateBannedCpus run.1 e = { run.1 with
      banmask := if e.needToBan then setBit e.cpu run.1.banmask else run.1.banmask
      itrmask := setBit e.cpu run.1.itrmask } := by
  have weight : cpusWeight (setBit e.cpu run.1.itrmask) = ((run.2 ++ [e]).map (·.cpu)).dedup.length :=
    cpusWeight_eq fun c => by rw [tracks.add.1, List.mem_map]
  have closes : Closes run.2 e ↔ ¬ (cpusWeight (setBit e.cpu run.1.itrmask) : ℤ) < e.online := by
    rw [weight, Closes, not_lt]
  obtain ⟨t, round⟩ := run
  unfold updateBannedCpus
  cases e.needToBan with
  | false =>
    simp only [Bool.false_eq_true, if_false] at closes ⊢
    by_cases open' : (cpusWeight (setBit e.cpu t.itrmask) : ℤ) < e.online
    · rw [if_neg (not_not.mpr open' ∘ closes.mp), if_pos open']
    · rw [if_pos (closes.mpr open'), if_neg open']
      by_cases same : t.thermalBannedCpus = t.banmask
      · simp [same]
      · simp [same, Ne.symm same]
  | true =>
    simp only [if_true] at closes ⊢
    by_cases open' : (cpusWeight (setBit e.cpu t.itrmask) : ℤ) < e.online
    · rw [if_neg (not_not.mpr open' ∘ closes.mp), if_pos open']
    · rw [if_pos (closes.mpr open'), if_neg open']
      by_cases same : t.thermalBannedCpus = setBit e.cpu t.banmask
      · simp [same]
      · simp [same, Ne.symm same]

theorem Tracks.step (tracks : Tracks run) (e : ThermalEvent) : Tracks (thermalStep run e) := by
  have cases := updateBannedCpus_cases (e := e) tracks
  unfold thermalStep
  by_cases closes : Closes run.2 e
  · rw [if_pos closes] at cases ⊢
    exact tracks_blank ⟨cases.1, cases.2.1⟩
  · rw [if_neg closes] at cases ⊢
    rw [cases]
    exact { seen := tracks.add.1, banned := tracks.add.2 }

/-- A CPU that is banned last was banned in the round. -/
theorem exists_of_latestBans (latest : LatestBans round c) : ∃ b ∈ round, b.cpu = c ∧ b.needToBan = true := by
  obtain ⟨b, last, ban⟩ := latest
  have member := List.mem_filter.mp (List.mem_of_getLast? last)
  exact ⟨b, member.1, by simpa using member.2, ban⟩

/-- A step follows the latest events exactly when no CPU has recovered in the round it closes. -/
theorem followsLatest_iff (tracks : Tracks run) (e : ThermalEvent) : FollowsLatest run e ↔ NoRecovery run e := by
  have cases := updateBannedCpus_cases (e := e) tracks
  unfold FollowsLatest NoRecovery thermalStep
  by_cases closes : Closes run.2 e
  · simp only [closes, if_true, forall_const] at cases ⊢
    obtain ⟨_, _, banned, rescan⟩ := cases
    have bits (c : Fin NR_CPUS) : (updateBannedCpus run.1 e).thermalBannedCpus.getLsbD c = true ↔
        ∃ b ∈ run.2 ++ [e], b.cpu = c ∧ b.needToBan = true := by rw [banned, tracks.add.2]
    constructor
    · rintro ⟨latest, _⟩ b member ban
      exact (latest b.cpu).mp ((bits b.cpu).mpr ⟨b, member, rfl, ban⟩)
    · intro stays
      refine ⟨fun c => ⟨fun set => ?_, fun latest => (bits c).mpr (exists_of_latestBans latest)⟩, rescan⟩
      obtain ⟨b, member, rfl, ban⟩ := (bits c).mp set
      exact stays b member ban
  · simp only [closes, if_false, false_imp_iff, iff_true] at cases ⊢
    rw [cases]
    exact ⟨rfl, rfl⟩

end Rounds

/-- A notification is a part of a run; its end closes no round. -/
theorem handleThermalEvent_eq (online : ℤ) (values : List ℕ) (run : ThermalRun) :
    handleThermalEvent online values run.1 =
      (thermalEvents online values).map fun events => (events.foldl thermalStep run).1 := by
  have walk (events : List ThermalEvent) (run : ThermalRun) :
      events.foldl updateBannedCpus run.1 = (events.foldl thermalStep run).1 := by
    induction events generalizing run with
    | nil => rfl
    | cons e events ih => exact ih (thermalStep run e)
  simp only [handleThermalEvent, walk]

/-- Over every sequence of events, the bans follow the latest events exactly when no CPU that was
banned in a round is well again in its most recent event of that round. -/
theorem run_followsLatest (thermalBannedCpus : CpuMask) (needRescan : Bool) (events : List ThermalEvent) :
    EachStep thermalStep FollowsLatest ({ thermalBannedCpus, needRescan }, []) events ↔
      EachStep thermalStep NoRecovery ({ thermalBannedCpus, needRescan }, []) events :=
  EachStep.congr_of_invariant (tracks_blank ⟨rfl, rfl⟩) (fun _ e tracks => tracks.step e)
    fun _ e tracks => followsLatest_iff tracks e

/-- CPU 0 of two has no performance and recovers before CPU 1 reports. -/
theorem followsLatest_recovered : ¬ EachStep thermalStep FollowsLatest ({}, [])
    [⟨0, 0, 0, 2⟩, ⟨0, 100, 100, 2⟩, ⟨1, 100, 100, 2⟩] := by
  rintro ⟨_, _, last, _⟩
  have round : (thermalStep (thermalStep ({}, []) ⟨0, 0, 0, 2⟩) ⟨0, 100, 100, 2⟩).2 =
      [⟨0, 0, 0, 2⟩, ⟨0, 100, 100, 2⟩] := by decide +kernel
  have closes : Closes [⟨0, 0, 0, 2⟩, ⟨0, 100, 100, 2⟩] ⟨1, 100, 100, 2⟩ := by decide +kernel
  rw [FollowsLatest, round, if_pos closes] at last
  obtain ⟨b, found, ban⟩ := (last.1 0).mp (by decide +kernel)
  have recovered : (([⟨0, 0, 0, 2⟩, ⟨0, 100, 100, 2⟩, ⟨1, 100, 100, 2⟩] : List ThermalEvent).filter
      fun e => e.cpu = 0).getLast? = some ⟨0, 100, 100, 2⟩ := by decide +kernel
  obtain rfl := Option.some.inj (recovered.symm.trans (Option.mem_def.mp found))
  exact absurd ban (by decide)

end Irqbalance
