import Irqbalance.Proofs.IrqBans
import Irqbalance.Proofs.CpuBans

/-! # The documented settings messages

The manual separates the numbers of a list by blanks. The list of interrupts is read number by number
up to a 0 behind the first one, and of the list of CPUs only the first number is read.
-/

namespace Irqbalance

open CText

/-- Numbers with a blank between two of them. -/
def blankList (numbers : List ℤ) : List Char := [' '].intercalate (numbers.map showInt)

theorem blankList_cons (first : ℤ) (numbers : List ℤ) :
    blankList (first :: numbers) = showInt first ++ banText numbers := by
  induction numbers generalizing first with
  | nil => simp [blankList, banText, List.intercalate]
  | cons next numbers ih =>
    have joined : blankList (first :: next :: numbers) = showInt first ++ ' ' :: blankList (next :: numbers) := by
      simp [blankList, List.intercalate]
    rw [joined, ih]
    simp [banText]

section Irqs

variable {s : State} {c : Settings} {irqs : List ℤ}

/-- The interrupts banned once the message has been handled. -/
def bannedBy (s : State) (c : Settings) (irqs : List ℤ) : List ℤ :=
  (sockHandle s ("settings ban irqs ".toList ++ blankList irqs) c).1.clBannedIrqs

/-- Exactly the listed interrupts are banned, each once. -/
def BansListedIrqs (s : State) (c : Settings) (irqs : List ℤ) : Prop :=
  (bannedBy s c irqs).Nodup ∧ ∀ v, v ∈ bannedBy s c irqs ↔ v ∈ irqs

/-- Each number is the first one, or is reached before a 0 behind the first one. -/
def ReachesAll : List ℤ → Prop
  | [] => False
  | first :: irqs => ∀ v ∈ irqs, v = first ∨ v ∈ irqs.takeWhile (· ≠ 0)

instance : DecidablePred ReachesAll
  | [] => isFalse id
  | first :: irqs => inferInstanceAs (Decidable (∀ v ∈ irqs, v = first ∨ v ∈ irqs.takeWhile (· ≠ 0)))

theorem bannedBy_eq (unnamed : hasPrefix (blankList irqs) "NONE".toList = false) :
    bannedBy s c irqs = addBans ((blankList irqs).length + 1) (toInt (strtoul (blankList irqs)).1)
      (strtoul (blankList irqs)).2 [] :=
  sockHandle_banIrqs _ unnamed

theorem bannedBy_cons {first : ℤ} (ints : ∀ v ∈ first :: irqs, IsInt v) :
    (bannedBy s c (first :: irqs)).Nodup ∧
      ∀ v, v ∈ bannedBy s c (first :: irqs) ↔ v = first ∨ v ∈ irqs.takeWhile (· ≠ 0) := by
  have ends := ends_banText irqs ends_nil
  rw [List.append_nil] at ends
  have scanned := strtoul_showInt (ints first List.mem_cons_self) ends
  have unnamed : hasPrefix (blankList (first :: irqs)) "NONE".toList = false := by
    rw [blankList_cons]
    exact isPrefixOf_showInt (by decide) (by decide) _
  have enough : irqs.length < (blankList (first :: irqs)).length + 1 := by
    have bound := length_le_banText irqs
    rw [blankList_cons, List.length_append]
    omega
  have added := addBans_banText (fun v member => ints v (List.mem_cons_of_mem first member)) first
    enough List.nodup_nil ends_nil (by decide)
  rw [List.append_nil] at added
  rw [bannedBy_eq unnamed]
  rw [blankList_cons] at added ⊢
  rw [scanned.1, scanned.2]
  refine ⟨added.1, fun v => ?_⟩
  rw [added.2]
  simp

theorem bansListedIrqs_iff (ints : ∀ v ∈ irqs, IsInt v) : BansListedIrqs s c irqs ↔ ReachesAll irqs := by
  cases irqs with
  | nil =>
    refine iff_of_false ?_ id
    rintro ⟨_, exactly⟩
    have zero : (0 : ℤ) ∈ bannedBy s c [] := by
      rw [bannedBy_eq rfl]
      decide
    exact absurd ((exactly 0).mp zero) List.not_mem_nil
  | cons first irqs =>
    have banned := bannedBy_cons (s := s) (c := c) ints
    constructor
    · rintro ⟨_, exactly⟩ v member
      exact (banned.2 v).mp ((exactly v).mpr (List.mem_cons_of_mem first member))
    · intro reached
      refine ⟨banned.1, fun v => ?_⟩
      rw [banned.2, List.mem_cons]
      refine or_congr_right' fun other => ⟨fun before => (List.takeWhile_sublist _).subset before, fun member => ?_⟩
      exact (reached v member).resolve_left other

end Irqs

section Cpus

variable {s : State} {c : Settings} {first : ℤ} {cpus : List ℤ}

theorem cpulistParse_showInt (range : 0 ≤ first ∧ first < NR_CPUS) :
    ∃ mask, (cpulistParse (showInt first)).map Prod.fst = some mask ∧
      ∀ cpu : ℕ, mask.getLsbD cpu = true ↔ (cpu : ℤ) = first := by
  obtain ⟨p, read, low, high⟩ := readElement_showInt (p := {}) range true ⟨rfl, rfl⟩ rfl
  have alone : listRanges (showInt first) = [⟨showInt first, first, first⟩] := by
    rw [listRanges, List.splitOn_eq_singleton (not_mem_showInt (by decide) (by decide)), readRanges,
      List.isEmpty_nil, read]
    simp [low, high, readRanges]
  have each : ∀ r ∈ [(⟨showInt first, first, first⟩ : ReadRange)],
      0 ≤ r.first ∧ r.first ≤ r.last ∧ r.last < NR_CPUS := by
    intro r member
    rw [List.mem_singleton.mp member]
    exact ⟨range.1, le_refl first, range.2⟩
  obtain ⟨mask, set, bits⟩ := setRanges_some CPU_MASK_NONE (fun r member => (each r member).2)
    (fun r member => (each r member).1)
  refine ⟨mask, ?_, fun cpu => ?_⟩
  · rw [cpulistParse_eq, cString_eq_self (not_mem_showInt (by decide) (by decide)), alone]
    exact set
  · rw [bits, BitVec.getLsbD_zero]
    simp [ReadRange.covers, le_antisymm_iff, and_comm]

theorem sockHandle_blankCpus :
    (sockHandle s ("settings cpus ".toList ++ blankList (first :: cpus)) c).1.bannedCpumaskFromUi =
      some (showInt first) := by
  have token : (tokens (blankList (first :: cpus))).head? = some (showInt first) := by
    rw [blankList_cons]
    cases cpus with
    | nil => rw [banText, List.flatMap_nil, List.append_nil, tokens_last word_showInt]; rfl
    | cons next cpus => rw [banText, List.flatMap_cons, List.cons_append, tokens_word word_showInt]; rfl
  have number : hasPrefix (showInt first ++ []) "NULL".toList = false :=
    isPrefixOf_showInt (by decide) (by decide) []
  rw [List.append_nil] at number
  rw [sockHandle_settingsCpus, token, Option.filter_some, number, Bool.not_false, if_pos rfl]

theorem bansCpus_iff {src : BanSources} (range : ∀ n ∈ first :: cpus, 0 ≤ n ∧ n < NR_CPUS) :
    BansCpus (src.after s ("settings cpus ".toList ++ blankList (first :: cpus)) c) (first :: cpus) ↔
      ∀ n ∈ cpus, n = first ∨ src.thermalBannedCpus.getLsbD n.toNat = true := by
  have low := range first List.mem_cons_self
  obtain ⟨mask, parsed, bits⟩ := cpulistParse_showInt low
  have set : setupBannedCpus (src.after s ("settings cpus ".toList ++ blankList (first :: cpus)) c) =
      some (mask ||| src.thermalBannedCpus) := by
    simp only [setupBannedCpus, BanSources.after, sockHandle_blankCpus, parsed, Option.map_some]
  have union (cpu : ℕ) : (mask ||| src.thermalBannedCpus).getLsbD cpu = true ↔
      (cpu : ℤ) = first ∨ src.thermalBannedCpus.getLsbD cpu = true := by
    rw [BitVec.getLsbD_or, Bool.or_eq_true, bits]
  constructor
  · rintro ⟨found, banned, exactly⟩ n member
    obtain rfl := Option.some.inj (set.symm.trans banned)
    obtain ⟨cpu, rfl⟩ := Int.eq_ofNat_of_zero_le (range n (List.mem_cons_of_mem first member)).1
    exact (union cpu).mp ((exactly cpu).mpr (.inl (List.mem_cons_of_mem first member)))
  · intro covered
    refine ⟨_, set, fun cpu => (union cpu).trans ⟨?_, ?_⟩⟩
    · rintro (same | hot)
      · exact .inl (same ▸ List.mem_cons_self)
      · exact .inr hot
    · rintro (listed | hot)
      · rcases List.mem_cons.mp listed with same | behind
        · exact .inl same
        · exact covered cpu behind
      · exact .inr hot

end Cpus

/-- The manual's lists are handled as documented exactly when every interrupt is reached, and when the
CPUs behind the first one are the first one again or banned for thermal reasons. -/
theorem settingsProtocol (s : State) (c : Settings) (src : BanSources) (irqs : List ℤ) (first : ℤ)
    (cpus : List ℤ) (ints : ∀ v ∈ irqs, IsInt v) (range : ∀ n ∈ first :: cpus, 0 ≤ n ∧ n < NR_CPUS) :
    (BansListedIrqs s c irqs ↔ ReachesAll irqs) ∧
      (BansCpus (src.after s ("settings cpus ".toList ++ blankList (first :: cpus)) c) (first :: cpus) ↔
        ∀ n ∈ cpus, n = first ∨ src.thermalBannedCpus.getLsbD n.toNat = true) :=
  ⟨bansListedIrqs_iff ints, bansCpus_iff range⟩

theorem settingsProtocol_two :
    BansListedIrqs {} { sleepInterval := 10 } [0, 24] ∧
      BansCpus (({} : BanSources).after {} ("settings cpus ".toList ++ blankList [3]) { sleepInterval := 10 })
        [3] := by
  have both := settingsProtocol {} { sleepInterval := 10 } {} [0, 24] 3 [] (by decide) (by decide)
  exact ⟨both.1.mpr (by decide), both.2.mpr nofun⟩

/-- Of the interrupts 24 and 0 the second is lost, and of the CPUs 1 and 2 the second. -/
theorem settingsProtocol_lost :
    ¬ BansListedIrqs {} { sleepInterval := 10 } [24, 0] ∧
      ¬ BansCpus (({} : BanSources).after {} ("settings cpus ".toList ++ blankList [1, 2])
        { sleepInterval := 10 }) [1, 2] := by
  constructor
  · rintro ⟨_, exactly⟩
    exact absurd ((exactly 0).mpr (by decide)) (by decide)
  · rintro ⟨mask, set, bits⟩
    have banned : setupBannedCpus (({} : BanSources).after {} ("settings cpus ".toList ++ blankList [1, 2])
        { sleepInterval := 10 }) = some (BitVec.ofNat NR_CPUS 2) := by decide +kernel
    obtain rfl := Option.some.inj (banned.symm.trans set)
    exact absurd ((bits 2).mpr (.inl (by decide))) (by decide +kernel)

end Irqbalance
