import Irqbalance.Proofs.ListText

/-! # IRQBALANCE_BANNED_CPULIST

When the CPUs that `setup_banned_cpus` bans are those that the list denotes, as a condition on its
text. Nothing is wrong with a number or a range below `NR_CPUS` that is read. An element that is blank
and an open range stand for CPU 0, a number from 2^31 on wraps, and nothing is read from the first
rejected element on.
-/

namespace Irqbalance

open CText

/-- The banned CPUs are the listed ones and those banned for thermal reasons. -/
def BansListed (src : BanSources) (list : List Char) : Prop :=
  ∃ mask, setupBannedCpus src = some mask ∧ ∀ cpu, mask.getLsbD cpu = true ↔
    Listed list cpu ∨ src.thermalBannedCpus.getLsbD cpu = true

/-- A number or a range with a number that an `int` cannot hold. -/
def TooLarge (e : List Char) : Prop := ∃ n m : ℕ, elementRange e = some (n, m) ∧ 2 ^ 31 ≤ max n m

/-- The CPU is between the numbers of an element, which count modulo 2^32. -/
def Counts (e : List Char) (cpu : ℕ) : Prop :=
  ∃ n m : ℕ, elementEnds e = some (n, m) ∧ n % 2 ^ 32 ≤ cpu ∧ cpu ≤ m % 2 ^ 32

/-- The list is read as what it denotes. -/
structure ReadsRight (list : List Char) (thermal : CpuMask) : Prop where
  /-- No accepted element starts with a number that is negative as an `int`. -/
  nonneg : ∀ e ∈ acceptedElements list, ∀ n m, elementEnds e = some (n, m) → n % 2 ^ 32 < 2 ^ 31
  /-- If a blank element or an open range is accepted, CPU 0 is banned anyway. -/
  zero : ∀ e ∈ acceptedElements list, Unfinished e → Listed list 0 ∨ thermal.getLsbD 0 = true
  /-- What an accepted element with a large number wraps to is banned anyway. -/
  wrapped : ∀ e ∈ acceptedElements list, TooLarge e → ∀ cpu, Counts e cpu →
    Listed list cpu ∨ thermal.getLsbD cpu = true
  /-- What the elements from the first rejected one on and those with a large number name is banned
  anyway. -/
  lost : ∀ e ∈ list.splitOn ',', e ∈ rejectedElements list ∨ TooLarge e → ∀ cpu, Names e cpu →
    (∃ e' ∈ acceptedElements list, Counts e' cpu) ∨ thermal.getLsbD cpu = true

section Numbers

variable {e : List Char} {n m cpu : ℕ}

/-- A number as an `int` is its value modulo 2^32, or negative. -/
theorem toInt_natCast : toInt n = (n % 2 ^ 32 : ℕ) ∧ n % 2 ^ 32 < 2 ^ 31 ∨ toInt n < 0 ∧ 2 ^ 31 ≤ n % 2 ^ 32 := by
  have split := Int.bmod_def (n : ℤ) (2 ^ 32)
  rw [toInt]
  generalize Int.bmod (n : ℤ) (2 ^ 32) = value at split ⊢
  norm_num at split
  split_ifs at split <;> omega

theorem toInt_nonneg : 0 ≤ toInt n ↔ n % 2 ^ 32 < 2 ^ 31 := by
  have split := toInt_natCast (n := n)
  omega

theorem toInt_mod (nonneg : 0 ≤ toInt n) : toInt n = (n % 2 ^ 32 : ℕ) := by
  have split := toInt_natCast (n := n)
  omega

theorem elementSets_eq (ends : elementEnds e = some (n, m)) : elementSets e = ⟨e, toInt n, toInt m⟩ := by
  rw [elementSets, ends]
  rfl

/-- An element whose numbers are not negative sets what it counts. -/
theorem covers_iff_counts (ends : elementEnds e = some (n, m)) (order : toInt n ≤ toInt m)
    (nonneg : n % 2 ^ 32 < 2 ^ 31) : (elementSets e).covers cpu ↔ Counts e cpu := by
  have low := toInt_nonneg.mpr nonneg
  rw [elementSets_eq ends, ReadRange.covers, toInt_mod low, toInt_mod (low.trans order), Nat.cast_le, Nat.cast_le]
  constructor
  · rintro ⟨low, high⟩
    exact ⟨n, m, ends, low, high⟩
  · rintro ⟨n', m', ends', low, high⟩
    obtain ⟨rfl, rfl⟩ := Prod.mk.inj (Option.some.inj (ends.symm.trans ends'))
    exact ⟨low, high⟩

/-- A number or a range that an `int` holds counts what it names. -/
theorem counts_iff_names (range : elementRange e = some (n, m)) (small : ¬ TooLarge e) (bound : toInt m < NR_CPUS) :
    Counts e cpu ↔ Names e cpu := by
  have ends := elementEnds_of_range range
  have fits : max n m < 2 ^ 31 := not_le.mp fun large => small ⟨n, m, range, large⟩
  obtain ⟨low, high⟩ := max_lt_iff.mp fits
  have first : n % 2 ^ 32 = n := Nat.mod_eq_of_lt (by omega)
  have last : m % 2 ^ 32 = m := Nat.mod_eq_of_lt (by omega)
  rw [toInt_mod (toInt_nonneg.mpr (last.symm ▸ high)), last, Nat.cast_lt] at bound
  constructor
  · rintro ⟨n', m', ends', from_n, to_m⟩
    obtain ⟨rfl, rfl⟩ := Prod.mk.inj (Option.some.inj (ends.symm.trans ends'))
    rw [first] at from_n
    rw [last] at to_m
    exact ⟨to_m.trans_lt bound, _, range, from_n, to_m⟩
  · rintro ⟨_, _, range', from_n, to_m⟩
    obtain rfl := Option.some.inj (range.symm.trans range')
    exact ⟨n, m, ends, first.symm ▸ from_n, last.symm ▸ to_m⟩

/-- A blank element and an open range from 0 count CPU 0. -/
theorem counts_unfinished (unfinished : Unfinished e) (ends : elementEnds e = some (n, m))
    (order : toInt n ≤ toInt m) (nonneg : n % 2 ^ 32 < 2 ^ 31) : Counts e cpu ↔ cpu = 0 := by
  have missing : m = 0 := by
    rcases elementEnds_cases ends with range | ⟨-, missing⟩
    · exact absurd unfinished (not_unfinished range)
    · exact missing
  subst missing
  have last : 0 % 2 ^ 32 = 0 := Nat.zero_mod _
  have first : n % 2 ^ 32 = 0 := by
    have zero : toInt (0 : ℕ) = 0 := toInt_of_isInt (by decide)
    rw [toInt_mod (toInt_nonneg.mpr nonneg), zero] at order
    omega
  constructor
  · rintro ⟨n', m', ends', low, high⟩
    obtain ⟨rfl, rfl⟩ := Prod.mk.inj (Option.some.inj (ends.symm.trans ends'))
    rw [last] at high
    exact Nat.le_zero.mp high
  · rintro rfl
    exact ⟨n, 0, ends, first.le, Nat.zero_le _⟩

end Numbers

section Reading

variable {list : List Char} {thermal : CpuMask}

/-- The sets of the accepted elements start at 0 or above when their first numbers are not negative. -/
theorem first_nonneg_iff : (∀ r ∈ (acceptedElements list).map elementSets, 0 ≤ r.first) ↔
    ∀ e ∈ acceptedElements list, ∀ n m, elementEnds e = some (n, m) → n % 2 ^ 32 < 2 ^ 31 := by
  rw [List.forall_mem_map]
  refine forall₂_congr fun e accepted => ?_
  obtain ⟨n, m, ends, -⟩ := ends_of_accepted accepted
  rw [elementSets_eq ends]
  dsimp only
  rw [toInt_nonneg]
  constructor
  · intro nonneg n' m' ends'
    obtain ⟨rfl, rfl⟩ := Prod.mk.inj (Option.some.inj (ends.symm.trans ends'))
    exact nonneg
  · intro nonneg
    exact nonneg n m ends

/-- What an accepted element counts is banned rightly. -/
theorem ReadsRight.listed (right : ReadsRight list thermal) {e : List Char} (accepted : e ∈ acceptedElements list)
    {cpu : ℕ} (counts : Counts e cpu) : Listed list cpu ∨ thermal.getLsbD cpu = true := by
  obtain ⟨n, m, ends, order, bound⟩ := ends_of_accepted accepted
  rcases elementEnds_cases ends with range | ⟨unfinished, -⟩
  · by_cases large : TooLarge e
    · exact right.wrapped e accepted large cpu counts
    · exact .inl ⟨e, mem_of_accepted accepted, (counts_iff_names range large bound).mp counts⟩
  · obtain rfl := (counts_unfinished unfinished ends order (right.nonneg e accepted n m ends)).mp counts
    exact right.zero e accepted unfinished

/-- What an element names is banned. -/
theorem ReadsRight.counted (right : ReadsRight list thermal) {e : List Char} (element : e ∈ list.splitOn ',')
    {cpu : ℕ} (names : Names e cpu) : (∃ e ∈ acceptedElements list, Counts e cpu) ∨ thermal.getLsbD cpu = true := by
  by_cases lost : e ∈ rejectedElements list ∨ TooLarge e
  · exact right.lost e element lost cpu names
  · obtain ⟨known, small⟩ := not_or.mp lost
    have accepted := (accepted_or_rejected element).resolve_right known
    obtain ⟨n, m, ends, order, bound⟩ := ends_of_accepted accepted
    obtain ⟨-, ⟨n', m'⟩, range, -⟩ := id names
    obtain ⟨rfl, rfl⟩ := Prod.mk.inj (Option.some.inj (ends.symm.trans (elementEnds_of_range range)))
    exact .inl ⟨e, accepted, (counts_iff_names range small bound).mpr names⟩

/-- What the accepted elements count, against what the list denotes. -/
theorem counted_iff_listed
    (nonneg : ∀ e ∈ acceptedElements list, ∀ n m, elementEnds e = some (n, m) → n % 2 ^ 32 < 2 ^ 31) :
    (∀ cpu, (∃ e ∈ acceptedElements list, Counts e cpu) ∨ thermal.getLsbD cpu = true ↔
      Listed list cpu ∨ thermal.getLsbD cpu = true) ↔ ReadsRight list thermal := by
  constructor
  · intro exactly
    refine ⟨nonneg, fun e accepted unfinished => ?_,
      fun e accepted _ cpu counts => (exactly cpu).mp (.inl ⟨e, accepted, counts⟩),
      fun e element _ cpu names => (exactly cpu).mpr (.inl ⟨e, element, names⟩)⟩
    obtain ⟨n, m, ends, order, -⟩ := ends_of_accepted accepted
    have zero := (counts_unfinished unfinished ends order (nonneg e accepted n m ends)).mpr rfl
    exact (exactly 0).mp (.inl ⟨e, accepted, zero⟩)
  · intro right cpu
    constructor
    · rintro (⟨e, accepted, counts⟩ | hot)
      · exact right.listed accepted counts
      · exact .inr hot
    · rintro (⟨e, element, names⟩ | hot)
      · exact right.counted element names
      · exact .inr hot

/-- The set that is read, against the set that is denoted. -/
theorem setRanges_listed : (∃ mask, (setRanges (listRanges list) CPU_MASK_NONE).map (· ||| thermal) = some mask ∧
      ∀ cpu, mask.getLsbD cpu = true ↔ Listed list cpu ∨ thermal.getLsbD cpu = true) ↔
    ReadsRight list thermal := by
  have valid : ∀ r ∈ listRanges list, r.first ≤ r.last ∧ r.last < NR_CPUS := fun r => readRanges_valid
  rw [listRanges_eq] at valid ⊢
  by_cases positive : ∀ r ∈ (acceptedElements list).map elementSets, 0 ≤ r.first
  case neg =>
    have underrun : ∃ r ∈ (acceptedElements list).map elementSets, r.first < 0 := by
      simpa only [not_forall, not_le, exists_prop] using positive
    rw [setRanges_none underrun]
    exact iff_of_false (fun ⟨_, undefined, _⟩ => by contradiction) fun right =>
      positive (first_nonneg_iff.mpr right.nonneg)
  have nonneg := first_nonneg_iff.mp positive
  obtain ⟨mask, set, bits⟩ := setRanges_some CPU_MASK_NONE valid positive
  have banned (cpu : ℕ) : (mask ||| thermal).getLsbD cpu = true ↔
      (∃ e ∈ acceptedElements list, Counts e cpu) ∨ thermal.getLsbD cpu = true := by
    rw [BitVec.getLsbD_or, Bool.or_eq_true, bits, BitVec.getLsbD_zero]
    simp only [Bool.false_eq_true, false_or, List.mem_map, exists_exists_and_eq_and]
    refine or_congr_left (exists_congr fun e => and_congr_right fun accepted => ?_)
    obtain ⟨n, m, ends, order, -⟩ := ends_of_accepted accepted
    exact covers_iff_counts ends order (nonneg e accepted n m ends)
  rw [set]
  constructor
  · rintro ⟨result, same, exactly⟩
    obtain rfl := Option.some.inj same
    exact (counted_iff_listed nonneg).mp fun cpu => (banned cpu).symm.trans (exactly cpu)
  · intro right
    exact ⟨_, rfl, fun cpu => (banned cpu).trans ((counted_iff_listed nonneg).mpr right cpu)⟩

theorem Plain.not_tooLarge {e : List Char} (plain : Plain e) : ¬ TooLarge e := by
  obtain ⟨range, same, order, bound⟩ := plain
  rintro ⟨n, m, same', large⟩
  obtain rfl := Option.some.inj (same.symm.trans same')
  have bound : m < 4096 := bound
  have order : n ≤ m := order
  rw [max_eq_right order] at large
  omega

/-- A list of plain elements that is read to its end is read as what it denotes. -/
theorem ReadsRight.of_plain (plain : ∀ e ∈ list.splitOn ',', Plain e) (whole : rejectedElements list = []) :
    ReadsRight list thermal where
  nonneg e accepted n m ends := by
    obtain ⟨⟨first, last⟩, range, order, bound⟩ := plain e (mem_of_accepted accepted)
    obtain ⟨rfl, rfl⟩ := Prod.mk.inj (Option.some.inj (ends.symm.trans (elementEnds_of_range range)))
    have bound : m < 4096 := bound
    have order : n ≤ m := order
    rw [Nat.mod_eq_of_lt (by omega)]
    omega
  zero e accepted unfinished := by
    obtain ⟨_, range, -⟩ := plain e (mem_of_accepted accepted)
    exact absurd unfinished (not_unfinished range)
  wrapped e accepted large := absurd large (plain e (mem_of_accepted accepted)).not_tooLarge
  lost e element lost := by
    rcases lost with unread | large
    · rw [whole] at unread
      contradiction
    · exact absurd large (plain e element).not_tooLarge

end Reading

/-- Without another ban the variable decides, and it does so rightly exactly when it is read as what
it denotes. -/
theorem setupBannedCpus_cpulist (src : BanSources) (list : List Char)
    (noUi : src.bannedCpumaskFromUi = none)
    (noMask : src.bannedCpusEnv = none ∨ src.bannedCpusEnv = some [])
    (given : src.bannedCpulistEnv = some list) :
    BansListed src (cString list) ↔ ReadsRight (cString list) src.thermalBannedCpus := by
  have unset : src.bannedCpusEnv.filter (fun env => !env.isEmpty) = none := by
    rcases noMask with none | empty
    · rw [none]
      rfl
    · rw [empty]
      rfl
  rw [BansListed, setupBannedCpus, noUi, envBannedCpus, unset, given]
  simp only [cpulistParse_eq]
  exact setRanges_listed

theorem setupBannedCpus_cpulist_range :
    BansListed { bannedCpulistEnv := some "0,2-3".toList } (cString "0,2-3".toList) :=
  (setupBannedCpus_cpulist { bannedCpulistEnv := some "0,2-3".toList } "0,2-3".toList rfl (.inl rfl)
    rfl).mpr (.of_plain (by decide) (by decide))

/-- The empty list denotes no CPU, and bans CPU 0. -/
theorem setupBannedCpus_cpulist_empty : ¬ BansListed { bannedCpulistEnv := some [] } [] := by
  rintro ⟨mask, set, exactly⟩
  have zero : setupBannedCpus { bannedCpulistEnv := some [] } = some (BitVec.ofNat NR_CPUS 1) := by decide +kernel
  obtain rfl := Option.some.inj (zero.symm.trans set)
  rcases (exactly 0).mp (by decide +kernel) with ⟨e, element, _, range, documented, _⟩ | hot
  · obtain rfl : e = [] := by simpa using element
    have empty : elementRange [] = none := by decide
    exact Option.some_ne_none range (documented.symm.trans empty)
  · exact absurd hot (by decide +kernel)

end Irqbalance
