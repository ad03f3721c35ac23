import Irqbalance.Model.Ui
import Irqbalance.Proofs.CpuList

/-! # Banning CPUs from the user interface

The message of `handle_cpu_banning`, and what `sock_handle` and `setup_banned_cpus` make of it. The
terminator `NULL` behind the last comma ends the parsing with an error, after everything in front
of it has been set. A list without numbers is the terminator alone, which hands the decision back
to the environment variables and the kernel's isolated CPUs.
-/

namespace Irqbalance

open CText

/-- The numbers that the user has flagged. -/
def flaggedCpus (cpus : List CpuBan) : List ℤ := (cpus.filter (·.isBanned)).map (·.number)

/-- The list of a message. -/
def cpuText (numbers : List ℤ) : List Char := numbers.flatMap fun n => showInt n ++ [',']

section Message

variable {cpus : List CpuBan} {numbers : List ℤ}

theorem forEach_getNewCpuBanValues : forEach cpus getNewCpuBanValues "settings cpus ".toList =
    ("settings cpus ".toList ++ cpuText (flaggedCpus cpus)).take (SETTINGS_SIZE - 1) := by
  have texts : cpuText (flaggedCpus cpus) =
      (cpus.filter (·.isBanned)).flatMap fun cpu => showInt cpu.number ++ [','] := by
    rw [cpuText, flaggedCpus, List.flatMap_map]
  rw [texts]
  exact foldl_appendBounded SETTINGS_SIZE "settings cpus ".toList (·.isBanned)
    (fun cpu => showInt cpu.number ++ [',']) cpus (by decide)

/-- A message is built exactly when the list and the terminator fit. -/
theorem handleCpuBanning_eq : handleCpuBanning cpus =
    if (cpuText (flaggedCpus cpus)).length ≤ 1005 then
      some ("settings cpus ".toList ++ cpuText (flaggedCpus cpus) ++ "NULL".toList)
    else none := by
  have headed : hasPrefix (forEach cpus getNewCpuBanValues "settings cpus ".toList)
      "settings cpus ".toList = true := by
    rw [forEach_getNewCpuBanValues, hasPrefix, List.isPrefixOf_iff_prefix]
    exact List.prefix_take_iff.mpr ⟨List.prefix_append _ _, by decide⟩
  rw [handleCpuBanning, headed, if_pos rfl, forEach_getNewCpuBanValues, appendCopy_take (by decide)]
  refine if_congr ?_ rfl rfl
  rw [List.length_append, show "settings cpus ".toList.length = 14 from rfl,
    show "NULL".toList.length = 4 from rfl, SETTINGS_SIZE]
  omega

/-- A printed number consists of a sign and digits. -/
theorem not_mem_showInt {c : Char} (digit : c.isDigit = false) (minus : c ≠ '-') {n : ℤ} : c ∉ showInt n := by
  have digits {n : ℕ} : c ∉ showNat n := fun member => by
    rw [isDigit_showNat member] at digit
    contradiction
  cases n with
  | ofNat n => exact digits
  | negSucc n => exact List.not_mem_cons_of_ne_of_not_mem minus digits

theorem not_mem_cpuText {c : Char} (digit : c.isDigit = false) (minus : c ≠ '-') (comma : c ≠ ',') :
    c ∉ cpuText numbers := by
  rw [cpuText, List.mem_flatMap]
  rintro ⟨n, _, member⟩
  rcases List.mem_append.mp member with number | last
  · exact not_mem_showInt digit minus number
  · exact comma (List.mem_singleton.mp last)

end Message

section Handling

variable {s : State} {c : Settings} {numbers : List ℤ}

/-- The daemon's side of a message that bans CPUs. -/
theorem sockHandle_settingsCpus (text : List Char) :
    (sockHandle s ("settings cpus ".toList ++ text) c).1.bannedCpumaskFromUi =
      (tokens text).head?.filter fun mask => !hasPrefix mask "NULL".toList := by
  have headed : hasPrefix ("settings cpus ".toList ++ text) "settings ".toList = true := rfl
  have sleep : hasPrefix ("settings cpus ".toList ++ text) "settings sleep ".toList = false := rfl
  have ban : hasPrefix ("settings cpus ".toList ++ text) "settings ban irqs ".toList = false := rfl
  have cpus : hasPrefix ("settings cpus ".toList ++ text) "settings cpus ".toList = true := rfl
  have behind : ("settings cpus ".toList ++ text).drop "settings cpus ".length = text := rfl
  simp only [sockHandle, headed, if_true, handleSettings, sleep, ban, cpus, behind, Bool.false_eq_true, if_false]

/-- What the daemon keeps of a message. -/
theorem sockHandle_cpus (range : ∀ n ∈ numbers, 0 ≤ n) :
    (sockHandle s ("settings cpus ".toList ++ cpuText numbers ++ "NULL".toList) c).1.bannedCpumaskFromUi =
      if numbers = [] then none else some (cpuText numbers ++ "NULL".toList) := by
  have word : Word (cpuText numbers ++ "NULL".toList) := by
    refine ⟨by simp, fun blank => ?_⟩
    rcases List.mem_append.mp blank with list | terminator
    · exact not_mem_cpuText (by decide) (by decide) (by decide) list
    · exact absurd terminator (by decide)
  rw [List.append_assoc, sockHandle_settingsCpus, tokens_last word, List.head?_cons]
  cases numbers with
  | nil => rfl
  | cons n numbers =>
    have notNull : hasPrefix (cpuText (n :: numbers) ++ "NULL".toList) "NULL".toList = false := by
      have text : cpuText (n :: numbers) ++ "NULL".toList =
          showInt n ++ (',' :: cpuText numbers ++ "NULL".toList) := by
        simp [cpuText]
      rw [text]
      exact isPrefixOf_showInt (by decide) (by decide) _
    rw [if_neg (List.cons_ne_nil _ _), Option.filter_some, notNull, Bool.not_false, if_pos rfl]

end Handling

section Parsing

variable {p : ListState} {numbers : List ℤ} {mask thermal : CpuMask}

theorem readElement_showInt {n : ℤ} (range : 0 ≤ n ∧ n < NR_CPUS) (last : Bool)
    (fresh : p.b = 0 ∧ p.inRange = false) (calm : embeddedSpace p = false) :
    ∃ p', readElement (showInt n) last p = some p' ∧ p'.a = n ∧ p'.b = n := by
  obtain ⟨m, rfl⟩ := Int.eq_ofNat_of_zero_le range.1
  obtain ⟨d, digits, shown, _⟩ := showNat_cons (n := m)
  have value : Nat.ofDigitChars 10 (d :: digits) 0 = m := shown ▸ digitsValue_showNat
  have small : m < 4096 := by simpa using range.2
  have each : ∀ c ∈ d :: digits, c.isDigit = true := fun c member => isDigit_showNat (shown ▸ member)
  have zero : p.b = toInt (0 : ℕ) := by rw [fresh.1]; rfl
  have value : toInt (Nat.ofDigitChars 10 (d :: digits) 0 : ℕ) = m := by
    rw [value, toInt_of_isInt ⟨by omega, by omega⟩]
  have read := readChars_digits (t := []) each zero (fun none => absurd none (List.cons_ne_nil d digits)) (.inr calm)
  rw [List.append_nil, value, readChars, fresh.2, if_neg Bool.false_ne_true] at read
  have solid : isSpace ((d :: digits).getLastD p.c) = false :=
    isSpace_of_isDigit (each _ (by rw [List.getLastD_cons]; exact List.getLastD_mem_cons))
  rw [readElement, show showInt (m : ℤ) = d :: digits from shown, read]
  refine ⟨_, Option.filter_eq_some_iff.mpr ⟨rfl, ?_⟩, rfl, rfl⟩
  rw [embeddedSpace, solid]
  simp [Settable, small]

/-- The numbers are read, the terminator is not. -/
theorem readRanges_numbers (range : ∀ n ∈ numbers, 0 ≤ n ∧ n < NR_CPUS)
    (fresh : p.b = 0 ∧ p.inRange = false) (calm : embeddedSpace p = false) :
    readRanges (numbers.map showInt ++ ["NULL".toList]) p =
      numbers.map fun n => ⟨showInt n, n, n⟩ := by
  induction numbers generalizing p with
  | nil =>
    have rejected : readChars "NULL".toList p = none := by
      have noSpace : isSpace 'N' = false := by decide
      have noDigit : ('N' : Char).isDigit = false := by decide
      have quiet : ¬ (p.totaldigits ≠ 0 ∧ isSpace p.c = true) := by simpa [embeddedSpace] using calm
      simp [readChars, noSpace, noDigit]
    rw [List.map_nil, List.nil_append, readRanges, readElement, rejected]
    rfl
  | cons n numbers ih =>
    obtain ⟨p', read, first, last⟩ := readElement_showInt (range n List.mem_cons_self)
      (numbers.map showInt ++ ["NULL".toList]).isEmpty fresh calm
    have more : numbers.map showInt ++ ["NULL".toList] ≠ [[]] := by
      intro same
      have member : "NULL".toList ∈ [([] : List Char)] :=
        same ▸ List.mem_append_right _ (List.mem_singleton_self _)
      exact absurd member (by decide)
    have rest := ih (p := { c := ',', totaldigits := p'.totaldigits })
      (fun m member => range m (List.mem_cons_of_mem n member)) ⟨rfl, rfl⟩ (by simp [embeddedSpace, isSpace])
    rw [List.map_cons, List.cons_append, readRanges, read]
    simp only [more, if_false, rest, first, last, List.map_cons]

theorem splitOn_cpuText : (cpuText numbers ++ "NULL".toList).splitOn ',' =
    numbers.map showInt ++ ["NULL".toList] := by
  induction numbers with
  | nil => decide
  | cons n numbers ih =>
    have text : cpuText (n :: numbers) ++ "NULL".toList =
        showInt n ++ ',' :: (cpuText numbers ++ "NULL".toList) := by
      simp [cpuText]
    rw [text, List.splitOn_append_cons_self_of_not_mem (not_mem_showInt (by decide) (by decide)), ih]
    rfl

/-- The mask of a list of numbers with the terminator. -/
theorem cpulistParse_cpuText (range : ∀ n ∈ numbers, 0 ≤ n ∧ n < NR_CPUS) :
    ∃ mask, (cpulistParse (cpuText numbers ++ "NULL".toList)).map Prod.fst = some mask ∧
      ∀ cpu : ℕ, mask.getLsbD cpu = true ↔ (cpu : ℤ) ∈ numbers := by
  have nul : '\x00' ∉ cpuText numbers ++ "NULL".toList := by
    intro member
    rcases List.mem_append.mp member with list | terminator
    · exact not_mem_cpuText (by decide) (by decide) (by decide) list
    · exact absurd terminator (by decide)
  rw [cpulistParse_eq, cString_eq_self nul, listRanges, splitOn_cpuText,
    readRanges_numbers range ⟨rfl, rfl⟩ rfl]
  have each : ∀ r ∈ numbers.map fun n => (⟨showInt n, n, n⟩ : ReadRange),
      0 ≤ r.first ∧ r.first ≤ r.last ∧ r.last < NR_CPUS := by
    intro r member
    obtain ⟨n, listed, rfl⟩ := List.mem_map.mp member
    exact ⟨(range n listed).1, le_refl n, (range n listed).2⟩
  obtain ⟨mask, set, bits⟩ := setRanges_some CPU_MASK_NONE (fun r member => (each r member).2)
    (fun r member => (each r member).1)
  refine ⟨mask, set, fun cpu => ?_⟩
  rw [bits, BitVec.getLsbD_zero]
  constructor
  · rintro (none | ⟨r, member, covered⟩)
    · contradiction
    · obtain ⟨n, listed, rfl⟩ := List.mem_map.mp member
      obtain rfl : n = cpu := le_antisymm covered.1 covered.2
      exact listed
  · intro listed
    exact .inr ⟨⟨showInt cpu, cpu, cpu⟩, List.mem_map_of_mem listed, le_refl _, le_refl _⟩

end Parsing

/-- The sources of bans once the daemon has handled a message of the user interface. -/
def BanSources.after (src : BanSources) (s : State) (message : List Char) (c : Settings) : BanSources :=
  { src with bannedCpumaskFromUi := (sockHandle s message c).1.bannedCpumaskFromUi }

/-- The banned CPUs are the given ones and those banned for thermal reasons. -/
def BansCpus (src : BanSources) (numbers : List ℤ) : Prop :=
  ∃ mask, setupBannedCpus src = some mask ∧ ∀ cpu : ℕ, mask.getLsbD cpu = true ↔
    (cpu : ℤ) ∈ numbers ∨ src.thermalBannedCpus.getLsbD cpu = true

/-- A list that fits its message reaches `setup_banned_cpus` as it was flagged; if nothing is
flagged, the environment and the kernel decide as if there were no message. -/
theorem cpuBans_roundTrip (cpus : List CpuBan) (src : BanSources) (s : State) (c : Settings)
    (range : ∀ cpu ∈ cpus, 0 ≤ cpu.number ∧ cpu.number < NR_CPUS)
    (fits : (cpuText (flaggedCpus cpus)).length ≤ 1005) :
    ∃ message, handleCpuBanning cpus = some message ∧
      (flaggedCpus cpus ≠ [] → BansCpus (src.after s message c) (flaggedCpus cpus)) ∧
      (flaggedCpus cpus = [] → setupBannedCpus (src.after s message c) =
        setupBannedCpus { src with bannedCpumaskFromUi := none }) := by
  have ranges : ∀ n ∈ flaggedCpus cpus, 0 ≤ n ∧ n < NR_CPUS := by
    intro n member
    obtain ⟨cpu, flagged, rfl⟩ := List.mem_map.mp member
    exact range cpu (List.mem_filter.mp flagged).1
  rw [handleCpuBanning_eq, if_pos fits]
  generalize flaggedCpus cpus = numbers at ranges ⊢
  have kept := sockHandle_cpus (s := s) (c := c) fun n member => (ranges n member).1
  refine ⟨_, rfl, fun some_flagged => ?_, fun none_flagged => ?_⟩
  · obtain ⟨mask, parsed, bits⟩ := cpulistParse_cpuText ranges
    rw [if_neg some_flagged] at kept
    refine ⟨mask ||| src.thermalBannedCpus, ?_, fun cpu => ?_⟩
    · simp only [setupBannedCpus, BanSources.after, kept, parsed, Option.map_some]
    · rw [BitVec.getLsbD_or, Bool.or_eq_true, bits, BanSources.after]
  · rw [if_pos none_flagged] at kept
    simp only [BanSources.after, kept]

theorem cpuBans_roundTrip_two : ∃ message,
    handleCpuBanning [{ number := 3, isBanned := true }, { number := 4 }] = some message ∧
      ([3] ≠ ([] : List ℤ) → BansCpus (({} : BanSources).after {} message { sleepInterval := 10 }) [3]) ∧
      ([3] = ([] : List ℤ) → setupBannedCpus (({} : BanSources).after {} message { sleepInterval := 10 }) =
        setupBannedCpus {}) :=
  cpuBans_roundTrip [{ number := 3, isBanned := true }, { number := 4 }] {} {} { sleepInterval := 10 }
    (by decide) (by decide)

/-- With nothing flagged, what IRQBALANCE_BANNED_CPULIST names is banned again. -/
theorem cpuBans_roundTrip_none : ∃ message, handleCpuBanning [{ number := 0 }] = some message ∧
    ¬ BansCpus (({ bannedCpulistEnv := some "0".toList } : BanSources).after {} message
      { sleepInterval := 10 }) (flaggedCpus [{ number := 0 }]) := by
  refine ⟨"settings cpus NULL".toList, by decide, ?_⟩
  rintro ⟨mask, set, bits⟩
  have banned : setupBannedCpus (({ bannedCpulistEnv := some "0".toList } : BanSources).after {}
      "settings cpus NULL".toList { sleepInterval := 10 }) = some (BitVec.ofNat NR_CPUS 1) := by decide +kernel
  obtain rfl := Option.some.inj (banned.symm.trans set)
  rcases (bits 0).mp (by decide +kernel) with flagged | hot
  · exact absurd flagged (by decide)
  · exact absurd hot (by decide +kernel)

end Irqbalance
