import Irqbalance.Model.Ui
import Mathlib.Algebra.BigOperators.Group.List.Basic
import Mathlib.Data.List.TakeWhile

/-! # Banning interrupts from the user interface

The message of `handle_irq_banning`, and what `sock_handle` makes of it. The message exists while
the list fits its buffer. The daemon then adds the first number that it scans without a look, and
goes on to the first 0, so that an empty list becomes a ban of interrupt 0.
-/

namespace Irqbalance

open CText

/-- The vectors that the user has flagged. -/
def flaggedIrqs (irqs : List UiIrq) : List ℤ := (irqs.filter (·.isBanned)).map (·.vector)

/-- The list of a message. -/
def banText (vectors : List ℤ) : List Char := vectors.flatMap fun v => ' ' :: showInt v

section Message

variable {irqs : List UiIrq}

theorem forEach_getNewIrqBanValues : forEach irqs getNewIrqBanValues BAN_IRQS =
    (BAN_IRQS ++ banText (flaggedIrqs irqs)).take (SETTINGS_SIZE - 1) := by
  have texts : banText (flaggedIrqs irqs) =
      (irqs.filter (·.isBanned)).flatMap fun irq => ' ' :: showInt irq.vector := by
    rw [banText, flaggedIrqs, List.flatMap_map]
  rw [texts]
  exact foldl_appendBounded SETTINGS_SIZE BAN_IRQS (·.isBanned)
    (fun irq => ' ' :: showInt irq.vector) irqs (by decide)

/-- A message is built exactly when the list and the terminator fit. -/
theorem handleIrqBanning_eq : handleIrqBanning irqs =
    if (banText (flaggedIrqs irqs)).length ≤ 1000 then
      some (BAN_IRQS ++ banText (flaggedIrqs irqs) ++ " NONE".toList)
    else none := by
  have headed : hasPrefix (forEach irqs getNewIrqBanValues BAN_IRQS) BAN_IRQS = true := by
    rw [forEach_getNewIrqBanValues, hasPrefix, List.isPrefixOf_iff_prefix]
    exact List.prefix_take_iff.mpr ⟨List.prefix_append BAN_IRQS _, by decide⟩
  rw [handleIrqBanning, headed, if_pos rfl, forEach_getNewIrqBanValues, appendCopy_take (by decide)]
  refine if_congr ?_ rfl rfl
  rw [List.length_append, show BAN_IRQS.length = 18 from rfl, show " NONE".toList.length = 5 from rfl,
    SETTINGS_SIZE]
  omega

end Message

section Decoding

theorem addClBannedIrq_spec (irq : ℤ) {bans : List ℤ} (distinct : bans.Nodup) :
    (addClBannedIrq irq bans).Nodup ∧ ∀ v, v ∈ addClBannedIrq irq bans ↔ v ∈ bans ∨ v = irq := by
  unfold addClBannedIrq
  split
  · rename_i known
    refine ⟨distinct, fun v => ⟨.inl, ?_⟩⟩
    rintro (old | rfl)
    · exact old
    · exact known
  · rename_i fresh
    refine ⟨List.nodup_append.mpr ⟨distinct, List.nodup_singleton irq, ?_⟩, fun v => ?_⟩
    · intro v old w new same
      rw [List.mem_singleton] at new
      exact fresh (new ▸ same ▸ old)
    · rw [List.mem_append, List.mem_singleton]

theorem ends_banText (vectors : List ℤ) {t : List Char} (ends : Ends t) : Ends (banText vectors ++ t) := by
  cases vectors with
  | nil => exact ends
  | cons v vectors => exact ends_blank

/-- The blank in front of a number is skipped, and the number is read. -/
theorem strtoul_banText {v : ℤ} (vectors : List ℤ) {t : List Char} (int : IsInt v) (ends : Ends t) :
    toInt (strtoul (banText (v :: vectors) ++ t)).1 = v ∧
      (strtoul (banText (v :: vectors) ++ t)).2 = banText vectors ++ t := by
  have behind := ends_banText vectors ends
  have text : banText (v :: vectors) ++ t = ' ' :: (showInt v ++ (banText vectors ++ t)) := by
    simp [banText]
  have found : scanNumber (showInt v ++ (banText vectors ++ t)) ≠ none := by
    rw [scanNumber_showInt behind]
    exact Option.some_ne_none _
  rw [text, strtoul_blank found]
  exact strtoul_showInt int behind

/-- The numbers behind the first are added up to the first 0. -/
theorem addBans_banText {vectors bans : List ℤ} {t : List Char} (ints : ∀ v ∈ vectors, IsInt v) (irq : ℤ)
    {fuel : ℕ} (enough : vectors.length < fuel) (distinct : bans.Nodup) (ends : Ends t)
    (stop : toInt (strtoul t).1 = 0) :
    (addBans fuel irq (banText vectors ++ t) bans).Nodup ∧
      ∀ v, v ∈ addBans fuel irq (banText vectors ++ t) bans ↔
        v ∈ bans ∨ v = irq ∨ v ∈ vectors.takeWhile (· ≠ 0) := by
  induction vectors generalizing irq fuel bans with
  | nil =>
    obtain ⟨fuel, rfl⟩ := Nat.exists_eq_succ_of_ne_zero (Nat.ne_zero_of_lt enough)
    have added := addClBannedIrq_spec irq distinct
    rw [banText, List.flatMap_nil, List.nil_append, addBans, if_pos stop]
    simpa using added
  | cons w vectors ih =>
    obtain ⟨fuel, rfl⟩ := Nat.exists_eq_succ_of_ne_zero (Nat.ne_zero_of_lt enough)
    have added := addClBannedIrq_spec irq distinct
    have scanned := strtoul_banText vectors (ints w List.mem_cons_self) ends
    rw [addBans, scanned.1, scanned.2]
    by_cases zero : w = 0
    · rw [if_pos zero, List.takeWhile_cons_of_neg (by simp [zero])]
      simpa using added
    · rw [if_neg zero, List.takeWhile_cons_of_pos (by simpa using zero)]
      have rest := ih (fun v member => ints v (List.mem_cons_of_mem w member)) w
        (Nat.lt_of_succ_lt_succ enough) added.1
      refine ⟨rest.1, fun v => ?_⟩
      rw [rest.2, added.2, List.mem_cons, or_assoc]

/-- Each number of a list takes a character at least. -/
theorem length_le_banText (vectors : List ℤ) : vectors.length ≤ (banText vectors).length := by
  rw [banText, List.length_flatMap]
  refine le_trans ?_ (List.length_le_sum_of_one_le _ ?_)
  · rw [List.length_map]
  · intro n member
    obtain ⟨v, _, rfl⟩ := List.mem_map.mp member
    exact Nat.succ_le_succ (Nat.zero_le _)

variable {s : State} {c : Settings} {vectors : List ℤ}

/-- The daemon's side of a message that bans interrupts. -/
theorem sockHandle_banIrqs (irqString : List Char) (listed : hasPrefix irqString "NONE".toList = false) :
    (sockHandle s (BAN_IRQS ++ irqString) c).1.clBannedIrqs =
      addBans (irqString.length + 1) (toInt (strtoul irqString).1) (strtoul irqString).2 [] := by
  have headed : hasPrefix (BAN_IRQS ++ irqString) "settings ".toList = true := rfl
  have sleep : hasPrefix (BAN_IRQS ++ irqString) "settings sleep ".toList = false := rfl
  have ban : hasPrefix (BAN_IRQS ++ irqString) "settings ban irqs ".toList = true := rfl
  have behind : (BAN_IRQS ++ irqString).drop "settings ban irqs ".length = irqString := rfl
  simp only [sockHandle, headed, if_true, handleSettings, sleep, ban, behind, listed, Bool.false_eq_true, if_false]

theorem sockHandle_irqBans (vectors : List ℤ) :
    (sockHandle s (BAN_IRQS ++ banText vectors ++ " NONE".toList) c).1.clBannedIrqs =
      let irqString := banText vectors ++ " NONE".toList
      addBans (irqString.length + 1) (toInt (strtoul irqString).1) (strtoul irqString).2 [] := by
  have listed : hasPrefix (banText vectors ++ " NONE".toList) "NONE".toList = false := by
    cases vectors with
    | nil => rfl
    | cons v vectors => rfl
  rw [List.append_assoc]
  exact sockHandle_banIrqs _ listed

/-- What the daemon bans for a list with a first number. -/
theorem sockHandle_irqBans_cons {first : ℤ} (ints : ∀ v ∈ first :: vectors, IsInt v) :
    let bans := (sockHandle s (BAN_IRQS ++ banText (first :: vectors) ++ " NONE".toList) c).1.clBannedIrqs
    bans.Nodup ∧ ∀ v, v ∈ bans ↔ v = first ∨ v ∈ vectors.takeWhile (· ≠ 0) := by
  have ends : Ends " NONE".toList := ends_blank
  have scanned := strtoul_banText vectors (ints first List.mem_cons_self) ends
  have enough : vectors.length < (banText (first :: vectors) ++ " NONE".toList).length + 1 := by
    have bound := length_le_banText (first :: vectors)
    rw [List.length_cons] at bound
    rw [List.length_append]
    omega
  have added := addBans_banText (fun v member => ints v (List.mem_cons_of_mem first member)) first
    enough List.nodup_nil ends (by decide)
  rw [sockHandle_irqBans]
  simp only [scanned.1, scanned.2]
  refine ⟨added.1, fun v => ?_⟩
  rw [added.2]
  simp

end Decoding

/-- After the exchange exactly these interrupts are banned, each once. -/
def BansExactly (message : Option (List Char)) (s : State) (c : Settings) (vectors : List ℤ) : Prop :=
  ∃ text, message = some text ∧ (sockHandle s text c).1.clBannedIrqs.Nodup ∧
    ∀ v, v ∈ (sockHandle s text c).1.clBannedIrqs ↔ v ∈ vectors

/-- With a first number, the exchange is faithful when each number equals it or is scanned. -/
theorem bansExactly_cons {s : State} {c : Settings} {first : ℤ} {rest : List ℤ} (ints : ∀ v ∈ first :: rest, IsInt v) :
    BansExactly (some (BAN_IRQS ++ banText (first :: rest) ++ " NONE".toList)) s c (first :: rest) ↔
      ∀ v ∈ rest, v = first ∨ v ∈ rest.takeWhile (· ≠ 0) := by
  have bans := sockHandle_irqBans_cons (s := s) (c := c) ints
  constructor
  · rintro ⟨text, sent, _, exactly⟩ v member
    obtain rfl := Option.some.inj sent
    exact (bans.2 v).mp ((exactly v).mpr (List.mem_cons_of_mem first member))
  · intro kept
    refine ⟨_, rfl, bans.1, fun v => ?_⟩
    rw [bans.2, List.mem_cons]
    refine or_congr_right' fun _ => ⟨fun member => List.takeWhile_subset _ member, fun member => ?_⟩
    exact (kept v member).resolve_left ‹_›

/-- In an ascending list, a first 0 can only be followed by more of it. -/
theorem scanned_iff {first : ℤ} {rest : List ℤ} (sorted : (first :: rest).Pairwise (· ≤ ·)) :
    (∀ v ∈ rest, v = first ∨ v ∈ rest.takeWhile (· ≠ 0)) ↔ 0 ∉ rest ∨ ∀ v ∈ first :: rest, v = 0 := by
  constructor
  · intro kept
    by_cases zero : (0 : ℤ) ∈ rest
    · right
      have stopped : (0 : ℤ) ∉ rest.takeWhile (· ≠ 0) := by
        intro member
        have passed := List.mem_takeWhile_imp member
        simp at passed
      have start : 0 = first := (kept 0 zero).resolve_right stopped
      subst start
      cases rest with
      | nil => contradiction
      | cons w rest =>
        have low : 0 ≤ w := (List.pairwise_cons.mp sorted).1 w List.mem_cons_self
        have high : w ≤ 0 := by
          rcases List.mem_cons.mp zero with same | later
          · exact le_of_eq same.symm
          · exact (List.pairwise_cons.mp (List.pairwise_cons.mp sorted).2).1 0 later
        have none : (w :: rest).takeWhile (· ≠ 0) = [] :=
          List.takeWhile_cons_of_neg (by simp [le_antisymm high low])
        intro v member
        rcases List.mem_cons.mp member with same | later
        · exact same
        · have kept := kept v later
          rw [none] at kept
          exact kept.resolve_right List.not_mem_nil
    · exact .inl zero
  · rintro (nonzero | zeros) v member
    · have whole : rest.takeWhile (· ≠ 0) = rest := by
        rw [List.takeWhile_eq_self_iff]
        intro w memberW
        simpa using fun same : w = 0 => nonzero (same ▸ memberW)
      rw [whole]
      exact .inr member
    · left
      rw [zeros v (List.mem_cons_of_mem first member), zeros first List.mem_cons_self]

/-- The exchange is faithful exactly when something is flagged, the list fits the buffer, and no
scanned number behind the first is 0, save for repetitions of a first 0. -/
theorem irqBans_roundTrip (irqs : List UiIrq) (s : State) (c : Settings)
    (ascending : irqs.Pairwise fun a b => a.vector ≤ b.vector) (ints : ∀ irq ∈ irqs, IsInt irq.vector) :
    BansExactly (handleIrqBanning irqs) s c (flaggedIrqs irqs) ↔
      flaggedIrqs irqs ≠ [] ∧ (banText (flaggedIrqs irqs)).length ≤ 1000 ∧
        (0 ∉ (flaggedIrqs irqs).tail ∨ ∀ v ∈ flaggedIrqs irqs, v = 0) := by
  have sorted : (flaggedIrqs irqs).Pairwise (· ≤ ·) := by
    rw [flaggedIrqs, List.pairwise_map]
    exact ascending.filter _
  have ranges : ∀ v ∈ flaggedIrqs irqs, IsInt v := by
    intro v member
    obtain ⟨irq, flagged, rfl⟩ := List.mem_map.mp member
    exact ints irq (List.mem_filter.mp flagged).1
  rw [handleIrqBanning_eq]
  generalize flaggedIrqs irqs = vectors at sorted ranges ⊢
  by_cases fits : (banText vectors).length ≤ 1000
  · rw [if_pos fits]
    cases vectors with
    | nil =>
      refine iff_of_false ?_ fun holds => holds.1 rfl
      rintro ⟨text, sent, _, bans⟩
      obtain rfl := Option.some.inj sent
      rw [sockHandle_irqBans] at bans
      exact List.not_mem_nil ((bans 0).mp (by decide))
    | cons first rest =>
      rw [bansExactly_cons ranges, scanned_iff sorted, List.tail_cons]
      exact ⟨fun holds => ⟨List.cons_ne_nil first rest, fits, holds⟩, fun holds => holds.2.2⟩
  · rw [if_neg fits]
    refine iff_of_false ?_ fun holds => fits holds.2.1
    rintro ⟨text, sent, _⟩
    contradiction

theorem irqBans_roundTrip_two :
    BansExactly (handleIrqBanning [{ vector := 24, isBanned := true }, { vector := 30, isBanned := true }])
      {} { sleepInterval := 10 } [24, 30] :=
  (irqBans_roundTrip [{ vector := 24, isBanned := true }, { vector := 30, isBanned := true }] {}
    { sleepInterval := 10 } (by decide) (by decide)).mpr (by decide)

/-- With nothing flagged the message is `"settings ban irqs  NONE"`, and interrupt 0 gets banned. -/
theorem irqBans_roundTrip_none :
    ¬ BansExactly (handleIrqBanning [{ vector := 24 }]) {} { sleepInterval := 10 }
      (flaggedIrqs [{ vector := 24 }]) := by
  rintro ⟨text, sent, _, bans⟩
  have message : handleIrqBanning [{ vector := 24 }] = some "settings ban irqs  NONE".toList := by decide
  obtain rfl := Option.some.inj (message.symm.trans sent)
  exact absurd ((bans 0).mp (by decide)) (by decide)

end Irqbalance
