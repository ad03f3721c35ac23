import Irqbalance.Proofs.ReplySizes

/-! # The sleep interval from the dialogue to the daemon

A text that is typed into the dialogue is read by `strtol` and cut to an `int` before it is shown and sent. The
daemon takes the number that is shown unless it is below 1; the dialogue accepts such numbers, since it tests
for them before the cut.
-/

namespace Irqbalance

open CText

variable {LINES : ℤ} {ui : UiState} {c : Settings} {s : State} {text : List Char}

section Numbers

theorem toInt_toU64 (z : ℤ) : toInt (toU64 z) = toInt z := by
  have value : ((toU64 z : ℕ) : ℤ) = z % 2 ^ 64 := Int.toNat_of_nonneg (Int.emod_nonneg z (by decide))
  have divides : ((2 ^ 32 : ℕ) : ℤ) ∣ 2 ^ 64 := ⟨2 ^ 32, rfl⟩
  rw [toInt, toInt, value, ← Int.emod_bmod, Int.emod_emod_of_dvd z divides, Int.emod_bmod]

theorem toInt_toInt (z : ℤ) : toInt (toInt z) = toInt z := Int.bmod_bmod

theorem toU64_lt (z : ℤ) : toU64 z < 2 ^ 64 := by
  have bound : z % 2 ^ 64 < 2 ^ 64 := Int.emod_lt_of_pos z (by decide)
  unfold toU64
  omega

theorem toU64_injOn {v w : ℤ} (first : IsInt v) (second : IsInt w) (same : toU64 v = toU64 w) : v = w := by
  have cut := congrArg (fun n : ℕ => toInt n) same
  simp only [toInt_toU64, toInt_of_isInt first, toInt_of_isInt second] at cut
  exact cut

end Numbers

section Dialogue

/-- The settings after messages that are handled one by one. -/
def handled (s : State) (c : Settings) (messages : List (List Char)) : Settings :=
  messages.foldl (fun c message => (sockHandle s message c).1) c

/-- The keys of a text. -/
def typing (text : List Char) : List (Replies × Key) := text.map fun c => ({}, .char c)

/-- A character that the dialogue adds to its text. -/
def Typed (c : Char) : Prop :=
  c ≠ '\n' ∧ c ≠ '\r' ∧ c ≠ 'q' ∧ c ≠ Char.ofNat 27 ∧ c ≠ '\x00'

instance instDecidableTyped (c : Char) : Decidable (Typed c) := inferInstanceAs (Decidable (_ ∧ _))

theorem runUi_typing {input : List Char} (mode : ui.mode = .sleep input) (typed : ∀ c ∈ text, Typed c)
    (short : input.length + text.length < 20) :
    runUi LINES ui (typing text) = some { ui with mode := .sleep (input ++ text) } := by
  induction text generalizing ui input with
  | nil =>
    change some ui = _
    rw [List.append_nil, ← mode]
  | cons c text ih =>
    obtain ⟨newline, enter, quit, escape, -⟩ := typed c List.mem_cons_self
    rw [List.length_cons] at short
    have pressed : ui.press LINES {} (.char c) = some { ui with mode := .sleep (input ++ [c]) } := by
      have other : (Key.char c).isEnter = false := by
        simp only [Key.isEnter, Bool.or_eq_false_iff, beq_eq_false_iff_ne, ne_eq, Key.char.injEq]
        exact ⟨newline, enter⟩
      rw [UiState.press, mode]
      simp only [UiState.sleepKey, other, Key.escape, reduceCtorEq, Key.char.injEq, quit, escape, if_false,
        Bool.false_eq_true, Key.toChar]
      exact if_pos (by omega)
    change (ui.press LINES {} (.char c)).bind (fun ui => runUi LINES ui (typing text)) = _
    rw [pressed, Option.bind_some, ih rfl (fun c member => typed c (List.mem_cons_of_mem _ member)) (by
      rw [List.length_append, List.length_singleton]
      omega)]
    rw [List.append_assoc, List.singleton_append]

/-- The daemon's side of a message that sets the interval. -/
theorem sockHandle_settingsSleep (interval : List Char) :
    (sockHandle s ("settings sleep ".toList ++ interval) c).1 =
      if toInt (strtoul interval).1 ≥ 1 then { c with sleepInterval := toInt (strtoul interval).1 } else c := by
  have headed : hasPrefix ("settings sleep ".toList ++ interval) "settings ".toList = true := rfl
  have sleep : hasPrefix ("settings sleep ".toList ++ interval) "settings sleep ".toList = true := rfl
  have behind : ("settings sleep ".toList ++ interval).drop "settings sleep ".length = interval := rfl
  simp only [sockHandle, headed, if_true, handleSettings, sleep, behind]

theorem handled_sleep {n : ℕ} (fits : n < 2 ^ 64) :
    handled s c ["settings sleep  ".toList ++ showNat n] =
      { c with sleepInterval := if 1 ≤ toInt n then toInt n else c.sleepInterval } := by
  have blank : "settings sleep  ".toList = "settings sleep ".toList ++ [' '] := rfl
  have read : strtoul ([' '] ++ (showNat n ++ [])) = (min n (2 ^ 64 - 1), []) :=
    strtoul_showNat (List.forall_mem_singleton.mpr rfl) ends_nil
  rw [List.append_nil, Nat.min_eq_left (by omega)] at read
  rw [handled, List.foldl_cons, List.foldl_nil, blank, List.append_assoc, sockHandle_settingsSleep, read]
  dsimp only
  split <;> rfl

/-- What the dialogue leaves: the number that `strtol` reads, cut to an `int`, is shown, and it is sent unless it was
shown before. -/
theorem setSleep_toU64 (ui : UiState) (z : ℤ) : ∃ messages, ui.setSleep (toU64 z) =
    { ui with
      mode := .keyLoop, sent := ui.sent ++ messages, setup := { ui.setup with sleep := toU64 (toInt z) } } ∧
    messages = if toU64 (toInt z) = ui.setup.sleep then [] else ["settings sleep  ".toList ++ showNat (toU64 (toInt z))] := by
  refine ⟨_, ?_, rfl⟩
  unfold UiState.setSleep
  rw [toInt_toU64]
  generalize toU64 (toInt z) = sleep
  dsimp only
  split
  · rename_i same
    rw [List.append_nil, same]
  · rfl

theorem validSleep_some {n : ℕ} (valid : validSleep text = some n) : n = toU64 (strtol text) := by
  unfold validSleep at valid
  split at valid
  · split at valid
    · exact (Option.some.inj valid).symm
    · contradiction
  · contradiction

/-- A text that is typed into the dialogue is refused, or it closes the dialogue; then the UI and the daemon agree on the
interval if and only if the number of the text, cut to an `int`, is positive. -/
theorem sleepInput_agrees (mode : ui.mode = .sleep []) (agree : toU64 c.sleepInterval = ui.setup.sleep)
    (positive : 1 ≤ c.sleepInterval) (int : IsInt c.sleepInterval) (typed : ∀ c ∈ text, Typed c)
    (short : text.length < 20) : ∃ ui', runUi LINES ui (typing text ++ typing ['\n']) = some ui' ∧
      if validSleep text = none then ui'.mode = .sleep [] ∧ ui'.sent = ui.sent
      else ∃ messages, ui'.mode = .keyLoop ∧ ui'.sent = ui.sent ++ messages ∧
        ui'.setup.sleep = toU64 (toInt (strtol text)) ∧
        handled s c messages =
          { c with sleepInterval := if 1 ≤ toInt (strtol text) then toInt (strtol text) else c.sleepInterval } ∧
        (toU64 (handled s c messages).sleepInterval = ui'.setup.sleep ↔ 1 ≤ toInt (strtol text)) := by
  have nul : cString text = text := cString_eq_self fun member => (typed _ member).2.2.2.2 rfl
  have entered : runUi LINES ui (typing text ++ typing ['\n']) =
      UiState.sleepKey { ui with mode := .sleep text } (.char '\n') text := by
    rw [runUi, List.foldlM_append]
    change (runUi LINES ui (typing text)).bind _ = _
    rw [runUi_typing mode typed (by rw [List.length_nil]; omega), Option.bind_some]
    change (UiState.press LINES _ {} (.char '\n')).bind some = _
    rw [Option.bind_fun_some, UiState.press]
    rfl
  rw [entered, UiState.sleepKey, if_neg (by decide), if_pos (by decide), nul]
  cases valid : validSleep text with
  | none =>
    refine ⟨_, rfl, ?_⟩
    rw [if_pos rfl]
    exact ⟨rfl, rfl⟩
  | some newSleep =>
    obtain rfl := validSleep_some valid
    obtain ⟨messages, left, sent⟩ := setSleep_toU64 { ui with mode := .sleep text } (strtol text)
    have cut : IsInt (toInt (strtol text)) := isInt_toInt _
    refine ⟨_, rfl, ?_⟩
    rw [if_neg (Option.some_ne_none _)]
    refine ⟨messages, ?_⟩
    rw [left]
    have kept : handled s c messages = { c with
        sleepInterval := if 1 ≤ toInt (strtol text) then toInt (strtol text) else c.sleepInterval } := by
      rw [sent]
      split
      · rename_i same
        rw [toU64_injOn cut int (same.trans agree.symm), if_pos positive]
        rfl
      · rw [handled_sleep (toU64_lt _), toInt_toU64, toInt_toInt]
    refine ⟨rfl, rfl, rfl, kept, ?_⟩
    rw [kept]
    dsimp only
    split
    · rename_i low
      exact iff_of_true rfl low
    · rename_i low
      refine iff_of_false (fun same => low ?_) low
      rw [← toU64_injOn int cut same]
      exact positive

/-- The dialogue on an interval of ten seconds. -/
def sleepDialogue : UiState where
  screen := .settings
  setup := ⟨10, [], []⟩
  mode := .sleep []

/-- A negative number closes the dialogue, and the daemon keeps its ten seconds. -/
theorem sleepInput_agrees_negative : ∃ ui', runUi 24 sleepDialogue (typing ['-', '5'] ++ typing ['\n']) = some ui' ∧
    if validSleep ['-', '5'] = none then ui'.mode = .sleep [] ∧ ui'.sent = []
    else ∃ messages, ui'.mode = .keyLoop ∧ ui'.sent = [] ++ messages ∧
      ui'.setup.sleep = toU64 (toInt (strtol ['-', '5'])) ∧
      handled {} { sleepInterval := 10 } messages =
        { sleepInterval := if 1 ≤ toInt (strtol ['-', '5']) then toInt (strtol ['-', '5']) else 10 } ∧
      (toU64 (handled {} { sleepInterval := 10 } messages).sleepInterval = ui'.setup.sleep ↔
        1 ≤ toInt (strtol ['-', '5'])) :=
  have typed : ∀ c ∈ ['-', '5'], Typed c :=
    List.forall_mem_cons.mpr ⟨by decide, List.forall_mem_singleton.mpr (by decide)⟩
  sleepInput_agrees rfl rfl (by decide) (by decide) typed (by decide)

end Dialogue

end Irqbalance
