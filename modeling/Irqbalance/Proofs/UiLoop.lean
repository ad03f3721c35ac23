import Irqbalance.Proofs.ReplySizes

/-! # The cursors of the dialogues

In every run of keys the cursor of a dialogue is on an entry of the list, and on the line on which that entry
is drawn. Every entry can be reached with the cursor keys, unless the list is longer by one than what the
screen holds beside the texts below it: nothing is scrolled then, and the texts hide the last entry.
-/

namespace Irqbalance

open CText (toInt toInt_of_isInt)

variable {LINES : ℤ} {d : BanDialogue} {len : ℕ} {c : ListCursor}

section Cursors

/-- The number of the entry under the cursor. -/
def BanDialogue.entry (d : BanDialogue) (c : ListCursor) : ℤ := c.position + c.offset - d.top

/-- The cursor is on one of the `len` entries of the list, and on a line above the texts. -/
structure BanDialogue.OnList (d : BanDialogue) (LINES : ℤ) (len : ℕ) (c : ListCursor) : Prop where
  top : d.top ≤ c.position
  bottom : c.position ≤ LINES - 4
  low : 0 ≤ c.offset
  high : c.offset ≤ clipOffset len (LINES - d.reserved)
  maxOffset :
    c.maxOffset = clipOffset len (LINES - d.reserved) ∨ c.maxOffset = clipOffset len (LINES - d.margin)
  entry : d.entry c < len ∨ len = 0 ∧ d.entry c = 0
  hidden : (len : ℤ) = LINES - d.margin → c.offset = 0 ∧ c.maxOffset = 0

/-- What the values of a dialogue have to do with each other. -/
structure BanDialogue.Laid (d : BanDialogue) : Prop where
  top : d.top ≤ 6
  reserved : d.reserved = d.top + 3
  margin : d.margin = d.top + 2
  goesDown : ∀ {LINES : ℤ} {len : ℕ} {c : ListCursor}, LINES < 2 ^ 31 → len < 2 ^ 31 → d.OnList LINES len c →
    c.position < LINES - 4 → (d.goesDown len c = true ↔ d.entry c + 1 < len)

theorem laid_cpuDialogue : cpuDialogue.Laid := by
  refine ⟨le_rfl, rfl, rfl, fun {LINES len c} screen few on above => ?_⟩
  obtain ⟨top, -, low, high, -, entry, -⟩ := on
  simp only [cpuDialogue, BanDialogue.entry, clipOffset] at top high entry ⊢
  have small : ((len : ℤ) + 4 - c.offset) % 2 ^ 32 = len + 4 - c.offset := by
    apply Int.emod_eq_of_lt <;> omega
  rw [decide_eq_true_iff, small]
  omega

theorem laid_irqDialogue : irqDialogue.Laid := by
  refine ⟨by decide, rfl, rfl, fun {LINES len c} screen few on above => ?_⟩
  obtain ⟨top, -, low, high, -, entry, -⟩ := on
  simp only [irqDialogue, BanDialogue.entry, clipOffset] at top high entry ⊢
  have small : (len + 3) % 2 ^ 32 = len + 3 := Nat.mod_eq_of_lt (by omega)
  rw [decide_eq_true_iff, small]
  omega

section Moving

/-- The keys that move the cursor. -/
def BanDialogue.move (d : BanDialogue) (LINES : ℤ) (len : ℕ) (c : ListCursor) : Key → ListCursor
  | .up => d.keyUp LINES len c
  | .down => d.keyDown LINES len c
  | _ => c

def BanDialogue.moved (d : BanDialogue) (LINES : ℤ) (len : ℕ) (c : ListCursor) (keys : List Key) : ListCursor :=
  keys.foldl (d.move LINES len) c

variable (laid : d.Laid) (screen : 10 ≤ LINES ∧ LINES < 2 ^ 31) (few : len < 2 ^ 31) (on : d.OnList LINES len c)

include laid on

theorem BanDialogue.OnList.keyUp : d.OnList LINES len (d.keyUp LINES len c) ∧
    d.entry (d.keyUp LINES len c) = max 0 (d.entry c - 1) := by
  obtain ⟨top, bottom, low, high, maxOffset, entry, hidden⟩ := on
  have reserved := laid.reserved
  have margin := laid.margin
  simp only [BanDialogue.entry, clipOffset, BanDialogue.keyUp, BanDialogue.scroll] at *
  split_ifs with inner scrolls
  · refine ⟨⟨?_, ?_, low, high, maxOffset, ?_, hidden⟩, ?_⟩ <;> dsimp only [BanDialogue.entry] <;> omega
  · refine ⟨⟨top, bottom, ?_, ?_, .inl rfl, ?_, ?_⟩, ?_⟩ <;> dsimp only [BanDialogue.entry, clipOffset] <;> omega
  · refine ⟨⟨top, bottom, low, high, maxOffset, entry, hidden⟩, ?_⟩
    omega

/-- As many times up as the cursor is below the first entry. -/
theorem BanDialogue.OnList.moved_up (n : ℕ) (below : d.entry c = n) :
    d.entry (d.moved LINES len c (List.replicate n .up)) = 0 := by
  induction n generalizing c with
  | zero => exact below
  | succ n ih =>
    obtain ⟨still, entry⟩ := on.keyUp laid
    apply ih still
    rw [entry, below]
    omega

include screen few

theorem BanDialogue.OnList.keyDown : d.OnList LINES len (d.keyDown LINES len c) := by
  have goesDown := laid.goesDown screen.2 few on
  obtain ⟨top, bottom, low, high, maxOffset, entry, hidden⟩ := on
  have reserved := laid.reserved
  have margin := laid.margin
  have small : (LINES - 4) % 2 ^ 64 = LINES - 4 := by apply Int.emod_eq_of_lt <;> omega
  simp only [BanDialogue.entry, clipOffset, BanDialogue.keyDown, BanDialogue.scroll, small] at *
  split_ifs with above goes scrolls
  · have inside := (goesDown above).mp goes
    refine ⟨?_, ?_, low, high, maxOffset, ?_, hidden⟩ <;> dsimp only [BanDialogue.entry] <;> omega
  · exact ⟨top, bottom, low, high, maxOffset, entry, hidden⟩
  · refine ⟨top, bottom, ?_, ?_, .inl rfl, ?_, ?_⟩ <;> dsimp only [BanDialogue.entry, clipOffset] <;> omega
  · exact ⟨top, bottom, low, high, maxOffset, entry, hidden⟩

/-- The list is scrolled when the cursor is to go on from the last line. -/
def BanDialogue.Scrolls (d : BanDialogue) (LINES : ℤ) (len : ℕ) (c : ListCursor) : Prop :=
  c.offset < c.maxOffset ∨ c.maxOffset = clipOffset len (LINES - d.reserved)

/-- `KEY_DOWN` takes the cursor to the next entry. -/
theorem BanDialogue.OnList.keyDown_entry (next : d.entry c + 1 < len)
    (able : (c.position : ℤ) < LINES - 4 ∨ d.Scrolls LINES len c) :
    d.entry (d.keyDown LINES len c) = d.entry c + 1 ∧
      (d.Scrolls LINES len c → d.Scrolls LINES len (d.keyDown LINES len c)) ∧
      (¬ d.Scrolls LINES len c → (d.keyDown LINES len c).offset = c.offset) := by
  have goesDown := laid.goesDown screen.2 few on
  obtain ⟨top, bottom, low, high, maxOffset, entry, hidden⟩ := on
  have reserved := laid.reserved
  have margin := laid.margin
  have small : (LINES - 4) % 2 ^ 64 = LINES - 4 := by apply Int.emod_eq_of_lt <;> omega
  simp only [BanDialogue.entry, BanDialogue.Scrolls, clipOffset, BanDialogue.keyDown, BanDialogue.scroll, small] at *
  split_ifs with above goes scrolls
  · refine ⟨?_, id, fun _ => rfl⟩
    dsimp only
    omega
  · exact absurd ((goesDown above).mpr next) goes
  · refine ⟨?_, fun _ => .inr rfl, fun still => absurd (.inl scrolls) still⟩
    dsimp only
    omega
  · omega

omit on

theorem BanDialogue.OnList.move (on : d.OnList LINES len c) (key : Key) :
    d.OnList LINES len (d.move LINES len c key) := by
  unfold BanDialogue.move
  split
  · exact (on.keyUp laid).1
  · exact on.keyDown laid screen few
  · exact on

theorem BanDialogue.OnList.moved (on : d.OnList LINES len c) (keys : List Key) :
    d.OnList LINES len (d.moved LINES len c keys) := by
  induction keys generalizing c with
  | nil => exact on
  | cons key keys ih => exact ih (on.move laid screen few key)

/-- And down again, where the list is scrolled or all of the way is on the screen. -/
theorem BanDialogue.OnList.moved_down (n : ℕ) (on : d.OnList LINES len c) (inside : d.entry c + n < len)
    (able : d.Scrolls LINES len c ∨ c.offset = 0 ∧ d.top + d.entry c + n ≤ LINES - 4) :
    d.entry (d.moved LINES len c (List.replicate n .down)) = d.entry c + n := by
  induction n generalizing c with
  | zero => exact (add_zero _).symm
  | succ n ih =>
    have line : d.entry c = c.position + c.offset - d.top := rfl
    obtain ⟨entry, scrolls, screens⟩ := on.keyDown_entry laid screen few (by omega) <| by
      rcases able with scrolls | ⟨first, fits⟩
      · exact .inr scrolls
      · exact .inl (by omega)
    have moved := ih (on.keyDown laid screen few) (by omega) <| by
      by_cases scrolled : d.Scrolls LINES len c
      · exact .inl (scrolls scrolled)
      · obtain ⟨first, fits⟩ := able.resolve_left scrolled
        exact .inr ⟨(screens scrolled).trans first, by omega⟩
    rw [List.replicate_succ]
    refine moved.trans ?_
    omega

/-- The cursor keys reach every entry but the last one of a list that is longer by one than the screen. -/
theorem BanDialogue.OnList.reaches (on : d.OnList LINES len c) {k : ℕ} (inside : k < len) :
    (∃ keys : List Key, (∀ key ∈ keys, key = .up ∨ key = .down) ∧ d.entry (d.moved LINES len c keys) = k) ↔
      ¬ ((len : ℤ) = LINES - d.margin ∧ k + 1 = len) := by
  have reserved := laid.reserved
  have margin := laid.margin
  constructor
  · rintro ⟨keys, -, reached⟩ ⟨long, last⟩
    have on := on.moved laid screen few keys
    have bottom := on.bottom
    have hidden := (on.hidden long).1
    rw [BanDialogue.entry] at reached
    omega
  · intro shown
    obtain ⟨n, below⟩ : ∃ n : ℕ, d.entry c = n := Int.eq_ofNat_of_zero_le <| by
      have top := on.top
      have low := on.low
      rw [BanDialogue.entry]
      omega
    refine ⟨List.replicate n .up ++ List.replicate k .down, fun key member => ?_, ?_⟩
    · rcases List.mem_append.mp member with up | down
      · exact .inl (List.eq_of_mem_replicate up)
      · exact .inr (List.eq_of_mem_replicate down)
    have first := on.moved_up laid n below
    have on := on.moved laid screen few (List.replicate n .up)
    rw [BanDialogue.moved, List.foldl_append]
    generalize heq : List.foldl (d.move LINES len) c (List.replicate n .up) = c' at *
    rw [BanDialogue.moved, heq] at first on
    have moved := on.moved_down laid screen few k (by omega) <| by
      obtain ⟨top, -, low, -, maxOffset, -, hidden⟩ := on
      rw [BanDialogue.entry] at first
      simp only [BanDialogue.Scrolls, clipOffset, BanDialogue.entry] at maxOffset ⊢
      omega
    rw [first, zero_add] at moved
    exact moved

end Moving

/-- A dialogue opens on the first entry that is shown. -/
theorem BanDialogue.onList_opened {o m : ℤ} (d : BanDialogue) (laid : d.Laid) (screen : 10 ≤ LINES)
    (low : 0 ≤ o) (high : o ≤ clipOffset len (LINES - d.reserved)) 
    (maxOffset : m = clipOffset len (LINES - d.margin))
    (hidden : (len : ℤ) = LINES - d.margin → o = 0) : d.OnList LINES len ⟨d.top, o, m⟩ := by
  have top := laid.top
  have reserved := laid.reserved
  have margin := laid.margin
  simp only [clipOffset] at high maxOffset
  refine ⟨le_rfl, ?_, low, high, .inr maxOffset, ?_, ?_⟩ <;> dsimp only [BanDialogue.entry] <;> omega

end Cursors

section Screens

variable {ui ui' : UiState} {r : Replies} {reply : Option (List Char)} {key : Key}

/-- The text has fewer than `2 ^ 28` characters. -/
def ShortReply (reply : Option (List Char)) : Prop := ∀ text ∈ reply, text.length < 2 ^ 28

/-- The replies that a key brings about are short. -/
structure Replies.Short (r : Replies) : Prop where
  setup : ShortReply r.setup
  setupAgain : ShortReply r.setupAgain
  stats : ShortReply r.stats

/-- What has been read, and the lists made of it, fit in the integers that count them. -/
structure UiState.Small (ui : UiState) : Prop where
  bannedIrqs : ui.setup.bannedIrqs.length < 2 ^ 28
  bannedCpus : ui.setup.bannedCpus.length < 2 ^ 30
  tree : linesAll ui.tree < 2 ^ 28
  allCpus : ui.allCpus.length < 2 ^ 31
  allIrqs : ui.allIrqs.length < 2 ^ 31

/-- Where the key loop shows a list of `len` entries. -/
structure BanDialogue.Shows (d : BanDialogue) (LINES : ℤ) (len : ℕ) (ui : UiState) : Prop where
  high : ui.offset ≤ clipOffset len (LINES - d.reserved)
  maxOffset : ui.maxOffset = clipOffset len (LINES - d.margin)
  hidden : (len : ℤ) = LINES - d.margin → ui.offset = 0

/-- What holds between two keys on the screen that is shown. -/
structure UiState.Kept (LINES : ℤ) (ui : UiState) : Prop where
  small : ui.Small
  low : 0 ≤ ui.offset
  maxOffset : 0 ≤ ui.maxOffset
  settings : ui.screen = .settings → cpuDialogue.Shows LINES ui.allCpus.length ui
  setupIrqs : ui.screen = .setupIrqs → irqDialogue.Shows LINES ui.allIrqs.length ui ∧
    ui.allIrqs.length = (ui.setup.bannedIrqs ++ copiedIrqsAll ui.tree).length

/-- What holds while a dialogue is open. -/
def UiState.Open (LINES : ℤ) (ui : UiState) : Prop :=
  match ui.mode with
  | .keyLoop => True
  | .cpus c tmp => ui.screen = .settings ∧ tmp.length = ui.allCpus.length ∧ cpuDialogue.OnList LINES tmp.length c
  | .irqs c tmp => ui.screen = .setupIrqs ∧ tmp.length = ui.allIrqs.length ∧ irqDialogue.OnList LINES tmp.length c
  | .sleep _ => ui.screen = .settings

/-- Other lists may be shown, if they are as short. -/
theorem UiState.Small.listed (small : ui.Small) {cpus : List CpuBan} {irqs : List UiIrq} (fewCpus : cpus.length < 2 ^ 31)
    (fewIrqs : irqs.length < 2 ^ 31) {screen : Screen} {o m : ℤ} {mode : Mode} {sent : List (List Char)} :
    UiState.Small { ui with
      screen := screen, offset := o, maxOffset := m, allCpus := cpus, allIrqs := irqs, mode := mode, sent := sent } :=
  ⟨small.bannedIrqs, small.bannedCpus, small.tree, fewCpus, fewIrqs⟩

/-- How the lists are shown does not matter for it. -/
theorem UiState.Small.shown (small : ui.Small) {screen : Screen} {o m : ℤ} {mode : Mode} {sent : List (List Char)} :
    UiState.Small { ui with screen := screen, offset := o, maxOffset := m, mode := mode, sent := sent } :=
  small.listed small.allCpus small.allIrqs

/-- What reads the keys and what has been sent do not matter for it. -/
theorem UiState.Kept.other (kept : ui.Kept LINES) {mode : Mode} {sent : List (List Char)} :
    UiState.Kept LINES { ui with mode := mode, sent := sent } := by
  obtain ⟨small, low, maxOffset, settings, setupIrqs⟩ := kept
  exact ⟨small.shown, low, maxOffset,
    fun here => ⟨(settings here).high, (settings here).maxOffset, (settings here).hidden⟩, fun here =>
    ⟨⟨(setupIrqs here).1.high, (setupIrqs here).1.maxOffset, (setupIrqs here).1.hidden⟩, (setupIrqs here).2⟩⟩

theorem clipOffset_nonneg (rows : ℤ) : 0 ≤ clipOffset len rows := le_max_left 0 _

theorem UiState.readSetup_some (small : ui.Small) (short : ShortReply reply) (read : ui.readSetup reply = some ui') :
    ∃ setup, ui' = { ui with setup := setup } ∧ ui'.Small := by
  unfold UiState.readSetup at read
  split at read
  · cases read
    exact ⟨ui.setup, rfl, small⟩
  · cases read
    exact ⟨ui.setup, rfl, small⟩
  · rename_i text _
    obtain ⟨setup, parsed, rfl⟩ := Option.map_eq_some_iff.mp read
    have few := short text rfl
    obtain ⟨irqs, cpus⟩ := parseSetup_length parsed
    refine ⟨setup, rfl, ?_, ?_, small.tree, small.allCpus, small.allIrqs⟩ <;> dsimp only <;> omega

theorem UiState.readStats_some (small : ui.Small) (short : ShortReply reply) (read : ui.readStats reply = some ui') :
    ∃ tree, ui' = { ui with tree := tree } ∧ ui'.Small := by
  have none : UiState.Small { ui with tree := [] } :=
    ⟨small.bannedIrqs, small.bannedCpus, Nat.two_pow_pos 28, small.allCpus, small.allIrqs⟩
  unfold UiState.readStats at read
  split at read
  · cases read
    exact ⟨[], rfl, none⟩
  · cases read
    exact ⟨[], rfl, none⟩
  · rename_i text _
    obtain ⟨tree, parsed, rfl⟩ := Option.map_eq_some_iff.mp read
    exact ⟨tree, rfl, small.bannedIrqs, small.bannedCpus, (parseIntoTree_length parsed).trans_lt (short text rfl),
      small.allCpus, small.allIrqs⟩

theorem UiState.Small.listedCpus (small : ui.Small) : ui.listedCpus.length < 2 ^ 31 := by
  unfold UiState.listedCpus
  split
  · have nodes := length_cpuBansAll ui.tree
    have banned := small.bannedCpus
    have tree := small.tree
    rw [List.length_insertionSort, List.length_append, List.length_map]
    omega
  · exact small.allCpus

theorem UiState.Small.printAllCpus (small : ui.Small) : (ui.printAllCpus LINES).Small :=
  small.listed small.listedCpus small.allIrqs

/-- A list that is there is listed again; where there was none, the offset is 0. -/
theorem UiState.shows_printAllCpus (low : 0 ≤ ui.offset)
    (high : ui.offset ≤ clipOffset ui.allCpus.length (LINES - cpuDialogue.reserved)) (screen : 10 ≤ LINES)
    (hidden : (ui.allCpus.length : ℤ) = LINES - cpuDialogue.margin → ui.offset = 0) :
    cpuDialogue.Shows LINES (ui.printAllCpus LINES).allCpus.length (ui.printAllCpus LINES) := by
  have again : ui.listedCpus.length = ui.allCpus.length ∨ ui.offset = 0 := by
    cases cpus : ui.allCpus with
    | nil =>
      rw [cpus, clipOffset] at high
      change _ ≤ max 0 (((0 : ℕ) : ℤ) - (LINES - 9)) at high
      omega
    | cons cpu rest => exact .inl (by rw [UiState.listedCpus, cpus]; rfl)
  rcases again with same | first
  · refine ⟨?_, rfl, ?_⟩
    · exact same ▸ high
    · exact same ▸ hidden
  · exact ⟨first.le.trans (clipOffset_nonneg _), rfl, fun _ => first⟩

variable (screen : 10 ≤ LINES)

theorem UiState.kept_tree (small : ui.Small) (low : 0 ≤ ui.offset) (maxOffset : 0 ≤ ui.maxOffset)
    (tree : ui.screen = .tree) : ui.Kept LINES :=
  ⟨small, low, maxOffset, fun same => by rw [tree] at same; contradiction,
    fun same => by rw [tree] at same; contradiction⟩

include screen

theorem UiState.kept_settings (small : ui.Small) (low : 0 ≤ ui.offset)
    (high : ui.offset ≤ clipOffset ui.allCpus.length (LINES - cpuDialogue.reserved))
    (hidden : (ui.allCpus.length : ℤ) = LINES - cpuDialogue.margin → ui.offset = 0) (here : ui.screen = .settings) :
    (ui.printAllCpus LINES).Kept LINES :=
  ⟨small.printAllCpus, low, clipOffset_nonneg _, fun _ => ui.shows_printAllCpus low high screen hidden,
    fun same => by rw [UiState.printAllCpus, here] at same; contradiction⟩

omit screen in
theorem UiState.kept_setupIrqs (small : ui.Small) (low : 0 ≤ ui.offset)
    (high : ui.offset ≤ clipOffset ui.allIrqs.length (LINES - irqDialogue.reserved))
    (hidden : (ui.allIrqs.length : ℤ) = LINES - irqDialogue.margin → ui.offset = 0) (here : ui.screen = .setupIrqs)
    (same : ui.allIrqs.length = (ui.setup.bannedIrqs ++ copiedIrqsAll ui.tree).length) :
    (ui.printAllIrqs LINES).Kept LINES :=
  ⟨small.shown, low, clipOffset_nonneg _,
    fun other => by rw [UiState.printAllIrqs, here] at other; contradiction, fun _ => ⟨⟨high, rfl, hidden⟩, same⟩⟩

theorem UiState.settings_kept (shown : ui.settings LINES reply = some ui') (small : ui.Small) (low : 0 ≤ ui.offset)
    (high : ui.offset ≤ clipOffset ui.allCpus.length (LINES - cpuDialogue.reserved))
    (hidden : (ui.allCpus.length : ℤ) = LINES - cpuDialogue.margin → ui.offset = 0) (here : ui.screen = .settings)
    (short : ShortReply reply) :
    ui'.Kept LINES ∧ ui'.screen = .settings ∧ ui'.mode = ui.mode := by
  obtain ⟨read, parsed, rfl⟩ := Option.map_eq_some_iff.mp shown
  obtain ⟨setup, rfl, small⟩ := UiState.readSetup_some small short parsed
  exact ⟨UiState.kept_settings screen small low high hidden here, here, rfl⟩

omit screen in
theorem UiState.displayTree_kept (shown : ui.displayTree LINES r = some ui') (small : ui.Small) (low : 0 ≤ ui.offset)
    (here : ui.screen = .tree) (short : r.Short) : ui'.Kept LINES ∧ ui'.mode = ui.mode := by
  obtain ⟨read, setup, shown⟩ := Option.bind_eq_some_iff.mp shown
  obtain ⟨read', stats, rfl⟩ := Option.map_eq_some_iff.mp shown
  obtain ⟨setup, rfl, small⟩ := UiState.readSetup_some small short.setup setup
  obtain ⟨tree, rfl, small⟩ := UiState.readStats_some small short.stats stats
  exact ⟨UiState.kept_tree small.shown low (clipOffset_nonneg _) here, rfl⟩

omit screen in
theorem UiState.setupIrqs_kept (small : ui.Small) (low : 0 ≤ ui.offset)
    (high : ui.offset ≤ clipOffset (ui.setup.bannedIrqs ++ copiedIrqsAll ui.tree).length (LINES - irqDialogue.reserved))
    (hidden : ((ui.setup.bannedIrqs ++ copiedIrqsAll ui.tree).length : ℤ) = LINES - irqDialogue.margin →
      ui.offset = 0) (here : ui.screen = .setupIrqs) : (ui.setupIrqs LINES).Kept LINES := by
  have few : (ui.setup.bannedIrqs ++ copiedIrqsAll ui.tree).length < 2 ^ 31 := by
    have copied := length_copiedIrqsAll ui.tree
    have banned := small.bannedIrqs
    have tree := small.tree
    rw [List.length_append]
    omega
  rw [← List.length_insertionSort (fun first second => first.vector ≤ second.vector)] at high hidden few
  exact UiState.kept_setupIrqs (small.listed small.allCpus few) low high hidden here (List.length_insertionSort _ _)

omit screen in
/-- The offset moves within what the list allows. -/
theorem BanDialogue.Shows.scrolled {o : ℤ} (laid : d.Laid) (shows : d.Shows LINES len ui) (low : 0 ≤ o)
    (within : o ≤ ui.offset ∨ o ≤ ui.maxOffset) :
    o ≤ clipOffset len (LINES - d.reserved) ∧ ((len : ℤ) = LINES - d.margin → o = 0) := by
  obtain ⟨high, maxOffset, hidden⟩ := shows
  have reserved := laid.reserved
  have margin := laid.margin
  simp only [clipOffset] at high maxOffset ⊢
  omega

theorem UiState.scrollWindow_kept {o : ℤ} (kept : ui.Kept LINES) (short : r.Short) (low : 0 ≤ o)
    (within : o ≤ ui.offset ∨ o ≤ ui.maxOffset)
    (shown : UiState.scrollWindow LINES { ui with offset := o } r = some ui') : ui'.Kept LINES ∧ ui'.mode = ui.mode := by
  have small : UiState.Small { ui with offset := o } := kept.small.shown
  unfold UiState.scrollWindow at shown
  dsimp only at shown
  split at shown
  · rename_i here
    have displayed := UiState.displayTree_kept shown small low here short
    exact displayed
  · rename_i here
    obtain ⟨high, hidden⟩ := (kept.settings here).scrolled laid_cpuDialogue low within
    obtain ⟨kept, -, mode⟩ := UiState.settings_kept screen shown small low high hidden here short.setup
    exact ⟨kept, mode⟩
  · rename_i here
    cases shown
    obtain ⟨shows, same⟩ := kept.setupIrqs here
    obtain ⟨high, hidden⟩ := shows.scrolled laid_irqDialogue low within
    rw [same] at high hidden
    exact ⟨UiState.setupIrqs_kept small low high hidden here, rfl⟩

/-- A key of the key loop keeps the screens, and opens a dialogue on the first line that is shown. -/
theorem UiState.loopKey_kept (kept : ui.Kept LINES) (here : ui.mode = .keyLoop) (short : r.Short)
    (pressed : ui.loopKey LINES r key = some ui') : ui'.Kept LINES ∧ ui'.Open LINES := by
  have closed {ui' : UiState} (mode : ui'.mode = ui.mode) : ui'.Open LINES := by
    rw [UiState.Open, mode, here]
    trivial
  have scrolled {o : ℤ} {ui' : UiState} (low : 0 ≤ o) (within : o ≤ ui.offset ∨ o ≤ ui.maxOffset)
      (shown : UiState.scrollWindow LINES { ui with offset := o } r = some ui') : ui'.Kept LINES ∧ ui'.Open LINES := by
    obtain ⟨kept, mode⟩ := UiState.scrollWindow_kept screen kept short low within shown
    exact ⟨kept, closed mode⟩
  have page : 0 ≤ ui.page LINES := by
    unfold UiState.page
    split <;> omega
  have low := kept.low
  have maxOffset := kept.maxOffset
  have same (stays : some ui = some ui') : ui'.Kept LINES ∧ ui'.Open LINES := by
    cases stays
    exact ⟨kept, closed rfl⟩
  unfold UiState.loopKey at pressed
  split at pressed
  · -- KEY_UP
    split at pressed
    · exact scrolled (by omega) (.inl (by omega)) pressed
    · exact same pressed
  · -- KEY_DOWN
    split at pressed
    · exact scrolled (by omega) (.inr (by omega)) pressed
    · exact same pressed
  · exact scrolled (by omega) (.inr (min_le_right _ _)) pressed
  · exact scrolled (le_max_right _ _) (.inl (by omega)) pressed
  · -- KEY_F(3)
    split at pressed
    · exact same pressed
    · obtain ⟨kept, mode⟩ := UiState.displayTree_kept pressed kept.small.shown le_rfl rfl short
      exact ⟨kept, closed mode⟩
  · -- KEY_F(4)
    split at pressed
    · rename_i settings
      obtain ⟨high, -, hidden⟩ := kept.settings settings
      obtain ⟨kept, -, mode⟩ :=
        UiState.settings_kept screen pressed kept.small low high hidden settings short.setup
      exact ⟨kept, closed mode⟩
    · obtain ⟨shown, first, second⟩ := Option.bind_eq_some_iff.mp pressed
      obtain ⟨kept, settings, mode⟩ := UiState.settings_kept screen first kept.small.shown
        le_rfl (clipOffset_nonneg _) (fun _ => rfl) rfl short.setup
      obtain ⟨high, -, hidden⟩ := kept.settings settings
      obtain ⟨kept, -, mode'⟩ :=
        UiState.settings_kept screen second kept.small kept.low high hidden settings short.setupAgain
      exact ⟨kept, closed (mode'.trans mode)⟩
  · -- KEY_F(5)
    split at pressed
    · exact same pressed
    · cases pressed
      have kept : (UiState.setupIrqs LINES { ui with screen := .setupIrqs, offset := 0 }).Kept LINES :=
        UiState.setupIrqs_kept kept.small.shown le_rfl (clipOffset_nonneg _) (fun _ => rfl) rfl
      exact ⟨kept, closed rfl⟩
  · contradiction
  · -- 'c'
    split at pressed
    · rename_i settings
      cases pressed
      obtain ⟨high, maxOffset, hidden⟩ := kept.settings settings
      exact ⟨kept.other, settings, rfl, cpuDialogue.onList_opened laid_cpuDialogue screen low high maxOffset hidden⟩
    · exact same pressed
  · -- 'i'
    split at pressed
    · rename_i setupIrqs
      cases pressed
      obtain ⟨⟨high, maxOffset, hidden⟩, -⟩ := kept.setupIrqs setupIrqs
      exact ⟨kept.other, setupIrqs, rfl, irqDialogue.onList_opened laid_irqDialogue screen low high maxOffset hidden⟩
    · exact same pressed
  · -- 's'
    split at pressed
    · rename_i settings
      cases pressed
      exact ⟨kept.other, settings⟩
    · exact same pressed
  · exact same pressed

end Screens

section Dialogues

variable {ui ui' : UiState} {r : Replies} {key : Key} {cpus : List CpuBan} {irqs : List UiIrq}

theorem toggleCpu_length {number : ℤ} {toggled : List CpuBan} (found : toggleCpu cpus number = some toggled) :
    toggled.length = cpus.length := by
  induction cpus generalizing toggled with
  | nil => contradiction
  | cons cpu cpus ih =>
    rw [toggleCpu] at found
    split at found
    · cases found
      rfl
    · obtain ⟨rest, later, rfl⟩ := Option.map_eq_some_iff.mp found
      exact congrArg Nat.succ (ih later)

theorem toggleIrq_eq (irqs : List UiIrq) (position : ℕ) :
    (toggleIrq irqs position).1 = irqs.modify position fun irq => { irq with isBanned := !irq.isBanned } := by
  induction irqs generalizing position with
  | nil => cases position <;> rfl
  | cons irq irqs ih =>
    cases position with
    | zero => rfl
    | succ position =>
      rw [toggleIrq, List.modify_succ_cons, ← ih]

theorem toggleIrqAt_length (position : ℤ) : (toggleIrqAt irqs position).length = irqs.length := by
  unfold toggleIrqAt
  split
  · rfl
  · rw [toggleIrq_eq, List.length_modify]

variable (screen : 10 ≤ LINES ∧ LINES < 2 ^ 31)

include screen

theorem UiState.cpuKey_kept (kept : ui.Kept LINES) {tmp : List CpuBan} (mode : ui.mode = .cpus c tmp)
    (opened : ui.Open LINES) (pressed : ui.cpuKey LINES key c tmp = some ui') : ui'.Kept LINES ∧ ui'.Open LINES := by
  rw [UiState.Open, mode] at opened
  obtain ⟨settings, length, on⟩ := opened
  have small := kept.small
  have few : tmp.length < 2 ^ 31 := length ▸ small.allCpus
  have high := on.high
  have hidden := fun long => (on.hidden long).1
  simp only [UiState.cpuKey, ← length] at pressed
  split_ifs at pressed
  · cases pressed
    exact ⟨kept.other, settings, length, (on.keyUp laid_cpuDialogue).1⟩
  · cases pressed
    exact ⟨kept.other, settings, length, on.keyDown laid_cpuDialogue screen few⟩
  · obtain ⟨toggled, found, rfl⟩ := Option.map_eq_some_iff.mp pressed
    have same := toggleCpu_length found
    exact ⟨kept.other, settings, same.trans length, same ▸ on⟩
  · cases pressed
    rw [length] at high hidden
    exact ⟨UiState.kept_settings screen.1 small.shown on.low high hidden settings, trivial⟩
  · obtain ⟨message, _, rfl⟩ := Option.map_eq_some_iff.mp pressed
    have saved : (UiState.printAllCpus LINES { ui with offset := c.offset, mode := .keyLoop, allCpus := tmp }).Kept LINES :=
      UiState.kept_settings screen.1 (small.listed few small.allIrqs) on.low high hidden settings
    exact ⟨saved.other, trivial⟩
  · cases pressed
    exact ⟨kept, by rw [UiState.Open, mode]; exact ⟨settings, length, on⟩⟩

theorem UiState.irqKey_kept (kept : ui.Kept LINES) {tmp : List UiIrq} (mode : ui.mode = .irqs c tmp)
    (opened : ui.Open LINES) (pressed : ui.irqKey LINES key c tmp = some ui') : ui'.Kept LINES ∧ ui'.Open LINES := by
  rw [UiState.Open, mode] at opened
  obtain ⟨setupIrqs, length, on⟩ := opened
  have small := kept.small
  have same := (kept.setupIrqs setupIrqs).2
  have few : tmp.length < 2 ^ 31 := length ▸ small.allIrqs
  have high := on.high
  have hidden := fun long => (on.hidden long).1
  simp only [UiState.irqKey, ← length] at pressed
  split_ifs at pressed
  · cases pressed
    exact ⟨kept.other, setupIrqs, length, (on.keyUp laid_irqDialogue).1⟩
  · cases pressed
    exact ⟨kept.other, setupIrqs, length, on.keyDown laid_irqDialogue screen few⟩
  · cases pressed
    have toggled : (toggleIrqAt tmp (irqDialogue.index c)).length = tmp.length := toggleIrqAt_length _
    exact ⟨kept.other, setupIrqs, toggled.trans length, toggled ▸ on⟩
  · cases pressed
    rw [length] at high hidden
    exact ⟨UiState.kept_setupIrqs small.shown on.low high hidden setupIrqs same, trivial⟩
  · obtain ⟨message, _, rfl⟩ := Option.map_eq_some_iff.mp pressed
    have saved : (UiState.printAllIrqs LINES { ui with offset := c.offset, mode := .keyLoop, allIrqs := tmp }).Kept LINES :=
      UiState.kept_setupIrqs (small.listed small.allCpus few) on.low high hidden setupIrqs (length.trans same)
    exact ⟨saved.other, trivial⟩
  · cases pressed
    exact ⟨kept, by rw [UiState.Open, mode]; exact ⟨setupIrqs, length, on⟩⟩

omit screen in
theorem UiState.Kept.slept (kept : ui.Kept LINES) (settings : ui.screen = .settings) (newSleep : ℕ) :
    UiState.Kept LINES { ui with setup := { ui.setup with sleep := newSleep } } := by
  obtain ⟨small, low, maxOffset, shows, -⟩ := kept
  refine ⟨⟨small.bannedIrqs, small.bannedCpus, small.tree, small.allCpus, small.allIrqs⟩, low, maxOffset,
    fun here => ⟨(shows here).high, (shows here).maxOffset, (shows here).hidden⟩, fun here => ?_⟩
  rw [settings] at here
  cases here

omit screen in
theorem UiState.setSleep_kept (kept : ui.Kept LINES) (settings : ui.screen = .settings) (newSleep : ℕ) :
    (ui.setSleep newSleep).Kept LINES ∧ (ui.setSleep newSleep).Open LINES := by
  unfold UiState.setSleep
  generalize toU64 (toInt newSleep) = sleep
  dsimp only
  split
  · exact ⟨kept.other, trivial⟩
  · rw [UiState.send]
    exact ⟨(kept.slept settings sleep).other, trivial⟩

omit screen in
theorem UiState.sleepKey_kept (kept : ui.Kept LINES) {input : List Char} (settings : ui.screen = .settings)
    (mode : ui.mode = .sleep input) (pressed : ui.sleepKey key input = some ui') :
    ui'.Kept LINES ∧ ui'.Open LINES := by
  have opened {text : List Char} : UiState.Open LINES { ui with mode := .sleep text } := settings
  unfold UiState.sleepKey at pressed
  split_ifs at pressed
  · cases pressed
    exact ⟨kept, by rw [UiState.Open, mode]; exact settings⟩
  · split at pressed
    · rw [← Option.some.inj pressed]
      exact UiState.setSleep_kept kept settings _
    · cases pressed
      exact ⟨kept.other, opened⟩
  · cases pressed
    exact ⟨kept.other, opened⟩
  · rw [← Option.some.inj pressed]
    exact UiState.setSleep_kept kept settings _
  · cases pressed
    exact ⟨kept.other, opened⟩

/-- Every key, whatever reads it. -/
theorem UiState.press_kept (kept : ui.Kept LINES) (opened : ui.Open LINES) (short : r.Short)
    (pressed : ui.press LINES r key = some ui') : ui'.Kept LINES ∧ ui'.Open LINES := by
  unfold UiState.press at pressed
  split at pressed
  · rename_i mode
    exact UiState.loopKey_kept screen.1 kept mode short pressed
  · rename_i mode
    exact UiState.cpuKey_kept screen kept mode opened pressed
  · rename_i mode
    exact UiState.irqKey_kept screen kept mode opened pressed
  · rename_i mode
    have settings := opened
    rw [UiState.Open, mode] at settings
    exact UiState.sleepKey_kept kept settings mode pressed

theorem runUi_kept {keys : List (Replies × Key)} (kept : ui.Kept LINES) (opened : ui.Open LINES)
    (short : ∀ key ∈ keys, key.1.Short) (ran : runUi LINES ui keys = some ui') : ui'.Kept LINES ∧ ui'.Open LINES := by
  induction keys generalizing ui with
  | nil =>
    cases ran
    exact ⟨kept, opened⟩
  | cons key keys ih =>
    rw [runUi, List.foldlM_cons] at ran
    obtain ⟨next, pressed, ran⟩ := Option.bind_eq_some_iff.mp ran
    obtain ⟨kept, opened⟩ := UiState.press_kept screen kept opened (short key List.mem_cons_self) pressed
    exact ih kept opened (fun key member => short key (List.mem_cons_of_mem _ member)) ran

omit screen in
theorem initUi_kept (short : r.Short) (started : initUi LINES r = some ui) : ui.Kept LINES ∧ ui.Open LINES := by
  obtain ⟨kept, mode⟩ := UiState.displayTree_kept started
    ⟨Nat.two_pow_pos 28, Nat.two_pow_pos 30, Nat.two_pow_pos 28, Nat.two_pow_pos 31, Nat.two_pow_pos 31⟩ le_rfl rfl short
  refine ⟨kept, ?_⟩
  rw [UiState.Open, mode]
  trivial

omit screen in
theorem BanDialogue.OnList.entry_eq {d : BanDialogue} (on : d.OnList LINES len c) :
    ∃ k : ℕ, d.entry c = k ∧ (k < len ∨ len = 0) := by
  obtain ⟨top, -, low, -, -, entry, -⟩ := on
  obtain ⟨k, under⟩ : ∃ k : ℕ, d.entry c = k := Int.eq_ofNat_of_zero_le <| by
    rw [BanDialogue.entry]
    omega
  exact ⟨k, under, by omega⟩

omit screen in
theorem BanDialogue.OnList.index_eq {d : BanDialogue} (few : len < 2 ^ 31) (on : d.OnList LINES len c) :
    d.index c = d.entry c := by
  obtain ⟨k, under, inside⟩ := on.entry_eq
  have entry := on.entry
  apply toInt_of_isInt
  constructor
  · change _ ≤ d.entry c
    omega
  · change d.entry c < _
    omega

omit screen in
theorem BanDialogue.OnList.drawn {d : BanDialogue} {k : ℕ} (on : d.OnList LINES len c) (under : d.entry c = k) :
    d.DrawnOn LINES c k c.position := by
  have top := on.top
  have bottom := on.bottom
  rw [BanDialogue.entry] at under
  exact ⟨by omega, by omega, by omega⟩

end Dialogues

section Entries

variable {ui₀ ui : UiState} {r : Replies} {keys : List (Replies × Key)} {cpus : List CpuBan} {cpu : CpuBan}
  {number : ℤ}

/-- The first CPU with the number is flipped. -/
theorem toggleCpu_eq_set {k : ℕ} (entry : cpus[k]? = some cpu) :
    toggleCpu cpus number = some (cpus.set k { cpu with isBanned := !cpu.isBanned }) ↔
      cpu.number = number ∧ ∀ other ∈ cpus.take k, other.number ≠ number := by
  induction cpus generalizing k with
  | nil => contradiction
  | cons first cpus ih =>
    rw [toggleCpu]
    cases k with
    | zero =>
      cases entry
      rw [List.set_cons_zero, List.take_zero]
      split
      · rename_i same
        exact iff_of_true rfl ⟨same, nofun⟩
      · rename_i other
        refine iff_of_false (fun flipped => ?_) fun found => other found.1
        obtain ⟨rest, -, same⟩ := Option.map_eq_some_iff.mp flipped
        have ban := congrArg CpuBan.isBanned (List.cons.inj same).1
        exact Bool.eq_not_self _ |>.mp ban
    | succ k =>
      rw [List.getElem?_cons_succ] at entry
      rw [List.set_cons_succ, List.take_succ_cons]
      split
      · rename_i same
        refine iff_of_false (fun flipped => ?_) fun found => found.2 first List.mem_cons_self same
        have ban := congrArg CpuBan.isBanned (List.cons.inj (Option.some.inj flipped)).1
        exact Bool.not_eq_self _ |>.mp ban
      · rename_i other
        rw [List.forall_mem_cons, and_left_comm, and_iff_right other, ← ih entry]
        exact (Option.map_injective (List.cons_injective (a := first))).eq_iff (b := some _)

theorem toggleCpu_eq_none : toggleCpu cpus number = none ↔ ∀ other ∈ cpus, other.number ≠ number := by
  induction cpus with
  | nil => exact iff_of_true rfl nofun
  | cons first cpus ih =>
    rw [toggleCpu, List.forall_mem_cons]
    split
    · rename_i same
      exact iff_of_false (Option.some_ne_none _) fun other => other.1 same
    · rename_i other
      rw [Option.map_eq_none_iff, ih]
      exact (and_iff_right other).symm

/-- Enter flips the entry that is drawn on the line of the cursor. -/
def UiState.OnIrq (LINES : ℤ) (ui : UiState) (c : ListCursor) (tmp : List UiIrq) : Prop :=
  ∃ (k : ℕ) (irq : UiIrq), tmp[k]? = some irq ∧ irqDialogue.DrawnOn LINES c k c.position ∧
    ∀ r, ui.press LINES r (.char '\n') =
      some { ui with mode := .irqs c (tmp.set k { irq with isBanned := !irq.isBanned }) }

/-- Enter does so if that entry is the first CPU with its own index as number, and ends the program if there is
no such CPU. -/
def UiState.OnCpu (LINES : ℤ) (ui : UiState) (c : ListCursor) (tmp : List CpuBan) : Prop :=
  ∃ (k : ℕ) (cpu : CpuBan), tmp[k]? = some cpu ∧ cpuDialogue.DrawnOn LINES c k c.position ∧
    ∀ r, (ui.press LINES r (.char '\n') =
        some { ui with mode := .cpus c (tmp.set k { cpu with isBanned := !cpu.isBanned }) } ↔
      cpu.number = k ∧ ∀ other ∈ tmp.take k, other.number ≠ k) ∧
    (ui.press LINES r (.char '\n') = none ↔ ∀ other ∈ tmp, other.number ≠ k)

/-- In every run of keys, the cursor of an open dialogue is on an entry of the list, which is drawn on its line,
and Enter applies to it. -/
theorem runUi_onEntry (screen : 10 ≤ LINES ∧ LINES < 2 ^ 31) (short : r.Short) (shorts : ∀ key ∈ keys, key.1.Short)
    (started : initUi LINES r = some ui₀) (ran : runUi LINES ui₀ keys = some ui) :
    (∀ c tmp, ui.mode = .irqs c tmp → tmp ≠ [] → ui.OnIrq LINES c tmp) ∧
      ∀ c tmp, ui.mode = .cpus c tmp → tmp ≠ [] → ui.OnCpu LINES c tmp := by
  obtain ⟨kept, opened⟩ := initUi_kept short started
  obtain ⟨kept, opened⟩ := runUi_kept screen kept opened shorts ran
  constructor
  · intro c tmp mode some_irq
    rw [UiState.Open, mode] at opened
    obtain ⟨-, length, on⟩ := opened
    obtain ⟨k, under, inside⟩ := on.entry_eq
    have index := (on.index_eq (length ▸ kept.small.allIrqs)).trans under
    have drawn := on.drawn under
    have inside := inside.resolve_right (List.length_pos_iff.mpr some_irq).ne'
    refine ⟨k, tmp[k], List.getElem?_eq_getElem inside, drawn, fun r => ?_⟩
    have toggled : toggleIrqAt tmp (irqDialogue.index c) = tmp.set k { tmp[k] with isBanned := !tmp[k].isBanned } := by
      rw [index, toggleIrqAt, if_neg (by omega), Int.toNat_natCast, toggleIrq_eq, List.modify_eq_set_getElem?,
        List.getElem?_eq_getElem inside]
      rfl
    rw [UiState.press, mode]
    dsimp only
    rw [UiState.irqKey, if_neg (by decide), if_neg (by decide), if_pos (by decide), toggled]
  · intro c tmp mode some_cpu
    rw [UiState.Open, mode] at opened
    obtain ⟨-, length, on⟩ := opened
    obtain ⟨k, under, inside⟩ := on.entry_eq
    have index := (on.index_eq (length ▸ kept.small.allCpus)).trans under
    have drawn := on.drawn under
    have inside := inside.resolve_right (List.length_pos_iff.mpr some_cpu).ne'
    have entry := List.getElem?_eq_getElem inside
    refine ⟨k, tmp[k], entry, drawn, fun r => ?_⟩
    have pressed : ui.press LINES r (.char '\n') =
        (toggleCpu tmp k).map fun tmp => ({ ui with mode := .cpus c tmp } : UiState) := by
      rw [UiState.press, mode]
      dsimp only
      rw [UiState.cpuKey, if_neg (by decide), if_neg (by decide), if_pos (by decide), index]
    have same : Function.Injective fun tmp => ({ ui with mode := .cpus c tmp } : UiState) := fun tmp tmp' same =>
      (Mode.cpus.inj (congrArg UiState.mode same)).2
    rw [pressed, Option.map_eq_none_iff, toggleCpu_eq_none]
    refine ⟨?_, Iff.rfl⟩
    rw [← toggleCpu_eq_set entry]
    exact (Option.map_injective same).eq_iff (b := some _)

/-- Eight banned interrupts. -/
def eightIrqs : List UiIrq := (List.range 8).map fun n => { vector := 21 + n, isBanned := true }

/-- What the daemon answers with them and one banned CPU. -/
def eightText : List Char := "SLEEP 10 ".toList ++
  (eightIrqs.flatMap fun irq => "IRQ ".toList ++ CText.showInt irq.vector ++ " LOAD 0 DIFF 0 CLASS 0 ".toList) ++
    "BANNED 1".toList

def eightBans : Replies where
  setup := some eightText

theorem initUi_eightBans : initUi 10 eightBans = some { setup := ⟨10, eightIrqs, [0]⟩ } := by
  have parsed : parseSetup eightText = some ⟨10, eightIrqs, [0]⟩ := by decide +kernel
  have read : UiState.readSetup {} eightBans.setup = some { setup := ⟨10, eightIrqs, [0]⟩ } := by
    rw [eightBans, UiState.readSetup, parsed]
    · rfl
    · decide +kernel
  rw [initUi, UiState.displayTree, read]
  rfl

theorem short_eightBans : eightBans.Short := by
  refine ⟨fun text reply => ?_, nofun, nofun⟩
  cases reply
  decide +kernel

theorem short_silent : Replies.Short {} := ⟨nofun, nofun, nofun⟩

/-- The keys that open the dialogue of the screen for interrupts, and move its cursor on by five entries. -/
def scrollingIrqs : List (Replies × Key) :=
  ({}, .f 5) :: ({}, .char 'i') :: List.replicate 5 ({}, .down)

theorem short_scrollingIrqs : ∀ key ∈ scrollingIrqs, key.1.Short := by
  refine List.forall_mem_cons.mpr ⟨short_silent, List.forall_mem_cons.mpr ⟨short_silent, fun key member => ?_⟩⟩
  rw [List.eq_of_mem_replicate member]
  exact short_silent

/-- The dialogue then on a screen of ten lines, which shows three entries at a time. -/
def scrolledIrqs : UiState where
  screen := .setupIrqs
  maxOffset := 4
  setup := ⟨10, eightIrqs, [0]⟩
  allIrqs := eightIrqs
  mode := .irqs ⟨6, 3, 5⟩ eightIrqs

theorem runUi_scrollingIrqs : runUi 10 { setup := ⟨10, eightIrqs, [0]⟩ } scrollingIrqs = some scrolledIrqs :=
  rfl

/-- The cursor is on the last line, on the sixth interrupt. -/
theorem runUi_onEntry_eightBans : scrolledIrqs.OnIrq 10 ⟨6, 3, 5⟩ eightIrqs :=
  (runUi_onEntry ⟨by decide, by decide⟩ short_eightBans short_scrollingIrqs initUi_eightBans runUi_scrollingIrqs).1
    _ _ rfl (by decide)

end Entries

section Reaching

variable {ui₀ ui : UiState} {r : Replies} {keys : List (Replies × Key)} {moves : List Key}

/-- The cursor keys, which bring about no replies. -/
def moving (moves : List Key) : List (Replies × Key) := moves.map fun key => ({}, key)

theorem runUi_moving_irqs (cursor : ∀ key ∈ moves, key = .up ∨ key = .down) {tmp : List UiIrq}
    (mode : ui.mode = .irqs c tmp) (length : tmp.length = ui.allIrqs.length) :
    runUi LINES ui (moving moves) =
      some { ui with mode := .irqs (irqDialogue.moved LINES tmp.length c moves) tmp } := by
  induction moves generalizing ui c with
  | nil =>
    change some ui = some { ui with mode := .irqs c tmp }
    rw [← mode]
  | cons key moves ih =>
    have pressed : ui.press LINES {} key =
        some { ui with mode := .irqs (irqDialogue.move LINES tmp.length c key) tmp } := by
      rw [UiState.press, mode, length]
      rcases cursor key List.mem_cons_self with rfl | rfl <;> rfl
    change (ui.press LINES {} key).bind (fun ui => runUi LINES ui (moving moves)) = _
    rw [pressed, Option.bind_some]
    exact ih (fun key member => cursor key (List.mem_cons_of_mem _ member)) rfl length

theorem runUi_moving_cpus (cursor : ∀ key ∈ moves, key = .up ∨ key = .down) {tmp : List CpuBan}
    (mode : ui.mode = .cpus c tmp) (length : tmp.length = ui.allCpus.length) :
    runUi LINES ui (moving moves) =
      some { ui with mode := .cpus (cpuDialogue.moved LINES tmp.length c moves) tmp } := by
  induction moves generalizing ui c with
  | nil =>
    change some ui = some { ui with mode := .cpus c tmp }
    rw [← mode]
  | cons key moves ih =>
    have pressed : ui.press LINES {} key =
        some { ui with mode := .cpus (cpuDialogue.move LINES tmp.length c key) tmp } := by
      rw [UiState.press, mode, length]
      rcases cursor key List.mem_cons_self with rfl | rfl <;> rfl
    change (ui.press LINES {} key).bind (fun ui => runUi LINES ui (moving moves)) = _
    rw [pressed, Option.bind_some]
    exact ih (fun key member => cursor key (List.mem_cons_of_mem _ member)) rfl length

/-- In every run of keys, the cursor keys alone take an open dialogue to each entry of its list, but for the last
one of a list that is longer by one than the lines that the dialogue leaves to it. -/
theorem runUi_reaches (screen : 10 ≤ LINES ∧ LINES < 2 ^ 31) (short : r.Short) (shorts : ∀ key ∈ keys, key.1.Short)
    (started : initUi LINES r = some ui₀) (ran : runUi LINES ui₀ keys = some ui) :
    (∀ c tmp k, ui.mode = .irqs c tmp → k < tmp.length →
      ((∃ moves : List Key, (∀ key ∈ moves, key = .up ∨ key = .down) ∧ ∃ c', irqDialogue.index c' = k ∧
        runUi LINES ui (moving moves) = some { ui with mode := .irqs c' tmp }) ↔
      ¬ ((tmp.length : ℤ) = LINES - 6 ∧ k + 1 = tmp.length))) ∧
    ∀ c tmp k, ui.mode = .cpus c tmp → k < tmp.length →
      ((∃ moves : List Key, (∀ key ∈ moves, key = .up ∨ key = .down) ∧ ∃ c', cpuDialogue.index c' = k ∧
        runUi LINES ui (moving moves) = some { ui with mode := .cpus c' tmp }) ↔
      ¬ ((tmp.length : ℤ) = LINES - 8 ∧ k + 1 = tmp.length)) := by
  obtain ⟨kept, opened⟩ := initUi_kept short started
  obtain ⟨kept, opened⟩ := runUi_kept screen kept opened shorts ran
  constructor
  · intro c tmp k mode inside
    rw [UiState.Open, mode] at opened
    obtain ⟨-, length, on⟩ := opened
    have few : tmp.length < 2 ^ 31 := length ▸ kept.small.allIrqs
    have entry (moves : List Key) := (on.moved laid_irqDialogue screen few moves).index_eq few
    refine Iff.trans ?_ (on.reaches laid_irqDialogue screen few inside)
    constructor
    · rintro ⟨moves, cursor, c', index, moved⟩
      rw [runUi_moving_irqs cursor mode length] at moved
      cases (Mode.irqs.inj (congrArg UiState.mode (Option.some.inj moved))).1
      exact ⟨moves, cursor, (entry moves).symm.trans index⟩
    · rintro ⟨moves, cursor, reached⟩
      exact ⟨moves, cursor, _, (entry moves).trans reached, runUi_moving_irqs cursor mode length⟩
  · intro c tmp k mode inside
    rw [UiState.Open, mode] at opened
    obtain ⟨-, length, on⟩ := opened
    have few : tmp.length < 2 ^ 31 := length ▸ kept.small.allCpus
    have entry (moves : List Key) := (on.moved laid_cpuDialogue screen few moves).index_eq few
    refine Iff.trans ?_ (on.reaches laid_cpuDialogue screen few inside)
    constructor
    · rintro ⟨moves, cursor, c', index, moved⟩
      rw [runUi_moving_cpus cursor mode length] at moved
      cases (Mode.cpus.inj (congrArg UiState.mode (Option.some.inj moved))).1
      exact ⟨moves, cursor, (entry moves).symm.trans index⟩
    · rintro ⟨moves, cursor, reached⟩
      exact ⟨moves, cursor, _, (entry moves).trans reached, runUi_moving_cpus cursor mode length⟩

/-- From there the last of the eight interrupts is reached. -/
theorem runUi_reaches_eightBans : ∃ moves : List Key, (∀ key ∈ moves, key = .up ∨ key = .down) ∧
    ∃ c', irqDialogue.index c' = 7 ∧ runUi 10 scrolledIrqs (moving moves) =
      some { scrolledIrqs with mode := .irqs c' eightIrqs } :=
  ((runUi_reaches ⟨by decide, by decide⟩ short_eightBans short_scrollingIrqs initUi_eightBans runUi_scrollingIrqs).1
    _ _ 7 rfl (by decide)).mpr fun long => absurd long.1 (by decide)

end Reaching

end Irqbalance
