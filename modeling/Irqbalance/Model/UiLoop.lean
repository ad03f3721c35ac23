import Irqbalance.Model.Ui

/-! # The user interface and its keys

`key_loop` with the dialogues that it opens, which read keys of their own, and what the screens keep
between two keys. What is only drawn is left out, save for the line on which a dialogue draws an entry.
`none` stands for the end of the program. Allocation succeeds, and `LINES` does not change.
-/

namespace Irqbalance

open CText (scanNumber strtol toInt showNat cString)

/-- What `getch` returns. `f n` is `KEY_F(n)`, and `ERR` is returned when no key is ready. -/
inductive Key where
  | ERR
  | up
  | down
  | backspace
  | f (n : ℕ)
  | npage
  | ppage
  | char (c : Char)
deriving DecidableEq, Repr

/-- Conversion to `char`. -/
def Key.toChar : Key → Char
  | .ERR => Char.ofNat 255
  | .down => Char.ofNat 2
  | .up => Char.ofNat 3
  | .backspace => Char.ofNat 7
  | .f n => Char.ofNat ((264 + n) % 256)
  | .npage => Char.ofNat 82
  | .ppage => Char.ofNat 83
  | .char c => c

/-- `'\n'` or `'\r'`. -/
def Key.isEnter (key : Key) : Bool := key == .char '\n' || key == .char '\r'

/-- `27`. -/
def Key.escape : Key := .char (Char.ofNat 27)

/-- The cursor of a dialogue. -/
structure ListCursor where
  position : ℕ
  offset : ℤ
  maxOffset : ℤ
deriving DecidableEq, Repr

/-- What the two dialogues do not share: the first line of the list, the lines that it leaves free while
it is edited and afterwards, and the test under which `KEY_DOWN` moves the cursor. -/
structure BanDialogue where
  top : ℕ
  reserved : ℤ
  margin : ℤ
  goesDown : ℕ → ListCursor → Bool

/-- `max_offset -= rows`, and not below 0. -/
def clipOffset (len : ℕ) (rows : ℤ) : ℤ := max 0 (len - rows)

/-- `handle_cpu_banning`. -/
def cpuDialogue : BanDialogue where
  top := 6
  reserved := 9
  margin := 8
  goesDown len c := decide ((c.position : ℤ) ≤ (len + 4 - c.offset) % 2 ^ 32)

/-- `handle_irq_banning`. -/
def irqDialogue : BanDialogue where
  top := 4
  reserved := 7
  margin := 6
  goesDown len c := decide (c.position < (len + 3) % 2 ^ 32)

section Dialogues

variable (d : BanDialogue) (LINES : ℤ) (len : ℕ) (c : ListCursor)

/-- The list is drawn anew from another entry on. -/
def BanDialogue.scroll (offset : ℤ) : ListCursor :=
  { c with offset := offset, maxOffset := clipOffset len (LINES - d.reserved) }

/-- `KEY_UP`. -/
def BanDialogue.keyUp : ListCursor :=
  if c.position > d.top then { c with position := c.position - 1 }
  else if c.offset > 0 then d.scroll LINES len c (c.offset - 1)
  else c

/-- `KEY_DOWN`. -/
def BanDialogue.keyDown : ListCursor :=
  if (c.position : ℤ) < (LINES - 4) % 2 ^ 64 then
    if d.goesDown len c then { c with position := c.position + 1 } else c
  else if c.offset < c.maxOffset then d.scroll LINES len c (c.offset + 1)
  else c

/-- The number that `Enter` hands to the toggle. -/
def BanDialogue.index : ℤ := toInt (c.position + c.offset - d.top)

/-- Entry `k` is drawn on the line, `print_tmp_cpu_line` and `print_tmp_irq_line`. -/
def BanDialogue.DrawnOn (k : ℕ) (line : ℤ) : Prop :=
  line = k - c.offset + d.top ∧ d.top ≤ line ∧ line < LINES - 3

end Dialogues

/-- `toggle_cpu`. Where no CPU has the number, the null pointer is dereferenced. -/
def toggleCpu : List CpuBan → ℤ → Option (List CpuBan)
  | [], _ => none
  | cpu :: cpus, cpuNumber =>
    if cpu.number = cpuNumber then some ({ cpu with isBanned := !cpu.isBanned } :: cpus)
    else (toggleCpu cpus cpuNumber).map (cpu :: ·)

/-- `toggle_irq` at an `int`. -/
def toggleIrqAt (irqs : List UiIrq) (position : ℤ) : List UiIrq :=
  if position < 0 then irqs else (toggleIrq irqs position.toNat).1

/-- `state`. -/
inductive Screen where
  | tree
  | settings
  | setupIrqs
deriving DecidableEq, Repr

/-- What is reading keys. -/
inductive Mode where
  | keyLoop
  | cpus (c : ListCursor) (tmp : List CpuBan)
  | irqs (c : ListCursor) (tmp : List UiIrq)
  | sleep (input : List Char)

/-- The globals of the user interface, with what it has sent. -/
structure UiState where
  screen : Screen := .tree
  offset : ℤ := 0
  maxOffset : ℤ := 0
  tree : List CpuNode := []
  setup : Setup := ⟨0, [], []⟩
  allCpus : List CpuBan := []
  allIrqs : List UiIrq := []
  sent : List (List Char) := []
  mode : Mode := .keyLoop

/-- What `get_data` returns while a key is handled. -/
structure Replies where
  setup : Option (List Char) := none
  setupAgain : Option (List Char) := none
  stats : Option (List Char) := none

mutual

/-- The lines of `display_tree_node`. -/
def CpuNode.lines : CpuNode → ℕ
  | .mk data children => 1 + data.irqs.length + linesAll children

/-- `for_each_node(children, display_tree_node, data)`. -/
def linesAll : List CpuNode → ℕ
  | [] => 0
  | child :: children => child.lines + linesAll children

end

mutual

/-- `get_cpu`. -/
def CpuNode.cpuBans : CpuNode → List CpuBan
  | .mk data children =>
    (if data.type = OBJ_TYPE_CPU then [{ number := data.number }] else []) ++ cpuBansAll children

/-- `for_each_node(children, get_cpu, NULL)`. -/
def cpuBansAll : List CpuNode → List CpuBan
  | [] => []
  | child :: children => child.cpuBans ++ cpuBansAll children

end

mutual

/-- `copy_irqs_from_nodes`. -/
def CpuNode.copiedIrqs : CpuNode → List UiIrq
  | .mk data children => data.irqs ++ copiedIrqsAll children

/-- `for_each_node(children, copy_irqs_from_nodes, all_irqs)`. -/
def copiedIrqsAll : List CpuNode → List UiIrq
  | [] => []
  | child :: children => child.copiedIrqs ++ copiedIrqsAll children

end

section Screens

variable (LINES : ℤ) (ui : UiState)

/-- `parse_setup` on a reply. -/
def UiState.readSetup (reply : Option (List Char)) : Option UiState :=
  match reply with
  | none => some ui
  | some [] => some ui
  | some text => (parseSetup text).map fun setup => ({ ui with setup := setup } : UiState)

/-- `parse_into_tree` on a reply. -/
def UiState.readStats (reply : Option (List Char)) : Option UiState :=
  match reply with
  | none => some { ui with tree := [] }
  | some [] => some { ui with tree := [] }
  | some text => (parseIntoTree text).map fun tree => ({ ui with tree := tree } : UiState)

/-- The list that `print_all_cpus` builds when there is none. -/
def UiState.listedCpus : List CpuBan :=
  if ui.allCpus.isEmpty then
    (cpuBansAll ui.tree ++ ui.setup.bannedCpus.map fun cpu : ℕ => (⟨toInt cpu, true⟩ : CpuBan)).insertionSort
      fun first second => first.number ≤ second.number
  else ui.allCpus

/-- `print_all_cpus`. -/
def UiState.printAllCpus : UiState :=
  { ui with
    allCpus := ui.listedCpus
    maxOffset := clipOffset ui.listedCpus.length (LINES - cpuDialogue.margin) }

/-- `print_all_irqs`. -/
def UiState.printAllIrqs : UiState :=
  { ui with maxOffset := clipOffset ui.allIrqs.length (LINES - irqDialogue.margin) }

/-- `settings`. -/
def UiState.settings (reply : Option (List Char)) : Option UiState :=
  (ui.readSetup reply).map (UiState.printAllCpus LINES)

/-- `setup_irqs`, with the list of `get_all_irqs` sorted. -/
def UiState.setupIrqs : UiState :=
  UiState.printAllIrqs LINES { ui with
    allIrqs := (ui.setup.bannedIrqs ++ copiedIrqsAll ui.tree).insertionSort
      fun first second => first.vector ≤ second.vector }

/-- `display_tree`. -/
def UiState.displayTree (r : Replies) : Option UiState :=
  (ui.readSetup r.setup).bind fun ui => (ui.readStats r.stats).map fun ui =>
    ({ ui with maxOffset := clipOffset (linesAll ui.tree) (LINES - 5) } : UiState)

/-- `scroll_window`. -/
def UiState.scrollWindow (r : Replies) : Option UiState :=
  match ui.screen with
  | .tree => ui.displayTree LINES r
  | .settings => ui.settings LINES r.setup
  | .setupIrqs => some (ui.setupIrqs LINES)

/-- The lines by which a page is turned. -/
def UiState.page : ℤ :=
  match ui.screen with
  | .tree => LINES - 5
  | .settings => LINES - 8
  | .setupIrqs => LINES - 6

/-- `key_loop`, for one key. -/
def UiState.loopKey (r : Replies) (key : Key) : Option UiState :=
  match key with
  | .up => if ui.offset > 0 then UiState.scrollWindow LINES { ui with offset := ui.offset - 1 } r else some ui
  | .down =>
    if ui.offset < ui.maxOffset then UiState.scrollWindow LINES { ui with offset := ui.offset + 1 } r else some ui
  | .npage => UiState.scrollWindow LINES { ui with offset := min (ui.offset + ui.page LINES) ui.maxOffset } r
  | .ppage => UiState.scrollWindow LINES { ui with offset := max (ui.offset - ui.page LINES) 0 } r
  | .f 3 => if ui.screen = .tree then some ui else UiState.displayTree LINES { ui with screen := .tree, offset := 0 } r
  | .f 4 =>
    if ui.screen = .settings then ui.settings LINES r.setup
    else (UiState.settings LINES { ui with screen := .settings, offset := 0 } r.setup).bind fun ui =>
      ui.settings LINES r.setupAgain
  | .f 5 =>
    if ui.screen = .setupIrqs then some ui
    else some (UiState.setupIrqs LINES { ui with screen := .setupIrqs, offset := 0 })
  | .char 'q' => none
  | .char 'c' =>
    if ui.screen = .settings then
      some { ui with mode := .cpus ⟨cpuDialogue.top, ui.offset, ui.maxOffset⟩ ui.allCpus }
    else some ui
  | .char 'i' =>
    if ui.screen = .setupIrqs then
      some { ui with mode := .irqs ⟨irqDialogue.top, ui.offset, ui.maxOffset⟩ ui.allIrqs }
    else some ui
  | .char 's' => if ui.screen = .settings then some { ui with mode := .sleep [] } else some ui
  | _ => some ui

/-- `send_settings`. -/
def UiState.send (message : List Char) : UiState := { ui with sent := ui.sent ++ [message] }

/-- The loop of `handle_cpu_banning`, for one key. -/
def UiState.cpuKey (key : Key) (c : ListCursor) (tmp : List CpuBan) : Option UiState :=
  let left : UiState := { ui with offset := c.offset, mode := .keyLoop }
  if key = .up then some { ui with mode := .cpus (cpuDialogue.keyUp LINES ui.allCpus.length c) tmp }
  else if key = .down then some { ui with mode := .cpus (cpuDialogue.keyDown LINES ui.allCpus.length c) tmp }
  else if key.isEnter then
    (toggleCpu tmp (cpuDialogue.index c)).map fun tmp => { ui with mode := .cpus c tmp }
  else if key = .escape then some (left.printAllCpus LINES)
  else if key = .char 's' then
    (handleCpuBanning tmp).map fun message => (UiState.printAllCpus LINES { left with allCpus := tmp }).send message
  else if key = .char 'q' then none
  else some ui

/-- The loop of `handle_irq_banning`, for one key. -/
def UiState.irqKey (key : Key) (c : ListCursor) (tmp : List UiIrq) : Option UiState :=
  let left : UiState := { ui with offset := c.offset, mode := .keyLoop }
  if key = .up then some { ui with mode := .irqs (irqDialogue.keyUp LINES ui.allIrqs.length c) tmp }
  else if key = .down then some { ui with mode := .irqs (irqDialogue.keyDown LINES ui.allIrqs.length c) tmp }
  else if key.isEnter then some { ui with mode := .irqs c (toggleIrqAt tmp (irqDialogue.index c)) }
  else if key = .escape then some (left.printAllIrqs LINES)
  else if key = .char 's' then
    (handleIrqBanning tmp).map fun message => (UiState.printAllIrqs LINES { left with allIrqs := tmp }).send message
  else if key = .char 'q' then none
  else some ui

/-- The number of `get_valid_sleep_input`: all of the text is a number from 1 on, as `uint64_t`. -/
def validSleep (text : List Char) : Option ℕ :=
  match scanNumber text with
  | some (_, _, []) => if toU64 (strtol text) ≥ 1 then some (toU64 (strtol text)) else none
  | _ => none

/-- `handle_sleep_setting` behind `get_valid_sleep_input`, which returns an `int`. -/
def UiState.setSleep (newSleep : ℕ) : UiState :=
  let newSleep := toU64 (toInt newSleep)
  let left : UiState := { ui with mode := .keyLoop }
  if newSleep = ui.setup.sleep then left
  else UiState.send { left with setup := { ui.setup with sleep := newSleep } }
    ("settings sleep  ".toList ++ showNat newSleep)

/-- `check_control_in_sleep_input` and `get_valid_sleep_input`, for one key. A buffer of 20 characters is
read past its end. -/
def UiState.sleepKey (key : Key) (input : List Char) : Option UiState :=
  if key = .ERR then some ui
  else if key.isEnter then
    match validSleep (cString input) with
    | some newSleep => some (ui.setSleep newSleep)
    | none => some { ui with mode := .sleep [] }
  else if key = .char 'q' then none
  else if key = .backspace then some { ui with mode := .sleep input.dropLast }
  else if key = .escape then some (ui.setSleep ui.setup.sleep)
  else if input.length + 1 < 20 then some { ui with mode := .sleep (input ++ [key.toChar]) }
  else none

/-- One key. -/
def UiState.press (r : Replies) (key : Key) : Option UiState :=
  match ui.mode with
  | .keyLoop => ui.loopKey LINES r key
  | .cpus c tmp => ui.cpuKey LINES key c tmp
  | .irqs c tmp => ui.irqKey LINES key c tmp
  | .sleep input => ui.sleepKey key input

end Screens

/-- `init`. -/
def initUi (LINES : ℤ) (r : Replies) : Option UiState := UiState.displayTree LINES {} r

/-- The keys of a session, each with the replies that it brings about. -/
def runUi (LINES : ℤ) (ui : UiState) (keys : List (Replies × Key)) : Option UiState :=
  keys.foldlM (fun ui key => ui.press LINES key.1 key.2) ui

end Irqbalance
