import Irqbalance.Model.Socket
import Mathlib.Data.List.Sort

/-! # The user interface

What `irqbalance-ui` makes of the daemon's replies, `parse_setup` and `parse_into_tree`, and the
messages it sends to change bans. The parsers work on the tokens of `strtok_r`; `none` stands for
`exit(1)` on an unexpected token and for a missing token, which is dereferenced. The cursor `parent`
of `parse_into_tree` with its chain of `parent` links is the path of open nodes, innermost first;
an open node keeps its children so far beside it, and is listed by its parent when it is left.
-/

namespace Irqbalance

open CText (showInt strtol toInt tokens appendBounded appendCopy)

/-- Conversion to `uint64_t`. -/
def toU64 (n : ℤ) : ℕ := (n % 2 ^ 64).toNat

/-- `irq_t`. -/
structure UiIrq where
  vector : ℤ
  load : ℕ := 0
  diff : ℕ := 0
  irqClass : ℤ := 0
  isBanned : Bool := false
  assignedTo : List ℤ := []
deriving DecidableEq, Repr

/-- `cpu_ban_t`. -/
structure CpuBan where
  number : ℤ
  isBanned : Bool := false
deriving DecidableEq, Repr

/-- `setup_t`. -/
structure Setup where
  sleep : ℕ
  bannedIrqs : List UiIrq
  bannedCpus : List ℕ
deriving DecidableEq, Repr

/-- The loops `while(g_str_has_prefix(token, "IRQ"))`, with the tokens left. -/
def parseIrqs (isBanned : Bool) : List (List Char) → Option (List UiIrq × List (List Char))
  | [] => some ([], [])
  | token :: rest =>
    if hasPrefix token "IRQ".toList then
      match rest with
      | vector :: tokenLoad :: load :: tokenDiff :: diff :: tokenClass :: irqClass :: rest =>
        if hasPrefix tokenLoad "LOAD".toList ∧ hasPrefix tokenDiff "DIFF".toList ∧
            hasPrefix tokenClass "CLASS".toList then
          let irq : UiIrq :=
            { vector := toInt (strtol vector), load := toU64 (strtol load)
              diff := toU64 (strtol diff), irqClass := toInt (strtol irqClass), isBanned := isBanned }
          (parseIrqs isBanned rest).map fun result => (irq :: result.1, result.2)
        else none
      | _ => none
    else some ([], token :: rest)

/-- `hex_to_bitmap`; the text for another character is static, and the caller frees it. -/
def hexToBitmap (hexDigit : Char) : Option (List Char) :=
  let digit : Option ℕ :=
    if '0' ≤ hexDigit ∧ hexDigit ≤ '9' then some (hexDigit.toNat - '0'.toNat)
    else if 'a' ≤ hexDigit ∧ hexDigit ≤ 'f' then some (hexDigit.toNat - 'a'.toNat + 10)
    else if 'A' ≤ hexDigit ∧ hexDigit ≤ 'F' then some (hexDigit.toNat - 'A'.toNat + 10)
    else none
  digit.map fun digit => [digit / 8, digit / 4, digit / 2, digit].map
    fun rest => if rest % 2 = 1 then '1' else '0'

/-- The loop of `parse_setup` over the mask, from its last character to its first. -/
def parseMask : List Char → ℕ → Option (List ℕ)
  | [], _ => some []
  | c :: rest, cpu =>
    if c = ',' then parseMask rest cpu else
    match hexToBitmap c with
    | none => none
    | some map =>
      let set := (List.range 4).filter fun j => map.reverse[j]? == some '1'
      (parseMask rest (cpu + 4)).map fun cpus => set.map (cpu + ·) ++ cpus

/-- `parse_setup`. -/
def parseSetup (setupData : List Char) : Option Setup :=
  match tokens setupData with
  | token :: sleep :: rest =>
    if !hasPrefix token "SLEEP".toList then none else
    match parseIrqs true rest with
    | some (irqs, banned :: mask :: _) =>
      if !hasPrefix banned "BANNED".toList then none
      else (parseMask mask.reverse 0).map fun cpus => ⟨toU64 (strtol sleep), irqs, cpus⟩
    | _ => none
  | _ => none

/-- The fields of `cpu_node_t` that the text carries. -/
structure NodeData where
  type : ℕ
  number : ℤ
  load : ℕ
  isPowersave : ℤ
  irqs : List UiIrq
deriving DecidableEq, Repr

/-- `cpu_node_t` with its children. -/
inductive CpuNode where
  | mk (data : NodeData) (children : List CpuNode)

/-- `tree`, and the path from the cursor `parent` to its root. -/
structure Cursor where
  tree : List CpuNode := []
  path : List (NodeData × List CpuNode) := []

/-- `parent = parent->parent`. -/
def Cursor.leave (cursor : Cursor) : Cursor :=
  match cursor.path with
  | [] => cursor
  | [(data, children)] => { tree := cursor.tree ++ [.mk data children], path := [] }
  | (data, children) :: (parent, siblings) :: path =>
    { cursor with path := (parent, siblings ++ [.mk data children]) :: path }

/-- `parent = NULL`, after `depth` steps. -/
def Cursor.leaveAll : ℕ → Cursor → Cursor
  | 0, cursor => cursor
  | depth + 1, cursor => Cursor.leaveAll depth cursor.leave

/-- The cursor's root, with everything that is open. -/
def Cursor.close (cursor : Cursor) : Cursor := cursor.leaveAll cursor.path.length

/-- `OBJ_TYPE_NODE` and `OBJ_TYPE_CPU` as numbers. -/
def OBJ_TYPE_NODE : ℕ := ObjType.node.toNat
def OBJ_TYPE_CPU : ℕ := ObjType.cpu.toNat

/-- The new cursor position that the type of a record asks for. -/
def Cursor.climb (type : ℕ) (cursor : Cursor) : Option Cursor :=
  if type = OBJ_TYPE_NODE then some cursor.close else
  match cursor.path with
  | [] => none
  | (parent, _) :: _ => some (if type ≥ parent.type then cursor.leave else cursor)

/-- List the new node under the cursor, and move the cursor to it unless it is a CPU. -/
def Cursor.add (new : NodeData) (cursor : Cursor) : Cursor :=
  if new.type ≠ OBJ_TYPE_CPU then { cursor with path := (new, []) :: cursor.path } else
  match cursor.path with
  | [] => { cursor with tree := cursor.tree ++ [.mk new []] }
  | (parent, siblings) :: path =>
    { cursor with path := (parent, siblings ++ [.mk new []]) :: path }

/-- One record of the text: its node and the tokens left. -/
def parseRecord : List (List Char) → Option (NodeData × List (List Char))
  | tokenType :: type :: tokenNumber :: number :: tokenLoad :: load :: tokenMode :: mode :: rest =>
    if hasPrefix tokenType "TYPE".toList ∧ hasPrefix tokenNumber "NUMBER".toList ∧
        hasPrefix tokenLoad "LOAD".toList ∧ hasPrefix tokenMode "SAVE_MODE".toList then
      (parseIrqs false rest).map fun result =>
        ({ type := (strtol type % 2 ^ 32).toNat, number := toInt (strtol number)
           load := toU64 (strtol load), isPowersave := toInt (strtol mode), irqs := result.1 },
          result.2)
    else none
  | _ => none

/-- The loop of `parse_into_tree`. A record takes at least eight tokens, so that their number
bounds the rounds. -/
def parseRecords : ℕ → List (List Char) → Cursor → Option Cursor
  | _, [], cursor => some cursor
  | 0, _, _ => none
  | fuel + 1, tokens, cursor =>
    match parseRecord tokens with
    | none => none
    | some (new, rest) =>
      match cursor.climb new.type with
      | none => none
      | some cursor => parseRecords fuel rest (cursor.add new)

mutual

/-- `cpu_list`: the node's own number, or the lists of its children. -/
def CpuNode.cpuList : CpuNode → List ℤ
  | .mk data [] => [data.number]
  | .mk _ (child :: children) => concatChildLists (child :: children)

/-- `concat_child_lists`. -/
def concatChildLists : List CpuNode → List ℤ
  | [] => []
  | child :: children => child.cpuList ++ concatChildLists children

end

/-- `copy_cpu_list_to_irq`. -/
def copyCpuListToIrq (cpuList : List ℤ) (irq : UiIrq) : UiIrq :=
  { irq with assignedTo := cpuList.insertionSort (· ≤ ·) }

mutual

/-- `assign_cpu_lists`. -/
def assignCpuLists : CpuNode → CpuNode
  | .mk data children =>
    .mk { data with irqs := data.irqs.map (copyCpuListToIrq (CpuNode.mk data children).cpuList) }
      (assignAll children)

/-- `for_each_node(children, assign_cpu_lists, NULL)`. -/
def assignAll : List CpuNode → List CpuNode
  | [] => []
  | child :: children => assignCpuLists child :: assignAll children

end

/-- `parse_into_tree`. -/
def parseIntoTree (data : List Char) : Option (List CpuNode) :=
  (parseRecords (tokens data).length (tokens data) {}).map fun cursor => assignAll cursor.close.tree

/-- The size of `settings_string`. -/
def SETTINGS_SIZE : ℕ := 1024

/-- `BAN_IRQS`. -/
def BAN_IRQS : List Char := "settings ban irqs ".toList

/-- `get_new_irq_ban_values`. -/
def getNewIrqBanValues (irq : UiIrq) (banList : List Char) : List Char :=
  if irq.isBanned then appendBounded SETTINGS_SIZE banList (' ' :: showInt irq.vector) else banList

/-- The message of `handle_irq_banning`; `none` when its buffer is left without a NUL. -/
def handleIrqBanning (allIrqs : List UiIrq) : Option (List Char) :=
  let settingsString := forEach allIrqs getNewIrqBanValues BAN_IRQS
  if hasPrefix settingsString BAN_IRQS then appendCopy SETTINGS_SIZE settingsString " NONE".toList
  else some settingsString

/-- `get_new_cpu_ban_values`. -/
def getNewCpuBanValues (cpu : CpuBan) (maskData : List Char) : List Char :=
  if cpu.isBanned then appendBounded SETTINGS_SIZE maskData (showInt cpu.number ++ [','])
  else maskData

/-- The message of `handle_cpu_banning`; `none` when its buffer is left without a NUL. -/
def handleCpuBanning (allCpus : List CpuBan) : Option (List Char) :=
  let settingsString := forEach allCpus getNewCpuBanValues "settings cpus ".toList
  if hasPrefix settingsString "settings cpus ".toList then
    appendCopy SETTINGS_SIZE settingsString "NULL".toList
  else some settingsString

/-- `toggle_irq`, with the value it returns. -/
def toggleIrq : List UiIrq → ℕ → List UiIrq × ℤ
  | [], _ => ([], -1)
  | irq :: irqs, 0 => ({ irq with isBanned := !irq.isBanned } :: irqs, if irq.isBanned then 0 else 1)
  | irq :: irqs, position + 1 =>
    let (irqs, banned) := toggleIrq irqs position
    (irq :: irqs, banned)

/-- The variables `rbot` and `rtop`, which keep their values from one IRQ to the next. -/
structure Bounds where
  rbot : ℤ := 0
  rtop : ℤ := 0
deriving DecidableEq, Repr

/-- `bsnl_emit`. -/
def bsnlEmit (buflen : ℕ) (bounds : Bounds) (buf : List Char) : List Char :=
  let buf := if buf.isEmpty then buf else appendBounded buflen buf [',']
  if bounds.rbot = bounds.rtop then appendBounded buflen buf (showInt bounds.rbot)
  else appendBounded buflen buf (showInt bounds.rbot ++ '-' :: showInt bounds.rtop)

/-- `copy_assigned_obj` for a buffer of any size. -/
def copyAssignedObj (buflen : ℕ) (number : ℤ) (state : Bounds × List Char) : Bounds × List Char :=
  let (bounds, data) := state
  if bounds.rtop = -1 then ({ rbot := number, rtop := number }, data)
  else if number > toInt (bounds.rtop + 1) then
    ({ rbot := number, rtop := number }, bsnlEmit buflen bounds data)
  else ({ bounds with rtop := number }, data)

/-- The walk over `assigned_to` and the last `bsnl_emit`. -/
def assignedObjectsString (buflen : ℕ) (assignedTo : List ℤ) (bounds : Bounds) : Bounds × List Char :=
  let (bounds, data) := forEach assignedTo (copyAssignedObj buflen) ({ bounds with rtop := -1 }, [])
  (bounds, bsnlEmit buflen bounds data)

/-- `print_assigned_objects_string`: the variables behind it, and what it prints. -/
def printAssignedObjectsString (irq : UiIrq) (bounds : Bounds) : Bounds × Option (List Char) :=
  if irq.isBanned then (bounds, none) else
  let (bounds, assignedTo) := assignedObjectsString 128 irq.assignedTo bounds
  (bounds, some assignedTo)

end Irqbalance
