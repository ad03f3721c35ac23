import Irqbalance.Model.Socket

/-! # Connections to the socket

`sock_handle` from `accept` to `close`. Its buffer is on the stack and not cleared: behind what `recvmsg` stores it
keeps what has been there before, and the keywords are looked up in all of it.
-/

namespace Irqbalance

open CText (cString strtoul toInt tokens)

/-- `sizeof(buff)`. -/
def BUFF_SIZE : ℕ := 16384

/-- `buff`. -/
structure Buffer where
  chars : List Char
  size : chars.length = BUFF_SIZE

/-- What `recvmsg` stores, and `recv_size` as its length. -/
structure Received where
  data : List Char
  fits : data.length ≤ BUFF_SIZE

/-- The buffer after `recvmsg`. -/
def Buffer.store (buff : Buffer) (received : Received) : Buffer where
  chars := received.data ++ buff.chars.drop received.data.length
  size := by rw [List.length_append, List.length_drop, buff.size, Nat.add_sub_cancel' received.fits]

/-- The first control message. -/
inductive Control where
  | none
  | credentials (uid : ℕ)
  | other
deriving DecidableEq, Repr

/-- `valid_user`. -/
def Control.validUser : Control → Bool
  | .credentials uid => uid == 0
  | _ => false

/-- What becomes of a call of `sock_handle`: the condition is not `G_IO_IN`, `accept` or `recvmsg` fails, or data
arrives. -/
inductive Connection where
  | noInput
  | refused
  | failed
  | received (arrived : Received) (control : Control)

/-- The copy of an argument: there may be no memory for it, or the copy may leave its block. -/
inductive Copied where
  | text (text : List Char)
  | noMemory
  | overrun

/-- `malloc(recv_size - skip + 1)`, `strncpy(text, buff + skip, recv_size - skip)` and
`text[recv_size - skip] = '\0'`. The differences are of type `size_t`: below -1 they ask for more memory than there
is, and -1 is an empty block and a copy without a bound. -/
def copyArgument (buff : Buffer) (recvSize skip : ℕ) : Copied :=
  if recvSize + 1 < skip then .noMemory
  else if recvSize < skip then .overrun
  else .text (cString ((buff.chars.take recvSize).drop skip))

/-- The branches for a buffer that starts with `"settings "`; `none` when a copy leaves its block. -/
def handleSettingsBuffer (buff : Buffer) (recvSize : ℕ) (c : Settings) : Option Settings :=
  let argument := buff.chars.drop "settings ".length
  if hasPrefix argument "sleep ".toList then
    match copyArgument buff recvSize "settings sleep ".length with
    | .overrun => none
    | .noMemory => some c
    | .text sleepString =>
      let newInterval := toInt (strtoul sleepString).1
      some (if newInterval ≥ 1 then { c with sleepInterval := newInterval } else c)
  else if hasPrefix argument "ban irqs ".toList then
    match copyArgument buff recvSize "settings ban irqs ".length with
    | .overrun => none
    | .noMemory => some c
    | .text irqString =>
      if hasPrefix irqString "NONE".toList then some { c with clBannedIrqs := [], needRescan := true }
      else
        let first := strtoul irqString
        some { c with
          clBannedIrqs := addBans (irqString.length + 1) (toInt first.1) first.2 []
          needRescan := true }
  else if hasPrefix argument "cpus ".toList then
    let c := { c with bannedCpumaskFromUi := none }
    match copyArgument buff recvSize "settings cpus ".length with
    | .overrun => none
    | .noMemory => some c
    | .text cpuBanString =>
      let fromUi := (tokens cpuBanString).head?
      some { c with
        bannedCpumaskFromUi := fromUi.filter fun mask => !hasPrefix mask "NULL".toList
        needRescan := true }
  else some c

/-- `sock_handle` on a buffer with these contents: the new settings and the replies, `none` when memory is overrun.
The jumps to `out_close` only pass by the test for `"setup"`, which fails behind `"settings "`. -/
def sockHandleConnection (s : State) (stale : Buffer) (connection : Connection) (c : Settings) :
    Option (Settings × List (List Char)) :=
  match connection with
  | .received arrived control =>
    let recvSize := arrived.data.length
    let buff := stale.store arrived
    -- too long, no credentials, or not those of root
    if recvSize = BUFF_SIZE ∨ control.validUser = false then some (c, [])
    else do
      let replies := if hasPrefix buff.chars "stats".toList then [stats s] else []
      let c ← if hasPrefix buff.chars "settings ".toList then handleSettingsBuffer buff recvSize c else some c
      some (c, if hasPrefix buff.chars "setup".toList then replies ++ [(setup c s.bannedCpus).1] else replies)
  | _ => some (c, [])

/-- A call of `sock_handle`, in the state and on the buffer that it finds. -/
structure SockCall where
  state : State
  stale : Buffer
  connection : Connection

/-- One call after the other. -/
def serve : List SockCall → Settings → Option (Settings × List (List Char))
  | [], c => some (c, [])
  | call :: calls, c => do
    let (c, replies) ← sockHandleConnection call.state call.stale call.connection c
    let (c, later) ← serve calls c
    some (c, replies ++ later)

/-- The message of a privileged user that has been received whole. -/
def Connection.granted : Connection → Option (List Char)
  | .received arrived control =>
    if arrived.data.length = BUFF_SIZE ∨ control.validUser = false then none else some arrived.data
  | _ => none

/-- The messages one after the other, each with the state that it is handled in. -/
def handleMessages : List (State × List Char) → Settings → Settings × List (List Char)
  | [], c => (c, [])
  | (s, message) :: messages, c =>
    let (c, replies) := sockHandle s message c
    let (c, later) := handleMessages messages c
    (c, replies ++ later)

/-- What the calls are asked by privileged users, as texts. -/
def granted (calls : List SockCall) : List (State × List Char) :=
  calls.filterMap fun call => call.connection.granted.map fun message => (call.state, cString message)

/-- A message that breaks off within a keyword such that what is behind it in the buffer matters. -/
def Torn (message : List Char) : Prop :=
  (∃ keyword ∈ ["stats".toList, "setup".toList, "settings cpus ".toList], message <+: keyword ∧ message ≠ keyword) ∨
    message = "settings sleep".toList ∨ message = "settings ban irqs".toList

end Irqbalance
