import Irqbalance.Lib.Handles
import Irqbalance.Model.Scan

/-! # The thermal netlink session

thermal.c from `init_thermal` to `deinit_thermal`: the set-up of the socket with its callbacks, the notifications that
it receives, and the failures after which it is given up. What the netlink library answers is arbitrary. Its functions
take null pointers where they free.
-/

namespace Irqbalance

open CText (cString toInt)
open Handles

/-- What the set-up acquires. -/
inductive NetlinkHandle where
  | sock
  | callback
  | msg
  | clonedCallback
deriving DecidableEq, Repr

/-- A nested attribute of the multicast groups, as far as it can be parsed. -/
structure GroupAttr where
  name : Option (List Char)
  id : Option (BitVec 32)

/-- What the callbacks of the set-up are called with. -/
inductive NetlinkCallback where
  /-- A message; `none` without attributes or groups. -/
  | valid (groups : Option (List GroupAttr))
  | error (code : ℤ)
  | ack
  | finish

/-- A call of `nl_recvmsgs` in the set-up. -/
structure NetlinkReceive where
  callbacks : List NetlinkCallback
  rc : ℤ

/-- What the library answers in the set-up; pointers are `false` when null. -/
structure NetlinkAnswers where
  nlSocketAlloc : Bool
  genlConnect : ℤ
  nlCbAlloc : Bool
  nlmsgAlloc : Bool
  genlCtrlResolve : ℤ
  genlmsgPut : Bool
  nlaPutString : ℤ
  nlCbClone : Bool
  nlSendAuto : ℤ
  nlCbErr : ℤ
  nlCbSetAck : ℤ
  nlCbSetFinish : ℤ
  nlCbSetValid : ℤ
  receives : List NetlinkReceive
  nlSocketAddMembership : ℤ → ℤ
  nprocessors : ℤ
  nlCbSetSeqCheck : ℤ
  nlCbSetEvent : ℤ
  nlSocketSetNonblocking : ℤ
  nlSocketGetFd : ℤ

/-- `NLE_INTR`. -/
def NLE_INTR : ℤ := 2

/-- `-ENOENT`, the group that has not been found. -/
def NO_GROUP : ℤ := -2

/-- `THERMAL_GENL_EVENT_GROUP_NAME`. -/
def THERMAL_GENL_EVENT_GROUP_NAME : List Char := "event".toList

/-- `INVALID_NL_FD` and `SYSCONF_ERR`. -/
def INVALID_NL_FD : ℤ := -1
def SYSCONF_ERR : ℤ := -1

/-- `MAX_RECV_ERRS`. -/
def MAX_RECV_ERRS : ℕ := 2

/-- `strncmp(name, group, nla_len(name)) == 0`. -/
def namesGroup (name group : List Char) : Bool :=
  if '\x00' ∈ name then cString name == group else name.isPrefixOf group

/-- `handle_groupid` on the groups of a message: the first one with the name sets the id. -/
def handleGroupid (groups : Option (List GroupAttr)) (id : ℤ) : ℤ :=
  let found := (groups.getD []).find? fun g =>
    g.name.any (fun name => namesGroup name THERMAL_GENL_EVENT_GROUP_NAME) && g.id.isSome
  match found.bind GroupAttr.id with
  | none => id
  | some value => toInt value.toNat

/-- One of the callbacks, on `callback_rc` and the id: `handle_groupid`, `handle_error` or `handle_end`. -/
def NetlinkCallback.run (rcAndId : ℤ × ℤ) : NetlinkCallback → ℤ × ℤ
  | .valid groups => (rcAndId.1, handleGroupid groups rcAndId.2)
  | .error code => (if code ≠ -NLE_INTR then code else rcAndId.1, rcAndId.2)
  | .ack => (0, rcAndId.2)
  | .finish => (0, rcAndId.2)

/-- `while (callback_rc != 0)`: whether a call fails, the id, and how many calls there are; `none` when the next call
waits for ever. -/
def receiveGroups : List NetlinkReceive → ℤ × ℤ → Option (Bool × ℤ × ℕ)
  | receives, (callbackRc, id) =>
    if callbackRc = 0 then some (false, id, 0) else
    match receives with
    | [] => none
    | r :: rest =>
      let rcAndId := r.callbacks.foldl NetlinkCallback.run (callbackRc, id)
      if r.rc < 0 then some (true, rcAndId.2, 1)
      else (receiveGroups rest rcAndId).map fun (failed, id, calls) => (failed, id, calls + 1)

/-- The statics `sock` and `callback`, `false` when null. -/
structure NetlinkStatics where
  sock : Bool := false
  callback : Bool := false
deriving DecidableEq, Repr

/-- What a part of the set-up does: whether it fails, and its calls. -/
abbrev SetUp := Bool × List (Call NetlinkHandle)

section SetUp

variable (a : NetlinkAnswers)

/-- `prepare_netlink`. -/
def prepareNetlink : NetlinkStatics × SetUp :=
  if !a.nlSocketAlloc then ({}, true, [])
  else if a.genlConnect ≠ 0 then ({ sock := true }, true, [.acquire .sock, .use .sock])
  else if !a.nlCbAlloc then ({ sock := true }, true, [.acquire .sock, .use .sock])
  else ({ sock := true, callback := true }, false, [.acquire .sock, .use .sock, .acquire .callback])

/-- The label `err_out` of `establish_netlink`. -/
def establishEnd (clonedCallback msg : Bool) : List (Call NetlinkHandle) :=
  (if clonedCallback then [.release .clonedCallback] else []) ++ if msg then [.release .msg] else []

/-- `establish_netlink` from `nl_send_auto` on, when everything has been allocated. -/
def askForGroup : Option SetUp :=
  let calls := [.use .sock, .use .msg]
  if a.nlSendAuto < 0 then some (true, calls ++ establishEnd true true) else
  let calls := calls ++ [.use .clonedCallback]
  if a.nlCbErr ≠ 0 then some (true, calls ++ establishEnd true true) else
  let calls := calls ++ [.use .clonedCallback]
  if a.nlCbSetAck ≠ 0 then some (true, calls ++ establishEnd true true) else
  let calls := calls ++ [.use .clonedCallback]
  if a.nlCbSetFinish ≠ 0 then some (true, calls ++ establishEnd true true) else
  let calls := calls ++ [.use .clonedCallback]
  if a.nlCbSetValid ≠ 0 then some (true, calls ++ establishEnd true true) else
  match receiveGroups a.receives (1, NO_GROUP) with
  | none => none
  | some (failed, groupId, received) =>
    let calls := calls ++ (List.replicate received [.use .sock, .use .clonedCallback]).flatten
    if failed then some (true, calls ++ establishEnd true true)
    else if groupId < 0 then some (true, calls ++ establishEnd true true)
    else
      let calls := calls ++ [.use .sock]
      some (decide (a.nlSocketAddMembership groupId ≠ 0), calls ++ establishEnd true true)

/-- `establish_netlink`; `none` when it waits for ever. -/
def establishNetlink : Option SetUp :=
  if !a.nlmsgAlloc then some (true, establishEnd false false) else
  let calls := [.acquire .msg, .use .sock]
  if a.genlCtrlResolve < 0 then some (true, calls ++ establishEnd false true) else
  let calls := calls ++ [.use .msg]
  if !a.genlmsgPut then some (true, calls ++ establishEnd false true) else
  let calls := calls ++ [.use .msg]
  if a.nlaPutString ≠ 0 then some (true, calls ++ establishEnd false true) else
  let calls := calls ++ [.use .callback]
  if !a.nlCbClone then some (true, calls ++ establishEnd false true) else
  let calls := calls ++ [.acquire .clonedCallback]
  (askForGroup a).map fun (error, asked) => (error, calls ++ asked)

/-- `register_netlink_handler`. -/
def registerNetlinkHandler : SetUp :=
  if a.nprocessors = SYSCONF_ERR then (true, [])
  else if a.nlCbSetSeqCheck ≠ 0 then (true, [.use .callback])
  else (decide (a.nlCbSetEvent ≠ 0), [.use .callback, .use .callback])

/-- `set_netlink_nonblocking`. -/
def setNetlinkNonblocking : SetUp :=
  if a.nlSocketSetNonblocking ≠ 0 then (true, [.use .sock])
  else (decide (a.nlSocketGetFd = INVALID_NL_FD), [.use .sock, .use .sock])

/-- `deinit_thermal`. -/
def deinitThermal (statics : NetlinkStatics) : NetlinkStatics × List (Call NetlinkHandle) :=
  ({}, (if statics.callback then [.release .callback] else []) ++ if statics.sock then [.release .sock] else [])

/-- The label `err_out` of `init_thermal`. -/
def initThermalFailed (statics : NetlinkStatics) (calls : List (Call NetlinkHandle)) : NetlinkStatics × SetUp :=
  let (statics, freed) := deinitThermal statics
  (statics, true, calls ++ freed)

/-- `init_thermal`; `none` when it waits for ever. -/
def initThermal : Option (NetlinkStatics × SetUp) :=
  let (statics, error, calls) := prepareNetlink a
  if error then some (initThermalFailed statics calls) else
  match establishNetlink a with
  | none => none
  | some (error, asked) =>
    let calls := calls ++ asked
    if error then some (initThermalFailed statics calls) else
    let (error, registered) := registerNetlinkHandler a
    let calls := calls ++ registered
    if error then some (initThermalFailed statics calls) else
    let (error, set) := setNetlinkNonblocking a
    let calls := calls ++ set
    if error then some (initThermalFailed statics calls) else some (statics, false, calls)

end SetUp

/-- A call of `nl_recvmsgs` in the main loop: the triples of the notifications that it handles, and what it returns. -/
structure ThermalReceive where
  notifications : List (List ThermalEvent)
  err : ℤ

/-- The daemon with the source of the socket: whether it is there, and the static `retry`. -/
structure Session where
  daemon : Daemon
  connected : Bool
  retry : ℕ := 0

/-- What the main loop can dispatch next: a call of `receive_thermal_event` (with `G_IO_IN` or without), or another
callback. -/
inductive SessionEvent where
  | receive (input : Bool) (r : ThermalReceive)
  | scan (r : ScanReading)
  | hangup
  | terminate
  | message (buff : List Char)

/-- `receive_thermal_event`, when the main loop calls it. -/
def receiveThermalEvent (input : Bool) (r : ThermalReceive) (l : Session) : Session :=
  if !input then l else
  let l := { l with daemon := r.notifications.foldl (fun d events => handleThermal events d) l.daemon }
  if r.err = 0 then l else
  let l := { l with retry := l.retry + 1 }
  -- pass a few failures then turn off
  if l.retry ≤ MAX_RECV_ERRS then l else { l with connected := false }

/-- One callback of the main loop. -/
def Session.dispatch (env : Env) (l : Session) : SessionEvent → Session
  | .receive input r => if l.connected then receiveThermalEvent input r l else l
  | .scan r => { l with daemon := Irqbalance.dispatch env l.daemon (.scan r) }
  | .hangup => { l with daemon := Irqbalance.dispatch env l.daemon .hangup }
  | .terminate => { l with daemon := Irqbalance.dispatch env l.daemon .terminate }
  | .message buff => { l with daemon := Irqbalance.dispatch env l.daemon (.message buff) }

/-- The calls on handles that a callback makes. -/
def Session.calls (l : Session) : SessionEvent → List (Call NetlinkHandle)
  | .receive true _ => if l.connected then [.use .sock, .use .callback] else []
  | _ => []

/-- The main loop: the session after it, and its calls on handles. -/
def runSession (env : Env) : List SessionEvent → Session → Session × List (Call NetlinkHandle)
  | [], l => (l, [])
  | e :: events, l =>
    let (l', later) := runSession env events (l.dispatch env e)
    (l', l.calls e ++ later)

/-- `main` from `init_thermal` to `deinit_thermal`, as far as handles are concerned; `none` when the set-up waits for
ever. -/
def thermalCalls (env : Env) (a : NetlinkAnswers) (events : List SessionEvent) (d : Daemon) :
    Option (List (Call NetlinkHandle)) :=
  (initThermal a).map fun (statics, error, calls) =>
    calls ++ (runSession env events { daemon := d, connected := !error }).2 ++ (deinitThermal statics).2

end Irqbalance
