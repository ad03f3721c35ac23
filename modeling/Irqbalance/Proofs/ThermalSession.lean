import Irqbalance.Model.ThermalSession

/-! # The thermal netlink session

Whatever fails, each handle is acquired once, used only while it is live, and freed once. The third failure to receive
ends the session, however far apart the failures are, and leaves the thermal bans as they are for good.
-/

namespace Irqbalance

open Handles

variable {K : Env} {a : NetlinkAnswers} {statics : NetlinkStatics} {error : Bool} {calls : List (Call NetlinkHandle)}

section SetUp

/-- The handles that the statics point to. -/
def NetlinkStatics.live (statics : NetlinkStatics) : List NetlinkHandle :=
  (if statics.callback then [.callback] else []) ++ if statics.sock then [.sock] else []

theorem prepareNetlink_spec : play (prepareNetlink a).2.2 [] = some (prepareNetlink a).1.live ∧
    ((prepareNetlink a).2.1 = false → (prepareNetlink a).1 = ⟨true, true⟩) := by
  unfold prepareNetlink
  split_ifs
  · exact ⟨rfl, nofun⟩
  · exact ⟨rfl, nofun⟩
  · exact ⟨rfl, nofun⟩
  · exact ⟨rfl, fun _ => rfl⟩

/-- What is behind the label frees the copy of the callback and the message. -/
theorem play_establishEnd {used : List (Call NetlinkHandle)}
    (uses : ∀ c ∈ used, ∃ h ∈ [NetlinkHandle.clonedCallback, .msg, .callback, .sock], c = .use h) :
    play (used ++ establishEnd true true) [.clonedCallback, .msg, .callback, .sock] = some [.callback, .sock] := by
  rw [play_append, play_uses uses]
  rfl

/-- The handles that the calls to receive use. -/
theorem uses_received (received : ℕ) : ∀ c ∈ (List.replicate received [Call.use NetlinkHandle.sock,
    .use .clonedCallback]).flatten, ∃ h ∈ [NetlinkHandle.clonedCallback, .msg, .callback, .sock], c = .use h := by
  intro c member
  obtain ⟨round, inside, member⟩ := List.mem_flatten.mp member
  obtain rfl := List.eq_of_mem_replicate inside
  rcases List.mem_pair.mp member with rfl | rfl
  · exact ⟨.sock, by decide, rfl⟩
  · exact ⟨.clonedCallback, by decide, rfl⟩

theorem askForGroup_spec (asked : askForGroup a = some (error, calls)) :
    play calls [.clonedCallback, .msg, .callback, .sock] = some [.callback, .sock] := by
  unfold askForGroup at asked
  dsimp only at asked
  split_ifs at asked
  · cases asked
    exact play_establishEnd (by decide)
  · cases asked
    exact play_establishEnd (by decide)
  · cases asked
    exact play_establishEnd (by decide)
  · cases asked
    exact play_establishEnd (by decide)
  · cases asked
    exact play_establishEnd (by decide)
  · cases grouped : receiveGroups a.receives (1, NO_GROUP) with
    | none =>
      rw [grouped] at asked
      cases asked
    | some group =>
      obtain ⟨failed, groupId, received⟩ := group
      rw [grouped] at asked
      dsimp only at asked
      have first : ∀ c ∈ [Call.use NetlinkHandle.sock, .use .msg, .use .clonedCallback, .use .clonedCallback,
          .use .clonedCallback, .use .clonedCallback],
          ∃ h ∈ [NetlinkHandle.clonedCallback, .msg, .callback, .sock], c = .use h := by decide
      have both := List.forall_mem_append.mpr ⟨first, uses_received received⟩
      split_ifs at asked
      · cases asked
        exact play_establishEnd both
      · cases asked
        exact play_establishEnd both
      · cases asked
        exact play_establishEnd (List.forall_mem_append.mpr ⟨both, by decide⟩)

theorem establishNetlink_spec (established : establishNetlink a = some (error, calls)) :
    play calls [.callback, .sock] = some [.callback, .sock] := by
  unfold establishNetlink at established
  dsimp only at established
  split_ifs at established
  · cases established
    rfl
  · cases established
    rfl
  · cases established
    rfl
  · cases established
    rfl
  · cases established
    rfl
  · obtain ⟨⟨error', asked⟩, grouped, same⟩ := Option.map_eq_some_iff.mp established
    cases same
    rw [play_append]
    exact askForGroup_spec grouped

theorem registerNetlinkHandler_spec :
    play (registerNetlinkHandler a).2 [.callback, .sock] = some [.callback, .sock] := by
  unfold registerNetlinkHandler
  split_ifs <;> rfl

theorem setNetlinkNonblocking_spec :
    play (setNetlinkNonblocking a).2 [.callback, .sock] = some [.callback, .sock] := by
  unfold setNetlinkNonblocking
  split_ifs <;> rfl

theorem deinitThermal_spec (statics : NetlinkStatics) : play (deinitThermal statics).2 statics.live = some [] := by
  obtain ⟨sock, callback⟩ := statics
  cases sock <;> cases callback <;> rfl

/-- A set-up that fails leaves nothing behind; one that succeeds leaves the socket and the callback. -/
theorem initThermal_spec (set : initThermal a = some (statics, error, calls)) :
    play calls [] = some statics.live ∧ statics = ⟨!error, !error⟩ := by
  obtain ⟨prepared, whole⟩ := prepareNetlink_spec (a := a)
  have failed {statics₀ : NetlinkStatics} {calls₀ : List (Call NetlinkHandle)} (live : play calls₀ [] = some statics₀.live) :
      play (initThermalFailed statics₀ calls₀).2.2 [] = some [] := by
    change play (calls₀ ++ (deinitThermal statics₀).2) [] = some []
    rw [play_append, live]
    exact deinitThermal_spec statics₀
  unfold initThermal at set
  generalize prepareNetlink a = first at prepared whole set
  obtain ⟨statics₀, error₀, calls₀⟩ := first
  dsimp only at prepared whole set
  cases error₀ with
  | true =>
    rw [if_pos rfl] at set
    cases set
    exact ⟨failed prepared, rfl⟩
  | false =>
    obtain rfl := whole rfl
    have live : (⟨true, true⟩ : NetlinkStatics).live = [.callback, .sock] := rfl
    rw [if_neg Bool.false_ne_true] at set
    cases grouped : establishNetlink a with
    | none =>
      rw [grouped] at set
      cases set
    | some established =>
      obtain ⟨error₁, asked⟩ := established
      rw [grouped] at set
      dsimp only at set
      have second : play (calls₀ ++ asked) [] = some (⟨true, true⟩ : NetlinkStatics).live := by
        rw [play_append, prepared, live]
        exact establishNetlink_spec grouped
      have third : play (calls₀ ++ asked ++ (registerNetlinkHandler a).2) [] =
          some (⟨true, true⟩ : NetlinkStatics).live := by
        rw [play_append, second, live]
        exact registerNetlinkHandler_spec
      have fourth : play (calls₀ ++ asked ++ (registerNetlinkHandler a).2 ++ (setNetlinkNonblocking a).2) [] =
          some (⟨true, true⟩ : NetlinkStatics).live := by
        rw [play_append, third, live]
        exact setNetlinkNonblocking_spec
      split_ifs at set
      · cases set
        exact ⟨failed second, rfl⟩
      · cases set
        exact ⟨failed third, rfl⟩
      · cases set
        exact ⟨failed fourth, rfl⟩
      · cases set
        exact ⟨fourth, rfl⟩

end SetUp

section Sessions

variable {events : List SessionEvent} {l : Session}

theorem dispatch_connected (e : SessionEvent) (connected : (l.dispatch K e).connected = true) : l.connected = true := by
  cases e with
  | receive input r =>
    rw [Session.dispatch] at connected
    by_contra gone
    rw [if_neg gone] at connected
    exact gone connected
  | _ => exact connected

theorem runSession_calls (events : List SessionEvent) (l : Session) {live : List NetlinkHandle}
    (known : l.connected = true → live = [.callback, .sock]) : play (runSession K events l).2 live = some live := by
  induction events generalizing l with
  | nil => rfl
  | cons e events ih =>
    have uses : play (l.calls e) live = some live := by
      apply play_uses
      cases e with
      | receive input r =>
        cases input with
        | false => exact nofun
        | true =>
          intro c member
          rw [Session.calls] at member
          split at member
          · rename_i connected
            rw [known connected]
            rcases List.mem_pair.mp member with rfl | rfl
            · exact ⟨.sock, by decide, rfl⟩
            · exact ⟨.callback, by decide, rfl⟩
          · contradiction
      | _ => exact nofun
    change play (l.calls e ++ (runSession K events (l.dispatch K e)).2) live = some live
    rw [play_append, uses]
    exact ih _ fun connected => known (dispatch_connected e connected)

/-- From the set-up to the end of the program each handle is acquired before it is used, and freed once. -/
theorem thermalCalls_balanced (d : Daemon) (run : thermalCalls K a events d = some calls) : play calls [] = some [] := by
  obtain ⟨⟨statics, error, first⟩, set, rfl⟩ := Option.map_eq_some_iff.mp run
  obtain ⟨live, rfl⟩ := initThermal_spec set
  dsimp only
  rw [play_append, play_append, live, Option.bind_some, runSession_calls, Option.bind_some]
  · exact deinitThermal_spec _
  · intro connected
    have succeeded : (!error) = true := connected
    rw [succeeded]
    rfl

/-- A library that does what it is asked for, and finds the group. -/
def obligingAnswers : NetlinkAnswers where
  nlSocketAlloc := true
  genlConnect := 0
  nlCbAlloc := true
  nlmsgAlloc := true
  genlCtrlResolve := 16
  genlmsgPut := true
  nlaPutString := 0
  nlCbClone := true
  nlSendAuto := 32
  nlCbErr := 0
  nlCbSetAck := 0
  nlCbSetFinish := 0
  nlCbSetValid := 0
  receives := [⟨[.valid (some [⟨some "event\x00".toList, some 5⟩])], 0⟩, ⟨[.ack], 0⟩]
  nlSocketAddMembership _ := 0
  nprocessors := 4
  nlCbSetSeqCheck := 0
  nlCbSetEvent := 0
  nlSocketSetNonblocking := 0
  nlSocketGetFd := 7

theorem thermalCalls_balanced_obliging : ∃ calls, thermalCalls {} obligingAnswers
    [.receive true ⟨[], 0⟩, .hangup] { state := {}, settings := { sleepInterval := 10 } } = some calls ∧
      play calls [] = some [] := by
  obtain ⟨calls, run⟩ : ∃ calls, thermalCalls {} obligingAnswers [.receive true ⟨[], 0⟩, .hangup]
      { state := {}, settings := { sleepInterval := 10 } } = some calls := ⟨_, rfl⟩
  exact ⟨calls, run, thermalCalls_balanced _ run⟩

/-- The call fails to receive. -/
def SessionEvent.failing : SessionEvent → Bool
  | .receive true r => decide (r.err ≠ 0)
  | _ => false

/-- The source is there until the third failure. -/
structure Session.Counted (l : Session) : Prop where
  connected : l.connected = decide (l.retry ≤ MAX_RECV_ERRS)
  few : l.retry ≤ MAX_RECV_ERRS + 1

theorem Session.Counted.dispatch (counted : l.Counted) (e : SessionEvent) : (l.dispatch K e).Counted ∧
    (l.dispatch K e).retry = min (MAX_RECV_ERRS + 1) (l.retry + e.failing.toNat) := by
  have few := counted.few
  have same : l.retry = min (MAX_RECV_ERRS + 1) (l.retry + 0) := by omega
  cases e with
  | receive input r =>
    rw [Session.dispatch]
    split
    · rename_i connected
      rw [counted.connected, decide_eq_true_iff] at connected
      cases input with
      | false => exact ⟨counted, same⟩
      | true =>
        unfold receiveThermalEvent
        dsimp only [SessionEvent.failing]
        rw [if_neg (by decide)]
        split
        · rename_i received
          rw [decide_eq_false (not_not.mpr received)]
          exact ⟨⟨counted.connected, few⟩, same⟩
        · rename_i failed
          rw [decide_eq_true failed]
          split
          · rename_i again
            refine ⟨⟨?_, again.trans (Nat.le_succ _)⟩, ?_⟩
            · rw [counted.connected, decide_eq_true connected, decide_eq_true again]
            · rw [Bool.toNat_true]
              exact (Nat.min_eq_right (again.trans (Nat.le_succ _))).symm
          · rename_i last
            refine ⟨⟨(decide_eq_false last).symm, Nat.succ_le_succ connected⟩, ?_⟩
            rw [Bool.toNat_true]
            exact (Nat.min_eq_right (Nat.succ_le_succ connected)).symm
    · rename_i gone
      rw [counted.connected, decide_eq_true_iff] at gone
      refine ⟨counted, ?_⟩
      omega
  | _ => exact ⟨⟨counted.connected, few⟩, same⟩

theorem runSession_counted (events : List SessionEvent) (counted : l.Counted) : (runSession K events l).1.Counted ∧
    (runSession K events l).1.retry = min (MAX_RECV_ERRS + 1) (l.retry + events.countP SessionEvent.failing) := by
  induction events generalizing l with
  | nil => exact ⟨counted, by have := counted.few; rw [List.countP_nil]; exact (Nat.min_eq_right this).symm⟩
  | cons e events ih =>
    obtain ⟨next, retry⟩ := counted.dispatch (K := K) e
    obtain ⟨last, count⟩ := ih next
    refine ⟨last, ?_⟩
    change (runSession K events (l.dispatch K e)).1.retry = _
    rw [count, retry, List.countP_cons]
    cases e.failing with
    | true =>
      simp only [Bool.toNat_true, if_true]
      omega
    | false =>
      simp only [Bool.toNat_false, Bool.false_eq_true, if_false]
      omega

theorem runSession_append (events later : List SessionEvent) (l : Session) :
    (runSession K (events ++ later) l).1 = (runSession K later (runSession K events l).1).1 := by
  induction events generalizing l with
  | nil => rfl
  | cons e events ih => exact ih _

/-- Only thermal notifications change the thermal bans. -/
theorem dispatch_thermal (d : Daemon) (e : Event) (other : ∀ events, e ≠ .thermal events) :
    (dispatch K d e).thermal = d.thermal := by
  have parsed (r : InterruptsReading) (d : Daemon) : (parseProcInterrupts K r d).thermal = d.thermal := by
    unfold parseProcInterrupts
    split <;> rfl
  cases e with
  | scan r =>
    rw [dispatch, scan]
    split
    · rw [rescan, parsed]
      exact parsed _ _
    · rw [balance]
      exact parsed _ _
  | hangup =>
    rw [dispatch, forceRescan]
    split <;> rfl
  | terminate => rfl
  | message buff => rfl
  | thermal events => exact absurd rfl (other events)

theorem runSession_gone (events : List SessionEvent) (gone : l.connected = false) :
    (runSession K events l).1.daemon.thermal = l.daemon.thermal := by
  induction events generalizing l with
  | nil => rfl
  | cons e events ih =>
    have step : (l.dispatch K e).daemon.thermal = l.daemon.thermal := by
      cases e with
      | receive input r => rw [Session.dispatch, gone, if_neg Bool.false_ne_true]
      | scan r => exact dispatch_thermal _ _ nofun
      | hangup => exact dispatch_thermal _ _ nofun
      | terminate => rfl
      | message buff => rfl
    have stays : (l.dispatch K e).connected = false := by
      by_contra connected
      rw [dispatch_connected e (Bool.not_eq_false _ ▸ connected)] at gone
      contradiction
    exact (ih stays).trans step

/-- The third failure in all, and no other event, ends the session; no later event changes the thermal bans. -/
theorem runSession_bans (events later : List SessionEvent) (d : Daemon) :
    ((runSession K events ⟨d, true, 0⟩).1.connected = true ↔ events.countP SessionEvent.failing ≤ MAX_RECV_ERRS) ∧
      (MAX_RECV_ERRS < events.countP SessionEvent.failing →
        (runSession K (events ++ later) ⟨d, true, 0⟩).1.daemon.thermal =
          (runSession K events ⟨d, true, 0⟩).1.daemon.thermal) := by
  have fresh : (⟨d, true, 0⟩ : Session).Counted := ⟨rfl, Nat.zero_le _⟩
  obtain ⟨counted, retry⟩ := runSession_counted (K := K) events fresh
  have zero : (⟨d, true, 0⟩ : Session).retry = 0 := rfl
  have connected : (runSession K events ⟨d, true, 0⟩).1.connected = true ↔
      events.countP SessionEvent.failing ≤ MAX_RECV_ERRS := by
    rw [counted.connected, decide_eq_true_iff, retry, zero]
    omega
  refine ⟨connected, fun many => ?_⟩
  rw [runSession_append]
  apply runSession_gone
  rw [← Bool.not_eq_true, connected]
  exact Nat.not_le.mpr many

end Sessions

end Irqbalance
