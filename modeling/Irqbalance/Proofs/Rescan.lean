import Irqbalance.Model.Scan
import Irqbalance.Proofs.Runs

/-! # Requests for a rescan

`need_rescan` is a flag that every producer may raise and only the rescan branch of `scan` clears.
`force_rescan` raises it when `cycle_count` is not zero, which is to say once a scan has gone all the
way since the tree was built. A request that is pending is served by the next scan unless the daemon
has been told to stop.
-/

namespace Irqbalance

variable {K : Env} {d : Daemon} {mid : List Event}

/-- A request is pending. -/
def Daemon.needRescan (d : Daemon) : Bool := d.settings.needRescan

/-- The event is a scan. -/
def Event.isScan : Event → Bool
  | .scan _ => true
  | _ => false

/-- The event stops the daemon. -/
def Event.isTerminate : Event → Bool
  | .terminate => true
  | _ => false

/-- What `scan` finds when it decides about its rescan branch. -/
def takesRescan (K : Env) (r : ScanReading) (d : Daemon) : Bool :=
  (parseProcInterrupts K r.interrupts d).keepGoing && (parseProcInterrupts K r.interrupts d).needRescan

section Flags

theorem parseProcInterrupts_keepGoing (r : InterruptsReading) :
    (parseProcInterrupts K r d).keepGoing = d.keepGoing := by
  unfold parseProcInterrupts
  split <;> rfl

/-- Parsing raises the flag and never clears it. -/
theorem parseProcInterrupts_needRescan (r : InterruptsReading) (pending : d.needRescan = true) :
    (parseProcInterrupts K r d).needRescan = true := by
  unfold parseProcInterrupts
  split
  · exact pending
  · change (d.needRescan || _) = true
    rw [pending, Bool.true_or]

/-- A message raises the flag or leaves it. -/
theorem handleSettings_needRescan {buff : List Char} {c : Settings} (pending : c.needRescan = true) :
    (handleSettings buff c).needRescan = true := by
  unfold handleSettings
  dsimp only
  repeat' split
  all_goals first | exact pending | rfl

theorem updateBannedCpus_needRescan {t : Thermal} {e : ThermalEvent} (pending : t.needRescan = true) :
    (updateBannedCpus t e).needRescan = true := by
  unfold updateBannedCpus
  dsimp only
  repeat' split
  all_goals first | exact pending | rfl

/-- Every callback but a scan keeps a pending request. -/
theorem dispatch_needRescan {e : Event} (other : e.isScan = false) (pending : d.needRescan = true) :
    (dispatch K d e).needRescan = true := by
  cases e with
  | scan r => contradiction
  | hangup =>
    change (forceRescan d).needRescan = true
    unfold forceRescan
    split
    · rfl
    · exact pending
  | terminate => exact pending
  | message buff =>
    change (sockHandle d.state buff d.settings).1.needRescan = true
    unfold sockHandle
    dsimp only
    split
    · exact handleSettings_needRescan pending
    · exact pending
  | thermal events =>
    change (events.foldl updateBannedCpus _).needRescan = true
    exact List.foldlRecOn (motive := fun t : Thermal => t.needRescan = true) events _ pending
      fun _ pending _ _ => updateBannedCpus_needRescan pending

/-- Every callback but a scan leaves `keep_going` to the signals. -/
theorem dispatch_keepGoing {e : Event} (other : e.isScan = false) :
    (dispatch K d e).keepGoing = (d.keepGoing && !e.isTerminate) := by
  cases e with
  | scan r => contradiction
  | hangup =>
    change (forceRescan d).keepGoing = _
    unfold forceRescan
    split <;> exact (Bool.and_true _).symm
  | terminate => exact (Bool.and_false _).symm
  | message buff => exact (Bool.and_true _).symm
  | thermal events => exact (Bool.and_true _).symm

end Flags

section Waiting

theorem mainLoop_needRescan (waiting : ∀ e ∈ mid, e.isScan = false) (pending : d.needRescan = true) :
    (mainLoop K d mid).needRescan = true := by
  induction mid generalizing d with
  | nil => exact pending
  | cons e rest ih =>
    exact ih (fun e member => waiting e (List.mem_cons_of_mem _ member))
      (dispatch_needRescan (waiting e List.mem_cons_self) pending)

theorem mainLoop_keepGoing (waiting : ∀ e ∈ mid, e.isScan = false) :
    (mainLoop K d mid).keepGoing = (d.keepGoing && !mid.any Event.isTerminate) := by
  induction mid generalizing d with
  | nil => exact (Bool.and_true _).symm
  | cons e rest ih =>
    have next := ih (d := dispatch K d e) fun e member => waiting e (List.mem_cons_of_mem _ member)
    rw [dispatch_keepGoing (waiting e List.mem_cons_self)] at next
    rw [List.any_cons, Bool.not_or, ← Bool.and_assoc]
    exact next

theorem takesRescan_eq (r : ScanReading) : takesRescan K r d =
    (d.keepGoing && (parseProcInterrupts K r.interrupts d).needRescan) := by
  rw [takesRescan, parseProcInterrupts_keepGoing]

/-- The rescan branch builds the tree and the interrupt database anew. -/
theorem scan_of_takesRescan {r : ScanReading} (takes : takesRescan K r d = true) :
    scan K r d = rescan K r (parseProcInterrupts K r.interrupts d) := if_pos takes

/-- The other branch balances. -/
theorem scan_of_not_takesRescan {r : ScanReading} (takes : takesRescan K r d = false) :
    scan K r d = balance K r (parseProcInterrupts K r.interrupts d) := if_neg (Bool.eq_false_iff.mp takes)

/-- A hangup is served by the next scan exactly when no stop signal comes first and a scan has gone
all the way since the tree was built, or the scan would rescan without it. -/
theorem takesRescan_forceRescan (r : ScanReading) (waiting : ∀ e ∈ mid, e.isScan = false) :
    takesRescan K r (mainLoop K (forceRescan d) mid) = true ↔
      (d.keepGoing = true ∧ mid.any Event.isTerminate = false ∧ d.state.cycleCount ≠ 0) ∨
        takesRescan K r (mainLoop K d mid) = true := by
  unfold forceRescan
  by_cases early : d.state.cycleCount = 0
  · simp [early]
  · rw [if_pos early]
    have served := mainLoop_needRescan (K := K)
      (d := { d with settings := { d.settings with needRescan := true } }) waiting rfl
    rw [takesRescan_eq, parseProcInterrupts_needRescan r.interrupts served, Bool.and_true,
      mainLoop_keepGoing waiting, takesRescan_eq, mainLoop_keepGoing waiting]
    cases d.keepGoing <;> cases mid.any Event.isTerminate <;> simp [early]

end Waiting

section Served

/-- A hangup that arrives once a scan has gone all the way since the tree was built makes the next
scan rebuild it, whatever else happens in between, unless the daemon is stopped. -/
theorem hangup_rescans (K : Env) (d : Daemon) (mid : List Event) (r : ScanReading)
    (keepGoing : d.keepGoing = true) (completed : d.state.cycleCount ≠ 0)
    (waiting : ∀ e ∈ mid, e.isScan = false ∧ e.isTerminate = false) :
    takesRescan K r (mainLoop K d (.hangup :: mid)) = true ∧
      scan K r (mainLoop K d (.hangup :: mid)) =
        rescan K r (parseProcInterrupts K r.interrupts (mainLoop K d (.hangup :: mid))) := by
  have unstopped : mid.any Event.isTerminate = false := by
    rw [List.any_eq_false]
    intro e member
    rw [(waiting e member).2]
    exact Bool.false_ne_true
  have takes := (takesRescan_forceRescan (K := K) (d := d) r fun e member => (waiting e member).1).mpr
    (.inl ⟨keepGoing, unstopped, completed⟩)
  exact ⟨takes, scan_of_takesRescan takes⟩

/-- Two CPUs and one interrupt, which nothing has raised yet. -/
def quietReading : ScanReading where
  interrupts := { lines := some [⟨24, { irq := 24 }, [0, 0]⟩] }
  tree := { machine := twoCpus, src := oneIrq }
  interruptsAfter := { lines := some [⟨24, { irq := 24 }, [0, 0]⟩] }

/-- The daemon that starts on it. -/
def quietStart : Daemon := startup {} { sleepInterval := 10 } false [] (fun _ => CPU_MASK_NONE) quietReading

/-- After its first scan, a hangup is served even when a thermal event comes between. -/
theorem hangup_rescans_quiet :
    takesRescan {} quietReading (mainLoop {} (mainLoop {} quietStart [.scan quietReading])
        [.hangup, .thermal [⟨0, 50, 50, 2⟩]]) = true ∧
      scan {} quietReading (mainLoop {} (mainLoop {} quietStart [.scan quietReading])
          [.hangup, .thermal [⟨0, 50, 50, 2⟩]]) =
        rescan {} quietReading (parseProcInterrupts {} quietReading.interrupts
          (mainLoop {} (mainLoop {} quietStart [.scan quietReading])
            [.hangup, .thermal [⟨0, 50, 50, 2⟩]])) := by
  have keepGoing : (mainLoop {} quietStart [.scan quietReading]).keepGoing = true := by decide +kernel
  have completed : (mainLoop {} quietStart [.scan quietReading]).state.cycleCount ≠ 0 := by decide +kernel
  exact hangup_rescans {} _ _ quietReading keepGoing completed (by simp [Event.isScan, Event.isTerminate])

/-- A hangup before the first scan is dropped, and so is one that a stop signal follows. -/
theorem hangup_dropped : ¬ (quietStart.keepGoing = true →
      takesRescan {} quietReading (mainLoop {} quietStart [.hangup]) = true) ∧
    ¬ ((mainLoop {} quietStart [.scan quietReading]).keepGoing = true →
      takesRescan {} quietReading (mainLoop {} (mainLoop {} quietStart [.scan quietReading])
        [.hangup, .terminate]) = true) := by decide +kernel

end Served

end Irqbalance
