import Irqbalance.Model.MainLoop
import Irqbalance.Proofs.CommandLine
import Irqbalance.Proofs.Settling

/-! # Timeouts of the main loop

There is one timeout at any time, and its interval is positive, until a scan that has balanced drops it and
quits. In one-shot mode that is the first such scan, unless the interval has been changed before it, which
replaces the timeout instead.
-/

namespace Irqbalance

variable {K : Env} {l : MainLoop} {d : Daemon} {sources : List Source}

section Dispatching

theorem parseProcInterrupts_sleepInterval (r : InterruptsReading) :
    (parseProcInterrupts K r d).settings.sleepInterval = d.settings.sleepInterval := by
  unfold parseProcInterrupts
  split <;> rfl

theorem parseProcInterrupts_oneShotMode (r : InterruptsReading) :
    (parseProcInterrupts K r d).oneShotMode = d.oneShotMode := by
  unfold parseProcInterrupts
  split <;> rfl

/-- The sleep interval of the settings. -/
def MainLoop.sleepInterval (l : MainLoop) : ℤ := l.daemon.settings.sleepInterval

/-- The source is a timeout that balances. -/
def MainLoop.balances (K : Env) (l : MainLoop) : Source → Bool
  | .timeout n r => decide (n < l.timeouts.length) && !takesRescan K r l.daemon
  | _ => false

/-- What a timeout does. -/
inductive Fired (K : Env) (n : ℕ) (r : ScanReading) (l : MainLoop) : MainLoop → Prop
  | absent (gone : l.timeouts.length ≤ n) : Fired K n r l l
  | rescanned (there : n < l.timeouts.length) (takes : takesRescan K r l.daemon = true) :
      Fired K n r l { l with daemon := scan K r l.daemon }
  | replaced (there : n < l.timeouts.length) (balances : takesRescan K r l.daemon = false)
      (changed : l.lastInterval ≠ l.sleepInterval) :
      Fired K n r l { l with
        daemon := scan K r l.daemon
        lastInterval := l.sleepInterval
        timeouts := l.timeouts.eraseIdx n ++ [l.sleepInterval] }
  | kept (there : n < l.timeouts.length) (balances : takesRescan K r l.daemon = false)
      (same : l.lastInterval = l.sleepInterval) (goesOn : (scan K r l.daemon).keepGoing = true) :
      Fired K n r l { l with daemon := scan K r l.daemon }
  | dropped (there : n < l.timeouts.length) (balances : takesRescan K r l.daemon = false)
      (same : l.lastInterval = l.sleepInterval) (stops : (scan K r l.daemon).keepGoing = false) :
      Fired K n r l { l with
        daemon := scan K r l.daemon, timeouts := l.timeouts.eraseIdx n, quit := true }

theorem fireTimeout_fired (n : ℕ) (r : ScanReading) : Fired K n r l (fireTimeout K n r l) := by
  unfold fireTimeout
  dsimp only
  split
  · exact .absent ‹_›
  rename_i there
  rw [not_le] at there
  split
  · rename_i takes
    rw [← scan_of_takesRescan takes]
    exact .rescanned there takes
  rename_i balances
  have still : takesRescan K r l.daemon = false := Bool.eq_false_of_not_eq_true balances
  have interval : (balance K r (parseProcInterrupts K r.interrupts l.daemon)).settings.sleepInterval =
      l.sleepInterval := parseProcInterrupts_sleepInterval (K := K) (d := l.daemon) r.interrupts
  rw [interval, ← scan_of_not_takesRescan still]
  split
  · exact .replaced there still ‹_›
  rename_i same
  split
  · exact .kept there still (not_not.mp same) ‹_›
  · rename_i stops
    exact .dropped there still (not_not.mp same) (Bool.eq_false_of_not_eq_true stops)

/-- The callback that a source calls. -/
def MainLoop.event (l : MainLoop) : Source → List Event
  | .timeout n r => if l.timeouts.length ≤ n then [] else [.scan r]
  | .hangup => [.hangup]
  | .terminate => [.terminate]
  | .message buff => [.message buff]
  | .thermal events => [.thermal events]

/-- The callbacks that the sources call in a run. -/
def dispatched (K : Env) : MainLoop → List Source → List Event
  | _, [] => []
  | l, e :: rest => l.event e ++ dispatched K (dispatchSource K l e) rest

theorem dispatchSource_daemon (e : Source) : (dispatchSource K l e).daemon = mainLoop K l.daemon (l.event e) := by
  cases e with
  | timeout n r =>
    change (fireTimeout K n r l).daemon = mainLoop K l.daemon (if l.timeouts.length ≤ n then [] else [.scan r])
    have fired := fireTimeout_fired (K := K) (l := l) n r
    generalize fireTimeout K n r l = l' at fired
    cases fired with
    | absent gone => rw [if_pos gone]; rfl
    | rescanned there | replaced there | kept there | dropped there => rw [if_neg (not_le.mpr there)]; rfl
  | hangup | terminate | message | thermal => rfl

/-- The timeouts decide when `scan` is called, and the daemon is the one of the callbacks. -/
theorem runMainLoop_daemon : (runMainLoop K l sources).daemon = mainLoop K l.daemon (dispatched K l sources) := by
  induction sources generalizing l with
  | nil => rfl
  | cons e rest ih =>
    change (runMainLoop K (dispatchSource K l e) rest).daemon = _
    rw [ih, dispatchSource_daemon, dispatched, mainLoop, mainLoop, mainLoop, List.foldl_append]

/-- A scan changes neither the sleep interval nor the mode. -/
theorem scan_settings (r : ScanReading) :
    (scan K r d).settings.sleepInterval = d.settings.sleepInterval ∧ (scan K r d).oneShotMode = d.oneShotMode := by
  have interval := parseProcInterrupts_sleepInterval (K := K) (d := d) r.interrupts
  have mode := parseProcInterrupts_oneShotMode (K := K) (d := d) r.interrupts
  cases takes : takesRescan K r d with
  | false =>
    rw [scan_of_not_takesRescan takes]
    exact ⟨interval, mode⟩
  | true =>
    rw [scan_of_takesRescan takes]
    generalize parseProcInterrupts K r.interrupts d = d₁ at interval mode
    exact ⟨(parseProcInterrupts_sleepInterval (d := d₁.rebuilt K r) r.interruptsAfter).trans interval,
      (parseProcInterrupts_oneShotMode (d := d₁.rebuilt K r) r.interruptsAfter).trans mode⟩

/-- A scan that balances stops a daemon that has been told to stop or is in one-shot mode. -/
theorem scan_stops {r : ScanReading} (balances : takesRescan K r d = false) :
    (scan K r d).keepGoing = (d.keepGoing && !d.oneShotMode) := by
  rw [scan_of_not_takesRescan balances]
  unfold balance
  dsimp only
  rw [parseProcInterrupts_keepGoing, parseProcInterrupts_oneShotMode]

end Dispatching

section Pacing

/-- There is one timeout, or the loop has been told to quit. The intervals are positive. -/
structure Paced (l : MainLoop) : Prop where
  single : l.timeouts = [l.lastInterval] ∨ (l.timeouts = [] ∧ l.quit = true ∧ l.daemon.keepGoing = false)
  positive : 1 ≤ l.lastInterval ∧ 1 ≤ l.sleepInterval

/-- The timeout that is dispatched is the only one. -/
theorem Paced.only {n : ℕ} (paced : Paced l) (there : n < l.timeouts.length) :
    l.timeouts = [l.lastInterval] ∧ l.timeouts.eraseIdx n = [] := by
  rcases paced.single with some | ⟨none, _⟩
  · rw [some, List.length_singleton, Nat.lt_one_iff] at there
    rw [some, there]
    exact ⟨rfl, rfl⟩
  · rw [none] at there
    contradiction

theorem fireTimeout_paced (n : ℕ) (r : ScanReading) (paced : Paced l) : Paced (fireTimeout K n r l) := by
  obtain ⟨single, last, next⟩ := paced
  have settings := (scan_settings (K := K) (d := l.daemon) r).1
  have kept : 1 ≤ (scan K r l.daemon).settings.sleepInterval := settings ▸ next
  have one (there : n < l.timeouts.length) := Paced.only ⟨single, last, next⟩ there
  have fired := fireTimeout_fired (K := K) (l := l) n r
  generalize fireTimeout K n r l = l' at fired ⊢
  cases fired with
  | absent => exact ⟨single, last, next⟩
  | rescanned there => exact ⟨.inl (one there).1, last, kept⟩
  | replaced there =>
    rw [(one there).2]
    exact ⟨.inl rfl, next, kept⟩
  | kept there => exact ⟨.inl (one there).1, last, kept⟩
  | dropped there _ _ stops => exact ⟨.inr ⟨(one there).2, rfl, stops⟩, last, kept⟩

/-- A message sets the interval to a number from 1 on or leaves it. -/
theorem handleSettings_sleepInterval (buff : List Char) (c : Settings) :
    (handleSettings buff c).sleepInterval = c.sleepInterval ∨ 1 ≤ (handleSettings buff c).sleepInterval := by
  unfold handleSettings
  dsimp only
  split
  · split
    · rename_i range
      right
      dsimp only
      exact range
    · exact .inl rfl
  split
  · split <;> exact .inl rfl
  split <;> exact .inl rfl

theorem handleMessage_positive (buff : List Char) (positive : 1 ≤ d.settings.sleepInterval) :
    1 ≤ (handleMessage buff d).settings.sleepInterval := by
  change 1 ≤ (sockHandle d.state buff d.settings).1.sleepInterval
  unfold sockHandle
  dsimp only
  split
  · rcases handleSettings_sleepInterval buff d.settings with same | set
    · exact positive.trans_eq same.symm
    · exact set
  · exact positive

/-- Every source keeps the pace. -/
theorem dispatchSource_paced (e : Source) (paced : Paced l) : Paced (dispatchSource K l e) := by
  obtain ⟨single, last, next⟩ := paced
  cases e with
  | timeout n r => exact fireTimeout_paced n r ⟨single, last, next⟩
  | hangup =>
    have kept : (forceRescan l.daemon).keepGoing = l.daemon.keepGoing ∧
        (forceRescan l.daemon).settings.sleepInterval = l.sleepInterval := by
      unfold forceRescan
      split <;> exact ⟨rfl, rfl⟩
    refine ⟨single.imp_right fun behind => ⟨behind.1, behind.2.1, kept.1.trans behind.2.2⟩, last, ?_⟩
    exact next.trans_eq kept.2.symm
  | terminate => exact ⟨single.imp_right fun behind => ⟨behind.1, rfl, rfl⟩, last, next⟩
  | message buff => exact ⟨single, last, handleMessage_positive buff next⟩
  | thermal events => exact ⟨single, last, next⟩

theorem runMainLoop_paced (sources : List Source) (paced : Paced l) : Paced (runMainLoop K l sources) := by
  induction sources generalizing l with
  | nil => exact paced
  | cons e rest ih => exact ih (dispatchSource_paced e paced)

/-- The daemon ends with the next scan that balances and finds the interval unchanged. -/
def MainLoop.Ending (l : MainLoop) : Prop := l.daemon.keepGoing = false ∨ l.daemon.oneShotMode = true

/-- A scan that balances and goes on is not one of a daemon that ends. -/
theorem ending_iff {r : ScanReading} (balances : takesRescan K r l.daemon = false) :
    l.Ending ↔ (scan K r l.daemon).keepGoing = false := by
  rw [scan_stops balances, Bool.and_eq_false_iff, Bool.not_eq_false']
  rfl

/-- Only a scan that balances drops the timeout, when the daemon ends and the interval is the one of the timeout. -/
theorem dispatchSource_dropped (e : Source) (paced : Paced l) (there : l.timeouts ≠ []) :
    (dispatchSource K l e).timeouts = [] ↔
      l.balances K e = true ∧ l.lastInterval = l.sleepInterval ∧ l.Ending := by
  cases e with
  | timeout n r =>
    have fired := fireTimeout_fired (K := K) (l := l) n r
    have balances : l.balances K (.timeout n r) = (decide (n < l.timeouts.length) && !takesRescan K r l.daemon) := rfl
    rw [balances]
    change (fireTimeout K n r l).timeouts = [] ↔ _
    generalize fireTimeout K n r l = l' at fired
    cases fired with
    | absent gone =>
      rw [decide_eq_false (not_lt.mpr gone), Bool.false_and]
      exact iff_of_false there fun drops => Bool.false_ne_true drops.1
    | rescanned _ takes =>
      rw [takes, Bool.not_true, Bool.and_false]
      exact iff_of_false there fun drops => Bool.false_ne_true drops.1
    | replaced _ _ changed =>
      exact iff_of_false (List.append_ne_nil_of_right_ne_nil _ (List.cons_ne_nil _ _)) fun drops => changed drops.2.1
    | kept _ still same goesOn =>
      refine iff_of_false there fun drops => ?_
      rw [ending_iff still, goesOn] at drops
      exact Bool.false_ne_true drops.2.2.symm
    | dropped present still same stops =>
      rw [decide_eq_true present, still]
      exact iff_of_true (paced.only present).2 ⟨rfl, same, (ending_iff still).mpr stops⟩
  | hangup | terminate | message | thermal => exact iff_of_false there fun drops => Bool.false_ne_true drops.1

variable {c : CommandLine} {affinity : ℤ → CpuMask} {r : ScanReading}

/-- What `main` enters the main loop with. -/
theorem enterMainLoop_eq (entered : enterMainLoop K c affinity r = some l) :
    l.timeouts = [l.lastInterval] ∧ l.lastInterval = c.sleepInterval ∧ l.sleepInterval = c.sleepInterval ∧
      l.daemon.oneShotMode = c.oneShotMode := by
  unfold enterMainLoop at entered
  dsimp only at entered
  split at entered
  · contradiction
  · cases entered
    exact ⟨rfl, rfl, parseProcInterrupts_sleepInterval _, parseProcInterrupts_oneShotMode _⟩

/-- The environment does not set the interval. -/
theorem environment_sleepInterval (v : Environment) : (c.environment v).sleepInterval = c.sleepInterval := by
  unfold CommandLine.environment
  dsimp only
  repeat' split
  all_goals rfl

/-- The main loop is entered with one timeout, and its interval is positive. -/
theorem enterMainLoop_paced {options : List CmdOption} (accepted : parseCommandLine options = .ok c) (v : Environment)
    (entered : enterMainLoop K (c.environment v) affinity r = some l) : Paced l := by
  have positive := (parseCommandLine_accepted accepted).2.2.sleepInterval.1
  obtain ⟨single, last, next, _⟩ := enterMainLoop_eq entered
  rw [environment_sleepInterval] at last next
  exact ⟨.inl single, last ▸ positive, next ▸ positive⟩

/-- Whatever the sources bring, in whichever order: as long as the loop goes on there is one timeout with a
positive interval, until a scan that balances drops it because the daemon ends; then there is none. -/
theorem run_paced (K : Env) {options : List CmdOption} {c : CommandLine} (accepted : parseCommandLine options = .ok c)
    (v : Environment) (affinity : ℤ → CpuMask) (r : ScanReading) {l : MainLoop}
    (entered : enterMainLoop (c.env K) (c.environment v) affinity r = some l) (sources : List Source) :
    Paced (runMainLoop (c.env K) l sources) ∧
      ((runMainLoop (c.env K) l sources).timeouts ≠ [] → ∀ e,
        ((dispatchSource (c.env K) (runMainLoop (c.env K) l sources) e).timeouts = [] ↔
          (runMainLoop (c.env K) l sources).balances (c.env K) e = true ∧
            (runMainLoop (c.env K) l sources).lastInterval = (runMainLoop (c.env K) l sources).sleepInterval ∧
            (runMainLoop (c.env K) l sources).Ending)) := by
  have paced := runMainLoop_paced (K := c.env K) sources (enterMainLoop_paced accepted v entered)
  exact ⟨paced, fun there e => dispatchSource_dropped e paced there⟩

end Pacing

section Stopping

/-- How often a run of the main loop balances. -/
def balancingScans (K : Env) : MainLoop → List Source → ℕ
  | _, [] => 0
  | l, e :: rest => (if l.balances K e then 1 else 0) + balancingScans K (dispatchSource K l e) rest

/-- How often it gets another sleep interval. -/
def intervalChanges (K : Env) : MainLoop → List Source → ℕ
  | _, [] => 0
  | l, e :: rest => (if (dispatchSource K l e).sleepInterval = l.sleepInterval then 0 else 1) +
      intervalChanges K (dispatchSource K l e) rest

/-- How often a daemon that is ending can still balance when nobody changes the interval again. -/
def MainLoop.scansLeft (l : MainLoop) : ℕ :=
  if l.timeouts = [] then 0 else if l.lastInterval = l.sleepInterval then 1 else 2

theorem scan_ending (r : ScanReading) (ending : d.keepGoing = false ∨ d.oneShotMode = true) :
    (scan K r d).keepGoing = false ∨ (scan K r d).oneShotMode = true := by
  cases takes : takesRescan K r d with
  | false =>
    rw [scan_stops takes]
    rcases ending with stopped | mode
    · exact .inl (by rw [stopped, Bool.false_and])
    · exact .inl (by rw [mode, Bool.not_true, Bool.and_false])
  | true =>
    rw [(scan_settings r).2]
    rw [takesRescan_eq] at takes
    rcases ending with stopped | mode
    · rw [stopped] at takes
      contradiction
    · exact .inr mode

/-- A change of the interval leaves one scan more. -/
theorem scansLeft_le {l' : MainLoop} (timeouts : l'.timeouts = l.timeouts) (last : l'.lastInterval = l.lastInterval) :
    l'.scansLeft ≤ l.scansLeft + if l'.sleepInterval = l.sleepInterval then 0 else 1 := by
  unfold MainLoop.scansLeft
  rw [timeouts, last]
  split
  · exact Nat.zero_le _
  by_cases same : l'.sleepInterval = l.sleepInterval
  · rw [same, if_pos rfl]
    exact le_rfl
  · rw [if_neg same]
    split <;> split <;> decide

theorem scansLeft_gone (gone : l.timeouts = []) : l.scansLeft = 0 := if_pos gone

theorem scansLeft_same (there : l.timeouts ≠ []) (same : l.lastInterval = l.sleepInterval) : l.scansLeft = 1 := by
  rw [MainLoop.scansLeft, if_neg there, if_pos same]

theorem scansLeft_changed (there : l.timeouts ≠ []) (changed : l.lastInterval ≠ l.sleepInterval) : l.scansLeft = 2 := by
  rw [MainLoop.scansLeft, if_neg there, if_neg changed]

/-- A scan that balances is taken from those left. -/
theorem fireTimeout_scansLeft (n : ℕ) (r : ScanReading) (paced : Paced l) (ending : l.Ending) :
    (fireTimeout K n r l).Ending ∧ (fireTimeout K n r l).sleepInterval = l.sleepInterval ∧
      (if l.balances K (.timeout n r) then 1 else 0) + (fireTimeout K n r l).scansLeft ≤ l.scansLeft := by
  have next := fireTimeout_paced (K := K) n r paced
  have settings := (scan_settings (K := K) (d := l.daemon) r).1
  have ends := scan_ending (K := K) r ending
  have fired := fireTimeout_fired (K := K) (l := l) n r
  have balances : l.balances K (.timeout n r) = (decide (n < l.timeouts.length) && !takesRescan K r l.daemon) := rfl
  have some (there : n < l.timeouts.length) : l.timeouts ≠ [] := List.ne_nil_of_length_pos (Nat.zero_lt_of_lt there)
  rw [balances]
  generalize fireTimeout K n r l = l' at fired next ⊢
  cases fired with
  | absent gone =>
    refine ⟨ending, rfl, ?_⟩
    rw [decide_eq_false (not_lt.mpr gone), Bool.false_and, if_neg Bool.false_ne_true, Nat.zero_add]
  | rescanned there takes =>
    have same : ({ l with daemon := scan K r l.daemon } : MainLoop).sleepInterval = l.sleepInterval := settings
    have less : ({ l with daemon := scan K r l.daemon } : MainLoop).scansLeft ≤ _ := scansLeft_le (l := l) rfl rfl
    rw [if_pos same] at less
    refine ⟨ends, settings, ?_⟩
    rw [takes, Bool.not_true, Bool.and_false, if_neg Bool.false_ne_true, Nat.zero_add]
    exact less
  | replaced there still changed =>
    refine ⟨ends, settings, ?_⟩
    rw [scansLeft_changed (some there) changed, scansLeft_same (List.append_ne_nil_of_right_ne_nil _ (List.cons_ne_nil _ _))
      settings.symm]
    split <;> decide
  | kept there still same goesOn =>
    have stops := scan_stops still
    rcases ending with stopped | mode
    · rw [goesOn, stopped] at stops
      contradiction
    · rw [goesOn, mode, Bool.not_true, Bool.and_false] at stops
      contradiction
  | dropped there still same stops =>
    refine ⟨.inl stops, settings, ?_⟩
    rw [scansLeft_same (some there) same, scansLeft_gone (paced.only there).2]
    split <;> decide

/-- Each scan that balances is taken from those left. -/
theorem dispatchSource_scansLeft (e : Source) (paced : Paced l) (ending : l.Ending) :
    (dispatchSource K l e).Ending ∧ (if l.balances K e then 1 else 0) + (dispatchSource K l e).scansLeft ≤
      l.scansLeft + if (dispatchSource K l e).sleepInterval = l.sleepInterval then 0 else 1 := by
  cases e with
  | timeout n r =>
    obtain ⟨ends, same, left⟩ := fireTimeout_scansLeft (K := K) n r paced ending
    exact ⟨ends, left.trans (Nat.le_add_right _ _)⟩
  | hangup =>
    have kept : (forceRescan l.daemon).keepGoing = l.daemon.keepGoing ∧
        (forceRescan l.daemon).oneShotMode = l.daemon.oneShotMode := by
      unfold forceRescan
      split <;> exact ⟨rfl, rfl⟩
    refine ⟨ending.imp kept.1.trans kept.2.trans, ?_⟩
    exact (Nat.zero_add _).trans_le (scansLeft_le rfl rfl)
  | terminate => exact ⟨.inl rfl, (Nat.zero_add _).trans_le (scansLeft_le rfl rfl)⟩
  | message buff => exact ⟨ending, (Nat.zero_add _).trans_le (scansLeft_le rfl rfl)⟩
  | thermal events => exact ⟨ending, (Nat.zero_add _).trans_le (scansLeft_le rfl rfl)⟩

theorem runMainLoop_scansLeft (sources : List Source) (paced : Paced l) (ending : l.Ending) :
    balancingScans K l sources + (runMainLoop K l sources).scansLeft ≤ l.scansLeft + intervalChanges K l sources := by
  induction sources generalizing l with
  | nil => simp [balancingScans, intervalChanges, runMainLoop]
  | cons e rest ih =>
    obtain ⟨ending', first⟩ := dispatchSource_scansLeft (K := K) e paced ending
    have others := ih (dispatchSource_paced e paced) ending'
    change _ + balancingScans K (dispatchSource K l e) rest + (runMainLoop K (dispatchSource K l e) rest).scansLeft ≤
      l.scansLeft + (_ + intervalChanges K (dispatchSource K l e) rest)
    omega

theorem environment_oneShotMode {c : CommandLine} (v : Environment) (mode : c.oneShotMode = true ∨ v.irqbalanceOneshot = true) :
    (c.environment v).oneShotMode = true := by
  unfold CommandLine.environment
  dsimp only
  rcases mode with option | variable'
  · repeat' split
    all_goals first | rfl | exact option
  · rw [if_pos variable']
    split <;> rfl

/-- In one-shot mode the daemon balances once, and once more for each time that it gets another sleep
interval. Then it quits. -/
theorem run_oneShot (K : Env) {options : List CmdOption} {c : CommandLine} (accepted : parseCommandLine options = .ok c)
    (v : Environment) (oneShot : (∃ o ∈ options, o.opt = 'o') ∨ v.irqbalanceOneshot = true)
    (affinity : ℤ → CpuMask) (r : ScanReading) {l : MainLoop}
    (entered : enterMainLoop (c.env K) (c.environment v) affinity r = some l) (sources : List Source) :
    balancingScans (c.env K) l sources ≤ 1 + intervalChanges (c.env K) l sources ∧
      (balancingScans (c.env K) l sources = 1 + intervalChanges (c.env K) l sources →
        (runMainLoop (c.env K) l sources).timeouts = [] ∧ (runMainLoop (c.env K) l sources).quit = true) := by
  have set := (parseCommandLine_accepted accepted).2.1
  have mode := environment_oneShotMode v (oneShot.imp_left set.oneShotMode.mpr)
  obtain ⟨single, last, next, kept⟩ := enterMainLoop_eq entered
  have paced := enterMainLoop_paced accepted v entered
  have left : l.scansLeft = 1 := scansLeft_same (single ▸ List.cons_ne_nil _ _) (last.trans next.symm)
  have bound := runMainLoop_scansLeft (K := c.env K) sources paced (.inr (kept.trans mode))
  rw [left] at bound
  refine ⟨by omega, fun spent => ?_⟩
  rcases (runMainLoop_paced (K := c.env K) sources paced).single with some | behind
  · have more : 1 ≤ (runMainLoop (c.env K) l sources).scansLeft := by
      unfold MainLoop.scansLeft
      rw [if_neg (some ▸ List.cons_ne_nil _ _)]
      split <;> decide
    omega
  · exact ⟨behind.1, behind.2.1⟩

/-- The options `--oneshot --interval=5`. -/
def oneShotOptions : List CmdOption := [⟨'o', []⟩, ⟨'t', "5".toList⟩]

/-- What they set. -/
def oneShotLine : CommandLine := { sleepInterval := 5, oneShotMode := true }

theorem oneShotOptions_accepted : parseCommandLine oneShotOptions = .ok oneShotLine := by decide +kernel

/-- The main loop on two CPUs. -/
def quietLoop : MainLoop where
  daemon := startup (oneShotLine.env {}) oneShotLine.settings oneShotLine.oneShotMode oneShotLine.clBannedModules
    (fun _ => CPU_MASK_NONE) quietReading
  lastInterval := oneShotLine.sleepInterval
  timeouts := [oneShotLine.sleepInterval]

theorem quietLoop_entered : enterMainLoop (oneShotLine.env {}) (oneShotLine.environment {}) (fun _ => CPU_MASK_NONE)
    quietReading = some quietLoop := by
  have line : oneShotLine.environment {} = oneShotLine := rfl
  have two : ¬ numOnlineCpus quietLoop.daemon.state ≤ 1 := by decide +kernel
  rw [line, enterMainLoop]
  exact if_neg two

/-- Another interval comes in before the first scan, which replaces the timeout. -/
def impatient : List Source := [.message "settings sleep 2".toList, .timeout 0 quietReading, .timeout 0 quietReading]

/-- The second scan drops the timeout of two seconds that the first one has set. -/
theorem run_paced_quiet : Paced (runMainLoop (oneShotLine.env {}) quietLoop impatient) ∧
    (runMainLoop (oneShotLine.env {}) quietLoop (impatient.take 2)).timeouts = [2] ∧
    (dispatchSource (oneShotLine.env {}) (runMainLoop (oneShotLine.env {}) quietLoop (impatient.take 2))
      (.timeout 0 quietReading)).timeouts = [] := by
  have paced := run_paced {} oneShotOptions_accepted {} _ _ quietLoop_entered
  have two : (runMainLoop (oneShotLine.env {}) quietLoop (impatient.take 2)).timeouts = [2] := by decide +kernel
  refine ⟨(paced impatient).1, two, ?_⟩
  apply ((paced (impatient.take 2)).2 (two ▸ List.cons_ne_nil _ _) _).mpr
  exact ⟨by decide +kernel, by decide +kernel, .inr (by decide +kernel)⟩

theorem run_oneShot_quiet :
    balancingScans (oneShotLine.env {}) quietLoop impatient ≤ 1 + intervalChanges (oneShotLine.env {}) quietLoop impatient ∧
      (runMainLoop (oneShotLine.env {}) quietLoop impatient).timeouts = [] ∧
        (runMainLoop (oneShotLine.env {}) quietLoop impatient).quit = true := by
  have once := run_oneShot {} oneShotOptions_accepted {} (.inl ⟨_, List.mem_cons_self, rfl⟩) _ _ quietLoop_entered impatient
  exact ⟨once.1, once.2 (by decide +kernel)⟩

end Stopping

end Irqbalance
