import Irqbalance.Lib.Options
import Irqbalance.Model.CommandLine
import Irqbalance.Proofs.IrqBans
import Irqbalance.Proofs.ModuleBans

/-! # What the command line says

`parse_command_line` accepts the options that it accepts one by one. Of the options that set a value the
last one counts, bans add up, and what is accepted is in the range that the daemon relies on.
-/

namespace Irqbalance

open CText Options

variable {c : CommandLine} {o : CmdOption} {options : List CmdOption}

/-- The exit status of an option that is rejected, alone as among others. -/
def CmdOption.status (o : CmdOption) : Option ℤ :=
  match parseOption {} o with
  | .error code => some code
  | .ok _ => none

/-- The globals behind an option, which one that is rejected leaves alone. -/
def CommandLine.take (c : CommandLine) (o : CmdOption) : CommandLine :=
  match parseOption c o with
  | .error _ => c
  | .ok c' => c'

/-- Whether an option is rejected does not depend on the others. -/
theorem parseOption_guards : Guards parseOption CmdOption.status CommandLine.take := by
  intro c o
  unfold CmdOption.status CommandLine.take parseOption
  dsimp only
  split
  all_goals repeat' split
  all_goals simp_all

/-- What an option that is accepted sets. -/
inductive Took (o : CmdOption) (c : CommandLine) : CommandLine → Prop
  | deepestCache (opt : o.opt = 'c') (range : 1 ≤ (strtoul o.optarg).1 ∧ (strtoul o.optarg).1 ≠ ULONG_MAX) :
      Took o c { c with deepestCache := (strtoul o.optarg).1 }
  | debug (opt : o.opt = 'd') : Took o c { c with debugMode := true, foregroundMode := true }
  | foreground (opt : o.opt = 'f') : Took o c { c with foregroundMode := true }
  | banIrq (opt : o.opt = 'i') :
      Took o c { c with clBannedIrqs := addClBannedIrq (toInt (strtoul o.optarg).1) c.clBannedIrqs }
  | polscript (opt : o.opt = 'l') : Took o c { c with polscript := some o.optarg }
  | banModule (opt : o.opt = 'm') : Took o c { c with clBannedModules := addBannedModule o.optarg c.clBannedModules }
  | powerThresh (opt : o.opt = 'p') : Took o c { c with
      powerThresh := if hasPrefix o.optarg "off".toList then ULONG_MAX else (strtoul o.optarg).1 }
  | oneShot (opt : o.opt = 'o') : Took o c { c with oneShotMode := true }
  | pidfile (opt : o.opt = 's') : Took o c { c with pidfile := some o.optarg }
  | journal (opt : o.opt = 'j') : Took o c { c with journalLogging := true, foregroundMode := true }
  | interval (opt : o.opt = 't') (range : 1 ≤ toInt (strtol o.optarg)) :
      Took o c { c with sleepInterval := toInt (strtol o.optarg) }
  | migrateRatio (opt : o.opt = 'e') : Took o c { c with migrateRatio := (strtoul o.optarg).1 }
  | other (opt : o.opt ∉ ['c', 'd', 'f', 'i', 'l', 'm', 'p', 'o', 's', 'j', 't', 'e']) : Took o c c

theorem parseOption_took {c' : CommandLine} (reads : parseOption c o = .ok c') : Took o c c' := by
  unfold parseOption at reads
  dsimp only at reads
  split at reads
  case h_3 opt =>
    split at reads
    · contradiction
    · rename_i range
      rw [not_or, not_or, not_lt] at range
      cases reads
      exact .deepestCache opt ⟨range.2.2, range.2.1⟩
  case h_6 opt =>
    split at reads
    · contradiction
    · cases reads
      exact .banIrq opt
  case h_9 opt =>
    have took := Took.powerThresh (c := c) opt
    split at reads
    · rename_i off
      rw [if_pos off] at took
      cases reads
      exact took
    · rename_i on
      rw [if_neg on] at took
      split at reads
      · contradiction
      · cases reads
        exact took
  case h_13 opt =>
    split at reads
    · contradiction
    · rename_i range
      rw [not_or, not_lt] at range
      cases reads
      exact .interval opt range.2
  case h_14 opt =>
    split at reads
    · contradiction
    · cases reads
      exact .migrateRatio opt
  all_goals cases reads
  case h_4 opt => exact .debug opt
  case h_5 opt => exact .foreground opt
  case h_7 opt => exact .polscript opt
  case h_8 opt => exact .banModule opt
  case h_10 opt => exact .oneShot opt
  case h_11 opt => exact .pidfile opt
  case h_12 opt => exact .journal opt
  case h_15 =>
    apply Took.other
    simp_all

theorem take_took (accepted : o.status = none) : Took o c (c.take o) := by
  have reads := parseOption_guards c o
  rw [accepted] at reads
  exact parseOption_took reads

/-- The last option with this letter. -/
def lastOption (opt : Char) (options : List CmdOption) : Option CmdOption :=
  (options.filter fun o => o.opt == opt).getLast?

/-- What accepted options have set. -/
structure Says (options : List CmdOption) (c : CommandLine) : Prop where
  deepestCache : c.deepestCache = (lastOption 'c' options).elim 2 fun o => (strtoul o.optarg).1
  powerThresh : c.powerThresh = (lastOption 'p' options).elim ULONG_MAX fun o =>
    if hasPrefix o.optarg "off".toList then ULONG_MAX else (strtoul o.optarg).1
  migrateRatio : c.migrateRatio = (lastOption 'e' options).elim 0 fun o => (strtoul o.optarg).1
  sleepInterval : c.sleepInterval = (lastOption 't' options).elim SLEEP_INTERVAL fun o => toInt (strtol o.optarg)
  polscript : c.polscript = (lastOption 'l' options).map CmdOption.optarg
  pidfile : c.pidfile = (lastOption 's' options).map CmdOption.optarg
  clBannedIrqs : ∀ n, n ∈ c.clBannedIrqs ↔ ∃ o ∈ options, o.opt = 'i' ∧ toInt (strtoul o.optarg).1 = n
  clBannedModules : ∀ name, (∃ mod ∈ c.clBannedModules, mod <:+: name) ↔
    ∃ o ∈ options, o.opt = 'm' ∧ o.optarg <:+: name
  oneShotMode : c.oneShotMode = true ↔ ∃ o ∈ options, o.opt = 'o'
  debugMode : c.debugMode = true ↔ ∃ o ∈ options, o.opt = 'd'
  journalLogging : c.journalLogging = true ↔ ∃ o ∈ options, o.opt = 'j'
  foregroundMode : c.foregroundMode = true ↔ ∃ o ∈ options, o.opt ∈ ['d', 'f', 'j']

/-- The ranges that the rest of the program relies on. -/
structure CommandLine.Sane (c : CommandLine) : Prop where
  deepestCache : 1 ≤ c.deepestCache ∧ c.deepestCache < ULONG_MAX
  powerThresh : c.powerThresh ≤ ULONG_MAX
  migrateRatio : c.migrateRatio ≤ ULONG_MAX
  sleepInterval : 1 ≤ c.sleepInterval ∧ IsInt c.sleepInterval
  clBannedIrqs : c.clBannedIrqs.Nodup ∧ ∀ n ∈ c.clBannedIrqs, IsInt n

/-- A value that one letter sets is the one of the last option with that letter. -/
theorem foldl_take_last {β : Type} (field : CommandLine → β) (opt : Char) (value : CmdOption → β)
    (step : ∀ o c c', Took o c c' → field c' = if o.opt == opt then value o else field c)
    (accepted : ∀ o ∈ options, o.status = none) :
    field (options.foldl CommandLine.take {}) = (lastOption opt options).elim (field {}) value :=
  foldl_last field (fun o => o.opt == opt) value fun c o member => step o c _ (take_took (accepted o member))

/-- What some option raises. -/
theorem foldl_take_raised (flag : CommandLine → Prop) (raises : CmdOption → Prop) (down : ¬ flag {})
    (step : ∀ o c c', Took o c c' → (flag c' ↔ flag c ∨ raises o))
    (accepted : ∀ o ∈ options, o.status = none) :
    flag (options.foldl CommandLine.take {}) ↔ ∃ o ∈ options, raises o := by
  have raised := foldl_raised (s := ({} : CommandLine)) flag raises fun c o member =>
    step o c _ (take_took (accepted o member))
  rwa [or_iff_right down] at raised

theorem mem_addClBannedIrq {n irq : ℤ} {bans : List ℤ} : n ∈ addClBannedIrq irq bans ↔ n ∈ bans ∨ irq = n := by
  unfold addClBannedIrq
  split
  · rename_i known
    exact (or_iff_left_of_imp fun same => same ▸ known).symm
  · rw [List.mem_append, List.mem_singleton, eq_comm (a := n)]

/-- The last options count, and bans and flags add up. -/
theorem foldl_take_says (accepted : ∀ o ∈ options, o.status = none) :
    Says options (options.foldl CommandLine.take {}) where
  deepestCache := foldl_take_last CommandLine.deepestCache 'c' _ (fun o c c' took => by cases took <;> simp_all) accepted
  powerThresh := foldl_take_last CommandLine.powerThresh 'p' _ (fun o c c' took => by cases took <;> simp_all) accepted
  migrateRatio := foldl_take_last CommandLine.migrateRatio 'e' _ (fun o c c' took => by cases took <;> simp_all) accepted
  sleepInterval := foldl_take_last CommandLine.sleepInterval 't' _ (fun o c c' took => by cases took <;> simp_all) accepted
  polscript := by
    have last := foldl_take_last CommandLine.polscript 'l' (fun o => some o.optarg)
      (fun o c c' took => by cases took <;> simp_all) accepted
    rw [last]
    cases lastOption 'l' options <;> rfl
  pidfile := by
    have last := foldl_take_last CommandLine.pidfile 's' (fun o => some o.optarg)
      (fun o c c' took => by cases took <;> simp_all) accepted
    rw [last]
    cases lastOption 's' options <;> rfl
  clBannedIrqs n := foldl_take_raised (n ∈ ·.clBannedIrqs) (fun o => o.opt = 'i' ∧ toInt (strtoul o.optarg).1 = n)
    List.not_mem_nil (fun o c c' took => by cases took <;> simp_all [mem_addClBannedIrq]) accepted
  clBannedModules name := foldl_take_raised (∃ mod ∈ ·.clBannedModules, mod <:+: name)
    (fun o => o.opt = 'm' ∧ o.optarg <:+: name) (by simp) (fun o c c' took => by
      have covers : Covering.Above (· <:+: ·) (Covering.insertUncovered (· <:+: ·) o.optarg c.clBannedModules) name ↔
          _ := Covering.above_insertUncovered
      cases took <;> simp_all [Covering.Above, addBannedModule_eq]) accepted
  oneShotMode := foldl_take_raised (·.oneShotMode = true) (·.opt = 'o') (by decide)
    (fun o c c' took => by cases took <;> simp_all) accepted
  debugMode := foldl_take_raised (·.debugMode = true) (·.opt = 'd') (by decide)
    (fun o c c' took => by cases took <;> simp_all) accepted
  journalLogging := foldl_take_raised (·.journalLogging = true) (·.opt = 'j') (by decide)
    (fun o c c' took => by cases took <;> simp_all) accepted
  foregroundMode := foldl_take_raised (·.foregroundMode = true) (·.opt ∈ ['d', 'f', 'j']) (by decide)
    (fun o c c' took => by cases took <;> simp_all) accepted

theorem strtoul_le (text : List Char) : (strtoul text).1 ≤ ULONG_MAX := by
  unfold strtoul ULONG_MAX
  split
  · exact Nat.zero_le _
  · dsimp only
    split
    · exact le_rfl
    split <;> omega

/-- An option that is accepted keeps the ranges. -/
theorem Took.sane {c' : CommandLine} (took : Took o c c') (sane : c.Sane) : c'.Sane := by
  have le := strtoul_le o.optarg
  cases took with
  | deepestCache _ range => exact { sane with deepestCache := ⟨range.1, lt_of_le_of_ne le range.2⟩ }
  | banIrq =>
    obtain ⟨distinct, ints⟩ := sane.clBannedIrqs
    have added := addClBannedIrq_spec (toInt (strtoul o.optarg).1) distinct
    have all : ∀ n ∈ addClBannedIrq (toInt (strtoul o.optarg).1) c.clBannedIrqs, IsInt n := by
      intro n member
      rcases (added.2 n).mp member with old | same
      · exact ints n old
      · rw [same]
        exact isInt_toInt _
    exact { sane with clBannedIrqs := ⟨added.1, all⟩ }
  | powerThresh => exact { sane with powerThresh := by dsimp only; split; exacts [le_rfl, le] }
  | interval _ range => exact { sane with sleepInterval := ⟨range, isInt_toInt _⟩ }
  | migrateRatio => exact { sane with migrateRatio := le }
  | _ => exact { sane with }

theorem sane_default : ({} : CommandLine).Sane :=
  ⟨by decide, by decide, by decide, by decide, List.nodup_nil, fun _ none => absurd none List.not_mem_nil⟩

theorem parseCommandLine_eq (options : List CmdOption) : parseCommandLine options =
    (options.findSome? CmdOption.status).elim (.ok (options.foldl CommandLine.take {})) .error :=
  parseOption_guards.foldlM

/-- What accepted options say, and that it is in range. -/
theorem parseCommandLine_accepted (accepted : parseCommandLine options = .ok c) :
    (∀ o ∈ options, o.status = none) ∧ Says options c ∧ c.Sane := by
  rw [parseCommandLine_eq] at accepted
  cases found : options.findSome? CmdOption.status with
  | some code =>
    rw [found] at accepted
    contradiction
  | none =>
    rw [found] at accepted
    cases accepted
    have alone := List.findSome?_eq_none_iff.mp found
    refine ⟨alone, foldl_take_says alone, foldl_preserves sane_default fun c o member sane => ?_⟩
    exact (take_took (alone o member)).sane sane

/-- The options are accepted as a whole when each is accepted alone, and rejected with the status of the
first that is not. The last of those that set a value counts, bans and flags add up, and what has been
accepted is in range. -/
theorem parseCommandLine_spec (options : List CmdOption) :
    match parseCommandLine options with
    | .error code => ∃ before o after, options = before ++ o :: after ∧
        (∀ o' ∈ before, ∃ c, parseCommandLine [o'] = .ok c) ∧ parseCommandLine [o] = .error code
    | .ok c => (∀ o ∈ options, ∃ c', parseCommandLine [o] = .ok c') ∧ Says options c ∧ c.Sane := by
  have alone (o : CmdOption) (accepted : o.status = none) : ∃ c, parseCommandLine [o] = .ok c := by
    rw [parseCommandLine_eq, List.findSome?_cons, accepted]
    exact ⟨_, rfl⟩
  cases whole : parseCommandLine options with
  | error code =>
    rw [parseCommandLine_eq] at whole
    cases found : options.findSome? CmdOption.status with
    | none =>
      rw [found] at whole
      contradiction
    | some status =>
      rw [found] at whole
      cases whole
      obtain ⟨before, o, after, split, rejected, first⟩ := List.findSome?_eq_some_iff.mp found
      refine ⟨before, o, after, split, fun o' member => alone o' (first o' member), ?_⟩
      rw [parseCommandLine_eq, List.findSome?_cons, rejected]
      rfl
  | ok c =>
    obtain ⟨accepted, set, sane⟩ := parseCommandLine_accepted whole
    exact ⟨fun o member => alone o (accepted o member), set, sane⟩

end Irqbalance
