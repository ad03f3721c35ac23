import Irqbalance.Lib.Covering
import Irqbalance.Model.Classify

/-! # Banned modules

`add_banned_module` leaves out an argument that contains one of the list. A name that contains the
argument contains that one too, so that the list bans what the command line bans.
-/

namespace Irqbalance

open Covering

section Modules

variable {s : State} {args : List (List Char)} {modname name : List Char}

instance isTrans_isInfix : IsTrans (List Char) (· <:+: ·) := ⟨fun _ _ _ => List.IsInfix.trans⟩

theorem addBannedModule_eq : addBannedModule = insertUncovered (· <:+: ·) := rfl

theorem checkForModuleBan_iff : checkForModuleBan name s = true ↔ Above (· <:+: ·) s.clBannedModules name := by
  simp [checkForModuleBan, Above]

/-- The list behind the arguments, with nothing else changed. -/
theorem forEach_addClBannedModule : forEach args addClBannedModule s =
    { s with clBannedModules := forEach args addBannedModule s.clBannedModules } := by
  induction args generalizing s with
  | nil => rfl
  | cons arg args ih => rw [forEach_cons, ih, forEach_cons, addClBannedModule]

/-- One more argument bans the names that contain it. -/
theorem checkForModuleBan_addClBannedModule : checkForModuleBan name (addClBannedModule modname s) = true ↔
    checkForModuleBan name s = true ∨ modname <:+: name := by
  rw [checkForModuleBan_iff, checkForModuleBan_iff, addClBannedModule, addBannedModule_eq]
  exact above_insertUncovered

/-- The arguments are added to the bans there are. -/
theorem checkForModuleBan_forEach : checkForModuleBan name (forEach args addClBannedModule s) = true ↔
    checkForModuleBan name s = true ∨ ∃ arg ∈ args, arg <:+: name := by
  rw [checkForModuleBan_iff, checkForModuleBan_iff, forEach_addClBannedModule, addBannedModule_eq]
  exact above_forEach_insertUncovered

/-- No entry of the list contains an earlier one. -/
theorem pairwise_clBannedModules : (forEach args addClBannedModule {}).clBannedModules.Pairwise
    fun mod later => ¬ mod <:+: later := by
  rw [forEach_addClBannedModule, addBannedModule_eq]
  change (forEach args (insertUncovered (· <:+: ·)) []).Pairwise _
  exact forEach_preserves (I := List.Pairwise fun mod later => ¬ mod <:+: later) .nil
    fun _ _ _ minimal => pairwise_insertUncovered minimal

/-- An IRQ is banned for its number, its module or its name. -/
theorem checkForIrqBan_forEach {hint : IrqHint} {mod : Option (List Char)} :
    checkForIrqBan hint mod (forEach args addClBannedModule s) = true ↔ checkForIrqBan hint mod s = true ∨
      ∃ arg ∈ args, (∃ m ∈ mod, m ≠ [] ∧ arg <:+: m) ∨ ∃ n ∈ hint.name, n ≠ [] ∧ arg <:+: n := by
  have numbers : (forEach args addClBannedModule s).clBannedIrqs = s.clBannedIrqs := by
    rw [forEach_addClBannedModule]
  have named (text : Option (List Char)) :
      text.any (fun m => !m.isEmpty && checkForModuleBan m (forEach args addClBannedModule s)) = true ↔
        text.any (fun m => !m.isEmpty && checkForModuleBan m s) = true ∨
          ∃ arg ∈ args, ∃ m ∈ text, m ≠ [] ∧ arg <:+: m := by
    cases text with
    | none => simp
    | some m =>
      rw [Option.any_some, Option.any_some, Bool.and_eq_true, Bool.and_eq_true, checkForModuleBan_forEach]
      by_cases empty : m = []
      · simp [empty]
      · simp [empty]
  unfold checkForIrqBan
  rw [Bool.or_eq_true, Bool.or_eq_true, Bool.or_eq_true, Bool.or_eq_true, numbers, named, named]
  constructor
  · rintro ((number | module | ⟨arg, given, inside⟩) | name | ⟨arg, given, inside⟩)
    · exact .inl (.inl (.inl number))
    · exact .inl (.inl (.inr module))
    · exact .inr ⟨arg, given, .inl inside⟩
    · exact .inl (.inr name)
    · exact .inr ⟨arg, given, .inr inside⟩
  · rintro (((number | module) | name) | ⟨arg, given, inside | inside⟩)
    · exact .inl (.inl number)
    · exact .inl (.inr (.inl module))
    · exact .inr (.inl name)
    · exact .inl (.inr (.inr ⟨arg, given, inside⟩))
    · exact .inr (.inr ⟨arg, given, inside⟩)

end Modules

/-- A name is banned exactly when it contains one of the arguments. -/
theorem checkForModuleBan_commandLine (args : List (List Char)) (name : List Char) :
    checkForModuleBan name (forEach args addClBannedModule {}) = true ↔ ∃ arg ∈ args, arg <:+: name := by
  rw [checkForModuleBan_forEach]
  exact or_iff_right Bool.false_ne_true

end Irqbalance
