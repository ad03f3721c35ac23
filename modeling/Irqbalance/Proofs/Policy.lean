import Irqbalance.Model.Policy

/-! # What a directory of policy scripts yields

A script of a directory starts from the default policy, and what it leaves stays unless another
script runs behind it. So the first script that accepts decides, and without one the last script
does, although it has declined or failed.
-/

namespace Irqbalance

variable {K : Env} {s : State}

/-- The scripts of a directory. -/
def scripts (entries : List PolicyFile) : List (Option ScriptRun) :=
  (entries.filter fun entry => entry.isReg && entry.isExecutable).map (·.run)

/-- The script has a policy for the interrupt. -/
def accepts (run : Option ScriptRun) : Bool := run.any fun run => run.status == 0

/-- The policy that a script prints. -/
def printedPolicy (K : Env) (s : State) (run : Option ScriptRun) : UserIrqPolicy :=
  (runScriptForPolicy K s run {}).2

/-- The documented policy of a directory: that of the first script that exits with 0. -/
def documentedPolicy (K : Env) (s : State) (entries : List PolicyFile) : UserIrqPolicy :=
  match (scripts entries).find? accepts with
  | some run => printedPolicy K s run
  | none => {}

section Directory

variable {entry : PolicyFile} {entries : List PolicyFile} {pol : UserIrqPolicy}

theorem scripts_cons : scripts (entry :: entries) =
    if entry.isReg && entry.isExecutable then entry.run :: scripts entries else scripts entries := by
  unfold scripts
  by_cases runs : (entry.isReg && entry.isExecutable) = true
  · rw [if_pos runs, List.filter_cons_of_pos (by simpa using runs), List.map_cons]
  · rw [if_neg runs, List.filter_cons_of_neg (by simpa using runs)]

/-- A script decides, or hands on what it has printed. -/
theorem tryScripts_cons : tryScripts K s (entry :: entries) pol =
    if entry.isReg && entry.isExecutable then
      if accepts entry.run then printedPolicy K s entry.run
      else tryScripts K s entries (printedPolicy K s entry.run)
    else tryScripts K s entries pol := by
  have zero : (runScriptForPolicy K s entry.run {}).1 = 0 ↔ accepts entry.run = true := by
    cases entry.run with
    | none => exact iff_of_false one_ne_zero Bool.false_ne_true
    | some run => simp [runScriptForPolicy, accepts]
  have natural : 0 ≤ (runScriptForPolicy K s entry.run {}).1 := by
    cases entry.run with
    | none => exact zero_le_one
    | some run => exact Int.natCast_nonneg run.status
  rw [tryScripts, printedPolicy]
  generalize runScriptForPolicy K s entry.run {} = result at zero natural ⊢
  cases entry.isReg with
  | false => rfl
  | true =>
    cases entry.isExecutable with
    | false => rfl
    | true =>
      simp only [Bool.not_true, Bool.false_eq_true, if_false, Bool.and_self, if_true]
      by_cases accepted : accepts entry.run = true
      · have exit := zero.mpr accepted
        rw [if_pos accepted, if_neg (by omega), if_neg (by omega)]
      · have exit := mt zero.mp accepted
        rw [if_neg accepted]
        split
        · rfl
        · rw [if_pos (by omega)]

/-- The policy of a directory: the first script that accepts decides, else the last one. -/
theorem tryScripts_eq : tryScripts K s entries pol =
    match (scripts entries).find? accepts with
    | some run => printedPolicy K s run
    | none => ((scripts entries).getLast?.map (printedPolicy K s)).getD pol := by
  induction entries generalizing pol with
  | nil => rfl
  | cons entry entries ih =>
    rw [tryScripts_cons, scripts_cons]
    split
    · by_cases accepted : accepts entry.run = true
      · rw [if_pos accepted, List.find?_cons_of_pos accepted]
      · rw [if_neg accepted, ih, List.find?_cons_of_neg accepted]
        cases scripts entries with
        | nil => rfl
        | cons next rest => rw [List.getLast?_cons_cons, List.getLast?_eq_some_getLast (List.cons_ne_nil next rest)]; rfl
    · exact ih

/-- What a script can leave: the fields that were given, in their ranges. -/
structure WellFormed (K : Env) (s : State) (pol : UserIrqPolicy) : Prop where
  ban : pol.ban = -1 ∨ pol.ban = 0 ∨ pol.ban = 1
  level : -1 ≤ pol.level ∧ pol.level ≤ 3
  numaNode : pol.numaNodeSet = 1 → getNumaNode K pol.numaNode s ≠ none

theorem wellFormed_default : WellFormed K s {} where
  ban := .inl rfl
  level := by decide
  numaNode given := by contradiction

theorem WellFormed.parse (well : WellFormed K s pol) (buf : List Char) :
    WellFormed K s (parseUserPolicyKey K s buf pol) := by
  unfold parseUserPolicyKey
  split
  · exact well
  · dsimp only
    split_ifs with isBan isFalse isTrue isLevel isNode missing
    · exact { well with ban := .inr (.inl rfl) }
    · exact { well with ban := .inr (.inr rfl) }
    · exact well
    · split
      · rename_i idx found
        have bound : idx < 4 := (List.findIdx?_eq_some_iff_findIdx_eq.mp found).1
        exact { well with level := ⟨by dsimp only; omega, by dsimp only; omega⟩ }
      · exact well
    · exact well
    · exact { well with numaNode := fun _ none => missing (by rw [none]; rfl) }
    · exact well

/-- Whatever the scripts print, the policy has its documented form and names a node that exists. -/
theorem wellFormed_getIrqUserPolicy (polscript : PolScript) :
    WellFormed K s (getIrqUserPolicy K s polscript) := by
  have read (fuel : ℕ) (text : List Char) (pol : UserIrqPolicy) (well : WellFormed K s pol) :
      WellFormed K s (readPolicy K s fuel text pol) := by
    induction fuel generalizing text pol with
    | zero => exact well
    | succ fuel ih =>
      cases text with
      | nil => exact well
      | cons c text => exact ih _ _ (well.parse _)
  have printed (run : Option ScriptRun) : WellFormed K s (printedPolicy K s run) := by
    cases run with
    | none => exact wellFormed_default
    | some run => exact read _ _ _ wellFormed_default
  cases polscript with
  | absent => exact wellFormed_default
  | file run =>
    unfold getIrqUserPolicy
    dsimp only
    split
    · exact wellFormed_default
    · exact printed run
  | directory entries =>
    rw [getIrqUserPolicy, tryScripts_eq]
    split
    · exact printed _
    · cases (scripts entries).getLast? with
      | none => exact wellFormed_default
      | some run => exact printed run

end Directory

/-- A directory has its documented policy exactly when a script accepts, or the last script prints
no policy, or there is none. -/
theorem getIrqUserPolicy_directory (K : Env) (s : State) (entries : List PolicyFile) :
    getIrqUserPolicy K s (.directory entries) = documentedPolicy K s entries ↔
      (∃ run ∈ scripts entries, accepts run = true) ∨
        ∀ run ∈ (scripts entries).getLast?, printedPolicy K s run = {} := by
  rw [getIrqUserPolicy, tryScripts_eq, documentedPolicy]
  cases found : (scripts entries).find? accepts with
  | some run => exact iff_of_true rfl (.inl ⟨run, List.mem_of_find?_eq_some found, List.find?_some found⟩)
  | none =>
    have declined : ¬ ∃ run ∈ scripts entries, accepts run = true := by
      rintro ⟨run, member, accepted⟩
      exact List.find?_eq_none.mp found run member accepted
    rw [or_iff_right declined]
    cases (scripts entries).getLast? with
    | none => simp
    | some run => simp

/-- A script that declines with exit code 1 and prints a ban. -/
theorem getIrqUserPolicy_declined : ¬ getIrqUserPolicy {} {} (.directory [{ run := some ⟨"ban=true\n".toList, 1⟩ }]) =
    documentedPolicy {} {} [{ run := some ⟨"ban=true\n".toList, 1⟩ }] := by
  decide +kernel

end Irqbalance
