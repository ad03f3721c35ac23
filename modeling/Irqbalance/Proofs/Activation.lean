import Irqbalance.Model.Activate
import Irqbalance.Proofs.Location

/-! # What activation can do

`activate_mapping` reads and writes affinities, saturates CPUs, moves an IRQ to a fallback CPU or
back to the rebalance list, and settles the `moved` mark. `Activating` lists these effects. The
assignment that `try_fallback_cpu` overwrites for the time of one write is restored before anyone
else looks, so that it is no effect of its own.
-/

namespace Irqbalance

open Relation (ReflTransGen)

variable {K : Env}

/-- The mask that is written for an IRQ assigned to `o`. -/
def appliedMask (s : State) (o : ObjRef) : CpuMask := s.cpuOnlineMap &&& (s.objs o).mask

/-- The state after one write for an entry. -/
def wrote (K : Env) (info : IrqRef) (o : ObjRef) (s : State) : State :=
  (writeAffinity K (s.irqs info).irq (appliedMask s o) s).2

/-- One effect of `activate_mappings`. -/
inductive Activating (K : Env) (s : State) : State → Prop
  | read : Activating K s { s with clock := s.clock + 1 }
  | written {info : IrqRef} {o : ObjRef} (member : info ∈ s.interruptsDb)
      (moved : (s.irqs info).moved = true)
      (target : (s.irqs info).assignedObj = some o ∨ (s.objs o).objType = .cpu) :
      Activating K s (wrote K info o s)
  | saturated {o : ObjRef} (cpu : (s.objs o).objType = .cpu) :
      Activating K s (setSlots o SLOTS_SATURATED s)
  | fellBack {s' : State} {info : IrqRef} {original fallback scope : ObjRef} {tried : CpuMask}
      (member : info ∈ s.irqList (some original))
      (chosen : findBestCpuUnderObj s original tried TREE_DEPTH scope = some fallback)
      (moved : Migrated (some original) (some fallback) info s s') : Activating K s s'
  | evicted {s' : State} {info : IrqRef} {o : ObjRef} (member : info ∈ s.irqList (some o))
      (level : (s.irqs info).level ≠ .none) (moved : Migrated (some o) none info s s') :
      Activating K s s'
  | settled {info : IrqRef} {o : ObjRef} (assigned : (s.irqs info).assignedObj = some o)
      (agrees : (∃ n, K.readable n = false) ∨ s.affinity (s.irqs info).irq = appliedMask s o) :
      Activating K s (clearMoved info s)
  | idled {info : IrqRef}
      (idle : (s.irqs info).assignedObj = none ∨ (s.irqs info).level = .none) :
      Activating K s (clearMoved info s)
  | abandoned {info : IrqRef} (assigned : (s.irqs info).assignedObj ≠ none) :
      Activating K s (s.setIrq info { s.irqs info with level := .none, moved := false })

section Effects

variable {s s' : State}

/-- The log grows only when the mask of an entry is written. -/
theorem Activating.wrote_or_idle (effect : Activating K s s') : s'.writes = s.writes ∨
    ∃ info ∈ s.interruptsDb, ∃ o, ((s.irqs info).assignedObj = some o ∨ (s.objs o).objType = .cpu) ∧
      s' = wrote K info o s := by
  cases effect with
  | read => exact .inl rfl
  | @written info o member _ target => exact .inr ⟨info, member, o, target, rfl⟩
  | saturated _ => exact .inl rfl
  | fellBack _ _ moved => exact .inl moved.kernel.writes
  | evicted _ _ moved => exact .inl moved.kernel.writes
  | settled _ _ => exact .inl rfl
  | idled _ => exact .inl rfl
  | abandoned _ => exact .inl rfl

theorem retained_read : Retained s { s with clock := s.clock + 1 } :=
  .of_irqs ⟨rfl, rfl, rfl, fun _ => rfl, fun _ => rfl⟩ rfl rfl

theorem retained_wrote {info : IrqRef} {o : ObjRef} : Retained s (wrote K info o s) :=
  .of_irqs ⟨rfl, rfl, rfl, fun _ => rfl, fun _ => rfl⟩ rfl rfl

theorem retained_setSlots {o : ObjRef} {slots : ℤ} : Retained s (setSlots o slots s) :=
  retained_setObj rfl

theorem retained_clearMoved {info : IrqRef} : Retained s (clearMoved info s) :=
  retained_setIrq rfl rfl rfl fun _ => rfl

theorem retained_abandon {info : IrqRef} (assigned : (s.irqs info).assignedObj ≠ none) :
    Retained s (s.setIrq info { s.irqs info with level := .none, moved := false }) :=
  retained_setIrq rfl rfl rfl fun unassigned => absurd unassigned assigned

theorem Activating.located (effect : Activating K s s') (valid : Located s) : Located s' := by
  cases effect with
  | read => exact retained_read.located valid
  | written _ _ _ => exact retained_wrote.located valid
  | saturated _ => exact retained_setSlots.located valid
  | fellBack member _ moved => exact moved.located member (fun none => by contradiction) valid
  | evicted member level moved => exact moved.located member (fun _ => level) valid
  | settled _ _ => exact retained_clearMoved.located valid
  | idled _ => exact retained_clearMoved.located valid
  | abandoned assigned => exact (retained_abandon assigned).located valid

theorem Activating.sameTree (effect : Activating K s s') : SameTree s s' := by
  cases effect with
  | read => constructor <;> intros <;> rfl
  | written _ _ _ => constructor <;> intros <;> rfl
  | saturated _ => exact sameTree_setObj rfl rfl rfl rfl rfl
  | fellBack _ _ moved => exact moved.tree
  | evicted _ _ moved => exact moved.tree
  | settled _ _ => exact sameTree_setIrq
  | idled _ => exact sameTree_setIrq
  | abandoned _ => exact sameTree_setIrq

theorem Activating.sameDb (effect : Activating K s s') : SameDb s s' := by
  cases effect with
  | read => exact retained_read.db
  | written _ _ _ => exact retained_wrote.db
  | saturated _ => exact sameDb_setObj
  | fellBack _ _ moved => exact moved.db
  | evicted _ _ moved => exact moved.db
  | settled _ _ => exact retained_clearMoved.db
  | idled _ => exact retained_clearMoved.db
  | abandoned assigned => exact (retained_abandon assigned).db

theorem Activating.path_located (path : ReflTransGen (Activating K) s s') (valid : Located s) :
    Located s' :=
  path_preserves (fun _ _ valid effect => effect.located valid) valid path

theorem Activating.path_sameTree (path : ReflTransGen (Activating K) s s') : SameTree s s' :=
  path_preserves (I := SameTree s) (fun _ _ same effect => same.trans effect.sameTree) (.refl s) path

theorem Activating.path_sameDb (path : ReflTransGen (Activating K) s s') : SameDb s s' :=
  path_preserves (I := SameDb s) (fun _ _ same effect => same.trans effect.sameDb) (.refl s) path

end Effects

section Fallback

variable {s : State} {info : IrqRef} {original fallback scope : ObjRef}

/-- Only a CPU can be found, and it is valid. -/
theorem findBestCpuUnderObj_valid {tried : CpuMask} {fuel : ℕ} {obj : ObjRef}
    (chosen : findBestCpuUnderObj s original tried fuel obj = some fallback) :
    isValidFallback s original tried fallback = true := by
  induction fuel generalizing obj fallback with
  | zero => contradiction
  | succ fuel ih =>
    rw [findBestCpuUnderObj] at chosen
    split at chosen
    · split at chosen
      · obtain rfl := Option.some.inj chosen
        assumption
      · contradiction
    · refine List.foldlRecOn (motive := fun best => ∀ b, best = some b →
        isValidFallback s original tried b = true) (s.objs obj).children _ ?_ ?_ fallback chosen
      · intro b absent
        contradiction
      · intro best valid child _ b found
        split at found
        · rename_i candidate offered
          have candidateValid := ih offered
          unfold moreSlots at found
          split at found
          · exact Option.some.inj found ▸ candidateValid
          · split at found
            · exact Option.some.inj found ▸ candidateValid
            · exact valid b found
        · exact valid b found

theorem isValidFallback_cpu {tried : CpuMask}
    (valid : isValidFallback s original tried fallback = true) :
    (s.objs fallback).objType = .cpu := by
  simp only [isValidFallback, Bool.and_eq_true, Bool.not_eq_true', Bool.or_eq_false_iff] at valid
  simpa using valid.1.1.1.2

/-- A write under an overwritten assignment is the write, then the overwriting. -/
theorem writeAffinity_setAssigned : writeAffinity K ((setAssigned info fallback s).irqs info).irq
      ((setAssigned info fallback s).cpuOnlineMap &&& ((setAssigned info fallback s).objs fallback).mask)
      (setAssigned info fallback s) =
    (K.write s.clock, setAssigned info fallback (wrote K info fallback s)) := by
  simp only [wrote, writeAffinity, setAssigned, State.setIrq, appliedMask, Function.update_self]

/-- Overwriting the assignment and restoring it is nothing. -/
theorem setAssigned_restore (assigned : (s.irqs info).assignedObj = some original) :
    setAssigned info original (setAssigned info fallback s) = s := by
  have same : Function.update s.irqs info { s.irqs info with assignedObj := some original } =
      s.irqs := by
    rw [← assigned, Function.update_eq_self_iff]
  simp only [setAssigned, State.setIrq, Function.update_self, Function.update_idem, same]

theorem sameDb_setAssigned {o : ObjRef} : SameDb s (setAssigned info o s) := sameDb_setIrq rfl rfl

/-- The overwritten assignment does not matter to the move that replaces it. -/
theorem Migrated.of_setAssigned {src dst : Option ObjRef} {s' : State} {o : ObjRef}
    (moved : Migrated src dst info (setAssigned info o s) s') : Migrated src dst info s s' where
  tree := sameTree_setIrq.trans moved.tree
  db := sameDb_setAssigned.trans moved.db
  kernel := sameKernel_setIrq.trans moved.kernel
  irqs := by
    rw [moved.irqs]
    simp only [setAssigned, State.setIrq, Function.update_self, Function.update_idem]
  lists := by rw [moved.lists]; rfl
  powersaveMode := moved.powersaveMode
  unprobed := moved.unprobed

/-- The move at the start of `adopt_fallback`. -/
theorem adoptFallback_found {c : ObjRef}
    (link : (s.irqList (some original)).find? (sameIrq s info) = some info) :
    Migrated (some original) (some c) info s
      (migrateIrqObj (some original) (some c) info (setAssigned info c s)) := by
  refine Migrated.of_setAssigned (o := c) (migrateIrqObj_found (fun none => by contradiction) ?_)
  have same : sameIrq (setAssigned info c s) info = sameIrq s info := by
    funext other
    simp only [sameIrq, sameDb_setAssigned.irq]
  rw [same]
  exact link

theorem adoptFallback_migrated {c : ObjRef} (valid : Consistent s) (member : info ∈ s.interruptsDb)
    (assigned : (s.irqs info).assignedObj = some original) :
    Migrated (some original) (some c) info s
      (migrateIrqObj (some original) (some c) info (setAssigned info c s)) := by
  have listed : info ∈ s.irqList (some original) := valid.listed member assigned
  exact adoptFallback_found (find_sameIrq listed (valid.unique_irqList (List.mem_append_left _ member)))

/-- What `adopt_fallback` does to the entries. -/
theorem adoptFallback_irqs (moved : Migrated (some original) (some fallback) info s
      (migrateIrqObj (some original) (some fallback) info (setAssigned info fallback s))) :
    (adoptFallback info original fallback (setAssigned info fallback s)).irqs =
      Function.update s.irqs info { s.irqs info with moved := false, assignedObj := some fallback } := by
  unfold adoptFallback
  generalize migrateIrqObj (some original) (some fallback) info (setAssigned info fallback s) = s₁ at moved ⊢
  have cleared : (clearMoved info s₁).irqs =
      Function.update s.irqs info { s.irqs info with moved := false, assignedObj := some fallback } := by
    simp only [clearMoved, State.setIrq, moved.irqs, Function.update_self, Function.update_idem]
  dsimp only
  split
  · exact cleared
  · exact cleared

/-- `adopt_fallback` right after the kernel took the mask. -/
theorem adoptFallback_path (valid : Located s) (member : info ∈ s.interruptsDb)
    (assigned : (s.irqs info).assignedObj = some original) {tried : CpuMask}
    (chosen : findBestCpuUnderObj s original tried TREE_DEPTH scope = some fallback)
    (agrees : s.affinity (s.irqs info).irq = appliedMask s fallback) :
    ReflTransGen (Activating K) s (adoptFallback info original fallback (setAssigned info fallback s)) := by
  have listed : info ∈ s.irqList (some original) := valid.listed member assigned
  have moved := adoptFallback_migrated (c := fallback) valid.toConsistent member assigned
  unfold adoptFallback
  generalize migrateIrqObj (some original) (some fallback) info (setAssigned info fallback s) = s₁ at moved ⊢
  have effect : Activating K s s₁ := .fellBack listed chosen moved
  have agrees₁ : s₁.affinity (s₁.irqs info).irq = appliedMask s₁ fallback := by
    rw [moved.kernel.affinity, moved.db.irq, agrees, appliedMask, appliedMask, moved.tree.cpuOnlineMap,
      moved.tree.mask]
  dsimp only
  split
  · rename_i cpu
    refine .head effect (.head (.saturated cpu) (.single (.settled (o := fallback) moved.assigned ?_)))
    right
    have same : SameTree s₁ (s₁.setObj original { s₁.objs original with slotsLeft := SLOTS_SATURATED }) :=
      sameTree_setObj rfl rfl rfl rfl rfl
    have mask := same.mask fallback
    rw [appliedMask] at agrees₁ ⊢
    exact agrees₁.trans (congrArg (s₁.cpuOnlineMap &&& ·) mask.symm)
  · exact .head effect (.single (.settled moved.assigned (.inr agrees₁)))

/-- A refused write, with the saturation that `ENOSPC` causes. -/
def refused (K : Env) (info : IrqRef) (fallback : ObjRef) (s : State) : State :=
  if K.write s.clock = .writeError .ENOSPC then
    setSlots fallback SLOTS_SATURATED (wrote K info fallback s)
  else wrote K info fallback s

/-- One round of `try_fallback_cpu`, without the temporary assignment of refused CPUs. -/
theorem fallbackLoop_succ {attempts : ℕ} {tried : CpuMask}
    (assigned : (s.irqs info).assignedObj = some original) :
    fallbackLoop K info original scope (attempts + 1) tried s =
      match findBestCpuUnderObj s original tried TREE_DEPTH scope with
      | none => (false, s)
      | some fallback =>
        if (K.write s.clock).accepted then
          (true, adoptFallback info original fallback
            (setAssigned info fallback (wrote K info fallback s)))
        else fallbackLoop K info original scope attempts (tried ||| (s.objs fallback).mask)
          (refused K info fallback s) := by
  rw [fallbackLoop]
  cases findBestCpuUnderObj s original tried TREE_DEPTH scope with
  | none => rfl
  | some fallback =>
    have assigned' : ((wrote K info fallback s).irqs info).assignedObj = some original := assigned
    simp only [writeAffinity_setAssigned, refused]
    cases result : K.write s.clock with
    | ok => rfl
    | closeError _ => rfl
    | openError _ =>
      simp only [WriteResult.accepted, Bool.false_eq_true, reduceCtorEq, if_false,
        setAssigned_restore assigned']
    | writeError e =>
      by_cases full : e = .ENOSPC
      · subst full
        simp only [WriteResult.accepted, Bool.false_eq_true, if_false, if_true]
        congr 1
        exact setAssigned_restore (s := setSlots fallback SLOTS_SATURATED (wrote K info fallback s))
          assigned'
      · simp only [WriteResult.accepted, Bool.false_eq_true, if_false, full,
          WriteResult.writeError.injEq, setAssigned_restore assigned']

theorem refused_irqs : (refused K info fallback s).irqs = s.irqs := by
  unfold refused
  split <;> rfl

theorem affinity_wrote (accepted : (K.write s.clock).accepted = true) :
    (wrote K info fallback s).affinity ((wrote K info fallback s).irqs info).irq =
      appliedMask (wrote K info fallback s) fallback := by
  simp [wrote, writeAffinity, accepted, appliedMask]

/-- The search depends on the objects and the unbanned CPUs only. -/
theorem findBestCpuUnderObj_congr {s' : State} (objs : s'.objs = s.objs)
    (unbanned : s'.unbannedCpus = s.unbannedCpus) (tried : CpuMask) (fuel : ℕ) (obj : ObjRef) :
    findBestCpuUnderObj s' original tried fuel obj = findBestCpuUnderObj s original tried fuel obj := by
  induction fuel generalizing obj with
  | zero => rfl
  | succ fuel ih =>
    have valid : isValidFallback s' = isValidFallback s := by
      funext original tried cpu
      simp only [isValidFallback, objs, unbanned]
    have slots : moreSlots s' = moreSlots s := by
      funext best candidate
      simp only [moreSlots, objs]
    simp only [findBestCpuUnderObj, objs, valid, slots, ih]

/-- The retry loop has no other effects, and when it fails all entries are as before. -/
theorem fallbackLoop_path (valid : Located s) (member : info ∈ s.interruptsDb)
    (moved : (s.irqs info).moved = true) (assigned : (s.irqs info).assignedObj = some original)
    (attempts : ℕ) (tried : CpuMask) :
    ReflTransGen (Activating K) s (fallbackLoop K info original scope attempts tried s).2 ∧
      ((fallbackLoop K info original scope attempts tried s).1 = false →
        (fallbackLoop K info original scope attempts tried s).2.irqs = s.irqs) := by
  induction attempts generalizing tried s with
  | zero => exact ⟨.refl, fun _ => rfl⟩
  | succ attempts ih =>
    rw [fallbackLoop_succ assigned]
    split
    · exact ⟨.refl, fun _ => rfl⟩
    · rename_i fallback chosen
      have cpu := isValidFallback_cpu (findBestCpuUnderObj_valid chosen)
      have wrote : Activating K s (wrote K info fallback s) := .written member moved (.inr cpu)
      have valid₁ := wrote.located valid
      split
      · rename_i accepted
        have chosen₁ : findBestCpuUnderObj (Irqbalance.wrote K info fallback s) original tried
            TREE_DEPTH scope = some fallback :=
          (findBestCpuUnderObj_congr rfl rfl tried TREE_DEPTH scope).trans chosen
        exact ⟨.head wrote (adoptFallback_path valid₁ member assigned chosen₁ (affinity_wrote accepted)),
          fun failed => by contradiction⟩
      · have path : ReflTransGen (Activating K) s (refused K info fallback s) := by
          unfold refused
          split
          · exact .head wrote (.single (.saturated cpu))
          · exact .single wrote
        have rest := ih (s := refused K info fallback s) (Activating.path_located path valid)
          (by rw [(Activating.path_sameDb path).interruptsDb]; exact member)
          (by rw [refused_irqs]; exact moved) (by rw [refused_irqs]; exact assigned)
          (tried ||| (s.objs fallback).mask)
        rw [refused_irqs] at rest
        exact ⟨path.trans rest.1, rest.2⟩

theorem tryFallbackCpu_path (valid : Located s) (member : info ∈ s.interruptsDb)
    (moved : (s.irqs info).moved = true) (assigned : (s.irqs info).assignedObj = some original) :
    ReflTransGen (Activating K) s (tryFallbackCpu K info original s).2 ∧
      ((tryFallbackCpu K info original s).1 = false →
        (tryFallbackCpu K info original s).2.irqs = s.irqs) := by
  unfold tryFallbackCpu
  dsimp only
  split
  · exact ⟨.refl, fun _ => rfl⟩
  split
  · exact ⟨.refl, fun _ => rfl⟩
  · exact fallbackLoop_path valid member moved assigned _ _

end Fallback

section Mapping

variable {s : State} {info : IrqRef} {o : ObjRef}

/-- The end of a failed fallback: the entry waits again, or its level forbids that. -/
theorem requeue_path (valid : Located s) (member : info ∈ s.interruptsDb)
    (assigned : (s.irqs info).assignedObj = some o) :
    ReflTransGen (Activating K) s (clearMoved info (forceRebalanceIrq info s)) := by
  simp only [forceRebalanceIrq, assigned]
  split
  · rename_i level
    exact .single (.idled (.inr level))
  · rename_i level
    have listed : info ∈ s.irqList (some o) := valid.listed member assigned
    have moved := valid.migrated (q := none) listed
    exact .head (.evicted listed level moved) (.single (.idled (.inl moved.assigned)))

theorem activateError_path (valid : Located s) (member : info ∈ s.interruptsDb)
    (moved : (s.irqs info).moved = true) (assigned : (s.irqs info).assignedObj = some o) (e : Errno) :
    ReflTransGen (Activating K) s (activateError K e info o s) := by
  unfold activateError
  split
  any_goals exact .refl
  · -- ENOSPC
    obtain ⟨s₁, full⟩ : ∃ s₁, s₁ =
      if (s.objs o).objType = .cpu then setSlots o SLOTS_SATURATED s else s := ⟨_, rfl⟩
    have saturated : ReflTransGen (Activating K) s s₁ := by
      rw [full]
      split
      · rename_i cpu
        exact .single (.saturated cpu)
      · exact .refl
    have irqs₁ : s₁.irqs = s.irqs := by
      rw [full]
      split <;> rfl
    have valid₁ := Activating.path_located saturated valid
    have member₁ : info ∈ s₁.interruptsDb := by
      rw [(Activating.path_sameDb saturated).interruptsDb]
      exact member
    obtain ⟨path, failed⟩ := tryFallbackCpu_path (K := K) valid₁ member₁
      (by rw [irqs₁]; exact moved)
      (show (s₁.irqs info).assignedObj = some o by rw [irqs₁]; exact assigned)
    rw [← full]
    dsimp only
    generalize tryFallbackCpu K info o s₁ = tried at path failed ⊢
    obtain ⟨placed, s₂⟩ := tried
    cases placed with
    | true => exact saturated.trans path
    | false =>
      have valid₂ := Activating.path_located path valid₁
      have member₂ : info ∈ s₂.interruptsDb := by
        rw [(Activating.path_sameDb path).interruptsDb]
        exact member₁
      have assigned₂ : (s₂.irqs info).assignedObj = some o := by
        rw [failed rfl, irqs₁]
        exact assigned
      exact saturated.trans (path.trans (requeue_path valid₂ member₂ assigned₂))
  · exact .single (.abandoned (by rw [assigned]; exact Option.some_ne_none o))

/-- The error code that reaches the error half of `activate_mapping`. -/
def WriteResult.error : WriteResult → Option Errno
  | .ok => none
  | .openError e | .writeError e | .closeError e => some e

/-- The state after the read of `check_affinity`. -/
def looked (s : State) : State := { s with clock := s.clock + 1 }

/-- `activate_mapping` of a moved entry. -/
theorem activateMapping_moved (moved : (s.irqs info).moved = true)
    (assigned : (s.irqs info).assignedObj = some o) :
    activateMapping K info s =
      if !K.readable s.clock || s.affinity (s.irqs info).irq == appliedMask s o then
        clearMoved info (looked s)
      else match (K.write (s.clock + 1)).error with
        | none => clearMoved info (wrote K info o (looked s))
        | some e => activateError K e info o (wrote K info o (looked s)) := by
  simp only [activateMapping, moved, Bool.not_true, Bool.false_eq_true, if_false, assigned,
    checkAffinity]
  apply if_congr Iff.rfl rfl
  change (match (K.write (s.clock + 1)) with
    | .ok => clearMoved info (wrote K info o (looked s))
    | .openError e => activateError K e info o (wrote K info o (looked s))
    | .writeError e => activateError K e info o (wrote K info o (looked s))
    | .closeError e => activateError K e info o (wrote K info o (looked s))) = _
  cases K.write (s.clock + 1) <;> rfl

theorem WriteResult.accepted_of_error {result : WriteResult} (success : result.error = none) :
    result.accepted = true := by
  cases result with
  | ok => rfl
  | openError _ => contradiction
  | writeError _ => contradiction
  | closeError _ => contradiction

theorem activateMapping_path (valid : Located s) (member : info ∈ s.interruptsDb) :
    ReflTransGen (Activating K) s (activateMapping K info s) := by
  cases moved : (s.irqs info).moved with
  | false =>
    simp only [activateMapping, moved, Bool.not_false, if_true]
    exact .refl
  | true =>
  cases assigned : (s.irqs info).assignedObj with
  | none =>
    simp only [activateMapping, moved, Bool.not_true, Bool.false_eq_true, if_false, assigned]
    exact .refl
  | some o =>
    rw [activateMapping_moved moved assigned]
    have look : Activating K s (looked s) := .read
    split
    · rename_i same
      refine .head look (.single (.settled assigned ?_))
      rcases Bool.or_eq_true_iff.mp same with unread | same
      · exact .inl ⟨s.clock, by simpa using unread⟩
      · exact .inr (beq_iff_eq.mp same)
    · have write : Activating K (looked s) (wrote K info o (looked s)) :=
        .written member moved (.inl assigned)
      have path := (ReflTransGen.single look).tail write
      split
      · rename_i success
        refine path.tail (.settled assigned (.inr ?_))
        exact affinity_wrote (s := looked s) (WriteResult.accepted_of_error success)
      · exact path.trans (activateError_path (Activating.path_located path valid) member moved assigned _)

/-- `activate_mappings` has no other effects. -/
theorem activateMappings_path (valid : Located s) :
    ReflTransGen (Activating K) s (activateMappings K s) := by
  apply forEach_preserves .refl
  intro info member s' path
  refine path.trans (activateMapping_path (Activating.path_located path valid) ?_)
  rw [(Activating.path_sameDb path).interruptsDb]
  exact member

end Mapping

end Irqbalance
