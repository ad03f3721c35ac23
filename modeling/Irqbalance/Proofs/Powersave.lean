import Irqbalance.Lib.FirstMax
import Irqbalance.Proofs.Guard

/-! # Interrupts on CPUs in powersave mode

`find_best_object` passes over objects in powersave mode, `is_valid_fallback` does not look at the
mode. So an IRQ reaches such a CPU exactly through the fallback of `try_fallback_cpu`. The retry
loop offers the valid CPUs of its scope in descending order of free slots, and the kernel's replies
decide how far it gets; that is the order in which the condition below is stated.
-/

namespace Irqbalance

open Relation (ReflTransGen)
open FirstMax (firstMax above)

variable {K : Env}

section Masks

variable {a t m : CpuMask}

theorem cpusIntersects_or : cpusIntersects a (t ||| m) = (cpusIntersects a t || cpusIntersects a m) := by
  have zero : a &&& (t ||| m) = CPU_MASK_NONE ↔ a &&& t = CPU_MASK_NONE ∧ a &&& m = CPU_MASK_NONE := by
    rw [BitVec.and_or_distrib_left, BitVec.or_eq_zero_iff]
  rw [Bool.eq_iff_iff]
  simp only [cpusIntersects, bne_iff_ne, ne_eq, zero, Bool.or_eq_true]
  tauto

theorem cpusIntersects_zero : cpusIntersects a CPU_MASK_NONE = false := by
  simp [cpusIntersects]

/-- A mask that meets anything meets itself. -/
theorem cpusIntersects_self (meets : cpusIntersects a t = true) : cpusIntersects a a = true := by
  simp only [cpusIntersects, bne_iff_ne, ne_eq, BitVec.and_self] at meets ⊢
  rintro rfl
  exact meets BitVec.zero_and

end Masks

/-- The free slots, as the key by which `find_best_cpu_under_obj` chooses. -/
def slotsKey (s : State) (o : ObjRef) : ℤ := (s.objs o).slotsLeft

/-- The CPUs below an object, in the order of the tree. -/
def cpusUnder (s : State) : ℕ → ObjRef → List ObjRef
  | 0, _ => []
  | fuel + 1, o =>
    if (s.objs o).objType = .cpu then [o] else (s.objs o).children.flatMap (cpusUnder s fuel)

/-- Leave out what overlaps a CPU that is named before. -/
def disjointFrom (s : State) (tried : CpuMask) : List ObjRef → List ObjRef
  | [] => []
  | c :: rest =>
    if cpusIntersects (s.objs c).mask tried then disjointFrom s tried rest
    else c :: disjointFrom s (tried ||| (s.objs c).mask) rest

/-- The valid CPUs below `scope`, those with more free slots first and equals in tree order. -/
def ranking (s : State) (original scope : ObjRef) : List ObjRef :=
  ((cpusUnder s TREE_DEPTH scope).filter (isValidFallback s original CPU_MASK_NONE)).insertionSort
    (above (slotsKey s))

/-- The CPUs that the fallback of an IRQ on `original` tries one after another. -/
def fallbackOffers (s : State) (original scope : ObjRef) : List ObjRef :=
  disjointFrom s CPU_MASK_NONE (ranking s original scope)

section Search

variable {s s' : State} {original scope c : ObjRef} {tried : CpuMask}

theorem disjointFrom_subset {l : List ObjRef} : disjointFrom s tried l ⊆ l := by
  induction l generalizing tried with
  | nil => exact List.Subset.refl []
  | cons x rest ih =>
    rw [disjointFrom]
    split
    · exact List.subset_cons_of_subset x ih
    · exact List.cons_subset_cons x ih

/-- The recursive search is the first maximum among the valid CPUs below. -/
theorem findBestCpuUnderObj_eq (fuel : ℕ) (obj : ObjRef) : findBestCpuUnderObj s original tried fuel obj =
    firstMax (slotsKey s) ((cpusUnder s fuel obj).filter (isValidFallback s original tried)) := by
  induction fuel generalizing obj with
  | zero => rfl
  | succ fuel ih =>
    rw [findBestCpuUnderObj, cpusUnder]
    split
    · cases valid : isValidFallback s original tried obj with
      | false => simp [valid, firstMax]
      | true => simp [valid, firstMax, FirstMax.better]
    · have groups := FirstMax.foldl_groups (slotsKey s) ((s.objs obj).children.map fun child =>
        (cpusUnder s fuel child).filter (isValidFallback s original tried)) none
      rw [List.foldl_map] at groups
      rw [List.filter_flatMap, List.flatMap_def]
      refine Eq.trans ?_ groups
      congr 1
      funext best child
      rw [ih child]
      cases firstMax (slotsKey s) ((cpusUnder s fuel child).filter (isValidFallback s original tried)) with
      | none => rfl
      | some candidate => cases best <;> rfl

theorem fallbackOffers_valid (member : c ∈ fallbackOffers s original scope) :
    isValidFallback s original CPU_MASK_NONE c = true := by
  have ranked : c ∈ ranking s original scope := disjointFrom_subset member
  rw [ranking, List.mem_insertionSort] at ranked
  exact (List.mem_filter.mp ranked).2

theorem isValidFallback_tried (c : ObjRef) : isValidFallback s original tried c =
    (isValidFallback s original CPU_MASK_NONE c && !cpusIntersects (s.objs c).mask tried) := by
  simp only [isValidFallback, cpusIntersects_zero, Bool.not_false, Bool.and_true]

/-- While the loop runs, only slots of the original CPU and of tried CPUs have changed. -/
structure Retrying (s s' : State) (original : ObjRef) (tried : CpuMask) : Prop where
  tree : SameTree s s'
  slots : ∀ c, c ≠ original → cpusIntersects (s.objs c).mask tried = false →
    (s'.objs c).slotsLeft = (s.objs c).slotsLeft

theorem Retrying.isValidFallback (retrying : Retrying s s' original tried) (c : ObjRef) :
    isValidFallback s' original tried c = Irqbalance.isValidFallback s original tried c := by
  simp only [Irqbalance.isValidFallback, retrying.tree.objType, retrying.tree.mask,
    retrying.tree.unbannedCpus]
  by_cases own : c = original
  · simp [own]
  · cases met : cpusIntersects (s.objs c).mask tried with
    | true => simp
    | false => rw [retrying.slots c own met]

theorem SameTree.cpusUnder (tree : SameTree s s') (fuel : ℕ) (o : ObjRef) :
    cpusUnder s' fuel o = Irqbalance.cpusUnder s fuel o := by
  induction fuel generalizing o with
  | zero => rfl
  | succ fuel ih =>
    rw [Irqbalance.cpusUnder, Irqbalance.cpusUnder, tree.objType, tree.children]
    simp only [funext ih]

theorem head?_disjointFrom (tried : CpuMask) (l : List ObjRef) : (disjointFrom s tried l).head? =
    l.find? fun c => !cpusIntersects (s.objs c).mask tried := by
  induction l with
  | nil => rfl
  | cons c rest ih =>
    rw [disjointFrom]
    split
    · rename_i met
      rw [List.find?_cons_of_neg (by simp [met]), ih]
    · rename_i free
      rw [List.find?_cons_of_pos (by simpa using free), List.head?_cons]

/-- Trying the first CPU leaves the others to be tried. -/
theorem disjointFrom_tail {l rest : List ObjRef} (first : disjointFrom s tried l = c :: rest)
    (nonempty : cpusIntersects (s.objs c).mask (s.objs c).mask = true) :
    disjointFrom s (tried ||| (s.objs c).mask) l = rest := by
  induction l with
  | nil => contradiction
  | cons x l ih =>
    rw [disjointFrom] at first ⊢
    rw [cpusIntersects_or]
    split at first
    · rename_i met
      rw [met, Bool.true_or, if_pos rfl]
      exact ih first
    · obtain ⟨rfl, rfl⟩ := List.cons.inj first
      rw [nonempty, Bool.or_true, if_pos rfl]

/-- In the middle of the loop, the search finds the first CPU that is still to be tried. -/
theorem Retrying.search (retrying : Retrying s s' original tried) :
    findBestCpuUnderObj s' original tried TREE_DEPTH scope =
      (disjointFrom s tried (ranking s original scope)).head? := by
  have candidates : (cpusUnder s' TREE_DEPTH scope).filter (Irqbalance.isValidFallback s' original tried) =
      ((cpusUnder s TREE_DEPTH scope).filter (Irqbalance.isValidFallback s original CPU_MASK_NONE)).filter
        fun c => !cpusIntersects (s.objs c).mask tried := by
    rw [retrying.tree.cpusUnder, List.filter_filter]
    apply List.filter_congr
    intro c _
    rw [retrying.isValidFallback, isValidFallback_tried, Bool.and_comm]
  rw [findBestCpuUnderObj_eq, candidates, head?_disjointFrom, ranking, FirstMax.find?_insertionSort]
  apply FirstMax.firstMax_congr
  intro c member
  rw [List.mem_filter, List.mem_filter] at member
  have own : c ≠ original := by
    rintro rfl
    simp [Irqbalance.isValidFallback] at member
  exact retrying.slots c own (by simpa using member.2)

/-- The CPU that is tried next is a valid fallback, so that its mask is not empty. -/
theorem Retrying.next {rest : List ObjRef} (retrying : Retrying s s' original tried)
    (offers : disjointFrom s tried (ranking s original scope) = c :: rest) :
    Irqbalance.isValidFallback s' original tried c = true ∧
      cpusIntersects (s.objs c).mask (s.objs c).mask = true := by
  have found : findBestCpuUnderObj s' original tried TREE_DEPTH scope = some c := by
    rw [retrying.search, offers, List.head?_cons]
  have choice := findBestCpuUnderObj_valid found
  refine ⟨choice, ?_⟩
  rw [retrying.isValidFallback] at choice
  simp only [Irqbalance.isValidFallback, Bool.and_eq_true] at choice
  exact cpusIntersects_self choice.1.2

end Search

section Loop

variable {s s' : State} {info : IrqRef} {original scope c : ObjRef} {tried : CpuMask}

/-- The first of the offers that the kernel takes, when `clock` is the time of the first write. -/
def firstTaken (K : Env) : ℕ → ℕ → List ObjRef → Option ObjRef
  | 0, _, _ => none
  | _, _, [] => none
  | attempts + 1, clock, c :: rest =>
    if (K.write clock).accepted then some c else firstTaken K attempts (clock + 1) rest

/-- The offer with the index of the first accepted reply is taken. -/
theorem firstTaken_eq_some {attempts clock : ℕ} {offers : List ObjRef} :
    firstTaken K attempts clock offers = some c ↔ ∃ k < attempts, offers[k]? = some c ∧
      (∀ j < k, (K.write (clock + j)).accepted = false) ∧ (K.write (clock + k)).accepted = true := by
  induction attempts generalizing clock offers with
  | zero => simp [firstTaken]
  | succ attempts ih =>
    cases offers with
    | nil => simp [firstTaken]
    | cons x rest =>
      rw [firstTaken]
      split
      · rename_i accepted
        constructor
        · intro same
          obtain rfl := Option.some.inj same
          exact ⟨0, Nat.succ_pos _, rfl, fun j none => absurd none (Nat.not_lt_zero j), accepted⟩
        · rintro ⟨k, _, found, refused, _⟩
          cases k with
          | zero => exact found
          | succ k =>
            have first := refused 0 (Nat.succ_pos k)
            rw [Nat.add_zero, accepted] at first
            contradiction
      · rename_i refused
        have refused : (K.write clock).accepted = false := by simpa using refused
        rw [ih]
        constructor
        · rintro ⟨k, bound, found, earlier, accepted⟩
          refine ⟨k + 1, Nat.succ_lt_succ bound, found, fun j below => ?_, by
            rwa [Nat.add_right_comm] at accepted⟩
          cases j with
          | zero => exact refused
          | succ j =>
            have reply := earlier j (Nat.lt_of_succ_lt_succ below)
            rwa [Nat.add_right_comm] at reply
        · rintro ⟨k, bound, found, earlier, accepted⟩
          cases k with
          | zero =>
            rw [Nat.add_zero, refused] at accepted
            contradiction
          | succ k =>
            refine ⟨k, Nat.lt_of_succ_lt_succ bound, found, fun j below => ?_, by
              rwa [Nat.add_right_comm]⟩
            have reply := earlier (j + 1) (Nat.succ_lt_succ below)
            rwa [Nat.add_right_comm]

theorem sameTree_wrote {o : ObjRef} : SameTree s (wrote K info o s) := by
  constructor <;> intros <;> rfl

theorem sameTree_refused : SameTree s (refused K info c s) := by
  unfold refused
  split
  · exact sameTree_wrote.trans (sameTree_setObj rfl rfl rfl rfl rfl)
  · exact sameTree_wrote

theorem refused_clock : (refused K info c s).clock = s.clock + 1 := by
  unfold refused
  split <;> rfl

/-- A refusal concerns the slots of the refused CPU only. -/
theorem refused_slots {o : ObjRef} (other : o ≠ c) :
    ((refused K info c s).objs o).slotsLeft = (s.objs o).slotsLeft := by
  unfold refused
  split
  · simp [setSlots, State.setObj, other, wrote, writeAffinity]
  · rfl

theorem Retrying.refused (info : IrqRef) (retrying : Retrying s s' original tried)
    (nonempty : cpusIntersects (s.objs c).mask (s.objs c).mask = true) :
    Retrying s (refused K info c s') original (tried ||| (s.objs c).mask) where
  tree := retrying.tree.trans sameTree_refused
  slots o own free := by
    rw [cpusIntersects_or, Bool.or_eq_false_iff] at free
    have other : o ≠ c := by
      rintro rfl
      rw [nonempty] at free
      exact Bool.noConfusion free.2
    rw [refused_slots other]
    exact retrying.slots o own free.1

/-- The loop ends on the first offer that the kernel takes. -/
theorem fallbackLoop_result (retrying : Retrying s s' original tried) (valid : Located s')
    (member : info ∈ s'.interruptsDb) (moved : (s'.irqs info).moved = true)
    (assigned : (s'.irqs info).assignedObj = some original) (attempts : ℕ) :
    match firstTaken K attempts s'.clock (disjointFrom s tried (ranking s original scope)) with
    | none => (fallbackLoop K info original scope attempts tried s').1 = false
    | some c => (fallbackLoop K info original scope attempts tried s').1 = true ∧
        (fallbackLoop K info original scope attempts tried s').2.irqs =
          Function.update s'.irqs info { s'.irqs info with moved := false, assignedObj := some c } := by
  induction attempts generalizing tried s' with
  | zero => rfl
  | succ attempts ih =>
    rw [fallbackLoop_succ assigned, retrying.search]
    cases offers : disjointFrom s tried (ranking s original scope) with
    | nil => rfl
    | cons c rest =>
      obtain ⟨choice, nonempty⟩ := retrying.next offers
      have write : Activating K s' (wrote K info c s') :=
        .written member moved (.inr (isValidFallback_cpu choice))
      rw [List.head?_cons, firstTaken]
      dsimp only
      cases accepted : (K.write s'.clock).accepted with
      | true =>
        have moved := adoptFallback_migrated (c := c) (write.located valid).toConsistent member assigned
        exact ⟨rfl, adoptFallback_irqs moved⟩
      | false =>
        have refusal : ReflTransGen (Activating K) s' (Irqbalance.refused K info c s') := by
          unfold Irqbalance.refused
          split
          · exact .head write (.single (.saturated (isValidFallback_cpu choice)))
          · exact .single write
        have next := ih (retrying.refused (K := K) info nonempty)
          (Activating.path_located refusal valid)
          (by rw [(Activating.path_sameDb refusal).interruptsDb]; exact member)
          (by rw [refused_irqs]; exact moved) (by rw [refused_irqs]; exact assigned)
        rw [refused_clock, refused_irqs, disjointFrom_tail offers nonempty] at next
        have same : (s'.objs c).mask = (s.objs c).mask := retrying.tree.mask c
        simp only [Bool.false_eq_true, if_false, same]
        exact next

end Loop

/-- The fallback for an IRQ that is about to be activated begins: the kernel has no vector left on
its object, and its balance level leaves a scope to search. -/
structure FallsBack (K : Env) (s : State) (info : IrqRef) (o scope : ObjRef) : Prop where
  moved : (s.irqs info).moved = true
  assigned : (s.irqs info).assignedObj = some o
  differs : K.readable s.clock = true ∧ s.affinity (s.irqs info).irq ≠ appliedMask s o
  full : (K.write (s.clock + 1)).error = some .ENOSPC
  policy : (s.irqs info).level ≠ .core ∧ (s.irqs info).level ≠ .none
  scope : searchScope s o (s.irqs info).level = some scope

/-- When the fallback of an IRQ begins and the kernel refuses the first `k` of its writes and takes
the next, the CPU at place `k` of the offers is not in powersave mode. -/
def FallbackAwake (K : Env) (s : State) (info : IrqRef) : Prop :=
  ∀ o scope, FallsBack K s info o scope → ∀ k < MAX_FALLBACK_ATTEMPTS, ∀ c,
    (fallbackOffers s o scope)[k]? = some c →
    (∀ j < k, (K.write (s.clock + 2 + j)).accepted = false) →
    (K.write (s.clock + 2 + k)).accepted = true → (s.objs c).powersaveMode = false

/-- No IRQ has got an object that is a CPU in powersave mode. -/
def NoNewSleeper (s s' : State) : Prop :=
  ∀ i ∈ s'.interruptsDb, ∀ o, (s'.objs o).objType = .cpu → (s'.objs o).powersaveMode = true →
    (s'.irqs i).assignedObj = some o → (s.irqs i).assignedObj = some o

section Visit

variable {s s' s'' : State} {info i : IrqRef} {o scope c : ObjRef}

/-- One entry keeps its object or loses it, and the others are untouched. -/
structure Unassigned (info : IrqRef) (s s' : State) : Prop where
  own : (s'.irqs info).assignedObj = (s.irqs info).assignedObj ∨ (s'.irqs info).assignedObj = none
  others : ∀ i, i ≠ info → s'.irqs i = s.irqs i

theorem Unassigned.trans (first : Unassigned info s s') (second : Unassigned info s' s'') :
    Unassigned info s s'' where
  own := by
    rcases second.own with same | gone
    · rw [same]
      exact first.own
    · exact .inr gone
  others i other := (second.others i other).trans (first.others i other)

/-- Where every entry keeps its object or loses it, no CPU has got an IRQ. -/
theorem NoNewSleeper.of_vacated (vacated : ∀ i ∈ s'.interruptsDb,
    (s'.irqs i).assignedObj = (s.irqs i).assignedObj ∨ (s'.irqs i).assignedObj = none) :
    NoNewSleeper s s' := by
  intro i member o _ _ assigned
  rcases vacated i member with kept | gone
  · rw [← kept, assigned]
  · rw [gone] at assigned
    contradiction

theorem Unassigned.noNewSleeper (unassigned : Unassigned info s s') : NoNewSleeper s s' := by
  refine .of_vacated fun i _ => ?_
  by_cases same : i = info
  · subst same
    exact unassigned.own
  · exact .inl (by rw [unassigned.others i same])

theorem Unassigned.of_irqs (same : s'.irqs = s.irqs) : Unassigned info s s' :=
  ⟨.inl (by rw [same]), fun i _ => by rw [same]⟩

/-- Storing back an entry that keeps its object. -/
theorem unassigned_setIrq {entry : IrqInfo} (same : entry.assignedObj = (s.irqs info).assignedObj) :
    Unassigned info s (s.setIrq info entry) :=
  ⟨.inl (by simpa [State.setIrq] using same), fun i other => by simp [State.setIrq, other]⟩

theorem unassigned_clearMoved : Unassigned info s (clearMoved info s) := unassigned_setIrq rfl

theorem forceRebalanceIrq_unassigning (valid : Consistent s) (member : info ∈ s.interruptsDb) :
    Unassigned info s (forceRebalanceIrq info s) := by
  unfold forceRebalanceIrq
  split
  · exact .of_irqs rfl
  · split
    · exact .of_irqs rfl
    · rename_i o assigned
      have moved := valid.migrated (q := none) (p := some o) (valid.listed member assigned)
      exact ⟨.inr moved.assigned, fun i other => moved.other other⟩

/-- How `try_fallback_cpu` ends, from any state of the same tree with the same slots elsewhere. -/
theorem tryFallbackCpu_result {d : ObjRef} (retrying : Retrying s s' o CPU_MASK_NONE) (valid : Located s')
    (member : info ∈ s'.interruptsDb) (moved : (s'.irqs info).moved = true)
    (assigned : (s'.irqs info).assignedObj = some o)
    (policy : (s'.irqs info).level ≠ .core ∧ (s'.irqs info).level ≠ .none)
    (searched : searchScope s' o (s'.irqs info).level = some d) :
    match firstTaken K MAX_FALLBACK_ATTEMPTS s'.clock (fallbackOffers s o d) with
    | none => (tryFallbackCpu K info o s').1 = false
    | some c => (tryFallbackCpu K info o s').1 = true ∧ (tryFallbackCpu K info o s').2.irqs =
        Function.update s'.irqs info { s'.irqs info with moved := false, assignedObj := some c } := by
  have unpinned : ¬ ((s'.irqs info).level = .core ∨ (s'.irqs info).level = .none) := by
    rintro (core | none)
    · exact policy.1 core
    · exact policy.2 none
  simp only [tryFallbackCpu, unpinned, if_false, searched]
  exact fallbackLoop_result retrying valid member moved assigned MAX_FALLBACK_ATTEMPTS

theorem SameTree.searchScope (tree : SameTree s s') (level : Level) :
    searchScope s' o level = Irqbalance.searchScope s o level := by
  have ancestors (type : ObjType) (fuel : ℕ) (p : Option ObjRef) :
      nearestAncestor s' type fuel p = nearestAncestor s type fuel p := by
    induction fuel generalizing p with
    | zero => rfl
    | succ fuel ih =>
      cases p with
      | none => rfl
      | some p => rw [nearestAncestor, nearestAncestor, tree.objType, tree.parent, ih]
  simp only [Irqbalance.searchScope, tree.objType, tree.parent, ancestors]

/-- The state in which the fallback of an IRQ on `o` starts. -/
def saturateCpu (o : ObjRef) (s : State) : State :=
  if (s.objs o).objType = .cpu then setSlots o SLOTS_SATURATED s else s

theorem saturateCpu_path : ReflTransGen (Activating K) s (saturateCpu o s) := by
  unfold saturateCpu
  split
  · rename_i cpu
    exact .single (.saturated cpu)
  · exact .refl

theorem saturateCpu_irqs : (saturateCpu o s).irqs = s.irqs := by
  unfold saturateCpu
  split <;> rfl

theorem saturateCpu_clock : (saturateCpu o s).clock = s.clock := by
  unfold saturateCpu
  split <;> rfl

theorem saturateCpu_slots {c : ObjRef} (other : c ≠ o) :
    ((saturateCpu o s).objs c).slotsLeft = (s.objs c).slotsLeft := by
  unfold saturateCpu
  split
  · simp [setSlots, State.setObj, other]
  · rfl

theorem activateError_ENOSPC : activateError K .ENOSPC info o s =
    if (tryFallbackCpu K info o (saturateCpu o s)).1
    then (tryFallbackCpu K info o (saturateCpu o s)).2
    else clearMoved info (forceRebalanceIrq info (tryFallbackCpu K info o (saturateCpu o s)).2) := rfl

theorem activateError_other {e : Errno} (other : e ≠ .ENOSPC) :
    Unassigned info s (activateError K e info o s) := by
  have abandoned : Unassigned info s (s.setIrq info { s.irqs info with level := .none, moved := false }) :=
    unassigned_setIrq rfl
  cases e with
  | ENOSPC => contradiction
  | EAGAIN => exact .of_irqs rfl
  | EBUSY => exact .of_irqs rfl
  | EINVAL => exact .of_irqs rfl
  | ERANGE => exact .of_irqs rfl
  | ENOMEM => exact .of_irqs rfl
  | EIO => exact abandoned
  | EPERM => exact abandoned
  | other code => exact abandoned

/-- A failed fallback assigns nothing. -/
theorem activateError_failed (valid : Located s) (member : info ∈ s.interruptsDb)
    (moved : (s.irqs info).moved = true) (assigned : (s.irqs info).assignedObj = some o)
    (failed : (tryFallbackCpu K info o (saturateCpu o s)).1 = false) :
    Unassigned info s (activateError K .ENOSPC info o s) := by
  have full := saturateCpu_path (K := K) (s := s) (o := o)
  have valid₁ := Activating.path_located full valid
  have member₁ : info ∈ (saturateCpu o s).interruptsDb := by
    rw [(Activating.path_sameDb full).interruptsDb]
    exact member
  obtain ⟨path, same⟩ := tryFallbackCpu_path (K := K) valid₁ member₁
    (by rw [saturateCpu_irqs]; exact moved)
    (show ((saturateCpu o s).irqs info).assignedObj = some o by rw [saturateCpu_irqs]; exact assigned)
  have irqs := same failed
  rw [activateError_ENOSPC, failed]
  simp only [Bool.false_eq_true, if_false]
  have kept : Unassigned info s (tryFallbackCpu K info o (saturateCpu o s)).2 :=
    .of_irqs (by rw [irqs, saturateCpu_irqs])
  refine kept.trans ((forceRebalanceIrq_unassigning
    (Activating.path_located path valid₁).toConsistent ?_).trans unassigned_clearMoved)
  rw [(Activating.path_sameDb path).interruptsDb]
  exact member₁

/-- After ENOSPC the visit assigns an object only when a fallback begins and is taken. -/
theorem activateError_cases {o : ObjRef} (valid : Located s) (member : info ∈ s.interruptsDb)
    (moved : (s.irqs info).moved = true) (assigned : (s.irqs info).assignedObj = some o)
    (differs : K.readable s.clock = true ∧ s.affinity (s.irqs info).irq ≠ appliedMask s o)
    (failure : (K.write (s.clock + 1)).error = some .ENOSPC) :
    (Unassigned info s (activateError K .ENOSPC info o (wrote K info o (looked s))) ∧
      ∀ o' scope, FallsBack K s info o' scope →
        firstTaken K MAX_FALLBACK_ATTEMPTS (s.clock + 2) (fallbackOffers s o' scope) = none) ∨
    ∃ o' scope c, FallsBack K s info o' scope ∧
      firstTaken K MAX_FALLBACK_ATTEMPTS (s.clock + 2) (fallbackOffers s o' scope) = some c ∧
      (activateError K .ENOSPC info o (wrote K info o (looked s))).irqs =
        Function.update s.irqs info { s.irqs info with moved := false, assignedObj := some c } := by
  have object {o' scope : ObjRef} (falls : FallsBack K s info o' scope) : o' = o :=
    Option.some.inj (falls.assigned.symm.trans assigned)
  have written : Unassigned info s (wrote K info o (looked s)) := .of_irqs rfl
  have write : ReflTransGen (Activating K) s (wrote K info o (looked s)) :=
    (ReflTransGen.single .read).tail (.written member moved (.inl assigned))
  have valid₁ := Activating.path_located write valid
  have retrying : Retrying s (saturateCpu o (wrote K info o (looked s))) o CPU_MASK_NONE :=
    ⟨Activating.path_sameTree (write.trans saturateCpu_path), fun c own _ => saturateCpu_slots own⟩
  have unplaced (failed : (tryFallbackCpu K info o (saturateCpu o (wrote K info o (looked s)))).1 = false) :
      Unassigned info s (activateError K .ENOSPC info o (wrote K info o (looked s))) :=
    written.trans
      (activateError_failed (s := wrote K info o (looked s)) valid₁ member moved assigned failed)
  have irqs : (saturateCpu o (wrote K info o (looked s))).irqs = s.irqs := saturateCpu_irqs
  by_cases policy : (s.irqs info).level = .core ∨ (s.irqs info).level = .none
  · refine .inl ⟨unplaced (by simp only [tryFallbackCpu, irqs, policy, if_true]), fun o' scope falls => ?_⟩
    rcases policy with core | none
    · exact absurd core falls.policy.1
    · exact absurd none falls.policy.2
  cases searched : searchScope s o (s.irqs info).level with
  | none =>
    refine .inl ⟨unplaced ?_, fun o' scope falls => ?_⟩
    · simp only [tryFallbackCpu, irqs, policy, if_false, retrying.tree.searchScope, searched]
    · obtain rfl := object falls
      rw [falls.scope] at searched
      contradiction
  | some scope =>
    have managed := not_or.mp policy
    have valid₂ := Activating.path_located (saturateCpu_path (K := K) (o := o)) valid₁
    have result := tryFallbackCpu_result (K := K) (d := scope) retrying valid₂
      (by rw [(Activating.path_sameDb (saturateCpu_path (K := K))).interruptsDb]; exact member)
      (by rw [irqs]; exact moved) (by rw [irqs]; exact assigned) (by rw [irqs]; exact managed)
      (by rw [irqs, retrying.tree.searchScope, searched])
    have clock : (saturateCpu o (wrote K info o (looked s))).clock = s.clock + 2 := saturateCpu_clock
    rw [clock, irqs] at result
    cases taken : firstTaken K MAX_FALLBACK_ATTEMPTS (s.clock + 2) (fallbackOffers s o scope) with
    | none =>
      rw [taken] at result
      refine .inl ⟨unplaced result, fun o' scope' falls => ?_⟩
      obtain rfl := object falls
      obtain rfl := Option.some.inj (falls.scope.symm.trans searched)
      exact taken
    | some c =>
      rw [taken] at result
      refine .inr ⟨o, scope, c, ⟨moved, assigned, differs, failure, managed, searched⟩, taken, ?_⟩
      rw [activateError_ENOSPC, result.1, if_pos rfl, result.2]

/-- A visit of `activate_mapping` assigns an object only when a fallback begins and is taken. -/
theorem activateMapping_cases (valid : Located s) (member : info ∈ s.interruptsDb) :
    (Unassigned info s (activateMapping K info s) ∧ ∀ o scope, FallsBack K s info o scope →
      firstTaken K MAX_FALLBACK_ATTEMPTS (s.clock + 2) (fallbackOffers s o scope) = none) ∨
    ∃ o scope c, FallsBack K s info o scope ∧
      firstTaken K MAX_FALLBACK_ATTEMPTS (s.clock + 2) (fallbackOffers s o scope) = some c ∧
      (activateMapping K info s).irqs =
        Function.update s.irqs info { s.irqs info with moved := false, assignedObj := some c } := by
  cases moved : (s.irqs info).moved with
  | false =>
    refine .inl ⟨?_, fun o scope falls => ?_⟩
    · simp only [activateMapping, moved, Bool.not_false, if_true]
      exact .of_irqs rfl
    · rw [falls.moved] at moved
      contradiction
  | true =>
  cases assigned : (s.irqs info).assignedObj with
  | none =>
    refine .inl ⟨?_, fun o scope falls => ?_⟩
    · simp only [activateMapping, moved, Bool.not_true, Bool.false_eq_true, if_false, assigned]
      exact .of_irqs rfl
    · rw [falls.assigned] at assigned
      contradiction
  | some o =>
  rw [activateMapping_moved moved assigned]
  have read : Unassigned info s (looked s) := .of_irqs rfl
  have written : Unassigned info s (wrote K info o (looked s)) := .of_irqs rfl
  split
  · rename_i same
    refine .inl ⟨read.trans unassigned_clearMoved, fun o' scope falls => ?_⟩
    obtain rfl := Option.some.inj (falls.assigned.symm.trans assigned)
    simp [falls.differs.1, falls.differs.2] at same
  rename_i differs
  have differs : K.readable s.clock = true ∧ s.affinity (s.irqs info).irq ≠ appliedMask s o := by
    simpa using differs
  split
  · rename_i success
    refine .inl ⟨written.trans unassigned_clearMoved, fun o' scope falls => ?_⟩
    rw [falls.full] at success
    contradiction
  rename_i e failure
  by_cases enospc : e = .ENOSPC
  · subst enospc
    exact activateError_cases valid member moved assigned differs failure
  · refine .inl ⟨written.trans (activateError_other enospc), fun o' scope falls => ?_⟩
    exact absurd (Option.some.inj (failure.symm.trans falls.full)) enospc

end Visit

section Walk

variable {s s' s'' : State} {info : IrqRef}

theorem Activating.powersaveMode (effect : Activating K s s') (o : ObjRef) :
    (s'.objs o).powersaveMode = (s.objs o).powersaveMode := by
  cases effect with
  | read => rfl
  | written _ _ _ => rfl
  | saturated _ =>
    unfold setSlots
    apply setObj_field TopoObj.powersaveMode
    rfl
  | fellBack _ _ moved => exact moved.powersaveMode o
  | evicted _ _ moved => exact moved.powersaveMode o
  | settled _ _ => rfl
  | idled _ => rfl
  | abandoned _ => rfl

theorem Activating.path_powersaveMode (path : ReflTransGen (Activating K) s s') (o : ObjRef) :
    (s'.objs o).powersaveMode = (s.objs o).powersaveMode :=
  path_preserves (I := fun s' => (s'.objs o).powersaveMode = (s.objs o).powersaveMode)
    (fun _ _ same effect => (effect.powersaveMode o).trans same) rfl path

theorem NoNewSleeper.trans (first : NoNewSleeper s s') (second : NoNewSleeper s' s'')
    (db : SameDb s' s'') (tree : SameTree s' s'')
    (modes : ∀ o, (s''.objs o).powersaveMode = (s'.objs o).powersaveMode) : NoNewSleeper s s'' := by
  intro i member o cpu asleep assigned
  have before := second i member o cpu asleep assigned
  rw [db.interruptsDb] at member
  rw [tree.objType] at cpu
  rw [modes] at asleep
  exact first i member o cpu asleep before

theorem activateMapping_other (valid : Located s) (member : info ∈ s.interruptsDb) {i : IrqRef}
    (other : i ≠ info) : (activateMapping K info s).irqs i = s.irqs i := by
  rcases activateMapping_cases (K := K) valid member with ⟨kept, _⟩ | ⟨_, _, _, _, _, irqs⟩
  · exact kept.others i other
  · rw [irqs, Function.update_of_ne other]

/-- A visit keeps IRQs off CPUs in powersave mode exactly when its fallback stops at another CPU. -/
theorem activateMapping_noNewSleeper (valid : Located s) (member : info ∈ s.interruptsDb) :
    NoNewSleeper s (activateMapping K info s) ↔ FallbackAwake K s info := by
  have path := activateMapping_path (K := K) valid member
  rcases activateMapping_cases (K := K) valid member with
    ⟨kept, untaken⟩ | ⟨o, scope, c, falls, taken, irqs⟩
  · apply iff_of_true kept.noNewSleeper
    intro o scope falls k bound c offered refused accepted
    have taken : firstTaken K MAX_FALLBACK_ATTEMPTS (s.clock + 2) (fallbackOffers s o scope) = some c :=
      firstTaken_eq_some.mpr ⟨k, bound, offered, refused, accepted⟩
    rw [untaken o scope falls] at taken
    contradiction
  · obtain ⟨k, bound, offered, refused, accepted⟩ := firstTaken_eq_some.mp taken
    have choice := fallbackOffers_valid (List.mem_of_getElem? offered)
    have cpu := isValidFallback_cpu choice
    have fresh : c ≠ o := by
      rintro rfl
      simp [isValidFallback] at choice
    constructor
    · intro isolated o' scope' falls' k' bound' c' offered' refused' accepted'
      obtain rfl := Option.some.inj (falls'.assigned.symm.trans falls.assigned)
      obtain rfl := Option.some.inj (falls'.scope.symm.trans falls.scope)
      have taken' := firstTaken_eq_some.mpr ⟨k', bound', offered', refused', accepted'⟩
      obtain rfl := Option.some.inj (taken'.symm.trans taken)
      rw [← Bool.not_eq_true]
      intro asleep
      have before := isolated info ((Activating.path_sameDb path).interruptsDb ▸ member) c'
        (by rw [(Activating.path_sameTree path).objType]; exact cpu)
        (by rw [Activating.path_powersaveMode path]; exact asleep)
        (by rw [irqs, Function.update_self])
      exact fresh (Option.some.inj (before.symm.trans falls.assigned))
    · intro awake i _ o' _ asleep assigned
      by_cases same : i = info
      · subst same
        rw [irqs, Function.update_self] at assigned
        obtain rfl := Option.some.inj assigned
        rw [Activating.path_powersaveMode path, awake o scope falls k bound c offered refused accepted]
          at asleep
        contradiction
      · rwa [irqs, Function.update_of_ne same] at assigned

/-- Visits to other entries leave an entry alone. -/
theorem activateMappings_other {list : List IrqRef} (valid : Located s) (members : ∀ i ∈ list, i ∈ s.interruptsDb)
    (fresh : info ∉ list) : ReflTransGen (Activating K) s (forEach list (activateMapping K) s) ∧
      (forEach list (activateMapping K) s).irqs info = s.irqs info := by
  apply forEach_preserves (I := fun s' => ReflTransGen (Activating K) s s' ∧ s'.irqs info = s.irqs info) ⟨.refl, rfl⟩
  rintro i later s' ⟨walked, same⟩
  have valid' := Activating.path_located walked valid
  have member' : i ∈ s'.interruptsDb := by
    rw [(Activating.path_sameDb walked).interruptsDb]
    exact members i later
  have other : info ≠ i := fun equal => fresh (equal ▸ later)
  exact ⟨walked.trans (activateMapping_path valid' member'), (activateMapping_other valid' member' other).trans same⟩

/-- A visit and a walk that leaves its entry alone do together what each of them does. -/
theorem noNewSleeper_iff (walked : ReflTransGen (Activating K) s' s'') (same : s''.irqs info = s'.irqs info)
    (others : ∀ i, i ≠ info → s'.irqs i = s.irqs i) :
    NoNewSleeper s s'' ↔ NoNewSleeper s s' ∧ NoNewSleeper s' s'' := by
  have db := (Activating.path_sameDb walked).interruptsDb
  constructor
  · intro isolated
    constructor
    · intro i member o cpu asleep assigned
      by_cases own : i = info
      · subst own
        refine isolated i (by rw [db]; exact member) o ?_ ?_ (by rw [same]; exact assigned)
        · rw [(Activating.path_sameTree walked).objType]
          exact cpu
        · rw [Activating.path_powersaveMode walked]
          exact asleep
      · rwa [others i own] at assigned
    · intro i member o cpu asleep assigned
      by_cases own : i = info
      · subst own
        rwa [same] at assigned
      · rw [others i own]
        exact isolated i member o cpu asleep assigned
  · rintro ⟨first, second⟩
    exact first.trans second (Activating.path_sameDb walked) (Activating.path_sameTree walked)
      (Activating.path_powersaveMode walked)

/-- A walk keeps IRQs off CPUs in powersave mode exactly when each visit does. -/
theorem activateMappings_noNewSleeper {list : List IrqRef} (valid : Located s) (distinct : list.Nodup)
    (members : ∀ i ∈ list, i ∈ s.interruptsDb) :
    NoNewSleeper s (forEach list (activateMapping K) s) ↔
      EachStep (fun s info => activateMapping K info s) (FallbackAwake K) s list := by
  induction list generalizing s with
  | nil => exact iff_of_true (fun _ _ _ _ _ assigned => assigned) trivial
  | cons info rest ih =>
    obtain ⟨fresh, distinct⟩ := List.nodup_cons.mp distinct
    have member := members info List.mem_cons_self
    have path := activateMapping_path (K := K) valid member
    have visit := activateMapping_noNewSleeper (K := K) valid member
    have others (i : IrqRef) (other : i ≠ info) := activateMapping_other (K := K) valid member other
    rw [forEach_cons, EachStep, ← visit]
    generalize activateMapping K info s = s₁ at path others ⊢
    have valid₁ := Activating.path_located path valid
    have members₁ (i : IrqRef) (later : i ∈ rest) : i ∈ s₁.interruptsDb := by
      rw [(Activating.path_sameDb path).interruptsDb]
      exact members i (List.mem_cons_of_mem info later)
    rw [← ih valid₁ distinct members₁]
    -- the later visits neither touch the first entry nor change modes
    obtain ⟨walked, same⟩ := activateMappings_other (K := K) valid₁ members₁ fresh
    exact noNewSleeper_iff walked same others

end Walk

section Steps

variable {s s' : State}

/-- Every entry keeps its object or loses it. -/
def Vacated (s s' : State) : Prop :=
  ∀ i, (s'.irqs i).assignedObj = (s.irqs i).assignedObj ∨ (s'.irqs i).assignedObj = none

theorem Vacated.trans {s'' : State} (first : Vacated s s') (second : Vacated s' s'') : Vacated s s'' := by
  intro i
  rcases second i with same | gone
  · rw [same]
    exact first i
  · exact .inr gone

theorem Balancing.vacated (effect : Balancing s s') : Vacated s s' := by
  cases effect with
  | sorted _ _ _ => exact fun i => .inl rfl
  | mode _ _ => exact fun i => .inl rfl
  | @evicted s' info o _ _ moved =>
    intro i
    by_cases same : i = info
    · subst same
      exact .inr moved.assigned
    · exact .inl (by rw [moved.other same])

theorem Vanishing.vacated (effect : Vanishing s s') : Vacated s s' := by
  cases effect with
  | marked => exact fun i => .inl (retained_mark.assigned i)
  | removed _ removed => exact fun i => .inl (by rw [removed.irqs])

theorem Placing.powersaveMode (effect : Placing K s s') (o : ObjRef) :
    (s'.objs o).powersaveMode = (s.objs o).powersaveMode := by
  cases effect with
  | sorted _ _ _ => exact (setIrqList_obj o).1
  | placed _ _ moved => exact moved.powersaveMode o
  | descended effect =>
    obtain ⟨_, _, _, moved⟩ := effect.migrated
    exact moved.powersaveMode o

theorem Placing.path_powersaveMode (path : ReflTransGen (Placing K) s s') (o : ObjRef) :
    (s'.objs o).powersaveMode = (s.objs o).powersaveMode :=
  path_preserves (I := fun s' => (s'.objs o).powersaveMode = (s.objs o).powersaveMode)
    (fun _ _ same effect => (effect.powersaveMode o).trans same) rfl path

/-- A move to an object that is no CPU in powersave mode. -/
theorem Migrated.noNewSleeper {src : Option ObjRef} {info : IrqRef} {dst : ObjRef}
    (moved : Migrated src (some dst) info s s')
    (awake : (s.objs dst).objType = .cpu → (s.objs dst).powersaveMode = false) : NoNewSleeper s s' := by
  intro i _ o cpu asleep assigned
  by_cases same : i = info
  · subst same
    obtain rfl := Option.some.inj (moved.assigned.symm.trans assigned)
    rw [moved.tree.objType] at cpu
    rw [moved.powersaveMode, awake cpu] at asleep
    contradiction
  · rwa [moved.other same] at assigned

theorem eligibleObject_awake {o : ObjRef} (eligible : eligibleObject K s o = true) :
    (s.objs o).powersaveMode = false := by
  simp only [eligibleObject, Bool.and_eq_true, Bool.not_eq_true'] at eligible
  exact eligible.1.2

/-- The top-down placement passes over CPUs in powersave mode. -/
theorem Placing.noNewSleeper (effect : Placing K s s') (valid : Located s) (guarded : Guarded s) :
    NoNewSleeper s s' := by
  cases effect with
  | sorted _ _ _ => exact .of_vacated fun i _ => .inl rfl
  | @placed _ info node member target moved =>
    apply moved.noNewSleeper
    intro cpu
    have listed : node ∈ s.numaNodes := by
      rcases target with preferred | chosen
      · exact guarded.preferred info (valid.mem_db member) node preferred.1
      · exact chosen.2.1
    rw [guarded.nodes node listed] at cpu
    contradiction
  | descended effect =>
    cases effect with
    | descended _ _ _ eligible moved =>
      exact moved.noNewSleeper fun _ => eligibleObject_awake eligible

theorem calculatePlacement_noNewSleeper (valid : Located s) (guarded : Guarded s) :
    NoNewSleeper s (calculatePlacement K s) := by
  have all := path_preserves (I := fun s' => Located s' ∧ Guarded s' ∧ NoNewSleeper s s')
    (fun _ _ inv effect => ⟨effect.located inv.1, effect.guarded inv.2.1,
      inv.2.2.trans (effect.noNewSleeper inv.1 inv.2.1) effect.sameDb effect.sameTree
        effect.powersaveMode⟩)
    ⟨valid, guarded, fun _ _ _ _ _ assigned => assigned⟩ (calculatePlacement_path (K := K) valid)
  exact all.2.2

/-- Each visit of `activate_mappings` finds its fallback awake. -/
def VisitsAwake (K : Env) (s : State) : Prop :=
  EachStep (fun s info => activateMapping K info s) (FallbackAwake K) s s.interruptsDb

/-- Only activation can bring an IRQ to a CPU in powersave mode, and only through a fallback. -/
theorem step_noNewSleeper (op : Op) (valid : Located s) (guarded : Guarded s) :
    NoNewSleeper s (step K s op) ↔ (op = .activateMappings → VisitsAwake K s) := by
  cases op with
  | activateMappings =>
    have distinct := (List.nodup_append.mp valid.nodup_db).1
    have walk := activateMappings_noNewSleeper (K := K) valid distinct fun _ member => member
    exact ⟨fun isolated _ => walk.mp isolated, fun awake => walk.mpr (awake rfl)⟩
  | rebuild m banned src =>
    refine iff_of_true (.of_vacated fun i member => .inr ?_) (by rintro ⟨⟩)
    obtain ⟨_, blank⟩ := (rebuild_spec (K := K) m banned src s).entry i member
    exact blank.assigned
  | hotplug src irq hint =>
    refine iff_of_true (.of_vacated fun i member => ?_) (by rintro ⟨⟩)
    cases found : getIrqInfo irq s with
    | some _ =>
      simp only [step, found, Option.isSome_some, if_true]
      exact .inl trivial
    | none =>
      simp only [step, found, Option.isSome_none, Bool.false_eq_true, if_false] at member ⊢
      rcases (hotplug_spec src irq hint found valid).2.entry i member with ⟨_, same⟩ | ⟨_, blank⟩
      · exact .inl (by rw [same])
      · exact .inr blank.assigned
  | clearNoExisting =>
    have vacated := path_preserves (I := Vacated s) (fun _ _ inv effect => inv.trans effect.vacated)
      (fun _ => .inl rfl) (clearNoExistingIrqs_path valid)
    exact iff_of_true (.of_vacated fun i _ => vacated i) (by rintro ⟨⟩)
  | updateMigrationStatus =>
    have vacated := path_preserves (I := Vacated s) (fun _ _ inv effect => inv.trans effect.vacated)
      (fun _ => .inl rfl) (updateMigrationStatus_path (K := K) valid)
    exact iff_of_true (.of_vacated fun i _ => vacated i) (by rintro ⟨⟩)
  | calculatePlacement => exact iff_of_true (calculatePlacement_noNewSleeper valid guarded) (by rintro ⟨⟩)
  | account objs irqs cycle bans =>
    exact iff_of_true (.of_vacated fun i _ => .inl ((account_retained objs irqs cycle bans).assigned i))
      (by rintro ⟨⟩)

end Steps

section Runs

/-- In every run, the operations keep IRQs off CPUs in powersave mode exactly when each fallback
that is taken stops at a CPU that is awake. -/
theorem run_powersaveIsolated (K : Env) (affinity : ℤ → CpuMask) (bans : List ℤ)
    (modules : List (List Char)) (ops : List Op) :
    EachStep (step K) (fun s op => NoNewSleeper s (step K s op)) (boot affinity bans modules) ops ↔
      EachStep (step K) (fun s op => op = .activateMappings → VisitsAwake K s)
        (boot affinity bans modules) ops :=
  EachStep.congr_of_invariant (I := fun s => Located s ∧ Guarded s)
    ⟨boot_located affinity bans modules, boot_guarded affinity bans modules⟩
    (fun _ op inv => ⟨step_located op inv.1, step_guarded op inv.1 inv.2⟩)
    (fun _ op inv => step_noNewSleeper op inv.1 inv.2)

/-- CPUs 0 and 1 share their cache. -/
def sharedCache : Machine where
  online := (BitVec.ofNat NR_CPUS 3)
  cpuDirs := [
    { number := 0, coreSiblings := some (BitVec.ofNat NR_CPUS 3), sharedCpuMaps := [some (BitVec.ofNat NR_CPUS 3)] },
    { number := 1, coreSiblings := some (BitVec.ofNat NR_CPUS 3), sharedCpuMaps := [some (BitVec.ofNat NR_CPUS 3)] }]

/-- One legacy interrupt, number 24, which is balanced over cache domains. -/
def legacyIrq : IrqSources where
  procIrqs := [{ irq := 24, irqClass := IRQ_LEGACY }]

/-- Powersave mode with threshold 1, on a kernel that has no vector left at the first write. -/
def fullKernel : Env where
  powerThresh := some 1
  underAverage load variance avg := decide (load ≤ avg ∧ variance ≤ (avg - load) ^ 2)
  overAverage load variance avg := decide (avg ≤ load ∧ variance ≤ (load - avg) ^ 2)
  write n := if n = 1 then .writeError .ENOSPC else .ok

/-- Start up, idle for six cycles, and run the seventh. -/
def idleScan : List Op :=
  [.rebuild sharedCache CPU_MASK_NONE legacyIrq,
    .account (fun _ => ⟨0, 0, 0⟩) (fun _ => ⟨0, 0, 0, true⟩) 6 [],
    .updateMigrationStatus, .calculatePlacement, .activateMappings]

/-- CPU 0 enters powersave mode, the cache domain is full, and the fallback takes CPU 0. -/
theorem powersaveIsolated_fullKernel : ¬ EachStep (step fullKernel)
    (fun s op => NoNewSleeper s (step fullKernel s op)) (boot (fun _ => CPU_MASK_NONE) [] []) idleScan := by
  rintro ⟨_, _, _, _, isolated, _⟩
  -- entry 0 is the interrupt and object 1 is CPU 0
  have before := isolated 0 (by decide +kernel) 1 (by decide +kernel) (by decide +kernel) (by decide +kernel)
  revert before
  decide +kernel

end Runs

end Irqbalance
