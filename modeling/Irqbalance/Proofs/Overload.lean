import Irqbalance.Proofs.Selection
import Irqbalance.Proofs.Stranding
import Mathlib.Algebra.Order.BigOperators.Group.List
import Mathlib.Algebra.Order.Group.Nat

/-! # The pass over overloaded objects

`find_overloaded_objs` carries two running loads through all donors and all their interrupts. While the
loads of objects stay within half of 64 bits, neither wraps, the receiver's only rises, and every object
keeps an interrupt.
-/

namespace Irqbalance

variable {K : Env} {info : IrqRef} {s s' : State} {o d : ObjRef} {l : List IrqRef}

/-- The loads above 1 of a list of interrupts. -/
def heavyLoad (s : State) (l : List IrqRef) : ℕ :=
  (l.map fun i => if 1 < (s.irqs i).load then (s.irqs i).load else 0).sum

/-- Each interrupt of an object points back to it, and their loads above 1 are covered by the object's. -/
structure Covered (objs : List ObjRef) (s : State) : Prop where
  assigned : ∀ o ∈ objs, ∀ i ∈ (s.objs o).interrupts, (s.irqs i).assignedObj = some o
  heavy : ∀ o ∈ objs, heavyLoad s (s.objs o).interrupts ≤ (s.objs o).load

/-- One call of `move_candidate_irqs`: no subtraction wraps, the receiver's load rises to the donor's at
most, and stays below it if the selection had no ratio. -/
structure Sound (K : Env) (acc : LoadBalanceInfo × State) (info : IrqRef) : Prop where
  gap : acc.1.minLoad ≤ acc.1.adjustmentLoad
  load : Considered acc.2 info → (acc.2.irqs info).load ≤ acc.1.adjustmentLoad
  rises : acc.1.minLoad ≤ (moveCandidateIrqs K info acc).1.minLoad
  clipped : (moveCandidateIrqs K info acc).1.minLoad ≤ (moveCandidateIrqs K info acc).1.adjustmentLoad
  strict : K.migrateRatio = 0 → Selects K info acc.1 acc.2 →
    (moveCandidateIrqs K info acc).1.minLoad < (moveCandidateIrqs K info acc).1.adjustmentLoad

/-- The object gives up interrupts. -/
def Donates (acc : LoadBalanceInfo × State) (o : ObjRef) : Prop :=
  (acc.2.objs o).load > acc.1.minLoad ∧ (acc.2.objs o).interrupts.length > 1

/-- Where the walk over the interrupts of a donor starts. -/
def donorStart (K : Env) (o : ObjRef) (acc : LoadBalanceInfo × State) : LoadBalanceInfo × State :=
  let s := sortIrqList K (some o) acc.2
  ({ countOverUnder K o (acc.2.objs o) acc.1 with adjustmentLoad := (s.objs o).load }, s)

/-- One object of the pass. -/
structure SoundDonor (K : Env) (acc : LoadBalanceInfo × State) (o : ObjRef) : Prop where
  rises : acc.1.minLoad ≤ (migrateOverloadedIrqs K o acc).1.minLoad
  calls : Donates acc o → EachStep (fun acc i => moveCandidateIrqs K i acc) (Sound K) (donorStart K o acc)
    ((donorStart K o acc).2.objs o).interrupts

/-- The whole pass: every call is sound, the objects with the least load give up nothing, and no object
is left without an interrupt. -/
structure SoundPass (K : Env) (objs : List ObjRef) (s : State) : Prop where
  donors : EachStep (fun acc o => migrateOverloadedIrqs K o acc) (SoundDonor K) (loadStats objs s, s) objs
  least : ∀ o ∈ objs, (s.objs o).load = (loadStats objs s).minLoad →
    ((findOverloadedObjs K objs s).2.objs o).interrupts = (s.objs o).interrupts
  company : ∀ o, (s.objs o).interrupts ≠ [] → ((findOverloadedObjs K objs s).2.objs o).interrupts ≠ []

section Requeue

/-- The interrupts after one of them goes back to be placed. -/
theorem requeued_interrupts (balanced : (s.irqs info).level ≠ .none) (assigned : (s.irqs info).assignedObj = some o) :
    ((forceRebalanceIrq info s).objs d).interrupts =
      if d = o then (s.objs o).interrupts.eraseP (sameIrq s info) else (s.objs d).interrupts := by
  have unlinked : ((migrateIrq (some o) none info s).objs d).interrupts =
      if d = o then (s.objs o).interrupts.eraseP (sameIrq s info) else (s.objs d).interrupts := by
    unfold migrateIrq
    split
    · rename_i absent
      split
      · rename_i own
        rw [own, List.eraseP_of_forall_not]
        exact List.find?_eq_none.mp absent
      · rfl
    · by_cases own : d = o
      · subst own
        simp [State.setIrqList, State.setIrq, State.irqList]
      · simp [State.setIrqList, State.setIrq, own, Ne.symm own]
  have released : ∀ s' : State, ((s'.setObj o (releaseSlot (s'.objs o))).objs d).interrupts = (s'.objs d).interrupts := by
    intro s'
    obtain ⟨slots, freed, _⟩ := releaseSlot_spec (s'.objs o)
    have same : (s'.setObj o (releaseSlot (s'.objs o))).irqList = s'.irqList := irqList_setObj (by rw [freed])
    exact congrFun same (some d)
  unfold forceRebalanceIrq
  rw [if_neg balanced, assigned]
  simp only [migrateIrqObj, Option.isNone_some, Bool.false_eq_true, if_false]
  split
  · exact unlinked
  · exact (released _).trans unlinked

/-- No load of an interrupt changes, and no assignment but to nothing. -/
structure Freed (s s' : State) : Prop where
  load : ∀ i, (s'.irqs i).load = (s.irqs i).load
  assigned : ∀ i, (s'.irqs i).assignedObj = (s.irqs i).assignedObj ∨ (s'.irqs i).assignedObj = none

theorem Freed.refl (s : State) : Freed s s := ⟨fun _ => rfl, fun _ => .inl rfl⟩

theorem freed_of_update {entry : IrqInfo} (irqs : s'.irqs = Function.update s.irqs info entry)
    (load : entry.load = (s.irqs info).load)
    (assigned : entry.assignedObj = (s.irqs info).assignedObj ∨ entry.assignedObj = none) : Freed s s' := by
  refine ⟨fun i => ?_, fun i => ?_⟩ <;>
  · rw [irqs]
    by_cases own : i = info
    · subst own
      simpa
    · simp [own]

theorem Freed.trans {s'' : State} (first : Freed s s') (second : Freed s' s'') : Freed s s'' where
  load i := (second.load i).trans (first.load i)
  assigned i := by
    rcases second.assigned i with same | none
    · rw [same]
      exact first.assigned i
    · exact .inr none

/-- Sending an interrupt back to be placed frees it. -/
theorem forceRebalanceIrq_freed (info : IrqRef) (s : State) : Freed s (forceRebalanceIrq info s) := by
  have unlinked (src : Option ObjRef) : Freed s (migrateIrq src none info s) := by
    unfold migrateIrq
    split
    · exact .refl s
    · exact freed_of_update rfl rfl (.inl rfl)
  unfold forceRebalanceIrq
  split
  · exact .refl s
  · split
    · exact ⟨fun _ => rfl, fun _ => .inl rfl⟩
    · rename_i o _
      simp only [migrateIrqObj, Option.isNone_some, Bool.false_eq_true, if_false]
      have freed := unlinked (some o)
      generalize migrateIrq (some o) none info s = s₁ at freed ⊢
      split
      · exact freed
      · exact freed.trans (freed_of_update rfl rfl (.inr rfl))

end Requeue

section Running

variable {b : LoadBalanceInfo} {ratio load : ℕ}

/-- The running loads within a donor whose load is at most half of 64 bits. -/
structure Running (b : LoadBalanceInfo) : Prop where
  gap : b.minLoad ≤ b.adjustmentLoad
  donor : b.adjustmentLoad ≤ 2 ^ 63
  receiver : b.minLoad < 2 ^ 63

theorem Running.inRange (running : Running b) (busy : 1 < load) (covered : load ≤ b.adjustmentLoad) :
    InRange ratio b load where
  least := running.gap
  covered := covered
  receiver := by
    have receiver := running.receiver
    have donor := running.donor
    omega
  donor := by
    have donor := running.donor
    have part := Nat.div_le_self (b.adjustmentLoad - b.minLoad) ratio
    omega

/-- A selection keeps the bounds, raises the receiver's load and takes the IRQ's from the donor's. -/
theorem Running.give (running : Running b) (busy : 1 < load) (covered : load ≤ b.adjustmentLoad)
    (passes : Passes ratio b load) :
    Running (b.give load) ∧ b.minLoad ≤ (b.give load).minLoad ∧
      (b.give load).adjustmentLoad = b.adjustmentLoad - load ∧
      (ratio = 0 → (b.give load).minLoad < (b.give load).adjustmentLoad) := by
  have range : InRange ratio b load := running.inRange busy covered
  obtain ⟨gap, donor, receiver⟩ := running
  have small : b.adjustmentLoad < 2 ^ 64 := donor.trans_lt (by decide)
  have improves := (range.passes small).mp passes
  have part := Nat.div_le_self (b.adjustmentLoad - b.minLoad) ratio
  have kept : (b.give load).adjustmentLoad = b.adjustmentLoad - load := u64Sub_of_le covered small
  have least : (b.give load).minLoad = min (b.minLoad + load) (b.adjustmentLoad - load) := by
    rw [← kept, ← u64_of_lt range.receiver]
    rfl
  refine ⟨⟨?_, ?_, ?_⟩, ?_, kept, ?_⟩
  · rw [least, kept]
    exact min_le_right _ _
  · omega
  · rw [least]
    exact (min_le_right _ _).trans_lt (by omega)
  · rw [least]
    exact le_min (Nat.le_add_right _ _) (by omega)
  · rintro rfl
    rw [Nat.div_zero] at improves
    rw [least, kept]
    exact (min_le_left _ _).trans_lt (by omega)

end Running

section Pass

variable {objs : List ObjRef} {acc : LoadBalanceInfo × State}

/-- What the pass keeps, compared with the state in which it starts. -/
structure Passing (objs : List ObjRef) (s : State) (acc : LoadBalanceInfo × State) : Prop where
  loads : SameLoads s acc.2
  freed : Freed s acc.2
  lists : ∀ d, (acc.2.objs d).interrupts.Subperm (s.objs d).interrupts
  risen : (loadStats objs s).minLoad ≤ acc.1.minLoad
  least : ∀ d ∈ objs, (s.objs d).load = (loadStats objs s).minLoad →
    (acc.2.objs d).interrupts = (s.objs d).interrupts
  company : ∀ d, (s.objs d).interrupts ≠ [] → (acc.2.objs d).interrupts ≠ []

theorem heavyLoad_cons : heavyLoad s (info :: l) =
    (if 1 < (s.irqs info).load then (s.irqs info).load else 0) + heavyLoad s l := List.sum_cons

theorem heavyLoad_congr (freed : Freed s s') (l : List IrqRef) : heavyLoad s' l = heavyLoad s l := by
  simp only [heavyLoad, freed.load]

theorem heavyLoad_le {l' : List IrqRef} (sub : l'.Subperm l) : heavyLoad s l' ≤ heavyLoad s l := by
  obtain ⟨l₁, perm, sublist⟩ := sub
  have same : heavyLoad s l₁ = heavyLoad s l' := (perm.map _).sum_eq
  rw [← same]
  exact (sublist.map _).sum_le_sum fun _ _ => Nat.zero_le _

/-- An interrupt that leaves a donor which is not one of the least and keeps others. -/
theorem Passing.requeue (passing : Passing objs s acc) (more : (loadStats objs s).minLoad < (s.objs o).load)
    (assigned : (acc.2.irqs info).assignedObj = some o) (balanced : (acc.2.irqs info).level ≠ .none)
    (company : 1 < (acc.2.objs o).interrupts.length) {b : LoadBalanceInfo} (rises : acc.1.minLoad ≤ b.minLoad) :
    Passing objs s (b, forceRebalanceIrq info acc.2) where
  loads := passing.loads.trans forceRebalanceIrq_loads
  freed := passing.freed.trans (forceRebalanceIrq_freed info acc.2)
  lists d := by
    rw [requeued_interrupts balanced assigned]
    split
    · rename_i own
      rw [own]
      exact (List.eraseP_sublist).subperm.trans (passing.lists o)
    · exact passing.lists d
  risen := passing.risen.trans rises
  least d member same := by
    have other : d ≠ o := by
      rintro rfl
      exact more.ne same.symm
    rw [requeued_interrupts balanced assigned, if_neg other]
    exact passing.least d member same
  company d listed := by
    rw [requeued_interrupts balanced assigned]
    split
    · apply List.ne_nil_of_length_pos
      rw [List.length_eraseP]
      split <;> omega
    · exact passing.company d listed

/-- One call for an interrupt of a donor that is not one of the least. -/
theorem call_step {rest : List IrqRef} (passing : Passing objs s acc) (running : Running acc.1)
    (more : (loadStats objs s).minLoad < (s.objs o).load)
    (assigned : (acc.2.irqs info).assignedObj = some o ∨ (acc.2.irqs info).assignedObj = none)
    (covered : heavyLoad acc.2 (info :: rest) ≤ acc.1.adjustmentLoad) :
    let after := moveCandidateIrqs K info acc
    Sound K acc info ∧ Passing objs s after ∧ Running after.1 ∧ Freed acc.2 after.2 ∧
      heavyLoad after.2 rest ≤ after.1.adjustmentLoad := by
  obtain ⟨b, s'⟩ := acc
  dsimp only at running assigned covered ⊢
  rw [heavyLoad_cons] at covered
  have load (considered : Considered s' info) : (s'.irqs info).load ≤ b.adjustmentLoad := by
    rw [if_pos considered.busy] at covered
    exact (Nat.le_add_right _ _).trans covered
  by_cases selected : Considered s' info ∧ Passes K.migrateRatio b (s'.irqs info).load
  · obtain ⟨considered, passes⟩ := selected
    obtain ⟨running', rises, kept, strict⟩ := running.give considered.busy (load considered) passes
    have result := moveCandidateIrqs_selected considered passes
    have freed := forceRebalanceIrq_freed info s'
    obtain ⟨o', assigned', company⟩ := considered.company
    obtain rfl : o' = o := by
      rcases assigned with own | none
      · exact Option.some.inj (assigned'.symm.trans own)
      · rw [none] at assigned'
        contradiction
    rw [result]
    refine ⟨⟨running.gap, load, ?_, ?_, fun none _ => ?_⟩,
      passing.requeue more assigned' considered.balanced company rises, running', freed, ?_⟩
    · rw [result]
      exact rises
    · rw [result]
      exact running'.gap
    · rw [result]
      exact strict none
    · rw [heavyLoad_congr freed]
      change _ ≤ (b.give (s'.irqs info).load).adjustmentLoad
      rw [if_pos considered.busy] at covered
      omega
  · have result := moveCandidateIrqs_kept selected
    have rest : heavyLoad s' rest ≤ b.adjustmentLoad := (Nat.le_add_left _ _).trans covered
    rw [result]
    refine ⟨⟨running.gap, load, ?_, ?_, fun _ selects => ?_⟩, passing, running, .refl s', rest⟩
    · rw [result]
    · rw [result]
      exact running.gap
    · exact absurd (by rw [result]) selects

/-- The walk over the interrupts of a donor. -/
theorem calls_sound {rest : List IrqRef} (passing : Passing objs s acc) (running : Running acc.1)
    (more : (loadStats objs s).minLoad < (s.objs o).load)
    (assigned : ∀ i ∈ rest, (acc.2.irqs i).assignedObj = some o ∨ (acc.2.irqs i).assignedObj = none)
    (covered : heavyLoad acc.2 rest ≤ acc.1.adjustmentLoad) :
    EachStep (fun acc i => moveCandidateIrqs K i acc) (Sound K) acc rest ∧
      Passing objs s (forEach rest (moveCandidateIrqs K) acc) ∧
      acc.1.minLoad ≤ (forEach rest (moveCandidateIrqs K) acc).1.minLoad := by
  induction rest generalizing acc with
  | nil => exact ⟨trivial, passing, le_rfl⟩
  | cons info rest ih =>
    obtain ⟨sound, passing', running', freed, covered'⟩ :=
      call_step (K := K) passing running more (assigned info List.mem_cons_self) covered
    have assigned' : ∀ i ∈ rest, ((moveCandidateIrqs K info acc).2.irqs i).assignedObj = some o ∨
        ((moveCandidateIrqs K info acc).2.irqs i).assignedObj = none := by
      intro i member
      rcases freed.assigned i with same | none
      · rw [same]
        exact assigned i (List.mem_cons_of_mem _ member)
      · exact .inr none
    obtain ⟨steps, passing'', rises⟩ := ih passing' running' assigned' covered'
    exact ⟨⟨sound, steps⟩, passing'', sound.rises.trans rises⟩

theorem countOverUnder_minLoad (obj : TopoObj) (b : LoadBalanceInfo) :
    (countOverUnder K o obj b).minLoad = b.minLoad := by
  unfold countOverUnder
  dsimp only
  split <;> split
  all_goals first | rfl | (split <;> rfl)

/-- Sorting a list permutes its interrupts. -/
theorem sorted_perm (o d : ObjRef) (s : State) :
    ((sortIrqList K (some o) s).objs d).interrupts.Perm (s.objs d).interrupts := by
  change ((if some o = some d then _ else _ : TopoObj).interrupts).Perm _
  split
  · rename_i own
    obtain rfl := Option.some.inj own
    exact List.perm_insertionSort _ _
  · exact .refl _

theorem sorted_other (other : d ≠ o) :
    ((sortIrqList K (some o) s).objs d).interrupts = (s.objs d).interrupts := by
  change (if some o = some d then _ else _ : TopoObj).interrupts = _
  rw [if_neg fun own => other (Option.some.inj own).symm]

/-- Nothing is lost before the walk over the interrupts of a donor. -/
theorem donorStart_passing (passing : Passing objs s acc) (more : (loadStats objs s).minLoad < (s.objs o).load) :
    Passing objs s (donorStart K o acc) where
  loads := passing.loads.trans (sameLoads_setIrqList _ _)
  freed := passing.freed.trans ⟨fun _ => rfl, fun _ => .inl rfl⟩
  lists d := (sorted_perm o d acc.2).subperm.trans (passing.lists d)
  risen := passing.risen.trans (countOverUnder_minLoad _ _).ge
  least d member same := by
    have other : d ≠ o := by
      rintro rfl
      exact more.ne same.symm
    exact (sorted_other other).trans (passing.least d member same)
  company d listed empty := by
    have perm := sorted_perm (K := K) o d acc.2
    have emptied : ((sortIrqList K (some o) acc.2).objs d).interrupts = [] := empty
    rw [emptied, List.nil_perm] at perm
    exact passing.company d listed perm

theorem migrateOverloadedIrqs_donor (donates : Donates acc o) : migrateOverloadedIrqs K o acc =
    forEach ((donorStart K o acc).2.objs o).interrupts (moveCandidateIrqs K) (donorStart K o acc) := by
  obtain ⟨b, s⟩ := acc
  exact if_pos ⟨(countOverUnder_minLoad _ _).trans_lt donates.1, donates.2⟩

theorem migrateOverloadedIrqs_other (other : ¬ Donates acc o) :
    migrateOverloadedIrqs K o acc = (countOverUnder K o (acc.2.objs o) acc.1, acc.2) := by
  obtain ⟨b, s⟩ := acc
  exact if_neg fun donates => other ⟨(countOverUnder_minLoad _ _).symm.trans_lt donates.1, donates.2⟩

/-- One object of the pass. -/
theorem donor_step (covered : Covered objs s) (small : ∀ o ∈ objs, (s.objs o).load ≤ 2 ^ 63)
    (passing : Passing objs s acc) (member : o ∈ objs) :
    Passing objs s (migrateOverloadedIrqs K o acc) ∧ SoundDonor K acc o := by
  by_cases donates : Donates acc o
  · have load : (acc.2.objs o).load = (s.objs o).load := passing.loads.load o
    have sorted : ((donorStart K o acc).2.objs o).load = (acc.2.objs o).load :=
      (sameLoads_setIrqList (some o) _).load o
    have adjustment : (donorStart K o acc).1.adjustmentLoad = (s.objs o).load := sorted.trans load
    have least : (donorStart K o acc).1.minLoad = acc.1.minLoad := countOverUnder_minLoad _ _
    have above : acc.1.minLoad < (s.objs o).load := load ▸ donates.1
    have half := small o member
    have more : (loadStats objs s).minLoad < (s.objs o).load := passing.risen.trans_lt above
    have start := donorStart_passing (K := K) passing more
    have running : Running (donorStart K o acc).1 :=
      ⟨by omega, by omega, by omega⟩
    have assigned : ∀ i ∈ ((donorStart K o acc).2.objs o).interrupts,
        ((donorStart K o acc).2.irqs i).assignedObj = some o ∨
          ((donorStart K o acc).2.irqs i).assignedObj = none := by
      intro i listed
      rw [← covered.assigned o member i ((start.lists o).subset listed)]
      exact start.freed.assigned i
    have heavy : heavyLoad (donorStart K o acc).2 ((donorStart K o acc).2.objs o).interrupts ≤
        (donorStart K o acc).1.adjustmentLoad := by
      rw [heavyLoad_congr start.freed, adjustment]
      exact (heavyLoad_le (start.lists o)).trans (covered.heavy o member)
    obtain ⟨steps, passing', rises⟩ := calls_sound (K := K) start running more assigned heavy
    rw [← migrateOverloadedIrqs_donor donates] at passing' rises
    exact ⟨passing', least ▸ rises, fun _ => steps⟩
  · have result := migrateOverloadedIrqs_other (K := K) donates
    have least := countOverUnder_minLoad (K := K) (o := o) (acc.2.objs o) acc.1
    refine ⟨?_, ?_, fun donor => absurd donor donates⟩
    · rw [result]
      exact ⟨passing.loads, passing.freed, passing.lists, passing.risen.trans least.ge, passing.least,
        passing.company⟩
    · rw [result]
      exact least.ge

/-- The selection of overloaded objects neither wraps nor turns the imbalance around, as long as the loads
stay within half of 64 bits. -/
theorem findOverloadedObjs_sound (K : Env) (objs : List ObjRef) (s : State) (covered : Covered objs s)
    (small : ∀ o ∈ objs, (s.objs o).load ≤ 2 ^ 63) : SoundPass K objs s := by
  have start : Passing objs s (loadStats objs s, s) :=
    ⟨.refl s, .refl s, fun _ => .refl _, le_rfl, fun _ _ _ => rfl, fun _ listed => listed⟩
  have run : ∀ (rest : List ObjRef) (acc : LoadBalanceInfo × State), rest ⊆ objs → Passing objs s acc →
      EachStep (fun acc o => migrateOverloadedIrqs K o acc) (SoundDonor K) acc rest ∧
        Passing objs s (forEach rest (migrateOverloadedIrqs K) acc) := by
    intro rest
    induction rest with
    | nil => exact fun acc _ passing => ⟨trivial, passing⟩
    | cons o rest ih =>
      intro acc members passing
      obtain ⟨passing', sound⟩ := donor_step (K := K) covered small passing (members List.mem_cons_self)
      obtain ⟨steps, passing''⟩ := ih _ (List.subset_of_cons_subset members) passing'
      exact ⟨⟨sound, steps⟩, passing''⟩
  obtain ⟨donors, passing⟩ := run objs _ (List.Subset.refl _) start
  exact ⟨donors, passing.least, passing.company⟩

/-- Two objects with half of 64 bits of load, one of them with 1 more and two interrupts. -/
def halves : State where
  objs o := if o = 0 then { load := 2 ^ 63 } else { load := 2 ^ 63 + 1, interrupts := [0, 1] }
  irqs i := { irq := i, level := .core, load := if i = 0 then 2 ^ 63 else 1, assignedObj := some 1 }

theorem halves_covered : Covered [0, 1] halves := by
  refine ⟨?_, ?_⟩ <;> decide +kernel

/-- The receiver's load wraps around to 0 there. -/
theorem findOverloadedObjs_wraps : ¬ ∀ (K : Env) (objs : List ObjRef) (s : State), Covered objs s →
    SoundPass K objs s := by
  intro claimed
  have sound := claimed {} [0, 1] halves halves_covered
  have donor := sound.donors.2.1.rises
  revert donor
  decide +kernel

/-- An object with 10 of load beside an idle one. -/
def tenAndIdle : State where
  objs o := if o = 0 then {} else { load := 10, interrupts := [0, 1] }
  irqs i := { irq := i, level := .core, load := if i = 0 then 4 else 3, assignedObj := some 1 }

theorem findOverloadedObjs_sound_ten : SoundPass {} [0, 1] tenAndIdle :=
  findOverloadedObjs_sound {} [0, 1] tenAndIdle ⟨by decide +kernel, by decide +kernel⟩ (by decide +kernel)

end Pass

end Irqbalance
