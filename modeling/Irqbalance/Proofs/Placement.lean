import Irqbalance.Model.Placement
import Irqbalance.Proofs.Location

/-! # What placement can do

`calculate_placement` sorts the waiting interrupts, moves them to nodes and moves them down the
tree. `Placing` lists these effects with everything the selectors have checked, and
`calculatePlacement_path` says that there are no others.
-/

namespace Irqbalance

open Relation (ReflTransGen)

variable {K : Env}

section Selection

variable {s : State} {candidates : List ObjRef} {o best : ObjRef}

/-- `find_best_object` keeps its choice or takes an eligible object, and takes one when it has
none. -/
theorem findBestObject_cases (s : State) (d : ObjRef) (choice : ObjPlacement) :
    (findBestObject K s d choice = choice ∨
      eligibleObject K s d = true ∧ (findBestObject K s d choice).best = some d) ∧
    (eligibleObject K s d = true → (findBestObject K s d choice).best ≠ none) := by
  unfold findBestObject
  cases eligible : eligibleObject K s d with
  | false => simp
  | true =>
    simp only [Bool.not_true, Bool.false_eq_true, if_false, true_and, true_implies]
    cases place : choice.best with
    | none =>
      have atMost : u64 ((s.objs d).load + slotsPenalty (s.objs d)) ≤ 2 ^ 64 - 1 := by
        have := Nat.mod_lt ((s.objs d).load + slotsPenalty (s.objs d)) (y := 2 ^ 64) (by decide)
        unfold u64
        omega
      rcases atMost.lt_or_eq with less | equal
      · simp only [if_pos less]
        exact ⟨.inr trivial, Option.some_ne_none d⟩
      · simp only [equal, lt_irrefl, if_false, Option.all_none, and_self, if_true]
        exact ⟨.inr trivial, Option.some_ne_none d⟩
    | some b =>
      dsimp only
      split
      · exact ⟨.inr rfl, Option.some_ne_none d⟩
      · split
        · exact ⟨.inr rfl, Option.some_ne_none d⟩
        · exact ⟨.inl rfl, by rw [place]; exact Option.some_ne_none b⟩

/-- The chosen object is an eligible candidate. -/
theorem bestObject_some (chosen : bestObject K s candidates = some best) :
    best ∈ candidates ∧ eligibleObject K s best = true := by
  refine forEach_preserves (l := candidates) (f := findBestObject K s) (s := {})
    (I := fun place => ∀ b, place.best = some b → b ∈ candidates ∧ eligibleObject K s b = true)
    (fun b absent => by contradiction) ?_ best chosen
  intro d member place valid b chosen
  rcases (findBestObject_cases s d place).1 with same | ⟨eligible, taken⟩
  · exact valid b (same ▸ chosen)
  · obtain rfl := Option.some.inj (taken.symm.trans chosen)
    exact ⟨member, eligible⟩

/-- Some object is chosen when a candidate is eligible. -/
theorem bestObject_ne_none (member : o ∈ candidates) (eligible : eligibleObject K s o = true) :
    bestObject K s candidates ≠ none := by
  refine forEach_establishes (f := findBestObject K s) (I := fun _ => True)
    (Q := fun place => place.best ≠ none) member trivial (fun _ _ _ _ => trivial)
    (fun place _ => (findBestObject_cases s o place).2 eligible) ?_
  intro d _ place _ chosen
  rcases (findBestObject_cases (K := K) s d place).1 with same | ⟨_, taken⟩
  · rw [same]; exact chosen
  · rw [taken]; exact Option.some_ne_none d

end Selection

/-- The node can take the IRQs that prefer it. -/
def SuitableNode (K : Env) (s : State) (node : ObjRef) : Prop :=
  ((s.objs node).number ≠ NUMA_NO_NODE ∨ K.numaAvail = false) ∧
    cpusIntersects (s.objs node).mask s.unbannedCpus = true

/-- The nodes `place_irq_in_node` can choose: the preferred one if it can take the IRQ, else any that
is eligible. -/
def NodeTarget (K : Env) (s : State) (info : IrqRef) (node : ObjRef) : Prop :=
  ((s.irqs info).numaNode = some node ∧ SuitableNode K s node) ∨
  ((∀ preferred, (s.irqs info).numaNode = some preferred → ¬ SuitableNode K s preferred) ∧
    node ∈ s.numaNodes ∧ eligibleObject K s node = true)

/-- A move of `place_irq_in_object`. -/
inductive Descending (K : Env) (s : State) : State → Prop
  | descended {s' : State} {info : IrqRef} {d best : ObjRef} (member : info ∈ s.irqList (some d))
      (waits : restsOn (s.objs d).objType (s.irqs info).level = false)
      (child : best ∈ (s.objs d).children) (eligible : eligibleObject K s best = true)
      (moved : Migrated (some d) (some best) info s s') : Descending K s s'

/-- One effect of `calculate_placement`. -/
inductive Placing (K : Env) (s : State) : State → Prop
  | sorted (p : Option ObjRef) (l : List IrqRef) (perm : l.Perm (s.irqList p)) :
      Placing K s (s.setIrqList p l)
  | placed {s' : State} {info : IrqRef} {node : ObjRef} (member : info ∈ s.irqList none)
      (target : NodeTarget K s info node) (moved : Migrated none (some node) info s s') :
      Placing K s s'
  | descended {s' : State} (effect : Descending K s s') : Placing K s s'

section Effects

variable {s s' : State} {info : IrqRef}

theorem Descending.located (effect : Descending K s s') (valid : Located s) : Located s' := by
  cases effect with
  | descended member _ _ _ moved => exact moved.located member (fun none => by contradiction) valid

theorem Descending.migrated (effect : Descending K s s') :
    ∃ info d best, Migrated (some d) (some best) info s s' := by
  cases effect with
  | descended _ _ _ _ moved => exact ⟨_, _, _, moved⟩

theorem Placing.located (effect : Placing K s s') (valid : Located s) : Located s' := by
  cases effect with
  | sorted p l perm => exact (retained_setIrqList perm).located valid
  | placed member _ moved => exact moved.located member (fun none => by contradiction) valid
  | descended effect => exact effect.located valid

theorem Placing.sameTree (effect : Placing K s s') : SameTree s s' := by
  cases effect with
  | sorted _ _ _ => exact sameTree_setIrqList
  | placed _ _ moved => exact moved.tree
  | descended effect =>
    obtain ⟨_, _, _, moved⟩ := effect.migrated
    exact moved.tree

theorem Placing.sameDb (effect : Placing K s s') : SameDb s s' := by
  cases effect with
  | sorted _ _ _ => exact sameDb_setIrqList
  | placed _ _ moved => exact moved.db
  | descended effect =>
    obtain ⟨_, _, _, moved⟩ := effect.migrated
    exact moved.db

theorem Placing.sameKernel (effect : Placing K s s') : SameKernel s s' := by
  cases effect with
  | sorted _ _ _ => exact sameKernel_setIrqList
  | placed _ _ moved => exact moved.kernel
  | descended effect =>
    obtain ⟨_, _, _, moved⟩ := effect.migrated
    exact moved.kernel

theorem Placing.level (effect : Placing K s s') (i : IrqRef) : (s'.irqs i).level = (s.irqs i).level := by
  cases effect with
  | sorted _ _ _ => rfl
  | placed _ _ moved => exact moved.level i
  | descended effect =>
    obtain ⟨_, _, _, moved⟩ := effect.migrated
    exact moved.level i

theorem Descending.path_placing (path : ReflTransGen (Descending K) s s') :
    ReflTransGen (Placing K) s s' := path.lift id fun _ _ => .descended

theorem Descending.path_located (path : ReflTransGen (Descending K) s s') (valid : Located s) :
    Located s' :=
  path_preserves (fun _ _ valid effect => effect.located valid) valid path

theorem Placing.path_located (path : ReflTransGen (Placing K) s s') (valid : Located s) :
    Located s' :=
  path_preserves (fun _ _ valid effect => effect.located valid) valid path

theorem Placing.path_sameTree (path : ReflTransGen (Placing K) s s') : SameTree s s' :=
  path_preserves (I := SameTree s) (fun _ _ same effect => same.trans effect.sameTree) (.refl s) path

theorem Placing.path_sameDb (path : ReflTransGen (Placing K) s s') : SameDb s s' :=
  path_preserves (I := SameDb s) (fun _ _ same effect => same.trans effect.sameDb) (.refl s) path

theorem Placing.path_level (path : ReflTransGen (Placing K) s s') (i : IrqRef) :
    (s'.irqs i).level = (s.irqs i).level :=
  path_preserves (I := fun s' => (s'.irqs i).level = (s.irqs i).level)
    (fun _ _ same effect => (effect.level i).trans same) rfl path

end Effects

section Visits

variable {s : State} {info : IrqRef} {d : ObjRef}

/-- A visit of `place_irq_in_node` moves the IRQ to a target node, or there is none. -/
theorem placeIrqInNode_eq (info : IrqRef) (s : State) :
    (∃ node, NodeTarget K s info node ∧ placeIrqInNode K info s = migrateIrqObj none (some node) info s) ∨
      placeIrqInNode K info s = s ∧
        ((s.irqs info).level ≠ .none → (s.irqs info).numaNode ≠ none → ∀ node, ¬ NodeTarget K s info node) := by
  unfold placeIrqInNode
  split
  · rename_i idle
    exact .inr ⟨rfl, fun balanced => absurd idle.1 balanced⟩
  split
  · rename_i unset
    exact .inr ⟨rfl, fun _ set => absurd unset set⟩
  rename_i node preferred
  split
  · rename_i suitable
    exact .inl ⟨node, .inl ⟨preferred, suitable⟩, rfl⟩
  · rename_i unsuitable
    have other (node') (preferred' : (s.irqs info).numaNode = some node') : ¬ SuitableNode K s node' := by
      obtain rfl := Option.some.inj (preferred.symm.trans preferred')
      exact unsuitable
    split
    · rename_i nothing
      refine .inr ⟨rfl, fun _ _ node' target => ?_⟩
      rcases target with ⟨preferred', suitable⟩ | ⟨_, listed, eligible⟩
      · exact other node' preferred' suitable
      · exact bestObject_ne_none listed eligible nothing
    · rename_i best chosen
      exact .inl ⟨best, .inr ⟨other, bestObject_some chosen⟩, rfl⟩

/-- A visit of `find_best_object_for_irq` leaves the IRQ, or moves one that has been moved to the best
child. -/
theorem findBestObjectForIrq_eq (d : ObjRef) (info : IrqRef) (s : State) :
    findBestObjectForIrq K d info s = s ∨ ∃ best, (s.irqs info).moved = true ∧
      restsOn (s.objs d).objType (s.irqs info).level = false ∧ bestObject K s (s.objs d).children = some best ∧
        findBestObjectForIrq K d info s = migrateIrqObj (some d) (some best) info s := by
  unfold findBestObjectForIrq
  split
  · exact .inl rfl
  rename_i moved
  split
  · exact .inl rfl
  rename_i waits
  split
  · exact .inl rfl
  · rename_i best chosen
    exact .inr ⟨best, by simpa using moved, by simpa using waits, chosen, rfl⟩

/-- A visit of `place_irq_in_node` leaves the IRQ waiting or moves it to a target node. -/
theorem placeIrqInNode_cases (valid : Consistent s) (member : info ∈ s.rebalanceIrqList) :
    placeIrqInNode K info s = s ∨ ∃ node, NodeTarget K s info node ∧
      Migrated none (some node) info s (placeIrqInNode K info s) := by
  rcases placeIrqInNode_eq (K := K) info s with ⟨node, target, placed⟩ | ⟨same, _⟩
  · rw [placed]
    exact .inr ⟨node, target, valid.migrated (p := none) member⟩
  · exact .inl same

/-- A visit of `find_best_object_for_irq` leaves the IRQ or moves it to an eligible child. -/
theorem findBestObjectForIrq_cases (valid : Consistent s) (member : info ∈ (s.objs d).interrupts) :
    findBestObjectForIrq K d info s = s ∨ ∃ best,
      restsOn (s.objs d).objType (s.irqs info).level = false ∧ best ∈ (s.objs d).children ∧
        eligibleObject K s best = true ∧
          Migrated (some d) (some best) info s (findBestObjectForIrq K d info s) := by
  rcases findBestObjectForIrq_eq (K := K) d info s with same | ⟨best, _, waits, chosen, descended⟩
  · exact .inl same
  · obtain ⟨child, eligible⟩ := bestObject_some chosen
    rw [descended]
    exact .inr ⟨best, waits, child, eligible, valid.migrated (p := some d) member⟩

theorem placeIrqInNode_path (valid : Consistent s) (member : info ∈ s.rebalanceIrqList) :
    ReflTransGen (Placing K) s (placeIrqInNode K info s) := by
  rcases placeIrqInNode_cases (K := K) valid member with same | ⟨node, target, moved⟩
  · rw [same]
  · exact .single (.placed member target moved)

theorem findBestObjectForIrq_path (valid : Consistent s) (member : info ∈ (s.objs d).interrupts) :
    ReflTransGen (Descending K) s (findBestObjectForIrq K d info s) := by
  rcases findBestObjectForIrq_cases (K := K) valid member with
    same | ⟨best, waits, child, eligible, moved⟩
  · rw [same]
  · exact .single (.descended member waits child eligible moved)

/-- A visit does not touch the other entries of the list being walked. -/
theorem placeIrqInNode_other (valid : Consistent s) (member : info ∈ s.rebalanceIrqList)
    {i : IrqRef} (other : i ≠ info) {p : Option ObjRef} :
    i ∈ (placeIrqInNode K info s).irqList p ↔ i ∈ s.irqList p := by
  rcases placeIrqInNode_cases (K := K) valid member with same | ⟨_, _, moved⟩
  · rw [same]
  · exact moved.mem_irqList other

theorem findBestObjectForIrq_other (valid : Consistent s) (member : info ∈ (s.objs d).interrupts)
    {i : IrqRef} (other : i ≠ info) {p : Option ObjRef} :
    i ∈ (findBestObjectForIrq K d info s).irqList p ↔ i ∈ s.irqList p := by
  rcases findBestObjectForIrq_cases (K := K) valid member with same | ⟨_, _, _, _, moved⟩
  · rw [same]
  · exact moved.mem_irqList other

end Visits

section Walks

variable {s : State}

/-- The state between the first pass, over the waiting IRQs, and the others. -/
def placeWaiting (K : Env) (s : State) : State :=
  forEach (sortIrqList K none s).rebalanceIrqList (placeIrqInNode K) (sortIrqList K none s)

theorem placeWaiting_path (valid : Located s) :
    ReflTransGen (Placing K) s (forEach s.rebalanceIrqList (placeIrqInNode K) s) := by
  refine forEach_pending (I := ReflTransGen (Placing K) s)
    (R := fun info s' => info ∈ s'.rebalanceIrqList)
    (valid.filed.nodup none) .refl (fun _ member => member) ?_ ?_
  · intro info _ s' path waiting
    exact path.trans (placeIrqInNode_path (Placing.path_located path valid).toConsistent waiting)
  · intro x _ y _ other s' path waitingX waitingY
    have valid' := (Placing.path_located path valid).toConsistent
    exact (placeIrqInNode_other (p := none) valid' waitingX other).mpr waitingY

theorem placeIrqInObject_path (valid : Located s) (d : ObjRef) :
    ReflTransGen (Descending K) s (placeIrqInObject K d s) := by
  refine forEach_pending (I := ReflTransGen (Descending K) s)
    (R := fun info s' => info ∈ (s'.objs d).interrupts)
    (valid.filed.nodup (some d)) .refl (fun _ member => member) ?_ ?_
  · intro info _ s' path listed
    exact path.trans (findBestObjectForIrq_path (Descending.path_located path valid).toConsistent listed)
  · intro x _ y _ other s' path listedX listedY
    have valid' := (Descending.path_located path valid).toConsistent
    exact (findBestObjectForIrq_other (p := some d) valid' listedX other).mpr listedY

theorem placeInObjects_path (valid : Located s) (objs : List ObjRef) :
    ReflTransGen (Descending K) s (forEach objs (placeIrqInObject K) s) :=
  forEach_preserves .refl fun d _ _ path =>
    path.trans (placeIrqInObject_path (Descending.path_located path valid) d)

theorem sortIrqList_placing (p : Option ObjRef) : Placing K s (sortIrqList K p s) :=
  .sorted p _ (List.perm_insertionSort _ _)

/-- `calculate_placement` sorts, then fills the nodes, walks over them and walks further down. -/
theorem calculatePlacement_cases (valid : Located s) :
    (s.rebalanceIrqList = [] ∧ calculatePlacement K s = sortIrqList K none s) ∨ ∃ s₂ s₃,
      s₂ = placeWaiting K s ∧ ReflTransGen (Placing K) (sortIrqList K none s) s₂ ∧
      s₃ = forEach s₂.numaNodes (placeIrqInObject K) s₂ ∧
      ReflTransGen (Descending K) s₃ (calculatePlacement K s) := by
  have valid₁ := (sortIrqList_placing (K := K) none).located valid
  have sorted : (sortIrqList K none s).rebalanceIrqList.Perm s.rebalanceIrqList := List.perm_insertionSort _ _
  unfold calculatePlacement placeWaiting
  generalize sortIrqList K none s = s₁ at valid₁ sorted ⊢
  dsimp only
  split
  · right
    have waiting := placeWaiting_path (K := K) valid₁
    generalize forEach s₁.rebalanceIrqList (placeIrqInNode K) s₁ = s₂ at waiting ⊢
    have valid₂ := Placing.path_located waiting valid₁
    refine ⟨s₂, _, rfl, waiting, rfl, ?_⟩
    have valid₃ := Descending.path_located (placeInObjects_path (K := K) valid₂ s₂.numaNodes) valid₂
    generalize forEach s₂.numaNodes (placeIrqInObject K) s₂ = s₃ at valid₃ ⊢
    have packages := placeInObjects_path (K := K) valid₃ s₃.packages
    generalize forEach s₃.packages (placeIrqInObject K) s₃ = s₄ at packages ⊢
    have valid₄ := Descending.path_located packages valid₃
    exact packages.trans (placeInObjects_path (K := K) valid₄ s₄.cacheDomains)
  · rename_i none
    exact .inl ⟨(List.eq_nil_of_length_eq_zero (Nat.eq_zero_of_not_pos none) ▸ sorted).nil_eq.symm, rfl⟩

/-- `calculate_placement` has no other effects. -/
theorem calculatePlacement_path (valid : Located s) :
    ReflTransGen (Placing K) s (calculatePlacement K s) := by
  have sorted := sortIrqList_placing (K := K) (s := s) none
  rcases calculatePlacement_cases (K := K) valid with ⟨_, same⟩ | ⟨s₂, s₃, _, waiting, nodes, rest⟩
  · rw [same]
    exact .single sorted
  · have valid₂ := Placing.path_located waiting (sorted.located valid)
    have down := placeInObjects_path (K := K) valid₂ s₂.numaNodes
    rw [← nodes] at down
    exact .head sorted (waiting.trans (Descending.path_placing (down.trans rest)))

/-- What each visit of `calculate_placement` preserves, the whole preserves. -/
theorem calculatePlacement_preserves {I : State → Prop} (valid : Located s) (sorted : I (sortIrqList K none s))
    (node : ∀ s' info, ReflTransGen (Placing K) s s' → info ∈ s'.rebalanceIrqList → I s' →
      I (placeIrqInNode K info s'))
    (object : ∀ s' d info, ReflTransGen (Placing K) s s' → d ∈ s.numaNodes ++ s.packages ++ s.cacheDomains →
      info ∈ (s'.objs d).interrupts → I s' → I (findBestObjectForIrq K d info s')) :
    I (calculatePlacement K s) := by
  let J s' := ReflTransGen (Placing K) s s' ∧ I s'
  have walk (objs : List ObjRef) (listed : objs ⊆ s.numaNodes ++ s.packages ++ s.cacheDomains) (s₁ : State)
      (inv : J s₁) : J (forEach objs (placeIrqInObject K) s₁) := by
    apply forEach_preserves inv
    intro d member s₂ inv₂
    refine forEach_pending (I := J) (R := fun info s' => info ∈ (s'.objs d).interrupts)
      ((Placing.path_located inv₂.1 valid).filed.nodup (some d)) inv₂ (fun _ here => here)
      (fun info _ s' inv' here => ?_) ?_
    · have visit := findBestObjectForIrq_path (K := K) (Placing.path_located inv'.1 valid).toConsistent here
      exact ⟨inv'.1.trans (Descending.path_placing visit), object s' d info inv'.1 (listed member) here inv'.2⟩
    · intro x _ y _ other s' inv' hereX hereY
      have valid' := (Placing.path_located inv'.1 valid).toConsistent
      exact (findBestObjectForIrq_other (p := some d) valid' hereX other).mpr hereY
  have inv₁ : J (sortIrqList K none s) := ⟨.single (sortIrqList_placing none), sorted⟩
  unfold calculatePlacement
  generalize sortIrqList K none s = s₁ at inv₁ ⊢
  dsimp only
  split
  · have inv₂ : J (forEach s₁.rebalanceIrqList (placeIrqInNode K) s₁) := by
      refine forEach_pending (I := J) (R := fun info s' => info ∈ s'.rebalanceIrqList)
        ((Placing.path_located inv₁.1 valid).filed.nodup none) inv₁ (fun _ waiting => waiting)
        (fun info _ s' inv' waiting => ?_) ?_
      · have visit := placeIrqInNode_path (K := K) (Placing.path_located inv'.1 valid).toConsistent waiting
        exact ⟨inv'.1.trans visit, node s' info inv'.1 waiting inv'.2⟩
      · intro x _ y _ other s' inv' waitingX waitingY
        have valid' := (Placing.path_located inv'.1 valid).toConsistent
        exact (placeIrqInNode_other (p := none) valid' waitingX other).mpr waitingY
    generalize forEach s₁.rebalanceIrqList (placeIrqInNode K) s₁ = s₂ at inv₂ ⊢
    have inv₃ : J (forEach s₂.numaNodes (placeIrqInObject K) s₂) := by
      refine walk _ (fun o member => ?_) s₂ inv₂
      exact List.mem_append_left _ (List.mem_append_left _ ((Placing.path_sameTree inv₂.1).numaNodes ▸ member))
    generalize forEach s₂.numaNodes (placeIrqInObject K) s₂ = s₃ at inv₃ ⊢
    have inv₄ : J (forEach s₃.packages (placeIrqInObject K) s₃) := by
      refine walk _ (fun o member => ?_) s₃ inv₃
      exact List.mem_append_left _ (List.mem_append_right _ ((Placing.path_sameTree inv₃.1).packages ▸ member))
    generalize forEach s₃.packages (placeIrqInObject K) s₃ = s₄ at inv₄ ⊢
    refine (walk _ (fun o member => ?_) s₄ inv₄).2
    exact List.mem_append_right _ ((Placing.path_sameTree inv₄.1).cacheDomains ▸ member)
  · exact inv₁.2

end Walks

end Irqbalance
