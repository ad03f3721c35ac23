import Irqbalance.Model.Load
import Irqbalance.Model.Scan
import Irqbalance.Proofs.TreeText
import Irqbalance.Proofs.Unsigned

/-! # What the passes over the loads compute

`set_load` and `accumulate_interrupts` go through everything below an object, maybe more than once where
objects share children. What has been added up once stays as it is.
-/

namespace Irqbalance

variable {s s' s'' : State} {o c d x : ObjRef} {fuel : ℕ} {height : ObjRef → ℕ}

/-- Children are below their parents. -/
def Descends (s : State) (height : ObjRef → ℕ) : Prop := ∀ p, ∀ c ∈ (s.objs p).children, height c < height p

/-- Nothing but loads and counts of objects changes. -/
structure Tallied (s s' : State) : Prop where
  state : s' = { s with objs := s'.objs }
  obj : ∀ o, s'.objs o = { s.objs o with load := (s'.objs o).load, irqCount := (s'.objs o).irqCount }

namespace Tallied

theorem refl (s : State) : Tallied s s := ⟨rfl, fun _ => rfl⟩

theorem trans (first : Tallied s s') (second : Tallied s' s'') : Tallied s s'' where
  state := by rw [second.state, first.state]
  obj o := by rw [second.obj o, first.obj o]

theorem setObj (load irqCount : ℕ) :
    Tallied s (s.setObj d { s.objs d with load := load, irqCount := irqCount }) where
  state := rfl
  obj := forall_setObj (P := fun o x => x = { s.objs o with load := x.load, irqCount := x.irqCount }) rfl
    fun _ _ => rfl

theorem children (tallied : Tallied s s') (o : ObjRef) : (s'.objs o).children = (s.objs o).children := by
  rw [tallied.obj]

theorem interrupts (tallied : Tallied s s') (o : ObjRef) : (s'.objs o).interrupts = (s.objs o).interrupts := by
  rw [tallied.obj]

theorem irqs (tallied : Tallied s s') : s'.irqs = s.irqs := by rw [tallied.state]

theorem below (tallied : Tallied s s') : Below s' o x ↔ Below s o x := by
  unfold Below
  simp only [tallied.children]

theorem descends (tallied : Tallied s s') (descends : Descends s height) : Descends s' height := by
  intro p c child
  rw [tallied.children] at child
  exact descends p c child

end Tallied

section SetLoad

/-- The loads of the children, as an accumulator holds them. -/
def childLoads (s : State) (o : ObjRef) : ℕ := u64 ((s.objs o).children.map fun c => (s.objs c).load).sum

/-- The loads at or below an object are those of the children, down to what has none. -/
def Summed (s : State) (o : ObjRef) : Prop :=
  ∀ x, Below s o x → (s.objs x).children ≠ [] → (s.objs x).load = childLoads s x

/-- The loads at or below an object are the same. -/
def SameBelow (s s' : State) (o : ObjRef) : Prop := ∀ x, Below s o x → (s'.objs x).load = (s.objs x).load

theorem Tallied.childLoads (tallied : Tallied s s') (same : ∀ c ∈ (s.objs x).children, (s'.objs c).load = (s.objs c).load) :
    childLoads s' x = childLoads s x := by
  unfold Irqbalance.childLoads
  rw [tallied.children]
  exact congrArg (fun l => u64 l.sum) (List.map_congr_left same)

theorem SameBelow.summed (tallied : Tallied s s') (same : SameBelow s s' o) (summed : Summed s o) : Summed s' o := by
  intro x below inner
  rw [tallied.below] at below
  rw [tallied.children] at inner
  rw [same x below, summed x below inner]
  exact (tallied.childLoads fun c child => same c (below.tail child)).symm

/-- A pass of `set_load` over some objects. What is summed is not changed by another pass. -/
structure Loading (objs : List ObjRef) (s s' : State) : Prop where
  tallied : Tallied s s'
  irqCount : ∀ x, (s'.objs x).irqCount = (s.objs x).irqCount
  leaf : ∀ x, (s.objs x).children = [] → (s'.objs x).load = (s.objs x).load
  elsewhere : ∀ x, (∀ o ∈ objs, ¬ Below s o x) → (s'.objs x).load = (s.objs x).load
  again : ∀ o, Summed s o → SameBelow s s' o

theorem Loading.refl (objs : List ObjRef) (s : State) : Loading objs s s :=
  ⟨.refl s, fun _ => rfl, fun _ _ => rfl, fun _ _ => rfl, fun _ _ _ _ => rfl⟩

theorem Loading.trans {objs : List ObjRef} (first : Loading objs s s') (second : Loading objs s' s'') :
    Loading objs s s'' where
  tallied := first.tallied.trans second.tallied
  irqCount x := (second.irqCount x).trans (first.irqCount x)
  leaf x none := (second.leaf x (by rw [first.tallied.children, none])).trans (first.leaf x none)
  elsewhere x outside :=
    (second.elsewhere x fun o member below => outside o member (first.tallied.below.mp below)).trans
      (first.elsewhere x outside)
  again o summed x below := by
    have same := first.again o summed
    have summed' := same.summed first.tallied summed
    exact (second.again o summed' x (first.tallied.below.mpr below)).trans (same x below)

theorem Loading.mono {objs objs' : List ObjRef} (loading : Loading objs s s') (sub : objs ⊆ objs') :
    Loading objs' s s' :=
  { loading with elsewhere := fun x outside => loading.elsewhere x fun o member => outside o (sub member) }

/-- `accumulate_load` over the children. -/
theorem forEach_accumulateLoad (l : List ObjRef) (other : d ∉ l) (acc : ℕ) :
    forEach l (fun c s => s.setObj d { s.objs d with load := u64 ((s.objs d).load + (s.objs c).load) })
        (s.setObj d { s.objs d with load := u64 acc }) =
      s.setObj d { s.objs d with load := u64 (acc + (l.map fun c => (s.objs c).load).sum) } := by
  induction l generalizing acc with
  | nil => rfl
  | cons c rest ih =>
    obtain ⟨first, others⟩ := not_or.mp (List.mem_cons.not.mp other)
    have added : (s.setObj d { s.objs d with load := u64 acc }).setObj d
        { (s.setObj d { s.objs d with load := u64 acc }).objs d with
          load := u64 (((s.setObj d { s.objs d with load := u64 acc }).objs d).load +
            ((s.setObj d { s.objs d with load := u64 acc }).objs c).load) } =
        s.setObj d { s.objs d with load := u64 (acc + (s.objs c).load) } := by
      simp [State.setObj, Ne.symm first]
    rw [forEach_cons, added, ih others, List.map_cons, List.sum_cons, Nat.add_assoc]

/-- The load of an object becomes that of its children, once these are summed. -/
theorem loading_setObj (inner : (s.objs d).children ≠ []) :
    Loading [d] s (s.setObj d { s.objs d with load := childLoads s d }) := by
  have others (x : ObjRef) (other : x ≠ d) :
      ((s.setObj d { s.objs d with load := childLoads s d }).objs x).load = (s.objs x).load := by
    simp [State.setObj, other]
  have own : ((s.setObj d { s.objs d with load := childLoads s d }).objs d).load = childLoads s d := by
    simp [State.setObj]
  refine ⟨.setObj _ (s.objs d).irqCount, fun x => ?_, fun x leaf => others x ?_, fun x outside => others x ?_, ?_⟩
  · apply setObj_field TopoObj.irqCount
    rfl
  · rintro rfl
    exact inner leaf
  · rintro rfl
    exact outside x (List.mem_singleton_self x) .refl
  · intro o summed x below
    by_cases same : x = d
    · subst same
      rw [own, summed x below inner]
    · exact others x same

/-- `set_load` sums up everything at or below an object. -/
theorem setLoad_spec (descends : Descends s height) (deep : height d < fuel) :
    ∃ s', setLoad fuel d s = some s' ∧ Loading [d] s s' ∧ Summed s' d := by
  induction fuel generalizing s d with
  | zero => exact absurd deep (Nat.not_lt_zero _)
  | succ fuel ih =>
    rw [setLoad]
    split
    · rename_i more
      have inner : (s.objs d).children ≠ [] := List.ne_nil_of_length_pos more
      obtain ⟨s₁, walked, loading, summed, _⟩ := tryForEach_visits (l := (s.objs d).children)
          (f := setLoad fuel) (s := s) (I := Loading (s.objs d).children s) (Q := fun c s => Summed s c)
          (.refl _ s) (by
        intro c child s₁ loading
        obtain ⟨s₂, visited, loading₂, summed⟩ := ih (loading.tallied.descends descends)
          ((descends d c child).trans_le (Nat.lt_succ_iff.mp deep))
        exact ⟨s₂, visited, loading.trans (loading₂.mono (List.cons_subset.mpr ⟨child, List.nil_subset _⟩)), summed,
          fun y held => (loading₂.again y held).summed loading₂.tallied held⟩)
      have descends₁ := loading.tallied.descends descends
      have children : (s₁.objs d).children = (s.objs d).children := loading.tallied.children d
      have apart : d ∉ (s₁.objs d).children := fun own => (descends₁ d d own).ne rfl
      have own := forEach_accumulateLoad (s := s₁) _ apart 0
      rw [Nat.zero_add] at own
      have last := loading_setObj (children ▸ inner)
      simp only [walked, Option.bind_eq_bind, Option.bind_some]
      refine ⟨s₁.setObj d { s₁.objs d with load := childLoads s₁ d }, congrArg some ?_, ?_, ?_⟩
      · refine Eq.trans ?_ own
        simp [State.setObj]
      · have first : Loading [d] s s₁ := by
          refine { loading with elsewhere := fun x outside => loading.elsewhere x fun c child below => ?_ }
          exact outside d (List.mem_singleton_self d) (.head child below)
        exact first.trans last
      · have kept : ∀ c ∈ (s₁.objs d).children, SameBelow s₁ _ c :=
          fun c child => last.again c (summed c (children ▸ child))
        intro x below inner'
        rw [last.tallied.below, below_iff] at below
        rcases below with rfl | ⟨c, child, below⟩
        · rw [last.tallied.childLoads fun c child => kept c child c .refl]
          simp [State.setObj]
        · have summed' := (kept c child).summed last.tallied (summed c (children ▸ child))
          exact summed' x (last.tallied.below.mpr below) inner'
    · rename_i none
      have leaf : (s.objs d).children = [] := List.eq_nil_of_length_eq_zero (by omega)
      refine ⟨s, rfl, .refl _ s, fun x below inner => ?_⟩
      rw [below_iff, leaf] at below
      rcases below with rfl | ⟨c, child, _⟩
      · exact absurd leaf inner
      · exact absurd child List.not_mem_nil

/-- `set_load` over the nodes. -/
theorem forEach_setLoad (descends : Descends s height) (deep : ∀ o, height o < fuel) (l : List ObjRef) :
    ∃ s', tryForEach l (setLoad fuel) s = some s' ∧ Loading l s s' ∧ ∀ o ∈ l, Summed s' o := by
  obtain ⟨s', walked, loading, summed, _⟩ := tryForEach_visits (l := l) (f := setLoad fuel) (s := s)
      (I := Loading l s) (Q := fun o s => Summed s o) (.refl _ s) (by
    intro o member s₁ loading
    obtain ⟨s₂, visited, loading₂, summed⟩ := setLoad_spec (loading.tallied.descends descends) (deep o)
    exact ⟨s₂, visited, loading.trans (loading₂.mono (List.cons_subset.mpr ⟨member, List.nil_subset _⟩)), summed,
      fun y held => (loading₂.again y held).summed loading₂.tallied held⟩)
  exact ⟨s', walked, loading, summed⟩

end SetLoad

section AccumulateInterrupts

/-- What `accumulate_irq_count` makes of the interrupts of an object. -/
def irqCountOf (s : State) (o : ObjRef) : ℕ := forEach (s.objs o).interrupts (accumulateIrqCount s) 0

/-- The counts at or below the object are those of the interrupts. -/
def Recounted (s : State) (o : ObjRef) : Prop := ∀ x, Below s o x → (s.objs x).irqCount = irqCountOf s x

theorem Tallied.irqCountOf (tallied : Tallied s s') (o : ObjRef) : irqCountOf s' o = irqCountOf s o := by
  unfold Irqbalance.irqCountOf accumulateIrqCount
  rw [tallied.interrupts, tallied.irqs]

/-- A pass of `accumulate_interrupts`. -/
structure Recounting (s s' : State) : Prop where
  tallied : Tallied s s'
  load : ∀ x, (s'.objs x).load = (s.objs x).load
  irqCount : ∀ x, (s'.objs x).irqCount = (s.objs x).irqCount ∨ (s'.objs x).irqCount = irqCountOf s x

theorem Recounting.refl (s : State) : Recounting s s := ⟨.refl s, fun _ => rfl, fun _ => .inl rfl⟩

theorem Recounting.trans (first : Recounting s s') (second : Recounting s' s'') : Recounting s s'' where
  tallied := first.tallied.trans second.tallied
  load x := (second.load x).trans (first.load x)
  irqCount x := by
    rcases second.irqCount x with same | counted
    · rw [same]
      exact first.irqCount x
    · rw [counted, first.tallied.irqCountOf]
      exact .inr rfl

theorem Recounting.recounted (recounting : Recounting s s') (recounted : Recounted s o) : Recounted s' o := by
  intro x below
  rw [recounting.tallied.below] at below
  rw [recounting.tallied.irqCountOf]
  rcases recounting.irqCount x with same | counted
  · rw [same, recounted x below]
  · exact counted

theorem recounting_setObj : Recounting s (s.setObj d { s.objs d with irqCount := irqCountOf s d }) where
  tallied := .setObj (s.objs d).load _
  load := setObj_field TopoObj.load rfl
  irqCount := forall_setObj (P := fun x y => y.irqCount = (s.objs x).irqCount ∨ y.irqCount = irqCountOf s x)
    (.inr rfl) fun _ _ => .inl rfl

/-- `accumulate_interrupts` counts everything at or below an object. -/
theorem accumulateInterrupts_spec (descends : Descends s height) (deep : height d < fuel) :
    ∃ s', accumulateInterrupts fuel d s = some s' ∧ Recounting s s' ∧ Recounted s' d := by
  induction fuel generalizing s d with
  | zero => exact absurd deep (Nat.not_lt_zero _)
  | succ fuel ih =>
    obtain ⟨s₁, walked, recounting, recounted, _⟩ := tryForEach_visits (l := (s.objs d).children)
        (f := accumulateInterrupts fuel) (s := s) (I := Recounting s) (Q := fun c s => Recounted s c)
        (.refl s) (by
      intro c child s₁ recounting
      obtain ⟨s₂, visited, recounting₂, recounted⟩ := ih (recounting.tallied.descends descends)
        ((descends d c child).trans_le (Nat.lt_succ_iff.mp deep))
      exact ⟨s₂, visited, recounting.trans recounting₂, recounted, fun y held => recounting₂.recounted held⟩)
    have last : Recounting s₁ _ := recounting_setObj (d := d)
    refine ⟨s₁.setObj d { s₁.objs d with irqCount := irqCountOf s₁ d }, ?_, recounting.trans last, ?_⟩
    · simp only [accumulateInterrupts, walked, Option.bind_eq_bind, Option.bind_some, irqCountOf]
    · intro x below
      have below₁ := last.tallied.below.mp below
      rw [below_iff, recounting.tallied.children] at below₁
      rcases below₁ with rfl | ⟨c, child, below₁⟩
      · rw [last.tallied.irqCountOf]
        simp [State.setObj]
      · exact last.recounted (recounted c child) x (last.tallied.below.mpr below₁)

/-- `accumulate_interrupts` over the nodes. -/
theorem forEach_accumulateInterrupts (descends : Descends s height) (deep : ∀ o, height o < fuel)
    (l : List ObjRef) :
    ∃ s', tryForEach l (accumulateInterrupts fuel) s = some s' ∧ Recounting s s' ∧ ∀ o ∈ l, Recounted s' o := by
  obtain ⟨s', walked, recounting, recounted, _⟩ := tryForEach_visits (l := l) (f := accumulateInterrupts fuel)
      (s := s) (I := Recounting s) (Q := fun o s => Recounted s o) (.refl s) (by
    intro o _ s₁ recounting
    obtain ⟨s₂, visited, recounting₂, recounted⟩ := accumulateInterrupts_spec
      (recounting.tallied.descends descends) (deep o)
    exact ⟨s₂, visited, recounting.trans recounting₂, recounted, fun y held => recounting₂.recounted held⟩)
  exact ⟨s', walked, recounting, recounted⟩

end AccumulateInterrupts

section Bookkeeping

/-- Nothing but the bookkeeping of objects and the loads of interrupts changes. -/
structure Bookkept (s s' : State) : Prop where
  state : s' = { s with objs := s'.objs, irqs := s'.irqs }
  obj : ∀ o, s'.objs o = { s.objs o with
    load := (s'.objs o).load, lastLoad := (s'.objs o).lastLoad, irqCount := (s'.objs o).irqCount }
  irq : ∀ i, s'.irqs i = { s.irqs i with load := (s'.irqs i).load }

namespace Bookkept

theorem refl (s : State) : Bookkept s s := ⟨rfl, fun _ => rfl, fun _ => rfl⟩

theorem trans (first : Bookkept s s') (second : Bookkept s' s'') : Bookkept s s'' where
  state := by rw [second.state, first.state]
  obj o := by rw [second.obj o, first.obj o]
  irq i := by rw [second.irq i, first.irq i]

theorem setObj (load lastLoad : ℕ) :
    Bookkept s (s.setObj d { s.objs d with load := load, lastLoad := lastLoad }) where
  state := rfl
  obj := forall_setObj (P := fun o x =>
    x = { s.objs o with load := x.load, lastLoad := x.lastLoad, irqCount := x.irqCount }) rfl fun _ _ => rfl
  irq _ := rfl

theorem sameTree (kept : Bookkept s s') : SameTree s s' := by
  constructor
  iterate 7 · rw [kept.state]
  all_goals
    intro o
    rw [kept.obj o]

/-- All bookkeeping is replaced. -/
theorem account_eq (kept : Bookkept s s') : s' = account
    (fun o => ⟨(s'.objs o).load, (s'.objs o).lastLoad, (s'.objs o).irqCount⟩)
    (fun i => ⟨(s.irqs i).irqCount, (s.irqs i).lastIrqCount, (s'.irqs i).load, (s.irqs i).existing⟩)
    s.cycleCount s.clBannedIrqs s := by
  have objs : s'.objs = fun o => { s.objs o with
      load := (s'.objs o).load, lastLoad := (s'.objs o).lastLoad, irqCount := (s'.objs o).irqCount } :=
    funext kept.obj
  have irqs : s'.irqs = fun i => { s.irqs i with load := (s'.irqs i).load } := funext kept.irq
  conv_lhs => rw [kept.state, objs, irqs]
  rfl

end Bookkept

theorem Tallied.bookkept (tallied : Tallied s s') : Bookkept s s' where
  state := by rw [tallied.state]
  obj o := by rw [tallied.obj o]
  irq i := by rw [tallied.irqs]

/-- A pass that can fail keeps what its steps keep. -/
theorem tryForEach_bookkept {f : ObjRef → State → Option State} (l : List ObjRef)
    (visit : ∀ o s s', f o s = some s' → Bookkept s s') (walked : tryForEach l f s = some s') : Bookkept s s' := by
  induction l generalizing s with
  | nil =>
    cases walked
    exact .refl _
  | cons o rest ih =>
    rw [tryForEach_cons, Option.bind_eq_some_iff] at walked
    obtain ⟨s₁, visited, walked⟩ := walked
    exact (visit o s s₁ visited).trans (ih walked)

theorem setLoad_bookkept (setting : setLoad fuel d s = some s') : Bookkept s s' := by
  induction fuel generalizing s s' d with
  | zero => contradiction
  | succ fuel ih =>
    rw [setLoad] at setting
    split at setting
    · simp only [Option.bind_eq_bind, Option.bind_eq_some_iff, Option.some_inj] at setting
      obtain ⟨s₁, walked, rfl⟩ := setting
      have reset : Bookkept s₁ (s₁.setObj d { s₁.objs d with load := 0 }) := .setObj 0 (s₁.objs d).lastLoad
      apply ((tryForEach_bookkept _ (fun o s s' => ih) walked).trans reset).trans
      exact forEach_preserves (I := Bookkept _) (.refl _) fun c _ s₂ kept => kept.trans (.setObj _ (s₂.objs d).lastLoad)
    · cases setting
      exact .refl _

theorem accumulateInterrupts_bookkept (counting : accumulateInterrupts fuel d s = some s') : Bookkept s s' := by
  induction fuel generalizing s s' d with
  | zero => contradiction
  | succ fuel ih =>
    simp only [accumulateInterrupts, Option.bind_eq_bind, Option.bind_eq_some_iff, Option.some_inj] at counting
    obtain ⟨s₁, walked, rfl⟩ := counting
    exact (tryForEach_bookkept _ (fun o s s' => ih) walked).trans (Tallied.setObj (s₁.objs d).load _).bookkept

theorem assignLoadSlice_bookkept {slice : ℕ} {info : IrqRef} : Bookkept s (assignLoadSlice slice info s) where
  state := rfl
  obj _ := rfl
  irq := forall_setIrq (P := fun i x => x = { s.irqs i with load := x.load }) rfl fun _ _ => rfl

/-- `compute_irq_branch_load_share` changes no object. -/
theorem computeIrqBranchLoadShare_kept (computed : computeIrqBranchLoadShare fuel d s = some s') :
    Bookkept s s' ∧ s'.objs = s.objs := by
  unfold computeIrqBranchLoadShare at computed
  split at computed
  · simp only [Option.bind_eq_bind, Option.bind_eq_some_iff] at computed
    obtain ⟨share, _, count, _, computed⟩ := computed
    have assigned (slice : ℕ) : Bookkept s (forEach (s.objs d).interrupts (assignLoadSlice slice) s) ∧
        (forEach (s.objs d).interrupts (assignLoadSlice slice) s).objs = s.objs :=
      forEach_preserves (I := fun s' => Bookkept s s' ∧ s'.objs = s.objs) ⟨.refl s, rfl⟩
        fun i _ s₁ kept => ⟨kept.1.trans assignLoadSlice_bookkept, kept.2⟩
    split at computed
    · obtain ⟨slice, _, same⟩ := Option.bind_eq_some_iff.mp computed
      cases same
      exact assigned slice
    · cases computed
      exact assigned 1
  · cases computed
    exact ⟨.refl s, rfl⟩

theorem attributeLoads_bookkept (attributed : attributeLoads fuel s = some s') : Bookkept s s' := by
  simp only [attributeLoads, Option.bind_eq_bind, Option.bind_eq_some_iff] at attributed
  obtain ⟨s₁, loads, s₂, counts, s₃, cpus, s₄, caches, s₅, packages, nodes⟩ := attributed
  have shares {l : List ObjRef} {s s' : State} (walked : tryForEach l (computeIrqBranchLoadShare fuel) s = some s') :
      Bookkept s s' := tryForEach_bookkept l (fun _ _ _ computed => (computeIrqBranchLoadShare_kept computed).1) walked
  exact (tryForEach_bookkept _ (fun _ _ _ => setLoad_bookkept) loads).trans
    ((tryForEach_bookkept _ (fun _ _ _ => accumulateInterrupts_bookkept) counts).trans
      ((shares cpus).trans ((shares caches).trans ((shares packages).trans (shares nodes)))))

theorem readCpuLoads_bookkept (nanoseconds : ℕ → ℕ) (lines : List StatLine) (cpucount : ℕ) (s : State) :
    Bookkept s (readCpuLoads nanoseconds lines cpucount s).2 := by
  induction lines generalizing cpucount s with
  | nil => exact .refl s
  | cons line rest ih =>
    rw [readCpuLoads]
    split
    · exact ih cpucount s
    · split
      · exact .refl s
      · split
        · exact .refl s
        · exact (Bookkept.setObj _ _).trans (ih _ _)

/-- `parse_proc_stat` replaces bookkeeping. -/
theorem parseProcStatLines_bookkept {nanoseconds : ℕ → ℕ} {lines : List StatLine}
    (parsed : parseProcStatLines nanoseconds fuel lines s = some s') : Bookkept s s' := by
  have read := readCpuLoads_bookkept nanoseconds lines 0 s
  unfold parseProcStatLines at parsed
  dsimp only at parsed
  split at parsed
  · cases parsed
    exact read
  · exact read.trans (attributeLoads_bookkept parsed)

/-- Whatever `parse_proc_stat` reads and calculates, `scan` has a reading for. -/
theorem parseProcStatLines_eq {nanoseconds : ℕ → ℕ} {lines : List StatLine}
    (parsed : parseProcStatLines nanoseconds fuel lines s = some s') :
    ∃ r, s' = parseProcStat r s :=
  ⟨⟨fun o => ⟨(s'.objs o).load, (s'.objs o).lastLoad, (s'.objs o).irqCount⟩, fun i => (s'.irqs i).load⟩,
    (parseProcStatLines_bookkept parsed).account_eq⟩

end Bookkeeping

end Irqbalance
