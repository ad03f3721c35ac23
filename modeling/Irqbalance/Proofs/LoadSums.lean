import Irqbalance.Proofs.LoadShares
import Irqbalance.Proofs.Outline
import Mathlib.Algebra.BigOperators.ModEq

/-! # The load of an object and the CPUs below it

`set_load` starts at the nodes and adds up along `children`. An object that no node leads to keeps the
load it had, and a CPU that several paths lead to counts as often. The shares that follow divide by no
empty list of children, so that there is always a result.
-/

namespace Irqbalance

variable {K : Env} {m : Machine} {s s' t : State} {o c d x : ObjRef} {fuel n : ℕ} {height : ObjRef → ℕ}

/-- The objects above the CPUs. -/
def domains (s : State) : List ObjRef := s.cacheDomains ++ s.packages ++ s.numaNodes

/-- The load of an object is the sum of those of the distinct CPUs below it. -/
def LoadIsSum (s : State) (o : ObjRef) : Prop :=
  (s.objs o).load = u64 ((cpusUnder s TREE_DEPTH o).dedup.map fun c => (s.objs c).load).sum

/-- The loads of all objects with CPUs are sums. -/
def Sums (s : State) : Prop := ∀ o ∈ domains s, cpusUnder s TREE_DEPTH o ≠ [] → LoadIsSum s o

/-- `parse_proc_stat` has read as many lines as there are CPUs. -/
def Collected (nanoseconds : ℕ → ℕ) (lines : List StatLine) (s : State) : Prop :=
  (readCpuLoads nanoseconds lines 0 s).1 = s.cpus.length

/-- On this topology `parse_proc_stat` always comes to its end and leaves sums. -/
def AlwaysSums (t : State) : Prop := ∀ nanoseconds lines s, SameTree t s → Collected nanoseconds lines s →
  ∃ s', parseProcStatLines nanoseconds TREE_DEPTH lines s = some s' ∧ Sums s'

/-- The nodes lead to every object that has CPUs, and the object leads to each of these once; paths are
counted in 64 bits. -/
structure AddsUp (t : State) : Prop where
  reached : ∀ o ∈ domains t, cpusUnder t TREE_DEPTH o ≠ [] → InForest t o
  once : ∀ o ∈ domains t, ∀ c ∈ cpusUnder t TREE_DEPTH o, u64 ((cpusUnder t TREE_DEPTH o).count c) = 1

/-- The parents of objects are objects that have them as children. -/
def Parented (s : State) : Prop :=
  ∀ o ∈ objects s, ∀ p, (s.objs o).parent = some p → p ∈ objects s ∧ o ∈ (s.objs p).children

/-- A built topology: types nest, parents have children, only nodes can be without children, and the CPUs are not banned. -/
structure Furnished (t : State) : Prop where
  nests : TypesNest t
  parented : Parented t
  nodes : ∀ n ∈ t.numaNodes, (t.objs n).objType = .node
  domain : ∀ o ∈ domains t, (t.objs o).objType ≠ .cpu
  filled : ∀ p, ∀ c ∈ (t.objs p).children, (t.objs c).objType ≠ .cpu → (t.objs c).children ≠ []
  idle : ∀ o, (t.objs o).interrupts = []
  cpus : ∀ c ∈ t.cpus, ∃ n : ℕ, (t.objs c).number = n ∧ cpuIsset n t.bannedCpus = false

section Adding

theorem SameTree.below (same : SameTree t s) : Below s o x ↔ Below t o x := by
  unfold Below
  simp only [same.children]

theorem SameTree.inForest (same : SameTree t s) : InForest s o ↔ InForest t o := by
  unfold InForest
  simp only [same.numaNodes, same.below]

theorem cpusUnder_congr (same : SameTree t s) : cpusUnder s fuel o = cpusUnder t fuel o := by
  induction fuel generalizing o with
  | zero => rfl
  | succ fuel ih =>
    have children : cpusUnder s fuel = cpusUnder t fuel := funext fun c => ih
    rw [cpusUnder, cpusUnder, same.objType, same.children, children]

/-- A load is that of the CPUs below, as often as paths lead to them. -/
theorem Summed.load_modEq (furnished : Furnished t) (same : SameTree t s) (summed : Summed s o) (below : Below s o x)
    (inner : (s.objs x).objType ≠ .cpu → (s.objs x).children ≠ []) (deep : (s.objs x).objType.toNat < fuel) :
    (s.objs x).load ≡ ((cpusUnder s fuel x).map fun c => (s.objs c).load).sum [MOD 2 ^ 64] := by
  induction fuel generalizing x with
  | zero => exact absurd deep (Nat.not_lt_zero _)
  | succ fuel ih =>
    rw [cpusUnder]
    split
    · simp only [List.map_cons, List.map_nil, List.sum_cons, List.sum_nil, Nat.add_zero]
      exact .refl _
    · rename_i other
      rw [summed x below (inner other), childLoads, List.map_flatMap, List.flatMap_def, List.sum_flatten, List.map_map]
      refine (Nat.mod_modEq _ _).trans (Nat.ModEq.listSum_map fun c child => ?_)
      have child' : c ∈ (t.objs x).children := same.children x ▸ child
      refine ih (below.tail child) (fun other' => ?_) ?_
      · rw [same.children]
        rw [same.objType] at other'
        exact furnished.filled x c child' other'
      · rw [same.objType] at deep ⊢
        exact furnished.nests.rank child' deep

/-- Repetitions do not count where each element occurs once. -/
theorem sum_dedup_modEq (f : ObjRef → ℕ) (l : List ObjRef) (once : ∀ c ∈ l, l.count c ≡ 1 [MOD 2 ^ 64]) :
    (l.map f).sum ≡ (l.dedup.map f).sum [MOD 2 ^ 64] := by
  have distinct : l.dedup.toFinset = l.toFinset := by
    ext c
    simp
  rw [Finset.sum_list_map_count, ← List.sum_toFinset f l.nodup_dedup, distinct]
  apply Nat.ModEq.sum
  intro c member
  rw [smul_eq_mul]
  simpa using (once c (List.mem_toFinset.mp member)).mul_right (f c)

/-- Where the paths are counted once, the loads are sums. -/
theorem AddsUp.loadIsSum (addsUp : AddsUp t) (furnished : Furnished t) (same : SameTree t s)
    (summed : ∀ n ∈ s.numaNodes, Summed s n) (listed : o ∈ domains t) (some : cpusUnder s TREE_DEPTH o ≠ []) :
    LoadIsSum s o := by
  rw [cpusUnder_congr same] at some
  have other := furnished.domain o listed
  obtain ⟨n, node, path⟩ := addsUp.reached o listed some
  have below : Below s n o := same.below.mpr path
  have inner : (s.objs o).children ≠ [] := by
    intro none
    rw [same.children] at none
    rw [TREE_DEPTH, cpusUnder, if_neg other, none] at some
    exact some rfl
  have summed' := summed n (same.numaNodes ▸ node)
  have load := summed'.load_modEq furnished same below (fun _ => inner) (rank_lt_depth o)
  have distinct := sum_dedup_modEq (fun c => (s.objs c).load) (cpusUnder s TREE_DEPTH o) (by
    rw [cpusUnder_congr same]
    exact addsUp.once o listed)
  have reduced : u64 (s.objs o).load = (s.objs o).load := by
    rw [summed' o below inner, childLoads, u64_u64]
  unfold LoadIsSum
  rw [← reduced]
  exact load.trans distinct

end Adding

section Passes

/-- The height of an object by its type. -/
theorem TypesNest.descends (nests : TypesNest s) : Descends s fun o => (s.objs o).objType.toNat :=
  fun p c child => nests_rank (nests.child p c child)

/-- The loads that the passes leave are those that `set_load` has summed up. -/
theorem attributeLoads_loads (nests : TypesNest s) (attributed : attributeLoads TREE_DEPTH s = some s') :
    ∃ s₁, Loading s.numaNodes s s₁ ∧ (∀ n ∈ s.numaNodes, Summed s₁ n) ∧
      ∀ o, (s'.objs o).load = (s₁.objs o).load := by
  obtain ⟨s₁, loaded, loading, summed⟩ := forEach_setLoad nests.descends rank_lt_depth s.numaNodes
  obtain ⟨s₂, counted, recounting, _⟩ := forEach_accumulateInterrupts (loading.tallied.descends nests.descends)
    rank_lt_depth s₁.numaNodes
  simp only [attributeLoads, loaded, counted, Option.bind_eq_bind, Option.bind_some, Option.bind_eq_some_iff]
    at attributed
  obtain ⟨s₃, cpus, s₄, caches, s₅, packages, nodes⟩ := attributed
  have shares {l : List ObjRef} {s s' : State} (walked : tryForEach l (computeIrqBranchLoadShare TREE_DEPTH) s = some s') :
      s'.objs = s.objs := by
    induction l generalizing s with
    | nil =>
      cases walked
      rfl
    | cons o rest ih =>
      obtain ⟨s₁, computed, walked⟩ := Option.bind_eq_some_iff.mp walked
      exact (ih walked).trans (computeIrqBranchLoadShare_kept computed).2
  refine ⟨s₁, loading, summed, fun o => ?_⟩
  rw [shares nodes, shares packages, shares caches, shares cpus, recounting.load]

theorem SameTree.typesNest (same : SameTree t s) (nests : TypesNest t) : TypesNest s where
  child p c child := by
    rw [same.children] at child
    rw [same.objType, same.objType]
    exact nests.child p c child

/-- When each CPU has been read, the passes follow. -/
theorem parseProcStatLines_collected {nanoseconds : ℕ → ℕ} {lines : List StatLine}
    (collected : Collected nanoseconds lines s) : parseProcStatLines nanoseconds fuel lines s =
      attributeLoads fuel (readCpuLoads nanoseconds lines 0 s).2 := by
  have cpus := (readCpuLoads_bookkept nanoseconds lines 0 s).sameTree.cpus
  exact if_neg (not_not.mpr (Eq.trans collected (congrArg List.length cpus.symm)))

/-- The loads after `parse_proc_stat` has read each CPU, compared with those it has read. -/
theorem parseProcStatLines_loads {nanoseconds : ℕ → ℕ} {lines : List StatLine} (nests : TypesNest s)
    (collected : Collected nanoseconds lines s)
    (parsed : parseProcStatLines nanoseconds TREE_DEPTH lines s = some s') :
    let s₀ := (readCpuLoads nanoseconds lines 0 s).2
    ∃ s₁, SameTree s s₁ ∧ Loading s.numaNodes s₀ s₁ ∧ (∀ n ∈ s.numaNodes, Summed s₁ n) ∧
      ∀ o, (s'.objs o).load = (s₁.objs o).load := by
  have same := (readCpuLoads_bookkept nanoseconds lines 0 s).sameTree
  rw [parseProcStatLines_collected collected] at parsed
  obtain ⟨s₁, loading, summed, loads⟩ := attributeLoads_loads (same.typesNest nests) parsed
  rw [same.numaNodes] at loading summed
  exact ⟨s₁, same.trans loading.tallied.bookkept.sameTree, loading, summed, loads⟩

end Passes

section Results

theorem SameTree.objects (same : SameTree t s) : objects s = objects t := by
  unfold Irqbalance.objects
  rw [same.cpus, same.cacheDomains, same.packages, same.numaNodes]

theorem SameTree.parented (same : SameTree t s) (parented : Parented t) : Parented s := by
  intro o listed p parent
  rw [same.objects] at listed ⊢
  rw [same.parent] at parent
  rw [same.children]
  exact parented o listed p parent

/-- The way up ends at an object without a parent, and no list of children on it is empty. -/
theorem getParentBranchIrqCountShare_exists (parented : Parented s) (descends : Descends s height)
    (deep : ∀ o, height o < fuel) (listed : d ∈ objects s) (enough : fuel ≤ n + height d) :
    ∃ share, getParentBranchIrqCountShare s n d = some share := by
  induction n generalizing d with
  | zero => exact absurd (deep d) (by omega)
  | succ n ih =>
    rw [getParentBranchIrqCountShare]
    cases above : (s.objs d).parent with
    | none => exact ⟨_, rfl⟩
    | some p =>
      obtain ⟨listed', child⟩ := parented d listed p above
      have higher := descends p d child
      obtain ⟨share, found⟩ := ih listed' (by omega)
      have divisor : (s.objs p).children.length ≠ 0 := (List.length_pos_of_mem child).ne'
      simp only [Option.bind_eq_bind, found, Option.bind_some, u64Div, if_neg divisor]
      exact ⟨_, rfl⟩

theorem forEach_getChildrenBranchIrqCount_exists (descends : Descends s height) (l : List ObjRef)
    (deep : ∀ c ∈ l, height c < n) (total : ℕ) :
    ∃ count, tryForEach l (getChildrenBranchIrqCount s n) total = some count := by
  induction n generalizing l total with
  | zero =>
    cases l with
    | nil => exact ⟨total, rfl⟩
    | cons c rest => exact absurd (deep c List.mem_cons_self) (Nat.not_lt_zero _)
  | succ n ih =>
    obtain ⟨count, walked, _⟩ := tryForEach_visits (l := l) (f := getChildrenBranchIrqCount s (n + 1)) (s := total)
        (I := fun _ => True) (Q := fun _ _ => True) trivial (by
      intro c member total _
      obtain ⟨count, below⟩ := ih (s.objs c).children
        (fun x child => (descends c x child).trans_le (Nat.lt_succ_iff.mp (deep c member))) total
      refine ⟨u64 (count + (s.objs c).irqCount), ?_, trivial, trivial, fun _ _ => trivial⟩
      rw [getChildrenBranchIrqCount, below]
      rfl)
    exact ⟨count, walked⟩

/-- The shares of an object have a result. -/
theorem computeIrqBranchLoadShare_exists (nests : TypesNest s) (parented : Parented s) (listed : d ∈ objects s) :
    ∃ s', computeIrqBranchLoadShare TREE_DEPTH d s = some s' := by
  unfold computeIrqBranchLoadShare
  split
  · obtain ⟨share, above⟩ := getParentBranchIrqCountShare_exists parented nests.descends rank_lt_depth listed
      (Nat.le_add_right TREE_DEPTH _)
    obtain ⟨count, below⟩ := forEach_getChildrenBranchIrqCount_exists nests.descends (s.objs d).children
      (fun c _ => rank_lt_depth c) share
    simp only [Option.bind_eq_bind, above, below, Option.bind_some]
    split
    · rename_i some
      rw [u64Div, if_neg some]
      exact ⟨_, rfl⟩
    · exact ⟨_, rfl⟩
  · exact ⟨s, rfl⟩

/-- The shares of the objects of a list have a result. -/
theorem forEach_computeIrqBranchLoadShare_exists (nests : TypesNest t) (parented : Parented t) (same : SameTree t s)
    {l : List ObjRef} (listed : ∀ o ∈ l, o ∈ objects t) :
    ∃ s', tryForEach l (computeIrqBranchLoadShare TREE_DEPTH) s = some s' ∧ SameTree t s' := by
  obtain ⟨s', walked, same', _⟩ := tryForEach_visits (l := l) (f := computeIrqBranchLoadShare TREE_DEPTH) (s := s)
      (I := SameTree t) (Q := fun _ _ => True) same (by
    intro o member s₁ same₁
    obtain ⟨s₂, computed⟩ := computeIrqBranchLoadShare_exists (same₁.typesNest nests) (same₁.parented parented)
      (same₁.objects ▸ listed o member)
    exact ⟨s₂, computed, same₁.trans (computeIrqBranchLoadShare_kept computed).1.sameTree, trivial, fun _ _ => trivial⟩)
  exact ⟨s', walked, same'⟩

/-- The passes divide by nothing that is zero and come to their end. -/
theorem attributeLoads_exists (nests : TypesNest s) (parented : Parented s) :
    ∃ s', attributeLoads TREE_DEPTH s = some s' := by
  obtain ⟨s₁, loaded, loading, _⟩ := forEach_setLoad nests.descends rank_lt_depth s.numaNodes
  obtain ⟨s₂, counted, recounting, _⟩ := forEach_accumulateInterrupts (loading.tallied.descends nests.descends)
    rank_lt_depth s₁.numaNodes
  have same₂ := (loading.tallied.trans recounting.tallied).bookkept.sameTree
  have listed (o : ObjRef) : o ∈ objects s ↔ ((o ∈ s.cpus ∨ o ∈ s.cacheDomains) ∨ o ∈ s.packages) ∨ o ∈ s.numaNodes := by
    simp only [objects, List.mem_append]
  obtain ⟨s₃, cpus, same₃⟩ := forEach_computeIrqBranchLoadShare_exists nests parented same₂
    (l := s.cpus) fun o member => (listed o).mpr (.inl (.inl (.inl member)))
  obtain ⟨s₄, caches, same₄⟩ := forEach_computeIrqBranchLoadShare_exists nests parented same₃
    (l := s.cacheDomains) fun o member => (listed o).mpr (.inl (.inl (.inr member)))
  obtain ⟨s₅, packages, same₅⟩ := forEach_computeIrqBranchLoadShare_exists nests parented same₄
    (l := s.packages) fun o member => (listed o).mpr (.inl (.inr member))
  obtain ⟨s₆, nodes, _⟩ := forEach_computeIrqBranchLoadShare_exists nests parented same₅
    (l := s.numaNodes) fun o member => (listed o).mpr (.inr member)
  refine ⟨s₆, ?_⟩
  simp only [attributeLoads, loaded, counted, same₂.cpus, cpus, same₃.cacheDomains, caches, same₄.packages, packages,
    same₅.numaNodes, nodes, Option.bind_eq_bind, Option.bind_some]

/-- On a built topology `parse_proc_stat` comes to its end. -/
theorem parseProcStatLines_exists {nanoseconds : ℕ → ℕ} {lines : List StatLine} (furnished : Furnished t)
    (same : SameTree t s) (collected : Collected nanoseconds lines s) :
    ∃ s', parseProcStatLines nanoseconds TREE_DEPTH lines s = some s' := by
  have read := same.trans (readCpuLoads_bookkept nanoseconds lines 0 s).sameTree
  rw [parseProcStatLines_collected collected]
  exact attributeLoads_exists (read.typesNest furnished.nests) (read.parented furnished.parented)

end Results

section Readings

/-- The topology with other loads, before the first cycle. -/
def withLoads (t : State) (load : ObjRef → ℕ) : State :=
  { t with objs := fun o => { t.objs o with load := load o }, cycleCount := 0 }

/-- A line without any load of each CPU. -/
def idleLines (t : State) : List StatLine := t.cpus.map fun c => ⟨(t.objs c).number.toNat, some (0, 0)⟩

theorem withLoads_sameTree (t : State) (load : ObjRef → ℕ) : SameTree t (withLoads t load) := by
  constructor <;> intros <;> rfl

/-- Before the first cycle the loads of the CPUs stay. -/
theorem readCpuLoads_first (lines : List StatLine) (cpucount : ℕ) (first : s.cycleCount = 0)
    (found : ∀ line ∈ lines, cpuIsset line.cpunr s.bannedCpus = false ∧ line.loads = some (0, 0) ∧
      findCpuCore line.cpunr s ≠ none) :
    (readCpuLoads id lines cpucount s).1 = cpucount + lines.length ∧
      ∀ o, ((readCpuLoads id lines cpucount s).2.objs o).load = (s.objs o).load := by
  induction lines generalizing cpucount s with
  | nil => exact ⟨rfl, fun _ => rfl⟩
  | cons line rest ih =>
    obtain ⟨allowed, idle, known⟩ := found line List.mem_cons_self
    obtain ⟨cpu, found'⟩ := Option.ne_none_iff_exists'.mp known
    have kept : Bookkept s (s.setObj cpu { s.objs cpu with load := (s.objs cpu).load, lastLoad := 0 }) := .setObj _ _
    have same := kept.sameTree
    have finds (n : ℕ) : findCpuCore n (s.setObj cpu { s.objs cpu with load := (s.objs cpu).load, lastLoad := 0 }) =
        findCpuCore n s := by
      unfold findCpuCore
      rw [same.cpus]
      simp only [same.number]
    obtain ⟨count, loads⟩ := ih (s := s.setObj cpu { s.objs cpu with load := (s.objs cpu).load, lastLoad := 0 })
      (cpucount + 1) first fun line member => by
        rw [finds]
        exact found line (List.mem_cons_of_mem _ member)
    have read : readCpuLoads id (line :: rest) cpucount s = readCpuLoads id rest (cpucount + 1)
        (s.setObj cpu { s.objs cpu with load := (s.objs cpu).load, lastLoad := 0 }) := by
      rw [readCpuLoads]
      simp [allowed, idle, found', first]
    rw [read]
    refine ⟨by rw [count, List.length_cons]; omega, fun o => (loads o).trans ?_⟩
    apply setObj_field TopoObj.load
    rfl

/-- On a built topology any loads can be those that `set_load` starts from. -/
theorem exists_reading (furnished : Furnished t) (load : ObjRef → ℕ) :
    Collected id (idleLines t) (withLoads t load) ∧
      ∃ s' s₁, parseProcStatLines id TREE_DEPTH (idleLines t) (withLoads t load) = some s' ∧ SameTree t s' ∧
        SameTree t s₁ ∧ (∀ n ∈ t.numaNodes, Summed s₁ n) ∧ (∀ x, (s'.objs x).load = (s₁.objs x).load) ∧
          ∀ x, (∀ n ∈ t.numaNodes, ¬ Below t n x) ∨ (t.objs x).children = [] → (s₁.objs x).load = load x := by
  have same := withLoads_sameTree t load
  have nests := same.typesNest furnished.nests
  obtain ⟨count, loads⟩ := readCpuLoads_first (s := withLoads t load) (idleLines t) 0 rfl (by
    intro line member
    obtain ⟨c, listed, rfl⟩ := List.mem_map.mp member
    obtain ⟨n, number, allowed⟩ := furnished.cpus c listed
    rw [number, Int.toNat_natCast]
    refine ⟨allowed, rfl, fun missing => ?_⟩
    have none := List.find?_eq_none.mp missing c listed
    exact none (beq_iff_eq.mpr number))
  have collected : Collected id (idleLines t) (withLoads t load) := by
    unfold Collected
    rw [count, Nat.zero_add]
    exact List.length_map _
  have kept := readCpuLoads_bookkept id (idleLines t) 0 (withLoads t load)
  obtain ⟨s', parsed⟩ := parseProcStatLines_exists furnished same collected
  obtain ⟨s₁, same₁, loading, summed, loads₁⟩ := parseProcStatLines_loads nests collected parsed
  refine ⟨collected, s', s₁, parsed, same.trans (parseProcStatLines_bookkept parsed).sameTree, same.trans same₁,
    summed, loads₁, ?_⟩
  have tree := same.trans kept.sameTree
  rintro x (outside | leaf)
  · rw [loading.elsewhere x fun n node path => outside n node (tree.below.mp path)]
    exact loads x
  · rw [loading.leaf x (by rw [kept.sameTree.children, same.children, leaf])]
    exact loads x

/-- What `parse_proc_stat` leaves are sums. -/
theorem AlwaysSums.of_parsed {nanoseconds : ℕ → ℕ} {lines : List StatLine} (sums : AlwaysSums t) (same : SameTree t s)
    (collected : Collected nanoseconds lines s)
    (parsed : parseProcStatLines nanoseconds TREE_DEPTH lines s = some s') : Sums s' := by
  obtain ⟨s₁, parsed', valid⟩ := sums nanoseconds lines s same collected
  rw [Option.some.inj (parsed.symm.trans parsed')]
  exact valid

/-- Where the loads always add up, the nodes lead to every object with CPUs. -/
theorem AlwaysSums.reached (sums : AlwaysSums t) (furnished : Furnished t) (listed : o ∈ domains t)
    (some : cpusUnder t TREE_DEPTH o ≠ []) : InForest t o := by
  by_contra apart
  obtain ⟨collected, s', s₁, parsed, same', same₁, summed, loads, kept⟩ :=
    exists_reading furnished fun x => if x = o then 1 else 0
  have always := sums.of_parsed (withLoads_sameTree t _) collected parsed
  have listed' : o ∈ domains s' := by
    unfold domains
    rw [same'.cacheDomains, same'.packages, same'.numaNodes]
    exact listed
  have sum := always o listed' (by rw [cpusUnder_congr same']; exact some)
  have stale : (s'.objs o).load = 1 := by
    rw [loads, kept o (.inl fun n node path => apart ⟨n, node, path⟩)]
    exact if_pos rfl
  have idle : ∀ c ∈ (cpusUnder s' TREE_DEPTH o).dedup, (s'.objs c).load = 0 := by
    intro c member
    rw [List.mem_dedup, cpusUnder_congr same', mem_cpusUnder furnished.nests (rank_lt_depth o)] at member
    rw [loads, kept c (.inr (furnished.nests.children_cpu member.2)), if_neg]
    rintro rfl
    exact furnished.domain c listed member.2
  rw [LoadIsSum, stale, List.map_congr_left idle, List.map_const', List.sum_replicate] at sum
  simp at sum

/-- Where the loads always add up, each CPU is counted once. -/
theorem AlwaysSums.once (sums : AlwaysSums t) (furnished : Furnished t) (listed : o ∈ domains t)
    (member : c ∈ cpusUnder t TREE_DEPTH o) : u64 ((cpusUnder t TREE_DEPTH o).count c) = 1 := by
  obtain ⟨n, node, path⟩ := sums.reached furnished listed (List.ne_nil_of_mem member)
  obtain ⟨collected, s', s₁, parsed, same', same₁, summed, loads, kept⟩ :=
    exists_reading furnished fun x => if x = c then 1 else 0
  have always := sums.of_parsed (withLoads_sameTree t _) collected parsed
  have listed' : o ∈ domains s' := by
    unfold domains
    rw [same'.cacheDomains, same'.packages, same'.numaNodes]
    exact listed
  have sum := always o listed' (by rw [cpusUnder_congr same']; exact List.ne_nil_of_mem member)
  have alone : ∀ x ∈ cpusUnder t TREE_DEPTH o, (s₁.objs x).load = if x = c then 1 else 0 := by
    intro x member
    rw [mem_cpusUnder furnished.nests (rank_lt_depth o)] at member
    exact kept x (.inr (furnished.nests.children_cpu member.2))
  have counted (l : List ObjRef) : (l.map fun x => if x = c then 1 else 0).sum = l.count c := by
    induction l with
    | nil => rfl
    | cons x rest ih => rw [List.map_cons, List.sum_cons, ih, List.count_cons, Nat.add_comm]; simp
  have inner : (s₁.objs o).children ≠ [] := by
    intro none
    rw [same₁.children] at none
    rw [TREE_DEPTH, cpusUnder, if_neg (furnished.domain o listed), none] at member
    exact List.not_mem_nil member
  have below : Below s₁ n o := same₁.below.mpr path
  have load := (summed n node).load_modEq furnished same₁ below (fun _ => inner) (rank_lt_depth o)
  rw [cpusUnder_congr same₁, List.map_congr_left alone, counted] at load
  have distinct : ((cpusUnder s' TREE_DEPTH o).dedup.map fun c => (s'.objs c).load).sum = 1 := by
    rw [cpusUnder_congr same', List.map_congr_left fun x member => (loads x).trans (alone x (List.mem_dedup.mp member)),
      counted, List.count_dedup, if_pos member]
  rw [LoadIsSum, distinct, loads] at sum
  rw [sum] at load
  exact load.symm

end Readings

/-- The parents that `parse_cpu_tree` sets have the objects as children. -/
theorem Grouped.parented {s₀ : State} {entries : List Entry} {used : CpuDir → Prop} (grouped : Grouped K s₀ entries s)
    (connected : Connected (fun n o => ∃ p ∈ s.packages, Connects s p n o) s t) (shaped₀ : Shaped s₀)
    (labelled : Labelled K used s₀ s) (raised : Raised s t)
    (orphans : ∀ p ∈ s.packages, ∀ n, (s.objs p).numaNodes = [n] → (t.objs p).parent ≠ none) : Parented t := by
  have linked := connected.linked
  have listed (o : ObjRef) : o ∈ objects t ↔ ((o ∈ s.cpus ∨ o ∈ s.cacheDomains) ∨ o ∈ s.packages) ∨ o ∈ s.numaNodes := by
    simp only [objects, List.mem_append, linked.cpus, linked.cacheDomains, linked.packages, linked.numaNodes]
  have children {o c : ObjRef} := grouped.children_connected connected (o := o) (c := c) shaped₀
  intro o member p parent
  rw [listed p]
  rcases (listed o).mp member with ((cpu | cache) | package) | node
  · rw [grouped.cpus] at cpu
    obtain ⟨e, entry, rfl⟩ := List.mem_map.mp cpu
    obtain rfl := Option.some.inj ((grouped.cpuParent_connected connected entry).symm.trans parent)
    exact ⟨.inl (.inl (.inr ((grouped.caches _).mpr ⟨e, entry, rfl⟩))), children.mpr (.inl ⟨e, entry, rfl, rfl⟩)⟩
  · obtain ⟨e, entry, rfl⟩ := (grouped.caches o).mp cache
    obtain ⟨e', entry', same, parent'⟩ := grouped.cacheParent e entry
    have inner : (s.objs e.cache).objType ≠ .package := by
      rw [(grouped.known entry).2.1.2]
      decide
    rw [connected.parent _ inner] at parent
    obtain rfl := Option.some.inj (parent'.symm.trans parent)
    exact ⟨.inl (.inr ((grouped.packages _).mpr ⟨e', entry', rfl⟩)), children.mpr (.inr (.inl ⟨e', entry', rfl, same⟩))⟩
  · obtain ⟨e, entry, rfl⟩ := (grouped.packages o).mp package
    have one := (grouped.parent_package labelled raised orphans entry).mp parent
    have node : p ∈ s.numaNodes := (grouped.extended.shaped.obj e.package).numaNodes p (by
      rw [one]
      exact List.mem_singleton_self p)
    exact ⟨.inr node, children.mpr (.inr (.inr (.inl ⟨e, entry, rfl, one⟩)))⟩
  · rw [grouped.parent_node labelled raised node] at parent
    contradiction

/-- What `parse_cpu_tree` builds is furnished. -/
theorem parseCpuTree_furnished (m : Machine) (banned : CpuMask) (s : State) :
    Furnished (parseCpuTree K m banned (buildNumaNodeList K m (freeTopology s))) := by
  have only := (buildNumaNodeList_onlyNodes (K := K) m (freeTopology_onlyNodes (s := s))).1
  have bare := buildNumaNodeList_bare (K := K) m (freeTopology_bare (s := s))
  obtain ⟨entries, s₁, dirs, grouped, connected, labelled, raised, orphans⟩ := parseCpuTree_raised (K := K) m banned only bare
  have linked := connected.linked
  have shaped := linked.shaped
  refine ⟨⟨fun p c child => ((shaped.obj p).children c child).2⟩,
    grouped.parented connected (setBans_shaped only banned) labelled raised orphans, fun n node => (shaped.numaNodes n node).2,
    fun o listed => ?_, fun p c child other => ?_, fun o => (shaped.obj o).interrupts, fun c listed => ?_⟩
  · simp only [domains, List.mem_append] at listed
    rcases listed with (cache | package) | node
    · rw [(shaped.cacheDomains o cache).2]
      decide
    · rw [(shaped.packages o package).2]
      decide
    · rw [(shaped.numaNodes o node).2]
      decide
  · obtain ⟨e, entry, rfl | rfl | rfl⟩ := grouped.connected_child_entry connected child
    · rw [linked.objType, (grouped.known entry).1.2] at other
      contradiction
    · exact List.ne_nil_of_mem ((grouped.mem_children_cpu connected entry).mpr rfl)
    · have packageType := (grouped.known entry).2.2.2
      exact List.ne_nil_of_mem ((grouped.mem_children_package connected entry packageType).mpr ⟨e, entry, rfl, rfl⟩)
  · rw [linked.cpus, grouped.cpus] at listed
    obtain ⟨e, entry, rfl⟩ := List.mem_map.mp listed
    have used : e.dir ∈ m.cpuDirs.filter (·.usable m banned) := dirs ▸ List.mem_map_of_mem entry
    refine ⟨e.dir.number, (linked.number e.cpu).trans (grouped.number e entry), ?_⟩
    rw [linked.bannedCpus, grouped.extended.bannedCpus]
    exact (CpuDir.usable_allowed (List.mem_filter.mp used).2).2

/-- `parse_proc_stat` always leaves sums on a topology exactly if the nodes lead to every object with CPUs
and each CPU is counted once. -/
theorem parseProcStatLines_sums (K : Env) (m : Machine) (banned : CpuMask) (s : State) :
    let t := parseCpuTree K m banned (buildNumaNodeList K m (freeTopology s))
    AlwaysSums t ↔ AddsUp t := by
  have furnished := parseCpuTree_furnished (K := K) m banned s
  intro t
  constructor
  · intro sums
    exact ⟨fun o listed some => sums.reached furnished listed some, fun o listed c member => sums.once furnished listed member⟩
  · intro addsUp nanoseconds lines s same collected
    obtain ⟨s', parsed⟩ := parseProcStatLines_exists furnished same collected
    refine ⟨s', parsed, fun o listed some => ?_⟩
    obtain ⟨s₁, same₁, loading, summed, loads⟩ :=
      parseProcStatLines_loads (same.typesNest furnished.nests) collected parsed
    have tree := same.trans (parseProcStatLines_bookkept parsed).sameTree
    have sum : LoadIsSum s₁ o := by
      refine addsUp.loadIsSum furnished (same.trans same₁) (fun n node => summed n (same₁.numaNodes ▸ node)) ?_ ?_
      · unfold domains at listed ⊢
        rwa [tree.cacheDomains, tree.packages, tree.numaNodes] at listed
      · rwa [cpusUnder_congr (same.trans same₁), ← cpusUnder_congr tree]
    unfold LoadIsSum at sum ⊢
    rw [cpusUnder_congr tree, loads, sum, cpusUnder_congr (same.trans same₁)]
    simp only [loads]

instance : Decidable (LoadIsSum s o) := inferInstanceAs (Decidable (_ = _))

/-- Two packages of two CPUs, of which the first belong to one node and the second to another. -/
def interleaved : Machine where
  online := BitVec.ofNat NR_CPUS 15
  cpuDirs := [
    { number := 0, coreSiblings := some (BitVec.ofNat NR_CPUS 3), node := some 0 },
    { number := 1, coreSiblings := some (BitVec.ofNat NR_CPUS 3), node := some 1 },
    { number := 2, coreSiblings := some (BitVec.ofNat NR_CPUS 12), node := some 0 },
    { number := 3, coreSiblings := some (BitVec.ofNat NR_CPUS 12), node := some 1 }]
  nodeDirs := [⟨0, some (BitVec.ofNat NR_CPUS 5)⟩, ⟨1, some (BitVec.ofNat NR_CPUS 10)⟩]

/-- Jiffies in interrupts of the four CPUs. -/
def interleavedLines : List StatLine := [⟨0, some (3, 2)⟩, ⟨1, some (1, 0)⟩, ⟨2, some (0, 0)⟩, ⟨3, some (4, 1)⟩]

/-- Some object has other loads below it after the first cycle. -/
def IsStale (t : State) : Prop := Collected (· * 10000000) interleavedLines { t with cycleCount := 1 } ∧
  (parseProcStatLines (· * 10000000) TREE_DEPTH interleavedLines { t with cycleCount := 1 }).any (fun s' =>
    decide (∃ p ∈ domains s', cpusUnder s' TREE_DEPTH p ≠ [] ∧ ¬ LoadIsSum s' p)) = true

theorem IsStale.not_sums (stale : IsStale t) : ¬ AlwaysSums t := by
  intro sums
  obtain ⟨collected, stale⟩ := stale
  have same : SameTree t { t with cycleCount := 1 } := by constructor <;> intros <;> rfl
  cases parsed : parseProcStatLines (· * 10000000) TREE_DEPTH interleavedLines { t with cycleCount := 1 } with
  | none =>
    rw [parsed] at stale
    contradiction
  | some s' =>
    rw [parsed] at stale
    obtain ⟨p, listed, some, wrong⟩ := of_decide_eq_true stale
    exact wrong (sums.of_parsed same collected parsed p listed some)

/-- The caches hang directly below the nodes there, and the packages keep their load of 0. -/
theorem parseProcStatLines_interleaved : ¬ AlwaysSums (parseCpuTree { numaAvail := true } interleaved CPU_MASK_NONE
    (buildNumaNodeList { numaAvail := true } interleaved (freeTopology {}))) :=
  IsStale.not_sums (by
    unfold IsStale Collected
    decide +kernel)

end Irqbalance
