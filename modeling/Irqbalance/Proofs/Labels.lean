import Irqbalance.Proofs.Forest

/-! # Labels and the parents of packages

An object gets its number and its mask when it is created: a CPU those of its directory, a package those
that one of its CPUs reports. A package gets a parent without NUMA from each of its CPUs, and with
NUMA from `connect_cpu_mem_topo` if it has one node.
-/

namespace Irqbalance

variable {K : Env} {m : Machine} {used : CpuDir → Prop}

/-- The tree over the nodes of `s₀` while directories that meet `used` are read. -/
structure Labelled (K : Env) (used : CpuDir → Prop) (s₀ s : State) : Prop where
  cpu : ∀ o < s.nextObj, (s.objs o).objType = .cpu → ∃ n : ℕ, (s.objs o).number = n ∧ (s.objs o).mask = cpumaskOfCpu n
  package : ∀ o < s.nextObj, (s.objs o).objType = .package → ∃ d, used d ∧
    (s.objs o).mask = d.usablePackage K s₀ ∧ (s.objs o).number = d.physicalPackageId.getD 0
  top : ∀ o, (s.objs o).objType = .package ∨ (s.objs o).objType = .node → ∀ n, (s.objs o).parent = some n →
    K.numaAvail = false ∧ n ∈ (s.objs o).numaNodes

section Growing

variable {s₀ s s' : State} {o c x : ObjRef} {obj : TopoObj} {d : CpuDir}

/-- Links keep the labels. -/
theorem Labelled.linked (labelled : Labelled K used s₀ s) (linked : Linked s s')
    (top : ∀ o, (s.objs o).objType = .package ∨ (s.objs o).objType = .node → ∀ n, (s'.objs o).parent = some n →
      K.numaAvail = false ∧ n ∈ (s'.objs o).numaNodes) : Labelled K used s₀ s' where
  cpu o known type := by
    rw [linked.nextObj] at known
    rw [linked.objType] at type
    rw [linked.number, linked.mask]
    exact labelled.cpu o known type
  package o known type := by
    rw [linked.nextObj] at known
    rw [linked.objType] at type
    rw [linked.number, linked.mask]
    exact labelled.package o known type
  top o type := by
    rw [linked.objType] at type
    exact top o type

theorem Labelled.created (labelled : Labelled K used s₀ s) (created : Created s s' obj) (parent : obj.parent = none)
    (cpu : obj.objType = .cpu → ∃ n : ℕ, obj.number = n ∧ obj.mask = cpumaskOfCpu n)
    (package : obj.objType = .package → ∃ d, used d ∧ obj.mask = d.usablePackage K s₀ ∧
      obj.number = d.physicalPackageId.getD 0) : Labelled K used s₀ s' := by
  have cases (o : ObjRef) (known : o < s'.nextObj) : (o < s.nextObj ∧ s'.objs o = s.objs o) ∨ s'.objs o = obj := by
    rw [created.nextObj] at known
    rcases Nat.lt_succ_iff_lt_or_eq.mp known with old | rfl
    · exact .inl ⟨old, created.old old⟩
    · exact .inr created.new
  constructor
  · intro o known type
    rcases cases o known with ⟨old, same⟩ | new
    · rw [same] at type ⊢
      exact labelled.cpu o old type
    · rw [new] at type ⊢
      exact cpu type
  · intro o known type
    rcases cases o known with ⟨old, same⟩ | new
    · rw [same] at type ⊢
      exact labelled.package o old type
    · rw [new] at type ⊢
      exact package type
  · intro o type n link
    by_cases new : o = s.nextObj
    · subst new
      rw [created.new, parent] at link
      contradiction
    · rw [created.objs, Function.update_of_ne new] at type link ⊢
      exact labelled.top o type n link

/-- A CPU or a cache domain is adopted. -/
theorem Labelled.adoptChild (labelled : Labelled K used s₀ s) (linked : Linked s (adoptChild o c s))
    (inner : (s.objs c).objType = .cpu ∨ (s.objs c).objType = .cache) : Labelled K used s₀ (adoptChild o c s) := by
  refine labelled.linked linked fun x type n link => ?_
  have other : x ≠ c := by
    rintro rfl
    rcases type with type | type <;> rw [type] at inner <;> simp at inner
  rw [adoptChild_parent, if_neg fun both => other both.1] at link
  rw [adoptChild_numaNodes]
  exact labelled.top x type n link

/-- Without NUMA the node that is recorded for a package becomes its parent. -/
theorem Labelled.recordNode {nodeid : ℤ} (labelled : Labelled K used s₀ s)
    (linked : Linked s (recordNode K o nodeid s)) : Labelled K used s₀ (recordNode K o nodeid s) := by
  refine labelled.linked linked fun x type n link => ?_
  have listed {node : ObjRef} (before : (s.objs x).parent = some n) :
      K.numaAvail = false ∧ n ∈ ((listNode o node s).objs x).numaNodes := by
    obtain ⟨numa, member⟩ := labelled.top x type n before
    refine ⟨numa, ?_⟩
    rw [listNode_links.2.2]
    split
    · rename_i own
      rw [← own, mem_insertNew]
      exact .inl member
    · exact member
  rw [recordNode_eq] at link ⊢
  cases found : recordedNode K nodeid s with
  | none =>
    rw [found] at link
    exact labelled.top x type n link
  | some node =>
    rw [found] at link
    dsimp only at link ⊢
    split at link
    · rename_i package
      rw [if_pos package, adoptChild_numaNodes]
      rw [adoptChild_parent] at link
      split at link
      · rename_i own
        obtain rfl := Option.some.inj link
        refine ⟨package.1, ?_⟩
        rw [own.1, listNode_links.2.2, if_pos rfl, mem_insertNew]
        exact .inr rfl
      · exact listed (listNode_links.2.1.symm.trans link)
    · rename_i other
      rw [if_neg other]
      exact listed (listNode_links.2.1.symm.trans link)

/-- What `add_cpu_to_cache_domain` and `add_cache_domain_to_package` do with the object they find. -/
theorem Labelled.attach (nodeid : ℤ) (labelled : Labelled K used s₀ s) (shaped : Shaped s)
    (allocated : o < s.nextObj) (known : c < s.nextObj)
    (attachable : (s.objs o).objType = .package ∨ (s.objs o).objType = .cache)
    (nests : (s.objs o).objType.nests (s.objs c).objType) :
    Labelled K used s₀ (Irqbalance.recordNode K o nodeid (Irqbalance.adoptChild o c s)) := by
  have linked := adoptChild_linked shaped allocated known nests
  have inner : (s.objs c).objType = .cpu ∨ (s.objs c).objType = .cache := by
    revert nests
    rcases attachable with type | type <;> rw [type] <;> cases (s.objs c).objType <;> simp [ObjType.nests]
  refine (labelled.adoptChild linked inner).recordNode (recordNode_linked linked.shaped ?_ nodeid ?_)
  · rw [linked.nextObj]
    exact allocated
  · rw [linked.objType]
    exact attachable

theorem Labelled.findCacheDomain (labelled : Labelled K used s₀ s) (mask : CpuMask) :
    Labelled K used s₀ (findCacheDomain mask s).2 := by
  rcases findCacheDomain_cases (s := s) mask with ⟨same, _⟩ | ⟨_, _, _, created⟩
  · rw [same]
    exact labelled
  · exact labelled.created created rfl (fun type => by contradiction) fun type => by contradiction

theorem Labelled.findPackage (labelled : Labelled K used s₀ s) (use : used d) :
    Labelled K used s₀ (findPackage (d.physicalPackageId.getD 0) (d.usablePackage K s₀) s).2 := by
  rcases findPackage_cases (s := s) (d.physicalPackageId.getD 0) (d.usablePackage K s₀) with
    ⟨same, _⟩ | ⟨_, _, _, created⟩
  · rw [same]
    exact labelled
  · exact labelled.created created rfl (fun type => by contradiction) fun _ => ⟨d, use, rfl, rfl⟩

theorem Labelled.cacheStep (labelled : Labelled K used s₀ s) (shaped : Shaped s) (banning : Banning s)
    (usable : d.usable m s.bannedCpus = true) : Labelled K used s₀ (cacheStep K d s).2 := by
  have allocated := allocCpu_extended m d shaped usable
  have fresh : s.nextObj < ((s.setOnline d).allocObj d.obj).2.nextObj := Nat.lt_succ_self _
  have cpuType : (((s.setOnline d).allocObj d.obj).2.objs s.nextObj).objType = .cpu :=
    congrArg TopoObj.objType (setOnline_created (s := s) d).new
  have labelled₁ := labelled.created (setOnline_created (s := s) d) rfl (fun _ => ⟨d.number, rfl, rfl⟩)
    fun type => by contradiction
  unfold Irqbalance.cacheStep addCpuToCacheDomain
  generalize ((s.setOnline d).allocObj d.obj).2 = s₁ at allocated fresh cpuType labelled₁ ⊢
  have free : d.usableCache K s &&& s₁.bannedCpus = CPU_MASK_NONE := by
    rw [allocated.bannedCpus]
    exact banning.and_unbanned (d.cacheMask K.deepestCache)
  obtain ⟨found, member⟩ := findCacheDomain_extended allocated.shaped free
  have labelled₂ := labelled₁.findCacheDomain (d.usableCache K s)
  generalize Irqbalance.findCacheDomain (d.usableCache K s) s₁ = result at found member labelled₂ ⊢
  obtain ⟨cache, s₂⟩ := result
  obtain ⟨known, cacheType⟩ := found.shaped.cacheDomains cache member
  refine labelled₂.attach _ found.shaped known (fresh.trans_le found.nextObj) (.inr cacheType) ?_
  rw [cacheType, found.objType _ fresh, cpuType]
  trivial

theorem Labelled.doOneCpu (labelled : Labelled K used s₀ s) (shaped₀ : Shaped s₀) (extended : Extended s₀ s)
    (banning : Banning s) (m : Machine) (d : CpuDir) (use : d.usable m s.bannedCpus = true → used d) :
    Labelled K used s₀ (doOneCpu K m d s) := by
  have shaped := extended.shaped
  cases usable : d.usable m s.bannedCpus with
  | false =>
    rcases doOneCpu_unusable (K := K) m d usable with same | online
    · rw [same]
      exact labelled
    · rw [online]
      exact ⟨labelled.cpu, labelled.package, labelled.top⟩
  | true =>
    have cached := labelled.cacheStep (m := m) shaped banning usable
    obtain ⟨grown, member, _, _⟩ := cacheStep_extended (K := K) m d shaped banning usable
    have free : d.usablePackage K s &&& (Irqbalance.cacheStep K d s).2.bannedCpus = CPU_MASK_NONE := by
      rw [grown.bannedCpus]
      exact banning.and_unbanned (d.packageMask K s)
    rw [doOneCpu_usable m d usable]
    rw [extended.usablePackage shaped₀] at free ⊢
    generalize Irqbalance.cacheStep K d s = result at cached grown member free ⊢
    obtain ⟨cache, s₁⟩ := result
    dsimp only at cached grown member free ⊢
    obtain ⟨found, listed⟩ := findPackage_extended grown.shaped (d.physicalPackageId.getD 0) free
    have packaged := cached.findPackage (use usable)
    unfold addCacheDomainToPackage
    generalize Irqbalance.findPackage (d.physicalPackageId.getD 0) (d.usablePackage K s₀) s₁ = result
      at found listed packaged ⊢
    obtain ⟨package, s₂⟩ := result
    obtain ⟨known, packageType⟩ := found.shaped.packages package listed
    obtain ⟨knownCache, cacheType⟩ := found.shaped.cacheDomains cache (found.cacheDomains cache member)
    have attached := packaged.attach (d.nodeid K) found.shaped known knownCache (.inl packageType)
      (by rw [packageType, cacheType]; trivial)
    exact ⟨attached.cpu, attached.package, attached.top⟩

/-- The tree before the packages are connected. -/
theorem Labelled.forEach_doOneCpu (m : Machine) (shaped₀ : Shaped s₀) (banning : Banning s₀) (bare : Bare s₀)
    (nodes : ∀ o < s₀.nextObj, (s₀.objs o).objType = .node) :
    Labelled K (fun d => d ∈ m.cpuDirs ∧ d.usable m s₀.bannedCpus = true) s₀
      (forEach m.cpuDirs (Irqbalance.doOneCpu K m) s₀) := by
  have start : Labelled K (fun d => d ∈ m.cpuDirs ∧ d.usable m s₀.bannedCpus = true) s₀ s₀ := by
    refine ⟨fun o known type => ?_, fun o known type => ?_, fun o type n link => ?_⟩
    · rw [nodes o known] at type
      contradiction
    · rw [nodes o known] at type
      contradiction
    · rw [bare.parent] at link
      contradiction
  refine (forEach_preserves (I := fun s => Labelled K (fun d => d ∈ m.cpuDirs ∧ d.usable m s₀.bannedCpus = true) s₀ s ∧
    Extended s₀ s) ⟨start, (Linked.refl shaped₀).extended⟩ fun d member s both => ?_).1
  obtain ⟨labelled, extended⟩ := both
  refine ⟨labelled.doOneCpu shaped₀ extended (extended.banning banning) m d fun usable => ⟨member, ?_⟩,
    extended.trans (doOneCpu_extended m d extended.shaped (extended.banning banning))⟩
  rw [← extended.bannedCpus]
  exact usable

end Growing

section Connecting

variable {s s' s'' : State} {p x n : ObjRef}

/-- Objects without a parent may get their only node as one. -/
structure Raised (s s' : State) : Prop where
  numaNodes : ∀ x, (s'.objs x).numaNodes = (s.objs x).numaNodes
  parent : ∀ x, (s'.objs x).parent = (s.objs x).parent ∨
    (s.objs x).parent = none ∧ ∃ n, (s.objs x).numaNodes = [n] ∧ (s'.objs x).parent = some n

theorem Raised.refl (s : State) : Raised s s := ⟨fun _ => rfl, fun _ => .inl rfl⟩

theorem Raised.trans (first : Raised s s') (second : Raised s' s'') : Raised s s'' where
  numaNodes x := (second.numaNodes x).trans (first.numaNodes x)
  parent x := by
    rcases second.parent x with same | ⟨orphan, n, one, parent⟩
    · rw [same]
      exact first.parent x
    · rcases first.parent x with same | ⟨_, n', _, parent'⟩
      · rw [same] at orphan
        rw [first.numaNodes] at one
        exact .inr ⟨orphan, n, one, parent⟩
      · rw [orphan] at parent'
        contradiction

theorem Raised.kept (raised : Raised s s') (some : (s.objs x).parent ≠ none) : (s'.objs x).parent ≠ none := by
  rcases raised.parent x with same | ⟨orphan, _⟩
  · rwa [same]
  · exact absurd orphan some

theorem connectCpuMemTopo_raised (fuel : ℕ) (p : ObjRef) (s : State) : Raised s (connectCpuMemTopo fuel p s) := by
  induction fuel generalizing p s with
  | zero => exact .refl s
  | succ fuel ih =>
    rw [connectCpuMemTopo]
    split
    · exact .refl s
    · rename_i n one
      have added (s : State) : Raised s (if p ∈ (s.objs n).children then s else s.addChild n p) := by
        split
        · exact .refl s
        · exact ⟨fun x => addChild_links.2.2, fun x => .inl addChild_links.2.1⟩
      refine Raised.trans ?_ (added _)
      split
      · rename_i orphan
        refine ⟨fun x => setParent_links.2.2, fun x => ?_⟩
        rw [setParent_links.2.1]
        split
        · rename_i own
          rw [own]
          exact .inr ⟨Option.isNone_iff_eq_none.mp (Bool.and_eq_true_iff.mp orphan).2, n, one, rfl⟩
        · exact .inl rfl
      · exact .refl s
    · exact forEach_preserves (I := Raised s) (.refl s) fun c _ s' raised => raised.trans (ih c s')

/-- A package with one node has a parent once it is connected. -/
theorem connectCpuMemTopo_parent (fuel : ℕ) (type : (s.objs p).objType = .package)
    (one : (s.objs p).numaNodes = [n]) : ((connectCpuMemTopo (fuel + 1) p s).objs p).parent ≠ none := by
  rw [connectCpuMemTopo, one]
  dsimp only
  have added (s : State) : ((if p ∈ (s.objs n).children then s else s.addChild n p).objs p).parent =
      (s.objs p).parent := by
    split
    · rfl
    · exact addChild_links.2.1
  rw [added]
  split
  · rw [setParent_links.2.1, if_pos rfl]
    exact Option.some_ne_none n
  · rename_i parented
    rw [type] at parented
    simpa [Option.isNone_iff_eq_none] using parented

theorem forEach_connectCpuMemTopo_raised (shaped : Shaped s) :
    Raised s (forEach s.packages (connectCpuMemTopo 3) s) ∧ ∀ p ∈ s.packages, ∀ n, (s.objs p).numaNodes = [n] →
      ((forEach s.packages (connectCpuMemTopo 3) s).objs p).parent ≠ none := by
  have visit (l : List ObjRef) (known : ∀ p ∈ l, p < s.nextObj) : ∀ p ∈ l, ∀ s', Linked s s' ∧ Raised s s' →
      Linked s (connectCpuMemTopo 3 p s') ∧ Raised s (connectCpuMemTopo 3 p s') := by
    intro p member s' both
    refine ⟨both.1.trans (connectCpuMemTopo_linked 3 both.1.shaped ?_),
      both.2.trans (connectCpuMemTopo_raised 3 p s')⟩
    rw [both.1.nextObj]
    exact known p member
  have steps := visit s.packages fun p member => (shaped.packages p member).1
  refine ⟨(forEach_preserves (I := fun s' => Linked s s' ∧ Raised s s') ⟨.refl shaped, .refl s⟩ steps).2, ?_⟩
  intro p member n one
  refine forEach_establishes (I := fun s' => Linked s s' ∧ Raised s s') (Q := fun s' => (s'.objs p).parent ≠ none)
    member ⟨.refl shaped, .refl s⟩ steps ?_ ?_
  · rintro s' ⟨linked, raised⟩
    refine connectCpuMemTopo_parent (n := n) 2 ?_ ?_
    · rw [linked.objType]
      exact (shaped.packages p member).2
    · rw [raised.numaNodes]
      exact one
  · intro p' _ s' _ some
    exact (connectCpuMemTopo_raised 3 p' s').kept some

end Connecting

end Irqbalance
