import Irqbalance.Proofs.Shape
import Mathlib.Data.List.Find

/-! # Which links one CPU adds to the tree

`Joined` says everything that `do_one_cpu` does with children, parents and recorded nodes for a CPU
that is used: the CPU joins one cache domain, the cache domain joins one package unless it has joined
it before, and the node of the CPU is recorded for both.
-/

namespace Irqbalance

variable {K : Env}

/-- Append what is not listed yet. -/
def insertNew (x : ObjRef) (l : List ObjRef) : List ObjRef := if x ∈ l then l else l ++ [x]

theorem mem_insertNew {x y : ObjRef} {l : List ObjRef} : y ∈ insertNew x l ↔ y ∈ l ∨ y = x := by
  unfold insertNew
  split
  · rename_i listed
    exact ⟨.inl, fun either => either.elim id fun same => same ▸ listed⟩
  · rw [List.mem_append, List.mem_singleton]

/-- The node that is recorded for the objects of a CPU. -/
def recordedNode (K : Env) (nodeid : ℤ) (s : State) : Option ObjRef :=
  if !K.numaAvail || decide (nodeid > NUMA_NO_NODE) then
    (getNumaNode K nodeid s).filter fun n => !(K.numaAvail && (s.objs n).number == NUMA_NO_NODE)
  else none

/-- A recorded node is a node. -/
theorem recordedNode_mem {s : State} {n : ObjRef} {nodeid : ℤ} (node : recordedNode K nodeid s = some n) :
    n ∈ s.numaNodes := by
  unfold recordedNode at node
  split at node
  · exact List.mem_of_find?_eq_some (Option.filter_eq_some_iff.mp node).1
  · contradiction

/-- A recorded node is a given one or, without NUMA, the only one. -/
theorem recordedNode_specified {s : State} {n : ObjRef} {nodeid : ℤ} (node : recordedNode K nodeid s = some n) :
    (s.objs n).number ≠ NUMA_NO_NODE ∨ K.numaAvail = false := by
  unfold recordedNode at node
  split at node
  · have specified := (Option.filter_eq_some_iff.mp node).2
    cases numa : K.numaAvail with
    | false => exact .inr rfl
    | true =>
      simp only [numa, Bool.true_and, Bool.not_eq_true', beq_eq_false_iff_ne] at specified
      exact .inl specified
  · contradiction

/-- The links of an object. -/
structure SameLinks (s s' : State) : Prop where
  children : ∀ x, (s'.objs x).children = (s.objs x).children
  parent : ∀ x, (s'.objs x).parent = (s.objs x).parent
  numaNodes : ∀ x, (s'.objs x).numaNodes = (s.objs x).numaNodes

section Linking

variable {s s' s'' : State} {o c x : ObjRef} {obj : TopoObj} {nodeid : ℤ}

theorem SameLinks.refl (s : State) : SameLinks s s := ⟨fun _ => rfl, fun _ => rfl, fun _ => rfl⟩

theorem Created.sameLinks (created : Created s s' obj) (shaped : Shaped s) (children : obj.children = [])
    (parent : obj.parent = none) (numaNodes : obj.numaNodes = []) : SameLinks s s' := by
  have blank : s.objs s.nextObj = {} := (shaped.obj s.nextObj).fresh le_rfl
  have field {β : Type} (f : TopoObj → β) (same : f obj = f {}) (x : ObjRef) : f (s'.objs x) = f (s.objs x) := by
    by_cases new : x = s.nextObj
    · subst new
      rw [created.new, blank, same]
    · rw [created.objs, Function.update_of_ne new]
  exact ⟨field TopoObj.children children, field TopoObj.parent parent, field TopoObj.numaNodes numaNodes⟩

theorem addChild_links : ((s.addChild o c).objs x).children =
      (if x = o then (s.objs o).children ++ [c] else (s.objs x).children) ∧
    ((s.addChild o c).objs x).parent = (s.objs x).parent ∧
      ((s.addChild o c).objs x).numaNodes = (s.objs x).numaNodes := by
  by_cases own : x = o
  · subst own
    simp [State.addChild, State.setObj]
  · simp [State.addChild, State.setObj, own]

theorem setParent_links {p : Option ObjRef} :
    ((s.setObj c { s.objs c with parent := p }).objs x).children = (s.objs x).children ∧
      ((s.setObj c { s.objs c with parent := p }).objs x).parent = (if x = c then p else (s.objs x).parent) ∧
        ((s.setObj c { s.objs c with parent := p }).objs x).numaNodes = (s.objs x).numaNodes := by
  by_cases own : x = c
  · subst own
    simp [State.setObj]
  · simp [State.setObj, own]

theorem addNode_links {n : ObjRef} :
    ((s.setObj o { s.objs o with numaNodes := (s.objs o).numaNodes ++ [n] }).objs x).children =
        (s.objs x).children ∧
      ((s.setObj o { s.objs o with numaNodes := (s.objs o).numaNodes ++ [n] }).objs x).parent =
          (s.objs x).parent ∧
        ((s.setObj o { s.objs o with numaNodes := (s.objs o).numaNodes ++ [n] }).objs x).numaNodes =
          (if x = o then (s.objs o).numaNodes ++ [n] else (s.objs x).numaNodes) := by
  by_cases own : x = o
  · subst own
    simp [State.setObj]
  · simp [State.setObj, own]

theorem adoptChild_children : ((adoptChild o c s).objs x).children =
    if x = o then insertNew c (s.objs o).children else (s.objs x).children := by
  unfold adoptChild insertNew
  split
  · split
    · rename_i same
      rw [same]
    · rfl
  · exact setParent_links.1.trans addChild_links.1

theorem adoptChild_parent : ((adoptChild o c s).objs x).parent =
    if x = c ∧ c ∉ (s.objs o).children then some o else (s.objs x).parent := by
  unfold adoptChild
  split
  · rename_i listed
    rw [if_neg fun both => both.2 listed]
  · rename_i unlisted
    apply setParent_links.2.1.trans
    by_cases own : x = c
    · rw [if_pos own, if_pos ⟨own, unlisted⟩]
    · rw [if_neg own, if_neg fun both => own both.1]
      exact addChild_links.2.1

theorem adoptChild_numaNodes : ((adoptChild o c s).objs x).numaNodes = (s.objs x).numaNodes := by
  unfold adoptChild
  split
  · rfl
  · exact setParent_links.2.2.trans addChild_links.2.2

/-- The object with the node appended to its nodes. -/
def listNode (o node : ObjRef) (s : State) : State :=
  if node ∈ (s.objs o).numaNodes then s
  else s.setObj o { s.objs o with numaNodes := (s.objs o).numaNodes ++ [node] }

theorem listNode_links {node : ObjRef} : ((listNode o node s).objs x).children = (s.objs x).children ∧
    ((listNode o node s).objs x).parent = (s.objs x).parent ∧ ((listNode o node s).objs x).numaNodes =
      if x = o then insertNew node (s.objs o).numaNodes else (s.objs x).numaNodes := by
  unfold listNode insertNew
  split
  · refine ⟨rfl, rfl, ?_⟩
    split
    · rename_i same
      rw [same]
    · rfl
  · exact addNode_links

theorem listNode_objType {node : ObjRef} : ((listNode o node s).objs x).objType = (s.objs x).objType := by
  unfold listNode
  split
  · rfl
  · apply setObj_field TopoObj.objType
    rfl

/-- `add_numa_node_to_topo_obj` and the condition around it. -/
theorem recordNode_eq : recordNode K o nodeid s =
    match recordedNode K nodeid s with
    | none => s
    | some node =>
      if K.numaAvail = false ∧ (s.objs o).objType = .package then adoptChild node o (listNode o node s)
      else listNode o node s := by
  unfold recordNode recordedNode addNumaNodeToTopoObj
  split
  · cases getNumaNode K nodeid s with
    | none => rfl
    | some node =>
      dsimp only
      rw [Option.filter_some]
      cases skip : K.numaAvail && (s.objs node).number == NUMA_NO_NODE with
      | true => rfl
      | false =>
        simp only [Bool.false_eq_true, if_false, Bool.not_false, if_true]
        change (if (!K.numaAvail && ((listNode o node s).objs o).objType == .package) = true then
          adoptChild node o (listNode o node s) else listNode o node s) = _
        rw [listNode_objType]
        refine if_congr ?_ rfl rfl
        rw [Bool.and_eq_true, Bool.not_eq_true', beq_iff_eq]
  · rfl

theorem recordNode_numaNodes : ((recordNode K o nodeid s).objs x).numaNodes =
    if x = o then (recordedNode K nodeid s).elim (s.objs o).numaNodes (insertNew · (s.objs o).numaNodes)
    else (s.objs x).numaNodes := by
  rw [recordNode_eq]
  cases recordedNode K nodeid s with
  | none =>
    dsimp only [Option.elim]
    split
    · rename_i same
      rw [same]
    · rfl
  | some node =>
    dsimp only [Option.elim]
    split
    · rw [adoptChild_numaNodes]
      exact listNode_links.2.2
    · exact listNode_links.2.2

/-- Without NUMA a package becomes a child of the node. -/
theorem recordNode_children : ((recordNode K o nodeid s).objs x).children =
    if K.numaAvail = false ∧ (s.objs o).objType = .package ∧ recordedNode K nodeid s = some x
    then insertNew o (s.objs x).children else (s.objs x).children := by
  rw [recordNode_eq]
  cases recordedNode K nodeid s with
  | none => simp
  | some node =>
    dsimp only
    by_cases package : K.numaAvail = false ∧ (s.objs o).objType = .package
    · rw [if_pos package, adoptChild_children]
      by_cases own : x = node
      · rw [if_pos own, if_pos ⟨package.1, package.2, congrArg some own.symm⟩, listNode_links.1, own]
      · rw [if_neg own, if_neg fun all => own (Option.some.inj all.2.2).symm, listNode_links.1]
    · rw [if_neg package, if_neg fun all => package ⟨all.1, all.2.1⟩, listNode_links.1]

theorem recordNode_parent (other : x ≠ o ∨ (s.objs o).objType ≠ .package) :
    ((recordNode K o nodeid s).objs x).parent = (s.objs x).parent := by
  rw [recordNode_eq]
  cases recordedNode K nodeid s with
  | none => rfl
  | some node =>
    dsimp only
    split
    · rename_i package
      rw [adoptChild_parent, if_neg fun both => other.elim (fun distinct => distinct both.1)
        fun unlike => unlike package.2]
      exact listNode_links.2.1
    · exact listNode_links.2.1

end Linking

section Joining

variable {s s' : State} {d : CpuDir} {m : Machine} {nodeid : ℤ}

theorem Extended.getNumaNode (extended : Extended s s') (shaped : Shaped s) :
    getNumaNode K nodeid s' = Irqbalance.getNumaNode K nodeid s := by
  unfold Irqbalance.getNumaNode
  rw [extended.numaNodes]
  refine List.find?_congr fun n node => ?_
  rw [extended.number n (shaped.numaNodes n node).1]

theorem Extended.recordedNode (extended : Extended s s') (shaped : Shaped s) :
    recordedNode K nodeid s' = Irqbalance.recordedNode K nodeid s := by
  unfold Irqbalance.recordedNode
  rw [extended.getNumaNode shaped]
  cases found : Irqbalance.getNumaNode K nodeid s with
  | none => rfl
  | some n =>
    have known := (shaped.numaNodes n (List.mem_of_find?_eq_some found)).1
    rw [Option.filter_some, Option.filter_some, extended.number n known]

theorem Extended.usablePackage (extended : Extended s s') (shaped : Shaped s) :
    d.usablePackage K s' = d.usablePackage K s := by
  unfold CpuDir.usablePackage CpuDir.packageMask
  rw [extended.unbannedCpus, extended.getNumaNode shaped]
  cases found : Irqbalance.getNumaNode K (d.nodeid K) s with
  | none => rfl
  | some n =>
    have known := (shaped.numaNodes n (List.mem_of_find?_eq_some found)).1
    dsimp only
    rw [extended.mask n known]

theorem Extended.usableCache (extended : Extended s s') : d.usableCache K s' = d.usableCache K s := by
  unfold CpuDir.usableCache
  rw [extended.unbannedCpus]

/-- Everything that `do_one_cpu` does for a CPU that is used. -/
structure Joined (K : Env) (d : CpuDir) (s s' : State) (cache package : ObjRef) : Prop where
  extended : Extended s s'
  cpus : s'.cpus = s.cpus ++ [s.nextObj]
  allocated : s.nextObj < s'.nextObj
  cpu : (s'.objs s.nextObj).objType = .cpu ∧ (s'.objs s.nextObj).number = d.number
  cacheMask : (s'.objs cache).mask = d.usableCache K s
  caches : (cache ∈ s.cacheDomains ∧ s'.cacheDomains = s.cacheDomains) ∨
    ((∀ o ∈ s.cacheDomains, (s.objs o).mask ≠ d.usableCache K s) ∧ s.nextObj < cache ∧
      s'.cacheDomains = s.cacheDomains ++ [cache])
  packageMask : (s'.objs package).mask = d.usablePackage K s
  packages : (package ∈ s.packages ∧ s'.packages = s.packages) ∨
    ((∀ o ∈ s.packages, (s.objs o).mask ≠ d.usablePackage K s) ∧ s.nextObj < package ∧
      s'.packages = s.packages ++ [package])
  children : ∀ x, (s'.objs x).children =
    if x = cache then insertNew s.nextObj (s.objs x).children
    else if x = package then insertNew cache (s.objs x).children
    else if K.numaAvail = false ∧ recordedNode K (d.nodeid K) s = some x then insertNew package (s.objs x).children
    else (s.objs x).children
  numaNodes : ∀ x, (s'.objs x).numaNodes =
    if x = cache ∨ x = package then (recordedNode K (d.nodeid K) s).elim (s.objs x).numaNodes
      (insertNew · (s.objs x).numaNodes)
    else (s.objs x).numaNodes
  cpuParent : (s'.objs s.nextObj).parent = some cache
  parent : ∀ x, x ≠ s.nextObj → x ≠ package → (s'.objs x).parent =
    if x = cache ∧ cache ∉ (s.objs package).children then some package else (s.objs x).parent

/-- What has happened once the CPU has joined its cache domain. -/
structure CacheJoined (K : Env) (d : CpuDir) (s s' : State) (cache : ObjRef) : Prop where
  cpus : s'.cpus = s.cpus
  packages : s'.packages = s.packages
  number : (s'.objs s.nextObj).number = d.number
  cacheMask : (s'.objs cache).mask = d.usableCache K s
  caches : (cache ∈ s.cacheDomains ∧ s'.cacheDomains = s.cacheDomains) ∨
    ((∀ o ∈ s.cacheDomains, (s.objs o).mask ≠ d.usableCache K s) ∧ s.nextObj < cache ∧
      s'.cacheDomains = s.cacheDomains ++ [cache])
  children : ∀ x, (s'.objs x).children =
    if x = cache then insertNew s.nextObj (s.objs x).children else (s.objs x).children
  numaNodes : ∀ x, (s'.objs x).numaNodes =
    if x = cache then (recordedNode K (d.nodeid K) s).elim (s.objs x).numaNodes
      (insertNew · (s.objs x).numaNodes)
    else (s.objs x).numaNodes
  parent : ∀ x, (s'.objs x).parent = if x = s.nextObj then some cache else (s.objs x).parent

/-- The cache domain is found or created without links. -/
theorem findCacheDomain_links (mask : CpuMask) (shaped : Shaped s) : SameLinks s (findCacheDomain mask s).2 ∧
    ((findCacheDomain mask s).2.objs (findCacheDomain mask s).1).mask = mask ∧
      (((findCacheDomain mask s).1 ∈ s.cacheDomains ∧ (findCacheDomain mask s).2.cacheDomains = s.cacheDomains) ∨
        ((∀ o ∈ s.cacheDomains, (s.objs o).mask ≠ mask) ∧ (findCacheDomain mask s).1 = s.nextObj ∧
          (findCacheDomain mask s).2.cacheDomains = s.cacheDomains ++ [(findCacheDomain mask s).1])) := by
  rcases findCacheDomain_cases (s := s) mask with ⟨same, old, found⟩ | ⟨absent, fresh, listed, created⟩
  · rw [same]
    exact ⟨.refl s, found, .inl ⟨old, rfl⟩⟩
  · refine ⟨created.sameLinks shaped rfl rfl rfl, by rw [fresh, created.new], .inr ⟨absent, fresh, ?_⟩⟩
    rw [fresh]
    exact listed

/-- The package is found or created without links. -/
theorem findPackage_links (packageid : ℤ) (mask : CpuMask) (shaped : Shaped s) :
    SameLinks s (findPackage packageid mask s).2 ∧
      ((findPackage packageid mask s).2.objs (findPackage packageid mask s).1).mask = mask ∧
        (((findPackage packageid mask s).1 ∈ s.packages ∧ (findPackage packageid mask s).2.packages = s.packages) ∨
          ((∀ o ∈ s.packages, (s.objs o).mask ≠ mask) ∧ (findPackage packageid mask s).1 = s.nextObj ∧
            (findPackage packageid mask s).2.packages = s.packages ++ [(findPackage packageid mask s).1])) := by
  rcases findPackage_cases (s := s) packageid mask with ⟨same, old, found⟩ | ⟨absent, fresh, listed, created⟩
  · rw [same]
    exact ⟨.refl s, found, .inl ⟨old, rfl⟩⟩
  · refine ⟨created.sameLinks shaped rfl rfl rfl, by rw [fresh, created.new], .inr ⟨absent, fresh, ?_⟩⟩
    rw [fresh]
    exact listed

theorem recordNode_frame (o : ObjRef) (nodeid : ℤ) : (recordNode K o nodeid s).cpus = s.cpus ∧
    (recordNode K o nodeid s).packages = s.packages ∧ (recordNode K o nodeid s).cacheDomains = s.cacheDomains := by
  have adopted (o c : ObjRef) (s : State) : (adoptChild o c s).cpus = s.cpus ∧
      (adoptChild o c s).packages = s.packages ∧ (adoptChild o c s).cacheDomains = s.cacheDomains := by
    unfold adoptChild
    split <;> exact ⟨rfl, rfl, rfl⟩
  have listed (n : ObjRef) : (listNode o n s).cpus = s.cpus ∧
      (listNode o n s).packages = s.packages ∧ (listNode o n s).cacheDomains = s.cacheDomains := by
    unfold listNode
    split <;> exact ⟨rfl, rfl, rfl⟩
  rw [recordNode_eq]
  split
  · exact ⟨rfl, rfl, rfl⟩
  · rename_i node _
    split
    · obtain ⟨cpus, packages, caches⟩ := adopted node o (listNode o node s)
      exact ⟨cpus.trans (listed node).1, packages.trans (listed node).2.1, caches.trans (listed node).2.2⟩
    · exact listed node

theorem cacheStep_joined (m : Machine) (d : CpuDir) (shaped : Shaped s) (banning : Banning s)
    (usable : d.usable m s.bannedCpus = true) :
    CacheJoined K d s (cacheStep K d s).2 (cacheStep K d s).1 := by
  have created := setOnline_created (s := s) d
  have allocated := allocCpu_extended m d shaped usable
  have links₁ := created.sameLinks shaped rfl rfl rfl
  have cpuObj : ((s.setOnline d).allocObj d.obj).2.objs s.nextObj = d.obj := created.new
  have lists₁ : ((s.setOnline d).allocObj d.obj).2.cpus = s.cpus ∧
      ((s.setOnline d).allocObj d.obj).2.packages = s.packages ∧
        ((s.setOnline d).allocObj d.obj).2.cacheDomains = s.cacheDomains := ⟨rfl, rfl, rfl⟩
  have next₁ : ((s.setOnline d).allocObj d.obj).2.nextObj = s.nextObj + 1 := rfl
  unfold cacheStep addCpuToCacheDomain
  generalize ((s.setOnline d).allocObj d.obj).2 = s₁ at allocated links₁ cpuObj lists₁ next₁ ⊢
  have known : s.nextObj < s₁.nextObj := by rw [next₁]; exact Nat.lt_succ_self _
  have free : d.usableCache K s &&& s₁.bannedCpus = CPU_MASK_NONE := by
    rw [allocated.bannedCpus]
    exact banning.and_unbanned (d.cacheMask K.deepestCache)
  obtain ⟨found, member⟩ := findCacheDomain_extended allocated.shaped free
  obtain ⟨_, _, packages, cpus⟩ := findCacheDomain_frame (s := s₁) (d.usableCache K s)
  obtain ⟨links₂, mask, caches⟩ := findCacheDomain_links (d.usableCache K s) allocated.shaped
  generalize findCacheDomain (d.usableCache K s) s₁ = result at found member packages cpus links₂ mask caches ⊢
  obtain ⟨cache, s₂⟩ := result
  dsimp only at found member packages cpus links₂ mask caches ⊢
  obtain ⟨allocatedCache, cacheType⟩ := found.shaped.cacheDomains cache member
  have nests : (s₂.objs cache).objType.nests (s₂.objs s.nextObj).objType := by
    rw [cacheType, found.objType _ known, cpuObj]
    trivial
  have linked := adoptChild_linked found.shaped allocatedCache (known.trans_le found.nextObj) nests
  have grown : Extended s (adoptChild cache s.nextObj s₂) := allocated.trans (found.trans linked.extended)
  have recorded := recordNode_linked (K := K) (o := cache) linked.shaped
    (by rw [linked.nextObj]; exact allocatedCache) (d.nodeid K) (by rw [linked.objType]; exact .inr cacheType)
  obtain ⟨cpus₄, packages₄, caches₄⟩ := recordNode_frame (K := K) (s := adoptChild cache s.nextObj s₂)
    cache (d.nodeid K)
  have masks (o : ObjRef) (old : o < s.nextObj) : (s₁.objs o).mask = (s.objs o).mask := allocated.mask o old
  refine ⟨?_, ?_, ?_, ?_, ?_, fun x => ?_, fun x => ?_, fun x => ?_⟩
  · rw [cpus₄, linked.cpus, cpus, lists₁.1]
  · rw [packages₄, linked.packages, packages, lists₁.2.1]
  · rw [recorded.number, linked.number, found.number _ known, cpuObj]
    rfl
  · rw [recorded.mask, linked.mask, mask]
  · rw [caches₄, linked.cacheDomains]
    rw [lists₁.2.2] at caches
    refine caches.imp_right fun ⟨absent, fresh, listed⟩ => ⟨fun o old => ?_, by rw [fresh]; exact known, listed⟩
    rw [← masks o (shaped.cacheDomains o old).1]
    exact absent o old
  · have notPackage : ¬ (K.numaAvail = false ∧ ((adoptChild cache s.nextObj s₂).objs cache).objType = .package ∧
        recordedNode K (d.nodeid K) (adoptChild cache s.nextObj s₂) = some x) := by
      rw [linked.objType, cacheType]
      rintro ⟨_, same, _⟩
      contradiction
    rw [recordNode_children, if_neg notPackage, adoptChild_children, links₂.children, links₂.children,
      links₁.children, links₁.children]
    split
    · rename_i same
      rw [same]
    · rfl
  · rw [recordNode_numaNodes, grown.recordedNode shaped, adoptChild_numaNodes, adoptChild_numaNodes,
      links₂.numaNodes, links₂.numaNodes, links₁.numaNodes, links₁.numaNodes]
    split
    · rename_i same
      rw [same]
    · rfl
  · have notPackage : ((adoptChild cache s.nextObj s₂).objs cache).objType ≠ .package := by
      rw [linked.objType, cacheType]
      decide
    have unlisted : s.nextObj ∉ (s₂.objs cache).children := by
      rw [links₂.children, links₁.children]
      exact fun child => absurd ((shaped.obj cache).children _ child).1 (lt_irrefl _)
    rw [recordNode_parent (.inr notPackage), adoptChild_parent, links₂.parent, links₁.parent]
    refine if_congr ?_ rfl rfl
    exact ⟨fun both => both.1, fun same => ⟨same, unlisted⟩⟩

/-- What has happened once the cache domain has joined its package. -/
structure PackageJoined (K : Env) (nodeid : ℤ) (mask : CpuMask) (cache : ObjRef) (s s' : State) (package : ObjRef) :
    Prop where
  cpus : s'.cpus = s.cpus
  cacheDomains : s'.cacheDomains = s.cacheDomains
  objType : ∀ o < s.nextObj, (s'.objs o).objType = (s.objs o).objType
  packageType : (s'.objs package).objType = .package
  packageMask : (s'.objs package).mask = mask
  packages : (package ∈ s.packages ∧ s'.packages = s.packages) ∨
    ((∀ o ∈ s.packages, (s.objs o).mask ≠ mask) ∧ package = s.nextObj ∧ s'.packages = s.packages ++ [package])
  children : ∀ x, (s'.objs x).children =
    if K.numaAvail = false ∧ recordedNode K nodeid s = some x then
      insertNew package (if x = package then insertNew cache (s.objs x).children else (s.objs x).children)
    else if x = package then insertNew cache (s.objs x).children else (s.objs x).children
  numaNodes : ∀ x, (s'.objs x).numaNodes =
    if x = package then (recordedNode K nodeid s).elim (s.objs x).numaNodes (insertNew · (s.objs x).numaNodes)
    else (s.objs x).numaNodes
  parent : ∀ x, x ≠ package → (s'.objs x).parent =
    if x = cache ∧ cache ∉ (s.objs package).children then some package else (s.objs x).parent

theorem addCacheDomainToPackage_joined {cache : ObjRef} {mask : CpuMask} (shaped : Shaped s)
    (member : cache ∈ s.cacheDomains) (free : mask &&& s.bannedCpus = CPU_MASK_NONE) (packageid nodeid : ℤ) :
    ∃ package, PackageJoined K nodeid mask cache s
      (addCacheDomainToPackage K cache packageid mask nodeid s) package := by
  obtain ⟨found, listed⟩ := findPackage_extended shaped packageid free
  obtain ⟨_, _, caches, cpus⟩ := findPackage_frame (s := s) packageid mask
  obtain ⟨links, packageMask, packages⟩ := findPackage_links packageid mask shaped
  unfold addCacheDomainToPackage
  generalize findPackage packageid mask s = result at found listed caches cpus links packageMask packages ⊢
  obtain ⟨package, s₅⟩ := result
  dsimp only at found listed caches cpus links packageMask packages ⊢
  obtain ⟨allocatedPackage, packageType⟩ := found.shaped.packages package listed
  obtain ⟨allocatedCache, cacheType⟩ := found.shaped.cacheDomains cache (found.cacheDomains cache member)
  have nests : (s₅.objs package).objType.nests (s₅.objs cache).objType := by
    rw [packageType, cacheType]
    trivial
  have linked := adoptChild_linked found.shaped allocatedPackage allocatedCache nests
  have grown : Extended s (adoptChild package cache s₅) := found.trans linked.extended
  have recorded := recordNode_linked (K := K) (o := package) linked.shaped
    (by rw [linked.nextObj]; exact allocatedPackage) nodeid (by rw [linked.objType]; exact .inl packageType)
  obtain ⟨cpus₇, packages₇, caches₇⟩ := recordNode_frame (K := K) (s := adoptChild package cache s₅) package nodeid
  have type (o : ObjRef) : ((recordNode K package nodeid (adoptChild package cache s₅)).objs o).objType =
      (s₅.objs o).objType := by
    rw [recorded.objType, linked.objType]
  have distinct : package ≠ cache := by
    rintro rfl
    rw [packageType] at cacheType
    contradiction
  refine ⟨package, ?_, ?_, fun o allocated => ?_, ?_, ?_, ?_, fun x => ?_, fun x => ?_, fun x own => ?_⟩
  · rw [cpus₇, linked.cpus, cpus]
  · rw [caches₇, linked.cacheDomains, caches]
  · rw [type, found.objType o allocated]
  · rw [type, packageType]
  · rw [recorded.mask, linked.mask, packageMask]
  · rw [packages₇, linked.packages]
    exact packages
  · have childrenPackage : ((adoptChild package cache s₅).objs x).children =
        if x = package then insertNew cache (s.objs x).children else (s.objs x).children := by
      rw [adoptChild_children, links.children, links.children]
      split
      · rename_i same
        rw [same]
      · rfl
    rw [recordNode_children, grown.recordedNode shaped, linked.objType, packageType, childrenPackage]
    refine if_congr ?_ rfl rfl
    exact ⟨fun all => ⟨all.1, all.2.2⟩, fun both => ⟨both.1, rfl, both.2⟩⟩
  · rw [recordNode_numaNodes, grown.recordedNode shaped, adoptChild_numaNodes, adoptChild_numaNodes,
      links.numaNodes, links.numaNodes]
    split
    · rename_i same
      rw [same]
    · rfl
  · rw [recordNode_parent (.inl own), adoptChild_parent, links.children, links.parent]

theorem doOneCpu_joined (m : Machine) (d : CpuDir) (shaped : Shaped s) (banning : Banning s)
    (usable : d.usable m s.bannedCpus = true) :
    ∃ cache package, Joined K d s (doOneCpu K m d s) cache package := by
  have whole := doOneCpu_extended (K := K) m d shaped banning
  have joined := cacheStep_joined (K := K) m d shaped banning usable
  obtain ⟨extended, member, known, cpuType⟩ := cacheStep_extended (K := K) m d shaped banning usable
  have free : d.usablePackage K s &&& (cacheStep K d s).2.bannedCpus = CPU_MASK_NONE := by
    rw [extended.bannedCpus]
    exact banning.and_unbanned (d.packageMask K s)
  obtain ⟨package, packaged⟩ := addCacheDomainToPackage_joined (K := K) extended.shaped member free
    (d.physicalPackageId.getD 0) (d.nodeid K)
  have grown := addCacheDomainToPackage_extended (K := K) extended.shaped (d.physicalPackageId.getD 0) (d.nodeid K)
    member free
  rw [doOneCpu_usable m d usable] at whole ⊢
  generalize cacheStep K d s = result at joined extended member known cpuType packaged grown whole ⊢
  obtain ⟨cache, s₄⟩ := result
  dsimp only at joined extended member known cpuType packaged grown whole ⊢
  generalize addCacheDomainToPackage K cache (d.physicalPackageId.getD 0) (d.usablePackage K s) (d.nodeid K) s₄ = s₇
    at packaged grown whole ⊢
  obtain ⟨allocatedCache, cacheType⟩ := extended.shaped.cacheDomains cache member
  have cacheType : (s₇.objs cache).objType = .cache := (packaged.objType cache allocatedCache).trans cacheType
  have cpuType : (s₇.objs s.nextObj).objType = .cpu := (packaged.objType _ known).trans cpuType
  have packageType := packaged.packageType
  have distinct : cache ≠ package := by
    rintro rfl
    rw [packageType] at cacheType
    contradiction
  have notNode {x : ObjRef} (other : (s₇.objs x).objType ≠ .node) : recordedNode K (d.nodeid K) s ≠ some x := by
    intro node
    obtain ⟨allocated, type⟩ := shaped.numaNodes x (recordedNode_mem node)
    exact other ((packaged.objType x (allocated.trans_le extended.nextObj)).trans
      ((extended.objType x allocated).trans type))
  have notPackage : s.nextObj ≠ package := by
    rintro rfl
    rw [cpuType] at packageType
    contradiction
  have notCache : s.nextObj ≠ cache := by
    rintro rfl
    rw [cpuType] at cacheType
    contradiction
  refine ⟨cache, package, whole, ?_, known.trans_le grown.nextObj, ⟨cpuType, ?_⟩, ?_, ?_, packaged.packageMask, ?_,
    fun x => ?_, fun x => ?_, ?_, fun x other own => ?_⟩
  · change s₇.cpus ++ [s.nextObj] = _
    rw [packaged.cpus, joined.cpus]
  · change (s₇.objs s.nextObj).number = _
    rw [grown.number _ known, joined.number]
  · change (s₇.objs cache).mask = _
    rw [grown.mask cache allocatedCache, joined.cacheMask]
  · have listed := joined.caches
    rw [← packaged.cacheDomains] at listed
    exact listed
  · have listed := packaged.packages
    rw [joined.packages] at listed
    refine listed.imp_right fun ⟨absent, fresh, appended⟩ => ⟨fun o old => ?_, by rw [fresh]; exact known, appended⟩
    rw [← extended.mask o (shaped.packages o old).1]
    exact absent o old
  · change (s₇.objs x).children = _
    rw [packaged.children, extended.recordedNode shaped, joined.children]
    by_cases isCache : x = cache
    · subst isCache
      rw [if_neg fun both => notNode (by rw [cacheType]; decide) both.2, if_neg distinct, if_pos rfl, if_pos rfl]
    · by_cases isPackage : x = package
      · subst isPackage
        rw [if_neg fun both => notNode (by rw [packageType]; decide) both.2, if_pos rfl, if_neg isCache,
          if_neg isCache, if_pos rfl]
      · simp only [isCache, isPackage, if_false]
  · change (s₇.objs x).numaNodes = _
    rw [packaged.numaNodes, extended.recordedNode shaped, joined.numaNodes]
    by_cases isPackage : x = package
    · have notCache : x ≠ cache := fun isCache => distinct (isCache.symm.trans isPackage)
      have either : x = cache ∨ x = package := .inr isPackage
      rw [if_pos isPackage, if_neg notCache, if_pos either]
    · rw [if_neg isPackage]
      refine if_congr ?_ rfl rfl
      exact ⟨.inl, fun either => either.resolve_right isPackage⟩
  · change (s₇.objs s.nextObj).parent = _
    rw [packaged.parent _ notPackage, if_neg fun both => notCache both.1, joined.parent, if_pos rfl]
  · change (s₇.objs x).parent = _
    rw [packaged.parent _ own, joined.children, if_neg distinct.symm, joined.parent, if_neg other]

end Joining

end Irqbalance
