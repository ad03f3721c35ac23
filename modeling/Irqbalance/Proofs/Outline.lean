import Irqbalance.Proofs.Labels
import Mathlib.Data.Set.Function

/-! # The topology as a function of the sets of directories

`Outline` is what the directories of a machine say, without their order: which CPUs are used, under which
masks they look for their cache domain and their package, and which node is recorded. Objects are
recognised by type, mask and number. `Realises` says which objects and links the outline asks for, and
`parseCpuTree_realises` that the tree has exactly these if the CPUs of a cache domain agree on their
package.
-/

namespace Irqbalance

variable {K : Env} {m : Machine}

/-- What an object is recognised by. Cache domains are numbered in the order of their creation. -/
structure Identity where
  objType : ObjType
  mask : CpuMask
  number : Option ℤ
deriving DecidableEq

def identity (s : State) (o : ObjRef) : Identity where
  objType := (s.objs o).objType
  mask := (s.objs o).mask
  number := if (s.objs o).objType = .cache then none else some (s.objs o).number

/-- The identities of the objects of a list. -/
def identities (s : State) (l : List ObjRef) : Set Identity := identity s '' {o | o ∈ l}

/-- The objects of a tree. -/
def members (s : State) : List ObjRef := s.cpus ++ s.cacheDomains ++ s.packages ++ s.numaNodes

/-- One topology, up to the order of lists and the numbers of cache domains. -/
structure SameTopology (s s' : State) : Prop where
  identified : Set.InjOn (identity s) {o | o ∈ members s}
  identified' : Set.InjOn (identity s') {o | o ∈ members s'}
  cpus : identities s s.cpus = identities s' s'.cpus
  cacheDomains : identities s s.cacheDomains = identities s' s'.cacheDomains
  packages : identities s s.packages = identities s' s'.packages
  numaNodes : identities s s.numaNodes = identities s' s'.numaNodes
  children : ∀ o ∈ members s, ∀ o' ∈ members s', identity s o = identity s' o' →
    identities s (s.objs o).children = identities s' (s'.objs o').children
  parent : ∀ o ∈ members s, ∀ o' ∈ members s', identity s o = identity s' o' →
    (s.objs o).parent.map (identity s) = (s'.objs o').parent.map (identity s')
  recorded : ∀ o ∈ members s, ∀ o' ∈ members s', identity s o = identity s' o' →
    identities s (s.objs o).numaNodes = identities s' (s'.objs o').numaNodes

/-- What the directories of a machine say. -/
@[ext] structure Outline where
  used : Set CpuDir
  cache : CpuDir → CpuMask
  package : CpuDir → CpuMask
  home : CpuDir → Option Identity
  nodes : Set Identity

namespace Outline

variable (w : Outline) (d : CpuDir) (x y n : Identity)

def cpuId : Identity := ⟨.cpu, cpumaskOfCpu d.number, some d.number⟩

def cacheId : Identity := ⟨.cache, w.cache d, none⟩

def packageId : Identity := ⟨.package, w.package d, some (d.physicalPackageId.getD 0)⟩

/-- The node is recorded for the cache domain or the package. -/
def Recorded : Prop := ∃ d ∈ w.used, (w.cacheId d = x ∨ w.packageId d = x) ∧ w.home d = some n

/-- It is the only node that is recorded. -/
def Sole : Prop := w.Recorded x n ∧ ∀ n', w.Recorded x n' → n' = n

/-- Several nodes are recorded. -/
def Several : Prop := ∃ n n', n ≠ n' ∧ w.Recorded x n ∧ w.Recorded x n'

/-- The second object is a child of the first. -/
def Child : Prop :=
  (∃ d ∈ w.used, w.cacheId d = x ∧ cpuId d = y) ∨ (∃ d ∈ w.used, w.packageId d = x ∧ w.cacheId d = y) ∨
    (∃ d ∈ w.used, w.packageId d = y ∧ w.Sole y x) ∨
      ∃ d ∈ w.used, w.cacheId d = y ∧ w.Several (w.packageId d) ∧ w.Sole y x

/-- The second object is the parent of the first. -/
def Parent : Prop :=
  (∃ d ∈ w.used, cpuId d = x ∧ w.cacheId d = y) ∨ (∃ d ∈ w.used, w.cacheId d = x ∧ w.packageId d = y) ∨
    ∃ d ∈ w.used, w.packageId d = x ∧ w.Sole x y

/-- The CPUs of a cache domain agree on their package, and those of a package on its number. -/
structure Agreeing : Prop where
  package : ∀ d ∈ w.used, ∀ d' ∈ w.used, w.cache d = w.cache d' → w.package d = w.package d'
  number : ∀ d ∈ w.used, ∀ d' ∈ w.used, w.package d = w.package d' →
    d.physicalPackageId.getD 0 = d'.physicalPackageId.getD 0

/-- The tree has the objects and the links of the outline. -/
structure Realises (w : Outline) (s : State) : Prop where
  identified : Set.InjOn (identity s) {o | o ∈ members s}
  cpus : identities s s.cpus = cpuId '' w.used
  cacheDomains : identities s s.cacheDomains = w.cacheId '' w.used
  packages : identities s s.packages = w.packageId '' w.used
  numaNodes : identities s s.numaNodes = w.nodes
  children : ∀ o ∈ members s, identities s (s.objs o).children = {y | w.Child (identity s o) y}
  parent : ∀ o ∈ members s, ∀ y, (s.objs o).parent.map (identity s) = some y ↔ w.Parent (identity s o) y
  recorded : ∀ o ∈ members s, identities s (s.objs o).numaNodes = {n | w.Recorded (identity s o) n}

/-- The outline determines the topology. -/
theorem Realises.same {w : Outline} {s s' : State} (first : w.Realises s) (second : w.Realises s') :
    SameTopology s s' where
  identified := first.identified
  identified' := second.identified
  cpus := first.cpus.trans second.cpus.symm
  cacheDomains := first.cacheDomains.trans second.cacheDomains.symm
  packages := first.packages.trans second.packages.symm
  numaNodes := first.numaNodes.trans second.numaNodes.symm
  children o member o' member' same := by rw [first.children o member, second.children o' member', same]
  parent o member o' member' same := by
    apply Option.ext
    intro y
    rw [first.parent o member, second.parent o' member', same]
  recorded o member o' member' same := by rw [first.recorded o member, second.recorded o' member', same]

/-- The tree in terms of the entries of its CPUs. -/
structure Placed (w : Outline) (entries : List Entry) (s : State) : Prop where
  used : ∀ d, d ∈ w.used ↔ ∃ e ∈ entries, e.dir = d
  identified : Set.InjOn (identity s) {o | o ∈ members s}
  cpuId : ∀ e ∈ entries, identity s e.cpu = cpuId e.dir
  cacheId : ∀ e ∈ entries, identity s e.cache = w.cacheId e.dir
  packageId : ∀ e ∈ entries, identity s e.package = w.packageId e.dir
  cpus : ∀ o, o ∈ s.cpus ↔ ∃ e ∈ entries, e.cpu = o
  cacheDomains : ∀ o, o ∈ s.cacheDomains ↔ ∃ e ∈ entries, e.cache = o
  packages : ∀ o, o ∈ s.packages ↔ ∃ e ∈ entries, e.package = o
  nodes : identities s s.numaNodes = w.nodes
  homes : ∀ d x, w.home d = some x → x ∈ w.nodes
  recorded : ∀ o n, n ∈ (s.objs o).numaNodes ↔ n ∈ s.numaNodes ∧
    ∃ e ∈ entries, (e.cache = o ∨ e.package = o) ∧ w.home e.dir = some (identity s n)
  once : ∀ o, (s.objs o).numaNodes.Nodup
  children : ∀ o c, c ∈ (s.objs o).children ↔
    (∃ e ∈ entries, e.cache = o ∧ e.cpu = c) ∨ (∃ e ∈ entries, e.package = o ∧ e.cache = c) ∨
      (∃ e ∈ entries, e.package = c ∧ (s.objs c).numaNodes = [o]) ∨
        ∃ e ∈ entries, e.cache = c ∧ 2 ≤ (s.objs e.package).numaNodes.length ∧ (s.objs c).numaNodes = [o]
  cpuParent : ∀ e ∈ entries, (s.objs e.cpu).parent = some e.cache
  cacheParent : ∀ e ∈ entries, (s.objs e.cache).parent = some e.package
  packageParent : ∀ e ∈ entries, ∀ n, (s.objs e.package).parent = some n ↔ (s.objs e.package).numaNodes = [n]
  nodeParent : ∀ n ∈ s.numaNodes, (s.objs n).parent = none

namespace Placed

variable {w : Outline} {entries : List Entry} {s : State} {e : Entry} {d : CpuDir} {o n : ObjRef} {x : Identity}
  (placed : w.Placed entries s)
include placed

theorem entry_members (entry : e ∈ entries) : e.cpu ∈ members s ∧ e.cache ∈ members s ∧ e.package ∈ members s := by
  have cpu := (placed.cpus _).mpr ⟨e, entry, rfl⟩
  have cache := (placed.cacheDomains _).mpr ⟨e, entry, rfl⟩
  have package := (placed.packages _).mpr ⟨e, entry, rfl⟩
  simp only [members, List.mem_append]
  exact ⟨.inl (.inl (.inl cpu)), .inl (.inl (.inr cache)), .inl (.inr package)⟩

omit placed in
theorem node_member (node : n ∈ s.numaNodes) : n ∈ members s := List.mem_append_right _ node

/-- The entry whose object is recognised by what its directory says. -/
theorem entry_of {object : Entry → ObjRef} {ident : CpuDir → Identity} (listed : ∀ e ∈ entries, object e ∈ members s)
    (idents : ∀ e ∈ entries, identity s (object e) = ident e.dir) (member : o ∈ members s) (use : d ∈ w.used)
    (same : ident d = identity s o) : ∃ e ∈ entries, e.dir = d ∧ object e = o := by
  obtain ⟨e, entry, rfl⟩ := (placed.used d).mp use
  exact ⟨e, entry, rfl, placed.identified (listed e entry) member ((idents e entry).trans same)⟩

theorem entry_of_cpu (member : o ∈ members s) (use : d ∈ w.used) (same : Outline.cpuId d = identity s o) :
    ∃ e ∈ entries, e.dir = d ∧ e.cpu = o :=
  placed.entry_of (fun _ entry => (placed.entry_members entry).1) placed.cpuId member use same

theorem entry_of_cache (member : o ∈ members s) (use : d ∈ w.used) (same : w.cacheId d = identity s o) :
    ∃ e ∈ entries, e.dir = d ∧ e.cache = o :=
  placed.entry_of (fun _ entry => (placed.entry_members entry).2.1) placed.cacheId member use same

theorem entry_of_package (member : o ∈ members s) (use : d ∈ w.used) (same : w.packageId d = identity s o) :
    ∃ e ∈ entries, e.dir = d ∧ e.package = o :=
  placed.entry_of (fun _ entry => (placed.entry_members entry).2.2) placed.packageId member use same

theorem dir_used (entry : e ∈ entries) : e.dir ∈ w.used := (placed.used _).mpr ⟨e, entry, rfl⟩

/-- The recorded nodes are those of the outline. -/
theorem recorded_iff (member : o ∈ members s) :
    w.Recorded (identity s o) x ↔ ∃ n ∈ (s.objs o).numaNodes, identity s n = x := by
  constructor
  · rintro ⟨d, use, own, home⟩
    have node := placed.homes d x home
    rw [← placed.nodes] at node
    obtain ⟨n, node, rfl⟩ := node
    refine ⟨n, (placed.recorded o n).mpr ⟨node, ?_⟩, rfl⟩
    rcases own with cache | package
    · obtain ⟨e, entry, rfl, rfl⟩ := placed.entry_of_cache member use cache
      exact ⟨e, entry, .inl rfl, home⟩
    · obtain ⟨e, entry, rfl, rfl⟩ := placed.entry_of_package member use package
      exact ⟨e, entry, .inr rfl, home⟩
  · rintro ⟨n, listed, rfl⟩
    obtain ⟨_, e, entry, own, home⟩ := (placed.recorded o n).mp listed
    refine ⟨e.dir, placed.dir_used entry, ?_, home⟩
    rcases own with rfl | rfl
    · exact .inl (placed.cacheId e entry).symm
    · exact .inr (placed.packageId e entry).symm

theorem recorded_node (listed : n ∈ (s.objs o).numaNodes) : n ∈ members s :=
  node_member ((placed.recorded o n).mp listed).1

theorem sole_iff (member : o ∈ members s) (known : n ∈ members s) :
    (s.objs o).numaNodes = [n] ↔ w.Sole (identity s o) (identity s n) := by
  unfold Sole
  simp only [placed.recorded_iff member]
  constructor
  · intro one
    rw [one]
    refine ⟨⟨n, List.mem_singleton_self n, rfl⟩, ?_⟩
    rintro _ ⟨n', listed, rfl⟩
    rw [List.mem_singleton.mp listed]
  · rintro ⟨⟨n', listed, same⟩, only⟩
    have own : n' = n := placed.identified (placed.recorded_node listed) known same
    rw [own] at listed
    refine eq_singleton_of_forall (placed.once o) listed fun n' listed' => ?_
    exact placed.identified (placed.recorded_node listed') known (only _ ⟨n', listed', rfl⟩)

theorem several_iff (member : o ∈ members s) :
    2 ≤ (s.objs o).numaNodes.length ↔ w.Several (identity s o) := by
  unfold Several
  simp only [placed.recorded_iff member]
  constructor
  · intro many
    match nodes : (s.objs o).numaNodes, many with
    | n :: n' :: rest, _ =>
      have once := placed.once o
      rw [nodes] at once
      have listed : n ∈ (s.objs o).numaNodes := by
        rw [nodes]
        exact List.mem_cons_self
      have listed' : n' ∈ (s.objs o).numaNodes := by
        rw [nodes]
        exact List.mem_cons_of_mem _ List.mem_cons_self
      refine ⟨identity s n, identity s n', fun same => ?_, ⟨n, List.mem_cons_self, rfl⟩,
        ⟨n', List.mem_cons_of_mem _ List.mem_cons_self, rfl⟩⟩
      have equal := placed.identified (placed.recorded_node listed) (placed.recorded_node listed') same
      exact (List.nodup_cons.mp once).1 (equal ▸ List.mem_cons_self)
  · rintro ⟨_, _, other, ⟨n, listed, rfl⟩, ⟨n', listed', rfl⟩⟩
    rcases one_or_many listed with one | many
    · rw [one] at listed'
      rw [List.mem_singleton.mp listed'] at other
      exact absurd rfl other
    · exact many

theorem child_iff (member : o ∈ members s) :
    x ∈ identities s (s.objs o).children ↔ w.Child (identity s o) x := by
  constructor
  · rintro ⟨c, child, rfl⟩
    rcases (placed.children o c).mp child with ⟨e, entry, rfl, rfl⟩ | ⟨e, entry, rfl, rfl⟩ |
      ⟨e, entry, rfl, one⟩ | ⟨e, entry, rfl, many, one⟩
    · exact .inl ⟨e.dir, placed.dir_used entry, (placed.cacheId e entry).symm, (placed.cpuId e entry).symm⟩
    · exact .inr (.inl ⟨e.dir, placed.dir_used entry, (placed.packageId e entry).symm, (placed.cacheId e entry).symm⟩)
    · exact .inr (.inr (.inl ⟨e.dir, placed.dir_used entry, (placed.packageId e entry).symm,
        (placed.sole_iff (placed.entry_members entry).2.2 member).mp one⟩))
    · refine .inr (.inr (.inr ⟨e.dir, placed.dir_used entry, (placed.cacheId e entry).symm, ?_,
        (placed.sole_iff (placed.entry_members entry).2.1 member).mp one⟩))
      rw [← placed.packageId e entry]
      exact (placed.several_iff (placed.entry_members entry).2.2).mp many
  · rintro (⟨d, use, own, rfl⟩ | ⟨d, use, own, rfl⟩ | ⟨d, use, rfl, sole⟩ | ⟨d, use, rfl, several, sole⟩)
    · obtain ⟨e, entry, rfl, rfl⟩ := placed.entry_of_cache member use own
      exact ⟨e.cpu, (placed.children _ _).mpr (.inl ⟨e, entry, rfl, rfl⟩), placed.cpuId e entry⟩
    · obtain ⟨e, entry, rfl, rfl⟩ := placed.entry_of_package member use own
      exact ⟨e.cache, (placed.children _ _).mpr (.inr (.inl ⟨e, entry, rfl, rfl⟩)), placed.cacheId e entry⟩
    · obtain ⟨e, entry, rfl⟩ := (placed.used d).mp use
      rw [← placed.packageId e entry] at sole ⊢
      have one := (placed.sole_iff (placed.entry_members entry).2.2 member).mpr sole
      exact ⟨e.package, (placed.children _ _).mpr (.inr (.inr (.inl ⟨e, entry, rfl, one⟩))), rfl⟩
    · obtain ⟨e, entry, rfl⟩ := (placed.used d).mp use
      rw [← placed.packageId e entry] at several
      rw [← placed.cacheId e entry] at sole ⊢
      have many := (placed.several_iff (placed.entry_members entry).2.2).mpr several
      have one := (placed.sole_iff (placed.entry_members entry).2.1 member).mpr sole
      exact ⟨e.cache, (placed.children _ _).mpr (.inr (.inr (.inr ⟨e, entry, rfl, many, one⟩))), rfl⟩

theorem parent_iff (member : o ∈ members s) :
    (s.objs o).parent.map (identity s) = some x ↔ w.Parent (identity s o) x := by
  rw [Option.map_eq_some_iff]
  constructor
  · rintro ⟨p, parent, rfl⟩
    simp only [members, List.mem_append] at member
    rcases member with ((cpu | cache) | package) | node
    · obtain ⟨e, entry, rfl⟩ := (placed.cpus o).mp cpu
      obtain rfl := Option.some.inj ((placed.cpuParent e entry).symm.trans parent)
      exact .inl ⟨e.dir, placed.dir_used entry, (placed.cpuId e entry).symm, (placed.cacheId e entry).symm⟩
    · obtain ⟨e, entry, rfl⟩ := (placed.cacheDomains o).mp cache
      obtain rfl := Option.some.inj ((placed.cacheParent e entry).symm.trans parent)
      exact .inr (.inl ⟨e.dir, placed.dir_used entry, (placed.cacheId e entry).symm, (placed.packageId e entry).symm⟩)
    · obtain ⟨e, entry, rfl⟩ := (placed.packages o).mp package
      have one := (placed.packageParent e entry p).mp parent
      have listed : p ∈ (s.objs e.package).numaNodes := by
        rw [one]
        exact List.mem_singleton_self p
      exact .inr (.inr ⟨e.dir, placed.dir_used entry, (placed.packageId e entry).symm,
        (placed.sole_iff (placed.entry_members entry).2.2 (placed.recorded_node listed)).mp one⟩)
    · rw [placed.nodeParent o node] at parent
      contradiction
  · rintro (⟨d, use, own, rfl⟩ | ⟨d, use, own, rfl⟩ | ⟨d, use, own, sole⟩)
    · obtain ⟨e, entry, rfl, rfl⟩ := placed.entry_of_cpu member use own
      exact ⟨e.cache, placed.cpuParent e entry, placed.cacheId e entry⟩
    · obtain ⟨e, entry, rfl, rfl⟩ := placed.entry_of_cache member use own
      exact ⟨e.package, placed.cacheParent e entry, placed.packageId e entry⟩
    · obtain ⟨e, entry, rfl, rfl⟩ := placed.entry_of_package member use own
      obtain ⟨n, listed, rfl⟩ := (placed.recorded_iff member).mp sole.1
      refine ⟨n, (placed.packageParent e entry n).mpr ?_, rfl⟩
      exact (placed.sole_iff member (placed.recorded_node listed)).mpr sole

/-- The identities of the objects of all entries. -/
theorem identities_entries {object : Entry → ObjRef} {ident : CpuDir → Identity} {l : List ObjRef}
    (listed : ∀ o, o ∈ l ↔ ∃ e ∈ entries, object e = o) (idents : ∀ e ∈ entries, identity s (object e) = ident e.dir) :
    identities s l = ident '' w.used := by
  ext x
  constructor
  · rintro ⟨o, member, rfl⟩
    obtain ⟨e, entry, rfl⟩ := (listed o).mp member
    exact ⟨e.dir, placed.dir_used entry, (idents e entry).symm⟩
  · rintro ⟨d, use, rfl⟩
    obtain ⟨e, entry, rfl⟩ := (placed.used d).mp use
    exact ⟨object e, (listed _).mpr ⟨e, entry, rfl⟩, idents e entry⟩

theorem realises : w.Realises s where
  identified := placed.identified
  cpus := placed.identities_entries placed.cpus placed.cpuId
  cacheDomains := placed.identities_entries placed.cacheDomains placed.cacheId
  packages := placed.identities_entries placed.packages placed.packageId
  numaNodes := placed.nodes
  children _ member := Set.ext fun _ => placed.child_iff member
  parent _ member _ := placed.parent_iff member
  recorded _ member := Set.ext fun _ => (placed.recorded_iff member).symm

end Placed

end Outline

/-- The outline of a machine over a list of nodes. -/
def outline (K : Env) (m : Machine) (banned : CpuMask) (s : State) : Outline where
  used := {d | d ∈ m.cpuDirs ∧ d.usable m banned = true}
  cache d := d.usableCache K (s.setBans banned)
  package d := d.usablePackage K (s.setBans banned)
  home d := (recordedNode K (d.nodeid K) (s.setBans banned)).map (identity s)
  nodes := identities s s.numaNodes

section Identities

variable {s s' : State} {o : ObjRef}

theorem Linked.identity (linked : Linked s s') : identity s' = Irqbalance.identity s := by
  funext o
  simp only [Irqbalance.identity, linked.objType, linked.mask, linked.number]

theorem Extended.identity (extended : Extended s s') (known : o < s.nextObj) :
    identity s' o = Irqbalance.identity s o := by
  simp only [Irqbalance.identity, extended.objType o known, extended.mask o known, extended.number o known]

theorem Linked.members (linked : Linked s s') : members s' = Irqbalance.members s := by
  simp only [Irqbalance.members, linked.cpus, linked.cacheDomains, linked.packages, linked.numaNodes]

/-- The list in which an object is. -/
def listOf (s : State) : ObjType → List ObjRef
  | .cpu => s.cpus
  | .cache => s.cacheDomains
  | .package => s.packages
  | .node => s.numaNodes

theorem Shaped.listed (shaped : Shaped s) (member : o ∈ members s) : o ∈ listOf s (s.objs o).objType := by
  simp only [members, List.mem_append] at member
  rcases member with ((cpu | cache) | package) | node
  · rw [(shaped.cpus o cpu).2]
    exact cpu
  · rw [(shaped.cacheDomains o cache).2]
    exact cache
  · rw [(shaped.packages o package).2]
    exact package
  · rw [(shaped.numaNodes o node).2]
    exact node

theorem node_identified (distinct : (s.numaNodes.map fun n => (s.objs n).number).Nodup)
    (types : ∀ n ∈ s.numaNodes, (s.objs n).objType = .node) : Set.InjOn (identity s) {n | n ∈ s.numaNodes} := by
  intro n node n' node' same
  have numbers := congrArg Identity.number same
  simp only [identity, types n node, types n' node', reduceCtorEq, if_false, Option.some.injEq] at numbers
  exact List.inj_on_of_nodup_map distinct node node' numbers

end Identities

section Entries

variable {used : CpuDir → Prop} {s₀ s t : State} {entries : List Entry} {e : Entry} {o c n : ObjRef}

theorem Grouped.cpuId (grouped : Grouped K s₀ entries s) (labelled : Labelled K used s₀ s) (entry : e ∈ entries) :
    identity s e.cpu = Outline.cpuId e.dir := by
  obtain ⟨known, type⟩ := (grouped.known entry).1
  obtain ⟨k, number, mask⟩ := labelled.cpu e.cpu known type
  have own := grouped.number e entry
  have same : k = e.dir.number := by
    rw [own] at number
    exact Int.ofNat.inj number.symm
  rw [identity, type, own, mask, same]
  rfl

theorem Grouped.cacheId (grouped : Grouped K s₀ entries s) (entry : e ∈ entries) :
    identity s e.cache = ⟨.cache, e.dir.usableCache K s₀, none⟩ := by
  rw [identity, (grouped.known entry).2.1.2, grouped.cacheMask e entry, if_pos rfl]

/-- The number of a package is what one of its CPUs reports. -/
theorem Grouped.packageId (grouped : Grouped K s₀ entries s) (labelled : Labelled K used s₀ s) (entry : e ∈ entries) :
    ∃ d, used d ∧ d.usablePackage K s₀ = e.dir.usablePackage K s₀ ∧
      identity s e.package = ⟨.package, e.dir.usablePackage K s₀, some (d.physicalPackageId.getD 0)⟩ := by
  obtain ⟨known, type⟩ := (grouped.known entry).2.2
  obtain ⟨d, use, mask, number⟩ := labelled.package e.package known type
  have own := grouped.packageMask e entry
  refine ⟨d, use, mask.symm.trans own, ?_⟩
  rw [identity, type, own, number]
  rfl

/-- Objects of the tree are told apart by their identities. -/
theorem Grouped.identified (grouped : Grouped K s₀ entries s) (names : (entries.map fun e => e.dir.number).Nodup)
    (distinct : (s₀.numaNodes.map fun n => (s₀.objs n).number).Nodup) (shaped₀ : Shaped s₀) :
    Set.InjOn (identity s) {o | o ∈ members s} := by
  intro o member o' member' same
  have shaped := grouped.extended.shaped
  have listed := shaped.listed member
  have listed' := shaped.listed member'
  have types : (s.objs o).objType = (s.objs o').objType := congrArg Identity.objType same
  have masks : (s.objs o).mask = (s.objs o').mask := congrArg Identity.mask same
  have numbers := congrArg Identity.number same
  simp only [identity, ← types] at numbers
  rw [← types] at listed'
  cases type : (s.objs o).objType <;> rw [type] at listed listed' numbers
  · simp only [reduceCtorEq, if_false, Option.some.injEq] at numbers
    simp only [listOf, grouped.cpus] at listed listed'
    obtain ⟨e, entry, rfl⟩ := List.mem_map.mp listed
    obtain ⟨e', entry', rfl⟩ := List.mem_map.mp listed'
    rw [grouped.number e entry, grouped.number e' entry'] at numbers
    rw [List.inj_on_of_nodup_map names entry entry' (Int.ofNat.inj numbers)]
  · obtain ⟨e, entry, rfl⟩ := (grouped.caches o).mp listed
    obtain ⟨e', entry', rfl⟩ := (grouped.caches o').mp listed'
    rw [grouped.cacheMask e entry, grouped.cacheMask e' entry'] at masks
    exact grouped.sameCache e entry e' entry' masks
  · obtain ⟨e, entry, rfl⟩ := (grouped.packages o).mp listed
    obtain ⟨e', entry', rfl⟩ := (grouped.packages o').mp listed'
    rw [grouped.packageMask e entry, grouped.packageMask e' entry'] at masks
    exact grouped.samePackage e entry e' entry' masks
  · simp only [listOf, grouped.extended.numaNodes] at listed listed'
    rw [grouped.extended.identity (shaped₀.numaNodes o listed).1,
      grouped.extended.identity (shaped₀.numaNodes o' listed').1] at same
    exact node_identified distinct (fun n node => (shaped₀.numaNodes n node).2) listed listed' same

/-- Without NUMA, one node is recorded for everything. -/
theorem Grouped.numaNodes_plain (grouped : Grouped K s₀ entries s) (plain : K.numaAvail = false)
    (listed : n ∈ (s.objs o).numaNodes) : (s.objs o).numaNodes = [n] := by
  refine eq_singleton_of_forall (grouped.once o) listed fun n' listed' => ?_
  obtain ⟨e, _, _, node⟩ := (grouped.numaNodes o n).mp listed
  obtain ⟨e', _, _, node'⟩ := (grouped.numaNodes o n').mp listed'
  have same : e'.node K s₀ = e.node K s₀ := by
    simp only [Entry.node, recordedNode, getNumaNode, plain, Bool.false_eq_true, if_false]
    rfl
  exact Option.some.inj (node'.symm.trans (same.trans node))

variable (grouped : Grouped K s₀ entries s)
  (connected : Connected (fun n o => ∃ p ∈ s.packages, Connects s p n o) s t)
include grouped connected

/-- The children in the end, by entries. -/
theorem Grouped.children_connected (shaped₀ : Shaped s₀) : c ∈ (t.objs o).children ↔
    (∃ e ∈ entries, e.cache = o ∧ e.cpu = c) ∨ (∃ e ∈ entries, e.package = o ∧ e.cache = c) ∨
      (∃ e ∈ entries, e.package = c ∧ (s.objs c).numaNodes = [o]) ∨
        ∃ e ∈ entries, e.cache = c ∧ 2 ≤ (s.objs e.package).numaNodes.length ∧ (s.objs c).numaNodes = [o] := by
  have nodeType {n c : ObjRef} (one : (s.objs c).numaNodes = [n]) : (s.objs n).objType = .node := by
    have listed : n ∈ (s.objs c).numaNodes := by
      rw [one]
      exact List.mem_singleton_self n
    exact (grouped.extended.shaped.numaNodes n ((grouped.extended.shaped.obj c).numaNodes n listed)).2
  constructor
  · intro child
    have old (child : c ∈ (s.objs o).children) : (∃ e ∈ entries, e.cache = o ∧ e.cpu = c) ∨
        (∃ e ∈ entries, e.package = o ∧ e.cache = c) ∨ ∃ e ∈ entries, e.package = c ∧ (s.objs c).numaNodes = [o] := by
      obtain ⟨e, entry, cpu | cache | ⟨plain, node, rfl⟩⟩ := (grouped.children o c).mp child
      · exact .inl ⟨e, entry, cpu⟩
      · exact .inr (.inl ⟨e, entry, cache⟩)
      · refine .inr (.inr ⟨e, entry, rfl, grouped.numaNodes_plain plain ?_⟩)
        exact (grouped.numaNodes _ _).mpr ⟨e, entry, .inr rfl, node⟩
    by_cases node : (s.objs o).objType = .node
    · rcases (connected.node o c node).mp child with child | ⟨p, listed, ⟨rfl, one⟩ | ⟨inside, many, one⟩⟩
      · exact (old child).imp_right (Or.imp_right .inl)
      · obtain ⟨e, entry, rfl⟩ := (grouped.packages c).mp listed
        exact .inr (.inr (.inl ⟨e, entry, rfl, one⟩))
      · have packageType := (grouped.extended.shaped.packages p listed).2
        obtain ⟨e, entry, ⟨rfl, _⟩ | ⟨rfl, cache⟩ | ⟨_, home, _⟩⟩ := (grouped.children p c).mp inside
        · rw [(grouped.known entry).2.1.2] at packageType
          contradiction
        · exact .inr (.inr (.inr ⟨e, entry, cache, many, one⟩))
        · obtain ⟨known, type⟩ := shaped₀.numaNodes p (recordedNode_mem home)
          rw [grouped.extended.objType p known, type] at packageType
          contradiction
    · rw [connected.inner o node] at child
      exact (old child).imp_right (Or.imp_right .inl)
  · rintro (⟨e, entry, rfl, rfl⟩ | ⟨e, entry, rfl, rfl⟩ | ⟨e, entry, rfl, one⟩ | ⟨e, entry, rfl, many, one⟩)
    · rw [connected.inner _ (by rw [(grouped.known entry).2.1.2]; decide), grouped.children]
      exact ⟨e, entry, .inl ⟨rfl, rfl⟩⟩
    · rw [connected.inner _ (by rw [(grouped.known entry).2.2.2]; decide), grouped.children]
      exact ⟨e, entry, .inr (.inl ⟨rfl, rfl⟩)⟩
    · rw [connected.node _ _ (nodeType one)]
      exact .inr ⟨e.package, (grouped.packages _).mpr ⟨e, entry, rfl⟩, .inl ⟨rfl, one⟩⟩
    · rw [connected.node _ _ (nodeType one)]
      refine .inr ⟨e.package, (grouped.packages _).mpr ⟨e, entry, rfl⟩, .inr ⟨?_, many, one⟩⟩
      exact (grouped.children _ _).mpr ⟨e, entry, .inr (.inl ⟨rfl, rfl⟩)⟩

/-- Nodes stay what they are. -/
theorem Grouped.identity_node (shaped₀ : Shaped s₀) (node : n ∈ s₀.numaNodes) : identity t n = identity s₀ n := by
  rw [connected.linked.identity]
  exact grouped.extended.identity (shaped₀.numaNodes n node).1

/-- The nodes that are recorded in the end, by identities. -/
theorem Grouped.recorded_connected (distinct : (s₀.numaNodes.map fun n => (s₀.objs n).number).Nodup)
    (shaped₀ : Shaped s₀) : n ∈ (t.objs o).numaNodes ↔ n ∈ t.numaNodes ∧
      ∃ e ∈ entries, (e.cache = o ∨ e.package = o) ∧ (e.node K s₀).map (identity s₀) = some (identity t n) := by
  rw [connected.numaNodes, grouped.numaNodes, connected.linked.numaNodes, grouped.extended.numaNodes]
  constructor
  · rintro ⟨e, entry, own, found⟩
    have known : n ∈ s₀.numaNodes := recordedNode_mem found
    have same := grouped.identity_node connected shaped₀ known
    exact ⟨known, e, entry, own, Option.map_eq_some_iff.mpr ⟨n, found, same.symm⟩⟩
  · rintro ⟨known, e, entry, own, home⟩
    obtain ⟨n', found, same⟩ := Option.map_eq_some_iff.mp home
    have known' : n' ∈ s₀.numaNodes := recordedNode_mem found
    rw [grouped.identity_node connected shaped₀ known] at same
    obtain rfl := node_identified distinct (fun n known => (shaped₀.numaNodes n known).2) known' known same
    exact ⟨e, entry, own, found⟩

theorem Grouped.cpuParent_connected (entry : e ∈ entries) : (t.objs e.cpu).parent = some e.cache := by
  have inner : (s.objs e.cpu).objType ≠ .package := by
    rw [(grouped.known entry).1.2]
    decide
  rw [connected.parent _ inner]
  exact grouped.cpuParent e entry

/-- The CPU that is read last has set the parent, and the others agree with it. -/
theorem Grouped.cacheParent_connected (entry : e ∈ entries) (agree : ∀ e' ∈ entries,
    e'.dir.usableCache K s₀ = e.dir.usableCache K s₀ → e'.dir.usablePackage K s₀ = e.dir.usablePackage K s₀) :
    (t.objs e.cache).parent = some e.package := by
  have inner : (s.objs e.cache).objType ≠ .package := by
    rw [(grouped.known entry).2.1.2]
    decide
  obtain ⟨e', entry', same, parent⟩ := grouped.cacheParent e entry
  have masks : e'.dir.usableCache K s₀ = e.dir.usableCache K s₀ := by
    rw [← grouped.cacheMask e' entry', ← grouped.cacheMask e entry, same]
  rw [connected.parent _ inner, parent, grouped.samePackage e' entry' e entry (agree e' entry' masks)]

omit connected in
/-- The only node of a package becomes its parent. -/
theorem Grouped.parent_package (labelled : Labelled K used s₀ s) (raised : Raised s t)
    (parented : ∀ p ∈ s.packages, ∀ n, (s.objs p).numaNodes = [n] → (t.objs p).parent ≠ none) (entry : e ∈ entries) :
    (t.objs e.package).parent = some n ↔ (s.objs e.package).numaNodes = [n] := by
  have listed : e.package ∈ s.packages := (grouped.packages _).mpr ⟨e, entry, rfl⟩
  have only {n : ObjRef} (parent : (t.objs e.package).parent = some n) : (s.objs e.package).numaNodes = [n] := by
    rcases raised.parent e.package with same | ⟨_, n', one, parent'⟩
    · obtain ⟨plain, member⟩ := labelled.top e.package (.inl (grouped.known entry).2.2.2) n (same.symm.trans parent)
      exact grouped.numaNodes_plain plain member
    · rw [one, Option.some.inj (parent'.symm.trans parent)]
  refine ⟨only, fun one => ?_⟩
  obtain ⟨n', parent⟩ := Option.ne_none_iff_exists'.mp (parented e.package listed n one)
  have same := (only parent).symm.trans one
  rw [parent, (List.cons.inj same).1]

omit connected in
theorem Grouped.parent_node (labelled : Labelled K used s₀ s) (raised : Raised s t) (node : n ∈ s.numaNodes) :
    (t.objs n).parent = none := by
  have type := (grouped.extended.shaped.numaNodes n node).2
  have none : (s.objs n).numaNodes = [] := by
    by_contra some
    rcases (grouped.extended.shaped.obj n).attached some with package | cache
    · rw [type] at package
      contradiction
    · rw [type] at cache
      contradiction
  rcases raised.parent n with same | ⟨_, n', one, _⟩
  · rw [same]
    by_contra some
    obtain ⟨n', parent⟩ := Option.ne_none_iff_exists'.mp some
    have member := (labelled.top n (.inr type) n' parent).2
    rw [none] at member
    contradiction
  · rw [none] at one
    contradiction

end Entries

section Building

variable {s : State} {entries : List Entry}

/-- The directories that are used have different numbers. -/
theorem entries_numbers {m : Machine} {use : CpuDir → Bool} (names : (m.cpuDirs.map (·.number)).Nodup)
    (dirs : entries.map Entry.dir = m.cpuDirs.filter use) : (entries.map fun e => e.dir.number).Nodup := by
  have listed : (entries.map fun e => e.dir.number) = (entries.map Entry.dir).map (·.number) := by
    rw [List.map_map]
    rfl
  rw [listed, dirs]
  exact names.sublist (List.filter_sublist.map _)

/-- What `parse_cpu_tree` has built when the packages are connected, and how it connects them. -/
theorem parseCpuTree_raised (m : Machine) (banned : CpuMask) (only : OnlyNodes s) (bare : Bare s) :
    ∃ entries s₁, entries.map Entry.dir = m.cpuDirs.filter (·.usable m banned) ∧
      Grouped K (s.setBans banned) entries s₁ ∧
      Connected (fun n o => ∃ p ∈ s₁.packages, Connects s₁ p n o) s₁ (parseCpuTree K m banned s) ∧
      Labelled K (fun d => d ∈ m.cpuDirs ∧ d.usable m banned = true) (s.setBans banned) s₁ ∧
      Raised s₁ (parseCpuTree K m banned s) ∧
      ∀ p ∈ s₁.packages, ∀ n, (s₁.objs p).numaNodes = [n] →
        ((parseCpuTree K m banned s).objs p).parent ≠ none := by
  have shaped₀ := setBans_shaped only banned
  have start : Bare (s.setBans banned) := ⟨bare.children, bare.parent, bare.nodes, bare.packages, bare.cacheDomains,
    bare.cpus⟩
  obtain ⟨entries, dirs, grouped⟩ := (start.grouped (K := K) shaped₀).forEach_doOneCpu (m := m) m.cpuDirs shaped₀ rfl
  have labelled := Labelled.forEach_doOneCpu (K := K) m shaped₀ rfl start only.nodes
  obtain ⟨raised, parented⟩ := forEach_connectCpuMemTopo_raised grouped.extended.shaped
  exact ⟨entries, _, dirs, grouped, forEach_connectCpuMemTopo grouped.extended.shaped, labelled, raised, parented⟩

/-- `parse_cpu_tree` places the CPUs that are used as the outline says. -/
theorem parseCpuTree_placed (m : Machine) (banned : CpuMask) (only : OnlyNodes s) (bare : Bare s)
    (names : (m.cpuDirs.map (·.number)).Nodup) (distinct : (s.numaNodes.map fun n => (s.objs n).number).Nodup)
    (agreeing : (outline K m banned s).Agreeing) :
    ∃ entries, (outline K m banned s).Placed entries (parseCpuTree K m banned s) := by
  have shaped₀ := setBans_shaped only banned
  obtain ⟨entries, s₁, dirs, grouped, connected, labelled, raised, parented⟩ :=
    parseCpuTree_raised (K := K) m banned only bare
  have linked := connected.linked
  have used (d : CpuDir) : d ∈ (outline K m banned s).used ↔ ∃ e ∈ entries, e.dir = d := by
    rw [← List.mem_map, dirs, List.mem_filter]
    rfl
  have entryUsed {e : Entry} (entry : e ∈ entries) : e.dir ∈ (outline K m banned s).used := (used _).mpr ⟨e, entry, rfl⟩
  refine ⟨entries, {
    used := used
    identified := ?_
    cpuId := fun e entry => by rw [linked.identity]; exact grouped.cpuId labelled entry
    cacheId := fun e entry => by rw [linked.identity]; exact grouped.cacheId entry
    packageId := fun e entry => ?_
    cpus := fun o => by rw [linked.cpus, grouped.cpus]; exact List.mem_map
    cacheDomains := fun o => by rw [linked.cacheDomains]; exact grouped.caches o
    packages := fun o => by rw [linked.packages]; exact grouped.packages o
    nodes := ?_
    homes := ?_
    recorded := fun o n => grouped.recorded_connected connected distinct shaped₀
    once := fun o => by rw [connected.numaNodes]; exact grouped.once o
    children := fun o c => by
      simp only [connected.numaNodes]
      exact grouped.children_connected connected shaped₀
    cpuParent := fun e entry => grouped.cpuParent_connected connected entry
    cacheParent := fun e entry => grouped.cacheParent_connected connected entry fun e' entry' masks =>
      agreeing.package e'.dir (entryUsed entry') e.dir (entryUsed entry) masks
    packageParent := fun e entry n => by
      rw [connected.numaNodes]
      exact grouped.parent_package labelled raised parented entry
    nodeParent := fun n node => grouped.parent_node labelled raised (linked.numaNodes ▸ node) }⟩
  · rw [linked.identity, linked.members]
    exact grouped.identified (entries_numbers names dirs) distinct shaped₀
  · obtain ⟨d, use, mask, own⟩ := grouped.packageId labelled entry
    rw [linked.identity, own, agreeing.number d use e.dir (entryUsed entry) mask]
    rfl
  · rw [linked.numaNodes, grouped.extended.numaNodes]
    exact Set.image_congr fun n node => grouped.identity_node connected shaped₀ node
  · intro d x home
    obtain ⟨n, found, rfl⟩ := Option.map_eq_some_iff.mp home
    exact ⟨n, recordedNode_mem found, rfl⟩

/-- The tree is what the outline asks for. -/
theorem parseCpuTree_realises (m : Machine) (banned : CpuMask) (only : OnlyNodes s) (bare : Bare s)
    (names : (m.cpuDirs.map (·.number)).Nodup) (distinct : (s.numaNodes.map fun n => (s.objs n).number).Nodup)
    (agreeing : (outline K m banned s).Agreeing) :
    (outline K m banned s).Realises (parseCpuTree K m banned s) := by
  obtain ⟨entries, placed⟩ := parseCpuTree_placed m banned only bare names distinct agreeing
  exact placed.realises

end Building

end Irqbalance
