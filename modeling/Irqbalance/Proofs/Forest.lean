import Irqbalance.Proofs.Locality
import Irqbalance.Proofs.Topology

/-! # When the topology is a forest

The tree that `build_object_tree` describes has one path from the nodes to every CPU and one package for
every cache domain. It has these exactly if the CPUs of a cache domain agree on their package and on
their node. Sharing a cache between nodes breaks both: a package mask that is overridden by the node
mask gives the cache domain one package for each node.
-/

namespace Irqbalance

variable {K : Env} {m : Machine}

/-- The objects from one up to a node, each among the children of the next. -/
inductive Path (s : State) : ObjRef → List ObjRef → Prop
  | node {n : ObjRef} (top : n ∈ s.numaNodes) : Path s n [n]
  | child {o c : ObjRef} {above : List ObjRef} (path : Path s o above) (child : c ∈ (s.objs o).children) :
      Path s c (c :: above)

/-- A path to the CPU of that number. -/
def CpuPath (s : State) (cpu : ℕ) (path : List ObjRef) : Prop :=
  ∃ c ∈ s.cpus, (s.objs c).number = cpu ∧ Path s c path

/-- The topology of the machine as `build_object_tree` describes it. -/
structure IsForest (K : Env) (m : Machine) (s : State) : Prop where
  path : ∀ d ∈ m.cpuDirs, d.usable m s.bannedCpus = true → (recordedNode K (d.nodeid K) s).isSome = true →
    ∃! path, CpuPath s d.number path
  package : ∀ cache ∈ s.cacheDomains, ∃! package, package ∈ s.packages ∧ cache ∈ (s.objs package).children
  parent : ∀ o ∈ s.cpus ++ s.cacheDomains, ∃ p, (s.objs o).parent = some p ∧ o ∈ (s.objs p).children

/-- The CPUs of a cache domain agree on their package and on their node. -/
def Coherent (K : Env) (m : Machine) (s : State) : Prop :=
  ∀ d ∈ m.cpuDirs, ∀ d' ∈ m.cpuDirs, d.usable m s.bannedCpus = true → d'.usable m s.bannedCpus = true →
    d.usableCache K s = d'.usableCache K s → d.usablePackage K s = d'.usablePackage K s ∧
      ∀ n n', recordedNode K (d.nodeid K) s = some n → recordedNode K (d'.nodeid K) s = some n' → n = n'

theorem one_or_many {n : ObjRef} {l : List ObjRef} (member : n ∈ l) : l = [n] ∨ 2 ≤ l.length := by
  match l with
  | [a] => exact .inl (by rw [List.mem_singleton.mp member])
  | a :: b :: rest => exact .inr (Nat.le_add_left 2 _)

theorem eq_singleton_of_forall {n : ObjRef} {l : List ObjRef} (nodup : l.Nodup) (member : n ∈ l)
    (only : ∀ n' ∈ l, n' = n) : l = [n] := by
  match l with
  | [a] => rw [List.mem_singleton.mp member]
  | a :: b :: rest =>
    have first := only a List.mem_cons_self
    have second := only b (List.mem_cons_of_mem _ List.mem_cons_self)
    exact absurd (first.trans second.symm) fun same => (List.nodup_cons.mp nodup).1 (same ▸ List.mem_cons_self)

section Paths

variable {s : State} {o x n : ObjRef} {l : List ObjRef}

/-- Nothing is above a node. -/
theorem path_node (shaped : Shaped s) (node : n ∈ s.numaNodes) : Path s n l ↔ l = [n] := by
  constructor
  · intro path
    cases path with
    | node top => rfl
    | child path child =>
      obtain ⟨_, nests⟩ := (shaped.obj _).children _ child
      rw [(shaped.numaNodes n node).2] at nests
      revert nests
      cases (s.objs _).objType <;> exact fun nests => absurd nests id
  · rintro rfl
    exact .node node

/-- What is not a node is reached through its parents. -/
theorem path_inner (shaped : Shaped s) (inner : (s.objs o).objType ≠ .node) :
    Path s o l ↔ ∃ x l', l = o :: l' ∧ o ∈ (s.objs x).children ∧ Path s x l' := by
  constructor
  · intro path
    cases path with
    | node top => exact absurd (shaped.numaNodes o top).2 inner
    | child path child => exact ⟨_, _, rfl, child, path⟩
  · rintro ⟨x, l', rfl, child, path⟩
    exact path.child child

end Paths

section Tree

variable {s₀ s s' : State} {entries : List Entry} {e e' : Entry} {x n : ObjRef} {l : List ObjRef}

variable (grouped : Grouped K s₀ entries s)
  (connected : Connected (fun n o => ∃ p ∈ s.packages, Connects s p n o) s s')

include grouped

theorem Grouped.mem_nodes_cache (entry : e ∈ entries) :
    n ∈ (s.objs e.cache).numaNodes ↔ ∃ e' ∈ entries, e'.cache = e.cache ∧ e'.node K s₀ = some n := by
  rw [grouped.numaNodes]
  have cacheType := (grouped.known entry).2.1.2
  apply exists_congr
  intro e'
  apply and_congr_right
  intro entry'
  apply and_congr_left
  intro _
  apply or_iff_left
  intro same
  have packageType := (grouped.known entry').2.2.2
  rw [same, cacheType] at packageType
  contradiction

theorem Grouped.mem_nodes_package (entry : e ∈ entries) :
    n ∈ (s.objs e.package).numaNodes ↔ ∃ e' ∈ entries, e'.package = e.package ∧ e'.node K s₀ = some n := by
  rw [grouped.numaNodes]
  have packageType := (grouped.known entry).2.2.2
  apply exists_congr
  intro e'
  apply and_congr_right
  intro entry'
  apply and_congr_left
  intro _
  apply or_iff_right
  intro same
  have cacheType := (grouped.known entry').2.1.2
  rw [same, packageType] at cacheType
  contradiction

/-- A CPU has one entry. -/
theorem Grouped.sameEntry (entry : e ∈ entries) (entry' : e' ∈ entries) (same : e.cpu = e'.cpu) : e = e' := by
  have nodup := grouped.nodup
  rw [grouped.cpus] at nodup
  exact List.inj_on_of_nodup_map nodup entry entry' same

/-- A child before the packages are connected is an object of one of the CPUs. -/
theorem Grouped.child_entry {p o : ObjRef} (child : o ∈ (s.objs p).children) :
    ∃ e ∈ entries, o = e.cpu ∨ o = e.cache ∨ o = e.package := by
  obtain ⟨e, entry, ⟨_, rfl⟩ | ⟨_, rfl⟩ | ⟨_, _, rfl⟩⟩ := (grouped.children p o).mp child
  · exact ⟨e, entry, .inl rfl⟩
  · exact ⟨e, entry, .inr (.inl rfl)⟩
  · exact ⟨e, entry, .inr (.inr rfl)⟩

include connected

/-- A child is an object of one of the CPUs. -/
theorem Grouped.connected_child_entry {p o : ObjRef} (child : o ∈ (s'.objs p).children) :
    ∃ e ∈ entries, o = e.cpu ∨ o = e.cache ∨ o = e.package := by
  by_cases node : (s.objs p).objType = .node
  · rcases (connected.node p o node).mp child with old | ⟨package, listed, ⟨rfl, _⟩ | ⟨inside, _⟩⟩
    · exact grouped.child_entry old
    · obtain ⟨e, entry, rfl⟩ := (grouped.packages o).mp listed
      exact ⟨e, entry, .inr (.inr rfl)⟩
    · exact grouped.child_entry inside
  · rw [connected.inner p node] at child
    exact grouped.child_entry child

/-- A CPU is a child of its cache domain only. -/
theorem Grouped.mem_children_cpu (entry : e ∈ entries) : e.cpu ∈ (s'.objs x).children ↔ x = e.cache := by
  obtain ⟨⟨_, cpuType⟩, ⟨_, cacheType⟩, _⟩ := grouped.known entry
  constructor
  · intro child
    obtain ⟨_, nests⟩ := (connected.linked.shaped.obj x).children _ child
    rw [connected.linked.objType, connected.linked.objType, cpuType] at nests
    have notNode : (s.objs x).objType ≠ .node := by
      intro node
      rw [node] at nests
      exact nests
    rw [connected.inner x notNode, grouped.children] at child
    obtain ⟨e', entry', ⟨rfl, same⟩ | ⟨_, same⟩ | ⟨_, _, same⟩⟩ := child
    · rw [grouped.sameEntry entry' entry same]
    · have other := (grouped.known entry').2.1.2
      rw [same, cpuType] at other
      contradiction
    · have other := (grouped.known entry').2.2.2
      rw [same, cpuType] at other
      contradiction
  · rintro rfl
    rw [connected.inner _ (by rw [cacheType]; decide), grouped.children]
    exact ⟨e, entry, .inl ⟨rfl, rfl⟩⟩

/-- A cache domain is a child of the packages of its CPUs. -/
theorem Grouped.mem_children_package (entry : e ∈ entries) (packageType : (s.objs x).objType = .package) :
    e.cache ∈ (s'.objs x).children ↔ ∃ e' ∈ entries, e'.cache = e.cache ∧ e'.package = x := by
  obtain ⟨_, ⟨_, cacheType⟩, _⟩ := grouped.known entry
  rw [connected.inner x (by rw [packageType]; decide), grouped.children]
  apply exists_congr
  intro e'
  apply and_congr_right
  intro entry'
  obtain ⟨_, ⟨_, cacheType'⟩, _, packageType'⟩ := grouped.known entry'
  constructor
  · rintro (⟨rfl, _⟩ | ⟨package, cache⟩ | ⟨_, _, same⟩)
    · rw [cacheType'] at packageType
      contradiction
    · exact ⟨cache, package⟩
    · rw [same, cacheType] at packageType'
      contradiction
  · exact fun both => .inr (.inl ⟨both.2, both.1⟩)

/-- A cache domain is a child of its node if it has one node and a package of it has several. -/
theorem Grouped.mem_children_node (entry : e ∈ entries) (nodeType : (s.objs n).objType = .node) :
    e.cache ∈ (s'.objs n).children ↔ (s.objs e.cache).numaNodes = [n] ∧
      ∃ e' ∈ entries, e'.cache = e.cache ∧ 2 ≤ (s.objs e'.package).numaNodes.length := by
  obtain ⟨_, ⟨_, cacheType⟩, _⟩ := grouped.known entry
  have notPackage {e' : Entry} (entry' : e' ∈ entries) : e.cache ≠ e'.package := by
    intro same
    have packageType := (grouped.known entry').2.2.2
    rw [← same, cacheType] at packageType
    contradiction
  rw [connected.node n e.cache nodeType]
  constructor
  · rintro (child | ⟨p, listed, ⟨same, _⟩ | ⟨child, many, one⟩⟩)
    · obtain ⟨e', entry', ⟨rfl, _⟩ | ⟨rfl, _⟩ | ⟨_, _, same⟩⟩ := (grouped.children n e.cache).mp child
      · rw [(grouped.known entry').2.1.2] at nodeType
        contradiction
      · rw [(grouped.known entry').2.2.2] at nodeType
        contradiction
      · exact absurd same.symm (notPackage entry')
    · obtain ⟨e', entry', rfl⟩ := (grouped.packages p).mp listed
      exact absurd same (notPackage entry')
    · obtain ⟨e', entry', rfl⟩ := (grouped.packages p).mp listed
      have packageType := (grouped.known entry').2.2.2
      rw [← connected.inner _ (by rw [packageType]; decide)] at child
      obtain ⟨e'', entry'', cache, package⟩ := (grouped.mem_children_package connected entry packageType).mp child
      rw [← package] at many
      exact ⟨one, e'', entry'', cache, many⟩
  · rintro ⟨one, e', entry', cache, many⟩
    have packageType := (grouped.known entry').2.2.2
    have child := (grouped.mem_children_package connected entry packageType).mpr ⟨e', entry', cache, rfl⟩
    rw [connected.inner _ (by rw [packageType]; decide)] at child
    exact .inr ⟨e'.package, (grouped.packages _).mpr ⟨e', entry', rfl⟩, .inr ⟨child, many, one⟩⟩

/-- A package is a child of its node if it has one. -/
theorem Grouped.mem_children_top (entry : e ∈ entries) (nodeType : (s.objs n).objType = .node) :
    e.package ∈ (s'.objs n).children ↔ (s.objs e.package).numaNodes = [n] := by
  have packageType := (grouped.known entry).2.2.2
  rw [connected.node n e.package nodeType]
  constructor
  · rintro (child | ⟨p, listed, ⟨rfl, one⟩ | ⟨child, _⟩⟩)
    · obtain ⟨e', entry', ⟨rfl, _⟩ | ⟨rfl, _⟩ | ⟨unavailable, node, same⟩⟩ :=
        (grouped.children n e.package).mp child
      · rw [(grouped.known entry').2.1.2] at nodeType
        contradiction
      · rw [(grouped.known entry').2.2.2] at nodeType
        contradiction
      · -- without NUMA all CPUs have the same node
        have alike (e₁ e₂ : Entry) : e₁.node K s₀ = e₂.node K s₀ := by
          unfold Entry.node recordedNode getNumaNode
          simp only [unavailable, Bool.false_eq_true, if_false, Bool.not_false, Bool.true_or]
        refine eq_singleton_of_forall (grouped.once _) ?_ fun n' recorded => ?_
        · exact (grouped.mem_nodes_package entry).mpr ⟨e', entry', same, node⟩
        · obtain ⟨e'', _, _, other⟩ := (grouped.mem_nodes_package entry).mp recorded
          rw [alike e'' e', node] at other
          exact (Option.some.inj other).symm
    · exact one
    · obtain ⟨e', entry', rfl⟩ := (grouped.packages p).mp listed
      obtain ⟨_, nests⟩ := (grouped.extended.shaped.obj _).children _ child
      rw [(grouped.known entry').2.2.2, packageType] at nests
      exact absurd nests id
  · intro one
    exact .inr ⟨e.package, (grouped.packages _).mpr ⟨e, entry, rfl⟩, .inl ⟨rfl, one⟩⟩

/-- The paths to a CPU are those to its cache domain. -/
theorem Grouped.path_cpu (entry : e ∈ entries) :
    Path s' e.cpu l ↔ ∃ above, l = e.cpu :: above ∧ Path s' e.cache above := by
  have cpuType : (s'.objs e.cpu).objType ≠ .node := by
    rw [connected.linked.objType, (grouped.known entry).1.2]
    decide
  rw [path_inner connected.linked.shaped cpuType]
  constructor
  · rintro ⟨x, above, rfl, child, path⟩
    rw [(grouped.mem_children_cpu connected entry).mp child] at path
    exact ⟨above, rfl, path⟩
  · rintro ⟨above, rfl, path⟩
    exact ⟨e.cache, above, rfl, (grouped.mem_children_cpu connected entry).mpr rfl, path⟩

/-- The path to a package goes through its only node. -/
theorem Grouped.path_package (entry : e ∈ entries) :
    Path s' e.package l ↔ ∃ n, l = [e.package, n] ∧ (s.objs e.package).numaNodes = [n] := by
  have shaped := connected.linked.shaped
  have packageType : (s'.objs e.package).objType = .package := by
    rw [connected.linked.objType, (grouped.known entry).2.2.2]
  rw [path_inner shaped (by rw [packageType]; decide)]
  constructor
  · rintro ⟨n, above, rfl, child, path⟩
    have nodeType : (s'.objs n).objType = .node := by
      obtain ⟨_, nests⟩ := (shaped.obj n).children _ child
      rw [packageType] at nests
      revert nests
      cases (s'.objs n).objType <;> simp [ObjType.nests]
    have node : n ∈ s'.numaNodes := by
      cases path with
      | node top => exact top
      | child path child =>
        obtain ⟨_, nests⟩ := (shaped.obj _).children n child
        rw [nodeType] at nests
        revert nests
        cases (s'.objs _).objType <;> exact fun nests => absurd nests id
    rw [connected.linked.objType] at nodeType
    exact ⟨n, by rw [(path_node shaped node).mp path], (grouped.mem_children_top connected entry nodeType).mp child⟩
  · rintro ⟨n, rfl, one⟩
    have node : n ∈ s.numaNodes := (grouped.extended.shaped.obj e.package).numaNodes n
      (by rw [one]; exact List.mem_singleton_self _)
    have nodeType := (grouped.extended.shaped.numaNodes n node).2
    rw [← connected.linked.numaNodes] at node
    exact ⟨n, [n], rfl, (grouped.mem_children_top connected entry nodeType).mpr one, .node node⟩

/-- A path to a cache domain goes through a package with one node, or past a package with several. -/
theorem Grouped.path_cache (entry : e ∈ entries) : Path s' e.cache l ↔ ∃ e' ∈ entries, e'.cache = e.cache ∧
    ((∃ n, l = [e.cache, e'.package, n] ∧ (s.objs e'.package).numaNodes = [n]) ∨
      ∃ n, l = [e.cache, n] ∧ (s.objs e.cache).numaNodes = [n] ∧ 2 ≤ (s.objs e'.package).numaNodes.length) := by
  have shaped := connected.linked.shaped
  have cacheType : (s'.objs e.cache).objType = .cache := by
    rw [connected.linked.objType, (grouped.known entry).2.1.2]
  rw [path_inner shaped (by rw [cacheType]; decide)]
  constructor
  · rintro ⟨x, above, rfl, child, path⟩
    obtain ⟨_, nests⟩ := (shaped.obj x).children _ child
    rw [cacheType] at nests
    cases type : (s'.objs x).objType with
    | package =>
      rw [connected.linked.objType] at type
      obtain ⟨e', entry', cache, rfl⟩ := (grouped.mem_children_package connected entry type).mp child
      obtain ⟨n, rfl, one⟩ := (grouped.path_package connected entry').mp path
      exact ⟨e', entry', cache, .inl ⟨n, rfl, one⟩⟩
    | node =>
      rw [connected.linked.objType] at type
      obtain ⟨one, e', entry', cache, many⟩ := (grouped.mem_children_node connected entry type).mp child
      have node : x ∈ s'.numaNodes := by
        rw [connected.linked.numaNodes]
        exact (grouped.extended.shaped.obj e.cache).numaNodes x (by rw [one]; exact List.mem_singleton_self _)
      rw [(path_node shaped node).mp path]
      exact ⟨e', entry', cache, .inr ⟨x, rfl, one, many⟩⟩
    | cache =>
      rw [type] at nests
      exact absurd nests id
    | cpu =>
      rw [type] at nests
      exact absurd nests id
  · rintro ⟨e', entry', cache, ⟨n, rfl, one⟩ | ⟨n, rfl, one, many⟩⟩
    · have packageType := (grouped.known entry').2.2.2
      exact ⟨e'.package, [e'.package, n], rfl,
        (grouped.mem_children_package connected entry packageType).mpr ⟨e', entry', cache, rfl⟩,
        (grouped.path_package connected entry').mpr ⟨n, rfl, one⟩⟩
    · have node : n ∈ s.numaNodes := (grouped.extended.shaped.obj e.cache).numaNodes n
        (by rw [one]; exact List.mem_singleton_self _)
      have nodeType := (grouped.extended.shaped.numaNodes n node).2
      rw [← connected.linked.numaNodes] at node
      exact ⟨n, [n], rfl, (grouped.mem_children_node connected entry nodeType).mpr ⟨one, e', entry', cache, many⟩,
        .node node⟩

/-- The CPUs of the cache domain of `e` agree on its package and on its node. -/
def Agree (K : Env) (s₀ : State) (entries : List Entry) (e : Entry) : Prop :=
  ∀ e' ∈ entries, e'.cache = e.cache → e'.package = e.package ∧
    ∀ n n', e.node K s₀ = some n → e'.node K s₀ = some n' → n' = n

/-- If the CPUs agree there is one path. -/
theorem Grouped.existsUnique_path (entry : e ∈ entries) (agree : Agree K s₀ entries e) (node : e.node K s₀ = some n) :
    ∃! path, Path s' e.cpu path := by
  have recorded : n ∈ (s.objs e.package).numaNodes := (grouped.mem_nodes_package entry).mpr ⟨e, entry, rfl, node⟩
  have cacheNode : (s.objs e.cache).numaNodes = [n] := by
    refine eq_singleton_of_forall (grouped.once _) ((grouped.mem_nodes_cache entry).mpr ⟨e, entry, rfl, node⟩) ?_
    intro n' other
    obtain ⟨e', entry', cache, node'⟩ := (grouped.mem_nodes_cache entry).mp other
    exact (agree e' entry' cache).2 n n' node node'
  rcases one_or_many recorded with one | many
  · refine ⟨[e.cpu, e.cache, e.package, n], ?_, fun l path => ?_⟩
    · exact (grouped.path_cpu connected entry).mpr ⟨_, rfl,
        (grouped.path_cache connected entry).mpr ⟨e, entry, rfl, .inl ⟨n, rfl, one⟩⟩⟩
    · obtain ⟨above, rfl, upper⟩ := (grouped.path_cpu connected entry).mp path
      obtain ⟨e', entry', cache, ⟨n', rfl, one'⟩ | ⟨_, _, _, many⟩⟩ := (grouped.path_cache connected entry).mp upper
      · rw [(agree e' entry' cache).1] at one' ⊢
        rw [List.singleton_inj.mp (one'.symm.trans one)]
      · rw [(agree e' entry' cache).1, one] at many
        exact absurd many (Nat.not_succ_le_self 1)
  · refine ⟨[e.cpu, e.cache, n], ?_, fun l path => ?_⟩
    · exact (grouped.path_cpu connected entry).mpr ⟨_, rfl,
        (grouped.path_cache connected entry).mpr ⟨e, entry, rfl, .inr ⟨n, rfl, cacheNode, many⟩⟩⟩
    · obtain ⟨above, rfl, upper⟩ := (grouped.path_cpu connected entry).mp path
      obtain ⟨e', entry', cache, ⟨n', _, one⟩ | ⟨n', rfl, one, _⟩⟩ := (grouped.path_cache connected entry).mp upper
      · rw [(agree e' entry' cache).1] at one
        rw [one] at many
        exact absurd many (Nat.not_succ_le_self 1)
      · rw [List.singleton_inj.mp (one.symm.trans cacheNode)]

/-- If there is a path to a CPU whose cache domain has one package, its CPUs agree on the node. -/
theorem Grouped.node_eq {n' : ObjRef} (entry : e ∈ entries) (entry' : e' ∈ entries) (cache : e'.cache = e.cache)
    (package : ∀ e' ∈ entries, e'.cache = e.cache → e'.package = e.package) (path : Path s' e.cpu l)
    (node : e.node K s₀ = some n) (node' : e'.node K s₀ = some n') : n' = n := by
  obtain ⟨above, _, path⟩ := (grouped.path_cpu connected entry).mp path
  obtain ⟨e'', entry'', cache'', ⟨k, _, one⟩ | ⟨k, _, one, _⟩⟩ := (grouped.path_cache connected entry).mp path
  · rw [package e'' entry'' cache''] at one
    have first : n ∈ (s.objs e.package).numaNodes := (grouped.mem_nodes_package entry).mpr ⟨e, entry, rfl, node⟩
    have second : n' ∈ (s.objs e.package).numaNodes :=
      (grouped.mem_nodes_package entry).mpr ⟨e', entry', package e' entry' cache, node'⟩
    rw [one, List.mem_singleton] at first second
    exact second.trans first.symm
  · have first : n ∈ (s.objs e.cache).numaNodes := (grouped.mem_nodes_cache entry).mpr ⟨e, entry, rfl, node⟩
    have second : n' ∈ (s.objs e.cache).numaNodes := (grouped.mem_nodes_cache entry).mpr ⟨e', entry', cache, node'⟩
    rw [one, List.mem_singleton] at first second
    exact second.trans first.symm

/-- The parents of CPUs and cache domains have them as children. -/
theorem Grouped.parent_mem : ∀ o ∈ s'.cpus ++ s'.cacheDomains,
    ∃ p, (s'.objs o).parent = some p ∧ o ∈ (s'.objs p).children := by
  intro o member
  rw [connected.linked.cpus, connected.linked.cacheDomains, grouped.cpus] at member
  rcases List.mem_append.mp member with cpu | cache
  · obtain ⟨e, entry, rfl⟩ := List.mem_map.mp cpu
    refine ⟨e.cache, ?_, (grouped.mem_children_cpu connected entry).mpr rfl⟩
    rw [connected.parent _ (by rw [(grouped.known entry).1.2]; decide)]
    exact grouped.cpuParent e entry
  · obtain ⟨e, entry, rfl⟩ := (grouped.caches o).mp cache
    obtain ⟨e', entry', same, parent⟩ := grouped.cacheParent e entry
    have packageType := (grouped.known entry').2.2.2
    refine ⟨e'.package, ?_, (grouped.mem_children_package connected entry packageType).mpr ⟨e', entry', same, rfl⟩⟩
    rw [connected.parent _ (by rw [(grouped.known entry).2.1.2]; decide)]
    exact parent

variable (dirs : entries.map Entry.dir = m.cpuDirs.filter (·.usable m s₀.bannedCpus)) (shaped₀ : Shaped s₀)

omit grouped connected in
include dirs in
/-- The entries are those of the CPUs that are used. -/
theorem mem_dirs {d : CpuDir} : (d ∈ m.cpuDirs ∧ d.usable m s₀.bannedCpus = true) ↔ ∃ e ∈ entries, e.dir = d := by
  rw [← List.mem_map, dirs, List.mem_filter]

include dirs in
/-- CPUs have one number each. -/
theorem Grouped.cpuPath_iff (distinct : (m.cpuDirs.map CpuDir.number).Nodup) (entry : e ∈ entries) :
    CpuPath s' e.dir.number l ↔ Path s' e.cpu l := by
  have nodup : (entries.map fun e => e.dir.number).Nodup := by
    have whole : entries.map (fun e => e.dir.number) = (entries.map Entry.dir).map CpuDir.number := by
      rw [List.map_map]
      rfl
    rw [whole, dirs]
    exact distinct.sublist (List.filter_sublist.map _)
  constructor
  · rintro ⟨c, member, number, path⟩
    rw [connected.linked.cpus, grouped.cpus] at member
    obtain ⟨e', entry', rfl⟩ := List.mem_map.mp member
    rw [connected.linked.number, grouped.number e' entry'] at number
    rw [List.inj_on_of_nodup_map nodup entry' entry (Int.ofNat_inj.mp number)] at path
    exact path
  · intro path
    refine ⟨e.cpu, ?_, ?_, path⟩
    · rw [connected.linked.cpus, grouped.cpus]
      exact List.mem_map_of_mem entry
    · rw [connected.linked.number, grouped.number e entry]

omit connected in
include dirs in
theorem Grouped.coherent_iff : Coherent K m s₀ ↔ ∀ e ∈ entries, Agree K s₀ entries e := by
  constructor
  · intro coherent e entry e' entry' cache
    obtain ⟨known, usable⟩ := (mem_dirs dirs).mpr ⟨e, entry, rfl⟩
    obtain ⟨known', usable'⟩ := (mem_dirs dirs).mpr ⟨e', entry', rfl⟩
    obtain ⟨package, node⟩ := coherent e'.dir known' e.dir known usable' usable
      (by rw [← grouped.cacheMask e' entry', ← grouped.cacheMask e entry, cache])
    exact ⟨grouped.samePackage e' entry' e entry package, fun n n' first second => node n' n second first⟩
  · intro agree d known d' known' usable usable' cache
    obtain ⟨e, entry, rfl⟩ := (mem_dirs dirs).mp ⟨known, usable⟩
    obtain ⟨e', entry', rfl⟩ := (mem_dirs dirs).mp ⟨known', usable'⟩
    obtain ⟨package, node⟩ := agree e' entry' e entry (grouped.sameCache e entry e' entry' cache)
    exact ⟨by rw [← grouped.packageMask e entry, ← grouped.packageMask e' entry', package],
      fun n n' first second => node n' n second first⟩

include dirs shaped₀ in
/-- The topology is a forest exactly if the CPUs of each cache domain agree. -/
theorem Grouped.isForest_iff (distinct : (m.cpuDirs.map CpuDir.number).Nodup) :
    IsForest K m s' ↔ ∀ e ∈ entries, Agree K s₀ entries e := by
  have extended := grouped.extended.trans connected.linked.extended
  have cpuPath {e : Entry} (entry : e ∈ entries) {l : List ObjRef} : CpuPath s' e.dir.number l ↔ Path s' e.cpu l :=
    grouped.cpuPath_iff connected dirs distinct entry
  have packages {e : Entry} (entry : e ∈ entries) {p : ObjRef} : (p ∈ s'.packages ∧ e.cache ∈ (s'.objs p).children) ↔
      ∃ e' ∈ entries, e'.cache = e.cache ∧ e'.package = p := by
    rw [connected.linked.packages, grouped.packages]
    constructor
    · rintro ⟨⟨e', entry', rfl⟩, child⟩
      exact (grouped.mem_children_package connected entry (grouped.known entry').2.2.2).mp child
    · rintro ⟨e', entry', cache, rfl⟩
      exact ⟨⟨e', entry', rfl⟩, (grouped.mem_children_package connected entry (grouped.known entry').2.2.2).mpr
        ⟨e', entry', cache, rfl⟩⟩
  constructor
  · intro forest e entry e' entry' cache
    have unique {e₁ : Entry} (entry₁ : e₁ ∈ entries) (same : e₁.cache = e.cache) : e₁.package = e.package := by
      have listed : e.cache ∈ s'.cacheDomains := by
        rw [connected.linked.cacheDomains]
        exact (grouped.caches _).mpr ⟨e, entry, rfl⟩
      exact (forest.package e.cache listed).unique ((packages entry).mpr ⟨e₁, entry₁, same, rfl⟩)
        ((packages entry).mpr ⟨e, entry, rfl, rfl⟩)
    refine ⟨unique entry' cache, fun n n' node node' => ?_⟩
    obtain ⟨known, usable⟩ := (mem_dirs dirs).mpr ⟨e, entry, rfl⟩
    have recorded : (recordedNode K (e.dir.nodeid K) s').isSome = true := by
      rw [extended.recordedNode shaped₀, show recordedNode K (e.dir.nodeid K) s₀ = some n from node]
      rfl
    obtain ⟨l, path, _⟩ := forest.path e.dir known (by rw [extended.bannedCpus]; exact usable) recorded
    exact grouped.node_eq connected entry entry' cache (fun _ => unique) ((cpuPath entry).mp path) node node'
  · intro agree
    refine ⟨fun d known usable recorded => ?_, fun cache listed => ?_, grouped.parent_mem connected⟩
    · rw [extended.bannedCpus] at usable
      obtain ⟨e, entry, rfl⟩ := (mem_dirs dirs).mp ⟨known, usable⟩
      rw [extended.recordedNode shaped₀] at recorded
      obtain ⟨n, node⟩ := Option.isSome_iff_exists.mp recorded
      obtain ⟨l, path, unique⟩ := grouped.existsUnique_path connected entry (agree e entry) node
      exact ⟨l, (cpuPath entry).mpr path, fun l' path' => unique l' ((cpuPath entry).mp path')⟩
    · rw [connected.linked.cacheDomains] at listed
      obtain ⟨e, entry, rfl⟩ := (grouped.caches cache).mp listed
      refine ⟨e.package, (packages entry).mpr ⟨e, entry, rfl, rfl⟩, fun p package => ?_⟩
      obtain ⟨e', entry', same, rfl⟩ := (packages entry).mp package
      exact (agree e entry e' entry' same).1

end Tree

/-- `build_object_tree` builds a forest exactly if the CPUs of each cache domain agree on their package and
on their node. -/
theorem parseCpuTree_isForest (K : Env) (m : Machine) (banned : CpuMask) (s : State)
    (distinct : (m.cpuDirs.map CpuDir.number).Nodup) :
    IsForest K m (parseCpuTree K m banned (buildNumaNodeList K m (freeTopology s))) ↔
      Coherent K m ((buildNumaNodeList K m (freeTopology s)).setBans banned) := by
  have only := (buildNumaNodeList_onlyNodes (K := K) m (freeTopology_onlyNodes (s := s))).1
  have bare := buildNumaNodeList_bare (K := K) m (freeTopology_bare (s := s))
  obtain ⟨entries, s₁, dirs, grouped, connected⟩ := parseCpuTree_connected (K := K) m banned only bare
  rw [grouped.coherent_iff dirs]
  exact grouped.isForest_iff connected dirs (setBans_shaped only banned) distinct

/-- On `twoNodes` the caches keep to nodes. -/
theorem parseCpuTree_isForest_twoNodes : IsForest { numaAvail := true } twoNodes
    (parseCpuTree { numaAvail := true } twoNodes (BitVec.ofNat NR_CPUS 4)
      (buildNumaNodeList { numaAvail := true } twoNodes (freeTopology (boot (fun _ => CPU_MASK_NONE) [] [])))) := by
  apply (parseCpuTree_isForest _ _ _ _ (by decide)).mpr
  intro d known d' known' usable usable' cache
  have agree : ∀ d ∈ twoNodes.cpuDirs, ∀ d' ∈ twoNodes.cpuDirs,
      let s := (buildNumaNodeList { numaAvail := true } twoNodes
        (freeTopology (boot (fun _ => CPU_MASK_NONE) [] []))).setBans (BitVec.ofNat NR_CPUS 4)
      d.usableCache { numaAvail := true } s = d'.usableCache { numaAvail := true } s →
        d.usablePackage { numaAvail := true } s = d'.usablePackage { numaAvail := true } s ∧
          recordedNode { numaAvail := true } (d.nodeid { numaAvail := true }) s =
            recordedNode { numaAvail := true } (d'.nodeid { numaAvail := true }) s := by
    decide +kernel
  obtain ⟨package, node⟩ := agree d known d' known' cache
  refine ⟨package, fun n n' first second => ?_⟩
  rw [node, second] at first
  exact (Option.some.inj first).symm

/-- The masks are the blocks of a partition of the online CPUs. -/
structure Blocks (m : Machine) (mask : CpuDir → CpuMask) : Prop where
  own : ∀ d ∈ m.cpuDirs, cpuIsset d.number m.online = true → cpuIsset d.number (mask d) = true
  online : ∀ d ∈ m.cpuDirs, cpuIsset d.number m.online = true → Within (mask d) m.online
  same : ∀ d ∈ m.cpuDirs, ∀ d' ∈ m.cpuDirs, cpuIsset d.number m.online = true →
    cpuIsset d'.number m.online = true → cpusIntersects (mask d) (mask d') = true → mask d = mask d'

/-- Caches, packages and nodes partition the online CPUs, each in its own way. -/
structure Partitioned (K : Env) (m : Machine) : Prop where
  distinct : (m.cpuDirs.map CpuDir.number).Nodup
  caches : Blocks m (CpuDir.cacheMask K.deepestCache)
  packages : Blocks m CpuDir.siblings
  ids : (m.nodeDirs.map (·.id)).Nodup
  nodes : ∀ d ∈ m.cpuDirs, cpuIsset d.number m.online = true →
    ∃ a ∈ m.nodeDirs, d.node = some a.id ∧ cpuIsset d.number a.mask = true
  disjoint : ∀ a ∈ m.nodeDirs, ∀ b ∈ m.nodeDirs, cpusIntersects a.mask b.mask = true → a = b
  nodesOnline : ∀ a ∈ m.nodeDirs, Within a.mask m.online

/-- A package with one cache for all CPUs and two nodes. -/
def oneCache : Machine where
  online := BitVec.ofNat NR_CPUS 15
  cpuDirs := [nodeCpu 0 0 (BitVec.ofNat NR_CPUS 15), nodeCpu 1 0 (BitVec.ofNat NR_CPUS 15),
    nodeCpu 2 1 (BitVec.ofNat NR_CPUS 15), nodeCpu 3 1 (BitVec.ofNat NR_CPUS 15)]
  nodeDirs := [⟨0, some (BitVec.ofNat NR_CPUS 3)⟩, ⟨1, some (BitVec.ofNat NR_CPUS 12)⟩]

theorem oneCache_partitioned : Partitioned { numaAvail := true } oneCache where
  distinct := by decide
  caches := ⟨by decide +kernel, by decide +kernel, by decide +kernel⟩
  packages := ⟨by decide +kernel, by decide +kernel, by decide +kernel⟩
  ids := by decide
  nodes := by decide +kernel
  disjoint := by decide +kernel
  nodesOnline := by decide +kernel

/-- The cache domain is in both packages that are made of the one package. -/
theorem parseCpuTree_oneCache : ¬ ∀ (K : Env) (m : Machine) (banned : CpuMask) (s : State), Partitioned K m →
    IsForest K m (parseCpuTree K m banned (buildNumaNodeList K m (freeTopology s))) := by
  intro all
  have forest := all { numaAvail := true } oneCache CPU_MASK_NONE (boot (fun _ => CPU_MASK_NONE) [] [])
    oneCache_partitioned
  obtain ⟨first, _, unique⟩ := forest.package 4 (by decide +kernel)
  exact absurd ((unique 5 (by decide +kernel)).trans (unique 8 (by decide +kernel)).symm) (by decide)

end Irqbalance
