import Irqbalance.Proofs.Links

/-! # The links that `parse_cpu_tree` makes

Each CPU that is used leaves an `Entry`: its object, its cache domain and its package. The links of the
tree before `connect_cpu_mem_topo` are exactly those of the entries. Connecting then makes a package
the child of its node if it has one node, and else those of its cache domains that have one node.
-/

namespace Irqbalance

variable {K : Env} {m : Machine}

/-- A CPU that is used and where it has been put. -/
structure Entry where
  dir : CpuDir
  cpu : ObjRef
  cache : ObjRef
  package : ObjRef

/-- The node that is recorded for the objects of the entry. -/
def Entry.node (K : Env) (s₀ : State) (e : Entry) : Option ObjRef := recordedNode K (e.dir.nodeid K) s₀

/-- The second object is a child of the first because of the entry. -/
def Entry.links (K : Env) (s₀ : State) (e : Entry) (x o : ObjRef) : Prop :=
  (e.cache = x ∧ e.cpu = o) ∨ (e.package = x ∧ e.cache = o) ∨
    (K.numaAvail = false ∧ e.node K s₀ = some x ∧ e.package = o)

/-- The tree over the nodes of `s₀` once the entries have been made. -/
structure Grouped (K : Env) (s₀ : State) (entries : List Entry) (s : State) : Prop where
  extended : Extended s₀ s
  cpus : s.cpus = entries.map Entry.cpu
  nodup : s.cpus.Nodup
  caches : ∀ o, o ∈ s.cacheDomains ↔ ∃ e ∈ entries, e.cache = o
  packages : ∀ o, o ∈ s.packages ↔ ∃ e ∈ entries, e.package = o
  number : ∀ e ∈ entries, (s.objs e.cpu).number = e.dir.number
  cacheMask : ∀ e ∈ entries, (s.objs e.cache).mask = e.dir.usableCache K s₀
  packageMask : ∀ e ∈ entries, (s.objs e.package).mask = e.dir.usablePackage K s₀
  sameCache : ∀ e ∈ entries, ∀ e' ∈ entries, e.dir.usableCache K s₀ = e'.dir.usableCache K s₀ → e.cache = e'.cache
  samePackage : ∀ e ∈ entries, ∀ e' ∈ entries,
    e.dir.usablePackage K s₀ = e'.dir.usablePackage K s₀ → e.package = e'.package
  children : ∀ x o, o ∈ (s.objs x).children ↔ ∃ e ∈ entries, e.links K s₀ x o
  numaNodes : ∀ x n, n ∈ (s.objs x).numaNodes ↔
    ∃ e ∈ entries, (e.cache = x ∨ e.package = x) ∧ e.node K s₀ = some n
  once : ∀ x, (s.objs x).numaNodes.Nodup
  cpuParent : ∀ e ∈ entries, (s.objs e.cpu).parent = some e.cache
  cacheParent : ∀ e ∈ entries, ∃ e' ∈ entries, e'.cache = e.cache ∧ (s.objs e.cache).parent = some e'.package

section Joining

variable {s₀ s s' : State} {entries : List Entry} {d : CpuDir} {cache package x o n : ObjRef}

theorem Joined.types (joined : Joined K d s s' cache package) :
    (s'.objs cache).objType = .cache ∧ (s'.objs package).objType = .package ∧
      cache ∈ s'.cacheDomains ∧ package ∈ s'.packages := by
  have cached : cache ∈ s'.cacheDomains := by
    rcases joined.caches with ⟨old, same⟩ | ⟨_, _, new⟩
    · rw [same]
      exact old
    · rw [new]
      exact List.mem_append_right _ (List.mem_singleton_self _)
  have packaged : package ∈ s'.packages := by
    rcases joined.packages with ⟨old, same⟩ | ⟨_, _, new⟩
    · rw [same]
      exact old
    · rw [new]
      exact List.mem_append_right _ (List.mem_singleton_self _)
  exact ⟨(joined.extended.shaped.cacheDomains cache cached).2, (joined.extended.shaped.packages package packaged).2,
    cached, packaged⟩

/-- The new children. -/
theorem Joined.mem_children (joined : Joined K d s s' cache package) (shaped : Shaped s) :
    o ∈ (s'.objs x).children ↔ o ∈ (s.objs x).children ∨ (cache = x ∧ s.nextObj = o) ∨ (package = x ∧ cache = o) ∨
      (K.numaAvail = false ∧ recordedNode K (d.nodeid K) s = some x ∧ package = o) := by
  obtain ⟨cacheType, packageType, _, _⟩ := joined.types
  have distinct : cache ≠ package := by
    rintro rfl
    rw [cacheType] at packageType
    contradiction
  have nodeType (node : recordedNode K (d.nodeid K) s = some x) : (s'.objs x).objType = .node := by
    obtain ⟨allocated, type⟩ := shaped.numaNodes x (recordedNode_mem node)
    rw [joined.extended.objType x allocated, type]
  have notNode (type : (s'.objs x).objType ≠ .node) : recordedNode K (d.nodeid K) s ≠ some x :=
    fun node => type (nodeType node)
  rw [joined.children]
  by_cases isCache : x = cache
  · subst isCache
    have unrecorded := notNode (by rw [cacheType]; decide)
    rw [if_pos rfl, mem_insertNew]
    simp only [distinct.symm, unrecorded, true_and, false_and, and_false, or_false]
    exact or_congr_right eq_comm
  · rw [if_neg isCache]
    by_cases isPackage : x = package
    · subst isPackage
      have unrecorded := notNode (by rw [packageType]; decide)
      rw [if_pos rfl, mem_insertNew]
      simp only [distinct, unrecorded, true_and, false_and, and_false, or_false, false_or]
      exact or_congr_right eq_comm
    · rw [if_neg isPackage]
      split
      · rename_i recorded
        rw [mem_insertNew]
        simp only [Ne.symm isCache, Ne.symm isPackage, recorded.1, recorded.2, true_and, false_and, false_or]
        exact or_congr_right eq_comm
      · rename_i unrecorded
        rw [not_and] at unrecorded
        simp only [Ne.symm isCache, Ne.symm isPackage, false_and, false_or]
        refine ⟨.inl, fun either => either.elim id fun all => ?_⟩
        exact absurd all.2.1 (unrecorded all.1)

theorem Joined.mem_numaNodes (joined : Joined K d s s' cache package) :
    n ∈ (s'.objs x).numaNodes ↔ n ∈ (s.objs x).numaNodes ∨
      ((cache = x ∨ package = x) ∧ recordedNode K (d.nodeid K) s = some n) := by
  rw [joined.numaNodes]
  split
  · rename_i own
    have own : cache = x ∨ package = x := own.imp Eq.symm Eq.symm
    cases recordedNode K (d.nodeid K) s with
    | none => simp
    | some node =>
      simp only [Option.elim, mem_insertNew, own, true_and, Option.some.injEq]
      rw [eq_comm]
  · rename_i other
    have other : ¬ (cache = x ∨ package = x) := fun own => other (own.imp Eq.symm Eq.symm)
    simp [other]

theorem Joined.once (joined : Joined K d s s' cache package) (once : (s.objs x).numaNodes.Nodup) :
    (s'.objs x).numaNodes.Nodup := by
  rw [joined.numaNodes]
  split
  · cases recordedNode K (d.nodeid K) s with
    | none => exact once
    | some node =>
      simp only [Option.elim, insertNew]
      split
      · exact once
      · rename_i new
        exact List.nodup_append.mpr ⟨once, List.nodup_singleton _, fun a member b single => by
          rw [List.mem_singleton.mp single]
          rintro rfl
          exact new member⟩
  · exact once

theorem Grouped.known (grouped : Grouped K s₀ entries s) {e : Entry} (entry : e ∈ entries) :
    (e.cpu < s.nextObj ∧ (s.objs e.cpu).objType = .cpu) ∧ (e.cache < s.nextObj ∧ (s.objs e.cache).objType = .cache) ∧
      (e.package < s.nextObj ∧ (s.objs e.package).objType = .package) := by
  have shaped := grouped.extended.shaped
  refine ⟨shaped.cpus _ ?_, shaped.cacheDomains _ ((grouped.caches _).mpr ⟨e, entry, rfl⟩),
    shaped.packages _ ((grouped.packages _).mpr ⟨e, entry, rfl⟩)⟩
  rw [grouped.cpus]
  exact List.mem_map_of_mem entry

/-- A mask that a list has already belongs to one of the entries. -/
theorem sameMask {mask : Entry → CpuMask} {object : Entry → ObjRef} {found : ObjRef} {list list' : List ObjRef}
    {wanted : CpuMask} (listed : ∀ o, o ∈ list ↔ ∃ e ∈ entries, object e = o)
    (masks : ∀ e ∈ entries, (s.objs (object e)).mask = mask e)
    (same : ∀ e ∈ entries, ∀ e' ∈ entries, mask e = mask e' → object e = object e')
    (kept : ∀ o ∈ list, (s'.objs o).mask = (s.objs o).mask) (foundMask : (s'.objs found).mask = wanted)
    (joined : (found ∈ list ∧ list' = list) ∨
      ((∀ o ∈ list, (s.objs o).mask ≠ wanted) ∧ s.nextObj < found ∧ list' = list ++ [found]))
    {e : Entry} (entry : e ∈ entries) (wants : mask e = wanted) : object e = found := by
  rcases joined with ⟨old, _⟩ | ⟨absent, _, _⟩
  · obtain ⟨e', entry', rfl⟩ := (listed found).mp old
    apply same e entry e' entry'
    rw [wants, ← foundMask, kept _ old, masks e' entry']
  · exact absurd ((masks e entry).trans wants) (absent _ ((listed _).mpr ⟨e, entry, rfl⟩))

/-- The list of the objects of all entries. -/
theorem mem_joined {object : Entry → ObjRef} {found : ObjRef} {list list' : List ObjRef} {absent : Prop} {e : Entry}
    (listed : ∀ o, o ∈ list ↔ ∃ e ∈ entries, object e = o) (own : object e = found)
    (joined : (found ∈ list ∧ list' = list) ∨ (absent ∧ s.nextObj < found ∧ list' = list ++ [found])) :
    o ∈ list' ↔ ∃ e' ∈ entries ++ [e], object e' = o := by
  have snoc : (∃ e' ∈ entries ++ [e], object e' = o) ↔ o ∈ list ∨ found = o := by
    simp only [List.mem_append, List.mem_singleton, or_and_right, exists_or, exists_eq_left, own, listed]
  rw [snoc]
  rcases joined with ⟨old, same⟩ | ⟨_, _, new⟩
  · rw [same]
    exact ⟨.inl, fun either => either.elim id fun same => same ▸ old⟩
  · rw [new, List.mem_append, List.mem_singleton]
    exact or_congr_right eq_comm

/-- The parent of an older CPU stays. -/
theorem Joined.parent_cpu (joined : Joined K d s s' cache package) (known : x < s.nextObj)
    (type : (s.objs x).objType = .cpu) : (s'.objs x).parent = (s.objs x).parent := by
  obtain ⟨cacheType, packageType, _, _⟩ := joined.types
  have typed : (s'.objs x).objType = .cpu := (joined.extended.objType _ known).trans type
  have notCache : x ≠ cache := by
    rintro rfl
    rw [cacheType] at typed
    contradiction
  have notPackage : x ≠ package := by
    rintro rfl
    rw [packageType] at typed
    contradiction
  rw [joined.parent x known.ne notPackage, if_neg fun both => notCache both.1]

/-- The parent of a cache domain is the package of one of its CPUs, or that of the new one. -/
theorem Grouped.parent_cache (grouped : Grouped K s₀ entries s) (joined : Joined K d s s' cache package)
    (type : (s'.objs x).objType = .cache) (listed : x = cache ∨ ∃ e ∈ entries, e.cache = x) :
    (x = cache ∧ (s'.objs x).parent = some package) ∨
      ∃ e ∈ entries, e.cache = x ∧ (s'.objs x).parent = some e.package := by
  have notCpu : x ≠ s.nextObj := by
    rintro rfl
    rw [joined.cpu.1] at type
    contradiction
  have notPackage : x ≠ package := by
    rintro rfl
    rw [joined.types.2.1] at type
    contradiction
  rw [joined.parent x notCpu notPackage]
  by_cases adopted : x = cache ∧ cache ∉ (s.objs package).children
  · rw [if_pos adopted]
    exact .inl ⟨adopted.1, rfl⟩
  · rw [if_neg adopted]
    -- a cache domain that is listed already cannot be the new one
    have old : ∃ e ∈ entries, e.cache = x := by
      refine listed.elim (fun own => ?_) id
      have child : cache ∈ (s.objs package).children := not_not.mp fun unlisted => adopted ⟨own, unlisted⟩
      rw [own]
      rcases joined.caches with ⟨old, _⟩ | ⟨_, new, _⟩
      · exact (grouped.caches cache).mp old
      · exact absurd ((grouped.extended.shaped.obj package).children cache child).1 new.not_gt
    obtain ⟨e, entry, rfl⟩ := old
    obtain ⟨e', entry', same, parent⟩ := grouped.cacheParent e entry
    exact .inr ⟨e', entry', same, parent⟩

/-- One more CPU makes one more entry. -/
theorem Grouped.join (grouped : Grouped K s₀ entries s) (shaped₀ : Shaped s₀)
    (joined : Joined K d s s' cache package) : Grouped K s₀ (entries ++ [⟨d, s.nextObj, cache, package⟩]) s' := by
  have shaped := grouped.extended.shaped
  have cacheType := joined.types.1
  have node : recordedNode K (d.nodeid K) s = recordedNode K (d.nodeid K) s₀ := grouped.extended.recordedNode shaped₀
  have usableCache := grouped.extended.usableCache (K := K) (d := d)
  have usablePackage := grouped.extended.usablePackage (K := K) (d := d) shaped₀
  have snoc {P : Entry → Prop} : (∃ e ∈ entries ++ [⟨d, s.nextObj, cache, package⟩], P e) ↔
      (∃ e ∈ entries, P e) ∨ P ⟨d, s.nextObj, cache, package⟩ := by
    simp only [List.mem_append, List.mem_singleton, or_and_right, exists_or, exists_eq_left]
  have all {P : Entry → Prop} (old : ∀ e ∈ entries, P e) (new : P ⟨d, s.nextObj, cache, package⟩) :
      ∀ e ∈ entries ++ [⟨d, s.nextObj, cache, package⟩], P e := by
    intro e entry
    rcases List.mem_append.mp entry with entry | entry
    · exact old e entry
    · rw [List.mem_singleton.mp entry]
      exact new
  have cacheOf {e : Entry} (entry : e ∈ entries) (same : e.dir.usableCache K s₀ = d.usableCache K s₀) :
      e.cache = cache :=
    sameMask grouped.caches grouped.cacheMask grouped.sameCache
      (fun o old => joined.extended.mask o (shaped.cacheDomains o old).1)
      joined.cacheMask joined.caches entry (same.trans usableCache.symm)
  have packageOf {e : Entry} (entry : e ∈ entries) (same : e.dir.usablePackage K s₀ = d.usablePackage K s₀) :
      e.package = package :=
    sameMask grouped.packages grouped.packageMask grouped.samePackage
      (fun o old => joined.extended.mask o (shaped.packages o old).1)
      joined.packageMask joined.packages entry (same.trans usablePackage.symm)
  have fresh : s.nextObj ∉ s.cpus := fun member => absurd (shaped.cpus _ member).1 (lt_irrefl _)
  exact {
    extended := grouped.extended.trans joined.extended
    cpus := by
      rw [joined.cpus, grouped.cpus, List.map_append]
      rfl
    nodup := by
      rw [joined.cpus]
      exact List.nodup_append.mpr ⟨grouped.nodup, List.nodup_singleton _, fun a member b single => by
        rw [List.mem_singleton.mp single]
        rintro rfl
        exact fresh member⟩
    caches := fun o => mem_joined grouped.caches rfl joined.caches
    packages := fun o => mem_joined grouped.packages rfl joined.packages
    number := all
      (fun e entry => (joined.extended.number _ (grouped.known entry).1.1).trans (grouped.number e entry))
      joined.cpu.2
    cacheMask := all
      (fun e entry => (joined.extended.mask _ (grouped.known entry).2.1.1).trans (grouped.cacheMask e entry))
      (joined.cacheMask.trans usableCache)
    packageMask := all
      (fun e entry => (joined.extended.mask _ (grouped.known entry).2.2.1).trans (grouped.packageMask e entry))
      (joined.packageMask.trans usablePackage)
    sameCache := all
      (fun e entry => all (grouped.sameCache e entry) fun same => cacheOf entry same)
      (all (fun e entry same => (cacheOf entry same.symm).symm) fun _ => rfl)
    samePackage := all
      (fun e entry => all (grouped.samePackage e entry) fun same => packageOf entry same)
      (all (fun e entry same => (packageOf entry same.symm).symm) fun _ => rfl)
    children := fun x o => by
      rw [joined.mem_children shaped, grouped.children, snoc, node]
      rfl
    numaNodes := fun x n => by
      rw [joined.mem_numaNodes, grouped.numaNodes, snoc, node]
      rfl
    once := fun x => joined.once (grouped.once x)
    cpuParent := all
      (fun e entry => by
        obtain ⟨⟨known, type⟩, _, _⟩ := grouped.known entry
        rw [joined.parent_cpu known type]
        exact grouped.cpuParent e entry)
      joined.cpuParent
    cacheParent := by
      have found {e : Entry} (type : (s'.objs e.cache).objType = .cache)
          (listed : e.cache = cache ∨ ∃ e' ∈ entries, e'.cache = e.cache) :
          ∃ e' ∈ entries ++ [⟨d, s.nextObj, cache, package⟩],
            e'.cache = e.cache ∧ (s'.objs e.cache).parent = some e'.package := by
        rw [snoc]
        rcases grouped.parent_cache joined type listed with ⟨own, parent⟩ | old
        · exact .inr ⟨own.symm, parent⟩
        · exact .inl old
      refine all (fun e entry => found ?_ (.inr ⟨e, entry, rfl⟩)) (found cacheType (.inl rfl))
      obtain ⟨known, type⟩ := (grouped.known entry).2.1
      exact (joined.extended.objType _ known).trans type }

theorem Grouped.setOnline (grouped : Grouped K s₀ entries s) (d : CpuDir) :
    Grouped K s₀ entries (s.setOnline d) :=
  { grouped with extended := grouped.extended.trans (setOnline_extended d grouped.extended.shaped) }

/-- The CPUs that are used make the entries, in the order of their directories. -/
theorem Grouped.forEach_doOneCpu (dirs : List CpuDir) (grouped : Grouped K s₀ entries s) (shaped₀ : Shaped s₀)
    (banning : Banning s₀) : ∃ new, new.map Entry.dir = dirs.filter (·.usable m s₀.bannedCpus) ∧
      Grouped K s₀ (entries ++ new) (forEach dirs (doOneCpu K m) s) := by
  induction dirs generalizing s entries with
  | nil => exact ⟨[], rfl, by rw [List.append_nil]; exact grouped⟩
  | cons d rest ih =>
    rw [forEach_cons]
    cases usable : d.usable m s₀.bannedCpus with
    | false =>
      rw [List.filter_cons, if_neg (by rw [usable]; exact Bool.false_ne_true)]
      have same := doOneCpu_unusable (K := K) (s := s) m d (by rw [grouped.extended.bannedCpus]; exact usable)
      rcases same with same | online
      · rw [same]
        exact ih grouped
      · rw [online]
        exact ih (grouped.setOnline d)
    | true =>
      rw [List.filter_cons, if_pos usable]
      obtain ⟨cache, package, joined⟩ := doOneCpu_joined (K := K) m d grouped.extended.shaped
        (grouped.extended.banning banning) (by rw [grouped.extended.bannedCpus]; exact usable)
      obtain ⟨new, dirs, whole⟩ := ih (grouped.join shaped₀ joined)
      refine ⟨⟨d, s.nextObj, cache, package⟩ :: new, ?_, ?_⟩
      · rw [List.map_cons, dirs]
      · rw [List.append_assoc] at whole
        exact whole

end Joining

section Connecting

variable {s s' s'' : State} {P Q : ObjRef → ObjRef → Prop} {p c n o : ObjRef}

/-- The children of the nodes grow, by `P`. -/
structure Connected (P : ObjRef → ObjRef → Prop) (s s' : State) : Prop where
  linked : Linked s s'
  numaNodes : ∀ x, (s'.objs x).numaNodes = (s.objs x).numaNodes
  inner : ∀ x, (s.objs x).objType ≠ .node → (s'.objs x).children = (s.objs x).children
  node : ∀ n o, (s.objs n).objType = .node → (o ∈ (s'.objs n).children ↔ o ∈ (s.objs n).children ∨ P n o)
  parent : ∀ x, (s.objs x).objType ≠ .package → (s'.objs x).parent = (s.objs x).parent

theorem Connected.refl (shaped : Shaped s) (nothing : ∀ n o, ¬ P n o) : Connected P s s where
  linked := .refl shaped
  numaNodes _ := rfl
  inner _ _ := rfl
  node n o _ := (or_iff_left (nothing n o)).symm
  parent _ _ := rfl

theorem Connected.congr (connected : Connected P s s') (same : ∀ n o, P n o ↔ Q n o) : Connected Q s s' :=
  { connected with node := fun n o type => (connected.node n o type).trans (or_congr_right (same n o)) }

theorem Connected.trans (first : Connected P s s') (second : Connected Q s' s'') :
    Connected (fun n o => P n o ∨ Q n o) s s'' where
  linked := first.linked.trans second.linked
  numaNodes x := (second.numaNodes x).trans (first.numaNodes x)
  inner x other := (second.inner x (by rw [first.linked.objType]; exact other)).trans (first.inner x other)
  node n o type := by
    rw [second.node n o (by rw [first.linked.objType]; exact type), first.node n o type, or_assoc]
  parent x other := (second.parent x (by rw [first.linked.objType]; exact other)).trans (first.parent x other)

/-- Whatever each element connects, the walk connects. -/
theorem forEach_connected {R : ObjRef → ObjRef → ObjRef → Prop} {f : ObjRef → State → State} (l : List ObjRef)
    (shaped : Shaped s) (visit : ∀ x ∈ l, ∀ Q s', Connected Q s s' → Connected (R x) s' (f x s')) :
    Connected (fun n o => ∃ x ∈ l, R x n o) s (forEach l f s) := by
  have walk (done rest : List ObjRef) (s' : State) (split : l = done ++ rest)
      (connected : Connected (fun n o => ∃ x ∈ done, R x n o) s s') :
      Connected (fun n o => ∃ x ∈ l, R x n o) s (forEach rest f s') := by
    induction rest generalizing done s' with
    | nil =>
      rw [List.append_nil] at split
      rw [split]
      exact connected
    | cons x rest ih =>
      have member : x ∈ l := by
        rw [split]
        exact List.mem_append_right _ List.mem_cons_self
      apply ih (done ++ [x]) (f x s') (by rw [split, List.append_assoc]; rfl)
      apply (connected.trans (visit x member _ s' connected)).congr
      intro n o
      simp only [List.mem_append, List.mem_singleton, or_and_right, exists_or, exists_eq_left]
  exact walk [] l s rfl (.refl shaped fun n o none => by simp at none)

/-- An object with one node becomes a child of it. -/
theorem connectCpuMemTopo_one (fuel : ℕ) (shaped : Shaped s) (allocated : p < s.nextObj)
    (one : (s.objs p).numaNodes = [n]) :
    Connected (fun node o => node = n ∧ o = p) s (connectCpuMemTopo (fuel + 1) p s) := by
  have linked := connectCpuMemTopo_linked (fuel + 1) shaped allocated
  have node : n ∈ s.numaNodes := (shaped.obj p).numaNodes n (by rw [one]; exact List.mem_singleton_self _)
  have nodeType := (shaped.numaNodes n node).2
  have links (s₁ : State) (children : ∀ x, (s₁.objs x).children = (s.objs x).children)
      (numaNodes : ∀ x, (s₁.objs x).numaNodes = (s.objs x).numaNodes)
      (parent : ∀ x, (s.objs x).objType ≠ .package → (s₁.objs x).parent = (s.objs x).parent)
      (linked : Linked s (if p ∈ (s₁.objs n).children then s₁ else s₁.addChild n p)) :
      Connected (fun node o => node = n ∧ o = p) s (if p ∈ (s₁.objs n).children then s₁ else s₁.addChild n p) := by
    split
    · rename_i listed
      rw [if_pos listed] at linked
      refine ⟨linked, numaNodes, fun x _ => children x, fun x o _ => ?_, parent⟩
      rw [children]
      refine (or_iff_left_of_imp ?_).symm
      rintro ⟨rfl, rfl⟩
      rw [← children]
      exact listed
    · rename_i unlisted
      rw [if_neg unlisted] at linked
      refine ⟨linked, fun x => addChild_links.2.2.trans (numaNodes x), fun x other => ?_, fun x o _ => ?_,
        fun x other => addChild_links.2.1.trans (parent x other)⟩
      · have notNode : x ≠ n := by
          rintro rfl
          exact other nodeType
        rw [addChild_links.1, if_neg notNode, children]
      · rw [addChild_links.1]
        by_cases own : x = n
        · rw [if_pos own, List.mem_append, List.mem_singleton, children, own]
          exact or_congr_right ⟨fun same => ⟨rfl, same⟩, fun both => both.2⟩
        · rw [if_neg own, children]
          exact (or_iff_left fun both => own both.1).symm
  rw [connectCpuMemTopo, one] at linked ⊢
  dsimp only at linked ⊢
  split at linked
  · rename_i package
    rw [if_pos package]
    refine links _ (fun x => setParent_links.1) (fun x => setParent_links.2.2) (fun x other => ?_) linked
    have notPackage : x ≠ p := by
      rintro rfl
      exact other (beq_iff_eq.mp (Bool.and_eq_true_iff.mp package).1)
    rw [setParent_links.2.1, if_neg notPackage]
  · rename_i other
    rw [if_neg other]
    exact links s (fun _ => rfl) (fun _ => rfl) (fun _ _ => rfl) linked

/-- Nothing is connected below an object whose children have no nodes. -/
theorem connectCpuMemTopo_none (fuel : ℕ) (none : (s.objs p).numaNodes = []) : connectCpuMemTopo fuel p s = s := by
  cases fuel with
  | zero => rfl
  | succ fuel => rw [connectCpuMemTopo, none]

/-- An object with several nodes leaves the connecting to its children. -/
theorem connectCpuMemTopo_many (fuel : ℕ) (many : 2 ≤ (s.objs p).numaNodes.length) :
    connectCpuMemTopo (fuel + 1) p s = forEach (s.objs p).children (connectCpuMemTopo fuel) s := by
  rw [connectCpuMemTopo]
  split
  · rename_i none
    rw [none] at many
    contradiction
  · rename_i one
    rw [one] at many
    contradiction
  · rfl

/-- A cache domain is connected if it has one node. -/
theorem connectCpuMemTopo_cache (fuel : ℕ) (shaped : Shaped s) (allocated : c < s.nextObj)
    (type : (s.objs c).objType = .cache) :
    Connected (fun n o => o = c ∧ (s.objs c).numaNodes = [n]) s (connectCpuMemTopo (fuel + 1) c s) := by
  rcases nodes : (s.objs c).numaNodes with _ | ⟨n, _ | ⟨n', rest⟩⟩
  · rw [connectCpuMemTopo_none _ nodes]
    exact .refl shaped fun n o both => List.cons_ne_nil _ _ both.2.symm
  · apply (connectCpuMemTopo_one fuel shaped allocated nodes).congr
    intro node o
    rw [List.cons.injEq]
    exact ⟨fun both => ⟨both.2, both.1.symm, rfl⟩, fun both => ⟨both.2.1.symm, both.1⟩⟩
  · rw [connectCpuMemTopo_many fuel (by rw [nodes]; exact Nat.le_add_left 2 _)]
    have still : forEach (s.objs c).children (connectCpuMemTopo fuel) s = s := by
      apply forEach_preserves (I := (· = s)) rfl
      intro cpu child s' same
      obtain ⟨_, nests⟩ := (shaped.obj c).children cpu child
      rw [same]
      refine connectCpuMemTopo_none fuel (not_not.mp fun some => ?_)
      rw [type] at nests
      rcases (shaped.obj cpu).attached some with package | cache
      · rw [package] at nests
        exact nests
      · rw [cache] at nests
        exact nests
    rw [still]
    exact .refl shaped fun n o both => by simp at both

/-- A package with one node is connected, and else those of its cache domains that have one. -/
def Connects (s : State) (p n o : ObjRef) : Prop :=
  (o = p ∧ (s.objs p).numaNodes = [n]) ∨
    (o ∈ (s.objs p).children ∧ 2 ≤ (s.objs p).numaNodes.length ∧ (s.objs o).numaNodes = [n])

theorem connectCpuMemTopo_package (fuel : ℕ) (shaped : Shaped s) (allocated : p < s.nextObj)
    (type : (s.objs p).objType = .package) :
    Connected (Connects s p) s (connectCpuMemTopo (fuel + 2) p s) := by
  unfold Connects
  rcases nodes : (s.objs p).numaNodes with _ | ⟨n, _ | ⟨n', rest⟩⟩
  · rw [connectCpuMemTopo_none _ nodes]
    exact .refl shaped fun n o either => by simp at either
  · apply (connectCpuMemTopo_one (fuel + 1) shaped allocated nodes).congr
    intro node o
    simp only [List.cons.injEq, and_true, List.length_singleton, Nat.not_succ_le_self, false_and, and_false, or_false]
    exact ⟨fun both => ⟨both.2, both.1.symm⟩, fun both => ⟨both.2.symm, both.1⟩⟩
  · rw [connectCpuMemTopo_many (fuel + 1) (by rw [nodes]; exact Nat.le_add_left 2 _)]
    have walk := forEach_connected (R := fun c n o => o = c ∧ (s.objs c).numaNodes = [n])
      (f := connectCpuMemTopo (fuel + 1)) (s.objs p).children shaped fun c child Q s' connected => by
        obtain ⟨known, nests⟩ := (shaped.obj p).children c child
        have cacheType : (s.objs c).objType = .cache := by
          rw [type] at nests
          revert nests
          cases (s.objs c).objType <;> simp [ObjType.nests]
        have connects := connectCpuMemTopo_cache fuel connected.linked.shaped
          (by rw [connected.linked.nextObj]; exact known) (by rw [connected.linked.objType]; exact cacheType)
        rw [connected.numaNodes] at connects
        exact connects
    apply walk.congr
    intro n o
    simp only [List.length_cons, List.cons.injEq, reduceCtorEq, and_false, false_or]
    constructor
    · rintro ⟨c, child, rfl, one⟩
      exact ⟨child, by omega, one⟩
    · rintro ⟨child, _, one⟩
      exact ⟨o, child, rfl, one⟩

/-- All packages are connected. -/
theorem forEach_connectCpuMemTopo (shaped : Shaped s) :
    Connected (fun n o => ∃ p ∈ s.packages, Connects s p n o) s
      (forEach s.packages (connectCpuMemTopo 3) s) := by
  apply forEach_connected s.packages shaped
  intro p listed Q s' connected
  obtain ⟨known, type⟩ := shaped.packages p listed
  have connects := connectCpuMemTopo_package 1 connected.linked.shaped
    (by rw [connected.linked.nextObj]; exact known) (by rw [connected.linked.objType]; exact type)
  apply connects.congr
  intro n o
  unfold Connects
  rw [connected.numaNodes, connected.numaNodes, connected.inner p (by rw [type]; decide)]

end Connecting

section Building

variable {s : State}

theorem Bare.grouped (bare : Bare s) (shaped : Shaped s) : Grouped K s [] s where
  extended := (Linked.refl shaped).extended
  cpus := bare.cpus
  nodup := by rw [bare.cpus]; exact List.nodup_nil
  caches o := by simp [bare.cacheDomains]
  packages o := by simp [bare.packages]
  number e none := by contradiction
  cacheMask e none := by contradiction
  packageMask e none := by contradiction
  sameCache e none := by contradiction
  samePackage e none := by contradiction
  children x o := by simp [bare.children]
  numaNodes x n := by simp [bare.nodes]
  once x := by rw [bare.nodes]; exact List.nodup_nil
  cpuParent e none := by contradiction
  cacheParent e none := by contradiction

/-- `parse_cpu_tree` makes an entry of each CPU that is used and connects the packages to the nodes. -/
theorem parseCpuTree_connected (m : Machine) (banned : CpuMask) (only : OnlyNodes s) (bare : Bare s) :
    ∃ entries s₁, entries.map Entry.dir = m.cpuDirs.filter (·.usable m banned) ∧
      Grouped K (s.setBans banned) entries s₁ ∧
        Connected (fun n o => ∃ p ∈ s₁.packages, Connects s₁ p n o) s₁ (parseCpuTree K m banned s) := by
  have shaped := setBans_shaped only banned
  have start : Bare (s.setBans banned) := ⟨bare.children, bare.parent, bare.nodes, bare.packages, bare.cacheDomains,
    bare.cpus⟩
  obtain ⟨entries, dirs, grouped⟩ := (start.grouped (K := K) shaped).forEach_doOneCpu (m := m) m.cpuDirs shaped rfl
  exact ⟨entries, _, dirs, grouped, forEach_connectCpuMemTopo grouped.extended.shaped⟩

end Building

end Irqbalance
