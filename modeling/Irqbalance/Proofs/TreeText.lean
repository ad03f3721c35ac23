import Irqbalance.Proofs.Cursor
import Irqbalance.Proofs.Locality

/-! # The tree that the user interface shows

The text of `get_object_stat` is the records of the objects in preorder, so that the cursor of
`parse_into_tree` decides whether the user interface shows the tree of the daemon. It does exactly if
the cursor climbs far enough at every node, no interrupt is above an empty object that would pass for a
CPU, and no counter has fallen behind its last value.
-/

namespace Irqbalance

open CText
open CpuNode (Climbs records recordsAll Tidy Ordered)

/-- The second object is the first one or is below it. -/
def Below (s : State) : ObjRef → ObjRef → Prop := Relation.ReflTransGen fun p o => o ∈ (s.objs p).children

/-- The object is in the forest that the daemon prints. -/
def InForest (s : State) (o : ObjRef) : Prop := ∃ n ∈ s.numaNodes, Below s n o

/-- The CPUs at or below an object, by number and in ascending order. -/
def cpuNumbers (s : State) (fuel : ℕ) (o : ObjRef) : List ℤ :=
  ((cpusUnder s fuel o).map fun c => (s.objs c).number).insertionSort (· ≤ ·)

/-- What the user interface should show of an entry that is listed on an object. -/
def IrqInfo.mirror (cpus : List ℤ) (info : IrqInfo) : UiIrq :=
  { vector := info.irq, load := info.load, diff := u64Sub info.irqCount info.lastIrqCount
    irqClass := info.irqClass, assignedTo := cpus }

/-- What the user interface should show of an object. -/
def mirrorData (s : State) (fuel : ℕ) (o : ObjRef) : NodeData :=
  { type := (s.objs o).objType.toNat, number := (s.objs o).number, load := (s.objs o).load
    isPowersave := (s.objs o).powersaveMode.toNat
    irqs := (s.objs o).interrupts.map fun i => (s.irqs i).mirror (cpuNumbers s fuel o) }

/-- The tree below an object. -/
def treeOf (s : State) (data : ℕ → ObjRef → NodeData) : ℕ → ObjRef → CpuNode
  | 0, o => .mk (data 0 o) []
  | fuel + 1, o => .mk (data (fuel + 1) o) ((s.objs o).children.map (treeOf s data fuel))

/-- The forest that the user interface should show. -/
def mirror (s : State) : List CpuNode := s.numaNodes.map (treeOf s (mirrorData s) TREE_DEPTH)

/-- A forest that the daemon can hold, with numbers in range. -/
structure Printable (s : State) : Prop where
  nests : TypesNest s
  nodes : ∀ n ∈ s.numaNodes, (s.objs n).objType = .node
  number : ∀ o, InForest s o → IsInt (s.objs o).number
  load : ∀ o, InForest s o → (s.objs o).load < 2 ^ 63
  irqs : ∀ o, InForest s o → ∀ i ∈ (s.objs o).interrupts, IsInt (s.irqs i).irq ∧ IsInt (s.irqs i).irqClass
  loads : ∀ o, InForest s o → ∀ i ∈ (s.objs o).interrupts, (s.irqs i).load < 2 ^ 63
  counts : ∀ o, InForest s o → ∀ i ∈ (s.objs o).interrupts,
    (s.irqs i).irqCount < 2 ^ 63 ∧ (s.irqs i).lastIrqCount < 2 ^ 63

/-- Whatever is at or below the object and is no CPU has children. -/
def Filled (s : State) (o : ObjRef) : Prop :=
  ∀ c, Below s o c → (s.objs c).objType ≠ .cpu → (s.objs c).children ≠ []

/-- When the user interface shows the forest of the daemon. -/
structure Rebuildable (s : State) : Prop where
  siblings : ∀ n ∈ s.numaNodes, (s.objs n).children.IsChain fun a b =>
    (∀ c ∈ (s.objs a).children, (s.objs c).objType = .cpu) ∧ (s.objs a).objType.toNat ≤ (s.objs b).objType.toNat
  filled : ∀ o, InForest s o → (s.objs o).interrupts ≠ [] → Filled s o
  counted : ∀ o, InForest s o → ∀ i ∈ (s.objs o).interrupts, (s.irqs i).lastIrqCount ≤ (s.irqs i).irqCount

section Printing

variable {s : State} {fuel : ℕ} {o c : ObjRef} {rest : List (List Char)}

/-- The words of an object and its interrupts. -/
def objectRecord (s : State) (o : ObjRef) : List (List Char) :=
  objectWords (s.objs o) ++ (s.objs o).interrupts.flatMap fun i => (s.irqs i).words

/-- What `parse_into_tree` reads from the words of an object. -/
def readData (s : State) (o : ObjRef) : NodeData :=
  { type := (s.objs o).objType.toNat, number := (s.objs o).number, load := min (s.objs o).load (2 ^ 63 - 1)
    isPowersave := (s.objs o).powersaveMode.toNat
    irqs := (s.objs o).interrupts.map fun i => (s.irqs i).shown false }

/-- The objects at or below one, each before its children. -/
def preorder (s : State) : ℕ → ObjRef → List ObjRef
  | 0, _ => []
  | fuel + 1, o => o :: (s.objs o).children.flatMap (preorder s fuel)

theorem TypesNest.children_cpu (nests : TypesNest s) (cpu : (s.objs o).objType = .cpu) : (s.objs o).children = [] := by
  apply List.eq_nil_iff_forall_not_mem.mpr
  intro c child
  have nested := nests.child o c child
  rw [cpu] at nested
  exact nested

/-- The types of an object and a child. -/
theorem TypesNest.cases (nests : TypesNest s) (child : c ∈ (s.objs o).children) :
    ((s.objs o).objType = .node ∧ ((s.objs c).objType = .package ∨ (s.objs c).objType = .cache)) ∨
      ((s.objs o).objType = .package ∧ (s.objs c).objType = .cache) ∨
        ((s.objs o).objType = .cache ∧ (s.objs c).objType = .cpu) := by
  have nested := nests.child o c child
  revert nested
  cases (s.objs o).objType <;> cases (s.objs c).objType <;> simp [ObjType.nests]

theorem TypesNest.child_ne_node (nests : TypesNest s) (child : c ∈ (s.objs o).children) :
    (s.objs c).objType ≠ .node := by
  rcases nests.cases child with ⟨_, type | type⟩ | ⟨_, type⟩ | ⟨_, type⟩ <;> rw [type] <;> decide

theorem TypesNest.rank (nests : TypesNest s) (child : c ∈ (s.objs o).children)
    (deep : (s.objs o).objType.toNat < fuel + 1) : (s.objs c).objType.toNat < fuel :=
  Nat.lt_of_lt_of_le (nests_rank (nests.child o c child)) (Nat.lt_succ_iff.mp deep)

theorem rank_lt_depth (o : ObjRef) : (s.objs o).objType.toNat < TREE_DEPTH := by
  cases (s.objs o).objType <;> decide

/-- `get_object_stat` prints the records in preorder. -/
theorem getObjectStat_eq (nests : TypesNest s) (text : List Char) :
    getObjectStat s fuel o text = text ++ spaced ((preorder s fuel o).flatMap (objectRecord s)) := by
  induction fuel generalizing o text with
  | zero => exact (List.append_nil text).symm
  | succ fuel ih =>
    have record : text ++ spaced (objectWords (s.objs o)) ++
        forEach (s.objs o).interrupts (fun i => getIrqData (s.irqs i)) [] = text ++ spaced (objectRecord s o) := by
      rw [forEach_getIrqData, objectRecord, spaced_append, List.append_assoc, List.nil_append]
    have walk (l : List ObjRef) (text : List Char) : forEach l (getObjectStat s fuel) text =
        text ++ spaced ((l.flatMap (preorder s fuel)).flatMap (objectRecord s)) := by
      induction l generalizing text with
      | nil => exact (List.append_nil text).symm
      | cons x l walk => rw [forEach_cons, walk, ih, List.flatMap_cons, List.flatMap_append, spaced_append,
          List.append_assoc]
    rw [getObjectStat, record, preorder, List.flatMap_cons, spaced_append, ← List.append_assoc]
    split
    · exact walk _ _
    · rename_i cpu
      rw [nests.children_cpu (not_not.mp cpu)]
      exact (List.append_nil _).symm

theorem stats_eq (nests : TypesNest s) :
    stats s = spaced ((s.numaNodes.flatMap (preorder s TREE_DEPTH)).flatMap (objectRecord s)) := by
  have walk (l : List ObjRef) (text : List Char) : forEach l (getObjectStat s TREE_DEPTH) text =
      text ++ spaced ((l.flatMap (preorder s TREE_DEPTH)).flatMap (objectRecord s)) := by
    induction l generalizing text with
    | nil => exact (List.append_nil text).symm
    | cons x l walk => rw [forEach_cons, walk, getObjectStat_eq nests, List.flatMap_cons, List.flatMap_append,
        spaced_append, List.append_assoc]
  exact walk s.numaNodes []

theorem word_objectRecord {w : List Char} (member : w ∈ objectRecord s o) : Word w := by
  rcases List.mem_append.mp member with own | entry
  · simp only [objectWords, List.mem_cons, List.not_mem_nil, or_false] at own
    rcases own with rfl | rfl | rfl | rfl | rfl | rfl | rfl | rfl
    · decide
    · exact word_showNat
    · decide
    · exact word_showInt
    · decide
    · exact word_showNat
    · decide
    · exact word_showNat
  · obtain ⟨i, _, word⟩ := List.mem_flatMap.mp entry
    exact word_words word

/-- The record of an object is read back. -/
theorem parseRecord_objectRecord (number : IsInt (s.objs o).number)
    (ints : ∀ i ∈ (s.objs o).interrupts, IsInt (s.irqs i).irq ∧ IsInt (s.irqs i).irqClass)
    (stop : ∀ t ∈ rest.head?, hasPrefix t "IRQ".toList = false) :
    parseRecord (objectRecord s o ++ rest) = some (readData s o, rest) := by
  have marked : hasPrefix "TYPE".toList "TYPE".toList = true ∧ hasPrefix "NUMBER".toList "NUMBER".toList = true ∧
      hasPrefix "LOAD".toList "LOAD".toList = true ∧ hasPrefix "SAVE_MODE".toList "SAVE_MODE".toList = true :=
    ⟨rfl, rfl, rfl, rfl⟩
  have type : (strtol (showNat (s.objs o).objType.toNat) % 2 ^ 32).toNat = (s.objs o).objType.toNat := by
    rw [strtol_showNat]
    cases (s.objs o).objType <;> decide
  have mode : toInt (strtol (showNat (s.objs o).powersaveMode.toNat)) = (s.objs o).powersaveMode.toNat := by
    rw [strtol_showNat]
    cases (s.objs o).powersaveMode <;> decide
  rw [objectRecord, List.append_assoc]
  simp only [objectWords, List.cons_append, List.nil_append]
  rw [parseRecord, if_pos marked, parseIrqs_words false ints stop, Option.map_some, type, mode,
    toInt_strtol_showInt number, toU64_strtol_showNat]
  rfl

/-- The loop of `parse_into_tree` on the records of a list of objects. -/
theorem parseRecords_eq {os : List ObjRef} (number : ∀ o ∈ os, IsInt (s.objs o).number)
    (ints : ∀ o ∈ os, ∀ i ∈ (s.objs o).interrupts, IsInt (s.irqs i).irq ∧ IsInt (s.irqs i).irqClass)
    (enough : os.length ≤ fuel) (cursor : Cursor) :
    parseRecords fuel (os.flatMap (objectRecord s)) cursor = cursor.placeAll (os.map (readData s)) := by
  induction os generalizing fuel cursor with
  | nil => rw [List.flatMap_nil, parseRecords]; rfl
  | cons o os ih =>
    obtain ⟨fuel, rfl⟩ : ∃ k, fuel = k + 1 := ⟨fuel - 1, by rw [List.length_cons] at enough; omega⟩
    have stop : ∀ t ∈ (os.flatMap (objectRecord s)).head?, hasPrefix t "IRQ".toList = false := by
      intro t head
      cases os with
      | nil => contradiction
      | cons o os =>
        cases head
        rfl
    have read := parseRecord_objectRecord (number o List.mem_cons_self) (ints o List.mem_cons_self) stop
    rw [List.flatMap_cons, parseRecords, read, List.map_cons, Cursor.placeAll_cons, Cursor.place]
    · dsimp only
      cases Cursor.climb (readData s o).type cursor with
      | none => rfl
      | some cursor =>
        exact ih (fun o member => number o (List.mem_cons_of_mem _ member))
          (fun o member => ints o (List.mem_cons_of_mem _ member)) (Nat.le_of_succ_le_succ enough) _
    · rw [objectRecord, objectWords]
      exact List.cons_ne_nil _ _

end Printing

section Trees

variable {s : State} {data : ℕ → ObjRef → NodeData} {fuel : ℕ} {o c n : ObjRef}

theorem below_iff : Below s o c ↔ o = c ∨ ∃ x ∈ (s.objs o).children, Below s x c := Relation.ReflTransGen.cases_head_iff

theorem InForest.below (shown : InForest s o) (below : Below s o c) : InForest s c := by
  obtain ⟨n, node, path⟩ := shown
  exact ⟨n, node, path.trans below⟩

theorem InForest.child (shown : InForest s o) (child : c ∈ (s.objs o).children) : InForest s c :=
  shown.below (.single child)

/-- The recursion reaches everything at or below an object. -/
theorem mem_preorder (nests : TypesNest s) (deep : (s.objs o).objType.toNat < fuel) :
    c ∈ preorder s fuel o ↔ Below s o c := by
  induction fuel generalizing o with
  | zero => exact absurd deep (Nat.not_lt_zero _)
  | succ fuel ih =>
    rw [preorder, List.mem_cons, List.mem_flatMap, below_iff, eq_comm]
    exact or_congr_right (exists_congr fun x => and_congr_right fun child => ih (nests.rank child deep))

theorem inForest_iff (nests : TypesNest s) : InForest s o ↔ o ∈ s.numaNodes.flatMap (preorder s TREE_DEPTH) := by
  rw [List.mem_flatMap]
  exact exists_congr fun n => and_congr_right fun _ => (mem_preorder nests (rank_lt_depth n)).symm

theorem recordsAll_eq (l : List CpuNode) : recordsAll l = l.flatMap records := by
  induction l with
  | nil => rfl
  | cons t l ih => rw [recordsAll, ih, List.flatMap_cons]

theorem treeOf_succ : treeOf s data (fuel + 1) o =
    .mk (data (fuel + 1) o) ((s.objs o).children.map (treeOf s data fuel)) := rfl

theorem data_treeOf : (treeOf s data fuel o).data = data fuel o := by
  cases fuel <;> rfl

/-- The records of a tree are those of its objects in preorder. -/
theorem records_treeOf (nests : TypesNest s) (deep : (s.objs o).objType.toNat < fuel) :
    (treeOf s (fun _ => readData s) fuel o).records = (preorder s fuel o).map (readData s) := by
  induction fuel generalizing o with
  | zero => exact absurd deep (Nat.not_lt_zero _)
  | succ fuel ih =>
    rw [treeOf, records, recordsAll_eq, preorder, List.map_cons, List.flatMap_map, List.map_flatMap]
    refine congrArg _ (List.flatMap_congr fun c child => ?_)
    exact ih (nests.rank child deep)

/-- `parse_into_tree` puts the records of the daemon's forest under its cursor. -/
theorem parseIntoTree_eq (printable : Printable s) : parseIntoTree (stats s) =
    (Cursor.placeAll {} (recordsAll (s.numaNodes.map (treeOf s (fun _ => readData s) TREE_DEPTH)))).map fun cursor =>
      assignAll cursor.close.tree := by
  have shown : ∀ o ∈ s.numaNodes.flatMap (preorder s TREE_DEPTH), InForest s o :=
    fun o => (inForest_iff printable.nests).mpr
  have objects : recordsAll (s.numaNodes.map (treeOf s (fun _ => readData s) TREE_DEPTH)) =
      (s.numaNodes.flatMap (preorder s TREE_DEPTH)).map (readData s) := by
    rw [recordsAll_eq, List.flatMap_map, List.map_flatMap]
    exact List.flatMap_congr fun n _ => records_treeOf printable.nests (rank_lt_depth n)
  have words : tokens (stats s) = (s.numaNodes.flatMap (preorder s TREE_DEPTH)).flatMap (objectRecord s) := by
    have each : ∀ w ∈ (s.numaNodes.flatMap (preorder s TREE_DEPTH)).flatMap (objectRecord s), Word w := by
      intro w member
      obtain ⟨o, _, word⟩ := List.mem_flatMap.mp member
      exact word_objectRecord word
    have whole := tokens_spaced each []
    rw [List.append_nil, tokens_nil, List.append_nil] at whole
    rw [stats_eq printable.nests, whole]
  rw [objects, parseIntoTree, words]
  generalize s.numaNodes.flatMap (preorder s TREE_DEPTH) = os at shown
  have enough : os.length ≤ (os.flatMap (objectRecord s)).length := by
    clear shown
    induction os with
    | nil => exact le_rfl
    | cons o os ih =>
      rw [List.flatMap_cons, List.length_append, objectRecord, List.length_append, objectWords]
      simp only [List.length_cons]
      omega
  rw [parseRecords_eq (fun o member => printable.number o (shown o member))
    (fun o member => printable.irqs o (shown o member)) enough]

theorem ordered_treeOf (nests : TypesNest s) (types : ∀ fuel o, (data fuel o).type = (s.objs o).objType.toNat)
    (fuel : ℕ) (o : ObjRef) : (treeOf s data fuel o).Ordered := by
  induction fuel generalizing o with
  | zero =>
    rw [treeOf]
    exact .mk (fun _ => rfl) (fun _ none => by contradiction) (fun _ none => by contradiction)
      fun _ none => by contradiction
  | succ fuel ih =>
    have typed (c : ObjRef) : (treeOf s data fuel c).data.type = (s.objs c).objType.toNat := by
      rw [data_treeOf, types]
    refine .mk (fun cpu => ?_) (fun t member => ?_) (fun t member t' member' cpu => ?_) fun t member => ?_
    · rw [types] at cpu
      have cpuType : (s.objs o).objType = .cpu := by
        revert cpu
        cases (s.objs o).objType <;> decide
      rw [nests.children_cpu cpuType]
      rfl
    · obtain ⟨c, child, rfl⟩ := List.mem_map.mp member
      rw [typed, types]
      refine ⟨nests_rank (nests.child o c child), ?_⟩
      rcases nests.cases child with ⟨_, type | type⟩ | ⟨_, type⟩ | ⟨_, type⟩ <;> rw [type] <;> decide
    · obtain ⟨c, child, rfl⟩ := List.mem_map.mp member
      obtain ⟨c', child', rfl⟩ := List.mem_map.mp member'
      rw [typed] at cpu ⊢
      have cache : (s.objs o).objType = .cache := by
        rcases nests.cases child with ⟨_, type | type⟩ | ⟨_, type⟩ | ⟨cache, _⟩
        · rw [type] at cpu
          contradiction
        · rw [type] at cpu
          contradiction
        · rw [type] at cpu
          contradiction
        · exact cache
      rcases nests.cases child' with ⟨node, _⟩ | ⟨package, _⟩ | ⟨_, type⟩
      · rw [cache] at node
        contradiction
      · rw [cache] at package
        contradiction
      · rw [type]
        rfl
    · obtain ⟨c, _, rfl⟩ := List.mem_map.mp member
      exact ih c

/-- The cursor climbs from one child to the next if only CPUs are below the first and types do not fall. -/
theorem climbs_treeOf (types : ∀ fuel o, (data fuel o).type = (s.objs o).objType.toNat) (a b : ObjRef) :
    Climbs (treeOf s data (fuel + 1) a) (treeOf s data (fuel + 1) b) ↔
      (∀ c ∈ (s.objs a).children, (s.objs c).objType = .cpu) ∧
        (s.objs a).objType.toNat ≤ (s.objs b).objType.toNat := by
  have cpu (c : ObjRef) : (s.objs c).objType.toNat = OBJ_TYPE_CPU ↔ (s.objs c).objType = .cpu := by
    cases (s.objs c).objType <;> decide
  unfold Climbs
  rw [data_treeOf, data_treeOf, types, types, treeOf, CpuNode.children_mk, List.forall_mem_map]
  apply and_congr_left
  intro _
  apply forall₂_congr
  intro c _
  rw [data_treeOf, types, cpu]

/-- Below the nodes the cursor always climbs far enough. -/
theorem tidy_inner (nests : TypesNest s) (types : ∀ fuel o, (data fuel o).type = (s.objs o).objType.toNat)
    (inner : (s.objs o).objType ≠ .node) : (treeOf s data fuel o).Tidy := by
  induction fuel generalizing o with
  | zero => exact .mk .nil fun _ none => by contradiction
  | succ fuel ih =>
    refine .mk ?_ fun t member => ?_
    · refine (List.isChain_map _).mpr (List.Pairwise.isChain ?_)
      apply List.pairwise_of_forall_mem_list
      intro a child b child'
      -- the children of a package are cache domains, and those of a cache domain are CPUs
      obtain ⟨same, below⟩ : (s.objs a).objType = (s.objs b).objType ∧
          ∀ c ∈ (s.objs a).children, (s.objs c).objType = .cpu := by
        rcases nests.cases child with ⟨node, _⟩ | ⟨package, cache⟩ | ⟨cache, cpu⟩
        · exact absurd node inner
        · refine ⟨?_, fun c grandchild => ?_⟩
          · rcases nests.cases child' with ⟨other, _⟩ | ⟨_, cache'⟩ | ⟨other, _⟩
            · rw [package] at other
              contradiction
            · rw [cache, cache']
            · rw [package] at other
              contradiction
          · rcases nests.cases grandchild with ⟨other, _⟩ | ⟨other, _⟩ | ⟨_, cpu⟩
            · rw [cache] at other
              contradiction
            · rw [cache] at other
              contradiction
            · exact cpu
        · refine ⟨?_, fun c grandchild => ?_⟩
          · rcases nests.cases child' with ⟨other, _⟩ | ⟨other, _⟩ | ⟨_, cpu'⟩
            · rw [cache] at other
              contradiction
            · rw [cache] at other
              contradiction
            · rw [cpu, cpu']
          · rw [nests.children_cpu cpu] at grandchild
            contradiction
      refine ⟨fun t member => ?_, ?_⟩
      · cases fuel with
        | zero => contradiction
        | succ fuel =>
          obtain ⟨c, child, rfl⟩ := List.mem_map.mp member
          rw [data_treeOf, types, below c child]
          rfl
      · rw [data_treeOf, data_treeOf, types, types, same]
    · obtain ⟨c, child, rfl⟩ := List.mem_map.mp member
      exact ih (nests.child_ne_node child)

theorem tidy_node (nests : TypesNest s) (types : ∀ fuel o, (data fuel o).type = (s.objs o).objType.toNat) :
    (treeOf s data (fuel + 2) n).Tidy ↔ (s.objs n).children.IsChain fun a b =>
      (∀ c ∈ (s.objs a).children, (s.objs c).objType = .cpu) ∧
        (s.objs a).objType.toNat ≤ (s.objs b).objType.toNat := by
  rw [CpuNode.tidy_iff, treeOf, CpuNode.children_mk, List.isChain_map]
  simp only [climbs_treeOf types]
  apply and_iff_left
  intro t member
  obtain ⟨c, child, rfl⟩ := List.mem_map.mp member
  exact tidy_inner nests types (nests.child_ne_node child)

end Trees

section Assigning

variable {s : State} {fuel : ℕ} {o c : ObjRef}

theorem assignAll_eq (l : List CpuNode) : assignAll l = l.map assignCpuLists := by
  induction l with
  | nil => rfl
  | cons t l ih => rw [assignAll, ih, List.map_cons]

theorem concatChildLists_eq (l : List CpuNode) : concatChildLists l = l.flatMap CpuNode.cpuList := by
  induction l with
  | nil => rfl
  | cons t l ih => rw [concatChildLists, ih, List.flatMap_cons]

theorem cpuList_mk (data : NodeData) {children : List CpuNode} (some : children ≠ []) :
    (CpuNode.mk data children).cpuList = children.flatMap CpuNode.cpuList := by
  cases children with
  | nil => contradiction
  | cons child children => rw [CpuNode.cpuList, concatChildLists_eq]

theorem data_assignCpuLists (t : CpuNode) : (assignCpuLists t).data.type = t.data.type := by
  cases t
  rw [assignCpuLists]
  rfl

/-- Assigning CPU lists changes no shape. -/
theorem tidy_assignCpuLists {t : CpuNode} (tidy : t.Tidy) : (assignCpuLists t).Tidy := by
  induction tidy with
  | @mk data children chain below ih =>
    rw [assignCpuLists, assignAll_eq]
    refine .mk ?_ fun t member => ?_
    · refine List.isChain_map_of_isChain assignCpuLists (fun a b climbs => ?_) chain
      obtain ⟨cpus, larger⟩ := climbs
      refine ⟨fun t member => ?_, by rw [data_assignCpuLists, data_assignCpuLists]; exact larger⟩
      cases a with
      | mk data children =>
        rw [assignCpuLists, assignAll_eq] at member
        obtain ⟨c, child, rfl⟩ := List.mem_map.mp member
        rw [data_assignCpuLists]
        exact cpus c child
    · obtain ⟨c, child, rfl⟩ := List.mem_map.mp member
      exact ih c child

theorem filled_iff (other : (s.objs o).objType ≠ .cpu) :
    Filled s o ↔ (s.objs o).children ≠ [] ∧ ∀ c ∈ (s.objs o).children, Filled s c := by
  constructor
  · intro filled
    exact ⟨filled o .refl other, fun c child c' below => filled c' (.head child below)⟩
  · rintro ⟨some, filled⟩ c below
    rcases below_iff.mp below with rfl | ⟨x, child, below⟩
    · exact fun _ => some
    · exact filled x child c below

theorem filled_cpu (nests : TypesNest s) (cpu : (s.objs o).objType = .cpu) : Filled s o := by
  intro c below other
  rcases below_iff.mp below with rfl | ⟨x, child, _⟩
  · exact absurd cpu other
  · rw [nests.children_cpu cpu] at child
    contradiction

/-- If everything is filled, the list of a node is the numbers of the CPUs below it. -/
theorem cpuList_filled (nests : TypesNest s) (deep : (s.objs o).objType.toNat < fuel) (filled : Filled s o) :
    (treeOf s (fun _ => readData s) fuel o).cpuList = (cpusUnder s fuel o).map fun c => (s.objs c).number := by
  induction fuel generalizing o with
  | zero => exact absurd deep (Nat.not_lt_zero _)
  | succ fuel ih =>
    rw [treeOf, cpusUnder]
    by_cases cpu : (s.objs o).objType = .cpu
    · rw [if_pos cpu, nests.children_cpu cpu]
      rfl
    · obtain ⟨some, below⟩ := (filled_iff cpu).mp filled
      rw [if_neg cpu, cpuList_mk _ (by simpa using some), List.flatMap_map, List.map_flatMap]
      exact List.flatMap_congr fun c child => ih (nests.rank child deep) (below c child)

theorem length_flatMap_le {α β γ : Type*} {f : α → List β} {g : α → List γ} (l : List α)
    (le : ∀ c ∈ l, (f c).length ≤ (g c).length) : (l.flatMap f).length ≤ (l.flatMap g).length ∧
      ((l.flatMap f).length = (l.flatMap g).length → ∀ c ∈ l, (f c).length = (g c).length) := by
  induction l with
  | nil => exact ⟨le_rfl, fun _ c none => by contradiction⟩
  | cons x l ih =>
    obtain ⟨rest, equal⟩ := ih fun c member => le c (List.mem_cons_of_mem _ member)
    have first := le x List.mem_cons_self
    rw [List.flatMap_cons, List.flatMap_cons, List.length_append, List.length_append]
    refine ⟨Nat.add_le_add first rest, fun same c member => ?_⟩
    rcases List.mem_cons.mp member with rfl | member
    · omega
    · exact equal (by omega) c member

/-- An empty object that is no CPU makes the list too long. -/
theorem filled_of_length (nests : TypesNest s) (deep : (s.objs o).objType.toNat < fuel) :
    (cpusUnder s fuel o).length ≤ (treeOf s (fun _ => readData s) fuel o).cpuList.length ∧
      ((cpusUnder s fuel o).length = (treeOf s (fun _ => readData s) fuel o).cpuList.length → Filled s o) := by
  induction fuel generalizing o with
  | zero => exact absurd deep (Nat.not_lt_zero _)
  | succ fuel ih =>
    rw [treeOf, cpusUnder]
    by_cases cpu : (s.objs o).objType = .cpu
    · rw [if_pos cpu, nests.children_cpu cpu]
      exact ⟨le_rfl, fun _ => filled_cpu nests cpu⟩
    · rw [if_neg cpu]
      by_cases none : (s.objs o).children = []
      · rw [none]
        exact ⟨Nat.zero_le _, fun same => absurd same (by decide : (0 : ℕ) ≠ 1)⟩
      · rw [cpuList_mk _ (by simpa using none), List.flatMap_map]
        have each (c : ObjRef) (child : c ∈ (s.objs o).children) := ih (nests.rank child deep)
        obtain ⟨le, equal⟩ := length_flatMap_le (s.objs o).children fun c child => (each c child).1
        exact ⟨le, fun same => (filled_iff cpu).mpr ⟨none, fun c child => (each c child).2 (equal same c child)⟩⟩

theorem u64Sub_lt (count last : ℕ) (first : count < 2 ^ 63) (second : last < 2 ^ 63) :
    u64Sub count last ≤ 2 ^ 63 - 1 ↔ last ≤ count := by
  unfold u64Sub
  omega

/-- The user interface shows the data of an object. -/
theorem readData_eq (printable : Printable s) (shown : InForest s o) (deep : (s.objs o).objType.toNat < fuel) :
    { readData s o with
      irqs := (readData s o).irqs.map (copyCpuListToIrq (treeOf s (fun _ => readData s) fuel o).cpuList) } =
        mirrorData s fuel o ↔
      ((s.objs o).interrupts ≠ [] → Filled s o) ∧
        ∀ i ∈ (s.objs o).interrupts, (s.irqs i).lastIrqCount ≤ (s.irqs i).irqCount := by
  have load : min (s.objs o).load (2 ^ 63 - 1) = (s.objs o).load :=
    Nat.min_eq_left (Nat.le_sub_one_of_lt (printable.load o shown))
  have lists : (treeOf s (fun _ => readData s) fuel o).cpuList.insertionSort (· ≤ ·) = cpuNumbers s fuel o ↔
      Filled s o := by
    constructor
    · intro same
      have lengths := congrArg List.length same
      rw [List.length_insertionSort, cpuNumbers, List.length_insertionSort, List.length_map] at lengths
      exact (filled_of_length printable.nests deep).2 lengths.symm
    · intro filled
      rw [cpuList_filled printable.nests deep filled]
      rfl
  have entry (i : IrqRef) (member : i ∈ (s.objs o).interrupts) :
      copyCpuListToIrq (treeOf s (fun _ => readData s) fuel o).cpuList ((s.irqs i).shown false) =
        (s.irqs i).mirror (cpuNumbers s fuel o) ↔
      (s.irqs i).lastIrqCount ≤ (s.irqs i).irqCount ∧ Filled s o := by
    obtain ⟨count, last⟩ := printable.counts o shown i member
    rw [← lists, ← u64Sub_lt _ _ count last, copyCpuListToIrq, IrqInfo.shown, IrqInfo.mirror, UiIrq.mk.injEq]
    simp only [min_eq_left (Nat.le_sub_one_of_lt (printable.loads o shown i member)), true_and, min_eq_left_iff]
  rw [readData, mirrorData, NodeData.mk.injEq, List.map_map, load]
  simp only [true_and]
  rw [List.map_inj_left]
  constructor
  · intro all
    refine ⟨fun some => ?_, fun i member => ((entry i member).mp (all i member)).1⟩
    obtain ⟨i, member⟩ := List.exists_mem_of_ne_nil _ some
    exact ((entry i member).mp (all i member)).2
  · rintro ⟨filled, counted⟩ i member
    exact (entry i member).mpr ⟨counted i member, filled (List.ne_nil_of_mem member)⟩

/-- The user interface shows the data of a whole tree. -/
theorem assignCpuLists_treeOf (printable : Printable s) (shown : InForest s o)
    (deep : (s.objs o).objType.toNat < fuel) :
    assignCpuLists (treeOf s (fun _ => readData s) fuel o) = treeOf s (mirrorData s) fuel o ↔
      ∀ c, Below s o c → ((s.objs c).interrupts ≠ [] → Filled s c) ∧
        ∀ i ∈ (s.objs c).interrupts, (s.irqs i).lastIrqCount ≤ (s.irqs i).irqCount := by
  induction fuel generalizing o with
  | zero => exact absurd deep (Nat.not_lt_zero _)
  | succ fuel ih =>
    have own := readData_eq printable shown deep
    rw [treeOf_succ] at own
    rw [treeOf_succ, treeOf_succ, assignCpuLists, assignAll_eq, CpuNode.mk.injEq, own, List.map_map, List.map_inj_left]
    constructor
    · rintro ⟨here, rest⟩ c below
      rcases below_iff.mp below with rfl | ⟨x, child, below⟩
      · exact here
      · exact (ih (shown.child child) (printable.nests.rank child deep)).mp (rest x child) c below
    · intro all
      refine ⟨all o .refl, fun x child => ?_⟩
      exact (ih (shown.child child) (printable.nests.rank child deep)).mpr fun c below => all c (.head child below)

/-- The user interface shows the data of the whole forest. -/
theorem assignForest_eq (printable : Printable s) :
    (s.numaNodes.map (treeOf s (fun _ => readData s) TREE_DEPTH)).map assignCpuLists = mirror s ↔
      (∀ o, InForest s o → (s.objs o).interrupts ≠ [] → Filled s o) ∧
        ∀ o, InForest s o → ∀ i ∈ (s.objs o).interrupts, (s.irqs i).lastIrqCount ≤ (s.irqs i).irqCount := by
  rw [mirror, List.map_map, List.map_inj_left]
  have each (n : ObjRef) (node : n ∈ s.numaNodes) :=
    assignCpuLists_treeOf printable ⟨n, node, .refl⟩ (rank_lt_depth n)
  constructor
  · intro all
    exact ⟨fun o ⟨n, node, below⟩ => ((each n node).mp (all n node) o below).1,
      fun o ⟨n, node, below⟩ => ((each n node).mp (all n node) o below).2⟩
  · rintro ⟨filled, counted⟩ n node
    exact (each n node).mpr fun o below => ⟨filled o ⟨n, node, below⟩, counted o ⟨n, node, below⟩⟩

/-- Trees that the cursor can follow are read back whole. -/
theorem parseIntoTree_of_tidy (printable : Printable s)
    (tidy : ∀ n ∈ s.numaNodes, (treeOf s (fun _ => readData s) TREE_DEPTH n).Tidy) :
    parseIntoTree (stats s) =
      some ((s.numaNodes.map (treeOf s (fun _ => readData s) TREE_DEPTH)).map assignCpuLists) := by
  have types (fuel : ℕ) (o : ObjRef) : (readData s o).type = (s.objs o).objType.toNat := rfl
  have nodes : ∀ t ∈ s.numaNodes.map (treeOf s (fun _ => readData s) TREE_DEPTH),
      t.data.type = OBJ_TYPE_NODE ∧ t.Tidy ∧ t.Ordered := by
    intro t member
    obtain ⟨n, node, rfl⟩ := List.mem_map.mp member
    refine ⟨?_, tidy n node, ordered_treeOf printable.nests types _ n⟩
    rw [data_treeOf, types TREE_DEPTH, printable.nodes n node]
    rfl
  have empty : Cursor.close {} = ⟨[], []⟩ := rfl
  obtain ⟨last, placed, closed⟩ := placeAll_recordsAll empty nodes
  rw [parseIntoTree_eq printable, placed, Option.map_some, closed, List.nil_append, assignAll_eq]

/-- What the user interface builds is tidy, whatever the text says. -/
theorem tidy_of_parseIntoTree (printable : Printable s) {forest : List CpuNode}
    (parsed : parseIntoTree (stats s) = some forest) : ∀ t ∈ forest, t.Tidy := by
  rw [parseIntoTree_eq printable, Option.map_eq_some_iff] at parsed
  obtain ⟨last, placed, rfl⟩ := parsed
  intro t member
  rw [assignAll_eq] at member
  obtain ⟨read, listed, rfl⟩ := List.mem_map.mp member
  exact tidy_assignCpuLists (placeAll_tidy placed read listed)

/-- The user interface shows the forest of the daemon exactly if the cursor climbs far enough at every node,
no interrupt is above an empty object and no counter has fallen behind. -/
theorem parseIntoTree_stats (printable : Printable s) :
    parseIntoTree (stats s) = some (mirror s) ↔ Rebuildable s := by
  have types (fuel : ℕ) (o : ObjRef) : (readData s o).type = (s.objs o).objType.toNat := rfl
  have mirrorTypes (fuel : ℕ) (o : ObjRef) : (mirrorData s fuel o).type = (s.objs o).objType.toNat := rfl
  constructor
  · intro parsed
    have tidy := tidy_of_parseIntoTree printable parsed
    have siblings := fun n (node : n ∈ s.numaNodes) =>
      (tidy_node printable.nests mirrorTypes).mp (tidy _ (List.mem_map_of_mem node))
    rw [parseIntoTree_of_tidy printable fun n node => (tidy_node printable.nests types).mpr (siblings n node),
      Option.some.injEq, assignForest_eq printable] at parsed
    exact ⟨siblings, parsed.1, parsed.2⟩
  · intro rebuildable
    rw [parseIntoTree_of_tidy printable
        fun n node => (tidy_node printable.nests types).mpr (rebuildable.siblings n node),
      Option.some.injEq, assignForest_eq printable]
    exact ⟨rebuildable.filled, rebuildable.counted⟩

end Assigning

section Runs

variable {s : State}

/-- What the states of the daemon hold can be printed as soon as the numbers are in range. -/
theorem Guarded.printable (guarded : Guarded s) (range : ∀ o ∈ s.numaNodes.flatMap (preorder s TREE_DEPTH),
      IsInt (s.objs o).number ∧ (s.objs o).load < 2 ^ 63 ∧ ∀ i ∈ (s.objs o).interrupts,
        (IsInt (s.irqs i).irq ∧ IsInt (s.irqs i).irqClass) ∧ (s.irqs i).load < 2 ^ 63 ∧
          (s.irqs i).irqCount < 2 ^ 63 ∧ (s.irqs i).lastIrqCount < 2 ^ 63) : Printable s := by
  have listed (o : ObjRef) (shown : InForest s o) := range o ((inForest_iff guarded.typesNest).mp shown)
  exact {
    nests := guarded.typesNest
    nodes := guarded.nodes
    number := fun o shown => (listed o shown).1
    load := fun o shown => (listed o shown).2.1
    irqs := fun o shown i member => ((listed o shown).2.2 i member).1
    loads := fun o shown i member => ((listed o shown).2.2 i member).2.1
    counts := fun o shown i member => ((listed o shown).2.2 i member).2.2 }

end Runs

/-- `twoNodes` with an interrupt on CPU 3. -/
def onTwoNodes : State := run { numaAvail := true } (boot (fun _ => CPU_MASK_NONE) [] [])
  [.rebuild twoNodes (BitVec.ofNat NR_CPUS 4) remoteIrq, .calculatePlacement, .activateMappings]

/-- Every node has one package. -/
theorem parseIntoTree_stats_twoNodes : parseIntoTree (stats onTwoNodes) = some (mirror onTwoNodes) := by
  have guarded : Guarded onTwoNodes := run_guarded _ (boot_located _ _ _) (boot_guarded _ _ _)
  have nests := guarded.typesNest
  refine (parseIntoTree_stats (guarded.printable (by decide +kernel))).mpr
    ⟨by decide +kernel, fun o shown listed c below => ?_, fun o shown => ?_⟩
  · have filled : ∀ o ∈ onTwoNodes.numaNodes.flatMap (preorder onTwoNodes TREE_DEPTH),
        (onTwoNodes.objs o).interrupts ≠ [] → ∀ c ∈ preorder onTwoNodes TREE_DEPTH o,
          (onTwoNodes.objs c).objType ≠ .cpu → (onTwoNodes.objs c).children ≠ [] := by
      decide +kernel
    exact filled o ((inForest_iff nests).mp shown) listed c ((mem_preorder nests (rank_lt_depth o)).mpr below)
  · have counted : ∀ o ∈ onTwoNodes.numaNodes.flatMap (preorder onTwoNodes TREE_DEPTH),
        ∀ i ∈ (onTwoNodes.objs o).interrupts,
          (onTwoNodes.irqs i).lastIrqCount ≤ (onTwoNodes.irqs i).irqCount := by
      decide +kernel
    exact counted o ((inForest_iff nests).mp shown)

/-- Two CPUs in packages of their own, without NUMA. -/
def twoPackages : Machine where
  online := BitVec.ofNat NR_CPUS 3
  cpuDirs := [{ number := 0 }, { number := 1 }]

/-- The second package is shown below the first one. -/
theorem parseIntoTree_stats_twoPackages : ¬ ∀ s : State, Printable s → parseIntoTree (stats s) = some (mirror s) := by
  intro all
  have guarded : Guarded (run {} (boot (fun _ => CPU_MASK_NONE) [] []) [.rebuild twoPackages CPU_MASK_NONE {}]) :=
    run_guarded _ (boot_located _ _ _) (boot_guarded _ _ _)
  have same := all _ (guarded.printable (by decide +kernel))
  have shape := congrArg (Option.map fun forest => forest.map fun t => t.children.length) same
  revert shape
  decide +kernel

end Irqbalance
