import Irqbalance.Proofs.Records
import Mathlib.Data.List.Chain

/-! # Which trees the cursor of `parse_into_tree` can rebuild

The cursor climbs at most one level for a record. So it rebuilds a tree from its records in preorder
exactly if every node but the last of its siblings has only CPUs below it and a type that is no larger
than that of the next one.
-/

namespace Irqbalance

namespace CpuNode

def data : CpuNode → NodeData
  | .mk data _ => data

def children : CpuNode → List CpuNode
  | .mk _ children => children

@[simp] theorem children_mk (data : NodeData) (children : List CpuNode) :
    (CpuNode.mk data children).children = children := rfl

theorem eta (t : CpuNode) : CpuNode.mk t.data t.children = t := by
  cases t
  rfl

mutual

/-- The records of a tree. -/
def records : CpuNode → List NodeData
  | .mk data children => data :: recordsAll children

def recordsAll : List CpuNode → List NodeData
  | [] => []
  | child :: children => child.records ++ recordsAll children

end

theorem records_eq (t : CpuNode) : t.records = t.data :: recordsAll t.children := by
  cases t
  rw [records]
  rfl

/-- The cursor can be at the first of two siblings when the record of the second one comes. -/
def Climbs (a b : CpuNode) : Prop := (∀ c ∈ a.children, c.data.type = OBJ_TYPE_CPU) ∧ a.data.type ≤ b.data.type

/-- The cursor climbs far enough everywhere in the tree. -/
inductive Tidy : CpuNode → Prop
  | mk {data : NodeData} {children : List CpuNode} (chain : children.IsChain Climbs)
      (below : ∀ c ∈ children, c.Tidy) : Tidy (.mk data children)

/-- Types are those of nodes, packages, cache domains and CPUs, nested in this order. -/
inductive Ordered : CpuNode → Prop
  | mk {data : NodeData} {children : List CpuNode} (leaf : data.type = OBJ_TYPE_CPU → children = [])
      (types : ∀ c ∈ children, c.data.type < data.type ∧ c.data.type ≠ OBJ_TYPE_NODE)
      (alike : ∀ c ∈ children, ∀ c' ∈ children, c.data.type = OBJ_TYPE_CPU → c'.data.type = OBJ_TYPE_CPU)
      (below : ∀ c ∈ children, c.Ordered) : Ordered (.mk data children)

theorem tidy_iff {t : CpuNode} : t.Tidy ↔ t.children.IsChain Climbs ∧ ∀ c ∈ t.children, c.Tidy := by
  constructor
  · rintro ⟨chain, below⟩
    exact ⟨chain, below⟩
  · cases t
    rintro ⟨chain, below⟩
    exact .mk chain below

end CpuNode

open CpuNode (Climbs records recordsAll Tidy Ordered)

/-- One round of the loop of `parse_into_tree`. -/
def Cursor.place (cursor : Cursor) (new : NodeData) : Option Cursor := (cursor.climb new.type).map (Cursor.add new)

def Cursor.placeAll (cursor : Cursor) (news : List NodeData) : Option Cursor := news.foldlM Cursor.place cursor

/-- List a finished node under the cursor. -/
def Cursor.attach (t : CpuNode) (cursor : Cursor) : Cursor :=
  match cursor.path with
  | [] => { tree := cursor.tree ++ [t], path := [] }
  | (data, children) :: path => { cursor with path := (data, children ++ [t]) :: path }

section Climbing

variable {cursor : Cursor} {d : NodeData} {cs : List CpuNode} {rest path : List (NodeData × List CpuNode)}
  {tree : List CpuNode}

theorem Cursor.leave_eq : Cursor.leave ⟨tree, (d, cs) :: rest⟩ = Cursor.attach (.mk d cs) ⟨tree, rest⟩ := by
  cases rest <;> rfl

theorem Cursor.leaveAll_add (m n : ℕ) : Cursor.leaveAll (m + n) cursor = Cursor.leaveAll n (Cursor.leaveAll m cursor) := by
  induction m generalizing cursor with
  | zero => rw [Nat.zero_add, Cursor.leaveAll]
  | succ m ih => rw [Nat.succ_add, Cursor.leaveAll, Cursor.leaveAll, ih]

theorem Cursor.placeAll_append (first second : List NodeData) :
    cursor.placeAll (first ++ second) = (cursor.placeAll first).bind (·.placeAll second) :=
  List.foldlM_append

theorem Cursor.placeAll_cons (new : NodeData) (news : List NodeData) :
    cursor.placeAll (new :: news) = (cursor.place new).bind (·.placeAll news) := rfl

theorem Cursor.placeAll_nil : cursor.placeAll [] = some cursor := rfl

/-- Below an object of a larger type the cursor stays where it is. -/
theorem Cursor.climb_stay {type : ℕ} (inner : type ≠ OBJ_TYPE_NODE) (smaller : type < d.type) :
    Cursor.climb type ⟨tree, (d, cs) :: rest⟩ = some ⟨tree, (d, cs) :: rest⟩ := by
  rw [Cursor.climb, if_neg inner]
  dsimp only
  rw [if_neg smaller.not_ge]

/-- Otherwise it leaves the innermost node. -/
theorem Cursor.climb_leave {type : ℕ} (inner : type ≠ OBJ_TYPE_NODE) (larger : d.type ≤ type) :
    Cursor.climb type ⟨tree, (d, cs) :: rest⟩ = some (Cursor.attach (.mk d cs) ⟨tree, rest⟩) := by
  rw [Cursor.climb, if_neg inner]
  dsimp only
  rw [if_pos larger, Cursor.leave_eq]

theorem Cursor.add_cpu {new : NodeData} (cpu : new.type = OBJ_TYPE_CPU) :
    Cursor.add new ⟨tree, (d, cs) :: rest⟩ = ⟨tree, (d, cs ++ [.mk new []]) :: rest⟩ := by
  rw [Cursor.add, if_neg (not_not.mpr cpu)]

theorem Cursor.add_other {new : NodeData} (other : new.type ≠ OBJ_TYPE_CPU) :
    Cursor.add new ⟨tree, path⟩ = ⟨tree, (new, []) :: path⟩ := by
  rw [Cursor.add, if_pos other]

end Climbing

section Rebuilding

/-- The open nodes of a tree whose last record has just been read, innermost first. -/
inductive Spine : CpuNode → List (NodeData × List CpuNode) → Prop
  | flat {d : NodeData} {cs : List CpuNode} (cpus : ∀ c ∈ cs, c.data.type = OBJ_TYPE_CPU) : Spine (.mk d cs) [(d, cs)]
  | last {d : NodeData} {cs : List CpuNode} {c : CpuNode} {path : List (NodeData × List CpuNode)}
      (other : c.data.type ≠ OBJ_TYPE_CPU) (spine : Spine c path) : Spine (.mk d (cs ++ [c])) (path ++ [(d, cs)])

variable {tree cs : List CpuNode} {d : NodeData} {t b : CpuNode} {path rest : List (NodeData × List CpuNode)}

/-- A tree with nothing but CPUs below it has itself open. -/
theorem Spine.of_flat (spine : Spine t path) (cpus : ∀ c ∈ t.children, c.data.type = OBJ_TYPE_CPU) :
    path = [(t.data, t.children)] := by
  cases spine with
  | flat _ => rfl
  | last other _ => exact absurd (cpus _ (List.mem_append_right _ (List.mem_singleton_self _))) other

/-- Leaving all open nodes lists the tree. -/
theorem Spine.leaveAll (spine : Spine t path) (tree : List CpuNode) (rest : List (NodeData × List CpuNode)) :
    Cursor.leaveAll path.length ⟨tree, path ++ rest⟩ = Cursor.attach t ⟨tree, rest⟩ := by
  induction spine generalizing rest with
  | flat _ => exact Cursor.leave_eq
  | @last d cs c path other spine ih =>
    rw [List.length_append, Cursor.leaveAll_add, List.append_assoc, ih]
    exact Cursor.leave_eq

theorem Spine.close (spine : Spine t path) (tree : List CpuNode) : Cursor.close ⟨tree, path⟩ = ⟨tree ++ [t], []⟩ := by
  have left := spine.leaveAll tree []
  rw [List.append_nil] at left
  exact left

/-- The cursor finds the parent of the next sibling. -/
theorem Spine.climb (spine : Spine (.mk d cs) path) (chain : (cs ++ [b]).IsChain Climbs)
    (inner : b.data.type ≠ OBJ_TYPE_NODE) (smaller : b.data.type < d.type) :
    Cursor.climb b.data.type ⟨tree, path ++ rest⟩ = some ⟨tree, (d, cs) :: rest⟩ := by
  cases spine with
  | flat _ => exact Cursor.climb_stay inner smaller
  | @last _ cs c path other spine =>
    obtain ⟨cpus, larger⟩ : Climbs c b := by
      rw [List.append_assoc] at chain
      exact (List.isChain_append_cons_cons.mp chain).2.1
    rw [spine.of_flat cpus]
    have left : Cursor.climb b.data.type ⟨tree, (c.data, c.children) :: (d, cs) :: rest⟩ =
        some (Cursor.attach (.mk c.data c.children) ⟨tree, (d, cs) :: rest⟩) := Cursor.climb_leave inner larger
    rw [CpuNode.eta] at left
    exact left

/-- The records of the remaining children. -/
theorem Spine.placeAll {before : List CpuNode} (spine : Spine (.mk d before) path)
    (below : ∀ c ∈ cs, c.data.type ≠ OBJ_TYPE_CPU → ∀ rest, ∃ path, Spine c path ∧
      Cursor.placeAll ⟨tree, (c.data, []) :: rest⟩ (recordsAll c.children) = some ⟨tree, path ++ rest⟩)
    (leaves : ∀ c ∈ cs, c.data.type = OBJ_TYPE_CPU → c.children = []) (chain : (before ++ cs).IsChain Climbs)
    (types : ∀ c ∈ cs, c.data.type < d.type ∧ c.data.type ≠ OBJ_TYPE_NODE)
    (alike : ∀ c ∈ before ++ cs, ∀ c' ∈ before ++ cs, c.data.type = OBJ_TYPE_CPU → c'.data.type = OBJ_TYPE_CPU) :
    ∃ path', Spine (.mk d (before ++ cs)) path' ∧
      Cursor.placeAll ⟨tree, path ++ rest⟩ (recordsAll cs) = some ⟨tree, path' ++ rest⟩ := by
  induction cs generalizing before path with
  | nil =>
    rw [List.append_nil]
    exact ⟨path, spine, rfl⟩
  | cons b cs ih =>
    have split : before ++ b :: cs = (before ++ [b]) ++ cs := by rw [List.append_assoc, List.singleton_append]
    obtain ⟨smaller, inner⟩ := types b List.mem_cons_self
    have climbed : Cursor.climb b.data.type ⟨tree, path ++ rest⟩ = some ⟨tree, (d, before) :: rest⟩ := spine.climb
      (by rw [split] at chain; exact (List.isChain_append.mp chain).1) inner smaller
    obtain ⟨next, reached, placed⟩ : ∃ next, Spine (.mk d (before ++ [b])) next ∧
        Cursor.placeAll ⟨tree, path ++ rest⟩ b.records = some ⟨tree, next ++ rest⟩ := by
      rw [CpuNode.records_eq, Cursor.placeAll_cons, Cursor.place, climbed, Option.map_some, Option.bind_some]
      by_cases cpu : b.data.type = OBJ_TYPE_CPU
      · have leaf := leaves b List.mem_cons_self cpu
        refine ⟨[(d, before ++ [b])], .flat fun c member => ?_, ?_⟩
        · rw [split] at alike
          exact alike b (List.mem_append_left _ (List.mem_append_right _ (List.mem_singleton_self _)))
            c (List.mem_append_left _ member) cpu
        · rw [Cursor.add_cpu cpu, leaf, recordsAll, Cursor.placeAll_nil, ← leaf, CpuNode.eta]
          rfl
      · obtain ⟨inside, reached, placed⟩ := below b List.mem_cons_self cpu ((d, before) :: rest)
        refine ⟨inside ++ [(d, before)], .last cpu reached, ?_⟩
        rw [Cursor.add_other cpu, placed, List.append_assoc]
        rfl
    rw [split] at chain alike ⊢
    obtain ⟨path', whole, rebuilt⟩ := ih reached (fun c member => below c (List.mem_cons_of_mem _ member))
      (fun c member => leaves c (List.mem_cons_of_mem _ member)) chain
      (fun c member => types c (List.mem_cons_of_mem _ member)) alike
    refine ⟨path', whole, ?_⟩
    rw [recordsAll, Cursor.placeAll_append, placed, Option.bind_some, rebuilt]

/-- The records below a node rebuild it. -/
theorem CpuNode.Tidy.placeAll (tidy : t.Tidy) (ordered : t.Ordered) (tree : List CpuNode)
    (rest : List (NodeData × List CpuNode)) :
    ∃ path, Spine t path ∧
      Cursor.placeAll ⟨tree, (t.data, []) :: rest⟩ (recordsAll t.children) = some ⟨tree, path ++ rest⟩ := by
  induction tidy generalizing rest with
  | @mk data children chain below ih =>
    obtain ⟨_, types, alike, ordered⟩ := ordered
    have leaves : ∀ c ∈ children, c.data.type = OBJ_TYPE_CPU → c.children = [] := by
      intro c member cpu
      obtain ⟨leaf, _, _, _⟩ := ordered c member
      exact leaf cpu
    have start : Spine (.mk data []) [(data, [])] := .flat fun _ none => by contradiction
    exact start.placeAll (fun c member _ rest => ih c member (ordered c member) rest) leaves chain types alike

/-- A tidy forest is rebuilt from its records. -/
theorem placeAll_recordsAll {forest done : List CpuNode} {cursor : Cursor} (closed : cursor.close = ⟨done, []⟩)
    (nodes : ∀ t ∈ forest, t.data.type = OBJ_TYPE_NODE ∧ t.Tidy ∧ t.Ordered) :
    ∃ last, cursor.placeAll (recordsAll forest) = some last ∧ last.close = ⟨done ++ forest, []⟩ := by
  induction forest generalizing done cursor with
  | nil =>
    rw [List.append_nil]
    exact ⟨cursor, rfl, closed⟩
  | cons t forest ih =>
    obtain ⟨node, tidy, ordered⟩ := nodes t List.mem_cons_self
    obtain ⟨path, spine, placed⟩ := tidy.placeAll ordered done []
    have first : cursor.placeAll t.records = some ⟨done, path⟩ := by
      have other : t.data.type ≠ OBJ_TYPE_CPU := by
        rw [node]
        decide
      rw [CpuNode.records_eq, Cursor.placeAll_cons, Cursor.place, Cursor.climb, if_pos node, closed, Option.map_some,
        Option.bind_some, Cursor.add_other other, placed, List.append_nil]
    obtain ⟨last, rebuilt, closed⟩ := ih (spine.close done)
      fun t member => nodes t (List.mem_cons_of_mem _ member)
    refine ⟨last, ?_, by rw [closed, List.append_assoc, List.singleton_append]⟩
    rw [recordsAll, Cursor.placeAll_append, first, Option.bind_some, rebuilt]

end Rebuilding

section Settling

/-- Every open node is tidy so far, and so is the list that it will join. -/
def OpenTidy : List (NodeData × List CpuNode) → Prop
  | [] => True
  | (d, cs) :: rest =>
    (CpuNode.mk d cs).Tidy ∧ (∀ p ∈ rest.head?, (p.2 ++ [CpuNode.mk d []]).IsChain Climbs) ∧ OpenTidy rest

/-- Everything that has been read is tidy. -/
structure Cursor.Listed (cursor : Cursor) : Prop where
  tree : ∀ t ∈ cursor.tree, t.Tidy
  path : OpenTidy cursor.path

/-- Between two records the innermost open node is no CPU and has only CPUs below it. -/
structure Cursor.Settled (cursor : Cursor) : Prop extends Cursor.Listed cursor where
  inner : ∀ p ∈ cursor.path.head?, p.1.type ≠ OBJ_TYPE_CPU
  cpus : ∀ p ∈ cursor.path.head?, ∀ c ∈ p.2, c.data.type = OBJ_TYPE_CPU ∧ c.children = []

variable {cursor cursor' : Cursor} {tree cs : List CpuNode} {t b b' : CpuNode} {d new : NodeData}
  {rest : List (NodeData × List CpuNode)}

/-- How a list continues depends on the type of the next node only. -/
theorem isChain_climbs_append : (cs ++ [b]).IsChain Climbs ↔
    cs.IsChain Climbs ∧ ∀ a ∈ cs.getLast?, Climbs a b := by
  rw [List.isChain_append]
  simp [List.IsChain.singleton]

theorem isChain_climbs_congr (chain : (cs ++ [b]).IsChain Climbs) (same : b.data.type = b'.data.type) :
    (cs ++ [b']).IsChain Climbs := by
  rw [isChain_climbs_append] at chain ⊢
  exact ⟨chain.1, fun a last => ⟨(chain.2 a last).1, same ▸ (chain.2 a last).2⟩⟩

theorem Cursor.Listed.attach (listed : Cursor.Listed ⟨tree, rest⟩) (tidy : t.Tidy)
    (chain : ∀ p ∈ rest.head?, (p.2 ++ [t]).IsChain Climbs) : (Cursor.attach t ⟨tree, rest⟩).Listed := by
  obtain ⟨trees, path⟩ := listed
  cases rest with
  | nil =>
    refine ⟨fun t' member => ?_, trivial⟩
    rcases List.mem_append.mp member with old | new
    · exact trees t' old
    · rw [List.mem_singleton.mp new]
      exact tidy
  | cons parent rest =>
    obtain ⟨d, cs⟩ := parent
    obtain ⟨inner, joins, path⟩ := path
    refine ⟨trees, .mk (chain _ rfl) fun c member => ?_, joins, path⟩
    rcases List.mem_append.mp member with old | new
    · exact (CpuNode.tidy_iff.mp inner).2 c old
    · rw [List.mem_singleton.mp new]
      exact tidy

theorem Cursor.Listed.leave (listed : cursor.Listed) : cursor.leave.Listed := by
  obtain ⟨tree, path⟩ := cursor
  cases path with
  | nil => exact listed
  | cons top rest =>
    obtain ⟨d, cs⟩ := top
    obtain ⟨trees, tidy, joins, path⟩ := listed
    rw [Cursor.leave_eq]
    exact Cursor.Listed.attach ⟨trees, path⟩ tidy fun p parent => isChain_climbs_congr (joins p parent) rfl

theorem Cursor.Listed.leaveAll (listed : cursor.Listed) (n : ℕ) : (cursor.leaveAll n).Listed := by
  induction n generalizing cursor with
  | zero => exact listed
  | succ n ih => exact ih listed.leave

theorem Cursor.close_path : cursor.close.path = [] := by
  have left (n : ℕ) (cursor : Cursor) (short : cursor.path.length ≤ n) : (cursor.leaveAll n).path = [] := by
    induction n generalizing cursor with
    | zero => exact List.length_eq_zero_iff.mp (Nat.le_zero.mp short)
    | succ n ih =>
      apply ih cursor.leave
      obtain ⟨tree, path⟩ := cursor
      rcases path with _ | ⟨top, _ | ⟨parent, rest⟩⟩
      · exact Nat.zero_le n
      · exact Nat.zero_le n
      · exact Nat.le_of_succ_le_succ short
  exact left _ cursor le_rfl

/-- After the climb the new node continues the list of the cursor. -/
theorem Cursor.Settled.climb {type : ℕ} (settled : cursor.Settled) (climbed : cursor.climb type = some cursor')
    (typed : new.type = type) : cursor'.Listed ∧ (∀ p ∈ cursor'.path.head?, (p.2 ++ [CpuNode.mk new []]).IsChain Climbs) ∧
      (type = OBJ_TYPE_CPU → cursor'.Settled) := by
  subst typed
  by_cases node : new.type = OBJ_TYPE_NODE
  · rw [Cursor.climb, if_pos node] at climbed
    cases climbed
    refine ⟨settled.toListed.leaveAll _, fun p head => ?_, fun cpu => ?_⟩
    · rw [Cursor.close_path] at head
      contradiction
    · rw [cpu] at node
      contradiction
  · obtain ⟨tree, path⟩ := cursor
    cases path with
    | nil =>
      rw [Cursor.climb, if_neg node] at climbed
      contradiction
    | cons top rest =>
      obtain ⟨d, cs⟩ := top
      have inner : d.type ≠ OBJ_TYPE_CPU := settled.inner _ rfl
      have cpus : ∀ c ∈ cs, c.data.type = OBJ_TYPE_CPU ∧ c.children = [] := settled.cpus _ rfl
      obtain ⟨tidy, joins, path⟩ := settled.path
      rcases Nat.lt_or_ge new.type d.type with smaller | larger
      · rw [Cursor.climb_stay node smaller] at climbed
        cases climbed
        refine ⟨settled.toListed, fun p head => ?_, fun _ => settled⟩
        cases head
        refine isChain_climbs_append.mpr ⟨(CpuNode.tidy_iff.mp tidy).1, fun a last => ?_⟩
        obtain ⟨cpu, leaf⟩ := cpus a (List.mem_of_getLast? last)
        refine ⟨fun c member => ?_, by rw [cpu]; exact Nat.zero_le _⟩
        rw [leaf] at member
        contradiction
      · rw [Cursor.climb_leave node larger] at climbed
        cases climbed
        refine ⟨Cursor.Listed.attach ⟨settled.tree, path⟩ tidy fun p parent =>
          isChain_climbs_congr (joins p parent) rfl, fun p head => ?_, fun cpu => ?_⟩
        · cases rest with
          | nil => contradiction
          | cons parent rest =>
            cases head
            have joined : (parent.2 ++ [CpuNode.mk d cs]).IsChain Climbs := isChain_climbs_congr (joins _ rfl) rfl
            refine isChain_climbs_append.mpr ⟨joined, fun a last => ?_⟩
            rw [List.getLast?_concat] at last
            cases last
            exact ⟨fun c member => (cpus c member).1, larger⟩
        · rw [cpu] at larger
          exact absurd (Nat.le_zero.mp larger) inner

theorem CpuNode.tidy_leaf : (CpuNode.mk d []).Tidy := .mk .nil fun _ none => by contradiction

theorem Cursor.Settled.place (settled : cursor.Settled) (placed : cursor.place new = some cursor') :
    cursor'.Settled := by
  rw [Cursor.place, Option.map_eq_some_iff] at placed
  obtain ⟨climbed, reached, rfl⟩ := placed
  obtain ⟨listed, chain, kept⟩ := settled.climb reached rfl
  obtain ⟨tree, path⟩ := climbed
  by_cases cpu : new.type = OBJ_TYPE_CPU
  · have settled := kept cpu
    cases path with
    | nil =>
      have listed := listed.attach (CpuNode.tidy_leaf (d := new)) fun p none => by contradiction
      rw [Cursor.add, if_neg (not_not.mpr cpu)]
      exact ⟨listed, fun p none => by contradiction, fun p none => by contradiction⟩
    | cons top rest =>
      obtain ⟨d, cs⟩ := top
      have listed := listed.attach (CpuNode.tidy_leaf (d := new)) chain
      rw [Cursor.add_cpu cpu]
      refine ⟨listed, fun p head => ?_, fun p head c member => ?_⟩
      · cases head
        exact settled.inner (d, cs) rfl
      · cases head
        rcases List.mem_append.mp member with old | new
        · exact settled.cpus (d, cs) rfl c old
        · rw [List.mem_singleton.mp new]
          exact ⟨cpu, rfl⟩
  · rw [Cursor.add_other cpu]
    refine ⟨⟨listed.tree, CpuNode.tidy_leaf, chain, listed.path⟩, fun p head => ?_, fun p head => ?_⟩
    · cases head
      exact cpu
    · cases head
      exact fun c none => by contradiction

/-- Whatever the records, the forest that is read from them is tidy. -/
theorem placeAll_tidy {news : List NodeData} {last : Cursor} (placed : Cursor.placeAll {} news = some last) :
    ∀ t ∈ last.close.tree, t.Tidy := by
  have settled (news : List NodeData) (cursor : Cursor) (settled : cursor.Settled)
      (placed : cursor.placeAll news = some last) : last.Settled := by
    induction news generalizing cursor with
    | nil =>
      cases placed
      exact settled
    | cons new news ih =>
      rw [Cursor.placeAll_cons, Option.bind_eq_some_iff] at placed
      obtain ⟨next, first, placed⟩ := placed
      exact ih next (settled.place first) placed
  have empty : Cursor.Settled {} := ⟨⟨fun _ none => by contradiction, trivial⟩, fun _ none => by contradiction,
    fun _ none => by contradiction⟩
  exact ((settled news {} empty placed).toListed.leaveAll _).tree

end Settling

end Irqbalance
