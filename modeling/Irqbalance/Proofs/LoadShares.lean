import Irqbalance.Proofs.Load
import Irqbalance.Proofs.Overload
import Mathlib.Algebra.BigOperators.Ring.List

/-! # The share of the load that is attributed to an interrupt

`compute_irq_branch_load_share` divides the load of an object by the interrupts it may have come from:
those of the object, all of those below it, and a part of those above it. The own interrupts are among
them, so that they get no more than the load.
-/

namespace Irqbalance

variable {s s' s'' : State} {o c d p x : ObjRef} {i : IrqRef} {fuel n m slice : ℕ} {height : ObjRef → ℕ}

/-- The interrupts of an object since the last scan. -/
def newInterrupts (s : State) (o : ObjRef) : ℕ :=
  ((s.objs o).interrupts.map fun i => (s.irqs i).irqCount - (s.irqs i).lastIrqCount).sum

/-- No interrupt of the object has lost count. -/
def Counting (s : State) (o : ObjRef) : Prop :=
  ∀ i ∈ (s.objs o).interrupts, (s.irqs i).lastIrqCount ≤ (s.irqs i).irqCount

/-- The counts at or below the object are those of the interrupts. -/
def CountedBelow (s : State) (o : ObjRef) : Prop := ∀ x, Below s o x → (s.objs x).irqCount = u64 (newInterrupts s x)

/-- The type lists. -/
def objects (s : State) : List ObjRef := s.cpus ++ s.cacheDomains ++ s.packages ++ s.numaNodes

/-- Every object hangs below a node, in the children of its parent, on at most `fuel` levels. -/
structure ObjectTree (fuel : ℕ) (s : State) : Prop where
  height : ∃ height, Descends s height ∧ ∀ o, height o < fuel
  child : ∀ o ∈ objects s, ∀ c ∈ (s.objs o).children, c ∈ objects s
  parent : ∀ o ∈ objects s, ∀ p, (s.objs o).parent = some p → p ∈ objects s ∧ o ∈ (s.objs p).children
  root : ∀ o ∈ objects s, (s.objs o).parent = none → o ∈ s.numaNodes

/-- The interrupts of an object and its part of those above it. -/
def countAbove (s : State) : ℕ → ObjRef → ℕ
  | 0, _ => 0
  | fuel + 1, d =>
    (match (s.objs d).parent with
      | none => 0
      | some p => countAbove s fuel p / (s.objs p).children.length) + newInterrupts s d

/-- The interrupts at or below an object. -/
def countBelow (s : State) : ℕ → ObjRef → ℕ
  | 0, _ => 0
  | fuel + 1, d => ((s.objs d).children.map (countBelow s fuel)).sum + newInterrupts s d

/-- The interrupts that share the load of an object. -/
def branchCount (s : State) (fuel : ℕ) (d : ObjRef) : ℕ :=
  countAbove s fuel d + ((s.objs d).children.map (countBelow s fuel)).sum

/-- The interrupts with what they have counted, and where they are. -/
structure Assigned (fuel : ℕ) (s : State) : Prop where
  assigned : ∀ o ∈ objects s, ∀ i ∈ (s.objs o).interrupts, (s.irqs i).assignedObj = some o
  counting : ∀ o ∈ objects s, Counting s o
  small : ∀ o ∈ objects s, branchCount s fuel o < 2 ^ 64

/-- The state in which the shares are computed. -/
structure Prepared (fuel : ℕ) (s : State) : Prop extends Assigned fuel s where
  tree : ObjectTree fuel s
  counted : ∀ n ∈ s.numaNodes, CountedBelow s n

section Counts

theorem u64Sub_eq_u64 {a b : ℕ} (le : b ≤ a) : u64Sub a b = u64 (a - b) := by
  unfold u64Sub u64
  omega

theorem Tallied.newInterrupts (tallied : Tallied s s') (o : ObjRef) : newInterrupts s' o = newInterrupts s o := by
  unfold Irqbalance.newInterrupts
  rw [tallied.interrupts, tallied.irqs]

/-- The counts that `accumulate_interrupts` adds up. -/
theorem irqCountOf_eq (counting : Counting s d) : irqCountOf s d = u64 (newInterrupts s d) := by
  have reduced (l : List IrqRef) (acc : ℕ) (counting : ∀ i ∈ l, (s.irqs i).lastIrqCount ≤ (s.irqs i).irqCount) :
      forEach l (accumulateIrqCount s) (u64 acc) =
        u64 (acc + (l.map fun i => (s.irqs i).irqCount - (s.irqs i).lastIrqCount).sum) := by
    induction l generalizing acc with
    | nil => rfl
    | cons i rest ih =>
      have added : accumulateIrqCount s i (u64 acc) =
          u64 (acc + ((s.irqs i).irqCount - (s.irqs i).lastIrqCount)) := by
        rw [accumulateIrqCount, u64Sub_eq_u64 (counting i List.mem_cons_self), u64_add_u64, u64_u64_add]
      rw [forEach_cons, added, ih _ fun j member => counting j (List.mem_cons_of_mem i member), List.map_cons,
        List.sum_cons, Nat.add_assoc]
  have total := reduced _ 0 counting
  rwa [Nat.zero_add] at total

/-- Above the height of the object, more fuel counts nothing more. -/
theorem countAbove_stable (descends : Descends s height)
    (parent : ∀ o ∈ objects s, ∀ p, (s.objs o).parent = some p → p ∈ objects s ∧ o ∈ (s.objs p).children)
    (listed : d ∈ objects s) (deep : ∀ o, height o < fuel) (enough : fuel ≤ n + height d) (more : fuel ≤ m + height d) :
    countAbove s n d = countAbove s m d := by
  induction n generalizing d m with
  | zero => exact absurd (deep d) (by omega)
  | succ n ih =>
    cases m with
    | zero => exact absurd (deep d) (by omega)
    | succ m =>
      rw [countAbove, countAbove]
      cases above : (s.objs d).parent with
      | none => rfl
      | some p =>
        obtain ⟨listed', child⟩ := parent d listed p above
        have higher := descends p d child
        simp only [ih listed' (by omega) (by omega : fuel ≤ m + height p)]

theorem newInterrupts_le_countAbove (positive : 0 < fuel) : newInterrupts s d ≤ countAbove s fuel d := by
  cases fuel with
  | zero => contradiction
  | succ fuel => exact Nat.le_add_left _ _

/-- What is below an object is an object. -/
theorem ObjectTree.below (tree : ObjectTree fuel s) (listed : o ∈ objects s) (below : Below s o x) : x ∈ objects s := by
  induction below with
  | refl => exact listed
  | tail _ child ih => exact tree.child _ ih _ child

/-- Every object is below a node. -/
theorem ObjectTree.inForest (tree : ObjectTree fuel s) (listed : o ∈ objects s) : InForest s o := by
  obtain ⟨height, descends, deep⟩ := tree.height
  -- the induction is on what is left above the object
  have climb (n : ℕ) : ∀ o ∈ objects s, fuel ≤ n + height o → InForest s o := by
    induction n with
    | zero => exact fun o _ enough => absurd (deep o) (by omega)
    | succ n ih =>
      intro o listed enough
      cases above : (s.objs o).parent with
      | none => exact ⟨o, tree.root o listed above, .refl⟩
      | some p =>
        obtain ⟨listed', child⟩ := tree.parent o listed p above
        have higher := descends p o child
        obtain ⟨n, node, below⟩ := ih p listed' (by omega)
        exact ⟨n, node, below.tail child⟩
  exact climb fuel o listed (Nat.le_add_right _ _)

/-- `get_parent_branch_irq_count_share` divides by no empty list of children. -/
theorem getParentBranchIrqCountShare_eq (prepared : Prepared fuel s) (descends : Descends s height)
    (deep : ∀ o, height o < fuel) (listed : d ∈ objects s) (enough : fuel ≤ n + height d) :
    getParentBranchIrqCountShare s n d = some (countAbove s n d) := by
  induction n generalizing d with
  | zero => exact absurd (deep d) (by omega)
  | succ n ih =>
    obtain ⟨node, top, below⟩ := prepared.tree.inForest listed
    have counted := prepared.counted node top d below
    have small : countAbove s (n + 1) d < 2 ^ 64 := by
      rw [countAbove_stable descends prepared.tree.parent listed deep enough (Nat.le_add_right fuel _)]
      exact (Nat.le_add_right _ _).trans_lt (prepared.small d listed)
    rw [countAbove] at small
    rw [getParentBranchIrqCountShare, countAbove, counted]
    cases above : (s.objs d).parent with
    | none =>
      rw [above] at small
      simp only [Option.bind_eq_bind, Option.bind_some, u64_add_u64]
      rw [u64_of_lt small]
    | some p =>
      obtain ⟨listed', child⟩ := prepared.tree.parent d listed p above
      have higher := descends p d child
      have divisor : (s.objs p).children.length ≠ 0 := (List.length_pos_of_mem child).ne'
      rw [above] at small
      simp only [Option.bind_eq_bind, ih listed' (by omega), Option.bind_some, u64Div, if_neg divisor, u64_add_u64]
      rw [u64_of_lt small]

/-- `get_children_branch_irq_count` over objects whose counts are known. -/
theorem forEach_getChildrenBranchIrqCount (descends : Descends s height) (l : List ObjRef)
    (deep : ∀ c ∈ l, height c < n) (counted : ∀ c ∈ l, CountedBelow s c) (total : ℕ) :
    tryForEach l (getChildrenBranchIrqCount s n) (u64 total) =
      some (u64 (total + (l.map (countBelow s n)).sum)) := by
  induction n generalizing l total with
  | zero =>
    cases l with
    | nil => rfl
    | cons c rest => exact absurd (deep c List.mem_cons_self) (Nat.not_lt_zero _)
  | succ n ih =>
    induction l generalizing total with
    | nil => rfl
    | cons c rest walk =>
      have own := counted c List.mem_cons_self
      have below := ih (s.objs c).children
        (fun x child => (descends c x child).trans_le (Nat.lt_succ_iff.mp (deep c List.mem_cons_self)))
        (fun x child y path => own y (.head child path)) total
      have visited : getChildrenBranchIrqCount s (n + 1) c (u64 total) = some (u64 (total + countBelow s (n + 1) c)) := by
        simp only [getChildrenBranchIrqCount, below, Option.bind_eq_bind, Option.bind_some, own c .refl,
          u64_add_u64, u64_u64_add, countBelow, Nat.add_assoc]
      rw [tryForEach_cons, visited, Option.bind_some, walk (fun x member => deep x (List.mem_cons_of_mem c member))
        (fun x member => counted x (List.mem_cons_of_mem c member)), List.map_cons, List.sum_cons, Nat.add_assoc]

end Counts

section Shares

/-- What `assign_load_slice` makes of a count. -/
def sliceLoad (slice : ℕ) (info : IrqInfo) : ℕ :=
  let load := u64 (u64Sub info.irqCount info.lastIrqCount * slice)
  if load = 0 then load + 1 else load

/-- Nothing but loads of interrupts changes, and no load outside a list. -/
structure Sharing (l : List IrqRef) (s s' : State) : Prop where
  state : s' = { s with irqs := s'.irqs }
  irq : ∀ i, s'.irqs i = { s.irqs i with load := (s'.irqs i).load }
  other : ∀ i ∉ l, s'.irqs i = s.irqs i

namespace Sharing

variable {l l' : List IrqRef}

theorem refl (l : List IrqRef) (s : State) : Sharing l s s := ⟨rfl, fun _ => rfl, fun _ _ => rfl⟩

theorem trans (first : Sharing l s s') (second : Sharing l s' s'') : Sharing l s s'' where
  state := by rw [second.state, first.state]
  irq i := by rw [second.irq i, first.irq i]
  other i outside := (second.other i outside).trans (first.other i outside)

theorem mono (sharing : Sharing l s s') (sub : l ⊆ l') : Sharing l' s s' :=
  { sharing with other := fun i outside => sharing.other i fun member => outside (sub member) }

theorem objs (sharing : Sharing l s s') : s'.objs = s.objs := by rw [sharing.state]

theorem newInterrupts (sharing : Sharing l s s') (o : ObjRef) : newInterrupts s' o = newInterrupts s o := by
  unfold Irqbalance.newInterrupts
  rw [sharing.objs]
  refine congrArg List.sum (List.map_congr_left fun i _ => ?_)
  rw [sharing.irq i]

theorem countAbove (sharing : Sharing l s s') : countAbove s' n d = countAbove s n d := by
  induction n generalizing d with
  | zero => rfl
  | succ n ih => simp only [Irqbalance.countAbove, sharing.objs, sharing.newInterrupts, ih]

theorem countBelow (sharing : Sharing l s s') : countBelow s' n = countBelow s n := by
  induction n with
  | zero => rfl
  | succ n ih =>
    funext d
    rw [Irqbalance.countBelow, Irqbalance.countBelow, ih, sharing.objs, sharing.newInterrupts]

theorem objects (sharing : Sharing l s s') : objects s' = objects s := by rw [sharing.state]; rfl

theorem below (sharing : Sharing l s s') : Below s' o x ↔ Below s o x := by
  unfold Below
  simp only [sharing.objs]

theorem prepared (sharing : Sharing l s s') (prepared : Prepared fuel s) : Prepared fuel s' where
  assigned := by
    simp only [sharing.objects, sharing.objs]
    intro o listed i member
    rw [sharing.irq i]
    exact prepared.assigned o listed i member
  counting := by
    simp only [sharing.objects, Counting, sharing.objs]
    intro o listed i member
    rw [sharing.irq i]
    exact prepared.counting o listed i member
  small := by
    simp only [sharing.objects, branchCount, sharing.objs, sharing.countAbove, sharing.countBelow]
    exact prepared.small
  tree := by
    obtain ⟨⟨height, descends, deep⟩, child, parent, root⟩ := prepared.tree
    have nodes : s'.numaNodes = s.numaNodes := by rw [sharing.state]
    refine ⟨⟨height, ?_, deep⟩, ?_, ?_, ?_⟩
    · unfold Descends
      rw [sharing.objs]
      exact descends
    · rw [sharing.objects, sharing.objs]
      exact child
    · rw [sharing.objects, sharing.objs]
      exact parent
    · rw [sharing.objects, sharing.objs, nodes]
      exact root
  counted := by
    have nodes : s'.numaNodes = s.numaNodes := by rw [sharing.state]
    rw [nodes]
    intro n node x below
    rw [sharing.newInterrupts, sharing.objs]
    exact prepared.counted n node x (sharing.below.mp below)

end Sharing

theorem sliceLoad_congr {a b : IrqInfo} (count : a.irqCount = b.irqCount) (last : a.lastIrqCount = b.lastIrqCount) :
    sliceLoad slice a = sliceLoad slice b := by
  unfold sliceLoad
  rw [count, last]

/-- `assign_load_slice` over the interrupts of an object. -/
theorem forEach_assignLoadSlice (slice : ℕ) (l : List IrqRef) (s : State) : Sharing l s (forEach l (assignLoadSlice slice) s) ∧
    ∀ i ∈ l, ((forEach l (assignLoadSlice slice) s).irqs i).load = sliceLoad slice (s.irqs i) := by
  induction l generalizing s with
  | nil => exact ⟨.refl _ s, fun i member => absurd member List.not_mem_nil⟩
  | cons info rest ih =>
    have first : Sharing [info] s (assignLoadSlice slice info s) := by
      refine ⟨rfl, assignLoadSlice_bookkept.irq, fun i outside => ?_⟩
      simp [assignLoadSlice, State.setIrq, List.mem_singleton.not.mp outside]
    have own : ((assignLoadSlice slice info s).irqs info).load = sliceLoad slice (s.irqs info) := by
      simp [assignLoadSlice, State.setIrq, sliceLoad]
    obtain ⟨sharing, loads⟩ := ih (s := assignLoadSlice slice info s)
    refine ⟨(first.mono (by simp)).trans (sharing.mono (List.subset_cons_self info rest)), fun i member => ?_⟩
    rw [forEach_cons]
    by_cases listed : i ∈ rest
    · rw [loads i listed]
      exact sliceLoad_congr (by rw [first.irq i]) (by rw [first.irq i])
    · obtain rfl : i = info := (List.mem_cons.mp member).resolve_right listed
      rw [sharing.other i listed, own]

theorem one_le_sliceLoad (slice : ℕ) (info : IrqInfo) : 1 ≤ sliceLoad slice info := by
  unfold sliceLoad
  dsimp only
  split <;> omega

/-- A load above 1 is at most the slice for each interrupt. -/
theorem heavy_sliceLoad {info : IrqInfo} (counting : info.lastIrqCount ≤ info.irqCount) :
    (if 1 < sliceLoad slice info then sliceLoad slice info else 0) ≤ (info.irqCount - info.lastIrqCount) * slice := by
  have bound : u64 (u64Sub info.irqCount info.lastIrqCount * slice) ≤ (info.irqCount - info.lastIrqCount) * slice := by
    rw [u64Sub_eq_u64 counting]
    exact (u64_le _).trans (Nat.mul_le_mul_right slice (u64_le _))
  unfold sliceLoad
  dsimp only
  split <;> split <;> omega

/-- The loads of the interrupts of an object after its share is attributed. -/
structure Shared (s : State) (o : ObjRef) : Prop where
  least : ∀ i ∈ (s.objs o).interrupts, 1 ≤ (s.irqs i).load
  heavy : heavyLoad s (s.objs o).interrupts ≤ (s.objs o).load

theorem Sharing.shared {l : List IrqRef} (sharing : Sharing l s s') (apart : ∀ i ∈ (s.objs o).interrupts, i ∉ l)
    (shared : Shared s o) : Shared s' o := by
  refine ⟨?_, ?_⟩
  · rw [sharing.objs]
    intro i member
    rw [sharing.other i (apart i member)]
    exact shared.least i member
  · rw [sharing.objs]
    refine le_of_eq_of_le (congrArg List.sum (List.map_congr_left fun i member => ?_)) shared.heavy
    rw [sharing.other i (apart i member)]

/-- An object with interrupts has its load divided; the own interrupts are among those that share it. -/
theorem computeIrqBranchLoadShare_slice (prepared : Prepared fuel s) (listed : d ∈ objects s)
    (some : (s.objs d).interrupts.length > 0) : ∃ slice,
      computeIrqBranchLoadShare fuel d s = .some (forEach (s.objs d).interrupts (assignLoadSlice slice) s) ∧
        newInterrupts s d * slice ≤ (s.objs d).load := by
  obtain ⟨height, descends, deep⟩ := prepared.tree.height
  obtain ⟨node, top, below⟩ := prepared.tree.inForest listed
  have small : countAbove s fuel d + ((s.objs d).children.map (countBelow s fuel)).sum < 2 ^ 64 :=
    prepared.small d listed
  have share := getParentBranchIrqCountShare_eq prepared descends deep listed (Nat.le_add_right fuel _)
  have walk := forEach_getChildrenBranchIrqCount descends (s.objs d).children (fun c _ => deep c)
    (fun c child x path => prepared.counted node top x ((below.tail child).trans path)) (countAbove s fuel d)
  rw [u64_of_lt ((Nat.le_add_right _ _).trans_lt small), u64_of_lt small] at walk
  have own : newInterrupts s d ≤ countAbove s fuel d + ((s.objs d).children.map (countBelow s fuel)).sum :=
    (newInterrupts_le_countAbove ((Nat.zero_le _).trans_lt (deep d))).trans (Nat.le_add_right _ _)
  unfold computeIrqBranchLoadShare
  simp only [if_pos some, share, Option.bind_eq_bind, Option.bind_some, walk]
  generalize countAbove s fuel d + ((s.objs d).children.map (countBelow s fuel)).sum = count at own ⊢
  by_cases none : count = 0
  · refine ⟨1, if_neg (not_not.mpr none), ?_⟩
    have idle : newInterrupts s d = 0 := by omega
    rw [idle, Nat.zero_mul]
    exact Nat.zero_le _
  · refine ⟨(s.objs d).load / count, ?_, ?_⟩
    · rw [if_pos none, u64Div, if_neg none]
      rfl
    · calc newInterrupts s d * ((s.objs d).load / count)
          ≤ count * ((s.objs d).load / count) := Nat.mul_le_mul_right _ own
        _ ≤ (s.objs d).load := Nat.mul_div_le _ count

/-- `compute_irq_branch_load_share` of one object. -/
theorem computeIrqBranchLoadShare_spec (prepared : Prepared fuel s) (listed : d ∈ objects s) :
    ∃ s', computeIrqBranchLoadShare fuel d s = some s' ∧ Sharing (s.objs d).interrupts s s' ∧ Shared s' d := by
  by_cases some : (s.objs d).interrupts.length > 0
  · obtain ⟨slice, computed, bound⟩ := computeIrqBranchLoadShare_slice prepared listed some
    obtain ⟨sharing, loads⟩ := forEach_assignLoadSlice slice (s.objs d).interrupts s
    refine ⟨_, computed, sharing, ?_, ?_⟩
    · rw [sharing.objs]
      intro i member
      rw [loads i member]
      exact one_le_sliceLoad _ _
    · rw [sharing.objs]
      refine le_trans ?_ bound
      rw [newInterrupts, ← List.sum_map_mul_right]
      apply List.sum_le_sum
      intro i member
      rw [loads i member]
      exact heavy_sliceLoad (prepared.counting d listed i member)
  · have empty : (s.objs d).interrupts = [] := List.eq_nil_of_length_eq_zero (by omega)
    refine ⟨s, if_neg some, .refl _ s, ?_, ?_⟩
    · rw [empty]
      exact fun i member => absurd member List.not_mem_nil
    · rw [empty]
      exact Nat.zero_le _

/-- The objects of a list get their shares, and others keep theirs. -/
theorem forEach_computeIrqBranchLoadShare (prepared : Prepared fuel s) (l : List ObjRef) (listed : l ⊆ objects s) :
    ∃ s', tryForEach l (computeIrqBranchLoadShare fuel) s = some s' ∧ Prepared fuel s' ∧
      s' = { s with irqs := s'.irqs } ∧ (∀ o ∈ l, Shared s' o) ∧ ∀ o ∈ objects s, Shared s o → Shared s' o := by
  obtain ⟨s', walked, ⟨prepared', state⟩, shared, kept⟩ := tryForEach_visits (l := l)
      (f := computeIrqBranchLoadShare fuel) (s := s)
      (I := fun s' => Prepared fuel s' ∧ s' = { s with irqs := s'.irqs })
      (Q := fun o s' => o ∈ objects s → Shared s' o) ⟨prepared, rfl⟩ (by
    rintro d member s₁ ⟨prepared₁, state⟩
    have same : objects s₁ = objects s := by
      rw [state]
      rfl
    have listed₁ : d ∈ objects s₁ := same ▸ listed member
    obtain ⟨s₂, visited, sharing, shared⟩ := computeIrqBranchLoadShare_spec prepared₁ listed₁
    refine ⟨s₂, visited, ⟨sharing.prepared prepared₁, by rw [sharing.state, state]⟩,
      fun _ => shared, fun o held known => ?_⟩
    by_cases own : o = d
    · rw [own]
      exact shared
    · refine sharing.shared (fun i here there => own ?_) (held known)
      have first := prepared₁.assigned o (same ▸ known) i here
      exact Option.some.inj (first.symm.trans (prepared₁.assigned d listed₁ i there)))
  exact ⟨s', walked, prepared', state, fun o member => shared o member (listed member),
    fun o known held => kept o (fun _ => held) known⟩

/-- The shares of `done` are handed out in `s'`. -/
structure SharedOut (fuel : ℕ) (s : State) (done : List ObjRef) (s' : State) : Prop where
  prepared : Prepared fuel s'
  state : s' = { s with irqs := s'.irqs }
  shared : ∀ o ∈ done, Shared s' o

variable {done l : List ObjRef}

theorem SharedOut.lists (out : SharedOut fuel s done s') : objects s' = objects s ∧
    s'.cacheDomains = s.cacheDomains ∧ s'.packages = s.packages ∧ s'.numaNodes = s.numaNodes := by
  rw [out.state]
  exact ⟨rfl, rfl, rfl, rfl⟩

/-- The pass over one more list. -/
theorem SharedOut.next (out : SharedOut fuel s done s') (known : done ⊆ objects s) (listed : l ⊆ objects s) :
    ∃ s'', tryForEach l (computeIrqBranchLoadShare fuel) s' = some s'' ∧ SharedOut fuel s (done ++ l) s'' := by
  have same := out.lists.1
  rw [← same] at known listed
  obtain ⟨s'', walked, prepared, state, shared, kept⟩ := forEach_computeIrqBranchLoadShare out.prepared l listed
  refine ⟨s'', walked, prepared, by rw [state, out.state], fun o member => ?_⟩
  rcases List.mem_append.mp member with before | now
  · exact kept o (known before) (out.shared o before)
  · exact shared o now

/-- The four passes reach every object. -/
theorem Prepared.shareLoads (prepared : Prepared fuel s) : ∃ s', (do
      let s ← tryForEach s.cpus (computeIrqBranchLoadShare fuel) s
      let s ← tryForEach s.cacheDomains (computeIrqBranchLoadShare fuel) s
      let s ← tryForEach s.packages (computeIrqBranchLoadShare fuel) s
      tryForEach s.numaNodes (computeIrqBranchLoadShare fuel) s) = some s' ∧ SharedOut fuel s (objects s) s' := by
  have all : s.cpus ++ s.cacheDomains ++ s.packages ++ s.numaNodes ⊆ objects s := List.Subset.refl _
  obtain ⟨upToPackages, nodes⟩ := List.append_subset.mp all
  obtain ⟨upToCaches, packages⟩ := List.append_subset.mp upToPackages
  obtain ⟨cpus, caches⟩ := List.append_subset.mp upToCaches
  have none : SharedOut fuel s [] s := ⟨prepared, rfl, fun o member => absurd member List.not_mem_nil⟩
  obtain ⟨s₁, walked₁, out₁⟩ := none.next (List.nil_subset _) cpus
  obtain ⟨s₂, walked₂, out₂⟩ := out₁.next cpus caches
  obtain ⟨s₃, walked₃, out₃⟩ := out₂.next upToCaches packages
  obtain ⟨s₄, walked₄, out₄⟩ := out₃.next upToPackages nodes
  rw [← out₁.lists.2.1] at walked₂
  rw [← out₂.lists.2.2.1] at walked₃
  rw [← out₃.lists.2.2.2] at walked₄
  refine ⟨s₄, ?_, out₄⟩
  simp only [walked₁, walked₂, walked₃, walked₄, Option.bind_eq_bind, Option.bind_some]

end Shares

section Passes

theorem Tallied.objects (tallied : Tallied s s') : objects s' = objects s := by rw [tallied.state]; rfl

theorem Tallied.counts (tallied : Tallied s s') : countAbove s' = countAbove s ∧ countBelow s' = countBelow s := by
  have parent (d : ObjRef) : (s'.objs d).parent = (s.objs d).parent := by rw [tallied.obj]
  refine ⟨?_, ?_⟩ <;> funext n
  · induction n with
    | zero => rfl
    | succ n ih =>
      funext d
      simp only [countAbove, ih, parent, tallied.children, tallied.newInterrupts]
  · induction n with
    | zero => rfl
    | succ n ih =>
      funext d
      rw [countBelow, countBelow, ih, tallied.children, tallied.newInterrupts]

theorem Tallied.assigned (tallied : Tallied s s') (assigned : Assigned fuel s) : Assigned fuel s' where
  assigned := by
    simp only [tallied.objects, tallied.interrupts, tallied.irqs]
    exact assigned.assigned
  counting := by
    simp only [tallied.objects, Counting, tallied.interrupts, tallied.irqs]
    exact assigned.counting
  small := by
    simp only [tallied.objects, branchCount, tallied.counts, tallied.children]
    exact assigned.small

theorem Tallied.objectTree (tallied : Tallied s s') (tree : ObjectTree fuel s) : ObjectTree fuel s' := by
  obtain ⟨⟨height, descends, deep⟩, child, parent, root⟩ := tree
  have above (d : ObjRef) : (s'.objs d).parent = (s.objs d).parent := by rw [tallied.obj]
  have nodes : s'.numaNodes = s.numaNodes := by rw [tallied.state]
  refine ⟨⟨height, tallied.descends descends, deep⟩, ?_, ?_, ?_⟩
  · simp only [tallied.objects, tallied.children]
    exact child
  · simp only [tallied.objects, above, tallied.children]
    exact parent
  · simp only [tallied.objects, above, nodes]
    exact root

/-- After the loads and the counts everything is ready for the shares. -/
theorem ObjectTree.tally (tree : ObjectTree fuel s) (assigned : Assigned fuel s) :
    ∃ s₁ s₂, tryForEach s.numaNodes (setLoad fuel) s = some s₁ ∧
      tryForEach s₁.numaNodes (accumulateInterrupts fuel) s₁ = some s₂ ∧ Tallied s s₂ ∧ Prepared fuel s₂ := by
  obtain ⟨height, descends, deep⟩ := tree.height
  obtain ⟨s₁, loaded, loading, _⟩ := forEach_setLoad descends deep s.numaNodes
  have tallied₁ := loading.tallied
  obtain ⟨s₂, counted, recounting, recounted⟩ :=
    forEach_accumulateInterrupts (tallied₁.descends descends) deep s₁.numaNodes
  have tallied₂ := tallied₁.trans recounting.tallied
  have same : objects s₂ = objects s := tallied₂.objects
  have assigned₂ : Assigned fuel s₂ := tallied₂.assigned assigned
  refine ⟨s₁, s₂, loaded, counted, tallied₂, assigned₂, tallied₂.objectTree tree, fun n node x below => ?_⟩
  have top : s₂.numaNodes = s.numaNodes := by rw [tallied₂.state]
  have top₁ : s₁.numaNodes = s.numaNodes := by rw [tallied₁.state]
  rw [top] at node
  have listed := tree.below (List.mem_append_right _ node) (tallied₂.below.mp below)
  rw [recounted n (top₁ ▸ node) x below, irqCountOf_eq (assigned₂.counting x (same ▸ listed))]

/-- What the interrupts carry after the passes of `parse_proc_stat`. -/
structure Attributed (s s' : State) : Prop where
  interrupts : ∀ o, (s'.objs o).interrupts = (s.objs o).interrupts
  least : ∀ o ∈ objects s, ∀ i ∈ (s.objs o).interrupts, 1 ≤ (s'.irqs i).load
  covered : Covered (objects s) s'

/-- Nothing is divided by zero, every interrupt has a load, and an object covers the loads of its own. -/
theorem attributeLoads_attributed (fuel : ℕ) (s : State) (tree : ObjectTree fuel s) (assigned : Assigned fuel s) :
    ∃ s', attributeLoads fuel s = some s' ∧ Attributed s s' := by
  obtain ⟨s₁, s₂, loaded, counted, tallied, prepared⟩ := tree.tally assigned
  obtain ⟨s', walked, out⟩ := prepared.shareLoads
  have same₂ : objects s₂ = objects s := tallied.objects
  have same : objects s' = objects s := out.lists.1.trans same₂
  have shared : ∀ o ∈ objects s, Shared s' o := same₂ ▸ out.shared
  have interrupts (o : ObjRef) : (s'.objs o).interrupts = (s.objs o).interrupts := by
    rw [out.state]
    exact tallied.interrupts o
  refine ⟨s', ?_, interrupts, fun o listed i member => ?_, ?_, ?_⟩
  · simpa only [attributeLoads, loaded, counted, Option.bind_eq_bind, Option.bind_some] using walked
  · rw [← interrupts o] at member
    exact (shared o listed).least i member
  · rw [← same]
    exact out.prepared.assigned
  · exact fun o listed => (shared o listed).heavy

/-- Two CPUs below a cache domain, with one interrupt on a CPU and one on the package. -/
def branchOfTwo : State where
  objs
    | 0 => { objType := .node, children := [1] }
    | 1 => { objType := .package, parent := some 0, children := [2], interrupts := [1] }
    | 2 => { objType := .cache, parent := some 1, children := [3, 4] }
    | 3 => { load := 90, parent := some 2, interrupts := [0] }
    | 4 => { load := 10, parent := some 2 }
    | _ => {}
  irqs i := { irqCount := 30, lastIrqCount := 10, assignedObj := some (if i = 0 then 3 else 1) }
  numaNodes := [0]
  packages := [1]
  cacheDomains := [2]
  cpus := [3, 4]

theorem branchOfTwo_tree : ObjectTree 4 branchOfTwo where
  height := by
    refine ⟨fun o => if o = 0 then 3 else if o = 1 then 2 else if o = 2 then 1 else 0, fun p c child => ?_, fun o => ?_⟩
    · rcases p with _ | _ | _ | _ | _ | p
      all_goals
        revert c
        first | decide | exact fun c child => absurd child List.not_mem_nil
    · dsimp only
      split_ifs <;> decide
  child := by decide
  parent := by
    have parents : ∀ o ∈ objects branchOfTwo, ∀ p ∈ (branchOfTwo.objs o).parent,
        p ∈ objects branchOfTwo ∧ o ∈ (branchOfTwo.objs p).children := by decide
    exact fun o listed p above => parents o listed p above
  root := by decide

theorem attributeLoads_branchOfTwo : ∃ s', attributeLoads 4 branchOfTwo = some s' ∧ Attributed branchOfTwo s' :=
  attributeLoads_attributed 4 branchOfTwo branchOfTwo_tree
    ⟨by decide, by unfold Counting; decide, by decide⟩

end Passes

end Irqbalance
