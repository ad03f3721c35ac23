import Irqbalance.Proofs.Frame

/-! # Where every interrupt is

`Consistent` is the invariant that holds even between the statements of one operation: irq numbers
identify entries and the interrupt lists file the database. `Located` adds that an entry without
an object waits for placement exactly when it may be balanced; this holds whenever no operation
is under way. Moves, removals and insertions keep both.
-/

namespace Irqbalance

/-- The list an entry is in: its object's, the rebalance list, or none. -/
def place (s : State) (i : IrqRef) : Option (Option ObjRef) :=
  match (s.irqs i).assignedObj with
  | some o => some (some o)
  | none => if i ∈ s.rebalanceIrqList then some none else none

/-- An entry without an object waits exactly when it may be balanced. -/
def Settled (s : State) (i : IrqRef) : Prop :=
  (s.irqs i).assignedObj = none → (i ∈ s.rebalanceIrqList ↔ (s.irqs i).level ≠ .none)

/-- Irq numbers identify entries, and the interrupt lists file `interrupts_db`. -/
structure Consistent (s : State) : Prop where
  distinct : ((s.interruptsDb ++ s.bannedIrqs).map fun i => (s.irqs i).irq).Nodup
  fresh : ∀ i ∈ s.interruptsDb ++ s.bannedIrqs, i < s.nextIrq
  filed : Filing.Filed s.irqList s.interruptsDb (place s)
  banned : ∀ i ∈ s.bannedIrqs, (s.irqs i).assignedObj = none ∧ (s.irqs i).level = .none

/-- The invariant of a daemon between two operations. -/
structure Located (s : State) : Prop extends Consistent s where
  settled : ∀ i ∈ s.interruptsDb, Settled s i

/-- A state in which all entries wait. -/
theorem located_of_waiting {s : State} (nodup : (s.interruptsDb.map fun i => (s.irqs i).irq).Nodup)
    (fresh : ∀ i ∈ s.interruptsDb, i < s.nextIrq) (banned : s.bannedIrqs = [])
    (waiting : s.rebalanceIrqList = s.interruptsDb) (idle : ∀ o, (s.objs o).interrupts = [])
    (entries : ∀ i ∈ s.interruptsDb, (s.irqs i).assignedObj = none ∧ (s.irqs i).level ≠ .none) : Located s where
  distinct := by rwa [banned, List.append_nil]
  fresh := by rwa [banned, List.append_nil]
  filed := by
    have places : ∀ i ∈ s.interruptsDb, place s i = some none := by
      intro i member
      simp only [place, (entries i member).1, waiting, if_pos member]
    refine ⟨fun i member p => ?_, fun p i member => ?_⟩
    · rw [places i member]
      cases p with
      | none =>
        change s.rebalanceIrqList.count i = _
        rw [waiting, if_pos rfl, List.count_eq_one_of_mem nodup.of_map member]
      | some o =>
        change (s.objs o).interrupts.count i = _
        rw [idle, if_neg (by simp)]
        rfl
    · cases p with
      | none => exact waiting ▸ member
      | some o =>
        have listed : i ∈ (s.objs o).interrupts := member
        rw [idle] at listed
        exact absurd listed List.not_mem_nil
  banned i member := absurd (banned ▸ member) List.not_mem_nil
  settled i member _ := iff_of_true (waiting ▸ member) (entries i member).2

section Lookup

variable {s : State} {i j : IrqRef} {o : ObjRef} {p : Option ObjRef}

theorem place_some (assigned : (s.irqs i).assignedObj = some o) : place s i = some (some o) := by
  simp only [place, assigned]

theorem place_none (assigned : (s.irqs i).assignedObj = none) :
    place s i = if i ∈ s.rebalanceIrqList then some none else none := by
  simp only [place, assigned]

/-- The place of an entry names its object. -/
theorem assigned_of_place (filed : place s i = some p) : (s.irqs i).assignedObj = p := by
  cases assigned : (s.irqs i).assignedObj with
  | some o =>
    rw [place_some assigned] at filed
    exact Option.some.inj filed
  | none =>
    rw [place_none assigned] at filed
    split at filed
    · exact Option.some.inj filed
    · contradiction

namespace Consistent

variable (valid : Consistent s)
include valid

/-- Two entries with one number are the same entry. -/
theorem unique (memberI : i ∈ s.interruptsDb ++ s.bannedIrqs)
    (memberJ : j ∈ s.interruptsDb ++ s.bannedIrqs) (same : (s.irqs j).irq = (s.irqs i).irq) :
    j = i :=
  List.inj_on_of_nodup_map valid.distinct memberJ memberI same

theorem mem_db (member : i ∈ s.irqList p) : i ∈ s.interruptsDb := valid.filed.items p i member

/-- An entry in the list of an object is assigned to it, and a waiting entry to none. -/
theorem assigned (member : i ∈ s.irqList p) : (s.irqs i).assignedObj = p :=
  assigned_of_place (valid.filed.place_of_mem member)

/-- An entry assigned to an object is in its list. -/
theorem listed (member : i ∈ s.interruptsDb) (assigned : (s.irqs i).assignedObj = some o) :
    i ∈ (s.objs o).interrupts :=
  (valid.filed.mem_iff member (some o)).mpr (place_some assigned)

theorem nodup_db : (s.interruptsDb ++ s.bannedIrqs).Nodup := valid.distinct.of_map

/-- Numbers identify the entries of one list. -/
theorem unique_irqList (member : i ∈ s.interruptsDb ++ s.bannedIrqs) :
    ∀ j ∈ s.irqList p, (s.irqs j).irq = (s.irqs i).irq → j = i := by
  intro j memberJ same
  exact valid.unique member (List.mem_append_left _ (valid.mem_db memberJ)) same

/-- A move finds the link of an entry that is in its source list. -/
theorem migrated {p q : Option ObjRef} (member : i ∈ s.irqList p) :
    Migrated p q i s (migrateIrqObj p q i s) := by
  refine migrateIrqObj_spec ?_ member ?_
  · rintro rfl
    exact valid.assigned member
  · exact valid.unique_irqList (List.mem_append_left _ (valid.mem_db member))

end Consistent

theorem SameDb.numbers {s s' : State} (same : SameDb s s') :
    ((s'.interruptsDb ++ s'.bannedIrqs).map fun i => (s'.irqs i).irq) =
      (s.interruptsDb ++ s.bannedIrqs).map fun i => (s.irqs i).irq := by
  simp only [same.interruptsDb, same.bannedIrqs, same.irq]

end Lookup

section Retaining

variable {s s' s'' : State}

/-- Assignments and lists are the same, up to the order within a list. A level may change only
once an object is assigned. -/
structure Retained (s s' : State) : Prop where
  db : SameDb s s'
  assigned : ∀ i, (s'.irqs i).assignedObj = (s.irqs i).assignedObj
  level : ∀ i, (s.irqs i).assignedObj = none → (s'.irqs i).level = (s.irqs i).level
  lists : ∀ p, (s'.irqList p).Perm (s.irqList p)

/-- A change of objects, queues or masks that keeps the entries and the lists. -/
theorem Retained.of_irqs (db : SameDb s s') (irqs : s'.irqs = s.irqs) (lists : s'.irqList = s.irqList) :
    Retained s s' where
  db := db
  assigned i := by rw [irqs]
  level i _ := by rw [irqs]
  lists p := by rw [lists]

theorem Retained.place (same : Retained s s') (i : IrqRef) : place s' i = place s i := by
  have waiting : i ∈ s'.rebalanceIrqList ↔ i ∈ s.rebalanceIrqList := (same.lists none).mem_iff
  simp only [Irqbalance.place, same.assigned, waiting]

theorem Retained.consistent (same : Retained s s') (valid : Consistent s) : Consistent s' where
  distinct := by rw [same.db.numbers]; exact valid.distinct
  fresh := by rw [same.db.interruptsDb, same.db.bannedIrqs, same.db.nextIrq]; exact valid.fresh
  filed := by
    rw [same.db.interruptsDb]
    exact valid.filed.congr same.lists fun i _ => same.place i
  banned i member := by
    rw [same.db.bannedIrqs] at member
    obtain ⟨unassigned, level⟩ := valid.banned i member
    exact ⟨(same.assigned i).trans unassigned, (same.level i unassigned).trans level⟩

theorem Retained.settled (same : Retained s s') {i : IrqRef} (settled : Settled s i) :
    Settled s' i := by
  intro unassigned
  rw [same.assigned] at unassigned
  have waiting : i ∈ s'.rebalanceIrqList ↔ i ∈ s.rebalanceIrqList := (same.lists none).mem_iff
  rw [waiting, same.level i unassigned]
  exact settled unassigned

theorem Retained.located (same : Retained s s') (valid : Located s) : Located s' where
  toConsistent := same.consistent valid.toConsistent
  settled i member := by
    rw [same.db.interruptsDb] at member
    exact same.settled (valid.settled i member)

/-- Storing back an entry that keeps its number, its node and its object. -/
theorem retained_setIrq {i : IrqRef} {info : IrqInfo} (irq : info.irq = (s.irqs i).irq)
    (numaNode : info.numaNode = (s.irqs i).numaNode)
    (assigned : info.assignedObj = (s.irqs i).assignedObj)
    (level : (s.irqs i).assignedObj = none → info.level = (s.irqs i).level) :
    Retained s (s.setIrq i info) where
  db := sameDb_setIrq irq numaNode
  assigned := setIrq_field IrqInfo.assignedObj assigned
  level := forall_setIrq (P := fun j x => (s.irqs j).assignedObj = none → x.level = (s.irqs j).level) level
    fun _ _ _ => rfl
  lists p := by rw [irqList_setIrq]

theorem retained_setObj {o : ObjRef} {obj : TopoObj} (same : obj.interrupts = (s.objs o).interrupts) :
    Retained s (s.setObj o obj) :=
  .of_irqs sameDb_setObj rfl (irqList_setObj same)

theorem retained_setIrqList {p : Option ObjRef} {l : List IrqRef} (perm : l.Perm (s.irqList p)) :
    Retained s (s.setIrqList p l) where
  db := sameDb_setIrqList
  assigned _ := rfl
  level _ _ := rfl
  lists q := by
    rw [irqList_setIrqList]
    by_cases same : q = p
    · subst same; simpa using perm
    · simp [same]

end Retaining

section Moving

variable {s s' : State} {src dst : Option ObjRef} {info : IrqRef}

theorem Migrated.assigned (moved : Migrated src dst info s s') : (s'.irqs info).assignedObj = dst := by
  simp [moved.irqs]

theorem Migrated.other (moved : Migrated src dst info s s') {i : IrqRef} (other : i ≠ info) :
    s'.irqs i = s.irqs i := by
  simp [moved.irqs, other]

theorem Migrated.level (moved : Migrated src dst info s s') (i : IrqRef) :
    (s'.irqs i).level = (s.irqs i).level := by
  by_cases same : i = info
  · subst same; simp [moved.irqs]
  · rw [moved.other same]

/-- Where the moved entry is afterwards, and where the others are. -/
theorem Migrated.mem_irqList (moved : Migrated src dst info s s') {i : IrqRef} {p : Option ObjRef}
    (other : i ≠ info) : i ∈ s'.irqList p ↔ i ∈ s.irqList p := by
  rw [moved.lists]
  exact Filing.mem_move_of_ne other

theorem Migrated.place_self (moved : Migrated src dst info s s') : place s' info = some dst := by
  cases dst with
  | some o => exact place_some moved.assigned
  | none =>
    have waiting : info ∈ s'.irqList none := by
      rw [moved.lists]
      simp [Filing.move]
    rw [place_none moved.assigned]
    exact if_pos waiting

theorem Migrated.place_other (moved : Migrated src dst info s s') {i : IrqRef} (other : i ≠ info) :
    place s' i = place s i := by
  have waiting : i ∈ s'.rebalanceIrqList ↔ i ∈ s.rebalanceIrqList :=
    moved.mem_irqList (p := none) other
  simp only [place, moved.other other, waiting]

theorem Migrated.consistent (moved : Migrated src dst info s s') (member : info ∈ s.irqList src)
    (valid : Consistent s) : Consistent s' where
  distinct := by rw [moved.db.numbers]; exact valid.distinct
  fresh := by rw [moved.db.interruptsDb, moved.db.bannedIrqs, moved.db.nextIrq]; exact valid.fresh
  filed := by
    rw [moved.lists, moved.db.interruptsDb]
    have refiled := valid.filed.move (q := dst) (valid.mem_db member) (valid.filed.place_of_mem member)
    apply refiled.congr (fun _ => .rfl)
    intro i _
    by_cases same : i = info
    · subst same; rw [moved.place_self, Function.update_self]
    · rw [moved.place_other same, Function.update_of_ne same]
  banned i bannedI := by
    rw [moved.db.bannedIrqs] at bannedI
    have other : i ≠ info := by
      rintro rfl
      exact (List.nodup_append.mp valid.nodup_db).2.2 i (valid.mem_db member) i bannedI rfl
    rw [moved.other other]
    exact valid.banned i bannedI

theorem Migrated.settled (moved : Migrated src dst info s s') {i : IrqRef} (other : i ≠ info)
    (settled : Settled s i) : Settled s' i := by
  have waiting : i ∈ s'.rebalanceIrqList ↔ i ∈ s.rebalanceIrqList :=
    moved.mem_irqList (p := none) other
  unfold Settled
  rw [moved.other other, waiting]
  exact settled

/-- A move to an object keeps the invariant, and so does a move to the rebalance list of an entry
that may be balanced. -/
theorem Migrated.located (moved : Migrated src dst info s s') (member : info ∈ s.irqList src)
    (allowed : dst = none → (s.irqs info).level ≠ .none) (valid : Located s) : Located s' where
  toConsistent := moved.consistent member valid.toConsistent
  settled i memberI := by
    rw [moved.db.interruptsDb] at memberI
    by_cases same : i = info
    · subst same
      intro unassigned
      obtain rfl := moved.assigned.symm.trans unassigned
      have waiting : i ∈ s'.irqList none := by
        rw [moved.lists]
        simp [Filing.move]
      rw [moved.level]
      exact iff_of_true waiting (allowed rfl)
    · exact moved.settled same (valid.settled i memberI)

end Moving

end Irqbalance
