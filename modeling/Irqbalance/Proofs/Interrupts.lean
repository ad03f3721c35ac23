import Irqbalance.Proofs.BannedIrqs
import Irqbalance.Proofs.InterruptsText

/-! # The databases follow /proc/interrupts

`parse_proc_interrupts` marks and counts one entry for each line, which it adds where the number is new,
and then removes what has no mark. Up to the line where it stops, the entries that it has not come to are
as before.
-/

namespace Irqbalance

variable {K : Env} {s s' s₀ s₁ : State} {i info : IrqRef} {irq : ℤ} {src : IrqSources} {line : ProcLine}

/-- The entries of both databases. -/
abbrev State.entries (s : State) : List IrqRef := s.interruptsDb ++ s.bannedIrqs

section Finding

theorem Consistent.getIrqInfo_of_mem (valid : Consistent s) (member : i ∈ s.entries) (number : (s.irqs i).irq = irq) :
    getIrqInfo irq s = some i := by
  cases found : getIrqInfo irq s with
  | none => exact absurd number (getIrqInfo_eq_none.mp found i member)
  | some j =>
    obtain ⟨memberJ, numberJ⟩ := getIrqInfo_some found
    rw [valid.unique member memberJ (numberJ.trans number.symm)]

/-- An unknown number has come in with a new entry. -/
structure Discovered (s : State) (irq : ℤ) (s' : State) (i : IrqRef) : Prop where
  fresh : i ∉ s.entries
  entries : ∀ j, j ∈ s'.entries ↔ j ∈ s.entries ∨ j = i
  old : ∀ j ∈ s.entries, s'.irqs j = s.irqs j
  blank : Blank s irq (s'.irqs i)

theorem Added.discovered (added : Added s irq s') (unknown : getIrqInfo irq s = none) (valid : Consistent s) :
    Discovered s irq s' s.nextIrq := by
  have other {j : IrqRef} (member : j ∈ s.entries) : j ≠ s.nextIrq := valid.ne_nextIrq member
  have fresh : s.nextIrq ∉ s.entries := fun member => other member rfl
  cases added with
  | known found => exact absurd unknown found
  | banned _ blank _ =>
    refine ⟨fresh, fun j => ?_, fun j member => insertBanned_irqs_of_ne (other member), insertBanned_irqs_self.symm ▸ blank⟩
    simp [State.entries, State.insertBanned, State.allocIrq, State.setIrq, or_assoc]
  | managed _ blank =>
    refine ⟨fresh, fun j => ?_, fun j member => insertDb_irqs_of_ne (other member), insertDb_irqs_self.symm ▸ blank⟩
    simp only [State.entries, State.insertDb, State.allocIrq, State.setIrq, List.mem_append, List.mem_singleton]
    exact or_right_comm

/-- `proc_irq_hotplug` finds room for any new number. -/
theorem procIrqHotplug_discovered (src : IrqSources) (hint : IrqHint) (positive : 0 ≤ hint.irq)
    (unknown : getIrqInfo hint.irq s = none) (valid : Consistent s) :
    ∃ i, Discovered s hint.irq (procIrqHotplug K src hint s) i := by
  obtain ⟨s₁, added, known, result⟩ := hotplug_added (K := K) src hint positive unknown
  have discovered := added.discovered unknown valid
  refine ⟨s.nextIrq, ?_⟩
  rw [result]
  cases found : getIrqInfo hint.irq s₁ with
  | none => exact absurd found known
  | some info =>
    obtain ⟨member, number⟩ := getIrqInfo_some found
    have own : info = s.nextIrq := by
      apply ((discovered.entries info).mp member).resolve_left
      intro old
      rw [discovered.old info old] at number
      exact getIrqInfo_eq_none.mp unknown info old number
    have unassigned : (s₁.irqs info).assignedObj = none := own ▸ discovered.blank.assigned
    dsimp only
    rw [forceRebalanceIrq_unassigned unassigned]
    split
    · exact discovered
    · exact ⟨discovered.fresh, discovered.entries, discovered.old, discovered.blank⟩

/-- The entry of a number, which may be a new one. -/
structure Identified (s : State) (irq : ℤ) (s₁ : State) (info : IrqRef) : Prop where
  located : Located s₁
  found : getIrqInfo irq s₁ = some info
  source : s₁ = s ∨ Discovered s irq s₁ info

/-- The entry of a line is marked. -/
def State.seen (s : State) (info : IrqRef) : State := s.setIrq info { s.irqs info with existing := true }

/-- The entry of a line is marked and counted. -/
def State.counted (s : State) (info : IrqRef) (count : ℕ) : State :=
  s.setIrq info { s.irqs info with existing := true, lastIrqCount := (s.irqs info).irqCount, irqCount := count }

theorem Located.counted (valid : Located s) (info : IrqRef) (count : ℕ) : Located (s.counted info count) := by
  have same : Retained s (s.counted info count) := retained_setIrq rfl rfl rfl fun _ => rfl
  exact same.located valid

/-- A line marks the entry of its number, and asks for a rescan where the columns are not one for each CPU
or the count has gone back. Otherwise it counts the entry and goes on. -/
theorem parseProcLines_step (src : IrqSources) (line : ProcLine) (rest : List ProcLine) (valid : Located s) :
    ∃ s₁ info, Identified s line.irq s₁ info ∧ s₁.cpuOnlineMap = s.cpuOnlineMap ∧
      parseProcLines K src (line :: rest) s =
        if line.counts.length ≠ cpusWeight s₁.cpuOnlineMap ∨ u64 line.counts.sum < (s₁.irqs info).irqCount then
          (s₁.seen info, true)
        else parseProcLines K src rest (s₁.counted info (u64 line.counts.sum)) := by
  obtain ⟨s₁, identifies, info, identified, online⟩ : ∃ s₁, (if (getIrqInfo line.irq s).isSome then s
      else procIrqHotplug K src { line.hint with irq := line.irq } s) = s₁ ∧ ∃ info, Identified s line.irq s₁ info ∧
        s₁.cpuOnlineMap = s.cpuOnlineMap := by
    cases found : getIrqInfo line.irq s with
    | some info => exact ⟨_, rfl, info, ⟨valid, found, .inl rfl⟩, rfl⟩
    | none =>
      have located : Located (procIrqHotplug K src { line.hint with irq := line.irq } s) :=
        (procIrqHotplug_synced found valid).located
      obtain ⟨i, discovered⟩ := procIrqHotplug_discovered (K := K) src { line.hint with irq := line.irq }
        (Int.natCast_nonneg _) found valid.toConsistent
      refine ⟨_, rfl, i, ⟨located, ?_, .inr discovered⟩, (hotplug_spec src line.irq line.hint found valid).2.tree.cpuOnlineMap⟩
      exact located.toConsistent.getIrqInfo_of_mem ((discovered.entries i).mpr (.inr rfl)) discovered.blank.irq
  have reads : parseProcLines K src (line :: rest) s =
      if line.counts.length ≠ cpusWeight s₁.cpuOnlineMap then (s₁.seen info, true)
      else if u64 line.counts.sum < ((s₁.seen info).irqs info).irqCount then (s₁.seen info, true)
      else parseProcLines K src rest ((s₁.seen info).setIrq info { (s₁.seen info).irqs info with
        lastIrqCount := ((s₁.seen info).irqs info).irqCount, irqCount := u64 line.counts.sum }) := by
    rw [parseProcLines]
    dsimp only
    rw [identifies, identified.found]
    rfl
  have marked : (s₁.seen info).irqs info = { s₁.irqs info with existing := true } := Function.update_self ..
  have stored : (s₁.seen info).setIrq info { (s₁.seen info).irqs info with
      lastIrqCount := ((s₁.seen info).irqs info).irqCount, irqCount := u64 line.counts.sum } =
        s₁.counted info (u64 line.counts.sum) := by
    rw [marked]
    simp [State.seen, State.counted, State.setIrq]
  rw [stored, marked] at reads
  refine ⟨s₁, info, identified, online, ?_⟩
  rw [reads]
  dsimp only
  by_cases columns : line.counts.length ≠ cpusWeight s₁.cpuOnlineMap
  · rw [if_pos columns, if_pos (.inl columns)]
  · simp only [columns, if_false, false_or]

/-- A line marks the entry of its number. Unless it then asks for a rescan, it counts it and goes on. -/
theorem parseProcLines_cons (src : IrqSources) (line : ProcLine) (rest : List ProcLine) (valid : Located s) :
    ∃ s₁ info, Identified s line.irq s₁ info ∧ (parseProcLines K src (line :: rest) s = (s₁.seen info, true) ∨
      ((s₁.irqs info).irqCount ≤ u64 line.counts.sum ∧ parseProcLines K src (line :: rest) s =
        parseProcLines K src rest (s₁.counted info (u64 line.counts.sum)))) := by
  obtain ⟨s₁, info, identified, _, reads⟩ := parseProcLines_step (K := K) src line rest valid
  refine ⟨s₁, info, identified, ?_⟩
  rw [reads]
  split
  · exact .inl rfl
  · rename_i continues
    exact .inr ⟨not_lt.mp (not_or.mp continues).2, rfl⟩

end Finding

section Counting

/-- No difference of the counters wraps. -/
def CountsOrdered (s : State) : Prop := ∀ i ∈ s.entries, (s.irqs i).lastIrqCount ≤ (s.irqs i).irqCount

/-- An entry is stored back with ordered counters. -/
theorem CountsOrdered.setIrq {entry : IrqInfo} (ordered : CountsOrdered s)
    (own : info ∈ s.entries → entry.lastIrqCount ≤ entry.irqCount) : CountsOrdered (s.setIrq info entry) :=
  forall_setIrq (P := fun i x => i ∈ s.entries → x.lastIrqCount ≤ x.irqCount) own fun i _ => ordered i

theorem Discovered.countsOrdered (discovered : Discovered s irq s' info) (ordered : CountsOrdered s) :
    CountsOrdered s' := by
  intro i member
  rcases (discovered.entries i).mp member with old | rfl
  · rw [discovered.old i old]
    exact ordered i old
  · obtain ⟨count, last, _⟩ := discovered.blank.unseen
    rw [count, last]

/-- Wherever the loop stops, the counters are ordered. -/
theorem parseProcLines_countsOrdered (src : IrqSources) (lines : List ProcLine) (valid : Located s)
    (ordered : CountsOrdered s) : CountsOrdered (parseProcLines K src lines s).1 := by
  induction lines generalizing s with
  | nil => exact ordered
  | cons line rest ih =>
    obtain ⟨s₁, info, identified, result⟩ := parseProcLines_cons (K := K) src line rest valid
    have ordered₁ : CountsOrdered s₁ := by
      rcases identified.source with rfl | discovered
      · exact ordered
      · exact discovered.countsOrdered ordered
    rcases result with raised | ⟨grown, continued⟩
    · rw [raised]
      exact ordered₁.setIrq (ordered₁ info)
    · rw [continued]
      exact ih (identified.located.counted _ _) (ordered₁.setIrq fun _ => grown)

theorem clearNoExistingIrqs_countsOrdered (valid : Located s) (ordered : CountsOrdered s) :
    CountsOrdered (clearNoExistingIrqs s) := by
  refine path_preserves (I := CountsOrdered) (fun a b ordered effect => ?_) ordered (clearNoExistingIrqs_path valid)
  cases effect with
  | marked => exact ordered.setIrq (ordered _)
  | removed _ removed =>
    intro i member
    rw [removed.irqs]
    rw [State.entries, removed.interruptsDb, removed.bannedIrqs] at member
    exact ordered i (List.mem_append.mpr ((List.mem_append.mp member).imp List.mem_of_mem_erase List.mem_of_mem_erase))

end Counting

section Reading

/-- The count of a number so far, and 0 for a new one. -/
def previousCount (irq : ℤ) (s : State) : ℕ := (getIrqInfo irq s).elim 0 fun i => (s.irqs i).irqCount

/-- The entry has been marked and counted for the line. -/
structure ReadFrom (s₀ s : State) (line : ProcLine) (i : IrqRef) : Prop where
  irq : (s.irqs i).irq = line.irq
  existing : (s.irqs i).existing = true
  irqCount : (s.irqs i).irqCount = u64 line.counts.sum
  lastIrqCount : (s.irqs i).lastIrqCount = previousCount line.irq s₀
  grown : previousCount line.irq s₀ ≤ u64 line.counts.sum

/-- The lines so far have been read. -/
structure Reading (s₀ : State) (lines : List ProcLine) (s : State) : Prop where
  located : Located s
  kept : ∀ i ∈ s₀.entries, i ∈ s.entries ∧ (s.irqs i).irq = (s₀.irqs i).irq
  entry : ∀ i ∈ s.entries, (∃ line ∈ lines, ReadFrom s₀ s line i) ∨ (i ∈ s₀.entries ∧ s.irqs i = s₀.irqs i)
  line : ∀ line ∈ lines, ∃ i ∈ s.entries, ReadFrom s₀ s line i

theorem Reading.refl (valid : Located s) : Reading s [] s :=
  ⟨valid, fun _ member => ⟨member, rfl⟩, fun _ member => .inr ⟨member, rfl⟩, fun _ none => absurd none List.not_mem_nil⟩

variable {lines : List ProcLine}

/-- The entry of a number that no line so far has named has its count from before. -/
theorem Reading.previous (reading : Reading s₀ lines s) (valid₀ : Located s₀)
    (fresh : ∀ line' ∈ lines, line'.irq ≠ line.irq) (identified : Identified s line.irq s₁ info) :
    (s₁.irqs info).irqCount = previousCount line.irq s₀ := by
  rcases identified.source with rfl | discovered
  · obtain ⟨member, number⟩ := getIrqInfo_some identified.found
    rcases reading.entry info member with ⟨line', read, from'⟩ | ⟨member₀, same⟩
    · exact absurd (Int.natCast_inj.mp (from'.irq.symm.trans number)) (fresh line' read)
    · rw [same] at number
      rw [previousCount, valid₀.toConsistent.getIrqInfo_of_mem member₀ number, same]
      rfl
  · have unknown : getIrqInfo line.irq s₀ = none := by
      apply getIrqInfo_eq_none.mpr
      intro i member number
      obtain ⟨member', same⟩ := reading.kept i member
      have known := discovered.old i member'
      have own : i = info := by
        refine identified.located.toConsistent.unique (getIrqInfo_some identified.found).1
          ((discovered.entries i).mpr (.inl member')) ?_
        rw [known, same, number, (getIrqInfo_some identified.found).2]
      exact discovered.fresh (own ▸ member')
    rw [previousCount, unknown, discovered.blank.unseen.1]
    rfl

theorem Identified.kept (identified : Identified s irq s₁ info) (member : i ∈ s.entries) :
    i ∈ s₁.entries ∧ s₁.irqs i = s.irqs i := by
  rcases identified.source with rfl | discovered
  · exact ⟨member, rfl⟩
  · exact ⟨(discovered.entries i).mpr (.inl member), discovered.old i member⟩

theorem Identified.old (identified : Identified s irq s₁ info) (member : i ∈ s₁.entries) (other : i ≠ info) :
    i ∈ s.entries := by
  rcases identified.source with rfl | discovered
  · exact member
  · exact ((discovered.entries i).mp member).resolve_right other

/-- The next line has been read. -/
theorem Reading.step (reading : Reading s₀ lines s) (valid₀ : Located s₀)
    (fresh : ∀ line' ∈ lines, line'.irq ≠ line.irq) (identified : Identified s line.irq s₁ info)
    (grown : (s₁.irqs info).irqCount ≤ u64 line.counts.sum) :
    Reading s₀ (lines ++ [line]) (s₁.counted info (u64 line.counts.sum)) := by
  obtain ⟨member, number⟩ := getIrqInfo_some identified.found
  have previous := reading.previous valid₀ fresh identified
  have own : ReadFrom s₀ (s₁.counted info (u64 line.counts.sum)) line info := by
    have stored : (s₁.counted info (u64 line.counts.sum)).irqs info = { s₁.irqs info with
        existing := true, lastIrqCount := (s₁.irqs info).irqCount, irqCount := u64 line.counts.sum } :=
      Function.update_self ..
    refine ⟨?_, ?_, ?_, ?_, previous ▸ grown⟩ <;> rw [stored]
    · exact number
    · exact previous
  have other {j : IrqRef} (different : j ≠ info) (member : j ∈ s.entries) :
      (s₁.counted info (u64 line.counts.sum)).irqs j = s.irqs j :=
    (Function.update_of_ne different _ _).trans (identified.kept member).2
  have read {j : IrqRef} {line' : ProcLine} (within : line' ∈ lines) (old : j ∈ s.entries)
      (from' : ReadFrom s₀ s line' j) : ReadFrom s₀ (s₁.counted info (u64 line.counts.sum)) line' j := by
    have different : j ≠ info := by
      rintro rfl
      rw [(identified.kept old).2, from'.irq] at number
      exact fresh line' within (Int.natCast_inj.mp number)
    obtain ⟨irq, existing, irqCount, lastIrqCount, grown⟩ := from'
    rw [← other different old] at irq existing irqCount lastIrqCount
    exact ⟨irq, existing, irqCount, lastIrqCount, grown⟩
  refine ⟨identified.located.counted _ _, fun j known => ?_, fun j known => ?_, fun line' within => ?_⟩
  · obtain ⟨still, same⟩ := reading.kept j known
    refine ⟨(identified.kept still).1, ?_⟩
    by_cases self : j = info
    · subst self
      rw [own.irq, ← number, (identified.kept still).2, same]
    · rw [other self still, same]
  · by_cases self : j = info
    · exact .inl ⟨line, List.mem_append_right _ (List.mem_singleton_self line), self ▸ own⟩
    · have old := identified.old known self
      rcases reading.entry j old with ⟨line', within, from'⟩ | ⟨known₀, same⟩
      · exact .inl ⟨line', List.mem_append_left _ within, read within old from'⟩
      · exact .inr ⟨known₀, (other self old).trans same⟩
  · rcases List.mem_append.mp within with before | last
    · obtain ⟨j, old, from'⟩ := reading.line line' before
      exact ⟨j, (identified.kept old).1, read before old from'⟩
    · obtain rfl := List.mem_singleton.mp last
      exact ⟨info, member, own⟩

/-- A loop that comes to the end has read each line. -/
theorem parseProcLines_reading {rest : List ProcLine} (reading : Reading s₀ lines s) (valid₀ : Located s₀)
    (distinct : ((lines ++ rest).map ProcLine.irq).Nodup) (ended : parseProcLines K src rest s = (s', false)) :
    Reading s₀ (lines ++ rest) s' := by
  induction rest generalizing lines s with
  | nil =>
    obtain rfl : s = s' := congrArg Prod.fst ended
    rwa [List.append_nil]
  | cons line rest ih =>
    obtain ⟨s₁, info, identified, result⟩ := parseProcLines_cons (K := K) src line rest reading.located
    have split : lines ++ line :: rest = lines ++ [line] ++ rest := by rw [List.append_assoc, List.singleton_append]
    rcases result with raised | ⟨grown, continued⟩
    · rw [raised] at ended
      exact Bool.noConfusion (congrArg Prod.snd ended : true = false)
    · have fresh : ∀ line' ∈ lines, line'.irq ≠ line.irq := by
        rw [List.map_append, List.map_cons] at distinct
        exact fun line' within same => (List.nodup_append.mp distinct).2.2 line'.irq (List.mem_map_of_mem within)
          line.irq List.mem_cons_self same
      rw [continued] at ended
      rw [split] at distinct ⊢
      exact ih (reading.step valid₀ fresh identified grown) distinct ended

end Reading

section Sweeping

/-- The listed entries without a mark are gone, and those with one have lost it. -/
structure Swept (s : State) (l : List IrqRef) (s' : State) : Prop where
  interruptsDb : ∀ i, i ∈ s'.interruptsDb ↔ i ∈ s.interruptsDb ∧ (i ∈ l → (s.irqs i).existing = true)
  bannedIrqs : ∀ i, i ∈ s'.bannedIrqs ↔ i ∈ s.bannedIrqs ∧ (i ∈ l → (s.irqs i).existing = true)
  listed : ∀ i ∈ s'.entries, i ∈ l → s'.irqs i = { s.irqs i with existing := false }
  rest : ∀ i ∉ l, s'.irqs i = s.irqs i

theorem Swept.old {l : List IrqRef} (swept : Swept s l s') (member : i ∈ s'.entries) : i ∈ s.entries :=
  List.mem_append.mpr ((List.mem_append.mp member).imp (fun managed => ((swept.interruptsDb i).mp managed).1)
    fun banned => ((swept.bannedIrqs i).mp banned).1)

/-- Walks over different entries make one walk. -/
theorem Swept.append {l l' : List IrqRef} (first : Swept s l s₁) (second : Swept s₁ l' s') (apart : l.Disjoint l') :
    Swept s (l ++ l') s' := by
  have same {i : IrqRef} (later : i ∈ l') : s₁.irqs i = s.irqs i := first.rest i fun earlier => apart earlier later
  have both (i : IrqRef) {l₀ l₁ l₂ : List IrqRef} (one : i ∈ l₁ ↔ i ∈ l₀ ∧ (i ∈ l → (s.irqs i).existing = true))
      (two : i ∈ l₂ ↔ i ∈ l₁ ∧ (i ∈ l' → (s₁.irqs i).existing = true)) :
      i ∈ l₂ ↔ i ∈ l₀ ∧ (i ∈ l ++ l' → (s.irqs i).existing = true) := by
    rw [two, one, and_assoc, List.mem_append, or_imp]
    apply and_congr_right
    intro _
    apply and_congr_right
    intro _
    apply forall_congr'
    intro later
    rw [same later]
  refine ⟨fun i => both i (first.interruptsDb i) (second.interruptsDb i),
    fun i => both i (first.bannedIrqs i) (second.bannedIrqs i), fun i left within => ?_, fun i outside => ?_⟩
  · rcases List.mem_append.mp within with earlier | later
    · rw [second.rest i fun later => apart earlier later]
      exact first.listed i (second.old left) earlier
    · rw [second.listed i left later, same later]
  · rw [List.mem_append, not_or] at outside
    rw [second.rest i outside.2, first.rest i outside.1]

/-- One entry is swept. -/
theorem removeNoExistingIrq_swept (valid : Consistent s) (member : info ∈ s.entries) :
    Swept s [info] (removeNoExistingIrq info s) := by
  obtain ⟨distinctDb, distinctBanned, _⟩ := List.nodup_append.mp valid.nodup_db
  rcases removeNoExistingIrq_spec valid member with ⟨existing, marked⟩ | ⟨vanished, removed⟩
  · rw [marked]
    have keeps (i : IrqRef) (l : List IrqRef) :
        i ∈ l ↔ i ∈ l ∧ (i ∈ [info] → (s.irqs i).existing = true) := by
      refine (and_iff_left fun own => ?_).symm
      rw [List.mem_singleton.mp own, existing]
    refine ⟨fun i => keeps i s.interruptsDb, fun i => keeps i s.bannedIrqs, fun i _ own => ?_, fun i other => ?_⟩
    · rw [List.mem_singleton.mp own]
      exact Function.update_self ..
    · exact Function.update_of_ne (fun own => other (List.mem_singleton.mpr own)) _ _
  · have drops (i : IrqRef) {l : List IrqRef} (distinct : l.Nodup) :
        i ∈ l.erase info ↔ i ∈ l ∧ (i ∈ [info] → (s.irqs i).existing = true) := by
      rw [distinct.mem_erase_iff, and_comm, List.mem_singleton]
      refine and_congr_right fun _ => ⟨fun other own => absurd own other, fun marked own => ?_⟩
      rw [own, vanished] at marked
      exact Bool.noConfusion (marked rfl)
    refine ⟨fun i => ?_, fun i => ?_, fun i left own => ?_, fun i _ => by rw [removed.irqs]⟩
    · rw [removed.interruptsDb]
      exact drops i distinctDb
    · rw [removed.bannedIrqs]
      exact drops i distinctBanned
    · rw [State.entries, removed.interruptsDb, removed.bannedIrqs, List.mem_append, distinctDb.mem_erase_iff,
        distinctBanned.mem_erase_iff] at left
      exact absurd (List.mem_singleton.mp own) (left.elim And.left And.left)

/-- A walk sweeps the entries one by one. -/
theorem removeAll_swept {l : List IrqRef} (valid : Located s) (distinct : l.Nodup) (members : ∀ i ∈ l, i ∈ s.entries) :
    Swept s l (forEach l removeNoExistingIrq s) := by
  induction l generalizing s with
  | nil => exact ⟨fun i => by simp, fun i => by simp, fun i _ none => absurd none List.not_mem_nil, fun i _ => rfl⟩
  | cons info rest ih =>
    obtain ⟨fresh, distinct⟩ := List.nodup_cons.mp distinct
    have member := members info List.mem_cons_self
    have first := removeNoExistingIrq_swept valid.toConsistent member
    have located := (removeNoExistingIrq_effect valid.toConsistent member).located valid
    have others := ih located distinct fun i within => removeNoExistingIrq_other valid.toConsistent member
      (fun same => fresh (same ▸ within)) (members i (List.mem_cons_of_mem info within))
    exact first.append others (List.singleton_disjoint.mpr fresh)

/-- `clear_no_existing_irqs` keeps what is marked and clears the marks. -/
theorem clearNoExistingIrqs_entries (valid : Located s) (i : IrqRef) :
    (i ∈ (clearNoExistingIrqs s).entries ↔ i ∈ s.entries ∧ (s.irqs i).existing = true) ∧
      (i ∈ (clearNoExistingIrqs s).entries → (clearNoExistingIrqs s).irqs i = { s.irqs i with existing := false }) := by
  have managed := removeAll_swept valid (List.nodup_append.mp valid.nodup_db).1 fun i =>
    List.mem_append_left s.bannedIrqs
  have path := removeAll_path valid (List.nodup_append.mp valid.nodup_db).1 fun i =>
    List.mem_append_left s.bannedIrqs
  unfold clearNoExistingIrqs
  dsimp only
  generalize forEach s.interruptsDb removeNoExistingIrq s = s₁ at managed path ⊢
  have valid₁ := Vanishing.path_located path valid
  have banned := removeAll_swept valid₁ (List.nodup_append.mp valid₁.nodup_db).2.1 fun i =>
    List.mem_append_right s₁.interruptsDb
  generalize forEach s₁.bannedIrqs removeNoExistingIrq s₁ = s₂ at banned ⊢
  have all : Swept s (s.interruptsDb ++ s₁.bannedIrqs) s₂ := by
    apply managed.append banned
    intro i earlier later
    exact (List.nodup_append.mp valid.nodup_db).2.2 i earlier i ((managed.bannedIrqs i).mp later).1 rfl
  have walked (left : i ∈ s₂.entries) : i ∈ s.interruptsDb ++ s₁.bannedIrqs :=
    List.mem_append.mpr ((List.mem_append.mp left).imp (fun kept => ((all.interruptsDb i).mp kept).1)
      fun kept => ((banned.bannedIrqs i).mp kept).1)
  refine ⟨⟨fun left => ⟨all.old left, ?_⟩, fun ⟨member, existing⟩ => ?_⟩, fun left => all.listed i left (walked left)⟩
  · rcases List.mem_append.mp left with kept | kept
    · exact ((all.interruptsDb i).mp kept).2 (walked left)
    · exact ((all.bannedIrqs i).mp kept).2 (walked left)
  · exact List.mem_append.mpr ((List.mem_append.mp member).imp
      (fun old => (all.interruptsDb i).mpr ⟨old, fun _ => existing⟩)
      fun old => (all.bannedIrqs i).mpr ⟨old, fun _ => existing⟩)

end Sweeping

section Synchronising

variable {file : InterruptsFile} {d : Daemon}

/-- The sum of the columns. -/
def IrqLine.sum (l : IrqLine) : ℕ := (l.columns.map Column.count).sum

/-- The sum that `count` holds: each column as `strtoull` returns it, added up in 64 bits. -/
def IrqLine.count (l : IrqLine) : ℕ := u64 (l.columns.map Column.value).sum

/-- The databases hold the interrupts of the file, each with its count, its count from before and no mark. -/
structure Synchronised (count : IrqLine → ℕ) (file : InterruptsFile) (s s' : State) : Prop where
  numbers : ∀ n : ℤ, (∃ i ∈ s'.entries, (s'.irqs i).irq = n) ↔ ∃ l ∈ file.lines, (l.irq : ℤ) = n
  irqCount : ∀ i ∈ s'.entries, ∀ l ∈ file.lines, (s'.irqs i).irq = l.irq → (s'.irqs i).irqCount = count l
  lastIrqCount : ∀ i ∈ s'.entries, (s'.irqs i).lastIrqCount = previousCount (s'.irqs i).irq s
  existing : ∀ i ∈ s'.entries, (s'.irqs i).existing = false
  ordered : CountsOrdered s'

/-- Marks are cleared and entries without one removed when each line has been read. -/
theorem Reading.synchronised (reading : Reading s (file.lines.map IrqLine.procLine) s')
    (unmarked : ∀ i ∈ s.entries, (s.irqs i).existing = false) :
    Synchronised IrqLine.count file s (clearNoExistingIrqs s') := by
  have swept := clearNoExistingIrqs_entries reading.located
  -- what is left has been read from a line
  have left {i : IrqRef} (member : i ∈ (clearNoExistingIrqs s').entries) :
      (clearNoExistingIrqs s').irqs i = { s'.irqs i with existing := false } ∧
        ∃ l ∈ file.lines, ReadFrom s s' l.procLine i := by
    obtain ⟨known, existing⟩ := (swept i).1.mp member
    refine ⟨(swept i).2 member, ?_⟩
    rcases reading.entry i known with ⟨line, within, from'⟩ | ⟨old, same⟩
    · obtain ⟨l, listed, rfl⟩ := List.mem_map.mp within
      exact ⟨l, listed, from'⟩
    · rw [same, unmarked i old] at existing
      exact Bool.noConfusion existing
  refine ⟨fun n => ⟨?_, ?_⟩, fun i member l within number => ?_, fun i member => ?_, fun i member => ?_, fun i member => ?_⟩
  · rintro ⟨i, member, rfl⟩
    obtain ⟨stored, l, within, from'⟩ := left member
    exact ⟨l, within, by rw [stored]; exact from'.irq.symm⟩
  · rintro ⟨l, within, rfl⟩
    obtain ⟨i, known, from'⟩ := reading.line l.procLine (List.mem_map_of_mem within)
    have member := (swept i).1.mpr ⟨known, from'.existing⟩
    exact ⟨i, member, by rw [(swept i).2 member]; exact from'.irq⟩
  · obtain ⟨stored, l', within', from'⟩ := left member
    have same : l' = l := by
      apply List.inj_on_of_nodup_map file.distinct within' within
      rw [stored] at number
      exact Int.natCast_inj.mp (from'.irq.symm.trans number)
    subst same
    rw [stored]
    exact from'.irqCount
  · obtain ⟨stored, l, _, from'⟩ := left member
    rw [stored]
    dsimp only
    rw [from'.irq]
    exact from'.lastIrqCount
  · rw [(left member).1]
  · obtain ⟨stored, l, _, from'⟩ := left member
    rw [stored]
    exact (from'.lastIrqCount.trans_le from'.grown).trans_eq from'.irqCount.symm

/-- `parse_proc_interrupts` asks for a rescan, or the databases hold what is in the file. In both cases
counters that were ordered are ordered. -/
theorem parseProcInterruptsText_synchronised (K : Env) (src : IrqSources) (file : InterruptsFile) (d : Daemon)
    (valid : Located d.state) (idle : d.settings.needRescan = false)
    (unmarked : ∀ i ∈ d.state.entries, (d.state.irqs i).existing = false) :
    let d' := parseProcInterruptsText K src file.text d
    (d'.settings.needRescan = true ∨ Synchronised IrqLine.count file d.state d'.state) ∧
      (CountsOrdered d.state → CountsOrdered d'.state) := by
  have start := located_globals valid
  have ordered (ordered : CountsOrdered d.state) := parseProcLines_countsOrdered (K := K) src
    (file.lines.map IrqLine.procLine) start (show CountsOrdered d.globals from ordered)
  have located := (parseProcLines_synced (K := K) src (file.lines.map IrqLine.procLine) start).located
  rw [parseProcInterruptsText_eq]
  unfold parseProcInterrupts
  dsimp only
  cases parsed : parseProcLines K src (file.lines.map IrqLine.procLine) d.globals with
  | mk s raised =>
    rw [parsed] at ordered located
    rw [idle]
    cases raised with
    | true => exact ⟨.inl rfl, ordered⟩
    | false =>
      have distinct : (([] ++ file.lines.map IrqLine.procLine).map ProcLine.irq).Nodup := by
        rw [List.nil_append, List.map_map]
        exact file.distinct
      have reading := parseProcLines_reading (.refl start) start distinct parsed
      rw [List.nil_append] at reading
      have done := Reading.synchronised reading unmarked
      exact ⟨.inr ⟨done.numbers, done.irqCount, done.lastIrqCount, done.existing, done.ordered⟩,
        fun before => clearNoExistingIrqs_countsOrdered located (ordered before)⟩

/-- Counts of two CPUs and the device that they are for. -/
def twoColumns (irq first second : ℕ) (int : irq < 2 ^ 31) : IrqLine where
  indent := "  ".toList
  irq := irq
  columns := [⟨[' '], first, by decide, by decide⟩, ⟨[' ', ' '], second, by decide, by decide⟩]
  description := "   PCI-MSI eth0".toList
  blank := by decide
  int := int
  separate := by decide
  nonNumeric := by decide
  line := by decide
  nul := by decide

/-- The lines of interrupts 24 and 25 and of the non-maskable ones. -/
def twoLines : InterruptsFile where
  header := "            CPU0       CPU1".toList
  lines := [twoColumns 24 5 3 (by decide), twoColumns 25 0 1 (by decide)]
  special := [⟨"NMI: 0 0".toList, by decide, by decide, by decide⟩]
  line := by decide
  distinct := by decide

/-- Two CPUs and entries for interrupts 24 and 7. -/
def twoEntries : Daemon where
  state := {
    irqs := fun i => { irq := if i = 0 then 24 else 7, irqCount := if i = 0 then 2 else 9, level := .core }
    nextIrq := 2, interruptsDb := [0, 1], rebalanceIrqList := [0, 1], cpuOnlineMap := BitVec.ofNat NR_CPUS 3 }
  settings := { sleepInterval := 10 }

/-- Interrupt 24 is counted, 25 added and 7 removed. -/
theorem parseProcInterruptsText_synchronised_two :
    let d' := parseProcInterruptsText {} {} twoLines.text twoEntries
    (d'.settings.needRescan = true ∨ Synchronised IrqLine.count twoLines twoEntries.state d'.state) ∧
      (CountsOrdered twoEntries.state → CountsOrdered d'.state) := by
  refine parseProcInterruptsText_synchronised {} {} twoLines twoEntries ?_ rfl (by decide)
  exact located_of_waiting (by decide) (by decide) rfl rfl (fun _ => rfl) (by decide)

/-- Counts that add up to `2 ^ 64`. -/
def wrapping : InterruptsFile where
  header := "            CPU0       CPU1".toList
  lines := [twoColumns 24 (2 ^ 64 - 1) 1 (by decide)]
  special := []
  line := by decide
  distinct := by decide

/-- Two CPUs and no entries. -/
def noEntries : Daemon where
  state := { cpuOnlineMap := BitVec.ofNat NR_CPUS 3 }
  settings := { sleepInterval := 10 }

/-- One CPU and an entry whose counters are not ordered. -/
def staleEntry : Daemon where
  state := {
    irqs := fun _ => { irq := 24, irqCount := 2, lastIrqCount := 7, level := .core }
    nextIrq := 1, interruptsDb := [0], rebalanceIrqList := [0], cpuOnlineMap := BitVec.ofNat NR_CPUS 1 }
  settings := { sleepInterval := 10 }

/-- The sum is 0 in 64 bits, and a file with more columns than CPUs leaves the counters as they are. -/
theorem parseProcInterruptsText_wraps :
    (Located noEntries.state ∧ ¬ ((parseProcInterruptsText {} {} wrapping.text noEntries).settings.needRescan = true ∨
      Synchronised IrqLine.sum wrapping noEntries.state (parseProcInterruptsText {} {} wrapping.text noEntries).state)) ∧
    (Located staleEntry.state ∧ (∀ i ∈ staleEntry.state.entries, (staleEntry.state.irqs i).existing = false) ∧
      ¬ CountsOrdered (parseProcInterruptsText {} {} twoLines.text staleEntry).state) := by
  refine ⟨⟨?_, ?_⟩, ?_, by decide, ?_⟩
  · exact located_of_waiting (by decide) (by decide) rfl rfl (fun _ => rfl) (by decide)
  · rintro (raised | synchronised)
    · revert raised
      decide +kernel
    · have read : 0 ∈ (parseProcInterruptsText {} {} wrapping.text noEntries).state.entries ∧
          ((parseProcInterruptsText {} {} wrapping.text noEntries).state.irqs 0).irq = 24 ∧
            ((parseProcInterruptsText {} {} wrapping.text noEntries).state.irqs 0).irqCount = 0 := by decide +kernel
      obtain ⟨member, number, count⟩ := read
      have sum := synchronised.irqCount 0 member _ List.mem_cons_self number
      rw [count] at sum
      revert sum
      decide +kernel
  · exact located_of_waiting (by decide) (by decide) rfl rfl (fun _ => rfl) (by decide)
  · unfold CountsOrdered
    decide +kernel

end Synchronising

end Irqbalance
