import Irqbalance.Proofs.Powersave

/-! # The fallback after ENOSPC

`try_fallback_cpu` offers the interrupt to one CPU of its scope after another. Nothing but the
slots of full CPUs has changed until the kernel takes an offer, so a run of the retry loop is its
list of refused CPUs and, where it succeeds, the CPU at which it stops.
-/

namespace Irqbalance

open Relation (ReflTransGen)

variable {K : Env}

/-- The offers that the kernel refuses before it takes one, when `clock` is the time of the first
write. -/
def refusals (K : Env) : ℕ → ℕ → List ObjRef → List ObjRef
  | 0, _, _ => []
  | _, _, [] => []
  | attempts + 1, clock, c :: rest =>
    if (K.write clock).accepted then [] else c :: refusals K attempts (clock + 1) rest

/-- The write for a CPU is answered with `ENOSPC`, when `clock` is the time of the first write. -/
def FoundFull (K : Env) (clock : ℕ) (l : List ObjRef) (c : ObjRef) : Prop :=
  ∃ k, l[k]? = some c ∧ K.write (clock + k) = .writeError .ENOSPC

section Refusals

variable {attempts clock : ℕ} {offers rest l : List ObjRef} {c d : ObjRef}

theorem refusals_prefix : refusals K attempts clock offers <+: offers := by
  induction attempts generalizing clock offers with
  | zero => exact List.nil_prefix
  | succ attempts ih =>
    cases offers with
    | nil => exact List.nil_prefix
    | cons c rest =>
      rw [refusals]
      split
      · exact List.nil_prefix
      · exact List.cons_prefix_cons.mpr ⟨rfl, ih⟩

theorem refusals_length : (refusals K attempts clock offers).length ≤ attempts := by
  induction attempts generalizing clock offers with
  | zero => exact le_rfl
  | succ attempts ih =>
    cases offers with
    | nil => exact Nat.zero_le _
    | cons c rest =>
      rw [refusals]
      split
      · exact Nat.zero_le _
      · exact Nat.succ_le_succ ih

/-- The kernel refuses them all. -/
theorem refusals_refused {k : ℕ} (bound : k < (refusals K attempts clock offers).length) :
    (K.write (clock + k)).accepted = false := by
  induction attempts generalizing clock offers k with
  | zero => exact absurd bound (Nat.not_lt_zero k)
  | succ attempts ih =>
    cases offers with
    | nil => exact absurd bound (Nat.not_lt_zero k)
    | cons c rest =>
      rw [refusals] at bound
      split at bound
      · exact absurd bound (Nat.not_lt_zero k)
      · rename_i refused
        cases k with
        | zero => simpa using refused
        | succ k =>
          have later := ih (Nat.lt_of_succ_lt_succ bound)
          rwa [Nat.add_right_comm] at later

/-- The CPU that is taken comes right after the refused ones, and within the attempts. -/
theorem firstTaken_after (taken : firstTaken K attempts clock offers = some c) :
    (refusals K attempts clock offers ++ [c]) <+: offers ∧
      (refusals K attempts clock offers).length < attempts ∧
      (K.write (clock + (refusals K attempts clock offers).length)).accepted = true := by
  induction attempts generalizing clock offers with
  | zero => contradiction
  | succ attempts ih =>
    cases offers with
    | nil => contradiction
    | cons d rest =>
      rw [firstTaken] at taken
      rw [refusals]
      split at taken
      · rename_i accepted
        obtain rfl := Option.some.inj taken
        rw [if_pos accepted]
        exact ⟨List.cons_prefix_cons.mpr ⟨rfl, List.nil_prefix⟩, Nat.succ_pos _, accepted⟩
      · rename_i refused
        rw [if_neg refused]
        obtain ⟨front, bound, accepted⟩ := ih taken
        refine ⟨List.cons_prefix_cons.mpr ⟨rfl, front⟩, Nat.succ_lt_succ bound, ?_⟩
        rwa [List.length_cons, Nat.add_comm _ 1, ← Nat.add_assoc]

theorem foundFull_cons : FoundFull K clock (c :: l) d ↔
    (d = c ∧ K.write clock = .writeError .ENOSPC) ∨ FoundFull K (clock + 1) l d := by
  constructor
  · rintro ⟨k, found, full⟩
    cases k with
    | zero => exact .inl ⟨(Option.some.inj found).symm, full⟩
    | succ k => exact .inr ⟨k, found, by rwa [Nat.add_right_comm]⟩
  · rintro (⟨rfl, full⟩ | ⟨k, found, full⟩)
    · exact ⟨0, rfl, full⟩
    · exact ⟨k + 1, found, by rwa [Nat.add_right_comm] at full⟩

end Refusals

section Loop

variable {s s' : State} {info : IrqRef} {original scope c d : ObjRef} {tried : CpuMask} {l : List ObjRef}

/-- A run of the retry loop: some refusals, and the move to the CPU that is taken. -/
theorem fallbackLoop_eq (retrying : Retrying s s' original tried)
    (assigned : (s'.irqs info).assignedObj = some original) (attempts : ℕ) :
    fallbackLoop K info original scope attempts tried s' =
      let offers := disjointFrom s tried (ranking s original scope)
      let s'' := forEach (refusals K attempts s'.clock offers) (refused K info) s'
      match firstTaken K attempts s'.clock offers with
      | none => (false, s'')
      | some c => (true, adoptFallback info original c (setAssigned info c (wrote K info c s''))) := by
  induction attempts generalizing tried s' with
  | zero => rfl
  | succ attempts ih =>
    rw [fallbackLoop_succ assigned, retrying.search]
    dsimp only
    cases offers : disjointFrom s tried (ranking s original scope) with
    | nil => rfl
    | cons c rest =>
      obtain ⟨_, nonempty⟩ := retrying.next offers
      rw [List.head?_cons, firstTaken, refusals]
      cases accepted : (K.write s'.clock).accepted with
      | true => rfl
      | false =>
        have next := ih (retrying.refused (K := K) info nonempty) (by rw [refused_irqs]; exact assigned)
        rw [refused_clock, disjointFrom_tail offers nonempty] at next
        have same : (s'.objs c).mask = (s.objs c).mask := retrying.tree.mask c
        simp only [Bool.false_eq_true, if_false, same, forEach_cons]
        exact next

/-- The offers of `try_fallback_cpu`, none when the balance level forbids a fallback. -/
def offersOf (s : State) (info : IrqRef) (original : ObjRef) : List ObjRef :=
  let level := (s.irqs info).level
  if level = .core ∨ level = .none then [] else
  match searchScope s original level with
  | none => []
  | some scope => fallbackOffers s original scope

/-- The CPUs that `try_fallback_cpu` tries, when `clock` is the time of the first write. -/
def fallbackAttempts (K : Env) (s : State) (clock : ℕ) (info : IrqRef) (original : ObjRef) : List ObjRef :=
  refusals K MAX_FALLBACK_ATTEMPTS clock (offersOf s info original) ++
    (firstTaken K MAX_FALLBACK_ATTEMPTS clock (offersOf s info original)).toList

theorem tryFallbackCpu_eq (retrying : Retrying s s' original CPU_MASK_NONE) (irqs : s'.irqs = s.irqs)
    (assigned : (s.irqs info).assignedObj = some original) : tryFallbackCpu K info original s' =
      let offers := offersOf s info original
      let s'' := forEach (refusals K MAX_FALLBACK_ATTEMPTS s'.clock offers) (refused K info) s'
      match firstTaken K MAX_FALLBACK_ATTEMPTS s'.clock offers with
      | none => (false, s'')
      | some c => (true, adoptFallback info original c (setAssigned info c (wrote K info c s''))) := by
  simp only [tryFallbackCpu, offersOf, irqs, retrying.tree.searchScope]
  split
  · rfl
  · cases searchScope s original (s.irqs info).level with
    | none => rfl
    | some scope => exact fallbackLoop_eq retrying (by rw [irqs]; exact assigned) MAX_FALLBACK_ATTEMPTS

/-- The writes for the CPUs that are tried, when `clock` is the time of the first one. -/
def issued (K : Env) (irq : ℤ) (mask : ObjRef → CpuMask) : ℕ → List ObjRef → List AffinityWrite
  | _, [] => []
  | clock, c :: rest => (match K.write clock with
      | .openError _ => []
      | _ => [⟨irq, mask c⟩]) ++ issued K irq mask (clock + 1) rest

theorem issued_append {irq : ℤ} {mask : ObjRef → CpuMask} {clock : ℕ} (front back : List ObjRef) :
    issued K irq mask clock (front ++ back) =
      issued K irq mask clock front ++ issued K irq mask (clock + front.length) back := by
  induction front generalizing clock with
  | nil => rfl
  | cons c rest ih =>
    rw [List.cons_append, issued, issued, ih, List.append_assoc, List.length_cons, Nat.add_right_comm,
      Nat.add_assoc]

/-- The mark that a refusal leaves on its CPU. -/
def marked (full : Prop) [Decidable full] (obj : TopoObj) : TopoObj :=
  if full then { obj with slotsLeft := SLOTS_SATURATED } else obj

theorem wrote_eq : wrote K info c s = { s with
    clock := s.clock + 1
    writes := s.writes ++ issued K (s.irqs info).irq (appliedMask s) s.clock [c]
    affinity := if (K.write s.clock).accepted then
      Function.update s.affinity (s.irqs info).irq (appliedMask s c) else s.affinity } := by
  simp only [wrote, writeAffinity, issued]
  cases K.write s.clock <;> simp

theorem refused_eq (info : IrqRef) (c : ObjRef) (refusal : (K.write s.clock).accepted = false) : refused K info c s = { s with
    objs := Function.update s.objs c (marked (K.write s.clock = .writeError .ENOSPC) (s.objs c))
    clock := s.clock + 1
    writes := s.writes ++ issued K (s.irqs info).irq (appliedMask s) s.clock [c] } := by
  unfold refused
  rw [wrote_eq, refusal]
  simp only [Bool.false_eq_true, if_false, marked]
  split
  · rfl
  · simp only [Function.update_eq_self]

/-- What a list of refusals leaves behind: full CPUs have no slots left, and nothing else of the
daemon's state has changed. -/
structure Refused (K : Env) (info : IrqRef) (l : List ObjRef) (s s' : State) : Prop where
  state : s' = { s with
    objs := s'.objs
    clock := s.clock + l.length
    writes := s.writes ++ issued K (s.irqs info).irq (appliedMask s) s.clock l }
  full : ∀ c, FoundFull K s.clock l c → s'.objs c = { s.objs c with slotsLeft := SLOTS_SATURATED }
  kept : ∀ c, ¬ FoundFull K s.clock l c → s'.objs c = s.objs c

theorem forEach_refused (info : IrqRef) (refusing : ∀ k < l.length, (K.write (s.clock + k)).accepted = false) :
    Refused K info l s (forEach l (refused K info) s) := by
  induction l generalizing s with
  | nil =>
    refine ⟨?_, ?_, fun _ _ => rfl⟩
    · simp [issued]
    · rintro c ⟨k, found, _⟩
      contradiction
  | cons c rest ih =>
    have first := refused_eq info c (refusing 0 (Nat.succ_pos _))
    have later := ih (s := refused K info c s) fun k bound => by
      have next := refusing (k + 1) (Nat.succ_lt_succ bound)
      rw [refused_clock]
      rwa [Nat.add_right_comm]
    have masks : appliedMask (refused K info c s) = appliedMask s := by
      funext o
      have tree : SameTree s (refused K info c s) := sameTree_refused
      simp only [appliedMask, tree.mask, tree.cpuOnlineMap]
    obtain ⟨state, full, kept⟩ := later
    rw [forEach_cons]
    generalize forEach rest (refused K info) (refused K info c s) = s' at state full kept ⊢
    rw [masks, first] at state
    rw [refused_clock] at full kept
    have object (o : ObjRef) : (refused K info c s).objs o =
        if o = c then marked (K.write s.clock = .writeError .ENOSPC) (s.objs c) else s.objs o := by
      rw [first]
      exact Function.update_apply ..
    refine ⟨?_, fun o found => ?_, fun o absent => ?_⟩
    · have clock : s.clock + 1 + rest.length = s.clock + (c :: rest).length := by
        rw [List.length_cons, Nat.add_assoc, Nat.add_comm 1]
      have writes : issued K (s.irqs info).irq (appliedMask s) s.clock ([c] ++ rest) = _ :=
        issued_append [c] rest
      rw [List.length_singleton, List.singleton_append] at writes
      apply state.trans
      simp only [clock, writes, List.append_assoc]
    · by_cases later : FoundFull K (s.clock + 1) rest o
      · rw [full o later, object]
        split
        · rename_i same
          unfold marked
          split <;> rw [same]
        · rfl
      · obtain ⟨same, first⟩ := (foundFull_cons.mp found).resolve_right later
        rw [kept o later, object, if_pos same, marked, if_pos first, same]
    · rw [foundFull_cons, not_or] at absent
      rw [kept o absent.2, object]
      split
      · rename_i same
        rw [marked, if_neg fun first => absent.1 ⟨same, first⟩, same]
      · rfl

end Loop

/-- The first object of a type on the way up through the parents. -/
inductive Nearest (s : State) (type : ObjType) : Option ObjRef → ObjRef → Prop
  | here {o : ObjRef} (same : (s.objs o).objType = type) : Nearest s type (some o) o
  | above {o a : ObjRef} (other : (s.objs o).objType ≠ type) (next : Nearest s type (s.objs o).parent a) :
      Nearest s type (some o) a

/-- Where the fallback may look: the domain of the IRQ, or the nearest cache or package above its
CPU when that is its balance level. -/
inductive SearchScope (s : State) (original : ObjRef) : Level → ObjRef → Prop
  | domain {level : Level} (other : (s.objs original).objType ≠ .cpu) : SearchScope s original level original
  | cache {scope : ObjRef} (cpu : (s.objs original).objType = .cpu)
      (nearest : Nearest s .cache (s.objs original).parent scope) : SearchScope s original .cache scope
  | package {scope : ObjRef} (cpu : (s.objs original).objType = .cpu)
      (nearest : Nearest s .package (s.objs original).parent scope) : SearchScope s original .package scope

/-- Objects have children of the types that belong below theirs. -/
structure TypesNest (s : State) : Prop where
  child : ∀ o, ∀ c ∈ (s.objs o).children, (s.objs o).objType.nests (s.objs c).objType

theorem Guarded.typesNest {s : State} (guarded : Guarded s) : TypesNest s := ⟨guarded.nests⟩

/-- A CPU below the scope that could take the IRQ. -/
structure Candidate (s : State) (original scope c : ObjRef) : Prop where
  below : Relation.ReflTransGen (fun p o => o ∈ (s.objs p).children) scope c
  cpu : (s.objs c).objType = .cpu
  other : c ≠ original
  usable : cpusIntersects (s.objs c).mask s.unbannedCpus = true
  free : 0 < (s.objs c).slotsLeft

/-- No two CPUs share a bit of their masks. -/
def OwnMasks (s : State) : Prop :=
  ∀ c d, (s.objs c).objType = .cpu → (s.objs d).objType = .cpu → c ≠ d →
    cpusIntersects (s.objs c).mask (s.objs d).mask = false

/-- The next CPU to try. One is tried already when its mask overlaps that of an earlier one, which
is to say that it is an earlier one where CPUs have masks of their own. -/
structure NextTry (s : State) (original scope : ObjRef) (earlier : List ObjRef) (c : ObjRef) : Prop where
  candidate : Candidate s original scope c
  untried : ∀ a ∈ earlier, cpusIntersects (s.objs c).mask (s.objs a).mask = false
  most : ∀ d, Candidate s original scope d →
    (∀ a ∈ earlier, cpusIntersects (s.objs d).mask (s.objs a).mask = false) →
      (s.objs d).slotsLeft ≤ (s.objs c).slotsLeft
  mostUntried : OwnMasks s → ∀ d, Candidate s original scope d → d ∉ earlier →
    (s.objs d).slotsLeft ≤ (s.objs c).slotsLeft

section Offers

variable {s : State} {original scope c d : ObjRef} {tried : CpuMask} {l earlier later : List ObjRef}

theorem nearestAncestor_nearest {type : ObjType} {fuel : ℕ} {p : Option ObjRef}
    (found : nearestAncestor s type fuel p = some scope) : Nearest s type p scope := by
  induction fuel generalizing p with
  | zero => contradiction
  | succ fuel ih =>
    cases p with
    | none => contradiction
    | some o =>
      rw [nearestAncestor] at found
      split at found
      · rename_i same
        exact Option.some.inj found ▸ .here same
      · rename_i other
        exact .above other (ih found)

theorem searchScope_spec {level : Level} (searched : searchScope s original level = some scope) :
    SearchScope s original level scope := by
  unfold searchScope at searched
  split at searched
  · rename_i cpu
    cases level with
    | none => contradiction
    | package => exact .package cpu (nearestAncestor_nearest searched)
    | cache => exact .cache cpu (nearestAncestor_nearest searched)
    | core => contradiction
  · rename_i other
    exact Option.some.inj searched ▸ .domain other

theorem nests_rank {p c : ObjType} (nests : p.nests c) : c.toNat < p.toNat := by
  revert nests
  cases p <;> cases c <;> simp [ObjType.nests, ObjType.toNat]

/-- The recursion reaches every CPU of a tree whose types nest. -/
theorem mem_cpusUnder (nests : TypesNest s) {fuel : ℕ}
    (deep : (s.objs scope).objType.toNat < fuel) : c ∈ cpusUnder s fuel scope ↔
      Relation.ReflTransGen (fun p o => o ∈ (s.objs p).children) scope c ∧ (s.objs c).objType = .cpu := by
  induction fuel generalizing scope with
  | zero => exact absurd deep (Nat.not_lt_zero _)
  | succ fuel ih =>
    rw [cpusUnder]
    split
    · rename_i cpu
      rw [List.mem_singleton]
      constructor
      · rintro rfl
        exact ⟨.refl, cpu⟩
      · rintro ⟨path, _⟩
        rcases path.cases_head with same | ⟨o, child, _⟩
        · exact same.symm
        · have nested := nests.child scope o child
          rw [cpu] at nested
          exact nested.elim
    · rename_i other
      rw [List.mem_flatMap]
      have rank {o : ObjRef} (child : o ∈ (s.objs scope).children) : (s.objs o).objType.toNat < fuel :=
        Nat.lt_of_lt_of_le (nests_rank (nests.child scope o child)) (Nat.lt_succ_iff.mp deep)
      constructor
      · rintro ⟨o, child, member⟩
        obtain ⟨path, cpu⟩ := (ih (rank child)).mp member
        exact ⟨.head child path, cpu⟩
      · rintro ⟨path, cpu⟩
        rcases path.cases_head with rfl | ⟨o, child, path⟩
        · exact absurd cpu other
        · exact ⟨o, child, (ih (rank child)).mpr ⟨path, cpu⟩⟩

theorem isValidFallback_iff : isValidFallback s original CPU_MASK_NONE c = true ↔
    (s.objs c).objType = .cpu ∧ c ≠ original ∧
      cpusIntersects (s.objs c).mask s.unbannedCpus = true ∧ 0 < (s.objs c).slotsLeft := by
  have saturated : 0 < (s.objs c).slotsLeft ↔ SLOTS_SATURATED < (s.objs c).slotsLeft := Iff.rfl
  simp only [isValidFallback, cpusIntersects_zero, Bool.not_false, Bool.and_true, Bool.and_eq_true,
    Bool.not_eq_true', Bool.or_eq_false_iff, beq_eq_false_iff_ne, bne_eq_false_iff_eq,
    decide_eq_false_iff_not, not_le, saturated]
  tauto

theorem mem_ranking (nests : TypesNest s) :
    c ∈ ranking s original scope ↔ Candidate s original scope c := by
  have deep : (s.objs scope).objType.toNat < TREE_DEPTH := by
    cases (s.objs scope).objType <;> decide
  rw [ranking, List.mem_insertionSort, List.mem_filter, mem_cpusUnder nests deep, isValidFallback_iff]
  constructor
  · rintro ⟨⟨below, cpu⟩, _, other, usable, free⟩
    exact ⟨below, cpu, other, usable, free⟩
  · rintro ⟨below, cpu, other, usable, free⟩
    exact ⟨⟨below, cpu⟩, cpu, other, usable, free⟩

theorem ranking_nonempty (member : d ∈ ranking s original scope) :
    cpusIntersects (s.objs d).mask (s.objs d).mask = true := by
  rw [ranking, List.mem_insertionSort, List.mem_filter, isValidFallback_iff] at member
  exact cpusIntersects_self member.2.2.2.1

theorem ranking_sorted : (ranking s original scope).Pairwise (FirstMax.above (slotsKey s)) := by
  have : Std.Total (FirstMax.above (slotsKey s)) := ⟨fun a b => le_total (slotsKey s b) (slotsKey s a)⟩
  have : IsTrans ObjRef (FirstMax.above (slotsKey s)) := ⟨fun a b c ab bc => le_trans bc ab⟩
  exact List.pairwise_insertionSort _ _

/-- An offer overlaps no earlier one, and has the most slots of all that overlap none. -/
theorem disjointFrom_split (sorted : l.Pairwise (FirstMax.above (slotsKey s)))
    (nonempty : ∀ d ∈ l, cpusIntersects (s.objs d).mask (s.objs d).mask = true)
    (split : disjointFrom s tried l = earlier ++ c :: later) :
    cpusIntersects (s.objs c).mask tried = false ∧
      (∀ a ∈ earlier, cpusIntersects (s.objs c).mask (s.objs a).mask = false) ∧
      ∀ d ∈ l, cpusIntersects (s.objs d).mask tried = false →
        (∀ a ∈ earlier, cpusIntersects (s.objs d).mask (s.objs a).mask = false) →
          slotsKey s d ≤ slotsKey s c := by
  induction l generalizing tried earlier with
  | nil => simp [disjointFrom] at split
  | cons x rest ih =>
    obtain ⟨head, tail⟩ := List.pairwise_cons.mp sorted
    have inner := fun d member => nonempty d (List.mem_cons_of_mem x member)
    rw [disjointFrom] at split
    split at split
    · rename_i met
      obtain ⟨free, untried, most⟩ := ih tail inner split
      refine ⟨free, untried, fun d member unmet apart => ?_⟩
      rcases List.mem_cons.mp member with rfl | member
      · rw [met] at unmet
        contradiction
      · exact most d member unmet apart
    · rename_i unmet
      have unmet : cpusIntersects (s.objs x).mask tried = false := by simpa using unmet
      cases earlier with
      | nil =>
        obtain ⟨rfl, _⟩ := List.cons.inj split
        refine ⟨unmet, fun a none => absurd none List.not_mem_nil, fun d member _ _ => ?_⟩
        rcases List.mem_cons.mp member with rfl | member
        · exact le_rfl
        · exact head d member
      | cons e earlier =>
        obtain ⟨rfl, behind⟩ := List.cons.inj split
        obtain ⟨free, untried, most⟩ := ih tail inner behind
        rw [cpusIntersects_or, Bool.or_eq_false_iff] at free
        refine ⟨free.1, List.forall_mem_cons.mpr ⟨free.2, untried⟩, fun d member unmet apart => ?_⟩
        obtain ⟨apartX, apart⟩ := List.forall_mem_cons.mp apart
        rcases List.mem_cons.mp member with rfl | member
        · rw [nonempty d List.mem_cons_self] at apartX
          contradiction
        · exact most d member (by rw [cpusIntersects_or, unmet, apartX]; rfl) apart

/-- Every offer is the next try after the offers before it. -/
theorem fallbackOffers_next (nests : TypesNest s)
    (split : fallbackOffers s original scope = earlier ++ c :: later) :
    NextTry s original scope earlier c := by
  obtain ⟨_, untried, most⟩ := disjointFrom_split ranking_sorted (fun _ => ranking_nonempty) split
  have offered {a : ObjRef} (member : a ∈ earlier ++ c :: later) : Candidate s original scope a := by
    have ranked : a ∈ ranking s original scope := by
      rw [← split] at member
      exact disjointFrom_subset member
    exact (mem_ranking nests).mp ranked
  have bound (d : ObjRef) (candidate : Candidate s original scope d)
      (apart : ∀ a ∈ earlier, cpusIntersects (s.objs d).mask (s.objs a).mask = false) :
      (s.objs d).slotsLeft ≤ (s.objs c).slotsLeft :=
    most d ((mem_ranking nests).mpr candidate) cpusIntersects_zero apart
  refine ⟨offered (List.mem_append_right earlier List.mem_cons_self), untried, bound, ?_⟩
  intro own d candidate new
  refine bound d candidate fun a member => own d a candidate.cpu ?_ ?_
  · exact (offered (List.mem_append_left _ member)).cpu
  · rintro rfl
    exact new member

theorem disjointFrom_apart (member : c ∈ disjointFrom s tried l) :
    cpusIntersects (s.objs c).mask tried = false := by
  induction l generalizing tried with
  | nil => exact absurd member List.not_mem_nil
  | cons x rest ih =>
    rw [disjointFrom] at member
    split at member
    · exact ih member
    · rename_i unmet
      rcases List.mem_cons.mp member with rfl | later
      · simpa using unmet
      · have free := ih later
        rw [cpusIntersects_or, Bool.or_eq_false_iff] at free
        exact free.1

theorem disjointFrom_nodup (nonempty : ∀ d ∈ l, cpusIntersects (s.objs d).mask (s.objs d).mask = true) :
    (disjointFrom s tried l).Nodup := by
  induction l generalizing tried with
  | nil => exact List.nodup_nil
  | cons x rest ih =>
    have inner : (disjointFrom s tried rest).Nodup := ih fun d member => nonempty d (List.mem_cons_of_mem x member)
    rw [disjointFrom]
    split
    · exact inner
    · refine List.nodup_cons.mpr ⟨fun again => ?_, ih fun d member => nonempty d (List.mem_cons_of_mem x member)⟩
      have free := disjointFrom_apart again
      rw [cpusIntersects_or, Bool.or_eq_false_iff, nonempty x List.mem_cons_self] at free
      exact Bool.noConfusion free.2

theorem fallbackOffers_nodup : (fallbackOffers s original scope).Nodup :=
  disjointFrom_nodup fun _ => ranking_nonempty

end Offers

section Outcome

variable {s : State} {info : IrqRef} {original : ObjRef}

/-- The IRQ has left the old object for the new one and needs no further activation. -/
structure MovedTo (s : State) (info : IrqRef) (original c : ObjRef) (s' : State) : Prop where
  irqs : s'.irqs = Function.update s.irqs info { s.irqs info with moved := false, assignedObj := some c }
  lists : s'.irqList = Filing.move s.irqList (some original) (some c) info

/-- The CPUs of a list are tries that the policy allows, one after another. -/
def Permitted (s : State) (info : IrqRef) (original : ObjRef) (attempts : List ObjRef) : Prop :=
  ∀ earlier c later, attempts = earlier ++ c :: later →
    ∃ scope, SearchScope s original (s.irqs info).level scope ∧ NextTry s original scope earlier c

/-- How `try_fallback_cpu` proceeds: which CPUs it tries one after another, what it writes, and what
it leaves behind. -/
structure FallbackRun (K : Env) (s : State) (info : IrqRef) (original : ObjRef) (attempts : List ObjRef)
    (placed : Bool) (s' : State) : Prop where
  bounded : attempts.length ≤ MAX_FALLBACK_ATTEMPTS
  distinct : attempts.Nodup
  policy : Permitted s info original attempts
  clock : s'.clock = s.clock + attempts.length
  writes : s'.writes = s.writes ++ issued K (s.irqs info).irq (appliedMask s) s.clock attempts
  refused : ∀ k, k + 1 < attempts.length → (K.write (s.clock + k)).accepted = false
  taken : placed = true ↔ ∃ k < attempts.length, (K.write (s.clock + k)).accepted = true
  moved : placed = true → ∃ c, attempts.getLast? = some c ∧ MovedTo s info original c s'
  restored : placed = false → Refused K info attempts s s'

theorem Refused.irqList {l : List ObjRef} {s' : State} (refused : Refused K info l s s') :
    s'.irqList = s.irqList := by
  funext p
  cases p with
  | none =>
    rw [refused.state]
    rfl
  | some o =>
    change (s'.objs o).interrupts = (s.objs o).interrupts
    by_cases full : FoundFull K s.clock l o
    · rw [refused.full o full]
    · rw [refused.kept o full]

/-- What the end of a fallback does, right after the kernel took the mask. -/
theorem adoptFallback_spec {c : ObjRef} {s' : State} (same : s'.irqs = s.irqs) (lists : s'.irqList = s.irqList)
    (link : (s.irqList (some original)).find? (sameIrq s info) = some info) :
    MovedTo s info original c (adoptFallback info original c (setAssigned info c s')) ∧
      SameKernel s' (adoptFallback info original c (setAssigned info c s')) := by
  have number : sameIrq s' info = sameIrq s info := by
    funext other
    simp only [sameIrq, same]
  have moved : Migrated (some original) (some c) info s'
      (migrateIrqObj (some original) (some c) info (setAssigned info c s')) :=
    adoptFallback_found (by rw [lists, number]; exact link)
  have irqs := adoptFallback_irqs moved
  rw [same] at irqs
  refine ⟨⟨irqs, ?_⟩, ?_⟩
  · rw [← lists, ← moved.lists]
    unfold adoptFallback
    dsimp only
    split
    · rw [clearMoved, irqList_setIrq]
      exact irqList_setObj rfl
    · rw [clearMoved, irqList_setIrq]
  · apply moved.kernel.trans
    unfold adoptFallback
    dsimp only
    split
    · exact sameKernel_setObj.trans sameKernel_setIrq
    · exact sameKernel_setIrq

/-- A run that ends without success. -/
theorem fallbackRun_failed {l : List ObjRef} (bounded : l.length ≤ MAX_FALLBACK_ATTEMPTS) (distinct : l.Nodup)
    (permitted : Permitted s info original l)
    (refusing : ∀ k < l.length, (K.write (s.clock + k)).accepted = false) :
    FallbackRun K s info original l false (forEach l (refused K info) s) := by
  have left := forEach_refused info refusing
  refine ⟨bounded, distinct, permitted, ?_, ?_, fun k bound => refusing k (Nat.lt_of_succ_lt bound), ?_, ?_,
    fun _ => left⟩
  · rw [left.state]
  · rw [left.state]
  · apply iff_of_false Bool.false_ne_true
    rintro ⟨k, bound, accepted⟩
    rw [refusing k bound] at accepted
    contradiction
  · intro placed
    contradiction

/-- A run that ends on the CPU which the kernel takes. -/
theorem fallbackRun_taken {l : List ObjRef} {c : ObjRef} (bounded : l.length < MAX_FALLBACK_ATTEMPTS)
    (distinct : (l ++ [c]).Nodup) (permitted : Permitted s info original (l ++ [c]))
    (refusing : ∀ k < l.length, (K.write (s.clock + k)).accepted = false)
    (accepted : (K.write (s.clock + l.length)).accepted = true)
    (link : (s.irqList (some original)).find? (sameIrq s info) = some info) :
    FallbackRun K s info original (l ++ [c]) true (adoptFallback info original c
      (setAssigned info c (wrote K info c (forEach l (refused K info) s)))) := by
  have length : (l ++ [c]).length = l.length + 1 := List.length_append
  have left := forEach_refused info refusing
  generalize forEach l (refused K info) s = s₁ at left ⊢
  have irqs : s₁.irqs = s.irqs := by rw [left.state]
  have masks : appliedMask s₁ = appliedMask s := by
    funext o
    have online : s₁.cpuOnlineMap = s.cpuOnlineMap := by rw [left.state]
    have mask : (s₁.objs o).mask = (s.objs o).mask := by
      by_cases full : FoundFull K s.clock l o
      · rw [left.full o full]
      · rw [left.kept o full]
    rw [appliedMask, appliedMask, online, mask]
  have clock : s₁.clock = s.clock + l.length := by rw [left.state]
  have lists : (wrote K info c s₁).irqList = s.irqList := left.irqList
  obtain ⟨moved, kernel⟩ := adoptFallback_spec (c := c) (show (wrote K info c s₁).irqs = s.irqs from irqs) lists link
  refine ⟨length ▸ Nat.succ_le_of_lt bounded, distinct, permitted, ?_, ?_, ?_, ?_, fun _ => ⟨c, ?_, moved⟩, ?_⟩
  · rw [kernel.clock, wrote_eq, length]
    dsimp only
    rw [clock, Nat.add_assoc]
  · rw [kernel.writes, wrote_eq, issued_append]
    dsimp only
    rw [irqs, masks, clock, left.state, List.append_assoc]
  · intro k bound
    rw [length] at bound
    exact refusing k (Nat.lt_of_succ_lt_succ bound)
  · exact iff_of_true rfl ⟨l.length, length ▸ Nat.lt_succ_self _, accepted⟩
  · exact List.getLast?_concat
  · intro placed
    contradiction

theorem offersOf_permitted (nests : TypesNest s) {front : List ObjRef}
    (offered : front <+: offersOf s info original) : Permitted s info original front := by
  intro earlier c later split
  obtain ⟨rest, offers⟩ := offered
  unfold offersOf at offers
  dsimp only at offers
  have nonempty : front ++ rest ≠ [] := by simp [split]
  split at offers
  · exact absurd offers nonempty
  cases searched : searchScope s original (s.irqs info).level with
  | none =>
    rw [searched] at offers
    exact absurd offers nonempty
  | some scope =>
    rw [searched] at offers
    dsimp only at offers
    have order : fallbackOffers s original scope = earlier ++ c :: (later ++ rest) := by
      rw [← offers, split, List.append_assoc, List.cons_append]
    exact ⟨scope, searchScope_spec searched, fallbackOffers_next nests order⟩

theorem offersOf_nodup : (offersOf s info original).Nodup := by
  unfold offersOf
  dsimp only
  split
  · exact List.nodup_nil
  · split
    · exact List.nodup_nil
    · exact fallbackOffers_nodup

/-- `try_fallback_cpu` keeps to the policy, and a failure leaves only full CPUs marked. -/
theorem tryFallbackCpu_atomic (K : Env) (s : State) (info : IrqRef) (original : ObjRef)
    (nests : TypesNest s) (assigned : (s.irqs info).assignedObj = some original)
    (link : (s.irqList (some original)).find? (sameIrq s info) = some info) :
    FallbackRun K s info original (fallbackAttempts K s s.clock info original)
      (tryFallbackCpu K info original s).1 (tryFallbackCpu K info original s).2 := by
  have start : Retrying s s original CPU_MASK_NONE := ⟨.refl s, fun _ _ _ => rfl⟩
  have outcome := tryFallbackCpu_eq (K := K) start rfl assigned
  have refusing (k : ℕ) (bound : k < (refusals K MAX_FALLBACK_ATTEMPTS s.clock (offersOf s info original)).length) :
      (K.write (s.clock + k)).accepted = false := refusals_refused bound
  rw [fallbackAttempts]
  dsimp only at outcome
  cases taken : firstTaken K MAX_FALLBACK_ATTEMPTS s.clock (offersOf s info original) with
  | none =>
    rw [taken] at outcome
    rw [outcome, Option.toList_none, List.append_nil]
    exact fallbackRun_failed refusals_length (offersOf_nodup.sublist refusals_prefix.sublist)
      (offersOf_permitted nests refusals_prefix) refusing
  | some c =>
    rw [taken] at outcome
    rw [outcome, Option.toList_some]
    obtain ⟨offered, bounded, accepted⟩ := firstTaken_after taken
    exact fallbackRun_taken bounded (offersOf_nodup.sublist offered.sublist) (offersOf_permitted nests offered)
      refusing accepted link

/-- An interrupt that has just been placed on the cache domain of two CPUs. -/
def placedOnCache : State :=
  run fullKernel (boot (fun _ => CPU_MASK_NONE) [] []) [.rebuild sharedCache CPU_MASK_NONE legacyIrq,
    .calculatePlacement]

theorem placedOnCache_guarded : Guarded placedOnCache :=
  run_guarded _ (boot_located _ _ _) (boot_guarded _ _ _)

/-- Entry 0 is the interrupt and object 2 is the cache domain. -/
theorem tryFallbackCpu_atomic_cache : FallbackRun fullKernel placedOnCache 0 2
    (fallbackAttempts fullKernel placedOnCache placedOnCache.clock 0 2)
    (tryFallbackCpu fullKernel 0 2 placedOnCache).1 (tryFallbackCpu fullKernel 0 2 placedOnCache).2 := by
  have nests := placedOnCache_guarded.typesNest
  have assigned : (placedOnCache.irqs 0).assignedObj = some 2 := by decide +kernel
  have link : (placedOnCache.irqList (some 2)).find? (sameIrq placedOnCache 0) = some 0 := by decide +kernel
  exact tryFallbackCpu_atomic fullKernel placedOnCache 0 2 nests assigned link

end Outcome

end Irqbalance
