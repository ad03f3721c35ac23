import Irqbalance.Model.IrqList
import Irqbalance.Proofs.Unsigned

/-! # The selection of one interrupt

`move_candidate_irqs` compares what the receiver would have with what the donor keeps. A migration
ratio adds a part of the gap to the donor's side, so that a smaller ratio lets more pass, also moves
that turn the imbalance around.
-/

namespace Irqbalance

variable {K : Env} {info : IrqRef} {b : LoadBalanceInfo} {s : State} {ratio load : ℕ}

/-- The IRQ gets as far as the comparison. -/
structure Considered (s : State) (info : IrqRef) : Prop where
  balanced : (s.irqs info).level ≠ .none
  company : ∃ o, (s.irqs info).assignedObj = some o ∧ 1 < (s.objs o).interrupts.length
  busy : 1 < (s.irqs info).load

/-- The comparison; the ratio 0 adds nothing, as does a division by zero. -/
def Passes (ratio : ℕ) (b : LoadBalanceInfo) (load : ℕ) : Prop :=
  u64 (b.minLoad + load) < u64 (u64Sub b.adjustmentLoad b.minLoad / ratio + u64Sub b.adjustmentLoad load)

/-- The running loads after a selection. -/
def LoadBalanceInfo.give (b : LoadBalanceInfo) (load : ℕ) : LoadBalanceInfo :=
  { b with
    adjustmentLoad := u64Sub b.adjustmentLoad load
    minLoad := min (u64 (b.minLoad + load)) (u64Sub b.adjustmentLoad load) }

/-- The division that is skipped would give 0. -/
theorem deltaLoad_eq (gap ratio : ℕ) : (if ratio > 0 then gap / ratio else 0) = gap / ratio := by
  split
  · rfl
  · rename_i none
    rw [Nat.eq_zero_of_not_pos none, Nat.div_zero]

theorem moveCandidateIrqs_selected (considered : Considered s info)
    (passes : Passes K.migrateRatio b (s.irqs info).load) :
    moveCandidateIrqs K info (b, s) = (b.give (s.irqs info).load, forceRebalanceIrq info s) := by
  obtain ⟨o, assigned, company⟩ := considered.company
  have least (a c : ℕ) : (if a > c then c else a) = min a c := by
    rw [min_def]
    split <;> split <;> omega
  unfold moveCandidateIrqs LoadBalanceInfo.give
  simp only [assigned, if_neg considered.balanced, if_neg (not_le.mpr company), if_neg (not_le.mpr considered.busy),
    deltaLoad_eq, least]
  exact if_pos passes

theorem moveCandidateIrqs_kept (kept : ¬ (Considered s info ∧ Passes K.migrateRatio b (s.irqs info).load)) :
    moveCandidateIrqs K info (b, s) = (b, s) := by
  unfold moveCandidateIrqs
  dsimp only
  split
  · rfl
  · rename_i balanced
    split
    · rfl
    · rename_i o assigned
      split
      · rfl
      · rename_i company
        split
        · rfl
        · rename_i busy
          rw [deltaLoad_eq]
          exact if_neg fun passes => kept ⟨⟨balanced, ⟨o, assigned, not_le.mp company⟩, not_le.mp busy⟩, passes⟩

/-- The call changes what the donor is left with. -/
def Selects (K : Env) (info : IrqRef) (b : LoadBalanceInfo) (s : State) : Prop :=
  (moveCandidateIrqs K info (b, s)).1.adjustmentLoad ≠ b.adjustmentLoad

theorem selects_iff (donor : b.adjustmentLoad < 2 ^ 64) (load : (s.irqs info).load < 2 ^ 64) :
    Selects K info b s ↔ Considered s info ∧ Passes K.migrateRatio b (s.irqs info).load := by
  constructor
  · intro selects
    by_contra kept
    exact selects (by rw [moveCandidateIrqs_kept kept])
  · rintro ⟨considered, passes⟩
    have busy := considered.busy
    rw [Selects, moveCandidateIrqs_selected considered passes]
    change u64Sub b.adjustmentLoad (s.irqs info).load ≠ b.adjustmentLoad
    unfold u64Sub
    omega

/-- What `--migrateval` documents, for the selection in one state: it improves the imbalance, the ratio 0
selects the IRQ as well, and so does every larger ratio. -/
structure Hysteresis (K : Env) (info : IrqRef) (b : LoadBalanceInfo) (s : State) : Prop where
  improves : Selects K info b s →
    (b.adjustmentLoad : ℤ) - (s.irqs info).load > b.minLoad + (s.irqs info).load
  unaided : Selects K info b s → Selects { K with migrateRatio := 0 } info b s
  monotone : ∀ ratio ≥ K.migrateRatio, Selects K info b s → Selects { K with migrateRatio := ratio } info b s

/-- No sum and no difference of the comparison wraps. -/
structure InRange (ratio : ℕ) (b : LoadBalanceInfo) (load : ℕ) : Prop where
  least : b.minLoad ≤ b.adjustmentLoad
  covered : load ≤ b.adjustmentLoad
  receiver : b.minLoad + load < 2 ^ 64
  donor : (b.adjustmentLoad - b.minLoad) / ratio + (b.adjustmentLoad - load) < 2 ^ 64

instance : Decidable (InRange ratio b load) :=
  decidable_of_iff (b.minLoad ≤ b.adjustmentLoad ∧ load ≤ b.adjustmentLoad ∧ b.minLoad + load < 2 ^ 64 ∧
      (b.adjustmentLoad - b.minLoad) / ratio + (b.adjustmentLoad - load) < 2 ^ 64)
    ⟨fun ⟨least, covered, receiver, donor⟩ => ⟨least, covered, receiver, donor⟩,
      fun range => ⟨range.least, range.covered, range.receiver, range.donor⟩⟩

/-- A difference of two loads, which goes round `2 ^ 64` when the second is larger. -/
def around (a b : ℕ) : ℕ := if b ≤ a then a - b else a + 2 ^ 64 - b

/-- What the donor keeps and the part of the gap, added up without a bound. -/
def donorSide (ratio : ℕ) (b : LoadBalanceInfo) (load : ℕ) : ℕ :=
  around b.adjustmentLoad b.minLoad / ratio + around b.adjustmentLoad load

/-- The donor's side does not exceed the receiver's when each is taken down by `2 ^ 64` as often as it reaches it. -/
def Outweighed (ratio : ℕ) (b : LoadBalanceInfo) (load : ℕ) : Prop :=
  donorSide ratio b load + 2 ^ 64 * ((b.minLoad + load) / 2 ^ 64) ≤
    b.minLoad + load + 2 ^ 64 * (donorSide ratio b load / 2 ^ 64)

/-- The donor's side reaches `2 ^ 64`, but exceeds it by no more than the load that the receiver would have. -/
def ComesRound (ratio : ℕ) (b : LoadBalanceInfo) (load : ℕ) : Prop :=
  2 ^ 64 ≤ donorSide ratio b load ∧ donorSide ratio b load ≤ 2 ^ 64 + (b.minLoad + load)

/-- Twice the load lies below the gap, or not below the gap and its part together. Where something wraps, a move
that improves the imbalance is refused or no larger ratio refuses it, and another one is refused. -/
def Damped (ratio : ℕ) (b : LoadBalanceInfo) (load : ℕ) : Prop :=
  let gap := b.adjustmentLoad - b.minLoad
  if InRange ratio b load then 2 * load < gap ∨ gap + gap / ratio ≤ 2 * load
  else if b.minLoad + 2 * load < b.adjustmentLoad then
    ComesRound ratio b load ∨ ∀ larger ≥ ratio, ¬ ComesRound larger b load
  else Outweighed ratio b load

theorem u64Sub_around (a c : ℕ) : u64Sub a c = u64 (around a c) := by
  unfold u64Sub around u64
  split <;> omega

theorem around_of_le {a c : ℕ} (le : c ≤ a) : around a c = a - c := if_pos le

theorem around_lt {a c : ℕ} (small : a < 2 ^ 64) : around a c < 2 ^ 64 := by
  unfold around
  split <;> omega

theorem passes_iff (donor : b.adjustmentLoad < 2 ^ 64) :
    Passes ratio b load ↔ u64 (b.minLoad + load) < u64 (donorSide ratio b load) := by
  rw [Passes, u64Sub_around, u64Sub_around, u64_add_u64, u64_of_lt (around_lt donor), donorSide]

theorem not_passes_iff (donor : b.adjustmentLoad < 2 ^ 64) : ¬ Passes ratio b load ↔ Outweighed ratio b load := by
  rw [passes_iff donor, Outweighed, not_lt]
  generalize donorSide ratio b load = kept
  generalize b.minLoad + load = receives
  unfold u64
  omega

/-- The comparison in range. -/
theorem InRange.passes (range : InRange ratio b load) (donor : b.adjustmentLoad < 2 ^ 64) :
    Passes ratio b load ↔
      2 * load < b.adjustmentLoad - b.minLoad + (b.adjustmentLoad - b.minLoad) / ratio := by
  obtain ⟨least, covered, receiver, sum⟩ := range
  rw [Passes, u64Sub_of_le least donor, u64Sub_of_le covered donor, u64_of_lt receiver, u64_of_lt sum]
  generalize (b.adjustmentLoad - b.minLoad) / ratio = part
  omega

/-- A larger ratio adds less. -/
theorem InRange.mono (range : InRange ratio b load) {larger : ℕ} (positive : 1 ≤ ratio) (le : ratio ≤ larger) :
    InRange larger b load where
  least := range.least
  covered := range.covered
  receiver := range.receiver
  donor := (Nat.add_le_add_right (Nat.div_le_div_left le positive) _).trans_lt range.donor

theorem InRange.unaided (range : InRange ratio b load) : InRange 0 b load where
  least := range.least
  covered := range.covered
  receiver := range.receiver
  donor := by
    rw [Nat.div_zero, Nat.zero_add]
    exact (Nat.le_add_left _ _).trans_lt range.donor

/-- Where the move improves the imbalance, only the donor's side can wrap, and at most once. -/
theorem passes_of_improves (improves : b.minLoad + 2 * load < b.adjustmentLoad) (donor : b.adjustmentLoad < 2 ^ 64) :
    Passes ratio b load ↔ ¬ ComesRound ratio b load := by
  have part := Nat.div_le_self (around b.adjustmentLoad b.minLoad) ratio
  have gap : around b.adjustmentLoad b.minLoad < 2 ^ 64 := around_lt donor
  have keeps : around b.adjustmentLoad load = b.adjustmentLoad - load := around_of_le (by omega)
  rw [passes_iff donor, ComesRound, donorSide, keeps, u64_of_lt (by omega : b.minLoad + load < _)]
  generalize around b.adjustmentLoad b.minLoad / ratio = added at part
  unfold u64
  omega

theorem not_comesRound_zero (donor : b.adjustmentLoad < 2 ^ 64) : ¬ ComesRound 0 b load := by
  have keeps : around b.adjustmentLoad load < 2 ^ 64 := around_lt donor
  rintro ⟨reaches, _⟩
  rw [donorSide, Nat.div_zero, Nat.zero_add] at reaches
  exact absurd keeps (not_lt.mpr reaches)

/-- The documented behaviour of the comparison. -/
theorem damped_iff (positive : 1 ≤ ratio) (donor : b.adjustmentLoad < 2 ^ 64) :
    (Passes ratio b load → b.minLoad + 2 * load < b.adjustmentLoad ∧ Passes 0 b load ∧
      ∀ larger ≥ ratio, Passes larger b load) ↔ Damped ratio b load := by
  unfold Damped
  dsimp only
  split
  · rename_i range
    have least := range.least
    rw [range.passes donor, range.unaided.passes donor, Nat.div_zero]
    constructor
    · intro documented
      by_contra band
      rw [not_or, not_lt, not_le] at band
      have improves := (documented band.2).1
      omega
    · rintro (below | beyond) passes
      · refine ⟨by omega, by omega, fun larger le => ?_⟩
        rw [(range.mono positive le).passes donor]
        exact below.trans_le (Nat.le_add_right _ _)
      · omega
  split
  · rename_i improves
    constructor
    · intro documented
      rw [or_iff_not_imp_left, ← passes_of_improves improves donor]
      exact fun passes larger le => (passes_of_improves improves donor).mp ((documented passes).2.2 larger le)
    · rintro damped passes
      have never := damped.resolve_left ((passes_of_improves improves donor).mp passes)
      refine ⟨improves, (passes_of_improves improves donor).mpr (not_comesRound_zero donor), fun larger le => ?_⟩
      exact (passes_of_improves improves donor).mpr (never larger le)
  · rename_i worsens
    rw [← not_passes_iff donor]
    exact ⟨fun documented passes => worsens (documented passes).1, fun refused passes => absurd passes refused⟩

/-- A selection with a ratio is damped as documented exactly when twice the load stays out of the band that
the ratio adds above the gap. -/
theorem selection_damped (K : Env) (info : IrqRef) (b : LoadBalanceInfo) (s : State)
    (positive : 1 ≤ K.migrateRatio) (donor : b.adjustmentLoad < 2 ^ 64) (load : (s.irqs info).load < 2 ^ 64) :
    Hysteresis K info b s ↔ (Considered s info → Damped K.migrateRatio b (s.irqs info).load) := by
  have selects (ratio : ℕ) : Selects { K with migrateRatio := ratio } info b s ↔
      Considered s info ∧ Passes ratio b (s.irqs info).load := selects_iff donor load
  have own : Selects K info b s ↔ Considered s info ∧ Passes K.migrateRatio b (s.irqs info).load :=
    selects_iff donor load
  constructor
  · rintro ⟨improves, unaided, monotone⟩ considered
    apply (damped_iff positive donor).mp
    intro passes
    have selected := own.mpr ⟨considered, passes⟩
    have better := improves selected
    exact ⟨by omega, ((selects 0).mp (unaided selected)).2,
      fun larger le => ((selects larger).mp (monotone larger le selected)).2⟩
  · intro damped
    refine ⟨fun selected => ?_, fun selected => ?_, fun larger le selected => ?_⟩
    all_goals
      obtain ⟨considered, passes⟩ := own.mp selected
      obtain ⟨improves, unaided, monotone⟩ := (damped_iff positive donor).mpr (damped considered) passes
    · omega
    · exact (selects 0).mpr ⟨considered, unaided⟩
    · exact (selects larger).mpr ⟨considered, monotone larger le⟩

/-- An object with two interrupts, one of load 6. -/
def donorOfTen : State where
  objs _ := { load := 10, interrupts := [0, 1] }
  irqs i := { irq := i, level := .core, load := if i = 0 then 6 else 1, assignedObj := some 0 }

/-- With the ratio 2 the interrupt of load 6 leaves a donor of 10 for a receiver of 0. -/
theorem selection_reversed : ¬ Hysteresis { migrateRatio := 2 } 0 { adjustmentLoad := 10 } donorOfTen := by
  intro damped
  have selected : Selects { migrateRatio := 2 } 0 { adjustmentLoad := 10 } donorOfTen := by
    unfold Selects
    decide +kernel
  have improves := damped.improves selected
  revert improves
  decide +kernel

/-- The same donor under the ratio 6, whose band ends below 12. -/
theorem selection_damped_six : Hysteresis { migrateRatio := 6 } 0 { adjustmentLoad := 10 } donorOfTen ↔
    (Considered donorOfTen 0 → Damped 6 { adjustmentLoad := 10 } 6) :=
  selection_damped { migrateRatio := 6 } 0 { adjustmentLoad := 10 } donorOfTen (by decide) (by decide)
    (by decide +kernel)

end Irqbalance
