import Mathlib.Data.List.Nodup
import Mathlib.Logic.Relation

/-! # Walks over a list with a callback on a state

A callback-driven loop and its two proof rules. `forEach_preserves` carries an invariant.
`forEach_pending` also carries a precondition of each element that has not been visited yet:
visiting an element may consume its own precondition but must leave the others' intact.
A callback that can fail has a walk and a rule of its own.
What a state machine's steps preserve, its paths preserve, and a property of single steps can be
required of, or proved for, each step of a run.
-/

/-- Apply the callback to the elements from first to last. -/
def forEach {α σ : Type*} (list : List α) (cb : α → σ → σ) (s : σ) : σ :=
  list.foldl (fun s x => cb x s) s

section Rules

variable {α σ : Type*} {f : α → σ → σ} {I : σ → Prop} {R : α → σ → Prop}

@[simp] theorem forEach_nil (s : σ) : forEach [] f s = s := rfl

@[simp] theorem forEach_cons (x : α) (l : List α) (s : σ) :
    forEach (x :: l) f s = forEach l f (f x s) := rfl

/-- What every visit preserves, the walk preserves. -/
theorem forEach_preserves {l : List α} {s : σ} (initial : I s)
    (visit : ∀ x ∈ l, ∀ s, I s → I (f x s)) : I (forEach l f s) := by
  induction l generalizing s with
  | nil => exact initial
  | cons x rest ih =>
    exact ih (visit x List.mem_cons_self s initial)
      (fun y member => visit y (List.mem_cons_of_mem x member))

/-- A walk without repetitions visits each element while that element is still ready. -/
theorem forEach_pending {l : List α} {s : σ} (distinct : l.Nodup) (initial : I s)
    (ready : ∀ x ∈ l, R x s)
    (visit : ∀ x ∈ l, ∀ s, I s → R x s → I (f x s))
    (waits : ∀ x ∈ l, ∀ y ∈ l, y ≠ x → ∀ s, I s → R x s → R y s → R y (f x s)) :
    I (forEach l f s) := by
  induction l generalizing s with
  | nil => exact initial
  | cons x rest ih =>
    obtain ⟨fresh, distinct⟩ := List.nodup_cons.mp distinct
    have head := ready x List.mem_cons_self
    refine ih distinct (visit x List.mem_cons_self s initial head) ?_ ?_ ?_
    · intro y member
      have other : y ≠ x := fun same => fresh (same ▸ member)
      exact waits x List.mem_cons_self y (List.mem_cons_of_mem x member) other s initial head
        (ready y (List.mem_cons_of_mem x member))
    · intro y member
      exact visit y (List.mem_cons_of_mem x member)
    · intro y member z memberZ
      exact waits y (List.mem_cons_of_mem x member) z (List.mem_cons_of_mem x memberZ)

/-- What some visit establishes and later visits preserve holds at the end of the walk. -/
theorem forEach_establishes {Q : σ → Prop} {l : List α} {s : σ} {x : α} (member : x ∈ l)
    (initial : I s) (visit : ∀ y ∈ l, ∀ s, I s → I (f y s))
    (establish : ∀ s, I s → Q (f x s))
    (keep : ∀ y ∈ l, ∀ s, I s → Q s → Q (f y s)) : Q (forEach l f s) := by
  induction l generalizing s with
  | nil => contradiction
  | cons y rest ih =>
    have after := visit y List.mem_cons_self s initial
    rcases List.mem_cons.mp member with rfl | tail
    · have both : I (forEach rest f (f x s)) ∧ Q (forEach rest f (f x s)) :=
        forEach_preserves (I := fun s => I s ∧ Q s) ⟨after, establish s initial⟩
          (fun z zMember s valid => ⟨visit z (List.mem_cons_of_mem _ zMember) s valid.1,
            keep z (List.mem_cons_of_mem _ zMember) s valid.1 valid.2⟩)
      exact both.2
    · exact ih tail after (fun z zMember => visit z (List.mem_cons_of_mem y zMember))
        (fun z zMember => keep z (List.mem_cons_of_mem y zMember))

/-- What the visit of a ready element establishes and the later visits preserve holds at the end of a walk
without repetitions. -/
theorem forEach_pending_establishes {Q : σ → Prop} {l : List α} {s : σ} {x : α} (member : x ∈ l)
    (distinct : l.Nodup) (initial : I s) (ready : ∀ x ∈ l, R x s)
    (visit : ∀ x ∈ l, ∀ s, I s → R x s → I (f x s))
    (waits : ∀ x ∈ l, ∀ y ∈ l, y ≠ x → ∀ s, I s → R x s → R y s → R y (f x s))
    (establish : ∀ s, I s → R x s → Q (f x s))
    (keep : ∀ y ∈ l, ∀ s, I s → R y s → Q s → Q (f y s)) : Q (forEach l f s) := by
  induction l generalizing s with
  | nil => contradiction
  | cons y rest ih =>
    obtain ⟨fresh, once⟩ := List.nodup_cons.mp distinct
    have head := ready y List.mem_cons_self
    have after := visit y List.mem_cons_self s initial head
    have ready' : ∀ z ∈ rest, R z (f y s) := fun z zMember =>
      waits y List.mem_cons_self z (List.mem_cons_of_mem y zMember) (fun same => fresh (same ▸ zMember)) s initial head
        (ready z (List.mem_cons_of_mem y zMember))
    have waits' : ∀ z ∈ rest, ∀ z' ∈ rest, z' ≠ z → ∀ s, I s → R z s → R z' s → R z' (f z s) :=
      fun z zMember z' zMember' => waits z (List.mem_cons_of_mem y zMember) z' (List.mem_cons_of_mem y zMember')
    rcases List.mem_cons.mp member with rfl | tail
    · have both : I (forEach rest f (f x s)) ∧ Q (forEach rest f (f x s)) :=
        forEach_pending (I := fun s => I s ∧ Q s) once ⟨after, establish s initial head⟩ ready'
          (fun z zMember s valid here => ⟨visit z (List.mem_cons_of_mem _ zMember) s valid.1 here,
            keep z (List.mem_cons_of_mem _ zMember) s valid.1 here valid.2⟩)
          (fun z zMember z' zMember' other s valid => waits' z zMember z' zMember' other s valid.1)
      exact both.2
    · exact ih tail once after ready' (fun z zMember => visit z (List.mem_cons_of_mem y zMember)) waits'
        (fun z zMember => keep z (List.mem_cons_of_mem y zMember))

/-- What every step preserves, a path preserves. -/
theorem path_preserves {Step : σ → σ → Prop} {s s' : σ}
    (step : ∀ s s', I s → Step s s' → I s') (initial : I s)
    (path : Relation.ReflTransGen Step s s') : I s' := by
  induction path with
  | refl => exact initial
  | tail _ last ih => exact step _ _ ih last

end Rules

/-- Apply a callback that can fail to the elements from first to last, up to the first failure. -/
def tryForEach {α σ : Type*} (list : List α) (cb : α → σ → Option σ) (s : σ) : Option σ :=
  list.foldlM (fun s x => cb x s) s

section Failing

variable {α σ : Type*} {f : α → σ → Option σ}

@[simp] theorem tryForEach_cons (x : α) (l : List α) (s : σ) :
    tryForEach (x :: l) f s = (f x s).bind (tryForEach l f) := rfl

/-- Visits that succeed, preserve the invariant and establish something of their element that the visits
of all elements keep make a walk that succeeds and establishes it of each element. -/
theorem tryForEach_visits {I : σ → Prop} {Q : α → σ → Prop} {l : List α} {s : σ} (initial : I s)
    (visit : ∀ x ∈ l, ∀ s, I s → ∃ s', f x s = some s' ∧ I s' ∧ Q x s' ∧ ∀ y, Q y s → Q y s') :
    ∃ s', tryForEach l f s = some s' ∧ I s' ∧ (∀ x ∈ l, Q x s') ∧ ∀ y, Q y s → Q y s' := by
  induction l generalizing s with
  | nil => exact ⟨s, rfl, initial, fun x member => absurd member List.not_mem_nil, fun y held => held⟩
  | cons x rest ih =>
    obtain ⟨s₁, visited, valid, own, kept⟩ := visit x List.mem_cons_self s initial
    obtain ⟨s₂, walked, valid₂, others, kept₂⟩ := ih valid fun y member => visit y (List.mem_cons_of_mem x member)
    refine ⟨s₂, ?_, valid₂, fun y member => ?_, fun y held => kept₂ y (kept y held)⟩
    · rw [tryForEach_cons, visited]
      exact walked
    · rcases List.mem_cons.mp member with rfl | member
      · exact kept₂ y own
      · exact others y member

end Failing

/-- The predicate holds of each element together with the state in which it is met. -/
def EachStep {α σ : Type*} (step : σ → α → σ) (P : σ → α → Prop) : σ → List α → Prop
  | _, [] => True
  | s, x :: rest => P s x ∧ EachStep step P (step s x) rest

/-- Where each step meets the condition, the invariant yields the conclusion of each step. -/
theorem EachStep.of_invariant {α σ : Type*} {step : σ → α → σ} {I : σ → Prop}
    {Condition Conclusion : σ → α → Prop} {s : σ} {l : List α} (initial : I s)
    (preserve : ∀ s x, I s → Condition s x → I (step s x) ∧ Conclusion s x)
    (conditions : EachStep step Condition s l) : EachStep step Conclusion s l := by
  induction l generalizing s with
  | nil => trivial
  | cons x rest ih =>
    obtain ⟨inv, conclusion⟩ := preserve s x initial conditions.1
    exact ⟨conclusion, ih inv conditions.2⟩

/-- Conditions that the invariant makes equivalent hold of the same runs. -/
theorem EachStep.congr_of_invariant {α σ : Type*} {step : σ → α → σ} {I : σ → Prop}
    {P Q : σ → α → Prop} {s : σ} {l : List α} (initial : I s)
    (preserve : ∀ s x, I s → I (step s x)) (same : ∀ s x, I s → (P s x ↔ Q s x)) :
    EachStep step P s l ↔ EachStep step Q s l := by
  induction l generalizing s with
  | nil => exact Iff.rfl
  | cons x rest ih => exact and_congr (same s x initial) (ih (preserve s x initial))
