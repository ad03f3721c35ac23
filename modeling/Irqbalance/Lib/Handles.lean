import Mathlib.Data.List.Basic

/-! # Handles that are acquired, used and released

A sequence of calls on handles is played against the handles that are live. It fails where a handle is acquired twice,
or is used or released when it is not live.
-/

namespace Handles

variable {η : Type*} [DecidableEq η] {live : List η} {a b : List η} {h : η}

/-- A call on a handle. -/
inductive Call (η : Type*) where
  | acquire (h : η)
  | use (h : η)
  | release (h : η)
deriving DecidableEq, Repr

/-- The live handles after a call. -/
def step (live : List η) : Call η → Option (List η)
  | .acquire h => if h ∈ live then none else some (h :: live)
  | .use h => if h ∈ live then some live else none
  | .release h => if h ∈ live then some (live.erase h) else none

/-- The live handles after a sequence of calls. -/
def play (calls : List (Call η)) (live : List η) : Option (List η) := calls.foldlM step live

theorem play_append (calls later : List (Call η)) : play (calls ++ later) live = (play calls live).bind (play later) :=
  List.foldlM_append

/-- Calls that only use live handles. -/
theorem play_uses {calls : List (Call η)} (uses : ∀ c ∈ calls, ∃ h ∈ live, c = .use h) : play calls live = some live := by
  induction calls with
  | nil => rfl
  | cons c calls ih =>
    obtain ⟨⟨h, member, rfl⟩, later⟩ := List.forall_mem_cons.mp uses
    rw [play, List.foldlM_cons, step, if_pos member]
    exact ih later

end Handles
