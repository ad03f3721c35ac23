import Irqbalance.Model.UiLoop
import Irqbalance.Proofs.Cursor

/-! # The sizes of what is read from a reply

The tokens of a text bound the lists that `parse_setup` and `parse_into_tree` make of it, and with them the
lists of the screens.
-/

namespace Irqbalance

open CText (tokens length_tokens_le length_le_of_mem_tokens)

section Setups

theorem parseIrqs_length {isBanned : Bool} {tokens rest : List (List Char)} {irqs : List UiIrq}
    (parsed : parseIrqs isBanned tokens = some (irqs, rest)) :
    rest <:+ tokens ∧ irqs.length + rest.length ≤ tokens.length := by
  fun_induction parseIrqs isBanned tokens generalizing irqs rest with
  | case1 =>
    cases parsed
    exact ⟨List.suffix_rfl, le_rfl⟩
  | case2 token isIrq vector tokenLoad load tokenDiff diff tokenClass irqClass later headed irq =>
    rename_i ih
    obtain ⟨⟨irqs', rest'⟩, parsed', same⟩ := Option.map_eq_some_iff.mp parsed
    cases same
    obtain ⟨suffix, fewer⟩ := ih parsed'
    have longer := List.suffix_append [token, vector, tokenLoad, load, tokenDiff, diff, tokenClass, irqClass] later
    refine ⟨suffix.trans longer, ?_⟩
    simp only [List.length_cons] at fewer ⊢
    omega
  | case3 | case4 => contradiction
  | case5 token later =>
    cases parsed
    exact ⟨List.suffix_rfl, (Nat.zero_add _).le⟩

theorem parseMask_length {mask : List Char} {cpu : ℕ} {cpus : List ℕ} (parsed : parseMask mask cpu = some cpus) :
    cpus.length ≤ 4 * mask.length := by
  fun_induction parseMask mask cpu generalizing cpus with
  | case1 =>
    cases parsed
    exact Nat.zero_le _
  | case2 _ _ ih =>
    have fewer := ih parsed
    rw [List.length_cons]
    omega
  | case3 => contradiction
  | case4 c rest cpu notComma map digits set =>
    rename_i ih
    obtain ⟨later, parsed', same⟩ := Option.map_eq_some_iff.mp parsed
    cases same
    have fewer := ih parsed'
    have four : set.length ≤ 4 := (List.length_filter_le _ _).trans (List.length_range).le
    rw [List.length_append, List.length_map, List.length_cons]
    omega

theorem parseSetup_length {text : List Char} {setup : Setup} (parsed : parseSetup text = some setup) :
    setup.bannedIrqs.length ≤ text.length ∧ setup.bannedCpus.length ≤ 4 * text.length := by
  unfold parseSetup at parsed
  split at parsed
  · rename_i token sleep rest cut
    split at parsed
    · contradiction
    split at parsed
    · rename_i irqs banned mask last read
      split at parsed
      · contradiction
      obtain ⟨cpus, read', same⟩ := Option.map_eq_some_iff.mp parsed
      cases same
      obtain ⟨suffix, fewer⟩ := parseIrqs_length read
      have masked : mask ∈ tokens text := by
        rw [cut]
        exact List.mem_cons_of_mem _ (List.mem_cons_of_mem _ (suffix.mem (by simp)))
      have count := length_tokens_le (s := text)
      rw [cut] at count
      have digits := parseMask_length read'
      have short := length_le_of_mem_tokens masked
      rw [List.length_reverse] at digits
      simp only [List.length_cons] at fewer count ⊢
      omega
    · contradiction
  · contradiction

end Setups

section Lines

/-- The lines of everything that has been read. -/
def Cursor.lines (cursor : Cursor) : ℕ :=
  linesAll cursor.tree + (cursor.path.map fun p => (CpuNode.mk p.1 p.2).lines).sum

theorem linesAll_append (first second : List CpuNode) : linesAll (first ++ second) = linesAll first + linesAll second := by
  induction first with
  | nil => exact (Nat.zero_add _).symm
  | cons t first ih =>
    rw [List.cons_append, linesAll, linesAll, ih]
    exact (Nat.add_assoc _ _ _).symm

theorem linesAll_singleton (t : CpuNode) : linesAll [t] = t.lines := rfl

theorem Cursor.lines_leave (cursor : Cursor) : cursor.leave.lines = cursor.lines := by
  obtain ⟨tree, path⟩ := cursor
  rcases path with _ | ⟨⟨d, cs⟩, _ | ⟨⟨d', cs'⟩, rest⟩⟩
  · rfl
  · rw [Cursor.leave, Cursor.lines, Cursor.lines, linesAll_append, linesAll_singleton]
    rfl
  · simp only [Cursor.leave, Cursor.lines, List.map_cons, List.sum_cons, CpuNode.lines, linesAll_append,
      linesAll_singleton]
    omega

theorem Cursor.lines_close (cursor : Cursor) : cursor.close.lines = cursor.lines := by
  have kept (n : ℕ) (cursor : Cursor) : (cursor.leaveAll n).lines = cursor.lines := by
    induction n generalizing cursor with
    | zero => rfl
    | succ n ih => exact (ih cursor.leave).trans cursor.lines_leave
  exact kept _ cursor

theorem Cursor.lines_climb {type : ℕ} {cursor climbed : Cursor} (climbs : cursor.climb type = some climbed) :
    climbed.lines = cursor.lines := by
  unfold Cursor.climb at climbs
  split at climbs
  · cases climbs
    exact cursor.lines_close
  split at climbs
  · contradiction
  · cases climbs
    split
    · exact cursor.lines_leave
    · rfl

theorem Cursor.lines_add (new : NodeData) (cursor : Cursor) :
    (cursor.add new).lines = cursor.lines + (1 + new.irqs.length) := by
  obtain ⟨tree, path⟩ := cursor
  unfold Cursor.add
  split
  · simp only [Cursor.lines, List.map_cons, List.sum_cons, CpuNode.lines, linesAll]
    omega
  split
  · simp only [Cursor.lines, linesAll_append, CpuNode.lines, linesAll]
    omega
  · rename_i same
    cases same
    simp only [Cursor.lines, List.map_cons, List.sum_cons, CpuNode.lines, linesAll_append, linesAll]
    omega

end Lines

section Trees

theorem parseRecord_length {tokens rest : List (List Char)} {new : NodeData}
    (parsed : parseRecord tokens = some (new, rest)) : 1 + new.irqs.length + rest.length ≤ tokens.length := by
  unfold parseRecord at parsed
  split at parsed
  · split at parsed
    · obtain ⟨⟨irqs, rest'⟩, read, same⟩ := Option.map_eq_some_iff.mp parsed
      cases same
      have fewer := (parseIrqs_length read).2
      simp only [List.length_cons]
      omega
    · contradiction
  · contradiction

theorem parseRecords_length {fuel : ℕ} {tokens : List (List Char)} {cursor last : Cursor}
    (parsed : parseRecords fuel tokens cursor = some last) : last.lines ≤ cursor.lines + tokens.length := by
  fun_induction parseRecords fuel tokens cursor with
  | case1 =>
    cases parsed
    exact le_rfl
  | case2 | case3 | case4 => contradiction
  | case5 cursor fuel tokens _ new rest record climbed climbs ih =>
    have fewer := parseRecord_length record
    have later := ih parsed
    rw [Cursor.lines_add, Cursor.lines_climb climbs] at later
    omega

mutual

theorem lines_assignCpuLists (t : CpuNode) : (assignCpuLists t).lines = t.lines := by
  cases t
  rw [assignCpuLists, CpuNode.lines, CpuNode.lines, lines_assignAll, List.length_map]

theorem lines_assignAll (l : List CpuNode) : linesAll (assignAll l) = linesAll l := by
  cases l with
  | nil => rfl
  | cons t l => rw [assignAll, linesAll, linesAll, lines_assignCpuLists, lines_assignAll]

end

/-- What is read from a text has no more lines than the text has characters. -/
theorem parseIntoTree_length {text : List Char} {tree : List CpuNode} (parsed : parseIntoTree text = some tree) :
    linesAll tree ≤ text.length := by
  obtain ⟨last, read, rfl⟩ := Option.map_eq_some_iff.mp parsed
  have fewer := parseRecords_length read
  rw [← last.lines_close] at fewer
  have closed : last.close.lines = linesAll last.close.tree := by
    rw [Cursor.lines, Cursor.close_path]
    rfl
  rw [lines_assignAll, ← closed]
  exact fewer.trans ((Nat.zero_add _).le.trans length_tokens_le)

mutual

theorem length_cpuBans (t : CpuNode) : t.cpuBans.length ≤ t.lines := by
  obtain ⟨data, children⟩ := t
  have below := length_cpuBansAll children
  rw [CpuNode.cpuBans, CpuNode.lines, List.length_append]
  split
  · rw [List.length_singleton]
    omega
  · rw [List.length_nil]
    omega

theorem length_cpuBansAll (l : List CpuNode) : (cpuBansAll l).length ≤ linesAll l := by
  cases l with
  | nil => exact le_rfl
  | cons t l =>
    have first := length_cpuBans t
    have others := length_cpuBansAll l
    rw [cpuBansAll, linesAll, List.length_append]
    omega

end

mutual

theorem length_copiedIrqs (t : CpuNode) : t.copiedIrqs.length ≤ t.lines := by
  obtain ⟨data, children⟩ := t
  have below := length_copiedIrqsAll children
  rw [CpuNode.copiedIrqs, CpuNode.lines, List.length_append]
  omega

theorem length_copiedIrqsAll (l : List CpuNode) : (copiedIrqsAll l).length ≤ linesAll l := by
  cases l with
  | nil => exact le_rfl
  | cons t l =>
    have first := length_copiedIrqs t
    have others := length_copiedIrqsAll l
    rw [copiedIrqsAll, linesAll, List.length_append]
    omega

end

end Trees

end Irqbalance
