import Irqbalance.Model.Connection

/-! # What a connection can do

Only whole messages of root are handled, and what the buffer held before is of no effect, whatever other users have
sent, unless a message breaks off within a keyword. The messages for which this fails are those of `Torn`.
-/

namespace Irqbalance

open CText (cString cString_eq_self)

variable {s : State} {c : Settings} {stale : Buffer} {arrived : Received} {connection : Connection}
  {m t u keyword word rest : List Char}

section Keywords

theorem cString_append (plain : '\x00' ∉ keyword) : cString (keyword ++ t) = keyword ++ cString t := by
  apply List.takeWhile_append_of_pos
  intro c member
  exact bne_iff_ne.mpr fun nul => plain (nul ▸ member)

theorem length_cString_le : (cString m).length ≤ m.length := (List.takeWhile_prefix _).length_le

theorem prefix_cString (plain : '\x00' ∉ keyword) : keyword <+: cString m ↔ keyword <+: m := by
  constructor
  · intro found
    exact found.trans (List.takeWhile_prefix _)
  · rintro ⟨t, rfl⟩
    rw [cString_append plain]
    exact List.prefix_append _ _

theorem hasPrefix_iff : hasPrefix m keyword = true ↔ keyword <+: m := List.isPrefixOf_iff_prefix

theorem hasPrefix_append : hasPrefix (keyword ++ t) (keyword ++ word) = hasPrefix t word := by
  rw [Bool.eq_iff_iff, hasPrefix_iff, hasPrefix_iff, List.prefix_append_right_inj]

/-- A keyword that ends behind the message begins with it. -/
theorem found_iff : keyword <+: m ++ rest ↔
    keyword <+: m ∨ (m.length < keyword.length ∧ m <+: keyword ∧ keyword <+: m ++ rest) := by
  constructor
  · intro found
    rcases Nat.lt_or_ge m.length keyword.length with short | long
    · exact .inr ⟨short, List.prefix_of_prefix_length_le (List.prefix_append m rest) found short.le, found⟩
    · exact .inl (List.prefix_of_prefix_length_le found (List.prefix_append m rest) long)
  · rintro (within | ⟨-, -, found⟩)
    · exact within.trans (List.prefix_append m rest)
    · exact found

/-- What is behind a message that does not break off within the keyword is of no effect. -/
theorem hasPrefix_whole (rest : List Char) (plain : '\x00' ∉ keyword) (whole : ¬ (m <+: keyword ∧ m ≠ keyword)) :
    hasPrefix (m ++ rest) keyword = hasPrefix (cString m) keyword := by
  rw [Bool.eq_iff_iff, hasPrefix_iff, hasPrefix_iff, prefix_cString plain, found_iff]
  refine or_iff_left ?_
  rintro ⟨short, begins, -⟩
  exact whole ⟨begins, fun same => short.ne (congrArg List.length same)⟩

end Keywords

section Arguments

theorem store_chars : (stale.store arrived).chars = arrived.data ++ stale.chars.drop arrived.data.length := rfl

/-- The argument behind a keyword is copied up to its end or a NUL. -/
theorem copyArgument_eq (data : arrived.data = keyword ++ t) :
    copyArgument (stale.store arrived) arrived.data.length keyword.length = .text (cString t) := by
  have length : keyword.length ≤ arrived.data.length := by
    rw [data, List.length_append]
    exact Nat.le_add_right _ _
  rw [copyArgument, if_neg (by omega), if_neg (by omega), store_chars, List.take_left, data, List.drop_left]

theorem copyArgument_noMemory {recvSize skip : ℕ} (short : recvSize + 1 < skip) :
    copyArgument stale recvSize skip = .noMemory := by
  rw [copyArgument, if_pos short]

theorem copyArgument_overrun {recvSize skip : ℕ} (one : recvSize + 1 = skip) :
    copyArgument stale recvSize skip = .overrun := by
  rw [copyArgument, if_neg (by omega), if_pos (by omega)]

end Arguments

section Settings

theorem handleSettings_none (sleep : hasPrefix m "settings sleep ".toList = false)
    (ban : hasPrefix m "settings ban irqs ".toList = false) (cpus : hasPrefix m "settings cpus ".toList = false) :
    handleSettings m c = c := by
  simp only [handleSettings, sleep, ban, cpus, Bool.false_eq_true, if_false]

theorem hasPrefix_short (short : m.length < keyword.length) : hasPrefix m keyword = false := by
  rw [← Bool.not_eq_true, hasPrefix_iff]
  intro found
  exact Nat.not_lt.mpr found.length_le short

/-- A keyword that is not found behind `"settings "`. -/
theorem hasPrefix_absent (plain : '\x00' ∉ word) (absent : ¬ hasPrefix (t ++ rest) word = true) :
    hasPrefix ("settings ".toList ++ cString t) ("settings ".toList ++ word) = false := by
  rw [hasPrefix_append, ← Bool.not_eq_true, hasPrefix_iff, prefix_cString plain]
  intro found
  exact absent (hasPrefix_iff.mpr (found.trans (List.prefix_append t rest)))

/-- A text that breaks off within a keyword with more than one character missing. -/
theorem length_add_one_lt (word : List Char) (begins : t <+: word ++ [' ']) (short : t.length < (word ++ [' ']).length) (whole : t ≠ word) :
    t.length + 1 < (word ++ [' ']).length := by
  rw [List.length_append] at *
  by_contra one
  have length : t.length = word.length := by
    simp only [List.length_singleton] at *
    omega
  exact whole ((List.prefix_of_prefix_length_le begins (List.prefix_append word [' ']) length.le).eq_of_length length)

theorem handleSettingsBuffer_eq (data : arrived.data = "settings ".toList ++ t)
    (whole : ¬ Torn arrived.data) : handleSettingsBuffer (stale.store arrived) arrived.data.length c =
      some (handleSettings ("settings ".toList ++ cString t) c) := by
  have length : arrived.data.length = 9 + t.length := by rw [data, List.length_append]; rfl
  have cut : ("settings ".toList ++ cString t).length ≤ 9 + t.length := by
    rw [List.length_append]
    exact Nat.add_le_add_left length_cString_le 9
  have argument : (stale.store arrived).chars.drop "settings ".length = t ++ stale.chars.drop arrived.data.length := by
    rw [store_chars, data, List.append_assoc]
    exact List.drop_left
  rw [handleSettingsBuffer, argument]
  generalize stale.chars.drop arrived.data.length = rest
  dsimp only
  by_cases sleep : hasPrefix (t ++ rest) "sleep ".toList = true
  · rw [if_pos sleep]
    rcases found_iff.mp (hasPrefix_iff.mp sleep) with ⟨v, rfl⟩ | ⟨short, begins, -⟩
    · have copied : copyArgument (stale.store arrived) arrived.data.length "settings sleep ".length = .text (cString v) :=
        copyArgument_eq data
      have found : hasPrefix ("settings ".toList ++ ("sleep ".toList ++ cString v)) "settings sleep ".toList = true := rfl
      have behind : ("settings ".toList ++ ("sleep ".toList ++ cString v)).drop "settings sleep ".length = cString v := rfl
      rw [copied, cString_append (by decide)]
      simp only [handleSettings, found, behind, if_true]
    · have other : t ≠ "sleep".toList := by
        rintro rfl
        exact whole (.inr (.inl data))
      have few : t.length + 1 < 6 := length_add_one_lt "sleep".toList begins short other
      have copied : copyArgument (stale.store arrived) arrived.data.length "settings sleep ".length = .noMemory :=
        copyArgument_noMemory (Nat.lt_of_lt_of_eq (by omega : arrived.data.length + 1 < 15) rfl)
      have missing {keyword : List Char} (long : 14 ≤ keyword.length) :
          hasPrefix ("settings ".toList ++ cString t) keyword = false := hasPrefix_short (by omega)
      rw [copied, handleSettings_none (missing (by decide)) (missing (by decide)) (missing (by decide))]
  · rw [if_neg sleep]
    have sleep : hasPrefix ("settings ".toList ++ cString t) "settings sleep ".toList = false :=
      hasPrefix_absent (by decide) sleep
    by_cases ban : hasPrefix (t ++ rest) "ban irqs ".toList = true
    · rw [if_pos ban]
      rcases found_iff.mp (hasPrefix_iff.mp ban) with ⟨v, rfl⟩ | ⟨short, begins, -⟩
      · have copied : copyArgument (stale.store arrived) arrived.data.length "settings ban irqs ".length =
            .text (cString v) := copyArgument_eq data
        have found : hasPrefix ("settings ".toList ++ ("ban irqs ".toList ++ cString v)) "settings ban irqs ".toList =
            true := rfl
        have behind : ("settings ".toList ++ ("ban irqs ".toList ++ cString v)).drop "settings ban irqs ".length =
            cString v := rfl
        rw [cString_append (by decide)] at sleep ⊢
        rw [copied]
        simp only [handleSettings, sleep, found, behind, if_true, Bool.false_eq_true, if_false]
        split <;> rfl
      · have other : t ≠ "ban irqs".toList := by
          rintro rfl
          exact whole (.inr (.inr data))
        have few : t.length + 1 < 9 := length_add_one_lt "ban irqs".toList begins short other
        have copied : copyArgument (stale.store arrived) arrived.data.length "settings ban irqs ".length = .noMemory :=
          copyArgument_noMemory (Nat.lt_of_lt_of_eq (by omega : arrived.data.length + 1 < 18) rfl)
        have missing : hasPrefix ("settings ".toList ++ cString t) "settings ban irqs ".toList = false :=
          hasPrefix_short (Nat.lt_of_lt_of_eq (by omega : ("settings ".toList ++ cString t).length < 18) rfl)
        have cpus : ¬ hasPrefix (t ++ []) "cpus ".toList = true := by
          rw [List.append_nil, hasPrefix_iff]
          intro found
          exact absurd (found.trans begins) (by decide)
        rw [copied, handleSettings_none sleep missing (hasPrefix_absent (by decide) cpus)]
    · rw [if_neg ban]
      have ban : hasPrefix ("settings ".toList ++ cString t) "settings ban irqs ".toList = false :=
        hasPrefix_absent (by decide) ban
      by_cases cpus : hasPrefix (t ++ rest) "cpus ".toList = true
      · rw [if_pos cpus]
        rcases found_iff.mp (hasPrefix_iff.mp cpus) with ⟨v, rfl⟩ | ⟨short, begins, -⟩
        · have copied : copyArgument (stale.store arrived) arrived.data.length "settings cpus ".length =
              .text (cString v) := copyArgument_eq data
          have found : hasPrefix ("settings ".toList ++ ("cpus ".toList ++ cString v)) "settings cpus ".toList = true := rfl
          have behind : ("settings ".toList ++ ("cpus ".toList ++ cString v)).drop "settings cpus ".length = cString v :=
            rfl
          rw [cString_append (by decide)] at sleep ban ⊢
          rw [copied]
          simp only [handleSettings, sleep, ban, found, behind, if_true, Bool.false_eq_true, if_false]
        · refine absurd (.inl ⟨"settings cpus ".toList, by decide, ?_, ?_⟩) whole
          · rw [data]
            exact (List.prefix_append_right_inj "settings ".toList).mpr begins
          · intro same
            rw [data] at same
            have all : t = "cpus ".toList := List.append_cancel_left (show "settings ".toList ++ t = "settings ".toList ++ "cpus ".toList from same)
            exact short.ne (congrArg List.length all)
      · rw [if_neg cpus, handleSettings_none sleep ban (hasPrefix_absent (by decide) cpus)]

end Settings

section Calls

variable {calls : List SockCall}

/-- A keyword that a message which is not torn does not break off in. -/
theorem whole_of_not_torn (whole : ¬ Torn m) :
    ∀ keyword ∈ ["stats".toList, "settings ".toList, "setup".toList], ¬ (m <+: keyword ∧ m ≠ keyword) := by
  intro keyword listed
  rintro ⟨begins, other⟩
  simp only [List.mem_cons, List.not_mem_nil, or_false] at listed
  rcases listed with rfl | rfl | rfl
  · exact whole (.inl ⟨_, List.mem_cons_self, begins, other⟩)
  · refine whole (.inl ⟨"settings cpus ".toList, by decide, begins.trans ⟨"cpus ".toList, rfl⟩, ?_⟩)
    rintro rfl
    exact absurd begins (by decide)
  · exact whole (.inl ⟨_, by decide, begins, other⟩)

/-- A whole message of root is handled, and nothing else is done. -/
theorem sockHandleConnection_eq (whole : ∀ m ∈ connection.granted, ¬ Torn m) :
    sockHandleConnection s stale connection c =
      some ((connection.granted.map fun m => sockHandle s (cString m) c).getD (c, [])) := by
  cases connection with
  | received arrived control =>
    rw [sockHandleConnection]
    dsimp only
    by_cases denied : arrived.data.length = BUFF_SIZE ∨ control.validUser = false
    · rw [if_pos denied, Connection.granted, if_pos denied, Option.map_none, Option.getD_none]
    · have given : (Connection.received arrived control).granted = some arrived.data := by
        rw [Connection.granted, if_neg denied]
      have whole := whole _ given
      have keywords := whole_of_not_torn whole
      have stats := hasPrefix_whole (stale.chars.drop arrived.data.length) (by decide)
        (keywords "stats".toList (by decide))
      have settings := hasPrefix_whole (stale.chars.drop arrived.data.length) (by decide)
        (keywords "settings ".toList (by decide))
      have setup := hasPrefix_whole (stale.chars.drop arrived.data.length) (by decide)
        (keywords "setup".toList (by decide))
      rw [if_neg denied, given, Option.map_some, Option.getD_some, sockHandle, store_chars, stats, settings, setup]
      split
      · rename_i found
        obtain ⟨t, data⟩ := (prefix_cString (by decide)).mp (hasPrefix_iff.mp found)
        rw [handleSettingsBuffer_eq data.symm whole, ← data, cString_append (by decide)]
        rfl
      · rfl
  | _ => rfl

/-- In any order of calls only the whole messages of root count. -/
theorem serve_granted (whole : ∀ call ∈ calls, ∀ m ∈ call.connection.granted, ¬ Torn m) (c : Settings) :
    serve calls c = some (handleMessages (granted calls) c) := by
  induction calls generalizing c with
  | nil => rfl
  | cons call calls ih =>
    obtain ⟨first, later⟩ := List.forall_mem_cons.mp whole
    rw [serve, sockHandleConnection_eq first]
    cases given : call.connection.granted with
    | none =>
      have dropped : granted (call :: calls) = granted calls := by
        rw [granted, List.filterMap_cons, given]
        rfl
      rw [dropped]
      simp only [Option.map_none, Option.getD_none, Option.bind_eq_bind, Option.bind_some, ih later, List.nil_append]
    | some m =>
      have kept : granted (call :: calls) = (call.state, cString m) :: granted calls := by
        rw [granted, List.filterMap_cons, given]
        rfl
      rw [kept, handleMessages]
      simp only [Option.map_some, Option.getD_some, Option.bind_eq_bind, Option.bind_some, ih later]

/-- A user asks for a short interval, an `accept` fails, and root asks for five seconds. -/
def mixedVisits (stale : Buffer) : List SockCall :=
  [⟨{}, stale, .received ⟨"settings sleep 1".toList, by decide⟩ (.credentials 1000)⟩, ⟨{}, stale, .refused⟩,
    ⟨{}, stale, .received ⟨"settings sleep 5".toList, by decide⟩ (.credentials 0)⟩]

theorem serve_granted_mixed : serve (mixedVisits ⟨List.replicate BUFF_SIZE 's', List.length_replicate⟩)
    { sleepInterval := 10 } = some ({ sleepInterval := 5 }, []) := by
  have whole : ∀ call ∈ mixedVisits ⟨List.replicate BUFF_SIZE 's', List.length_replicate⟩,
      ∀ m ∈ call.connection.granted, ¬ Torn m := by
    intro call listed m given
    simp only [mixedVisits, List.mem_cons, List.not_mem_nil, or_false] at listed
    rcases listed with rfl | rfl | rfl
    · cases (given : none = some m)
    · cases (given : none = some m)
    · obtain rfl := Option.some.inj (given : some "settings sleep 5".toList = some m)
      rw [Torn]
      decide
  rw [serve_granted whole]
  decide

end Calls

section Torn

variable {fits : keyword.length ≤ BUFF_SIZE}

/-- A buffer that starts with the keyword. -/
def filled (keyword : List Char) (fits : keyword.length ≤ BUFF_SIZE) : Buffer where
  chars := keyword ++ List.replicate (BUFF_SIZE - keyword.length) '\x00'
  size := by rw [List.length_append, List.length_replicate, Nat.add_sub_cancel' fits]

/-- A message that breaks off within the keyword leaves it in the buffer. -/
theorem store_filled (begins : arrived.data <+: keyword) :
    ((filled keyword fits).store arrived).chars = (filled keyword fits).chars := by
  obtain ⟨w, rfl⟩ := begins
  rw [store_chars, filled]
  dsimp only
  rw [List.append_assoc, List.drop_left]

/-- What root gets when the rest of the buffer completes the message. -/
theorem sockHandleConnection_filled (begins : arrived.data <+: keyword) (short : arrived.data.length < BUFF_SIZE) :
    sockHandleConnection s (filled keyword fits) (.received arrived (.credentials 0)) c =
      (if hasPrefix (filled keyword fits).chars "settings ".toList then
        handleSettingsBuffer ((filled keyword fits).store arrived) arrived.data.length c else some c).map fun c =>
        (c, (if hasPrefix (filled keyword fits).chars "stats".toList then [stats s] else []) ++
          if hasPrefix (filled keyword fits).chars "setup".toList then [(setup c s.bannedCpus).1] else []) := by
  have granted : ¬ (arrived.data.length = BUFF_SIZE ∨ (Control.credentials 0).validUser = false) := by
    rw [not_or]
    exact ⟨short.ne, by decide⟩
  rw [sockHandleConnection]
  dsimp only
  rw [if_neg granted, store_filled begins]
  generalize hasPrefix (filled keyword fits).chars "stats".toList = stats
  generalize hasPrefix (filled keyword fits).chars "setup".toList = setup
  generalize handleSettingsBuffer ((filled keyword fits).store arrived) arrived.data.length c = handled
  cases setup <;> split <;> cases handled <;> simp

/-- The message is answered as if the buffer had been cleared. -/
def Independent (arrived : Received) : Prop :=
  ∀ s stale c, sockHandleConnection s stale (.received arrived (.credentials 0)) c =
    some (sockHandle s (cString arrived.data) c)

theorem sockHandle_short (short : m.length < 5) : sockHandle s m c = (c, []) := by
  have missing {keyword : List Char} (long : 5 ≤ keyword.length) : hasPrefix m keyword = false :=
    hasPrefix_short (short.trans_le long)
  rw [sockHandle, missing (by decide), missing (by decide), missing (by decide)]
  rfl

theorem length_lt_of_torn (begins : m <+: keyword) (other : m ≠ keyword) : m.length < keyword.length :=
  begins.length_le.lt_of_ne fun same => other (begins.eq_of_length same)

theorem not_independent_stats (begins : arrived.data <+: "stats".toList) (other : arrived.data ≠ "stats".toList) :
    ¬ Independent arrived := by
  intro independent
  have short : arrived.data.length < 5 := length_lt_of_torn begins other
  have fits : "stats".toList.length ≤ BUFF_SIZE := by decide
  have found : hasPrefix (filled "stats".toList fits).chars "stats".toList = true := rfl
  have settings : hasPrefix (filled "stats".toList fits).chars "settings ".toList = false := rfl
  have setup : hasPrefix (filled "stats".toList fits).chars "setup".toList = false := rfl
  have answered := independent {} (filled "stats".toList fits) { sleepInterval := 10 }
  rw [sockHandle_short (length_cString_le.trans_lt short),
    sockHandleConnection_filled begins (short.trans (by decide)), found, settings, setup] at answered
  exact absurd (congrArg Prod.snd (Option.some.inj answered)) (List.cons_ne_nil _ _)

theorem not_independent_setup (begins : arrived.data <+: "setup".toList) (other : arrived.data ≠ "setup".toList) :
    ¬ Independent arrived := by
  intro independent
  have short : arrived.data.length < 5 := length_lt_of_torn begins other
  have fits : "setup".toList.length ≤ BUFF_SIZE := by decide
  have found : hasPrefix (filled "setup".toList fits).chars "setup".toList = true := rfl
  have settings : hasPrefix (filled "setup".toList fits).chars "settings ".toList = false := rfl
  have stats : hasPrefix (filled "setup".toList fits).chars "stats".toList = false := rfl
  have answered := independent {} (filled "setup".toList fits) { sleepInterval := 10 }
  rw [sockHandle_short (length_cString_le.trans_lt short),
    sockHandleConnection_filled begins (short.trans (by decide)), found, settings, stats] at answered
  exact absurd (congrArg Prod.snd (Option.some.inj answered)) (List.cons_ne_nil _ _)

theorem not_independent_sleep (data : arrived.data = "settings sleep".toList) : ¬ Independent arrived := by
  intro independent
  have fits : "settings sleep ".toList.length ≤ BUFF_SIZE := by decide
  have begins : arrived.data <+: "settings sleep ".toList := ⟨[' '], by rw [data]; rfl⟩
  have length : arrived.data.length = 14 := by rw [data]; rfl
  have settings : hasPrefix (filled "settings sleep ".toList fits).chars "settings ".toList = true := rfl
  have sleep : hasPrefix ((filled "settings sleep ".toList fits).chars.drop "settings ".length) "sleep ".toList = true :=
    rfl
  have copied : copyArgument ((filled "settings sleep ".toList fits).store arrived) arrived.data.length
      "settings sleep ".length = .overrun := copyArgument_overrun (by rw [length]; rfl)
  have answered := independent {} (filled "settings sleep ".toList fits) { sleepInterval := 10 }
  rw [sockHandleConnection_filled begins (by rw [length]; decide), if_pos settings, handleSettingsBuffer,
    store_filled begins] at answered
  dsimp only at answered
  rw [if_pos sleep, copied] at answered
  exact absurd answered (Option.some_ne_none _).symm

theorem not_independent_ban (data : arrived.data = "settings ban irqs".toList) : ¬ Independent arrived := by
  intro independent
  have fits : "settings ban irqs ".toList.length ≤ BUFF_SIZE := by decide
  have begins : arrived.data <+: "settings ban irqs ".toList := ⟨[' '], by rw [data]; rfl⟩
  have length : arrived.data.length = 17 := by rw [data]; rfl
  have settings : hasPrefix (filled "settings ban irqs ".toList fits).chars "settings ".toList = true := rfl
  have sleep : ¬ hasPrefix ((filled "settings ban irqs ".toList fits).chars.drop "settings ".length) "sleep ".toList =
    true := Bool.false_ne_true
  have ban : hasPrefix ((filled "settings ban irqs ".toList fits).chars.drop "settings ".length) "ban irqs ".toList =
    true := rfl
  have copied : copyArgument ((filled "settings ban irqs ".toList fits).store arrived) arrived.data.length
      "settings ban irqs ".length = .overrun := copyArgument_overrun (by rw [length]; rfl)
  have answered := independent {} (filled "settings ban irqs ".toList fits) { sleepInterval := 10 }
  rw [sockHandleConnection_filled begins (by rw [length]; decide), if_pos settings, handleSettingsBuffer,
    store_filled begins] at answered
  dsimp only at answered
  rw [if_neg sleep, if_pos ban, copied] at answered
  exact absurd answered (Option.some_ne_none _).symm

theorem not_independent_cpus (begins : arrived.data <+: "settings cpus ".toList)
    (other : arrived.data ≠ "settings cpus ".toList) : ¬ Independent arrived := by
  intro independent
  have short : arrived.data.length < 14 := length_lt_of_torn begins other
  have fits : "settings cpus ".toList.length ≤ BUFF_SIZE := by decide
  have settings : hasPrefix (filled "settings cpus ".toList fits).chars "settings ".toList = true := rfl
  have sleep : ¬ hasPrefix ((filled "settings cpus ".toList fits).chars.drop "settings ".length) "sleep ".toList =
    true := Bool.false_ne_true
  have ban : ¬ hasPrefix ((filled "settings cpus ".toList fits).chars.drop "settings ".length) "ban irqs ".toList =
    true := Bool.false_ne_true
  have cpus : hasPrefix ((filled "settings cpus ".toList fits).chars.drop "settings ".length) "cpus ".toList = true :=
    rfl
  -- the mask is forgotten before the argument is copied
  have answered := independent {} (filled "settings cpus ".toList fits)
    { sleepInterval := 10, bannedCpumaskFromUi := some [] }
  have kept : (sockHandle {} (cString arrived.data) { sleepInterval := 10, bannedCpumaskFromUi := some [] }).1 =
      { sleepInterval := 10, bannedCpumaskFromUi := some [] } := by
    have missing {keyword : List Char} (long : 14 ≤ keyword.length) :
        hasPrefix (cString arrived.data) keyword = false :=
      hasPrefix_short ((length_cString_le.trans_lt short).trans_le long)
    rw [sockHandle]
    dsimp only
    rw [handleSettings_none (missing (by decide)) (missing (by decide)) (missing (by decide)), ite_self]
  rw [sockHandleConnection_filled begins (short.trans (by decide)), if_pos settings, handleSettingsBuffer,
    store_filled begins] at answered
  dsimp only at answered
  rw [if_neg sleep, if_neg ban, if_pos cpus] at answered
  have missing : arrived.data.length + 1 < "settings cpus ".length ∨ arrived.data.length + 1 = "settings cpus ".length :=
    Nat.lt_or_eq_of_le short
  rcases missing with several | one
  · rw [copyArgument_noMemory several] at answered
    have masks := congrArg (fun answer => answer.1.bannedCpumaskFromUi) (Option.some.inj answered)
    rw [kept] at masks
    exact absurd masks (Option.some_ne_none _).symm
  · rw [copyArgument_overrun one] at answered
    exact absurd answered (Option.some_ne_none _).symm

/-- What is behind a message has no effect on its answer exactly when the message is not torn. -/
theorem sockHandleConnection_iff (short : arrived.data.length < BUFF_SIZE) :
    (∀ s stale c, sockHandleConnection s stale (.received arrived (.credentials 0)) c =
      some (sockHandle s (cString arrived.data) c)) ↔ ¬ Torn arrived.data := by
  constructor
  · intro independent torn
    rcases torn with ⟨keyword, listed, begins, other⟩ | data | data
    · simp only [List.mem_cons, List.not_mem_nil, or_false] at listed
      rcases listed with rfl | rfl | rfl
      · exact not_independent_stats begins other independent
      · exact not_independent_setup begins other independent
      · exact not_independent_cpus begins other independent
    · exact not_independent_sleep data independent
    · exact not_independent_ban data independent
  · intro whole s stale c
    have granted : (Connection.received arrived (.credentials 0)).granted = some arrived.data := by
      rw [Connection.granted, if_neg]
      rw [not_or]
      exact ⟨short.ne, by decide⟩
    rw [sockHandleConnection_eq, granted]
    · rfl
    · intro m given
      obtain rfl := Option.some.inj (granted.symm.trans given)
      exact whole

/-- The keyword without its blank is not one of the messages. -/
theorem sockHandleConnection_sleep : ¬ ∀ s stale c,
    sockHandleConnection s stale (.received ⟨"settings sleep".toList, by decide⟩ (.credentials 0)) c =
      some (sockHandle s (cString "settings sleep".toList) c) := by
  intro independent
  exact (sockHandleConnection_iff (by decide)).mp independent (.inr (.inl rfl))

end Torn

end Irqbalance
