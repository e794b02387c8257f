import AgentComms.Reads.Query

/-!
# Queries of a selection

The queries that a selection builds spell every cursor as one kind of conversation,
and their lower bounds hide no unread row.
-/

namespace AgentComms.Reads

open Library Registry

namespace Selection

variable {selection : Selection} {scope : ChannelScope} {entry : Conversation × ConversationCursor}
  {key : String × String} {conversation : Conversation}

theorem mem_counted (hmem : entry ∈ scope.counted selection.seen selection.registry) :
    ∃ key, selection.seen.conversations.get? key = some entry ∧ entry.1.key = key := by
  have hvalue : entry ∈ selection.seen.conversations.values := by
    cases scope with
    | channel => exact List.mem_of_mem_filter hmem
    | allTargets | memberActivity => exact hmem
  obtain ⟨key, hget⟩ := Dict.mem_values.mp hvalue
  exact ⟨key, hget, selection.filed _ (Dict.mem_entries.mpr hget)⟩

theorem mem_cursors {row : CursorRow} :
    row ∈ (selection.query scope).cursors ↔
      ∃ entry ∈ scope.counted selection.seen selection.registry,
        row.key ∈ entry.1.sqlKeys selection.registry ∧ row.cursor = entry.2 := by
  show row ∈ cursorRows _ _ ↔ _
  simp only [cursorRows, List.mem_flatMap, List.mem_map]
  constructor
  · rintro ⟨entry, hentry, key, hkey, rfl⟩
    exact ⟨entry, hentry, hkey, rfl⟩
  · rintro ⟨entry, hentry, hkey, hcursor⟩
    exact ⟨entry, hentry, row.key, hkey, by rw [← hcursor]; rfl⟩

/-- The names in a direct conversation's pairs are names of its participants. -/
theorem mem_sqlKeys_direct {registry : RegistryPresence} {members : List Incarnation}
    (hmem : key ∈ (Conversation.direct members).sqlKeys registry) :
    (∃ member ∈ members, key.1 ∈ registry.namesFor member.name) ∧
      ∃ member ∈ members, key.2 ∈ registry.namesFor member.name := by
  have hside : ∀ {end' : Option Incarnation} {name : Name}, (∀ m, end' = some m → m ∈ members) →
      name ∈ (end'.map fun incarnation => registry.namesFor incarnation.name).getD [] →
        ∃ member ∈ members, name ∈ registry.namesFor member.name := by
    intro end' name hend hname
    cases end' with
    | none => cases hname
    | some member => exact ⟨member, hend member rfl, hname⟩
  have hfirst : ∀ m, members.head? = some m → m ∈ members := fun m => List.mem_of_head?
  have hlast : ∀ m, members.getLast? = some m → m ∈ members := fun m => List.mem_of_getLast?
  simp only [Conversation.sqlKeys, List.mem_append, List.mem_flatMap, List.mem_map] at hmem
  rcases hmem with ⟨sender, hsender, target, htarget, rfl⟩ | ⟨sender, hsender, target, htarget, rfl⟩
  · exact ⟨hside hlast htarget, hside hfirst hsender⟩
  · exact ⟨hside hfirst htarget, hside hlast hsender⟩

/-- The kind of conversation that a counted pair spells. -/
theorem sqlKeys_cases (hentry : entry ∈ scope.counted selection.seen selection.registry)
    (hkey : key ∈ entry.1.sqlKeys selection.registry) :
    entry.1 = .all ∧ key = ("", "") ∨
      (∃ target, entry.1 = .channel target ∧ namesChannel target = true ∧ key = (target, "")) ∨
        ThreadName key.1 ∧ key.2 ≠ "" := by
  obtain ⟨filed, hget, hfiled⟩ := mem_counted hentry
  have hstored := Dict.mem_entries.mpr hget
  obtain ⟨conversation, cursor⟩ := entry
  cases conversation with
  | all => exact .inl ⟨rfl, List.mem_singleton.mp hkey⟩
  | channel target =>
    refine .inr (.inl ⟨target, rfl, ?_, List.mem_singleton.mp hkey⟩)
    exact selection.channels _ hstored target hfiled.symm
  | direct members =>
    obtain ⟨⟨member, hmember, htarget⟩, member', hmember', hsender⟩ := mem_sqlKeys_direct hkey
    have hnames := selection.participants _ hstored members rfl
    exact .inr (.inr ⟨hnames member hmember _ htarget, (hnames member' hmember' _ hsender).1⟩)

/-- A pair of the whole bus or of a channel is spelled by one conversation only. -/
theorem entry_of_key (hkey : conversation = .all ∧ key = ("", "") ∨
      ∃ target, conversation = .channel target ∧ namesChannel target = true ∧ key = (target, ""))
    (hentry : entry ∈ scope.counted selection.seen selection.registry)
    (hmem : key ∈ entry.1.sqlKeys selection.registry) : entry.1 = conversation := by
  rcases sqlKeys_cases hentry hmem with ⟨hall, hempty⟩ | ⟨target, htarget, hchannel, hpair⟩ |
    ⟨hthread, hsender⟩
  · rcases hkey with ⟨rfl, -⟩ | ⟨target, -, hchannel, hpair⟩
    · exact hall
    · rw [hempty] at hpair
      exact absurd (congrArg Prod.fst hpair).symm (UnreadQuery.namesChannel_ne_empty hchannel)
  · rcases hkey with ⟨-, hempty⟩ | ⟨target', rfl, -, hpair'⟩
    · rw [hpair] at hempty
      exact absurd (congrArg Prod.fst hempty) (UnreadQuery.namesChannel_ne_empty hchannel)
    · have hsame : target = target' := congrArg Prod.fst (hpair.symm.trans hpair')
      rw [htarget, hsame]
  · rcases hkey with ⟨-, rfl⟩ | ⟨target, -, -, rfl⟩ <;> exact absurd rfl hsender

/-- A counted conversation with a pair of its own is found under it. -/
theorem cursorAt_of_entry {cursor : ConversationCursor}
    (hkey : conversation = .all ∧ key = ("", "") ∨
      ∃ target, conversation = .channel target ∧ namesChannel target = true ∧ key = (target, ""))
    (hentry : (conversation, cursor) ∈ scope.counted selection.seen selection.registry) :
    (selection.query scope).cursorAt key = cursor := by
  have hown : key ∈ conversation.sqlKeys selection.registry := by
    rcases hkey with ⟨rfl, rfl⟩ | ⟨target, rfl, -, rfl⟩ <;> exact List.mem_singleton_self _
  -- every row under the pair comes from the one entry of this conversation
  have hrows : ∀ row ∈ (selection.query scope).rowsAt key, row.cursor = cursor := by
    intro row hmem
    rw [UnreadQuery.rowsAt, List.mem_filter, decide_eq_true_iff] at hmem
    obtain ⟨entry, hother, hspelled, hcursor⟩ := mem_cursors.mp hmem.1
    rw [hmem.2] at hspelled
    have hsame := entry_of_key hkey hother hspelled
    obtain ⟨filed, hget, hfiled⟩ := mem_counted hentry
    obtain ⟨filed', hget', hfiled'⟩ := mem_counted hother
    rw [hsame] at hfiled'
    rw [← hfiled', hfiled, hget] at hget'
    rw [hcursor, ← Option.some.inj hget']
  have hrow : (⟨key.1, key.2, cursor⟩ : CursorRow) ∈ (selection.query scope).rowsAt key := by
    rw [UnreadQuery.rowsAt, List.mem_filter, decide_eq_true_iff]
    exact ⟨mem_cursors.mpr ⟨_, hentry, hown, rfl⟩, rfl⟩
  unfold UnreadQuery.cursorAt
  rw [List.getLast?_eq_some_getLast (List.ne_nil_of_mem hrow), Option.map_some, Option.getD_some]
  exact hrows _ (List.getLast_mem _)

/-- The dictionary keeps one entry for the whole bus. -/
theorem rowsAt_wholeBus_length (selection : Selection) (scope : ChannelScope) :
    ((selection.query scope).rowsAt ("", "")).length ≤ 1 := by
  have hrows : (selection.query scope).rowsAt ("", "") =
      (scope.counted selection.seen selection.registry).flatMap fun entry =>
        if entry.1 = .all then [⟨"", "", entry.2⟩] else [] := by
    show (cursorRows _ _).filter _ = _
    rw [cursorRows, List.filter_flatMap]
    refine List.flatMap_congr fun entry hentry => ?_
    by_cases hall : entry.1 = .all
    · rw [if_pos hall, hall]
      rfl
    · rw [if_neg hall, List.filter_eq_nil_iff]
      intro row hrow
      obtain ⟨key, hkey, rfl⟩ := List.mem_map.mp hrow
      rw [decide_eq_true_iff]
      intro hempty
      have hpair : key = ("", "") := hempty
      exact hall (entry_of_key (.inl ⟨rfl, rfl⟩) hentry (hpair ▸ hkey))
  have hcounted : (scope.counted selection.seen selection.registry).Sublist
      selection.seen.conversations.values := by
    cases scope with
    | channel => exact List.filter_sublist
    | allTargets | memberActivity => exact List.Sublist.refl _
  have hone : selection.seen.conversations.values.countP (fun entry => entry.1 = .all) ≤ 1 := by
    rw [Dict.values, List.countP_map]
    refine le_trans ?_ (List.nodup_iff_count_le_one.mp selection.seen.conversations.nodup .all)
    rw [List.count, List.countP_map]
    refine List.countP_mono_left fun entry hentry hall => ?_
    have hall : entry.2.1 = .all := of_decide_eq_true hall
    have hfiled := selection.filed entry hentry
    rw [hall] at hfiled
    exact beq_iff_eq.mpr hfiled.symm
  have hlength : ∀ entries : List (Conversation × ConversationCursor), (entries.flatMap fun entry =>
        if entry.1 = .all then [(⟨"", "", entry.2⟩ : CursorRow)] else []).length =
          entries.countP fun entry => entry.1 = .all := by
    intro entries
    induction entries with
    | nil => rfl
    | cons entry entries ih =>
      rw [List.flatMap_cons, List.length_append, ih, List.countP_cons]
      by_cases hall : entry.1 = .all <;> simp [hall, add_comm]
  rw [hrows, hlength]
  exact (hcounted.countP_le).trans hone

theorem spelled_of_mem {query : UnreadQuery} (hmem : query ∈ selection.queries) :
    query.Spelled := by
  obtain ⟨scope, -, rfl⟩ := List.mem_map.mp hmem
  refine ⟨fun row hrow => ?_, rowsAt_wholeBus_length selection scope⟩
  obtain ⟨entry, hentry, hkey, -⟩ := mem_cursors.mp hrow
  rcases sqlKeys_cases hentry hkey with ⟨-, hempty⟩ | ⟨target, -, hchannel, hpair⟩ | hthread
  · exact .inl hempty
  · have htarget : row.target = target := congrArg Prod.fst hpair
    exact .inr (.inl ⟨htarget ▸ hchannel, congrArg Prod.snd hpair⟩)
  · exact .inr (.inr hthread)

/-! ### Lower bounds -/

theorem wholeBus_highWater (selection : Selection) (scope : ChannelScope) :
    (selection.seen.cursorOf .all).highWater ≤
      ((selection.query scope).cursorAt ("", "")).highWater := by
  unfold ReadCursor.cursorOf
  cases hget : selection.seen.conversations.get? .all with
  | none => exact Nat.zero_le _
  | some entry =>
    obtain ⟨conversation, cursor⟩ := entry
    have hfiled := selection.filed _ (Dict.mem_entries.mpr hget)
    obtain rfl : conversation = .all := by
      cases conversation <;> first | rfl | cases hfiled
    have hvalue := Dict.mem_values.mpr ⟨_, hget⟩
    have hentry : (Conversation.all, cursor) ∈
        scope.counted selection.seen selection.registry := by
      cases scope with
      | channel => exact List.mem_filter.mpr ⟨hvalue, rfl⟩
      | allTargets | memberActivity => exact hvalue
    rw [cursorAt_of_entry (.inl ⟨rfl, rfl⟩) hentry]
    exact le_rfl

theorem channel_highWater {name : String} {targets : List String} {target : String}
    (hchannel : namesChannel target = true) (hmem : target ∈ targets) :
    (selection.seen.cursorOf (.channel target)).highWater ≤
      ((selection.query (.channel name targets)).cursorAt (target, "")).highWater := by
  unfold ReadCursor.cursorOf
  cases hget : selection.seen.conversations.get? (.channel target) with
  | none => exact Nat.zero_le _
  | some entry =>
    obtain ⟨conversation, cursor⟩ := entry
    have hfiled := selection.filed _ (Dict.mem_entries.mpr hget)
    obtain rfl : conversation = .channel target := by
      cases conversation <;> first | exact congrArg _ (ConversationKey.channel.inj hfiled) |
        cases hfiled
    have hentry : (Conversation.channel target, cursor) ∈
        (ChannelScope.channel name targets).counted selection.seen selection.registry :=
      List.mem_filter.mpr ⟨Dict.mem_values.mpr ⟨_, hget⟩, decide_eq_true hmem⟩
    rw [cursorAt_of_entry (.inr ⟨target, rfl, hchannel, rfl⟩) hentry]
    exact le_rfl

theorem forConversation_highWater (seen : ReadCursor) (key : ConversationKey) :
    (seen.forConversation key).highWater =
      max (seen.cursorOf .all).highWater (seen.cursorOf key).highWater := by
  show max _ (max _ 0) = _
  rw [Nat.max_zero]

/-- A lower bound hides only rows that are read. -/
theorem read_of_le_lowerBound {query : UnreadQuery} (hquery : query ∈ selection.queries)
    {message : Message} (hpos : 0 < message.seq)
    (hselects : query.predicate.selects message = true) (hle : message.seq ≤ query.lowerBound) :
    message.seq ∈ query.cursorAt message.cursorKey ∨
      message.seq ≤ (query.cursorAt ("", "")).highWater := by
  obtain ⟨scope, hscope, rfl⟩ := List.mem_map.mp hquery
  have hwhole := wholeBus_highWater selection scope
  have hle : message.seq ≤ scope.lowerBound selection.seen := hle
  -- a scope over arbitrary targets starts at the whole-bus prefix
  have harbitrary : message.seq ≤ (selection.seen.forConversation .all).highWater →
      message.seq ≤ ((selection.query scope).cursorAt ("", "")).highWater := by
    intro hle
    rw [forConversation_highWater, max_self] at hle
    exact hle.trans hwhole
  cases scope with
  | allTargets | memberActivity => exact .inr (harbitrary hle)
  | channel name targets =>
    have htarget : message.target ∈ targets := mem_sortedSet.mp (of_decide_eq_true hselects)
    have hchannel := selection.targets _ hscope _ htarget
    have hkey : message.cursorKey = (message.target, "") := by
      rw [Message.cursorKey, if_pos hchannel]
    have hbound : ChannelScope.lowerBound (.channel name targets) selection.seen ≤
        (selection.seen.forConversation (.channel message.target)).highWater := by
      have hvalue := List.mem_map_of_mem (f := fun target =>
        (selection.seen.forConversation (.channel target)).highWater) htarget
      rw [ChannelScope.lowerBound, List.min?_eq_some_min (List.ne_nil_of_mem hvalue),
        Option.getD_some]
      exact List.min_le_of_mem hvalue
    rw [forConversation_highWater] at hbound
    rcases le_max_iff.mp (hle.trans hbound) with hall | hown
    · exact .inr (hall.trans hwhole)
    · rw [hkey, ConversationCursor.mem_iff]
      exact .inl (.inl ⟨hpos, hown.trans (channel_highWater hchannel htarget)⟩)

end Selection

end AgentComms.Reads
