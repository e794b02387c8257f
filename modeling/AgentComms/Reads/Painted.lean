import AgentComms.Reads.Ledger
import AgentComms.Registry.Wire

/-!
# Marks of painted pages

Between the capture of a page and its mark the bus grows and the same reader may
mark other pages. `painted_marks_exactly` says that the mark still adds the
painted sequences and nothing else.
-/

namespace AgentComms.Reads

open Library Registry

variable {snapshot : RegistrySnapshot} {thread : Thread} {document : ReadDocument} {bus : ReadBus}
  {viewer : Name} {conversation : Conversation} {page : List Message}
  {grouped grouped' : Dict ConversationKey (Conversation × List Nat)} {basis : DisplayBasis}
  {world : World} {item : DisplayedConversation}

/-! ### What a document records -/

/-- The document records `n` as read by the owner of this birth. -/
def Recorded (snapshot : RegistrySnapshot) (identity : Nat × Nat) (document : ReadDocument)
    (birth : Nat) (conversation : Conversation) (n : Nat) : Prop :=
  document.busIdentity = some identity ∧
    ∃ key, (key = .all ∨ key ∈ conversation.recordedKeys snapshot) ∧
      n ∈ (document.cursorOf birth).cursorOf key

theorem declared_of_thread {name : Name} (hthread : snapshot.threads.get? name = some thread) :
    Declared snapshot ⟨thread.name, some thread.birth⟩ := by
  have hname := thread_name hthread
  refine ⟨?_, by simp [hname, hthread]⟩
  exact not_alias_of_mem_threads snapshot (hname ▸ Dict.mem_iff.mpr ⟨thread, hthread⟩)

open ConversationCursor (mem_union mem_iff not_mem_empty)

/-- The cursor of a conversation contains what the document records. -/
theorem forConversation_spec
    (hthread : snapshot.threads.get? (snapshot.canonicalName viewer) = some thread)
    (hfiled : Filed snapshot conversation) :
    ∃ cursor, document.forConversation viewer conversation snapshot bus = .ok cursor ∧
      ∀ n, n ∈ cursor ↔ Recorded snapshot bus.identity document thread.birth conversation n := by
  unfold ReadDocument.forConversation ReadDocument.cursors
  by_cases hidentity : document.busIdentity = some bus.identity
  · rw [if_pos hidentity]
    dsimp only
    rw [hthread]
    refine ⟨_, rfl, fun n => ?_⟩
    simp only [mem_union, List.mem_flatMap, List.mem_map]
    constructor
    · rintro ⟨_, ⟨_, ⟨owner, howner, rfl⟩, key, hkey, rfl⟩, hread⟩
      have hbirth : owner.birth = some thread.birth := by
        have hkey := (declared_of_thread hthread).key_of_mem_recordedNames howner
        cases hbirth : owner.birth <;> simp_all [Incarnation.key]
      rw [hbirth, Option.map_some, Option.getD_some,
        ReadCursor.forConversation, mem_union] at hread
      obtain ⟨cursor, hcursor, hread⟩ := hread
      rcases List.mem_pair.mp hcursor with rfl | rfl
      · exact ⟨hidentity, .all, .inl rfl, hread⟩
      · exact ⟨hidentity, key, .inr hkey, hread⟩
    · rintro ⟨-, key, hkey, hread⟩
      -- the viewer's current name is one of its owners
      have howner : Incarnation.mk thread.name (some thread.birth) ∈
          (Incarnation.mk thread.name (some thread.birth)).recordedNames snapshot := by
        rw [Incarnation.recordedNames, (declared_of_thread hthread).resolved_eq]
        exact List.mem_cons_self
      have hfound : ∃ spelled ∈ conversation.recordedKeys snapshot,
          n ∈ (document.cursorOf thread.birth).forConversation spelled := by
        rcases hkey with rfl | hkey
        · refine ⟨conversation.key, hfiled.key_mem, mem_union.mpr ?_⟩
          exact ⟨_, List.mem_cons_self, hread⟩
        · refine ⟨key, hkey, mem_union.mpr ?_⟩
          exact ⟨_, List.mem_cons_of_mem _ (List.mem_singleton_self _), hread⟩
      obtain ⟨spelled, hspelled, hread⟩ := hfound
      exact ⟨_, ⟨_, ⟨_, howner, rfl⟩, spelled, hspelled, rfl⟩, hread⟩
  · rw [if_neg hidentity]
    refine ⟨_, rfl, fun n => ?_⟩
    simp only [List.flatMap_nil, mem_union, List.not_mem_nil, false_and,
      exists_false, false_iff]
    exact fun hrecorded => hidentity hrecorded.1

/-! ### Marks -/

theorem recorded_markDisplayed {after : ReadDocument} {displayed : DisplayBasis}
    (hok : document.markDisplayed viewer displayed bus = .ok after) {birth : Nat} {n : Nat} :
    Recorded snapshot bus.identity after birth conversation n ↔
      Recorded snapshot bus.identity document birth conversation n ∨
        birth = displayed.viewerBirth ∧ ∃ item ∈ displayed.conversations,
          (item.conversation.key = .all ∨
            item.conversation.key ∈ conversation.recordedKeys snapshot) ∧ item.Marks n := by
  simp only [ReadDocument.markDisplayed, do_eq_ok, exists_const] at hok
  obtain ⟨hbus, -, rfl⟩ := hok
  rw [← hbus]
  -- a document of another bus records nothing of this one
  have hkept : ∀ key, document.busIdentity = some displayed.busIdentity ∧
      n ∈ (document.cursorOf birth).cursorOf key ↔
        n ∈ ((if document.busIdentity = some displayed.busIdentity then document
          else ⟨Dict.empty, some displayed.busIdentity⟩ : ReadDocument).cursorOf birth).cursorOf
            key := by
    intro key
    split
    next hsame => exact ⟨And.right, fun hread => ⟨hsame, hread⟩⟩
    next hother =>
      refine ⟨fun hread => absurd hread.1 hother, fun hread => ?_⟩
      exact absurd hread (not_mem_empty n)
  generalize (if document.busIdentity = some displayed.busIdentity then document
    else ⟨Dict.empty, some displayed.busIdentity⟩ : ReadDocument) = kept at hkept ⊢
  unfold Recorded
  have hafter : ∀ key, n ∈ ((ReadDocument.mk (kept.messages.set displayed.viewerBirth
      ((kept.cursorOf displayed.viewerBirth).add displayed.conversations))
        (some displayed.busIdentity)).cursorOf birth).cursorOf key ↔
      n ∈ (kept.cursorOf birth).cursorOf key ∨ birth = displayed.viewerBirth ∧
        ∃ item ∈ displayed.conversations, item.conversation.key = key ∧ item.Marks n := by
    intro key
    unfold ReadDocument.cursorOf
    rw [Dict.get?_set]
    by_cases hbirth : birth = displayed.viewerBirth
    · rw [if_pos hbirth, Option.getD_some, ReadCursor.mem_cursorOf_add, hbirth]
      simp
    · rw [if_neg hbirth]
      simp [hbirth]
  simp only [hafter, ← hkept, true_and]
  constructor
  · rintro ⟨key, hkey, ⟨hsame, hread⟩ | ⟨hbirth, item, hitem, rfl, hmarks⟩⟩
    · exact .inl ⟨hsame, key, hkey, hread⟩
    · exact .inr ⟨hbirth, item, hitem, hkey, hmarks⟩
  · rintro (⟨hsame, key, hkey, hread⟩ | ⟨hbirth, item, hitem, hkey, hmarks⟩)
    · exact ⟨key, hkey, .inl ⟨hsame, hread⟩⟩
    · exact ⟨_, hkey, .inr ⟨hbirth, item, hitem, rfl, hmarks⟩⟩

/-! ### The proved prefix -/

theorem foldr_max_le {ns : List Nat} {bound : Nat} (hle : ∀ n ∈ ns, n ≤ bound) :
    ns.foldr max 0 ≤ bound := by
  induction ns with
  | nil => exact Nat.zero_le _
  | cons m ns ih =>
    exact max_le (hle m List.mem_cons_self) (ih fun n hn => hle n (List.mem_cons_of_mem _ hn))

section ProvedPrefix

variable {bus : ReadBus} {scope : Scope} {previous : ConversationCursor} {sequences : List Nat}

theorem provedReadPrefix_le :
    provedReadPrefix bus scope previous sequences ≤
      (sequences ++ previous.exceptions ++ [previous.highWater]).foldr max 0 := by
  unfold provedReadPrefix
  dsimp only
  split
  next message hhead =>
    have hmem := List.mem_of_head? hhead
    simp only [List.mem_filter, decide_eq_true_eq] at hmem
    omega
  · exact le_rfl

/-- A scoped row inside the proved prefix was painted or read. -/
theorem read_of_le_provedReadPrefix {message : Message} (hmem : message ∈ bus.messages)
    (hscope : scope.condition message = true)
    (hle : message.seq ≤ provedReadPrefix bus scope previous sequences) :
    message.seq ∈ sequences ∨ message.seq ∈ previous := by
  by_contra hnot
  rw [not_or, mem_iff, not_or, not_and] at hnot
  obtain ⟨hunpainted, hbeyond, hunread⟩ := hnot
  have hpos := (bus.bounded message hmem).1
  have hthrough := hle.trans provedReadPrefix_le
  have habove := not_le.mp (hbeyond hpos)
  have hmissing : message ∈ bus.messages.filter fun message =>
      scope.condition message ∧ message.seq ∉ sequences ++ previous.exceptions ∧
        previous.highWater < message.seq ∧ message.seq <
          (sequences ++ previous.exceptions ++ [previous.highWater]).foldr max 0 + 1 := by
    simp only [List.mem_filter, decide_eq_true_eq, List.mem_append, not_or]
    exact ⟨hmem, hscope, ⟨hunpainted, hunread⟩, habove, Nat.lt_succ_of_le
      (by simpa only [List.append_assoc] using hthrough)⟩
  -- the first missing row cuts the prefix below this one
  have hordered := bus.ordered.filter fun message =>
    decide (scope.condition message ∧ message.seq ∉ sequences ++ previous.exceptions ∧
      previous.highWater < message.seq ∧ message.seq <
        (sequences ++ previous.exceptions ++ [previous.highWater]).foldr max 0 + 1)
  unfold provedReadPrefix at hle
  dsimp only at hle
  generalize bus.messages.filter _ = missing at hmissing hordered hle
  cases missing with
  | nil => cases hmissing
  | cons first =>
    have hfirst : first.seq ≤ message.seq := by
      rcases List.mem_cons.mp hmissing with rfl | hrest
      · exact le_rfl
      · exact ((List.pairwise_cons.mp hordered).1 message hrest).le
    have hle : message.seq ≤ first.seq - 1 := hle
    omega

end ProvedPrefix

/-! ### Captures -/

structure Grouped (snapshot : RegistrySnapshot) (page : List Message)
    (grouped : Dict ConversationKey (Conversation × List Nat)) : Prop where
  filed : ∀ key conversation members, grouped.get? key = some (conversation, members) →
    conversation.key = key ∧ Filed snapshot conversation ∧ ∀ n, n ∈ members ↔
      ∃ message ∈ page, conversationOf snapshot message = .ok conversation ∧ message.seq = n
  found : ∀ message ∈ page, ∃ conversation, conversationOf snapshot message = .ok conversation ∧
    conversation.key ∈ grouped

theorem Grouped.step {message : Message} (hgrouped : Grouped snapshot page grouped)
    (hok : groupMessage snapshot grouped message = .ok grouped') :
    Grouped snapshot (page ++ [message]) grouped' := by
  simp only [groupMessage, do_eq_ok] at hok
  obtain ⟨conversation, hconversation, rfl⟩ := hok
  have hfiled := filed_of_conversationOf hconversation
  -- only the message's own conversation gains a member
  have hjoin : ∀ other n, (∃ found ∈ page ++ [message],
      conversationOf snapshot found = .ok other ∧ found.seq = n) ↔
        (∃ found ∈ page, conversationOf snapshot found = .ok other ∧ found.seq = n) ∨
          conversation = other ∧ message.seq = n := by
    intro other n
    simp [or_and_right, exists_or, hconversation]
  refine ⟨fun key other members hget => ?_, fun found hmem => ?_⟩
  · simp only [hjoin]
    rw [Dict.get?_set] at hget
    split at hget
    next hkey =>
      subst hkey
      cases hbefore : grouped.get? conversation.key with
      | none =>
        rw [hbefore] at hget
        cases hget
        refine ⟨rfl, hfiled, fun n => ?_⟩
        rw [or_iff_right, Option.getD_none, List.mem_singleton, eq_comm, and_iff_right rfl]
        rintro ⟨earlier, hpage, hsame, -⟩
        obtain ⟨filed, hfound, hpresent⟩ := hgrouped.found earlier hpage
        cases hsame.symm.trans hfound
        exact absurd hpresent (Dict.get?_eq_none_iff.mp hbefore)
      | some entry =>
        obtain ⟨kept, earlier⟩ := entry
        obtain ⟨hkey, hkept, hmembers⟩ := hgrouped.filed _ _ _ hbefore
        obtain rfl := hfiled.eq_of_key hkept hkey
        rw [hbefore] at hget
        cases hget
        refine ⟨rfl, hfiled, fun n => ?_⟩
        rw [Option.getD_some, List.mem_cons, hmembers, eq_comm, and_iff_right rfl, or_comm]
    next hkey =>
      obtain ⟨hother, hkept, hmembers⟩ := hgrouped.filed _ _ _ hget
      refine ⟨hother, hkept, fun n => (hmembers n).trans ?_⟩
      rw [or_iff_left]
      rintro ⟨rfl, -⟩
      exact hkey hother.symm
  · rcases List.mem_append.mp hmem with hpage | hnew
    · obtain ⟨filed, hsame, hpresent⟩ := hgrouped.found found hpage
      exact ⟨filed, hsame, Dict.mem_set.mpr (.inr hpresent)⟩
    · rw [List.mem_singleton.mp hnew]
      exact ⟨conversation, hconversation, Dict.mem_set.mpr (.inl rfl)⟩

theorem grouped_of_foldlM {seen : List Message} (hgrouped : Grouped snapshot seen grouped)
    (hok : page.foldlM (groupMessage snapshot) grouped = .ok grouped') :
    Grouped snapshot (seen ++ page) grouped' := by
  induction page generalizing seen grouped with
  | nil =>
    cases hok
    rwa [List.append_nil]
  | cons message page ih =>
    simp only [List.foldlM_cons, bind_eq_ok] at hok
    obtain ⟨next, hnext, hrest⟩ := hok
    have hrun := ih (hgrouped.step hnext) hrest
    rwa [List.append_assoc, List.singleton_append] at hrun

/-- What a captured basis holds: per conversation of the page its painted
sequences and a prefix proved from the viewer's cursor. -/
structure Captured (snapshot : RegistrySnapshot) (bus : ReadBus) (document : ReadDocument)
    (viewer : Name) (page : List Message) (basis : DisplayBasis) : Prop where
  viewer : basis.viewer = snapshot.canonicalName viewer
  thread : ∃ thread, snapshot.threads.get? basis.viewer = some thread ∧
    basis.viewerBirth = thread.birth
  identity : basis.busIdentity = bus.identity
  item : ∀ item ∈ basis.conversations, Filed snapshot item.conversation ∧
    (∀ n, n ∈ item.sequences ↔ ∃ message ∈ page,
      conversationOf snapshot message = .ok item.conversation ∧ message.seq = n) ∧
    ∃ previous, document.forConversation basis.viewer item.conversation snapshot bus =
        .ok previous ∧
      item.prefixThrough = provedReadPrefix bus (item.conversation.scope snapshot) previous
        item.sequences
  found : ∀ message ∈ page, ∃ item ∈ basis.conversations,
    conversationOf snapshot message = .ok item.conversation

theorem of_capture (hok : capture viewer page snapshot bus document = .ok basis) :
    Captured snapshot bus document viewer page basis := by
  simp only [capture, do_eq_ok, mapError_eq_ok] at hok
  obtain ⟨grouped, hgroup, thread, hthread, conversations, hitems, rfl⟩ := hok
  have hempty : Grouped snapshot [] Dict.empty := by
    refine ⟨fun key _ _ hget => ?_, fun message hmem => ?_⟩
    · rw [Dict.get?_empty] at hget
      cases hget
    · cases hmem
  have hgrouped := grouped_of_foldlM hempty hgroup
  rw [List.nil_append] at hgrouped
  obtain ⟨hfrom, hinto⟩ := mem_of_mapM hitems
  refine ⟨rfl, ⟨thread, hthread, rfl⟩, rfl, fun item hmem => ?_, fun message hmem => ?_⟩
  · obtain ⟨⟨conversation, members⟩, hvalue, hitem⟩ := hfrom item hmem
    simp only [do_eq_ok] at hitem
    obtain ⟨previous, hprevious, rfl⟩ := hitem
    obtain ⟨key, hget⟩ := Dict.mem_values.mp hvalue
    obtain ⟨-, hfiled, hmembers⟩ := hgrouped.filed _ _ _ hget
    refine ⟨hfiled, fun n => ?_, previous, hprevious, rfl⟩
    rw [mem_sortedSet, hmembers]
  · obtain ⟨conversation, hconversation, hkey⟩ := hgrouped.found message hmem
    obtain ⟨⟨filed, members⟩, hget⟩ := Dict.mem_iff.mp hkey
    obtain ⟨hsame, hfiled, -⟩ := hgrouped.filed _ _ _ hget
    obtain ⟨item, hitem, hcaptured⟩ := hinto _ (Dict.mem_values.mpr ⟨_, hget⟩)
    simp only [do_eq_ok] at hcaptured
    obtain ⟨previous, -, rfl⟩ := hcaptured
    refine ⟨_, hitem, ?_⟩
    rw [hconversation, (filed_of_conversationOf hconversation).eq_of_key hfiled hsame]

/-! ### Between capture and mark -/

inductive ReadEvent where
  /-- A message is appended. -/
  | append (draft : Message)
  /-- Another record is appended. -/
  | advance
  /-- Some viewer marks some basis. -/
  | mark (viewer : Name) (displayed : DisplayBasis)

structure World where
  bus : ReadBus
  document : ReadDocument

def World.perform : ReadEvent → World → Except ReadError World
  | .append draft, world => .ok { world with bus := world.bus.append draft }
  | .advance, world => .ok { world with bus := world.bus.advance }
  | .mark viewer displayed, world => do
      let document ← world.document.markDisplayed viewer displayed world.bus
      pure { world with document := document }

/-- The bus only grows past its old revision, and no read is forgotten. -/
structure World.Later (snapshot : RegistrySnapshot) (before after : World) : Prop where
  identity : after.bus.identity = before.bus.identity
  revision : before.bus.revision ≤ after.bus.revision
  kept : ∀ message ∈ before.bus.messages, message ∈ after.bus.messages
  added : ∀ message ∈ after.bus.messages,
    message ∈ before.bus.messages ∨ before.bus.revision < message.seq
  recorded : ∀ birth conversation n,
    Recorded snapshot before.bus.identity before.document birth conversation n →
      Recorded snapshot after.bus.identity after.document birth conversation n

theorem World.Later.refl (world : World) : World.Later snapshot world world :=
  ⟨rfl, le_rfl, fun _ hmem => hmem, fun _ hmem => .inl hmem, fun _ _ _ hread => hread⟩

theorem World.Later.trans {first second third : World} (hfirst : World.Later snapshot first second)
    (hsecond : World.Later snapshot second third) : World.Later snapshot first third := by
  refine ⟨hsecond.identity.trans hfirst.identity, hfirst.revision.trans hsecond.revision,
    fun message hmem => hsecond.kept message (hfirst.kept message hmem), fun message hmem => ?_,
    fun birth conversation n hread =>
      hsecond.recorded birth conversation n (hfirst.recorded birth conversation n hread)⟩
  rcases hsecond.added message hmem with hmem | hlt
  · exact hfirst.added message hmem
  · exact .inr (hfirst.revision.trans_lt hlt)

theorem World.later_of_perform {event : ReadEvent} {before after : World}
    (hok : World.perform event before = .ok after) : World.Later snapshot before after := by
  cases event with
  | append =>
    cases hok
    refine ⟨rfl, Nat.le_succ _, fun message hmem => List.mem_append_left _ hmem,
      fun message hmem => ?_, fun _ _ _ hread => hread⟩
    rcases List.mem_append.mp hmem with hold | hnew
    · exact .inl hold
    · rw [List.mem_singleton.mp hnew]
      exact .inr (Nat.lt_succ_self _)
  | advance =>
    cases hok
    exact ⟨rfl, Nat.le_succ _, fun _ hmem => hmem, fun _ hmem => .inl hmem,
      fun _ _ _ hread => hread⟩
  | mark =>
    simp only [World.perform, do_eq_ok] at hok
    obtain ⟨document, hmark, rfl⟩ := hok
    exact ⟨rfl, le_rfl, fun _ hmem => hmem, fun _ hmem => .inl hmem,
      fun _ _ _ hread => (recorded_markDisplayed hmark).mpr (.inl hread)⟩

theorem World.later_of_run (events : List ReadEvent) (world : World) :
    World.Later snapshot world (run World.perform events world) :=
  run_invariant (World.Later snapshot world)
    (fun _ _ _ hlater hok => hlater.trans (World.later_of_perform hok)) events (.refl world)

/-! ### Exactly the painted messages -/

def isRead (snapshot : RegistrySnapshot) (world : World) (viewer : Name)
    (conversation : Conversation) (n : Nat) : Bool :=
  match world.document.forConversation viewer conversation snapshot world.bus with
  | .ok cursor => n ∈ cursor
  | .error _ => false

/-- No recorded read exceeds the bus revision. -/
def ReadDocument.Within (document : ReadDocument) (revision : Nat) : Prop :=
  ∀ birth key, ∀ n ∈ (document.cursorOf birth).cursorOf key, n ≤ revision

/-- Of the messages that `asked` names, the mark of a captured page reads the painted ones
and no others, whatever happened since the capture. -/
def PaintedExactly (asked : Message → Prop) (snapshot : RegistrySnapshot) (world : World)
    (viewer : Name) (page : List Message) (selected : List Nat) (bound : Nat)
    (events : List ReadEvent) : Prop :=
  ∀ basis, capture viewer page snapshot world.bus world.document = .ok basis →
    let later := run World.perform events world
    ∃ document, later.document.markDisplayed basis.viewer
        ((basis.select selected).through bound) later.bus = .ok document ∧
      ∀ message ∈ later.bus.messages, asked message → ∀ conversation,
        conversationOf snapshot message = .ok conversation →
          (isRead snapshot ⟨later.bus, document⟩ viewer conversation message.seq ↔
            isRead snapshot later viewer conversation message.seq ∨
              message ∈ page ∧ message.seq ∈ selected ∧ message.seq ≤ bound)

theorem isRead_iff (hthread : snapshot.threads.get? (snapshot.canonicalName viewer) = some thread)
    (hfiled : Filed snapshot conversation) {n : Nat} :
    isRead snapshot world viewer conversation n ↔
      Recorded snapshot world.bus.identity world.document thread.birth conversation n := by
  obtain ⟨cursor, hcursor, hmem⟩ := forConversation_spec hthread hfiled
  rw [isRead, hcursor, decide_eq_true_iff, hmem]

/-- A captured prefix covers only rows that were already in the bus. -/
theorem prefixThrough_le_revision
    (hcaptured : Captured snapshot world.bus world.document viewer page basis)
    (hwithin : world.document.Within world.bus.revision)
    (hpage : ∀ message ∈ page, message ∈ world.bus.messages) (hitem : item ∈ basis.conversations) :
    item.prefixThrough ≤ world.bus.revision := by
  obtain ⟨thread, hthread, -⟩ := hcaptured.thread
  rw [hcaptured.viewer] at hthread
  obtain ⟨hfiled, hsequences, previous, hprevious, hproved⟩ := hcaptured.item item hitem
  have hread : ∀ n ∈ previous, n ≤ world.bus.revision := by
    rw [hcaptured.viewer] at hprevious
    obtain ⟨cursor, hcursor, hmem⟩ := forConversation_spec
      ((congrArg _ (canonicalName_idem snapshot viewer)).trans hthread) hfiled
    rw [hprevious] at hcursor
    cases hcursor
    intro n hn
    obtain ⟨-, key, -, hkey⟩ := (hmem n).mp hn
    exact hwithin _ key n hkey
  rw [hproved]
  refine provedReadPrefix_le.trans (foldr_max_le fun n hn => ?_)
  rcases List.mem_append.mp hn with hn | hn
  · rcases List.mem_append.mp hn with hn | hn
    · obtain ⟨message, hmem, -, rfl⟩ := (hsequences n).mp hn
      exact (world.bus.bounded message (hpage message hmem)).2
    · exact hread n (mem_iff.mpr (.inr hn))
  · rw [List.mem_singleton.mp hn]
    rcases Nat.eq_zero_or_pos previous.highWater with hzero | hpos
    · exact hzero ▸ Nat.zero_le _
    · exact hread _ (mem_iff.mpr (.inl ⟨hpos, le_rfl⟩))

/-- Plain spelling is asked only of the message spoken of, and only if the page passed
over it: not of a painted one, and not of one that came after the capture. -/
theorem painted_marks_exactly (snapshot : RegistrySnapshot) (world : World)
    (hwithin : world.document.Within world.bus.revision) (viewer : Name)
    (page : List Message) (hpage : ∀ message ∈ page, message ∈ world.bus.messages)
    (selected : List Nat) (bound : Nat) (events : List ReadEvent) :
    PaintedExactly (fun message => message ∈ world.bus.messages → message ∉ page → message.Plain)
      snapshot world viewer page selected bound events := by
  intro basis hcapture later
  have hcaptured := of_capture hcapture
  have hlater : World.Later snapshot world later := World.later_of_run events world
  obtain ⟨thread, hthread, hbirth⟩ := hcaptured.thread
  rw [hcaptured.viewer] at hthread
  have hbus := hcaptured.identity.trans hlater.identity.symm
  obtain ⟨document, hdocument⟩ : ∃ document, later.document.markDisplayed basis.viewer
      ((basis.select selected).through bound) later.bus = .ok document := by
    simp only [ReadDocument.markDisplayed, do_eq_ok, exists_const]
    exact ⟨_, hbus, rfl, rfl⟩
  refine ⟨document, hdocument, fun message hmem hplain conversation hconversation => ?_⟩
  have hfiled := filed_of_conversationOf hconversation
  rw [isRead_iff hthread hfiled, isRead_iff hthread hfiled, recorded_markDisplayed hdocument]
  constructor
  · rintro (hrecorded | ⟨-, cut, hcut, hkey, hmarks⟩)
    · exact .inl hrecorded
    · -- only the item of the message's own conversation reaches its cursor
      obtain ⟨_, hselected, rfl⟩ := List.mem_map.mp hcut
      obtain ⟨item, hitem, rfl⟩ := List.mem_map.mp hselected
      obtain ⟨hitemFiled, hsequences, previous, hprevious, hproved⟩ := hcaptured.item item hitem
      obtain rfl : item.conversation = conversation := by
        rcases hkey with hall | hkey
        · exact absurd hall hitemFiled.key_ne_all
        · exact hfiled.eq_of_mem_recordedKeys hitemFiled hkey
      -- a message that came later is beyond the proved prefix and every painted one
      have hbefore : message ∈ world.bus.messages := by
        rcases hlater.added message hmem with hold | hnew
        · exact hold
        · refine absurd hnew (not_lt.mpr ?_)
          rcases hmarks.2 with hle | hpainted
          · exact (hle.trans ((min_le_left _ _).trans (min_le_left _ _))).trans
              (prefixThrough_le_revision hcaptured hwithin hpage hitem)
          · have hshown := List.mem_of_mem_filter (List.mem_of_mem_filter hpainted)
            obtain ⟨shown, hshown, -, hseq⟩ := (hsequences _).mp hshown
            exact hseq ▸ (world.bus.bounded shown (hpage shown hshown)).2
      rcases DisplayedConversation.marks_cut hmarks with
        ⟨hpainted, hchosen, hle⟩ | ⟨hunpainted, hle⟩
      · obtain ⟨shown, hshown, -, hseq⟩ := (hsequences _).mp hpainted
        obtain rfl := world.bus.eq_of_seq (hpage shown hshown) hbefore hseq
        exact .inr ⟨hshown, hchosen, hle⟩
      · -- below the proved prefix it was painted, or read when the page was captured
        rw [hcaptured.viewer] at hprevious
        obtain ⟨cursor, hcursor, hread⟩ := forConversation_spec
          ((congrArg _ (canonicalName_idem snapshot viewer)).trans hthread) hitemFiled
        rw [hprevious] at hcursor
        cases hcursor
        rw [hproved] at hle
        have hpassed : message ∉ page := fun hshown =>
          hunpainted ((hsequences _).mpr ⟨message, hshown, hconversation, rfl⟩)
        exact .inl (hlater.recorded _ _ _ ((hread _).mp ((read_of_le_provedReadPrefix hbefore
          (condition_of_conversationOf hconversation (hplain hbefore hpassed))
          hle).resolve_left hunpainted)))
  · rintro (hrecorded | ⟨hshown, hchosen, hle⟩)
    · exact .inl hrecorded
    · obtain ⟨item, hitem, hfound⟩ := hcaptured.found message hshown
      rw [hconversation] at hfound
      cases hfound
      have hpainted : message.seq ∈ item.sequences :=
        ((hcaptured.item item hitem).2.1 _).mpr ⟨message, hshown, hconversation, rfl⟩
      refine .inr ⟨hbirth.symm, (item.select selected).through bound,
        List.mem_map_of_mem (List.mem_map_of_mem hitem), .inr hfiled.key_mem, ?_⟩
      refine ⟨(world.bus.bounded message (hpage message hshown)).1, .inr ?_⟩
      show message.seq ∈ (item.sequences.filter (· ∈ selected)).filter (· ≤ bound)
      simp only [List.mem_filter, decide_eq_true_eq]
      exact ⟨⟨hpainted, hchosen⟩, hle⟩

def sampleSnapshot : RegistrySnapshot where
  threads := (Dict.empty.set "alpha" sampleThread).set "beta"
    ⟨{ sampleFields with name := "beta", createdAt := .recorded 2 }, by decide⟩
  statuses := Dict.empty
  lastSeen := Dict.empty
  aliases := Dict.empty
  ownerGenerations := Dict.empty
  claimedGenerations := Dict.empty
  rowNames := by decide
  aliasNames := by decide
  distinctBirths := by decide

def sampleMessage (seq : Nat) : Message := ⟨seq, "beta", "alpha", [], true, true, by decide⟩

def sampleWorld (first : Message) : World where
  bus := ((ReadBus.empty (1, 1)).append first).append (sampleMessage 0)
  document := .empty

theorem sampleWorld_within (first : Message) :
    (sampleWorld first).document.Within (sampleWorld first).bus.revision :=
  fun _ _ n hread => absurd hread (not_mem_empty n)

theorem painted_marks_exactly_plain :
    PaintedExactly (fun _ => True) sampleSnapshot (sampleWorld (sampleMessage 0)) "alpha"
      [sampleMessage 2] [2] 2 [.append (sampleMessage 0)] := by
  intro basis hcapture
  obtain ⟨document, hmark, hread⟩ := painted_marks_exactly sampleSnapshot
    (sampleWorld (sampleMessage 0)) (sampleWorld_within _) "alpha" [sampleMessage 2] (by decide)
    [2] 2 [.append (sampleMessage 0)] basis hcapture
  have hplain : ∀ message ∈ (sampleWorld (sampleMessage 0)).bus.messages, message.Plain := by
    decide
  exact ⟨document, hmark, fun message hmem _ => hread message hmem fun hold _ => hplain _ hold⟩

/-- The same message with the thread sigil left on its stored target. -/
def sigilMessage (seq : Nat) : Message := ⟨seq, "beta", "@alpha", [], true, true, by decide⟩

/-- A stored target that keeps its sigil is outside the scope of its own
conversation, so the mark of a later message reads it unpainted. -/
theorem sigil_target_read_unpainted :
    (∀ message ∈ [sampleMessage 2], message ∈ (sampleWorld (sigilMessage 0)).bus.messages) ∧
    (sampleWorld (sigilMessage 0)).document.Within (sampleWorld (sigilMessage 0)).bus.revision ∧
    ¬ PaintedExactly (fun _ => True) sampleSnapshot (sampleWorld (sigilMessage 0)) "alpha"
      [sampleMessage 2] [2] 2 [] := by
  refine ⟨by decide, sampleWorld_within _, fun hexact => ?_⟩
  obtain ⟨document, hmark, hread⟩ := hexact _ rfl
  cases hmark
  have hfirst := hread (sigilMessage 1) (by decide) trivial _ rfl
  revert hfirst
  decide +kernel

end AgentComms.Reads
