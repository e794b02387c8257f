import AgentComms.Reads.Conversations
import AgentComms.Reads.Cursor

/-!
# The read ledger

A reader's page is captured as a display basis: per conversation the painted
sequences and a prefix proved from the history and the reader's cursor. A later
mark merges the basis, cut to what was painted, into the ledger. The lemmas state
each operation by the sequences it makes readable.
-/

namespace AgentComms.Reads

open Library Registry

inductive ReadError where
  | registry (error : RegistryError)
  | scopeChanged (text : String)
deriving DecidableEq, Repr

/-! ### The bus as readers see it -/

/-- The messages of one bus file. Records that are no messages only raise the
revision. -/
structure ReadBus where
  /-- The device and inode of the file. -/
  identity : Nat × Nat
  revision : Nat
  messages : List Message
  ordered : messages.Pairwise fun a b => a.seq < b.seq
  bounded : ∀ message ∈ messages, 0 < message.seq ∧ message.seq ≤ revision

namespace ReadBus

def empty (identity : Nat × Nat) : ReadBus := ⟨identity, 0, [], List.Pairwise.nil, nofun⟩

def advance (bus : ReadBus) : ReadBus where
  identity := bus.identity
  revision := bus.revision + 1
  messages := bus.messages
  ordered := bus.ordered
  bounded := fun message hmem =>
    ⟨(bus.bounded message hmem).1, (bus.bounded message hmem).2.trans (Nat.le_succ _)⟩

def append (bus : ReadBus) (draft : Message) : ReadBus where
  identity := bus.identity
  revision := bus.revision + 1
  messages := bus.messages ++ [{ draft with seq := bus.revision + 1 }]
  ordered := by
    refine List.pairwise_append.mpr ⟨bus.ordered, List.pairwise_singleton _ _, ?_⟩
    intro message hmem later hlater
    rw [List.mem_singleton.mp hlater]
    exact Nat.lt_succ_of_le (bus.bounded message hmem).2
  bounded := by
    intro message hmem
    rcases List.mem_append.mp hmem with hold | hnew
    · exact ⟨(bus.bounded message hold).1, (bus.bounded message hold).2.trans (Nat.le_succ _)⟩
    · rw [List.mem_singleton.mp hnew]
      exact ⟨Nat.succ_pos _, le_rfl⟩

theorem eq_of_seq (bus : ReadBus) {a b : Message} (ha : a ∈ bus.messages)
    (hb : b ∈ bus.messages) (hseq : a.seq = b.seq) : a = b := by
  have hinj : (bus.messages.map Message.seq).Pairwise (· < ·) := List.pairwise_map.mpr bus.ordered
  exact List.inj_on_of_nodup_map (hinj.imp ne_of_lt) ha hb hseq

end ReadBus

/-! ### Displayed conversations -/

structure DisplayedConversation where
  conversation : Conversation
  sequences : List Nat
  prefixThrough : Nat
deriving DecidableEq, Repr

namespace DisplayedConversation

/-- The first member of an increasing list that was not selected, if any. -/
def omitted (item : DisplayedConversation) (selected : List Nat) : Nat :=
  ((item.sequences.filter (· ∉ selected)).min?).getD (item.prefixThrough + 1)

def select (item : DisplayedConversation) (selected : List Nat) : DisplayedConversation where
  conversation := item.conversation
  sequences := item.sequences.filter (· ∈ selected)
  prefixThrough := min item.prefixThrough (item.omitted selected - 1)

def through (item : DisplayedConversation) (bound : Nat) : DisplayedConversation where
  conversation := item.conversation
  sequences := item.sequences.filter (· ≤ bound)
  prefixThrough := min item.prefixThrough bound

/-- The sequences that a mark of this item makes readable. -/
def Marks (item : DisplayedConversation) (n : Nat) : Prop :=
  0 < n ∧ (n ≤ item.prefixThrough ∨ n ∈ item.sequences)

/-- A cut item marks a prefix of what was painted and the painted selection. -/
theorem marks_cut {item : DisplayedConversation} {selected : List Nat} {bound n : Nat}
    (hmarks : ((item.select selected).through bound).Marks n) :
    n ∈ item.sequences ∧ n ∈ selected ∧ n ≤ bound ∨
      n ∉ item.sequences ∧ n ≤ item.prefixThrough := by
  obtain ⟨hpos, hmarks⟩ := hmarks
  rcases hmarks with hle | hmem
  · have hle' : n ≤ min (min item.prefixThrough (item.omitted selected - 1)) bound := hle
    by_cases hmem : n ∈ item.sequences
    · refine .inl ⟨hmem, ?_, by omega⟩
      by_contra hnot
      -- an omitted member cuts the prefix below itself
      have hfiltered : n ∈ item.sequences.filter (· ∉ selected) :=
        List.mem_filter.mpr ⟨hmem, by simpa using hnot⟩
      have hmin : item.omitted selected ≤ n := by
        unfold omitted
        rw [List.min?_eq_some_min (List.ne_nil_of_mem hfiltered), Option.getD_some]
        exact List.min_le_of_mem hfiltered
      omega
    · exact .inr ⟨hmem, by omega⟩
  · have hmem : n ∈ (item.sequences.filter (· ∈ selected)).filter (· ≤ bound) := hmem
    simp only [List.mem_filter, decide_eq_true_eq] at hmem
    exact .inl ⟨hmem.1.1, hmem.1.2, hmem.2⟩

end DisplayedConversation

/-! ### Read cursors -/

/-- One owner's cursors, by conversation. An entry keeps the conversation it was
first filed under, whose names an equal key may spell differently. -/
structure ReadCursor where
  conversations : Dict ConversationKey (Conversation × ConversationCursor)
deriving DecidableEq

namespace ReadCursor

def empty : ReadCursor := ⟨Dict.empty⟩

/-- `conversations.get(key, ConversationCursor())`. -/
def cursorOf (cursor : ReadCursor) (key : ConversationKey) : ConversationCursor :=
  ((cursor.conversations.get? key).map Prod.snd).getD .empty

/-- A whole-bus read applies to every conversation. -/
def forConversation (cursor : ReadCursor) (key : ConversationKey) : ConversationCursor :=
  .union [cursor.cursorOf .all, cursor.cursorOf key]

def addItem (cursor : ReadCursor) (item : DisplayedConversation) : ReadCursor :=
  let key := item.conversation.key
  let filed := ((cursor.conversations.get? key).map Prod.fst).getD item.conversation
  ⟨cursor.conversations.set key
    (filed, ((cursor.cursorOf key).through item.prefixThrough).add item.sequences)⟩

def add (cursor : ReadCursor) (displayed : List DisplayedConversation) : ReadCursor :=
  displayed.foldl addItem cursor

theorem mem_cursorOf_addItem {cursor : ReadCursor} {item : DisplayedConversation}
    {key : ConversationKey} {n : Nat} :
    n ∈ (cursor.addItem item).cursorOf key ↔
      n ∈ cursor.cursorOf key ∨ item.conversation.key = key ∧ item.Marks n := by
  unfold addItem
  rw [cursorOf, Dict.get?_set]
  by_cases hkey : key = item.conversation.key
  · rw [if_pos hkey, Option.map_some, Option.getD_some, ConversationCursor.mem_add,
      ConversationCursor.mem_through, hkey, DisplayedConversation.Marks]
    tauto
  · rw [if_neg hkey]
    exact ⟨.inl, fun hread => hread.resolve_right fun hitem => hkey hitem.1.symm⟩

/-- Adding items makes exactly their own marks readable. -/
theorem mem_cursorOf_add {cursor : ReadCursor} {displayed : List DisplayedConversation}
    {key : ConversationKey} {n : Nat} :
    n ∈ (cursor.add displayed).cursorOf key ↔
      n ∈ cursor.cursorOf key ∨ ∃ item ∈ displayed, item.conversation.key = key ∧ item.Marks n := by
  unfold add
  induction displayed generalizing cursor with
  | nil => simp
  | cons item displayed ih =>
    rw [List.foldl_cons, ih, mem_cursorOf_addItem, List.exists_mem_cons_iff, or_assoc]

end ReadCursor

/-! ### The document -/

/-- What a page showed a viewer of one bus file. -/
structure DisplayBasis where
  viewer : Name
  viewerBirth : Nat
  conversations : List DisplayedConversation
  busIdentity : Nat × Nat
deriving DecidableEq, Repr

/-- Retain painted members, never introduce new ones. -/
def DisplayBasis.select (basis : DisplayBasis) (selected : List Nat) : DisplayBasis :=
  { basis with conversations := basis.conversations.map (·.select selected) }

def DisplayBasis.through (basis : DisplayBasis) (bound : Nat) : DisplayBasis :=
  { basis with conversations := basis.conversations.map (·.through bound) }

/-- The cursors of every owner, by birth, on one bus file. -/
structure ReadDocument where
  messages : Dict Nat ReadCursor
  busIdentity : Option (Nat × Nat)
deriving DecidableEq

namespace ReadDocument

def empty : ReadDocument := ⟨Dict.empty, none⟩

variable (document : ReadDocument)

def cursorOf (birth : Nat) : ReadCursor :=
  (document.messages.get? birth).getD .empty

/-- One for each retained name of the viewer. -/
def cursors (viewer : Name) (snapshot : RegistrySnapshot)
    (bus : ReadBus) : Except ReadError (List ReadCursor) :=
  if document.busIdentity = some bus.identity then do
    let name := snapshot.canonicalName viewer
    let thread ← orRefuse (snapshot.threads.get? name) (.registry (.keyError name))
    let owners := (Incarnation.mk thread.name (some thread.birth)).recordedNames snapshot
    pure (owners.map fun owner => (owner.birth.map document.cursorOf).getD .empty)
  else pure []

def forConversation (document : ReadDocument) (viewer : Name) (conversation : Conversation)
    (snapshot : RegistrySnapshot) (bus : ReadBus) : Except ReadError ConversationCursor := do
  let cursors ← document.cursors viewer snapshot bus
  let keys := conversation.recordedKeys snapshot
  pure (.union (cursors.flatMap fun cursor => keys.map cursor.forConversation))

/-- A document of another bus starts over. -/
def markDisplayed (viewer : Name) (displayed : DisplayBasis)
    (bus : ReadBus) : Except ReadError ReadDocument := do
  require (displayed.busIdentity = bus.identity)
    (.scopeChanged "Display bus changed; refresh the displayed page.")
  require (viewer = displayed.viewer) (.scopeChanged "Display belongs to a different viewer.")
  let kept := if document.busIdentity = some displayed.busIdentity then document
    else ⟨Dict.empty, some displayed.busIdentity⟩
  pure ⟨kept.messages.set displayed.viewerBirth
    ((kept.cursorOf displayed.viewerBirth).add displayed.conversations),
    some displayed.busIdentity⟩

end ReadDocument

/-! ### Capturing a page -/

/-- File one message of the page under its conversation. -/
def groupMessage (snapshot : RegistrySnapshot)
    (grouped : Dict ConversationKey (Conversation × List Nat)) (message : Message) :
    Checked (Dict ConversationKey (Conversation × List Nat)) := do
  let conversation ← conversationOf snapshot message
  let members := (grouped.get? conversation.key).getD (conversation, [])
  pure (grouped.set conversation.key (members.1, message.seq :: members.2))

/-- Up to the first scoped row that is neither painted nor read. -/
def provedReadPrefix (bus : ReadBus) (scope : Scope) (previous : ConversationCursor)
    (sequences : List Nat) : Nat :=
  let through := (sequences ++ previous.exceptions ++ [previous.highWater]).foldr max 0
  let missing := bus.messages.filter fun message =>
    scope.condition message ∧ message.seq ∉ sequences ++ previous.exceptions ∧
      previous.highWater < message.seq ∧ message.seq < through + 1
  match missing.head? with
  | some message => message.seq - 1
  | none => through

def capture (viewer : Name) (page : List Message) (snapshot : RegistrySnapshot) (bus : ReadBus)
    (document : ReadDocument) : Except ReadError DisplayBasis := do
  let viewer := snapshot.canonicalName viewer
  let grouped ← (page.foldlM (groupMessage snapshot) Dict.empty).mapError .registry
  let thread ← orRefuse (snapshot.threads.get? viewer) (.registry (.keyError viewer))
  let conversations ← grouped.values.mapM fun members => do
    let sequences := sortedSet members.2
    let previous ← document.forConversation viewer members.1 snapshot bus
    pure (DisplayedConversation.mk members.1 sequences
      (provedReadPrefix bus (members.1.scope snapshot) previous sequences))
  pure ⟨viewer, thread.birth, conversations, bus.identity⟩

end AgentComms.Reads
