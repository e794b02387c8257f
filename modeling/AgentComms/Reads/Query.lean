import AgentComms.Reads.Ledger

/-!
# Unread queries

One channel's unread count joins the rows of its scope with the reader's cursors,
spelled out for every (target, sender) pair their conversations resolve to. A row
without a cursor of its own is joined once; a row whose pair is spelled twice is
joined twice. `copies_eq` says how often one message is counted.
-/

namespace AgentComms.Reads

open Library Registry

/-- A thread name is neither empty nor a channel address. -/
def ThreadName (name : Name) : Prop := name ≠ "" ∧ namesChannel name = false

instance (name : Name) : Decidable (ThreadName name) := inferInstanceAs (Decidable (_ ∧ _))

/-! ### Scopes -/

inductive ChannelScope where
  | channel (name : String) (targets : List String)
  | allTargets (name : String)
  | memberActivity (name : String) (targets : List String) (participants : List Name)
deriving DecidableEq, Repr

/-- A scope's SQL predicate with its bound parameters, in their sorted order. -/
inductive Predicate where
  | targetIn (targets : List String)
  | everything
  | activity (targets : List String) (participants : List Name)
  | within (predicate : Predicate) (targets : List String)
deriving DecidableEq, Repr

def Predicate.selects : Predicate → Message → Bool
  | targetIn targets, message => message.target ∈ targets
  | everything, _ => true
  | activity targets participants, message =>
    message.target ∈ targets ∨ message.sender ∈ participants ∨
      (namesChannel message.target = false ∧ message.target ∈ participants) ∨
        ∃ mention ∈ message.mentions, mention ∈ participants
  | within predicate targets, message => predicate.selects message && message.target ∈ targets

namespace ChannelScope

def name : ChannelScope → String
  | channel name _ => name
  | allTargets name => name
  | memberActivity name _ _ => name

def targets : ChannelScope → List String
  | channel _ targets => targets
  | allTargets _ => []
  | memberActivity _ targets _ => targets

def indexPredicate : ChannelScope → Predicate
  | channel _ targets => .targetIn (sortedSet targets)
  | allTargets _ => .everything
  | memberActivity _ targets participants =>
    .activity (sortedSet targets) (sortedSet participants)

def inTargets (registry : RegistryPresence) (targets : List String) : Conversation → Bool
  | .all => true
  | .channel target => target ∈ targets
  | .direct participants => participants.any fun participant =>
    (registry.namesFor participant.name).any (· ∈ targets)

/-- A scope over arbitrary targets trims nothing. -/
def counted (scope : ChannelScope) (seen : ReadCursor) (registry : RegistryPresence) :
    List (Conversation × ConversationCursor) :=
  match scope with
  | channel _ targets =>
    seen.conversations.values.filter fun entry => inTargets registry targets entry.1
  | _ => seen.conversations.values

/-- The whole-bus prefix for arbitrary targets. -/
def lowerBound (scope : ChannelScope) (seen : ReadCursor) : Nat :=
  match scope with
  | channel _ targets =>
    ((targets.map fun target => (seen.forConversation (.channel target)).highWater).min?).getD 0
  | _ => (seen.forConversation .all).highWater

end ChannelScope

/-! ### Cursor rows -/

/-- One cursor on one (target, sender) pair; every row is the viewer's own. -/
structure CursorRow where
  target : String
  sender : String
  cursor : ConversationCursor
deriving DecidableEq

namespace CursorRow

def key (row : CursorRow) : String × String := (row.target, row.sender)

def wholeBus (row : CursorRow) : Bool := row.target = ""

end CursorRow

def Conversation.sqlKeys (registry : RegistryPresence) :
    Conversation → List (String × String)
  | all => [("", "")]
  | channel target => [(target, "")]
  | direct participants =>
    let namesOf (participant : Option Incarnation) : List Name :=
      (participant.map fun incarnation => registry.namesFor incarnation.name).getD []
    let pairs (senders targets : List Name) : List (String × String) :=
      senders.flatMap fun sender => targets.map fun target => (target, sender)
    let first := namesOf participants.head?
    let last := namesOf participants.getLast?
    pairs first last ++ pairs last first

def cursorRows (registry : RegistryPresence)
    (selected : List (Conversation × ConversationCursor)) : List CursorRow :=
  selected.flatMap fun entry => (entry.1.sqlKeys registry).map fun key =>
    ⟨key.1, key.2, entry.2⟩

/-! ### Queries and selections -/

structure UnreadQuery where
  channel : String
  cursors : List CursorRow
  lowerBound : Nat
  predicate : Predicate
  viewerNames : List Name
deriving DecidableEq

/-- `DisplayUnreadSelection`. Conversations are filed under their own keys, channel
conversations and scopes name channel addresses, and participants have thread
names. -/
structure Selection where
  seen : ReadCursor
  scopes : List ChannelScope
  viewerNames : List Name
  registry : RegistryPresence
  filed : ∀ entry ∈ seen.conversations.entries, entry.2.1.key = entry.1
  channels : ∀ entry ∈ seen.conversations.entries, ∀ target, entry.1 = .channel target →
    namesChannel target = true
  participants : ∀ entry ∈ seen.conversations.entries, ∀ members,
    entry.2.1 = .direct members → ∀ member ∈ members,
      ∀ name ∈ registry.namesFor member.name, ThreadName name
  targets : ∀ scope ∈ scopes, ∀ target ∈ scope.targets, namesChannel target = true

namespace Selection

def query (selection : Selection) (scope : ChannelScope) : UnreadQuery where
  channel := scope.name
  cursors := cursorRows selection.registry (scope.counted selection.seen selection.registry)
  lowerBound := scope.lowerBound selection.seen
  predicate := scope.indexPredicate
  viewerNames := selection.viewerNames

def queries (selection : Selection) : List UnreadQuery := selection.scopes.map selection.query

end Selection

/-! ### Counting -/

/-- The rows a `LEFT JOIN` pairs with one row on its left. -/
def leftJoin {α : Type} (rows : List α) : List (Option α) :=
  if rows = [] then [none] else rows.map some

namespace UnreadQuery

/-- The cursors that `joined_sql` pairs with one message. -/
def joined (query : UnreadQuery) (message : Message) : List (Option CursorRow × Option CursorRow) :=
  let read := query.cursors.filter fun row =>
    row.target = message.target ∧ (row.sender = "" ∨ row.sender = message.sender)
  let allRead := query.cursors.filter fun row => row.target = "" ∧ row.sender = ""
  (leftJoin read).flatMap fun first => (leftJoin allRead).map fun second => (first, second)

/-- `unread_sql` of one joined row. -/
def unread (message : Message) (cursors : Option CursorRow × Option CursorRow) : Bool :=
  let highWater (row : Option CursorRow) : Nat := (row.map (·.cursor.highWater)).getD 0
  max (highWater cursors.1) (highWater cursors.2) < message.seq ∧
    message.seq ∉ (cursors.1.map (·.cursor.exceptions)).getD []

variable (query : UnreadQuery)

def copies (message : Message) : Nat :=
  (query.joined message).countP (unread message)

/-- The messages a count looks at: a window of the scope without the viewer's own. -/
def counts (after through : Nat) (message : Message) : Bool :=
  max after query.lowerBound < message.seq ∧ message.seq ≤ through ∧
    query.predicate.selects message ∧ message.sender ∉ query.viewerNames

def countUnread (bus : ReadBus) (after through : Nat) : Nat :=
  ((bus.messages.filter (query.counts after through)).map query.copies).sum

/-! ### How often a message is counted -/

def rowsAt (key : String × String) : List CursorRow :=
  query.cursors.filter fun row => row.key = key

/-- How often a message under this pair is joined. -/
def repeats (key : String × String) : Nat := max 1 (query.rowsAt key).length

def cursorAt (key : String × String) : ConversationCursor :=
  ((query.rowsAt key).getLast?.map CursorRow.cursor).getD .empty

/-- Every row is spelled as one kind of conversation, and the whole bus at most once. -/
structure Spelled (query : UnreadQuery) : Prop where
  rows : ∀ row ∈ query.cursors, row.key = ("", "") ∨
    namesChannel row.target = true ∧ row.sender = "" ∨ ThreadName row.target ∧ row.sender ≠ ""
  single : (query.rowsAt ("", "")).length ≤ 1

def Consistent : Prop :=
  ∀ row ∈ query.cursors, ∀ other ∈ query.cursors, row.key = other.key → row = other

end UnreadQuery

/-- The pair under which the cursor of a message's conversation is spelled. -/
def Message.cursorKey (message : Message) : String × String :=
  if namesChannel message.target then (message.target, "") else (message.target, message.sender)

namespace UnreadQuery

variable {query : UnreadQuery}

theorem namesChannel_ne_empty {text : String} (hchannel : namesChannel text = true) :
    text ≠ "" := by
  rintro rfl
  exact absurd hchannel (by decide)

/-- The join condition holds exactly of the rows under the message's own pair. -/
theorem filter_read (hspelled : query.Spelled) (message : Message) :
    (query.cursors.filter fun row =>
      row.target = message.target ∧ (row.sender = "" ∨ row.sender = message.sender)) =
      query.rowsAt message.cursorKey := by
  refine List.filter_congr fun row hmem => ?_
  rw [decide_eq_decide, CursorRow.key, Message.cursorKey]
  have haddressed := message.addressed
  rcases hspelled.rows row hmem with hwhole | ⟨hchannel, hsender⟩ | ⟨hthread, hsender⟩
  · -- no message is addressed to the empty target
    have htarget : row.target = "" := congrArg Prod.fst hwhole
    rw [htarget]
    split <;> simp [Prod.ext_iff, haddressed.symm]
  · rw [hsender]
    by_cases hsame : row.target = message.target
    · rw [← hsame, hchannel]
      simp
    · split <;> simp [hsame]
  · by_cases hsame : row.target = message.target
    · rw [← hsame, hthread.2]
      simp [hsender]
    · split <;> simp [hsame]

theorem filter_wholeBus :
    (query.cursors.filter fun row => row.target = "" ∧ row.sender = "") =
      query.rowsAt ("", "") := by
  refine List.filter_congr fun row _ => ?_
  rw [decide_eq_decide, CursorRow.key, Prod.mk.injEq]

theorem rowsAt_eq_replicate (hconsistent : query.Consistent) (key : String × String)
    {row : CursorRow} (hmem : row ∈ query.rowsAt key) :
    query.rowsAt key = List.replicate (query.rowsAt key).length row := by
  rw [rowsAt, List.mem_filter, decide_eq_true_iff] at hmem
  refine List.eq_replicate_iff.mpr ⟨rfl, fun other hother => ?_⟩
  rw [rowsAt, List.mem_filter, decide_eq_true_iff] at hother
  exact hconsistent other hother.1 row hmem.1 (hother.2.trans hmem.2.symm)

/-- The whole-bus side of the join is one row, with its prefix or none. -/
theorem leftJoin_wholeBus (hspelled : query.Spelled) :
    ∃ allRead, leftJoin (query.rowsAt ("", "")) = [allRead] ∧
      (allRead.map (·.cursor.highWater)).getD 0 = (query.cursorAt ("", "")).highWater := by
  have hsingle := hspelled.single
  unfold cursorAt leftJoin
  match hrows : query.rowsAt ("", "") with
  | [] => exact ⟨none, rfl, rfl⟩
  | [row] => exact ⟨some row, rfl, rfl⟩
  | _ :: _ :: _ =>
    rw [hrows] at hsingle
    exact absurd hsingle (by simp)

/-- A joined row is unread exactly when neither cursor contains the message. -/
theorem unread_iff {message : Message} (hpos : 0 < message.seq) (read allRead : Option CursorRow) :
    unread message (read, allRead) = true ↔
      ¬ (message.seq ∈ (read.map CursorRow.cursor).getD .empty ∨
        message.seq ≤ (allRead.map (·.cursor.highWater)).getD 0) := by
  rw [unread, decide_eq_true_iff, not_or, ConversationCursor.mem_iff]
  cases read with
  | none =>
    simp only [Option.map_none, Option.getD_none, ConversationCursor.empty, List.not_mem_nil,
      not_false_eq_true, and_true, or_false]
    omega
  | some row =>
    simp only [Option.map_some, Option.getD_some, not_or]
    by_cases hmem : message.seq ∈ row.cursor.exceptions
    · simp [hmem]
    · simp only [hmem, not_false_eq_true, and_true]
      omega

/-- The reader's side of the join repeats one row. -/
theorem leftJoin_rowsAt (hconsistent : query.Consistent) (key : String × String) :
    ∃ read, leftJoin (query.rowsAt key) = List.replicate (query.repeats key) read ∧
      (read.map CursorRow.cursor).getD .empty = query.cursorAt key := by
  unfold cursorAt repeats leftJoin
  cases hrows : query.rowsAt key with
  | nil => exact ⟨none, rfl, rfl⟩
  | cons row =>
    have hreplicate := rowsAt_eq_replicate hconsistent key (hrows ▸ List.mem_cons_self)
    rw [hrows] at hreplicate
    refine ⟨some row, ?_, ?_⟩
    · rw [if_neg (List.cons_ne_nil _ _), hreplicate, List.map_replicate, List.length_replicate,
        List.length_cons, max_eq_right (Nat.succ_pos _)]
    · rw [hreplicate, List.length_cons, List.getLast?_replicate]
      rfl

/-- A message is counted once for each time its pair is spelled, unless it is read. -/
theorem copies_eq (hspelled : query.Spelled) (hconsistent : query.Consistent)
    {message : Message} (hpos : 0 < message.seq) :
    query.copies message = if message.seq ∈ query.cursorAt message.cursorKey ∨
        message.seq ≤ (query.cursorAt ("", "")).highWater then 0
      else query.repeats message.cursorKey := by
  obtain ⟨allRead, hall, hwhole⟩ := leftJoin_wholeBus hspelled
  obtain ⟨read, hread, hcursor⟩ := leftJoin_rowsAt hconsistent message.cursorKey
  have hunread := unread_iff hpos read allRead
  rw [hcursor, hwhole] at hunread
  have hjoined : query.copies message = if unread message (read, allRead) then
      query.repeats message.cursorKey else 0 := by
    rw [copies, joined, filter_read hspelled, filter_wholeBus, hall, hread]
    simp only [List.map_cons, List.map_nil, ← List.map_eq_flatMap, List.map_replicate,
      List.countP_replicate]
  rw [hjoined]
  by_cases hmem : message.seq ∈ query.cursorAt message.cursorKey ∨
      message.seq ≤ (query.cursorAt ("", "")).highWater
  · rw [if_pos hmem, if_neg fun h => hunread.mp h hmem]
  · rw [if_neg hmem, if_pos (hunread.mpr hmem)]

end UnreadQuery

end AgentComms.Reads
