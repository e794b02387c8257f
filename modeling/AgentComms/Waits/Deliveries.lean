import AgentComms.Library.Paging

/-!
# Deliveries on the bus

The frozen deliveries of the bus, as a dependency wait reads them: who sent a message,
whom it addressed, and whether it starts a direct turn (`bus_publication.py`,
`response_policy.py`). The index of direct replies (`DirectReplySource`) is written when a
message is appended, from the names it was sent under; a direct message addresses its one
recipient by the stored target, so the index holds exactly the direct messages.

A thread lookup is a digest of the thread's birth; the birth stands for it.
-/

namespace AgentComms.Waits

open Library

/-! ### Messages -/

inductive CommandTarget where
  | thread (name : String)
  | channel (name : String)
deriving DecidableEq, Repr

namespace CommandTarget

def name : CommandTarget → String
  | thread name | channel name => name

def directNames : CommandTarget → List String
  | thread name => [name]
  | channel _ => []

end CommandTarget

structure FrozenRecipient where
  recipientLookup : Nat
  canonicalThread : String
deriving DecidableEq, Repr

inductive ResponsePolicy where
  | direct
  | collective
  | mentioned
  | informational
deriving DecidableEq, Repr

namespace ResponsePolicy

def startsTurn : ResponsePolicy → Bool
  | direct | collective | mentioned => true
  | informational => false

def separateTurn (policy : ResponsePolicy) : Bool := policy = direct

def startsDirectTurn (policy : ResponsePolicy) : Bool := policy.startsTurn && policy.separateTurn

/-- `ChannelTarget.response_policy`. -/
def ofChannel (mentions : List String) (addressesAll : Bool) : ResponsePolicy :=
  if mentions ≠ [] then mentioned else if addressesAll then collective else informational

/-- `required_responders`, of an audience of one name. -/
def requires (mentions : List String) (name : String) : ResponsePolicy → Bool
  | direct | informational => false
  | collective => true
  | mentioned => name ∈ mentions

end ResponsePolicy

/-- A message with its frozen audience. `conversation` says that its role and its kind are a
current conversation's, and `collective` that its sender's role addresses a channel as a
whole (`channel_policy`). -/
structure AudiencedMessage where
  sender : String
  senderLookup : Nat
  target : CommandTarget
  conversation : Bool
  collective : Bool
  mentions : List String
  recipients : List FrozenRecipient
  body : String
deriving DecidableEq, Repr

namespace AudiencedMessage

variable (message : AudiencedMessage)

def responsePolicy : ResponsePolicy :=
  if message.conversation then
    match message.target with
    | .thread _ => .direct
    | .channel _ => .ofChannel message.mentions message.collective
  else .informational

def startsDirectTurn : Bool := message.responsePolicy.startsDirectTurn

def awaitsAnswerFrom (name : String) : Bool :=
  message.sender = name || message.target.name = name ||
    message.responsePolicy.requires message.mentions name

def includesLookup (lookup : Nat) : Bool :=
  message.recipients.any fun recipient => recipient.recipientLookup = lookup

def directFor (lookup : Nat) : Bool :=
  message.startsDirectTurn && message.includesLookup lookup

end AudiencedMessage

/-- A stored delivery: a direct one addresses its recipients by the stored target. -/
structure Delivered extends AudiencedMessage where
  seq : Nat
  addressed : toAudiencedMessage.startsDirectTurn = true → ∀ recipient ∈ recipients,
    target.name = recipient.canonicalThread
deriving DecidableEq

inductive Publication where
  /-- `publish_ordinary`: the wake resolution requires the one recipient the target names. -/
  | initial (message : AudiencedMessage)
  /-- A keyed response: `response_recipients` selects from the original conversations. -/
  | response (message : AudiencedMessage)
deriving DecidableEq, Repr

def CommandTarget.responseRecipients (target : CommandTarget) (members : List FrozenRecipient) :
    List FrozenRecipient :=
  members.filter fun member => target.directNames = [] || member.canonicalThread ∈ target.directNames

theorem AudiencedMessage.target_of_startsDirectTurn {message : AudiencedMessage}
    (hdirect : message.startsDirectTurn = true) : message.target = .thread message.target.name := by
  cases htarget : message.target with
  | thread => rfl
  | channel =>
    simp only [startsDirectTurn, responsePolicy, ResponsePolicy.ofChannel, htarget] at hdirect
    split at hdirect
    · split at hdirect
      · cases hdirect
      · split at hdirect <;> cases hdirect
    · cases hdirect

/-- The record a publication appends, if its checks pass. -/
def Publication.deliver (seq : Nat) : Publication → Option Delivered
  | initial message =>
    if hexact : message.startsDirectTurn = true →
        message.recipients.map FrozenRecipient.canonicalThread = message.target.directNames then
      some {
        toAudiencedMessage := message
        seq := seq
        addressed := by
          intro hdirect recipient hmem
          have hnames := hexact hdirect
          rw [AudiencedMessage.target_of_startsDirectTurn hdirect] at hnames
          have hname : recipient.canonicalThread ∈ [message.target.name] := by
            rw [← CommandTarget.directNames, ← hnames]
            exact List.mem_map_of_mem hmem
          exact (List.mem_singleton.mp hname).symm }
    else none
  | response message =>
    some {
      toAudiencedMessage :=
        { message with recipients := message.target.responseRecipients message.recipients }
      seq := seq
      addressed := by
        intro hdirect recipient hmem
        have htarget : message.target = .thread message.target.name :=
          AudiencedMessage.target_of_startsDirectTurn hdirect
        have hkept := (List.mem_filter.mp hmem).2
        rw [htarget] at hkept
        simpa [CommandTarget.directNames, CommandTarget.name, eq_comm] using hkept }

theorem Publication.deliver_seq {publication : Publication} {seq : Nat} {delivered : Delivered}
    (hdelivered : publication.deliver seq = some delivered) : delivered.seq = seq := by
  cases publication with
  | initial =>
    simp only [deliver] at hdelivered
    split at hdelivered <;> cases hdelivered
    rfl
  | response =>
    cases hdelivered
    rfl

/-! ### The log -/

/-- The deliveries in order of their sequence; other records take sequences too. -/
structure BusLog where
  lastSeq : Nat
  deliveries : List Delivered
  bounded : ∀ delivery ∈ deliveries, delivery.seq ≤ lastSeq
  ordered : deliveries.Pairwise fun delivery later => delivery.seq < later.seq

namespace BusLog

def empty : BusLog where
  lastSeq := 0
  deliveries := []
  bounded := fun _ hmem => by cases hmem
  ordered := .nil

variable (log : BusLog)

def append (publication : Publication) : BusLog :=
  match hdelivered : publication.deliver (log.lastSeq + 1) with
  | none => log
  | some delivered =>
    { lastSeq := log.lastSeq + 1
      deliveries := log.deliveries ++ [delivered]
      bounded := by
        intro delivery hmem
        rcases List.mem_append.mp hmem with hold | hnew
        · exact Nat.le_succ_of_le (log.bounded delivery hold)
        · rw [List.mem_singleton.mp hnew, Publication.deliver_seq hdelivered]
      ordered := by
        refine List.pairwise_append.mpr ⟨log.ordered, List.pairwise_singleton _ _, ?_⟩
        intro delivery hold other hnew
        rw [List.mem_singleton.mp hnew, Publication.deliver_seq hdelivered]
        exact Nat.lt_succ_of_le (log.bounded delivery hold) }

def appendOther : BusLog :=
  { log with
    lastSeq := log.lastSeq + 1
    bounded := fun delivery hmem => Nat.le_succ_of_le (log.bounded delivery hmem) }

/-- `DirectReplySource.query`: the indexed rows of a recipient, from these senders if any are
given. -/
def indexed (lookup : Nat) (senders : List Nat) (delivery : Delivered) : Bool :=
  delivery.startsDirectTurn &&
    delivery.recipients.any (fun recipient => recipient.recipientLookup = lookup &&
      delivery.awaitsAnswerFrom recipient.canonicalThread) &&
    (senders = [] || delivery.senderLookup ∈ senders)

def replySource (lookup : Nat) (senders : List Nat) : List Delivered :=
  log.deliveries.filter (indexed lookup senders)

/-- `direct_replies` after a sequence, oldest first. -/
def directReplies (lookup after limit : Nat) (senders : List Nat) : List Delivered :=
  page Delivered.seq limit (log.replySource lookup senders) after

/-- `direct_replies` at these sequences. -/
def directRepliesAt (lookup : Nat) (sequences senders : List Nat) : List Delivered :=
  ((log.replySource lookup senders).filter fun delivery => delivery.seq ∈ sequences).take
    sequences.length

def receivedAfter (lookup after : Nat) : Bool :=
  log.deliveries.any fun delivery => after < delivery.seq && delivery.includesLookup lookup

/-- The review's loop over pages of a hundred. -/
def repliesAfter (lookup after : Nat) (senders : List Nat) : List Delivered :=
  pages Delivered.seq 100 (log.replySource lookup senders) (log.deliveries.length + 1) after

variable {log}

/-! ### The index holds the direct messages -/

theorem indexed_iff {lookup : Nat} {senders : List Nat} {delivery : Delivered} :
    indexed lookup senders delivery = true ↔
      delivery.directFor lookup = true ∧ (senders = [] ∨ delivery.senderLookup ∈ senders) := by
  simp only [indexed, AudiencedMessage.directFor, AudiencedMessage.includesLookup,
    Bool.and_eq_true, Bool.or_eq_true, decide_eq_true_eq, List.any_eq_true]
  constructor
  · rintro ⟨⟨hdirect, recipient, hmem, hlookup, -⟩, hsender⟩
    exact ⟨⟨hdirect, recipient, hmem, hlookup⟩, hsender⟩
  · rintro ⟨⟨hdirect, recipient, hmem, hlookup⟩, hsender⟩
    -- the target names the recipient, so the row was written
    have hnamed := delivery.addressed hdirect recipient hmem
    exact ⟨⟨hdirect, recipient, hmem, hlookup, by simp [AudiencedMessage.awaitsAnswerFrom, hnamed]⟩,
      hsender⟩

/-- The loop reads every direct message after its cursor. -/
theorem mem_repliesAfter {lookup after : Nat} {senders : List Nat} {delivery : Delivered} :
    delivery ∈ log.repliesAfter lookup after senders ↔
      delivery ∈ log.deliveries ∧ delivery.directFor lookup = true ∧
        (senders = [] ∨ delivery.senderLookup ∈ senders) ∧ after < delivery.seq := by
  have hfuel : ((log.replySource lookup senders).filter fun delivery =>
      after < delivery.seq).length < log.deliveries.length + 1 := by
    have hfirst := List.length_filter_le (fun delivery : Delivered => decide (after < delivery.seq))
      (log.replySource lookup senders)
    have hsecond : (log.replySource lookup senders).length ≤ log.deliveries.length :=
      List.length_filter_le _ _
    omega
  have hordered : (log.replySource lookup senders).Pairwise fun delivery later =>
    delivery.seq < later.seq := log.ordered.filter _
  rw [repliesAfter, pages_eq hordered (by decide) hfuel]
  simp only [replySource, List.mem_filter, indexed_iff, decide_eq_true_eq, and_assoc]

/-! ### The log only grows -/

/-- Every delivery of the earlier log is in the later one, and a new one has a later
sequence. -/
structure Grows (log later : BusLog) : Prop where
  last : log.lastSeq ≤ later.lastSeq
  keeps : ∀ delivery ∈ log.deliveries, delivery ∈ later.deliveries
  fresh : ∀ delivery ∈ later.deliveries, delivery ∈ log.deliveries ∨ log.lastSeq < delivery.seq

namespace Grows

variable {middle later : BusLog}

theorem refl (log : BusLog) : log.Grows log :=
  ⟨le_rfl, fun _ hmem => hmem, fun _ hmem => .inl hmem⟩

theorem trans (hfirst : log.Grows middle) (hrest : middle.Grows later) : log.Grows later where
  last := hfirst.last.trans hrest.last
  keeps := fun delivery hmem => hrest.keeps delivery (hfirst.keeps delivery hmem)
  fresh := by
    intro delivery hmem
    rcases hrest.fresh delivery hmem with hmiddle | hnew
    · exact hfirst.fresh delivery hmiddle
    · exact .inr (lt_of_le_of_lt hfirst.last hnew)

end Grows

theorem append_grows (log : BusLog) (publication : Publication) :
    log.Grows (log.append publication) := by
  unfold append
  split
  · exact .refl log
  next delivered hdelivered =>
    refine ⟨Nat.le_succ _, fun _ hmem => List.mem_append_left _ hmem, ?_⟩
    intro delivery hmem
    rcases List.mem_append.mp hmem with hold | hnew
    · exact .inl hold
    · rw [List.mem_singleton.mp hnew, Publication.deliver_seq hdelivered]
      exact .inr (Nat.lt_succ_self _)

theorem appendOther_grows (log : BusLog) : log.Grows log.appendOther :=
  ⟨Nat.le_succ _, fun _ hmem => hmem, fun _ hmem => .inl hmem⟩

end BusLog

end AgentComms.Waits
