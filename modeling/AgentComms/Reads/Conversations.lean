import AgentComms.Library.Bisect
import AgentComms.Registry.Document

/-!
# Conversations and their display scopes

A message belongs to the conversation of its parsed target and its sender. The
display scope of a conversation selects rows by the recorded sender and target
texts instead. `condition_of_conversationOf` says when the two agree, and
`eq_of_mem_recordedKeys` that the alias spellings of one conversation never reach
another.
-/

namespace AgentComms.Reads

open Library Registry

/-- What the read ledger and the unread count read of a bus message. -/
structure Message where
  seq : Nat
  sender : Name
  target : String
  /-- The threads its body mentions. -/
  mentions : List Name
  /-- Its role and its kind are a current conversation's. -/
  conversation : Bool
  /-- Its sender's role addresses a channel as a whole. -/
  collective : Bool
  addressed : target ≠ ""
deriving DecidableEq, Repr

/-! ### Targets -/

inductive NamedTarget where
  | threadTarget (name : Name)
  | channelTarget (name : String)
deriving DecidableEq, Repr

/-- `text.removeprefix("@")`. -/
def withoutSigil (text : String) : String :=
  match text.toList with
  | '@' :: name => String.ofList name
  | _ => text

def namesChannel (name : String) : Bool := name.toList.head? = some '#'

def named (text : String) : Checked NamedTarget := do
  require (text ≠ "") (.valueError "Select a named target")
  let name := withoutSigil text
  require (name ≠ "") (.valueError "Select a named target")
  pure (if namesChannel name then .channelTarget name else .threadTarget name)

/-- The target text names its destination itself, without the thread sigil. -/
def Message.Plain (message : Message) : Prop := withoutSigil message.target = message.target

instance (message : Message) : Decidable message.Plain :=
  inferInstanceAs (Decidable (_ = _))

/-! ### Participants -/

/-- A participant's name and birth; a deleted participant has no birth. -/
structure Incarnation where
  name : Name
  birth : Option Nat
deriving DecidableEq, Repr

/-- What equality of incarnations compares: a recorded birth, or a deleted name. -/
inductive ParticipantKey where
  | recorded (birth : Nat)
  | deleted (name : Name)
deriving DecidableEq, Repr

def Incarnation.key (incarnation : Incarnation) : ParticipantKey :=
  match incarnation.birth with
  | some birth => .recorded birth
  | none => .deleted incarnation.name

def incarnationOf : RegistrySnapshot.Participant → Incarnation
  | .thread thread => ⟨thread.name, some thread.birth⟩
  | .deletedThread name => ⟨name, none⟩

def Incarnation.resolved (incarnation : Incarnation) (snapshot : RegistrySnapshot) : Incarnation :=
  match incarnation.birth, snapshot.threads.get? (snapshot.canonicalName incarnation.name) with
  | some birth, some thread =>
    if thread.birth = birth then ⟨thread.name, some thread.birth⟩ else incarnation
  | _, _ => incarnation

def Incarnation.recordedNames (incarnation : Incarnation) (snapshot : RegistrySnapshot) :
    List Incarnation :=
  let canonical := incarnation.resolved snapshot
  canonical :: (snapshot.aliases.filter fun _ name => name = canonical.name).keys.map
    fun former => { canonical with name := former }

/-! ### Conversations -/

inductive Conversation where
  | all
  | channel (target : String)
  | direct (participants : List Incarnation)
deriving DecidableEq, Repr

inductive ConversationKey where
  | all
  | channel (target : String)
  | direct (participants : List ParticipantKey)
deriving DecidableEq, Repr

namespace Conversation

def key : Conversation → ConversationKey
  | all => .all
  | channel target => .channel target
  | direct participants => .direct (participants.map Incarnation.key)

/-- Every spelling under which earlier reads of this conversation may be filed. -/
def recordedKeys (snapshot : RegistrySnapshot) : Conversation → List ConversationKey
  | all => [.all]
  | channel target => [.channel target]
  | direct participants =>
    ((participants.map fun participant => participant.recordedNames snapshot).sections).map
      fun spelling => .direct
        ((spelling.insertionSort fun a b => a.name ≤ b.name).map Incarnation.key)

end Conversation

/-- `ReadLedger.conversation`. -/
def conversationOf (snapshot : RegistrySnapshot) (message : Message) : Checked Conversation := do
  match ← named message.target with
  | .channelTarget name => pure (.channel name)
  | .threadTarget name => do
      let names := sortedSet
        [snapshot.canonicalName message.sender, snapshot.canonicalName name]
      let participants ← names.mapM snapshot.participant
      pure (.direct (participants.map incarnationOf))

/-! ### Display scopes -/

inductive Scope where
  | allTargets
  | channel (targets : List String)
  | direct (first second : List Name)
deriving DecidableEq, Repr

def Scope.condition : Scope → Message → Bool
  | allTargets, _ => true
  | channel targets, message => message.target ∈ targets
  | direct first second, message =>
    message.sender ∈ first ∧ message.target ∈ second ∨
      message.sender ∈ second ∧ message.target ∈ first

/-- A direct conversation has a first and a last participant. -/
def Conversation.scope (snapshot : RegistrySnapshot) : Conversation → Scope
  | all => .allTargets
  | channel target => .channel [target]
  | direct participants =>
    let namesOf (participant : Option Incarnation) : List Name :=
      (participant.map fun incarnation => snapshot.namesFor incarnation.name).getD []
    .direct (namesOf participants.head?) (namesOf participants.getLast?)

/-! ### Names in one snapshot -/

section Names

variable (snapshot : RegistrySnapshot) {name : Name} {message : Message}
  {conversation : Conversation}

theorem not_alias_of_mem_threads (hmem : name ∈ snapshot.threads) :
    snapshot.canonicalName name = name := by
  unfold RegistryPresence.canonicalName
  cases halias : snapshot.aliases.get? name with
  | none => rfl
  | some => exact absurd hmem (snapshot.aliasNames _ (Dict.mem_entries.mpr halias)).2

/-- An alias resolves to a declared thread, whose name is no alias. -/
theorem canonicalName_idem (name : Name) :
    snapshot.canonicalName (snapshot.canonicalName name) = snapshot.canonicalName name := by
  cases halias : snapshot.aliases.get? name with
  | none =>
    have hsame : snapshot.canonicalName name = name := by
      simp [RegistryPresence.canonicalName, halias]
    rw [hsame, hsame]
  | some target =>
    have htarget : snapshot.canonicalName name = target := by
      simp [RegistryPresence.canonicalName, halias]
    rw [htarget]
    exact not_alias_of_mem_threads snapshot
      (snapshot.aliasNames _ (Dict.mem_entries.mpr halias)).1

theorem mem_namesFor {other : Name}
    (hsame : snapshot.canonicalName name = snapshot.canonicalName other) :
    name ∈ snapshot.namesFor other := by
  rw [RegistryPresence.namesFor, ← hsame, List.mem_cons]
  cases halias : snapshot.aliases.get? name with
  | none =>
    left
    simp [RegistryPresence.canonicalName, halias]
  | some target =>
    right
    have htarget : snapshot.canonicalName name = target := by
      simp [RegistryPresence.canonicalName, halias]
    rw [htarget, Dict.mem_keys, Dict.mem_iff]
    exact ⟨target, by simp [Dict.get?_filter, halias]⟩

/-- A participant as this snapshot records it: a canonical name and its thread's
birth, or none once the thread is deleted. -/
structure Declared (incarnation : Incarnation) : Prop where
  canonical : snapshot.canonicalName incarnation.name = incarnation.name
  birth : incarnation.birth = (snapshot.threads.get? incarnation.name).map Thread.birth

variable {snapshot}

theorem thread_name {thread : Thread} (hget : snapshot.threads.get? name = some thread)
    : thread.name = name :=
  snapshot.rowNames _ (Dict.mem_entries.mpr hget)

theorem of_participant {participant : RegistrySnapshot.Participant}
    (hcanonical : snapshot.canonicalName name = name)
    (hok : snapshot.participant name = .ok participant) :
    (incarnationOf participant).name = name ∧ Declared snapshot (incarnationOf participant) := by
  unfold RegistrySnapshot.participant at hok
  rw [hcanonical] at hok
  cases hthread : snapshot.threads.get? name with
  | some thread =>
    rw [hthread] at hok
    cases hok
    have hname : thread.name = name := thread_name hthread
    exact ⟨hname, by rwa [incarnationOf, hname], by simp [incarnationOf, hname, hthread]⟩
  | none =>
    rw [hthread] at hok
    dsimp only at hok
    split at hok
    · cases hok
      exact ⟨rfl, hcanonical, by simp [incarnationOf, hthread]⟩
    · cases hok

namespace Declared

variable {p q : Incarnation}

theorem eq_of_name (hp : Declared snapshot p) (hq : Declared snapshot q)
    (hname : p.name = q.name) : p = q := by
  obtain ⟨name, birth⟩ := p
  obtain ⟨name', birth'⟩ := q
  obtain rfl : name = name' := hname
  have hbirth : birth = birth' := hp.birth.trans hq.birth.symm
  rw [hbirth]

/-- Births are distinct, so equal incarnations have one name. -/
theorem eq_of_key (hp : Declared snapshot p) (hq : Declared snapshot q)
    (hkey : p.key = q.key) : p = q := by
  refine hp.eq_of_name hq ?_
  unfold Incarnation.key at hkey
  have hpbirth := hp.birth
  have hqbirth := hq.birth
  cases hthread : snapshot.threads.get? p.name with
  | none =>
    rw [hthread] at hpbirth
    rw [hpbirth] at hkey
    cases hq' : q.birth with
    | none =>
      rw [hq'] at hkey
      exact ParticipantKey.deleted.inj hkey
    | some =>
      rw [hq'] at hkey
      cases hkey
  | some thread =>
    rw [hthread] at hpbirth
    rw [hpbirth] at hkey
    cases hthread' : snapshot.threads.get? q.name with
    | none =>
      rw [hthread'] at hqbirth
      rw [hqbirth] at hkey
      cases hkey
    | some thread' =>
      rw [hthread'] at hqbirth
      rw [hqbirth] at hkey
      have hbirth : thread.birth = thread'.birth := ParticipantKey.recorded.inj hkey
      exact Dict.nodup_map_values.mp snapshot.distinctBirths _ _ _ _ hthread hthread' hbirth

theorem resolved_eq (hp : Declared snapshot p) : p.resolved snapshot = p := by
  unfold Incarnation.resolved
  have hbirth := hp.birth
  rw [hp.canonical]
  split
  next birth thread hsome hget =>
    rw [hget] at hbirth
    have hsame : thread.birth = birth := Option.mem_unique hbirth hsome
    rw [if_pos hsame]
    obtain ⟨name, _⟩ := p
    obtain rfl : thread.name = name := thread_name hget
    exact congrArg _ hbirth.symm
  · rfl

/-- Every retained spelling of a declared participant is the same incarnation. -/
theorem key_of_mem_recordedNames (hp : Declared snapshot p)
    (hmem : q ∈ p.recordedNames snapshot) : q.key = p.key := by
  rw [Incarnation.recordedNames, hp.resolved_eq, List.mem_cons, List.mem_map] at hmem
  rcases hmem with rfl | ⟨former, hformer, rfl⟩
  · rfl
  · -- an alias of `p` shows that `p` is declared, so its key is its birth
    obtain ⟨target, htarget⟩ := Dict.mem_iff.mp (Dict.mem_keys.mp hformer)
    rw [Dict.get?_filter, Option.filter_eq_some_iff, decide_eq_true_iff] at htarget
    obtain ⟨halias, rfl⟩ := htarget
    obtain ⟨thread, hthread⟩ := Dict.mem_iff.mp
      (snapshot.aliasNames _ (Dict.mem_entries.mpr halias)).1
    have hbirth := hp.birth
    rw [hthread] at hbirth
    simp only [Incarnation.key, hbirth, Option.map_some]

end Declared

/-! ### Conversations of one snapshot -/

inductive Filed (snapshot : RegistrySnapshot) : Conversation → Prop
  | channel (target : String) : Filed snapshot (.channel target)
  | direct {participants : List Incarnation}
      (hdeclared : ∀ p ∈ participants, Declared snapshot p)
      (hsorted : (participants.map Incarnation.name).Pairwise (· < ·)) :
      Filed snapshot (.direct participants)

/-- The participants found under a list of canonical names. -/
theorem of_mapM_participant {names : List Name} {participants : List RegistrySnapshot.Participant}
    (hcanonical : ∀ name ∈ names, snapshot.canonicalName name = name)
    (hok : names.mapM snapshot.participant = .ok participants) :
    (∀ p ∈ participants.map incarnationOf, Declared snapshot p) ∧
      (participants.map incarnationOf).map Incarnation.name = names := by
  have hpairs := mapM_eq_ok.mp hok
  clear hok
  induction hpairs with
  | nil => exact ⟨nofun, rfl⟩
  | cons hfirst hrest ih =>
    obtain ⟨hname, hdeclared⟩ := of_participant (hcanonical _ List.mem_cons_self) hfirst
    obtain ⟨hothers, hnames⟩ := ih fun name hmem => hcanonical name (List.mem_cons_of_mem _ hmem)
    refine ⟨fun p hmem => ?_, by rw [List.map_cons, List.map_cons, hname, hnames]⟩
    rcases List.mem_cons.mp hmem with rfl | hmem
    · exact hdeclared
    · exact hothers p hmem

/-- What the conversation of a message is made of. -/
theorem conversationOf_cases (hok : conversationOf snapshot message = .ok conversation) :
    (∃ name, named message.target = .ok (.channelTarget name) ∧ conversation = .channel name) ∨
      ∃ name participants, named message.target = .ok (.threadTarget name) ∧
        conversation = .direct participants ∧ (∀ p ∈ participants, Declared snapshot p) ∧
          participants.map Incarnation.name = sortedSet
            [snapshot.canonicalName message.sender, snapshot.canonicalName name] := by
  simp only [conversationOf, bind_eq_ok] at hok
  obtain ⟨target, htarget, hok⟩ := hok
  cases target with
  | channelTarget name =>
    rw [pure_eq_ok] at hok
    exact .inl ⟨name, htarget, hok.symm⟩
  | threadTarget name =>
    simp only [do_eq_ok] at hok
    obtain ⟨participants, hparticipants, rfl⟩ := hok
    have hcanonical : ∀ found ∈ sortedSet [snapshot.canonicalName message.sender,
        snapshot.canonicalName name], snapshot.canonicalName found = found := by
      intro found hmem
      rw [mem_sortedSet, List.mem_pair] at hmem
      rcases hmem with rfl | rfl <;> exact canonicalName_idem snapshot _
    obtain ⟨hdeclared, hnames⟩ := of_mapM_participant hcanonical hparticipants
    exact .inr ⟨name, _, htarget, rfl, hdeclared, hnames⟩

theorem filed_of_conversationOf (hok : conversationOf snapshot message = .ok conversation)
    : Filed snapshot conversation := by
  rcases conversationOf_cases hok with ⟨name, -, rfl⟩ | ⟨name, participants, -, rfl, hdeclared, hnames⟩
  · exact .channel name
  · exact .direct hdeclared (hnames ▸ pairwise_sortedSet _)

/-- A filed conversation is found again under its own key. -/
theorem Filed.key_mem (hfiled : Filed snapshot conversation) :
    conversation.key ∈ conversation.recordedKeys snapshot := by
  cases hfiled with
  | channel => exact List.mem_singleton_self _
  | direct hdeclared hsorted =>
    rename_i participants
    refine List.mem_map.mpr ⟨participants, List.mem_sections.mpr ?_, ?_⟩
    · rw [List.forall₂_map_right_iff, List.forall₂_same]
      intro p hmem
      rw [Incarnation.recordedNames, (hdeclared p hmem).resolved_eq]
      exact List.mem_cons_self
    · have hle : participants.Pairwise fun a b => a.name ≤ b.name :=
        (List.pairwise_map.mp hsorted).imp le_of_lt
      rw [hle.insertionSort_eq]
      rfl

/-- No message is filed under the whole-bus read. -/
theorem Filed.key_ne_all (hfiled : Filed snapshot conversation) : conversation.key ≠ .all := by
  cases hfiled <;> nofun

/-- Every spelling of the participants has their keys, in their order. -/
theorem keys_of_spelling {participants spelling : List Incarnation}
    (hdeclared : ∀ p ∈ participants, Declared snapshot p)
    (hspelling : List.Forall₂ (· ∈ ·) spelling
      (participants.map fun participant => participant.recordedNames snapshot)) :
    spelling.map Incarnation.key = participants.map Incarnation.key := by
  rw [List.forall₂_map_right_iff] at hspelling
  induction hspelling with
  | nil => rfl
  | cons hfirst hrest ih =>
    rw [List.map_cons, List.map_cons,
      (hdeclared _ List.mem_cons_self).key_of_mem_recordedNames hfirst,
      ih fun p hmem => hdeclared p (List.mem_cons_of_mem _ hmem)]

/-- Declared participants in the order of their names are known by their keys. -/
theorem eq_of_keys_perm {ps qs : List Incarnation}
    (hps : ∀ p ∈ ps, Declared snapshot p) (hpsorted : (ps.map Incarnation.name).Pairwise (· < ·))
    (hqs : ∀ q ∈ qs, Declared snapshot q) (hqsorted : (qs.map Incarnation.name).Pairwise (· < ·))
    (hperm : (ps.map Incarnation.key).Perm (qs.map Incarnation.key)) : ps = qs := by
  have hsubset : ∀ {as bs : List Incarnation}, (∀ a ∈ as, Declared snapshot a) →
      (∀ b ∈ bs, Declared snapshot b) →
      (as.map Incarnation.key).Perm (bs.map Incarnation.key) → ∀ a ∈ as, a ∈ bs := by
    intro as bs has hbs hsame a hmem
    obtain ⟨b, hb, hkey⟩ := List.mem_map.mp
      (hsame.subset (List.mem_map_of_mem (f := Incarnation.key) hmem))
    rwa [(has a hmem).eq_of_key (hbs b hb) hkey.symm]
  have hp := List.pairwise_map.mp hpsorted
  have hq := List.pairwise_map.mp hqsorted
  have hnodup : ∀ {as : List Incarnation}, as.Pairwise (fun a b => a.name < b.name) → as.Nodup :=
    fun hsorted => hsorted.imp fun hlt heq => absurd (congrArg Incarnation.name heq) (ne_of_lt hlt)
  refine List.Perm.eq_of_pairwise (fun a b _ _ hlt hgt => absurd hgt (lt_asymm hlt)) hp hq ?_
  rw [List.perm_ext_iff_of_nodup (hnodup hp) (hnodup hq)]
  exact fun a => ⟨hsubset hps hqs hperm a, hsubset hqs hps hperm.symm a⟩

/-- The alias spellings of one conversation are no other conversation's key. -/
theorem Filed.eq_of_mem_recordedKeys {other : Conversation} (hfiled : Filed snapshot conversation)
    (hother : Filed snapshot other) (hmem : other.key ∈ conversation.recordedKeys snapshot)
    : other = conversation := by
  cases hfiled with
  | channel =>
    cases hother with
    | channel =>
      have hkey := List.mem_singleton.mp hmem
      exact congrArg _ (ConversationKey.channel.inj hkey)
    | direct => cases List.mem_singleton.mp hmem
  | direct hdeclared hsorted =>
    rename_i participants
    obtain ⟨spelling, hspelling, hkey⟩ := List.mem_map.mp hmem
    cases hother with
    | channel => cases hkey
    | direct hdeclared' hsorted' =>
      rename_i participants'
      have hperm : (participants'.map Incarnation.key).Perm
          (participants.map Incarnation.key) := by
        rw [← ConversationKey.direct.inj hkey, ← keys_of_spelling hdeclared
          (List.mem_sections.mp hspelling)]
        exact (List.perm_insertionSort _ spelling).map _
      exact congrArg _ (eq_of_keys_perm hdeclared' hsorted' hdeclared hsorted hperm)

theorem Filed.eq_of_key {other : Conversation} (hfiled : Filed snapshot conversation)
    (hother : Filed snapshot other) (hkey : other.key = conversation.key) : other = conversation :=
  hfiled.eq_of_mem_recordedKeys hother (hkey ▸ hfiled.key_mem)

/-! ### Scopes and conversations -/

theorem of_named {text : String} {target : NamedTarget} (hok : named text = .ok target) :
    target = .channelTarget (withoutSigil text) ∨ target = .threadTarget (withoutSigil text) := by
  simp only [named, do_eq_ok, exists_const] at hok
  obtain ⟨-, -, rfl⟩ := hok
  split
  · exact .inl rfl
  · exact .inr rfl

/-- A conversation's scope selects every plainly addressed message of it. -/
theorem condition_of_conversationOf (hok : conversationOf snapshot message = .ok conversation)
    (hplain : message.Plain) : (conversation.scope snapshot).condition message = true := by
  have hplain : withoutSigil message.target = message.target := hplain
  rcases conversationOf_cases hok with ⟨name, hnamed, rfl⟩ |
    ⟨name, participants, hnamed, rfl, -, hnames⟩
  · obtain rfl : name = message.target := by
      rcases of_named hnamed with heq | heq
      · exact (NamedTarget.channelTarget.inj heq).trans hplain
      · cases heq
    simp [Conversation.scope, Scope.condition]
  · obtain rfl : name = message.target := by
      rcases of_named hnamed with heq | heq
      · cases heq
      · exact (NamedTarget.threadTarget.inj heq).trans hplain
    -- each end of the participants has one side's canonical name
    have hside : ∀ {participant : Option Incarnation} {name : Name},
        participant.map Incarnation.name = some (snapshot.canonicalName name) →
          name ∈ (participant.map fun p => snapshot.namesFor p.name).getD [] := by
      intro participant name hname
      obtain ⟨p, rfl, hp⟩ := Option.map_eq_some_iff.mp hname
      exact mem_namesFor snapshot (by rw [hp, canonicalName_idem])
    have hends := ends_sortedSet_pair (snapshot.canonicalName message.sender)
      (snapshot.canonicalName message.target)
    rw [← hnames, List.head?_map, List.getLast?_map] at hends
    show decide _ = true
    rw [decide_eq_true_iff]
    rcases hends with ⟨hfirst, hlast⟩ | ⟨hfirst, hlast⟩
    · exact .inl ⟨hside hfirst, hside hlast⟩
    · exact .inr ⟨hside hlast, hside hfirst⟩

end Names

end AgentComms.Reads
