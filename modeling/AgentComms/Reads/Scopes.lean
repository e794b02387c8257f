import AgentComms.Reads.Query
import AgentComms.Waits.Deliveries

/-!
# A display scope's condition and its inclusion test

Each scope states its members twice: as an SQL condition over the recorded columns and as
a test of one message. `scope_predicates_agree_iff` says on which messages the two agree.
-/

namespace AgentComms.Reads

open Library Registry

/-- The display scopes: those of a conversation, a channel's member activity, the peer
requests and replies of a participant, the listed part of another scope, and what is
delivered to an actor. -/
inductive DisplayScope where
  | conversation (scope : Scope)
  | memberActivity (targets : List String) (participants : List Name)
  | replies (first second : List Name)
  | listed (scope : DisplayScope) (sequences : List Nat)
  | delivery (actor : Name) (aliases : Dict Name Name) (channels : List String)

def NamedTarget.directNames : NamedTarget → List Name
  | threadTarget name => [name]
  | channelTarget _ => []

/-- `Scope.condition` again, as the inclusion tests state it. -/
def Scope.includes : Scope → Message → Bool
  | allTargets, _ => true
  | channel targets, message => message.target ∈ targets
  | direct first second, message =>
    message.sender ∈ first ∧ message.target ∈ second ∨
      message.sender ∈ second ∧ message.target ∈ first

namespace Message

/-- A current conversation's policy is its target's, which may have no name. -/
def responsePolicy (message : Message) : Checked Waits.ResponsePolicy :=
  if message.conversation then do
    match ← named message.target with
    | .threadTarget _ => pure .direct
    | .channelTarget _ => pure (.ofChannel message.mentions message.collective)
  else .ok .informational

def awaitsAnswerFrom (message : Message) (recipient : Name) : Checked Bool :=
  if message.sender = recipient ∨ message.target = recipient then .ok true
  else do
    let policy ← message.responsePolicy
    pure (policy.requires message.mentions recipient)

end Message

namespace DisplayScope

def canonical (aliases : Dict Name Name) (name : Name) : Name := (aliases.get? name).getD name

def indexTargets (actor : Name) (aliases : Dict Name Name) (channels : List String) : List String :=
  channels ++ (actor :: aliases.keys).filter fun name => canonical aliases name = actor

def condition : DisplayScope → Message → Bool
  | conversation scope, message => scope.condition message
  | memberActivity targets participants, message =>
    (Predicate.activity targets participants).selects message
  | replies first second, message => message.sender ∈ first ∨ message.sender ∈ second
  | listed _ sequences, message => message.seq ∈ sequences
  | delivery actor aliases channels, message => message.target ∈ indexTargets actor aliases channels

def includes : DisplayScope → Message → Checked Bool
  | conversation scope, message => .ok (scope.includes message)
  | memberActivity targets participants, message =>
    if message.target ∈ targets ∨ message.sender ∈ participants then .ok true
    else do
      let target ← named message.target
      pure ((∃ name ∈ target.directNames, name ∈ participants) ∨
        ∃ mention ∈ message.mentions, mention ∈ participants)
  | replies first second, message =>
    if message.sender ∈ first then .ok true
    else if message.sender ∈ second then first.anyM message.awaitsAnswerFrom
    else .ok false
  | listed scope sequences, message =>
    if message.seq ∈ sequences then includes scope message else .ok false
  | delivery actor aliases channels, message => .ok (canonical aliases message.sender ≠ actor ∧
      (message.target ∈ channels ∨ canonical aliases message.target = actor))

/-- What the two statements of a scope need of a message: a member's activity needs a
target whose spelling and name both are, or both are not, a participant's; a peer's
message awaits the first participant; what is listed is included; and a delivered
message is not the actor's own. -/
def AgreesOn : DisplayScope → Message → Prop
  | conversation _, _ => True
  | memberActivity targets participants, message =>
    message.target ∈ targets ∨ message.sender ∈ participants ∨
      withoutSigil message.target ≠ "" ∧
        ((∃ mention ∈ message.mentions, mention ∈ participants) ∨
          (namesChannel message.target = false ∧ message.target ∈ participants ↔
            namesChannel (withoutSigil message.target) = false ∧
              withoutSigil message.target ∈ participants))
  | replies first second, message => message.sender ∈ second →
      message.sender ∈ first ∨ first.anyM message.awaitsAnswerFrom = .ok true
  | listed scope sequences, message =>
    message.seq ∈ sequences → scope.includes message = .ok true
  | delivery actor aliases channels, message =>
    message.target ∈ indexTargets actor aliases channels →
      canonical aliases message.sender ≠ actor

/-- A message's target is read as a named one unless nothing follows its sigil. -/
theorem named_addressed (message : Message) : named message.target =
    if withoutSigil message.target = "" then .error (.valueError "Select a named target")
    else .ok (if namesChannel (withoutSigil message.target)
      then .channelTarget (withoutSigil message.target)
      else .threadTarget (withoutSigil message.target)) := by
  have haddressed := message.addressed
  by_cases hname : withoutSigil message.target = "" <;>
    simp [named, require, haddressed, hname, bind, Except.bind, pure, Except.pure]

/-- The indexed targets are the channels and the texts that resolve to the actor. -/
theorem mem_indexTargets {actor : Name} {aliases : Dict Name Name} {channels : List String}
    {text : String} : text ∈ indexTargets actor aliases channels ↔
      text ∈ channels ∨ canonical aliases text = actor := by
  rw [indexTargets, List.mem_append, List.mem_filter, List.mem_cons, Dict.mem_keys,
    decide_eq_true_iff]
  refine or_congr_right ⟨And.right, fun hactor => ⟨?_, hactor⟩⟩
  by_cases halias : text ∈ aliases
  · exact .inr halias
  · rw [canonical, Dict.get?_eq_none_iff.mpr halias] at hactor
    exact .inl hactor

variable {scope : DisplayScope} {message : Message}

theorem includes_eq_condition_iff :
    scope.includes message = .ok (scope.condition message) ↔ scope.AgreesOn message := by
  cases scope with
  | conversation scope =>
    cases scope <;> simp [includes, condition, AgreesOn, Scope.includes, Scope.condition]
  | memberActivity targets participants =>
    simp only [includes, condition, AgreesOn, Predicate.selects]
    by_cases hsent : message.target ∈ targets ∨ message.sender ∈ participants
    · rw [if_pos hsent]
      rcases hsent with htarget | hsender
      · simp [htarget]
      · simp [hsender]
    · -- the target is read as a named one, which may refuse
      rw [if_neg hsent, named_addressed]
      rw [not_or] at hsent
      by_cases hname : withoutSigil message.target = ""
      · simp [hname, hsent, bind, Except.bind]
      · by_cases hmention : ∃ mention ∈ message.mentions, mention ∈ participants <;>
          cases hchannel : namesChannel (withoutSigil message.target) <;>
          simp only [hname, hsent, hmention, NamedTarget.directNames, bind, Except.bind, pure,
            Except.pure, if_false, Except.ok.injEq, decide_eq_decide, List.mem_singleton,
            exists_eq_left, Bool.false_eq_true] <;>
          tauto
  | replies first second =>
    simp only [includes, condition, AgreesOn]
    by_cases hfirst : message.sender ∈ first <;>
      by_cases hsecond : message.sender ∈ second <;> simp [hfirst, hsecond]
  | listed scope sequences =>
    simp only [includes, condition, AgreesOn]
    by_cases hlisted : message.seq ∈ sequences <;> simp [hlisted]
  | delivery =>
    simp only [includes, condition, AgreesOn, Except.ok.injEq, decide_eq_decide, mem_indexTargets]
    tauto

theorem activity_agreesOn {targets : List String} {participants : List Name}
    (hplain : message.Plain) : (memberActivity targets participants).AgreesOn message := by
  rw [AgreesOn, show withoutSigil message.target = message.target from hplain]
  exact .inr (.inr ⟨message.addressed, .inr .rfl⟩)

theorem condition_of_includes (hplain : message.Plain)
    (hincludes : scope.includes message = .ok true) : scope.condition message = true := by
  cases scope with
  | conversation =>
    rw [includes_eq_condition_iff.mpr (by trivial)] at hincludes
    exact Except.ok.inj hincludes
  | memberActivity =>
    rw [includes_eq_condition_iff.mpr (activity_agreesOn hplain)] at hincludes
    exact Except.ok.inj hincludes
  | replies first second =>
    by_cases hfirst : message.sender ∈ first <;>
      by_cases hsecond : message.sender ∈ second <;>
      simp_all [includes, condition]
  | listed =>
    rw [includes] at hincludes
    split at hincludes
    · simpa only [condition, decide_eq_true_iff]
    · cases hincludes
  | delivery =>
    simp only [includes, Except.ok.injEq, decide_eq_true_eq] at hincludes
    simp only [condition, decide_eq_true_iff, mem_indexTargets]
    exact hincludes.2

end DisplayScope

/-- With a plain target a member's activity is stated the same way twice, and whatever a
scope includes satisfies its condition. -/
theorem scope_predicates_agree_iff (scope : DisplayScope) (message : Message) :
    (scope.includes message = .ok (scope.condition message) ↔ scope.AgreesOn message) ∧
      (message.Plain →
        (∀ targets participants,
          (DisplayScope.memberActivity targets participants).includes message =
            .ok ((DisplayScope.memberActivity targets participants).condition message)) ∧
        (scope.includes message = .ok true → scope.condition message = true)) :=
  ⟨DisplayScope.includes_eq_condition_iff, fun hplain =>
    ⟨fun _ _ => DisplayScope.includes_eq_condition_iff.mpr (DisplayScope.activity_agreesOn hplain),
      DisplayScope.condition_of_includes hplain⟩⟩

/-- A direct message spelled with the sigil, an unasked peer message, and an actor's own
message: the condition and the inclusion test disagree. -/
theorem scope_predicates_disagree :
    let toMember : Message := ⟨1, "a", "@m", [], true, false, by decide⟩
    let unasked : Message := ⟨2, "p", "#c", [], true, false, by decide⟩
    let activity := DisplayScope.memberActivity ["#c"] ["m"]
    let replies := DisplayScope.replies ["m"] ["p"]
    let delivery := DisplayScope.delivery "p" Dict.empty ["#c"]
    activity.condition toMember = false ∧ activity.includes toMember = .ok true ∧
    replies.condition unasked = true ∧ replies.includes unasked = .ok false ∧
    delivery.condition unasked = true ∧ delivery.includes unasked = .ok false := by
  decide +kernel

end AgentComms.Reads
