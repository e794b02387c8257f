import AgentComms.Reads.Painted

/-!
# Answered originals

`MessageIdentitySource.answering` selects from a batch of references the messages that a route
answers. Its SQL compares the recorded texts with the registry's names for the route, where
`Message.reply_target` parses the target.
-/

namespace AgentComms.Reads

open Library Registry

structure MessageReference where
  seq : Nat
  messageId : String
deriving DecidableEq

/-- A message's identity row and, if it is addressed, the target of its addressed row. -/
structure IdentityRow where
  messageId : String
  sender : Name
  target : Option String

inductive AnsweringError where
  | relationViolation (text : String)
  /-- The statement has another number of parameters than it is given. -/
  | programmingError
deriving DecidableEq

/-- SQL's `AND`, where `none` is NULL. -/
def sqlAnd : Option Bool → Option Bool → Option Bool
  | some true, right => right
  | some false, _ | none, some false => some false
  | none, _ => none

theorem sqlAnd_some (left right : Bool) : sqlAnd (some left) (some right) = some (left && right) := by
  cases left <;> rfl

namespace NamedTarget

def replyTarget (sender : Name) : NamedTarget → String
  | threadTarget _ => sender
  | channelTarget name => name

variable (snapshot : RegistrySnapshot)

def selectedName : NamedTarget → Name
  | threadTarget name => snapshot.canonicalName name
  | channelTarget name => name

def answeredSql (route : NamedTarget) :
    Except AnsweringError (Option String → Option Name → Option Bool) :=
  match route, snapshot.namesFor (route.selectedName snapshot) with
  | threadTarget _, names => .ok fun target sender =>
      sqlAnd (sender.map (· ∈ names)) (target.map (!namesChannel ·))
  | channelTarget _, [name] => .ok fun target _ => target.map (· = name)
  | channelTarget _, _ => .error .programmingError

end NamedTarget

namespace MessageIdentitySource

variable (bus : Dict Nat IdentityRow) (snapshot : RegistrySnapshot) (route : NamedTarget)
  (references : List MessageReference) (reference : MessageReference)

def identity : Option IdentityRow :=
  (bus.get? reference.seq).filter (·.messageId = reference.messageId)

def matched : Bool := ((identity bus reference).bind (·.target)).isSome

/-- `NOT matched OR answers`. -/
def selects (predicate : Option String → Option Name → Option Bool) : Bool :=
  let row := identity bus reference
  !matched bus reference || (predicate (row.bind (·.target)) (row.map (·.sender))).getD false

def answering : Except AnsweringError (List MessageReference) := do
  let predicate ← route.answeredSql snapshot
  let selected := references.filter (selects bus · predicate)
  require (selected.all (matched bus))
    (.relationViolation "Message reference does not match its bus record")
  return selected

/-- The message's reply target resolves to the route's canonical name. -/
def answers : Bool :=
  (identity bus reference).any fun row => row.target.any fun target =>
    match named target with
    | .ok destination => snapshot.canonicalName (destination.replyTarget row.sender) =
        route.selectedName snapshot
    | .error _ => false

variable {bus snapshot route reference}

theorem mem_namesFor_canonicalName {name other : Name} :
    name ∈ snapshot.namesFor (snapshot.canonicalName other) ↔
      snapshot.canonicalName name = snapshot.canonicalName other := by
  refine ⟨fun hmem => ?_, fun hsame => mem_namesFor snapshot (by rw [hsame, canonicalName_idem])⟩
  rw [RegistryPresence.namesFor, List.mem_cons, canonicalName_idem, Dict.mem_keys,
    Dict.mem_iff] at hmem
  rcases hmem with rfl | ⟨target, hget⟩
  · exact canonicalName_idem snapshot other
  · simp only [Dict.get?_filter, Option.filter_eq_some_iff, decide_eq_true_eq] at hget
    rw [RegistryPresence.canonicalName, hget.1, Option.getD_some, hget.2]

section Plain

variable (hnames : ∀ entry ∈ snapshot.aliases.entries,
  namesChannel entry.1 = false ∧ namesChannel entry.2 = false)
include hnames

theorem canonicalName_channel {name : Name} (hchannel : namesChannel name = true) :
    snapshot.canonicalName name = name := by
  cases hget : snapshot.aliases.get? name with
  | none => rw [RegistryPresence.canonicalName, hget, Option.getD_none]
  | some => exact absurd hchannel (by simp [(hnames _ (Dict.mem_entries.mpr hget)).1])

theorem namesChannel_canonicalName (name : Name) :
    namesChannel (snapshot.canonicalName name) = namesChannel name := by
  cases hget : snapshot.aliases.get? name with
  | none => rw [RegistryPresence.canonicalName, hget, Option.getD_none]
  | some =>
    obtain ⟨hformer, hcurrent⟩ := hnames _ (Dict.mem_entries.mpr hget)
    rw [RegistryPresence.canonicalName, hget, Option.getD_some, hformer, hcurrent]

theorem namesFor_channel {name : Name} (hchannel : namesChannel name = true) :
    snapshot.namesFor name = [name] := by
  rw [RegistryPresence.namesFor, canonicalName_channel hnames hchannel, List.cons_eq_cons]
  refine ⟨rfl, List.eq_nil_iff_forall_not_mem.mpr fun former hmem => ?_⟩
  obtain ⟨current, hget⟩ := Dict.mem_iff.mp (Dict.mem_keys.mp hmem)
  simp only [Dict.get?_filter, Option.filter_eq_some_iff, decide_eq_true_eq] at hget
  rw [← hget.2, (hnames _ (Dict.mem_entries.mpr hget.1)).2] at hchannel
  cases hchannel

/-- On plain texts the predicate is the parsed reply target. -/
theorem answeredSql_eq {text : String} (hroute : named text = .ok route) :
    ∃ predicate, route.answeredSql snapshot = .ok predicate ∧
      ∀ sender target, namesChannel sender = false → predicate (some target) (some sender) =
        some (decide (snapshot.canonicalName (if namesChannel target then target else sender) =
          route.selectedName snapshot)) := by
  simp only [named, do_eq_ok] at hroute
  obtain ⟨-, -, -, -, rfl⟩ := hroute
  split
  next hchannel =>
    refine ⟨fun target _ => target.map (· = withoutSigil text), ?_, fun sender target hsender => ?_⟩
    · simp [NamedTarget.answeredSql, NamedTarget.selectedName, namesFor_channel hnames hchannel]
    cases htarget : namesChannel target with
    | true => simp [NamedTarget.selectedName, canonicalName_channel hnames htarget]
    | false =>
      have htext : target ≠ withoutSigil text := ne_of_apply_ne namesChannel (by simp [*])
      have hreply : snapshot.canonicalName sender ≠ withoutSigil text :=
        ne_of_apply_ne namesChannel (by simp [namesChannel_canonicalName hnames, *])
      simp [NamedTarget.selectedName, htext, hreply]
  next hthread =>
    refine ⟨_, rfl, fun sender target hsender => ?_⟩
    cases htarget : namesChannel target with
    | true =>
      have hreply : snapshot.canonicalName target ≠ snapshot.canonicalName (withoutSigil text) :=
        ne_of_apply_ne namesChannel (by simp [namesChannel_canonicalName hnames, *])
      simp [sqlAnd_some, htarget, NamedTarget.selectedName, hreply]
    | false =>
      simp [sqlAnd_some, htarget, NamedTarget.selectedName, mem_namesFor_canonicalName]

end Plain

/-- Over plain names and plainly spelled referenced messages the selection is exact, and a
reference that matches no addressed message refuses the batch. -/
theorem answering_eq {text : String} (hroute : named text = .ok route)
    (hnames : ∀ entry ∈ snapshot.aliases.entries,
      namesChannel entry.1 = false ∧ namesChannel entry.2 = false)
    (hbus : ∀ reference ∈ references, ∀ row ∈ bus.get? reference.seq,
      namesChannel row.sender = false ∧
        ∀ target ∈ row.target, target ≠ "" ∧ withoutSigil target = target) :
    answering bus snapshot route references =
      if references.all (matched bus) then .ok (references.filter (answers bus snapshot route))
      else .error (.relationViolation "Message reference does not match its bus record") := by
  obtain ⟨predicate, hpredicate, hexact⟩ := answeredSql_eq hnames hroute
  have hselects : ∀ reference ∈ references, matched bus reference = true →
      selects bus reference predicate = answers bus snapshot route reference := by
    intro reference hmem hmatched
    obtain ⟨target, htarget⟩ := Option.isSome_iff_exists.mp hmatched
    obtain ⟨row, hrow, htarget⟩ := Option.bind_eq_some_iff.mp htarget
    obtain ⟨hsender, hplain⟩ := hbus _ hmem row (Option.filter_eq_some_iff.mp hrow).1
    obtain ⟨hnonempty, hspelled⟩ := hplain target htarget
    have hnamed : named target = .ok (if namesChannel target then .channelTarget target
        else .threadTarget target) := by
      simp [named, require, hnonempty, hspelled, bind, Except.bind, pure, Except.pure]
    simp only [selects, answers, hmatched, hrow, Option.bind_some, Option.map_some, htarget,
      hexact _ _ hsender, Option.any_some, hnamed]
    cases namesChannel target <;> simp [NamedTarget.replyTarget]
  have hall : (references.filter (selects bus · predicate)).all (matched bus) =
      references.all (matched bus) := by
    rw [List.all_filter]
    congr 1
    funext reference
    cases hmatched : matched bus reference <;> simp [selects, hmatched]
  simp only [answering, hpredicate, bind, Except.bind, require, hall]
  by_cases hmatched : references.all (matched bus) = true
  · simp only [if_pos hmatched]
    exact congrArg Except.ok (List.filter_congr fun reference hmem =>
      hselects reference hmem (List.all_eq_true.mp hmatched reference hmem))
  · simp only [if_neg hmatched]

def renamedSnapshot : RegistrySnapshot :=
  { sampleSnapshot with aliases := Dict.empty.set "old" "alpha", aliasNames := by decide }

def sentBus (target : String) : Dict Nat IdentityRow := Dict.empty.set 1 ⟨"m", "old", some target⟩

/-- A message under a former name is answered, as often as it is given. -/
theorem answering_eq_renamed :
    named "alpha" = .ok (.threadTarget "alpha") ∧
      answering (sentBus "beta") renamedSnapshot (.threadTarget "alpha") [⟨1, "m"⟩, ⟨1, "m"⟩] =
        .ok [⟨1, "m"⟩, ⟨1, "m"⟩] :=
  ⟨rfl, (answering_eq _ (show named "alpha" = _ from rfl) (by decide)
    (by decide)).trans (by decide)⟩

/-- A channel message stored with a thread sigil is selected for its sender. -/
theorem sigil_channel_answers_sender :
    answering (sentBus "@#c") renamedSnapshot (.threadTarget "alpha") [⟨1, "m"⟩] =
        .ok [⟨1, "m"⟩] ∧
      answers (sentBus "@#c") renamedSnapshot (.threadTarget "alpha") ⟨1, "m"⟩ = false := by
  decide

end MessageIdentitySource

end AgentComms.Reads
