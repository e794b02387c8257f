import AgentComms.Library.Run

/-!
# A session's rule deal

A session is dealt the packaged files it must read and answer (`rule_deal.py`). The deal is a
record beside the session's read log, opened reads, audit and open question. A record that
does not decode, or that names a file no install supplies, is read as no deal at all, and
`configure` publishes what it read.
-/

namespace AgentComms.Rules

open Library

inductive DealError where
  | fileNotFound
  | unreadable
  | malformedRecord
  | noInstalledFile (path : String)
  deriving DecidableEq

structure DealtSource where
  package : String
  relative : String
  deriving DecidableEq

structure DealtRead where
  source : DealtSource
  digest : String
  deriving DecidableEq

/-- The probes asked about, and the open question with each line said after it, by message. -/
structure MeantRecord where
  asked : List String := []
  opened : List (String × String) := []
  deriving DecidableEq

structure AuditDue where
  ownerWords : List String
  repos : List String := []
  deriving DecidableEq

inductive DealMode where
  | off | startup | compaction | full
  deriving DecidableEq

inductive DealTrigger where
  | started | compacted (at_ : String) | unstampedCompaction | cleared
  | primed (variant : String) | refresh (used : ℕ)
  deriving DecidableEq

/-- Whether a deal for this reason goes through in this mode. -/
def DealTrigger.deliver : DealTrigger → DealMode → Bool
  | .compacted _, mode | .unstampedCompaction, mode => mode = .compaction ∨ mode = .full
  | .refresh _, mode => mode = .full
  | _, _ => true

structure DealRecord where
  dealt : List String
  due : AuditDue
  trigger : DealTrigger := .started
  mode : DealMode := .full
  deriving DecidableEq

inductive RecordFile where
  | absent
  | unreadable
  /-- Bytes that are not a deal record. -/
  | malformed
  | deal (record : DealRecord)
  deriving DecidableEq

/-- What a session has read, opened, answered and been asked; opened reads that do not decode
are `none`. -/
structure Evidence where
  dealtRead : List DealtRead
  dealtOpened : Option (List DealtSource)
  audit : Option String
  meant : MeantRecord
  deriving DecidableEq

structure SessionFiles extends Evidence where
  record : RecordFile

/-- The backend's deck, what its launcher delivered, the installed sources and the first
requirement a record still owes. -/
structure RuleDeal (Owed : Type) where
  find : String → Option DealtSource
  sources : List String
  due : AuditDue
  delivered : List DealtRead := []
  skeleton : AuditDue → String
  owed : Evidence → DealRecord → Except DealError (Option Owed)

inductive ToolGateState (Owed : Type) where
  | open_
  | undealt
  | blocked (cause : Owed)
  deriving DecidableEq

/-- A record the gate holds its session to; `undealt` when it stands for no deal. -/
structure HeldRecord extends DealRecord where
  undealt : Bool

namespace RuleDeal

variable {Owed : Type} (deal : RuleDeal Owed) (mode : DealMode) (files : SessionFiles)

def undealtRecord : HeldRecord := ⟨⟨[], ⟨[], []⟩, .started, .full⟩, true⟩

def current : Except DealError HeldRecord :=
  match files.record with
  | .absent | .malformed => .ok undealtRecord
  | .unreadable => .error .unreadable
  | .deal record =>
    .ok (if record.dealt.all (deal.find · |>.isSome) then ⟨record, false⟩ else undealtRecord)

def answer (record : HeldRecord) : Except DealError (ToolGateState Owed) :=
  if record.undealt then .ok .undealt
  else if record.mode = .off then .ok .open_
  else do
    match ← deal.owed files.toEvidence record.toDealRecord with
    | none => .ok .open_
    | some cause => .ok (.blocked cause)

def state : Except DealError (ToolGateState Owed) := do
  let record ← deal.current files
  let _ ← orRefuse files.dealtOpened .malformedRecord
  deal.answer files record

def configure : Except DealError SessionFiles := do
  require (files.record ≠ .absent) .fileNotFound
  let record ← deal.current files
  return { files with record := .deal { record.toDealRecord with mode := mode } }

def replaceDeal (trigger : DealTrigger) : Except DealError SessionFiles := do
  let record ← deal.current files
  let held ← deal.sources.mapM fun path => orRefuse (deal.find path) (.noInstalledFile path)
  return { files with
    dealtRead := deal.delivered.filter (·.source ∈ held)
    dealtOpened := some []
    audit := some (deal.skeleton deal.due)
    meant := {}
    record := .deal ⟨deal.sources, deal.due, trigger, record.mode⟩ }

/-- Deal the backend's deck, in a mode that delivers this trigger. -/
def redeal (trigger : DealTrigger) : Except DealError SessionFiles := do
  let record ← deal.current files
  if trigger.deliver record.mode then deal.replaceDeal files trigger else return files

def start : Except DealError SessionFiles := do
  match ← deal.state files with
  | .undealt => deal.redeal files .started
  | _ => return files

/-- Starting the session deals it: the gate finds no deal, and the backend's deck is dealt. -/
def DealtByStart : Prop :=
  deal.state files = .ok .undealt ∧ ∃ next mode, deal.start files = .ok next ∧
    next.record = .deal ⟨deal.sources, deal.due, .started, mode⟩

variable {deal mode files}

theorem answer_ne_undealt {record : HeldRecord} (hheld : record.undealt = false) :
    deal.answer files record ≠ .ok .undealt := by
  intro hanswer
  rw [answer, if_neg (by simp [hheld])] at hanswer
  split at hanswer
  · cases hanswer
  · obtain ⟨owed, -, hcase⟩ := bind_eq_ok.mp hanswer
    cases owed <;> cases hcase

/-- A record whose every source is installed is the deal the gate holds. -/
theorem current_of_installed {record : DealRecord} (hrecord : files.record = .deal record)
    (hfound : ∀ path ∈ record.dealt, (deal.find path).isSome) :
    deal.current files = .ok ⟨record, false⟩ := by
  simp only [current, hrecord, if_pos (List.all_eq_true.mpr hfound)]

/-- The stored deal's files, due prompts and trigger. -/
def stored (files : SessionFiles) : Option (List String × AuditDue × DealTrigger) :=
  match files.record with
  | .deal record => some (record.dealt, record.due, record.trigger)
  | _ => none

variable (deal mode files) in
/-- A configuration that goes through changes the mode alone, and leaves a session that a start
would deal to be dealt. -/
def ChangesModeOnly : Prop :=
  ∀ next, deal.configure mode files = .ok next →
    stored next = stored files ∧ next.toEvidence = files.toEvidence ∧
      (deal.DealtByStart files → deal.DealtByStart next)

def Installed (deal : RuleDeal Owed) : RecordFile → Prop
  | .absent | .unreadable => True
  | .malformed => False
  | .deal record => ∀ path ∈ record.dealt, (deal.find path).isSome

/-- What a record that stands for no deal becomes: a deal of no files. -/
theorem configure_of_undealt (hpresent : files.record ≠ .absent)
    (hcurrent : deal.current files = .ok undealtRecord) :
    deal.configure mode files =
      .ok { files with record := .deal { undealtRecord.toDealRecord with mode := mode } } := by
  simp [configure, hpresent, hcurrent, require, bind, Except.bind, pure, Except.pure]

theorem configure_frames_iff (deal : RuleDeal Owed) (mode : DealMode) (files : SessionFiles) :
    deal.ChangesModeOnly mode files ↔ deal.Installed files.record := by
  cases hrecord : files.record with
  | absent =>
    refine iff_of_true (fun next hok => ?_) trivial
    simp [configure, hrecord] at hok
  | unreadable =>
    refine iff_of_true (fun next hok => ?_) trivial
    simp [configure, current, hrecord] at hok
  | malformed =>
    refine iff_of_false (fun hframe => ?_) id
    obtain ⟨hstored, -⟩ := hframe _ (configure_of_undealt (by simp [hrecord])
      (by simp [current, hrecord]))
    simp [stored, hrecord] at hstored
  | deal record =>
    constructor
    · intro hframe path hpath
      by_contra hretired
      have hall : ¬ record.dealt.all (deal.find · |>.isSome) = true := fun hall =>
        hretired (List.all_eq_true.mp hall path hpath)
      obtain ⟨hstored, -⟩ := hframe _ (configure_of_undealt (by simp [hrecord])
        (by simp only [current, hrecord, if_neg hall]))
      simp only [stored, hrecord, undealtRecord, Option.some.injEq, Prod.mk.injEq] at hstored
      rw [← hstored.1] at hpath
      cases hpath
    · intro hfound next hok
      simp only [configure, do_eq_ok, current_of_installed hrecord hfound,
        Except.ok.injEq] at hok
      obtain ⟨-, -, _, rfl, rfl⟩ := hok
      refine ⟨by simp [stored, hrecord], rfl, ?_⟩
      rintro ⟨hstate, -⟩
      simp only [state, do_eq_ok, current_of_installed hrecord hfound, Except.ok.injEq] at hstate
      obtain ⟨_, rfl, _, -, hanswer⟩ := hstate
      exact absurd hanswer (answer_ne_undealt rfl)

/-- A session whose one dealt file an install retired: before the call a start deals it anew,
after the call it holds a deal of no files and a start keeps that. -/
theorem configure_drops_retired :
    let deal : RuleDeal Unit :=
      ⟨fun path => if path = "new.md" then some ⟨"pkg", path⟩ else none, ["new.md"], ⟨["q"], []⟩,
        [], fun _ => "", fun _ _ => .ok none⟩
    let files : SessionFiles :=
      ⟨⟨[], some [], none, {}⟩, .deal ⟨["old.md"], ⟨["p"], []⟩, .cleared, .full⟩⟩
    deal.DealtByStart files ∧ ∃ next, deal.configure .startup files = .ok next ∧
      stored next = some ([], ⟨[], []⟩, .started) ∧ ¬ deal.DealtByStart next := by
  refine ⟨⟨rfl, _, _, rfl, rfl⟩, _, rfl, rfl, ?_⟩
  rintro ⟨hstate, -⟩
  cases hstate

end RuleDeal

end AgentComms.Rules
