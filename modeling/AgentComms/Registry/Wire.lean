import AgentComms.Registry.Operations

/-!
# The stored registry

`RegistryDocument.from_wire` decodes a stored revision and checks the coupling of
its sections; `RegistrySnapshot.capture` checks names and births again. Both
accept every document a run of operations leaves, and decoding gives the document
back (its presence rows are stored elsewhere).
-/

namespace AgentComms.Registry

open Library

structure CounterWire where
  counter : Nat
  generations : Dict Name Nat

structure RegistryWire where
  threads : Dict Name ThreadFields
  statuses : Dict Name ThreadStatus
  aliases : Dict Name Name
  owners : CounterWire
  claims : CounterWire

theorem GenerationCounter.make_self (counter : GenerationCounter) :
    GenerationCounter.make counter.counter counter.generations = .ok counter := by
  rw [GenerationCounter.make, dif_pos counter.bounded]

namespace RegistryDocument

def toWire (document : RegistryDocument) : RegistryWire where
  threads := document.threads.mapValues fun _ thread => thread.toThreadFields
  statuses := document.statuses
  aliases := document.aliases
  owners := ⟨document.owners.counter, document.owners.generations⟩
  claims := ⟨document.claims.counter, document.claims.generations⟩

/-- Decode and check a stored revision. The source decodes each row only when it
is read; decoding them all here accepts no more than it does. -/
def fromWire (wire : RegistryWire) : Checked RegistryDocument := do
  require (∀ entry ∈ wire.threads.entries, entry.2.name = entry.1)
    (.malformedRecord "thread name differs from its declaration")
  let threads ← wire.threads.traverse fun _ fields => Thread.make fields
  let owners ← GenerationCounter.make wire.owners.counter wire.owners.generations
  let claims ← GenerationCounter.make wire.claims.counter wire.claims.generations
  require ((∀ name ∈ threads.keys, name ∈ wire.statuses) ∧
      ∀ name ∈ wire.statuses.keys, name ∈ threads)
    (.malformedRecord "thread statuses do not match declarations")
  require (∀ name ∈ threads.keys, name ∈ owners.generations)
    (.malformedRecord "missing owner generation")
  require (∀ name ∈ threads.keys, name ∈ claims.generations)
    (.malformedRecord "missing claim_scope generation")
  require (∀ entry ∈ wire.aliases.entries, entry.2 ∈ threads ∧ entry.1 ∉ threads)
    (.malformedRecord "alias has no exclusive retained owner")
  pure ⟨⟨threads, wire.statuses, Dict.empty, wire.aliases⟩, owners, claims⟩

namespace WellFormed

variable {document : RegistryDocument}

variable (hwf : document.WellFormed)
include hwf

theorem rowNames_entries : ∀ entry ∈ document.threads.entries, entry.2.name = entry.1 :=
  fun entry hentry => hwf.rowNames entry.1 entry.2 (Dict.mem_entries.mp hentry)

theorem aliasNames_entries :
    ∀ entry ∈ document.aliases.entries,
      entry.2 ∈ document.threads ∧ entry.1 ∉ document.threads :=
  fun entry hentry => hwf.aliasNames entry.1 entry.2 (Dict.mem_entries.mp hentry)

theorem births_nodup : (document.threads.values.map Thread.birth).Nodup :=
  Dict.nodup_map_values.mpr hwf.distinctBirths

/-- Decoding an encoded document gives it back, without its presence rows. -/
theorem fromWire_toWire :
    fromWire document.toWire = .ok { document with lastSeen := Dict.empty } := by
  have hrows : ∀ entry ∈ document.toWire.threads.entries, entry.2.name = entry.1 := by
    intro entry hentry
    obtain ⟨⟨name, thread⟩, hthread, rfl⟩ := List.mem_map.mp hentry
    exact hwf.rowNames_entries (name, thread) hthread
  have hdecoded : document.toWire.threads.traverse (fun _ fields => Thread.make fields) =
      .ok document.threads :=
    Dict.traverse_mapValues (fun _ thread => Thread.make_eq_ok.mpr rfl) document.threads
  have hstatuses : (∀ name ∈ document.threads.keys, name ∈ document.toWire.statuses) ∧
      ∀ name ∈ document.toWire.statuses.keys, name ∈ document.threads :=
    ⟨fun name => (hwf.statusNames name).mpr, fun name => (hwf.statusNames name).mp⟩
  simp only [fromWire, do_eq_ok]
  refine ⟨(), hrows, document.threads, hdecoded, document.owners, document.owners.make_self,
    document.claims, document.claims.make_self, (), hstatuses, (), hwf.ownerNames, (),
    hwf.claimNames, (), hwf.aliasNames_entries, rfl⟩

theorem capture_ok :
    ∃ snapshot, document.capture = .ok snapshot ∧
      snapshot.toRegistryPresence = document.toRegistryPresence ∧
      snapshot.claimedGenerations = document.claims.generations := by
  rw [capture, dif_pos hwf.rowNames_entries, dif_pos hwf.aliasNames_entries,
    dif_pos hwf.births_nodup]
  exact ⟨_, rfl, rfl, rfl⟩

end WellFormed

end RegistryDocument

/-- **The registry document stays well formed.** After every run of operations
from a well-formed document, statuses match declarations, every declared thread
holds an owner and a claim generation within their counters, aliases point from
undeclared names to declared ones, births are distinct, and both the decoder and
the snapshot accept the document. -/
theorem run_stays_wellFormed (ops : List (Environment × RegistryOp))
    (start : RegistryDocument) (hstart : start.WellFormed) :
    let document := run RegistryOp.perform ops start
    (∀ name, name ∈ document.statuses ↔ name ∈ document.threads) ∧
    (∀ name ∈ document.threads,
      (∃ generation, document.owners.generations.get? name = some generation ∧
        0 < generation ∧ generation ≤ document.owners.counter) ∧
      ∃ generation, document.claims.generations.get? name = some generation ∧
        0 < generation ∧ generation ≤ document.claims.counter) ∧
    (∀ former target, document.aliases.get? former = some target →
      former ∉ document.threads ∧ target ∈ document.threads) ∧
    (document.threads.values.map Thread.birth).Nodup ∧
    RegistryDocument.fromWire document.toWire =
      .ok { document with lastSeen := Dict.empty } ∧
    ∃ snapshot, document.capture = .ok snapshot := by
  intro document
  have hwf : document.WellFormed := run_invariant RegistryDocument.WellFormed
    (fun op before after hbefore hok => (RegistryOp.perform_evolves hbefore hok).wellFormed)
    ops hstart
  refine ⟨hwf.statusNames, fun name hname => ⟨?_, ?_⟩, fun former target hget => ?_,
    hwf.births_nodup, hwf.fromWire_toWire, ?_⟩
  · obtain ⟨generation, hget⟩ := Dict.mem_iff.mp (hwf.ownerNames name hname)
    exact ⟨generation, hget, document.owners.get?_bounded hget⟩
  · obtain ⟨generation, hget⟩ := Dict.mem_iff.mp (hwf.claimNames name hname)
    exact ⟨generation, hget, document.claims.get?_bounded hget⟩
  · exact (hwf.aliasNames former target hget).symm
  · obtain ⟨snapshot, hcapture, -, -⟩ := hwf.capture_ok
    exact ⟨snapshot, hcapture⟩

def sampleFields : ThreadFields where
  name := "alpha"
  tags := ∅
  createdAt := .recorded 1
  execution := .native
  parent := none
  processIdentity := .noProcess
  role := .agent
  turnRecord := .noTurnRecord
  channelScopeGeneration := 0
  turnGeneration := 0
  projectResumeDue := false
  offered := .unobserved
  offeredBeforeRestart := .unobserved

def sampleThread : Thread := ⟨sampleFields, by decide⟩

def sampleEnvironment : Environment where
  now := 0
  currentProcess := .noProcess
  processAlive := fun _ _ => false
  readTurn := fun _ _ => .ok none
  lastWritten := fun _ => 0

theorem run_stays_wellFormed_rename :
    RegistryDocument.empty.WellFormed ∧
    ∃ snapshot, (run RegistryOp.perform
      [(sampleEnvironment, .register sampleThread .process false),
       (sampleEnvironment, .rename "alpha" "beta")] RegistryDocument.empty).capture =
        .ok snapshot :=
  ⟨RegistryDocument.wellFormed_empty,
    (run_stays_wellFormed _ _ RegistryDocument.wellFormed_empty).2.2.2.2.2⟩

end AgentComms.Registry
