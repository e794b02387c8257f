import AgentComms.Registry.Wire

/-!
# The names messages carry

`RegistrySnapshot.participant` resolves the sender and target of a stored
message. It knows a name that is declared, retained as an alias or recorded by
its claim generation. Removal drops the aliases of the removed thread, and
`rename` has moved the generation of the former name to the new one, so a
renamed and then removed thread is forgotten under its first name. Every other
name stays known.
-/

namespace AgentComms.Registry

open Library

namespace RegistryDocument

/-- A known name of a well-formed document resolves to the thread that holds it
now or to the record of a deleted one. -/
theorem WellFormed.participant_ok {document : RegistryDocument} {name : Name}
    (hwf : document.WellFormed) (hknown : document.Known name) :
    ∃ snapshot participant, document.capture = .ok snapshot ∧
      snapshot.participant name = .ok participant := by
  obtain ⟨snapshot, hcapture, hpresence, hclaimed⟩ := hwf.capture_ok
  refine ⟨snapshot, ?_⟩
  have hcanonical : snapshot.canonicalName name = document.canonicalName name :=
    congrArg (RegistryPresence.canonicalName · name) hpresence
  have hthreads : snapshot.threads = document.threads := congrArg RegistryPresence.threads hpresence
  simp only [RegistrySnapshot.participant, hcanonical, hthreads]
  cases hget : document.threads.get? (document.canonicalName name) with
  | some => exact ⟨_, hcapture, rfl⟩
  | none =>
    -- No declaration and no alias, so the claim generation records the name.
    have hundeclared := Dict.get?_eq_none_iff.mp hget
    have halias : document.aliases.get? name = none := by
      cases halias : document.aliases.get? name with
      | none => rfl
      | some target =>
        rw [RegistryPresence.canonicalName, halias] at hundeclared
        exact absurd (hwf.aliasNames name target halias).1 hundeclared
    have hsame : document.canonicalName name = name := by
      simp [RegistryPresence.canonicalName, halias]
    rw [hsame] at hundeclared ⊢
    have hclaim : name ∈ document.claims.generations := by
      rcases hknown with hname | hname | hname
      · exact absurd hname hundeclared
      · exact absurd hname (Dict.get?_eq_none_iff.mp halias)
      · exact hname
    have hretired : snapshot.retired name = true := by
      simp [RegistrySnapshot.retired, hclaimed, hthreads, hclaim, hundeclared]
    exact ⟨_, hcapture, by rw [if_pos hretired]⟩

end RegistryDocument

open RegistryOp (perform)

/-- Every removal of the run leaves a claim generation to each alias it drops. -/
def RetainsNames : List (Environment × RegistryOp) → RegistryDocument → Prop
  | [], _ => True
  | op :: ops, document =>
    (∀ edited former, perform op document = .ok edited →
      ¬ op.2.lost document former) ∧
      RetainsNames ops (commit (perform op) document)

theorem run_knows {ops : List (Environment × RegistryOp)} {document : RegistryDocument}
    {name : Name} (hwf : document.WellFormed) (hknown : document.Known name)
    (hretains : RetainsNames ops document) :
    (run perform ops document).WellFormed ∧
      (run perform ops document).Known name := by
  induction ops generalizing document with
  | nil => exact ⟨hwf, hknown⟩
  | cons op ops ih =>
    obtain ⟨hkept, hrest⟩ := hretains
    rw [run_cons]
    rcases commit_cases (perform op) document with hok | hcommit
    · have hevolves := RegistryOp.perform_evolves hwf hok
      refine ih hevolves.wellFormed ?_ hrest
      exact (hevolves.known name hknown).resolve_right (hkept _ name hok)
    · rw [hcommit] at hrest ⊢
      exact ih hwf hknown hrest

open RegistryDocument (empty)

/-- **A declared name stays a known participant.** While no removal drops an
alias without a claim generation, the snapshot after any later operations still
resolves a name declared at some point of the run. -/
theorem declared_name_stays_participant (first rest : List (Environment × RegistryOp)) (name : Name)
    (hdeclared : name ∈ (run perform first empty).threads)
    (hretains : RetainsNames rest (run perform first empty)) :
    ∃ snapshot participant,
      (run perform (first ++ rest) empty).capture = .ok snapshot ∧
        snapshot.participant name = .ok participant := by
  have hwf : (run perform first empty).WellFormed :=
    run_invariant RegistryDocument.WellFormed
      (fun op before after hbefore hok => (RegistryOp.perform_evolves hbefore hok).wellFormed)
      first RegistryDocument.wellFormed_empty
  rw [run_append]
  obtain ⟨hwf', hknown⟩ := run_knows hwf (.inl hdeclared) hretains
  exact hwf'.participant_ok hknown

theorem declared_name_stays_participant_removed :
    "alpha" ∈ (run perform
      [(sampleEnvironment, .register sampleThread .process false)]
        empty).threads ∧
    RetainsNames [(sampleEnvironment, .remove "alpha")] (run perform
      [(sampleEnvironment, .register sampleThread .process false)] empty) ∧
    ∃ snapshot participant, (run perform
      [(sampleEnvironment, .register sampleThread .process false),
       (sampleEnvironment, .remove "alpha")] empty).capture =
        .ok snapshot ∧ snapshot.participant "alpha" = .ok participant := by
  have hdeclared : "alpha" ∈ (run perform
      [(sampleEnvironment, .register sampleThread .process false)]
        empty).threads := by decide
  have hretains : RetainsNames [(sampleEnvironment, .remove "alpha")] (run perform
      [(sampleEnvironment, .register sampleThread .process false)] empty) := by
    refine ⟨fun edited former _ hlost => ?_, trivial⟩
    have hnone : (run perform
      [(sampleEnvironment, .register sampleThread .process false)]
        empty).aliases = Dict.empty := by decide
    have halias := hlost.1
    rw [hnone] at halias
    cases halias
  exact ⟨hdeclared, hretains, declared_name_stays_participant _ _ "alpha" hdeclared hretains⟩

/-- Renaming moves the generation of the first name, and removal then drops the
alias: the name of the sender of a stored message was never registered. -/
theorem renamed_name_forgotten_by_remove :
    "alpha" ∈ (run perform
      [(sampleEnvironment, .register sampleThread .process false)]
        empty).threads ∧
    ((run perform
      [(sampleEnvironment, .register sampleThread .process false),
       (sampleEnvironment, .rename "alpha" "beta"),
       (sampleEnvironment, .remove "beta")] empty).capture >>=
        fun snapshot => snapshot.participant "alpha") =
      .error (.unregisteredThread "Thread 'alpha' was never registered.") := by
  constructor
  · decide
  · decide +kernel

end AgentComms.Registry
