import AgentComms.Claims.Holders

/-!
# Sending one message once

`append_original` decides inside its own write whether a message is a resend: the bus is
searched for the identity of the record that was built, and one record with the same
publication content is the answer. A record that is appended is projected onto the claim
tables in the same write.
-/

namespace AgentComms.Sends

open Library Claims

/-- What a publication is compared by beside its identity and answers, and what the bus
assigns, the frozen recipients among it. -/
structure Parts where
  Content : Type
  Delivery : Type

variable {parts : Parts}

structure BusRecord (parts : Parts) where
  seq : ℕ
  sender : String
  messageId : String
  answers : List (ℕ × String)
  content : parts.Content
  delivery : parts.Delivery
  publicationKey : Option String
  /-- What its own rows answer: its target may have no name, and the teammate of its task no
  recorded birth. -/
  described : Checked Unit
  claimTransition : Option ClaimTransition

def BusRecord.identity (record : BusRecord parts) : String × String :=
  (record.sender, record.messageId)

def BusRecord.publicationSnapshot (record : BusRecord parts) :
    (String × String) × List (ℕ × String) × parts.Content :=
  (record.identity, record.answers, record.content)

/-- The bus rows and their claim tables; `last` is the highest sequence SQLite gave. -/
structure Bus (parts : Parts) where
  rows : List (BusRecord parts)
  last : ℕ
  claims : ClaimBus
  increasing : rows.Pairwise (·.seq < ·.seq)
  le_last : ∀ row ∈ rows, row.seq ≤ last

/-- A write's bus, and the record it reads back under the sequence it returns. -/
abbrev Written (parts : Parts) := Bus parts × BusRecord parts

/-- What builds the record of a sequence on the append connection. -/
abbrev Builder (parts : Parts) := ℕ → Bus parts → Checked (BusRecord parts)

namespace Bus

variable (bus : Bus parts) (record : BusRecord parts)

def nextSeq : ℕ := bus.last + 1

def stored : BusRecord parts := { record with seq := bus.nextSeq }

def insert (claims : ClaimBus) : Bus parts where
  rows := bus.rows ++ [bus.stored record]
  last := bus.nextSeq
  claims := claims
  increasing := List.pairwise_append.mpr ⟨bus.increasing, List.pairwise_singleton _ _,
    fun row hrow _ hnew => List.mem_singleton.mp hnew ▸ Nat.lt_succ_of_le (bus.le_last row hrow)⟩
  le_last := by
    intro row hrow
    obtain hrow | hrow := List.mem_append.mp hrow
    · exact Nat.le_succ_of_le (bus.le_last row hrow)
    · exact List.mem_singleton.mp hrow ▸ le_rfl

/-- The records `MessageIdentitySource` files under an identity. -/
def identified (identity : String × String) : List (BusRecord parts) :=
  bus.rows.filter fun row => row.identity = identity

/-- The row stored under a record's publication key. -/
def keyed : Option (BusRecord parts) :=
  bus.rows.find? fun row => row.publicationKey.isSome ∧ row.publicationKey = record.publicationKey

/-- `project_into` of the claim tables. -/
def project : Checked ClaimBus :=
  match record.claimTransition with
  | none => .ok { bus.claims with records := bus.claims.records ++ [none] }
  | some transition => bus.claims.append transition

/-- A claim transition is that of the message it is stored with. -/
def Binds : Prop := ∀ transition ∈ record.claimTransition, transition.owner = record.sender ∧
  transition.seq = bus.nextSeq ∧ transition.messageId = record.messageId

instance : Decidable (bus.Binds record) := inferInstanceAs (Decidable (∀ _ ∈ _, _))

/-- The record's publication key is new, its answers are recorded and distinct, and its rows
and its claims are accepted and leave these tables. -/
def Admits (claims : ClaimBus) : Prop :=
  bus.keyed record = none ∧
    (∀ answer ∈ record.answers, ∃ row ∈ bus.rows, (row.seq, row.messageId) = answer) ∧
    bus.Binds record ∧ (record.answers.map Prod.fst).Nodup ∧ record.described = .ok () ∧
    bus.project record = .ok claims

/-- How a write of this record answers: inserted or refused without a row of its identity,
answered by the only row when that has the same content, and refused otherwise. -/
def Decides (answer : Checked (Written parts)) : Prop :=
  match bus.identified record.identity with
  | [] =>
      (∃ claims, bus.Admits record claims ∧
        answer = .ok (bus.insert record claims, bus.stored record)) ∨
      (∀ claims, ¬ bus.Admits record claims) ∧ ∃ refusal, answer = .error refusal
  | [original] =>
      original.publicationSnapshot = record.publicationSnapshot ∧ answer = .ok (bus, original) ∨
      original.publicationSnapshot ≠ record.publicationSnapshot ∧ ∃ refusal, answer = .error refusal
  | _ => ∃ refusal, answer = .error refusal

variable [DecidableEq parts.Content]

/-- `append_to` under the next sequence. -/
def appendTo : Checked (Written parts) :=
  match bus.keyed record with
  | some original => do
      require (record.publicationSnapshot = original.publicationSnapshot)
        (.relationViolation "Response publication key has different message content.")
      pure (bus, original)
  | none => do
      require (∀ answer ∈ record.answers, ∃ row ∈ bus.rows, (row.seq, row.messageId) = answer)
        (.relationViolation "Message reference does not match a recorded message identity")
      require (bus.Binds record)
        (.relationViolation "Claim transition does not bind this message.")
      -- the rows of `AnsweredSource`, by answered sequence
      require (record.answers.map Prod.fst).Nodup (.relationViolation "UNIQUE constraint failed")
      record.described
      let claims ← bus.project record
      pure (bus.insert record claims, bus.stored record)

variable (build : Builder parts)

def append : Checked (Written parts) := do
  bus.appendTo (← build bus.nextSeq bus)

def appendOriginal : Checked (Written parts) := do
  let record ← build bus.nextSeq bus
  match (bus.identified record.identity).take 2 with
  | [] => bus.appendTo record
  | [original] => do
      require (original.publicationSnapshot = record.publicationSnapshot)
        (.relationViolation "A resend under this message identity has different content.")
      pure (bus, original)
  | _ => .error (.relationViolation
      "This message identity names more than one recorded message.")

end Bus

inductive Call (parts : Parts)
  | append (build : Builder parts)
  | appendOriginal (build : Builder parts)

namespace Call

def perform [DecidableEq parts.Content] (bus : Bus parts) : Call parts → Checked (Written parts)
  | append build => bus.append build
  | appendOriginal build => bus.appendOriginal build

def step [DecidableEq parts.Content] (call : Call parts) (bus : Bus parts) :
    Checked (Bus parts) := Prod.fst <$> call.perform bus

/-- A plain append never builds a record of this identity. -/
def Leaves (identity : String × String) : Call parts → Prop
  | append build => ∀ seq bus record, build seq bus = .ok record → record.identity ≠ identity
  | appendOriginal _ => True

end Call

open Call

variable {bus written : Bus parts} {record row original : BusRecord parts} {build : Builder parts}
  {identity : String × String} {call : Call parts} {claims : ClaimBus}

/-- No publication key has two rows, a row answers rows before it, and the claim log has each
row's transition at its sequence. -/
structure Bus.Sound (bus : Bus parts) : Prop where
  keys : bus.rows.Pairwise fun earlier later =>
    earlier.publicationKey.isSome → earlier.publicationKey ≠ later.publicationKey
  answers : ∀ row ∈ bus.rows, ∀ answer ∈ row.answers,
    ∃ earlier ∈ bus.rows, earlier.seq < row.seq ∧ (earlier.seq, earlier.messageId) = answer
  logged : bus.claims.lastSeq = bus.last
  transitions : ∀ row ∈ bus.rows, bus.claims.transitionAt row.seq = row.claimTransition

theorem project_records (hok : bus.project record = .ok claims) :
    claims.records = bus.claims.records ++ [record.claimTransition] := by
  unfold Bus.project at hok
  split at hok
  next hnone =>
    cases hok
    rw [hnone]
  next transition hsome =>
    simp only [ClaimBus.append, ClaimBus.applyHeld, do_eq_ok] at hok
    obtain ⟨_, -, _, -, _, -, rfl⟩ := hok
    rw [hsome]

theorem Bus.Sound.insert (hsound : bus.Sound) (hadmits : bus.Admits record claims) :
    (bus.insert record claims).Sound where
  keys := by
    refine List.pairwise_append.mpr ⟨hsound.keys, List.pairwise_singleton _ _, ?_⟩
    intro earlier hearlier later hlater hkey hsame
    rw [List.mem_singleton.mp hlater] at hsame
    exact List.find?_eq_none.mp hadmits.1 earlier hearlier (decide_eq_true ⟨hkey, hsame⟩)
  answers := by
    intro row hrow answer hanswer
    have hback : ∃ earlier ∈ bus.rows, earlier.seq < row.seq ∧
        (earlier.seq, earlier.messageId) = answer := by
      obtain hold | hnew := List.mem_append.mp hrow
      · exact hsound.answers row hold answer hanswer
      · cases List.mem_singleton.mp hnew
        obtain ⟨earlier, hearlier, hsame⟩ := hadmits.2.1 answer hanswer
        exact ⟨earlier, hearlier, Nat.lt_succ_of_le (bus.le_last _ hearlier), hsame⟩
    exact hback.imp fun _ => And.imp_left (List.mem_append_left _)
  logged := by
    obtain ⟨-, -, -, -, -, hproject⟩ := hadmits
    show claims.lastSeq = bus.last + 1
    rw [ClaimBus.lastSeq, project_records hproject, List.length_append, ← hsound.logged]
    rfl
  transitions := by
    obtain ⟨-, -, -, -, -, hproject⟩ := hadmits
    have hrecords := project_records hproject
    intro row hrow
    obtain hold | hnew := List.mem_append.mp hrow
    · rw [← hsound.transitions row hold]
      exact ClaimBus.transitionAt_of_le hrecords (hsound.logged ▸ bus.le_last row hold)
    · cases List.mem_singleton.mp hnew
      have hnext := ClaimBus.transitionAt_nextSeq hrecords
      rwa [ClaimBus.nextSeq, hsound.logged] at hnext

theorem identified_insert :
    (bus.insert record claims).identified identity = bus.identified identity ++
    if record.identity = identity then [bus.stored record] else [] := by
  simp only [Bus.identified, Bus.insert, List.filter_append, List.filter_cons, List.filter_nil,
    decide_eq_true_eq]
  rfl

variable [DecidableEq parts.Content]

/-! ### One call -/

theorem appendTo_cases (hok : bus.appendTo record = .ok (written, row)) :
    written = bus ∨ ∃ claims, written = bus.insert record claims ∧ bus.Admits record claims := by
  unfold Bus.appendTo at hok
  split at hok
  · simp only [do_eq_ok] at hok
    obtain ⟨_, -, rfl, -⟩ := hok
    exact .inl rfl
  next hkeyed =>
    simp only [do_eq_ok] at hok
    obtain ⟨_, hanswers, _, hbinds, _, hdistinct, _, hdescribed, claims, hproject, rfl, -⟩ := hok
    exact .inr ⟨claims, rfl, hkeyed, hanswers, hbinds, hdistinct, hdescribed, hproject⟩

/-- Without a row of its identity a record is inserted or refused: a row with its publication
key and content would have its identity. -/
theorem appendTo_fresh (hfresh : bus.identified record.identity = []) :
    (∃ claims, bus.Admits record claims ∧
      bus.appendTo record = .ok (bus.insert record claims, bus.stored record)) ∨
    (∀ claims, ¬ bus.Admits record claims) ∧ ∃ refusal, bus.appendTo record = .error refusal := by
  by_cases hadmits : ∃ claims, bus.Admits record claims
  · obtain ⟨claims, hadmits⟩ := hadmits
    refine .inl ⟨claims, hadmits, ?_⟩
    obtain ⟨hkeyed, hanswers, hbinds, hdistinct, hdescribed, hproject⟩ := hadmits
    rw [Bus.appendTo, hkeyed, require, if_pos hanswers, require, if_pos hbinds, require,
      if_pos hdistinct, hdescribed, hproject]
    rfl
  rw [not_exists] at hadmits
  refine .inr ⟨hadmits, ?_⟩
  rcases hanswer : bus.appendTo record with refusal | answer
  · exact ⟨refusal, rfl⟩
  unfold Bus.appendTo at hanswer
  split at hanswer
  next original hkeyed =>
    simp only [do_eq_ok] at hanswer
    obtain ⟨_, hsame, -⟩ := hanswer
    have hidentity : original.identity = record.identity := (congrArg Prod.fst hsame).symm
    have hmem : original ∈ bus.identified record.identity :=
      List.mem_filter.mpr ⟨List.mem_of_find?_eq_some hkeyed, decide_eq_true hidentity⟩
    rw [hfresh] at hmem
    cases hmem
  next hkeyed =>
    simp only [do_eq_ok] at hanswer
    obtain ⟨_, hanswers, _, hbinds, _, hdistinct, _, hdescribed, claims, hproject, -⟩ := hanswer
    exact absurd ⟨hkeyed, hanswers, hbinds, hdistinct, hdescribed, hproject⟩ (hadmits claims)

theorem appendOriginal_decides (hbuild : build bus.nextSeq bus = .ok record) :
    bus.Decides record (bus.appendOriginal build) := by
  unfold Bus.Decides Bus.appendOriginal
  rw [hbuild]
  rcases hrows : bus.identified record.identity with _ | ⟨original, _ | ⟨second, rest⟩⟩
  · simpa [bind, Except.bind, hrows] using appendTo_fresh hrows
  · by_cases hsame : original.publicationSnapshot = record.publicationSnapshot
    · simp [hrows, hsame, require, bind, Except.bind, pure, Except.pure]
    · simp [hrows, hsame, require, bind, Except.bind]
  · simp [hrows, bind, Except.bind]

theorem appendOriginal_cases (hok : bus.appendOriginal build = .ok (written, row)) :
    written.identified row.identity = [row] ∧ (written = bus ∨ bus.identified row.identity = [] ∧
      ∃ record claims, written = bus.insert record claims ∧ bus.Admits record claims ∧
        row = bus.stored record) := by
  obtain ⟨record, hbuild, -⟩ := bind_eq_ok.mp hok
  have hdecides := appendOriginal_decides hbuild
  rw [hok] at hdecides
  unfold Bus.Decides at hdecides
  split at hdecides
  next hnone =>
    obtain ⟨claims, hadmits, hanswer⟩ | ⟨-, _, hanswer⟩ := hdecides <;> cases hanswer
    refine ⟨?_, .inr ⟨hnone, record, claims, rfl, hadmits, rfl⟩⟩
    rw [identified_insert, show bus.identified (bus.stored record).identity = [] from hnone]
    exact if_pos rfl
  next original hone =>
    obtain ⟨-, hanswer⟩ | ⟨-, _, hanswer⟩ := hdecides <;> cases hanswer
    have hidentity := (List.mem_filter.mp (hone ▸ List.mem_singleton_self row)).2
    exact ⟨of_decide_eq_true hidentity ▸ hone, .inl rfl⟩
  next =>
    obtain ⟨_, hanswer⟩ := hdecides
    cases hanswer

/-- A call inserts at most one record, and of an identity that plain appends leave alone only
the first. -/
theorem perform_cases (hok : call.perform bus = .ok (written, row)) :
    written = bus ∨ ∃ record claims, written = bus.insert record claims ∧
      bus.Admits record claims ∧
        (call.Leaves record.identity → bus.identified record.identity = []) := by
  cases call with
  | append build =>
    obtain ⟨record, hbuild, hinsert⟩ := bind_eq_ok.mp hok
    obtain hsame | ⟨claims, hinserted, hadmits⟩ := appendTo_cases hinsert
    exacts [.inl hsame, .inr ⟨record, claims, hinserted, hadmits,
      fun hleaves => absurd rfl (hleaves _ _ _ hbuild)⟩]
  | appendOriginal build =>
    obtain ⟨-, hsame | ⟨hnone, record, claims, hinserted, hadmits, rfl⟩⟩ :=
      appendOriginal_cases hok
    exacts [.inl hsame, .inr ⟨record, claims, hinserted, hadmits, fun _ => hnone⟩]

/-! ### Calls one after another -/

/-- Rows are only added, under the next sequences, and none beside the only row of an identity
that plain appends leave alone. -/
theorem run_calls (calls : List (Call parts)) (bus : Bus parts) :
    (∃ added, (run step calls bus).rows = bus.rows ++ added ∧
      added.map BusRecord.seq = List.range' bus.nextSeq added.length) ∧
    ∀ identity original, (∀ call ∈ calls, call.Leaves identity) →
      bus.identified identity = [original] →
      (run step calls bus).identified identity = [original] := by
  induction calls generalizing bus with
  | nil => exact ⟨⟨[], (List.append_nil _).symm, rfl⟩, fun _ _ _ hone => hone⟩
  | cons call calls ih =>
    simp only [run_cons, List.forall_mem_cons]
    obtain ⟨⟨added, hrows, hseqs⟩, hkept⟩ := ih (commit (step call) bus)
    obtain hok | hsame := commit_cases (step call) bus
    · obtain ⟨⟨written, row⟩, hperform, hwritten⟩ := map_eq_ok.mp hok
      rw [← hwritten] at hrows hseqs hkept ⊢
      obtain rfl | ⟨record, claims, rfl, -, hfirst⟩ := perform_cases hperform
      · exact ⟨⟨added, hrows, hseqs⟩, fun identity original hleaves => hkept _ _ hleaves.2⟩
      · refine ⟨⟨bus.stored record :: added, by simpa [Bus.insert] using hrows, ?_⟩, ?_⟩
        · rw [List.map_cons, hseqs]
          rfl
        · intro identity original hleaves hone
          have hother : record.identity ≠ identity := by
            rintro rfl
            cases hone.symm.trans (hfirst hleaves.1)
          refine hkept identity original hleaves.2 ?_
          rw [identified_insert, if_neg hother, List.append_nil, hone]
    · rw [hsame] at hrows hseqs hkept ⊢
      exact ⟨⟨added, hrows, hseqs⟩, fun identity original hleaves => hkept _ _ hleaves.2⟩

/-- A resend is answered by its original, and however calls interleave an identity that no plain
append uses has one row once a send of it was accepted. -/
theorem resend_answers_original :
    (∀ (bus : Bus parts) build record, build bus.nextSeq bus = .ok record →
      bus.Decides record (bus.appendOriginal build)) ∧
    (∀ (bus : Bus parts) calls, ∃ added, (run step calls bus).rows = bus.rows ++ added ∧
        added.map BusRecord.seq = List.range' bus.nextSeq added.length) ∧
    ∀ (bus : Bus parts) identity earlier build later written row,
      (∀ call ∈ later, Leaves identity call) →
      (run step earlier bus).appendOriginal build = .ok (written, row) → row.identity = identity →
      (run step (earlier ++ .appendOriginal build :: later) bus).identified identity = [row] := by
  refine ⟨fun bus build record => appendOriginal_decides, fun bus calls => (run_calls calls bus).1,
    ?_⟩
  rintro bus _ earlier build later written row hleaves hok rfl
  have hstep : commit (step (.appendOriginal build)) (run step earlier bus) = written :=
    commit_of_ok (map_eq_ok.mpr ⟨_, hok, rfl⟩)
  rw [run_append, run_cons, hstep]
  exact (run_calls later written).2 _ row hleaves (appendOriginal_cases hok).1

/-- A first send that answers an unrecorded message is refused and appends nothing. -/
theorem unrecorded_answer_refused :
    let record : BusRecord ⟨Unit, Unit⟩ := ⟨0, "a", "m", [(7, "n")], (), (), none, .ok (), none⟩
    let bus : Bus ⟨Unit, Unit⟩ := ⟨[], 0, .empty, .nil, List.forall_mem_nil _⟩
    bus.identified record.identity = [] ∧ bus.appendOriginal (fun _ _ => .ok record) =
      .error (.relationViolation "Message reference does not match a recorded message identity") :=
  ⟨rfl, rfl⟩

/-- However sends interleave, a publication key has one row, answers refer back, and the claim
log has the transition of each row. -/
theorem keyed_once_answers_back (calls : List (Call parts)) :
    (run step calls (⟨[], 0, .empty, .nil, List.forall_mem_nil _⟩ : Bus parts)).Sound := by
  refine run_invariant Bus.Sound (fun call bus _ hsound hok => ?_) calls
    ⟨.nil, by simp, rfl, by simp⟩
  obtain ⟨⟨written, row⟩, hperform, rfl⟩ := map_eq_ok.mp hok
  obtain rfl | ⟨record, claims, rfl, hadmits, -⟩ := perform_cases hperform
  exacts [hsound, hsound.insert hadmits]

end AgentComms.Sends
