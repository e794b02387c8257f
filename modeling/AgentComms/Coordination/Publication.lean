import AgentComms.Coordination.Runs

/-!
# Publishing a reply at most once

`publish_fenced_response` runs two transactions with an append to the bus inside
the second. A `World` is the coordinator store, the bus, and the calls that are
between their transactions; a call may be lost at any point, and the append
survives when the second transaction does not commit.
-/

namespace AgentComms.Coordination

open Library

variable {store : Store} {boundary : ResponseBoundary} {receipt : PublicationEvidence}

/-! ### The bus -/

/-- A bus row; a reply carries its publication key. -/
structure BusRecord where
  publicationKey : Option String
  message : Message
deriving DecidableEq

structure Bus where
  records : List BusRecord

/-- What the registry and the channels decide about one reply when it is appended:
whether it may be sent, its resolved sender and target, and what the bus adds. -/
structure Delivery where
  verdict : Checked Unit
  sender : String
  target : String
  senderRole : SenderRole
  mentions : List (Nat × Nat × String)

namespace Bus

def empty : Bus := ⟨[]⟩

variable (bus : Bus)

def keyed (publicationKey : String) : List Message :=
  (bus.records.filter fun record => record.publicationKey == some publicationKey).map
    BusRecord.message

def keyedMessages (publicationKey : String) : List Message :=
  (bus.keyed publicationKey).take 1

def published (intent : PublicationIntent) : Checked (Option Message) :=
  match bus.keyedMessages intent.publicationKey with
  | [] => pure none
  | message :: _ => do
      require (intent.message = message.publicationSnapshot)
        (.relationViolation "Response publication key has different message content.")
      pure (some message)

def nextSeq : Nat := bus.records.length + 1

def post (message : Message) : Bus :=
  ⟨bus.records ++ [⟨none, { message with seq := bus.nextSeq }⟩]⟩

/-- `KeyedPublication.append_to`: a stored key answers its original row. -/
def appendKeyed (publicationKey : String) (stored : Message) : Checked (Bus × Message) :=
  match bus.keyedMessages publicationKey with
  | original :: _ => do
      require (stored.publicationSnapshot = original.publicationSnapshot)
        (.relationViolation "Response publication key has different message content.")
      pure (bus, original)
  | [] => pure (⟨bus.records ++ [⟨some publicationKey, stored⟩]⟩, stored)

/-- `_prepare_message_unlocked` for an intent's message. -/
def prepare (intent : PublicationIntent) (delivery : Delivery) : Message :=
  { intent.message with
    sender := delivery.sender, target := delivery.target, seq := bus.nextSeq,
    senderRole := delivery.senderRole, mentions := delivery.mentions }

def publishKeyed (intent : PublicationIntent) (delivery : Delivery) : Checked (Bus × Message) := do
  match ← bus.published intent with
  | some matched => pure (bus, matched)
  | none => do
      delivery.verdict
      require (intent.publicationKey =
          canonicalPublicationKey intent.executionId delivery.target)
        (.relationViolation "Response publication key does not match its route.")
      require (intent.message = (bus.prepare intent delivery).publicationSnapshot)
        (.relationViolation "Stored response does not match publication intent.")
      bus.appendKeyed intent.publicationKey (bus.prepare intent delivery)

end Bus

def ResponseBoundary.over (boundary : ResponseBoundary) (bus : Bus) : ResponseBoundary :=
  { boundary with published := bus.published }

/-- An operation whose bus reads are answered by this bus; on its own it appends
nothing. -/
def Op.over (op : Op) (bus : Bus) : Op :=
  match op with
  | .dispatchFencedResponse clock fence exactTarget boundary =>
    .dispatchFencedResponse clock fence exactTarget (boundary.over bus)
  | .settleFencedResponse clock fence exactTarget boundary _ =>
    .settleFencedResponse clock fence exactTarget (boundary.over bus) none
  | .resolveRetained clock executionId exactTarget boundary =>
    .resolveRetained clock executionId exactTarget (boundary.over bus)
  | op => op

/-! ### Worlds -/

/-- A `publish_fenced_response` call between its transactions; `firstDispatch` is its
local flag. -/
structure PublishCall where
  fence : OwnerFence
  exactTarget : String
  firstDispatch : Bool
deriving DecidableEq

def PublishCall.route (call : PublishCall) : ExecutionId × String :=
  (call.fence.executionId, call.exactTarget)

structure World where
  store : Store
  bus : Bus
  calls : List PublishCall

namespace World

def empty : World := ⟨Store.empty, Bus.empty, []⟩

def append (world : World) (call : PublishCall) (boundary : ResponseBoundary)
    (delivery : Delivery) : Bus × Option Message :=
  match world.store.settlementBasis call.fence call.exactTarget (boundary.over world.bus) with
  | .ok (some basis) =>
    if basis.matched = none ∧ call.firstDispatch then
      match world.bus.publishKeyed basis.intent delivery with
      | .ok (bus, message) => (bus, some message)
      | .error _ => (world.bus, none)
    else (world.bus, none)
  | _ => (world.bus, none)

/-- The second transaction of a call. A call that crashes, or whose transaction is
refused, leaves the store; what it appended stays. -/
def settle (world : World) (clock : Clock) (call : PublishCall) (boundary : ResponseBoundary)
    (delivery : Delivery) (crashed : Bool) : World :=
  let appended := world.append call boundary delivery
  { world with
    bus := appended.1
    store := if crashed then world.store else
      commit (perform (.settleFencedResponse clock call.fence call.exactTarget
        (boundary.over world.bus) appended.2)) world.store }

end World

inductive Event where
  /-- Any coordinator operation that appends nothing. -/
  | operate (op : Op)
  /-- Another writer appends a message of its own. -/
  | post (message : Message)
  /-- A publish call runs its first transaction. -/
  | dispatch (clock : Clock) (fence : OwnerFence) (exactTarget : String)
      (boundary : ResponseBoundary)
  /-- The publish call at `index` runs its second transaction, or crashes in it after
      its append. -/
  | settle (index : Nat) (clock : Clock) (boundary : ResponseBoundary) (delivery : Delivery)
      (crashed : Bool)

def World.step (world : World) : Event → World
  | .operate op =>
    { world with store := commit (perform (op.over world.bus)) world.store }
  | .post message => { world with bus := world.bus.post message }
  | .dispatch clock fence exactTarget boundary =>
    match world.store.dispatchFencedResponse clock fence exactTarget
        (boundary.over world.bus) with
    | .ok (store, some first) =>
      { world with store, calls := world.calls ++ [⟨fence, exactTarget, first⟩] }
    | .ok (store, none) => { world with store }
    | .error _ => world
  | .settle index clock boundary delivery crashed =>
    match world.calls[index]? with
    | none => world
    | some call =>
      { world.settle clock call boundary delivery crashed with
        calls := world.calls.eraseIdx index }

def World.after (events : List Event) : World := events.foldl World.step World.empty

/-! ### Publication keys -/

/-- An execution id has no colon, so a key names one route. -/
theorem canonicalPublicationKey_inj {executionId executionId' : ExecutionId}
    {exactTarget exactTarget' : String} (hvalid : validExecutionId executionId = true)
    (hvalid' : validExecutionId executionId' = true)
    (hkey : canonicalPublicationKey executionId exactTarget =
      canonicalPublicationKey executionId' exactTarget') :
    executionId = executionId' ∧ exactTarget = exactTarget' := by
  -- The id is what stands before the first colon.
  have hbefore : ∀ {id : ExecutionId} {target : String}, validExecutionId id = true →
      (id.toList ++ (":".toList ++ target.toList)).takeWhile (· != ':') = id.toList := by
    intro id target hvalid
    simp only [validExecutionId, Bool.and_eq_true, Bool.not_eq_true', List.contains_eq_mem,
      decide_eq_false_iff_not] at hvalid
    rw [List.takeWhile_append_of_pos fun c hc => by
      rw [bne_iff_ne]
      rintro rfl
      exact hvalid.2 hc]
    simp
  have hlist := congrArg String.toList hkey
  simp only [canonicalPublicationKey, String.toList_append, List.append_assoc,
    List.append_cancel_left_eq] at hlist
  have hid : executionId.toList = executionId'.toList := by
    rw [← hbefore hvalid, hlist, hbefore hvalid']
  rw [hid, List.append_cancel_left_eq, List.append_cancel_left_eq] at hlist
  exact ⟨String.toList_inj.mp hid, String.toList_inj.mp hlist⟩

/-- The key of a frozen intent is that of its route. -/
theorem publicationKey_of_intent {route : ExecutionId × String} {intent : PublicationIntent}
    (hintent : store.publicationIntents.get? route = some intent) :
    intent.publicationKey = canonicalPublicationKey route.1 route.2 ∧
      validExecutionId route.1 = true := by
  obtain ⟨hid, -, -, -, -, -, hkey, -⟩ := store.publicationIntents.valid _ _ hintent
  obtain rfl : (intent.executionId, intent.exactTarget) = route :=
    store.publicationIntents.keyed _ _ hintent
  exact ⟨hkey, hid⟩

namespace Bus

variable {bus bus' : Bus} {intent : PublicationIntent} {message : Message}

@[simp] theorem keyed_post (bus : Bus) (message : Message) (publicationKey : String) :
    (bus.post message).keyed publicationKey = bus.keyed publicationKey := by
  simp [keyed, post]

theorem keyed_append (records : List BusRecord) (key publicationKey : String) (message : Message) :
    (Bus.mk (records ++ [⟨some key, message⟩])).keyed publicationKey =
      (Bus.mk records).keyed publicationKey ++ if key = publicationKey then [message] else [] := by
  by_cases hkey : key = publicationKey <;> simp [keyed, hkey]

theorem mem_keyed_of_published (hok : bus.published intent = .ok (some message)) :
    message ∈ bus.keyed intent.publicationKey := by
  unfold published keyedMessages at hok
  split at hok
  · cases hok
  next head rest htake =>
    simp only [do_eq_ok, Option.some.injEq] at hok
    obtain ⟨_, -, rfl⟩ := hok
    exact List.mem_of_mem_take (htake ▸ List.mem_cons_self)

theorem keyedMessages_eq_nil {publicationKey : String} :
    bus.keyedMessages publicationKey = [] ↔ bus.keyed publicationKey = [] := by
  simp [keyedMessages, List.take_eq_nil_iff]

theorem keyed_of_unpublished (hok : bus.published intent = .ok none) :
    bus.keyed intent.publicationKey = [] := by
  unfold published at hok
  split at hok
  next hnil => exact keyedMessages_eq_nil.mp hnil
  · simp only [do_eq_ok] at hok
    obtain ⟨_, -, hnone⟩ := hok
    cases hnone

end Bus

/-! ### The first transaction -/

/-- A call is first exactly when its own transaction inserted the dispatch row. -/
theorem Store.dispatchFencedResponse_eq_ok {store' : Store} {clock : Clock} {fence : OwnerFence}
    {exactTarget : String} {first : Bool}
    (hok : store.dispatchFencedResponse clock fence exactTarget boundary =
      .ok (store', some first)) :
    (first = true ↔ store.appendDispatches.get? (fence.executionId, exactTarget) = none) ∧
      (store'.appendDispatches.get? (fence.executionId, exactTarget)).isSome = true ∧
      (store.publicationIntents.get? (fence.executionId, exactTarget)).isSome = true := by
  obtain ⟨hok, -⟩ := writing_eq_ok.mp hok
  obtain ⟨_, -, hok⟩ := bind_eq_ok.mp hok
  obtain ⟨replay, -, hok⟩ := bind_eq_ok.mp hok
  cases replay with
  | some => cases hok
  | none =>
    simp only [do_eq_ok, Option.some.injEq] at hok
    obtain ⟨snapshot, howner, _, hintent, ⟨after, first'⟩, hdispatch, rfl, rfl⟩ := hok
    have hfrozen : (store.publicationIntents.get? (fence.executionId, exactTarget)).isSome =
        true := by
      obtain ⟨⟨intent, obligation⟩, hpublishing, -⟩ := map_eq_ok.mp hintent
      rw [requirePublishingIntent_eq_ok (requireFinalOwner_eq_ok howner).1 hpublishing]
      rfl
    unfold dispatchOnce at hdispatch
    split at hdispatch
    next hnone =>
      simp only [insertAppendDispatch, do_eq_ok, accepted_eq_ok] at hdispatch
      obtain ⟨_, ⟨-, -, table, hinsert, rfl⟩, rfl, rfl⟩ := hdispatch
      refine ⟨⟨fun _ => hnone, fun _ => rfl⟩, ?_, hfrozen⟩
      exact ((Table.inserted_of_insert? hinsert).isSome_get? _).mpr (.inl rfl)
    next prior hprior =>
      simp only [do_eq_ok] at hdispatch
      obtain ⟨_, -, rfl, rfl⟩ := hdispatch
      refine ⟨⟨nofun, fun hnone => ?_⟩, by rw [hprior]; rfl, hfrozen⟩
      rw [hprior] at hnone
      cases hnone

/-! ### The append of the second transaction -/

inductive Appended (world : World) (call : PublishCall) : Bus × Option Message → Prop
  | nothing : Appended world call (world.bus, none)
  | reply (intent : PublicationIntent) (message : Message)
      (hfirst : call.firstDispatch = true)
      (hintent : world.store.publicationIntents.get? call.route = some intent)
      (hdispatch : (world.store.appendDispatches.get? call.route).isSome = true)
      (hunsent : world.bus.keyed intent.publicationKey = []) :
      Appended world call
        (⟨world.bus.records ++ [⟨some intent.publicationKey, message⟩]⟩, some message)

theorem World.append_cases (world : World) (call : PublishCall) (boundary : ResponseBoundary)
    (delivery : Delivery) : Appended world call (world.append call boundary delivery) := by
  unfold append
  split
  next basis hbasis =>
    obtain ⟨hintent, hpublished, hdispatch⟩ := Store.settlementBasis_eq_ok hbasis
    split
    next hfirst =>
      rw [hfirst.1] at hpublished
      split
      next bus message hpublish =>
        -- an unpublished reply that is accepted is appended once, under its key
        have hkeyed := Bus.keyed_of_unpublished hpublished
        obtain ⟨matched, hmatched, happend⟩ := bind_eq_ok.mp hpublish
        obtain rfl := Except.ok.inj (hpublished.symm.trans hmatched)
        simp only [bind_eq_ok] at happend
        obtain ⟨_, -, _, -, _, -, happend⟩ := happend
        rw [Bus.appendKeyed, Bus.keyedMessages_eq_nil.mpr hkeyed] at happend
        cases happend
        exact .reply basis.intent _ hfirst.2 hintent hdispatch hkeyed
      · exact .nothing
    · exact .nothing
  · exact .nothing

/-! ### The invariant -/

def ReceiptsOnBus (store : Store) (bus : Bus) : Prop :=
  ∀ executionId exactTarget receipt,
    store.publicationReceipts.get? (executionId, exactTarget) = some receipt →
    ∃ message ∈ bus.keyed (canonicalPublicationKey executionId exactTarget),
      message.seq = receipt.seq ∧ message.messageId = receipt.messageId

/-- What holds in every world: a key has at most one row; a call that is first has its
dispatch row, is the only one of its route and has nothing on the bus yet; a row on
the bus was dispatched; and every receipt is of a row on the bus. -/
structure World.Consistent (world : World) : Prop where
  frozen : DispatchesFrozen world.store.appendDispatches world.store.publicationIntents
  single : ∀ publicationKey, (world.bus.keyed publicationKey).length ≤ 1
  dispatched : ∀ {i : Nat} {call : PublishCall}, world.calls[i]? = some call →
    call.firstDispatch = true → (world.store.appendDispatches.get? call.route).isSome = true
  firstOnce : ∀ {i j : Nat} {call call' : PublishCall}, world.calls[i]? = some call →
    world.calls[j]? = some call' → call.firstDispatch = true → call'.firstDispatch = true →
    call.route = call'.route → i = j
  unsent : ∀ {i : Nat} {call : PublishCall}, world.calls[i]? = some call →
    call.firstDispatch = true →
    world.bus.keyed (canonicalPublicationKey call.route.1 call.route.2) = []
  sent : ∀ {executionId exactTarget}, validExecutionId executionId = true →
    world.bus.keyed (canonicalPublicationKey executionId exactTarget) ≠ [] →
    (world.store.appendDispatches.get? (executionId, exactTarget)).isSome = true
  receipts : ReceiptsOnBus world.store world.bus

/-! ### Operations over the bus -/

/-- An acknowledged receipt is of a row on the bus, the appended one included. -/
theorem Store.Acknowledged.on_bus {route : ExecutionId × String} {bus bus' : Bus}
    {appended : Option Message}
    (hacknowledged : store.Acknowledged route (boundary.over bus) appended receipt)
    (hgrows : ∀ {publicationKey message}, message ∈ bus.keyed publicationKey →
      message ∈ bus'.keyed publicationKey)
    (happended : ∀ {intent message}, store.publicationIntents.get? route = some intent →
      appended = some message → message ∈ bus'.keyed intent.publicationKey) :
    ∃ message ∈ bus'.keyed
        (canonicalPublicationKey receipt.executionId receipt.exactTarget),
      message.seq = receipt.seq ∧ message.messageId = receipt.messageId := by
  obtain ⟨rfl, intent, matched, hintent, hmatched, hsame⟩ := hacknowledged
  refine ⟨matched, ?_, hsame⟩
  rw [show canonicalPublicationKey receipt.executionId receipt.exactTarget =
    intent.publicationKey from (publicationKey_of_intent hintent).1.symm]
  rcases hmatched with hpublished | ⟨-, hown⟩
  · exact hgrows (Bus.mem_keyed_of_published hpublished)
  · exact happended hintent hown

/-! ### Every event keeps the invariant -/

theorem getElem?_of_eraseIdx {calls : List PublishCall} {index i : Nat} {call : PublishCall}
    (hget : (calls.eraseIdx index)[i]? = some call) :
    calls[if i < index then i else i + 1]? = some call := by
  rw [List.getElem?_eraseIdx] at hget
  split at hget
  next hlt => rwa [if_pos hlt]
  next hge => rwa [if_neg hge]

namespace World.Consistent

variable {world : World} (hconsistent : world.Consistent)

include hconsistent

/-- A committed operation keeps dispatch rows with their intents, and adds receipts
only for what it acknowledges. -/
theorem performed (op : Op) (hwitness : ∀ {receipt}, op.Acknowledges world.store receipt →
      ∃ message ∈ world.bus.keyed
          (canonicalPublicationKey receipt.executionId receipt.exactTarget),
        message.seq = receipt.seq ∧ message.messageId = receipt.messageId) :
    Consistent { world with store := commit (perform op) world.store } := by
  rcases commit_cases (perform op) world.store with hok | hsame
  · obtain ⟨own, hevolves⟩ := evolves_of_transition (transition_of_perform hok)
    have hkept : ∀ {route}, (world.store.appendDispatches.get? route).isSome = true →
        ((commit (perform op) world.store).appendDispatches.get? route).isSome = true := by
      intro route hsome
      obtain ⟨row, hrow⟩ := Option.isSome_iff_exists.mp hsome
      obtain ⟨row', hrow', -⟩ := hevolves.appendDispatches.kept hrow
      rw [hrow']
      rfl
    refine { hconsistent with
      frozen := hevolves.frozen hconsistent.frozen
      dispatched := fun hcall hfirst => hkept (hconsistent.dispatched hcall hfirst)
      sent := fun hvalid hne => hkept (hconsistent.sent hvalid hne)
      receipts := fun executionId exactTarget receipt hreceipt => ?_ }
    rcases hevolves.publicationReceipts.reached hreceipt with hold | ⟨-, hnew⟩
    · exact hconsistent.receipts executionId exactTarget receipt hold
    · obtain ⟨rfl, rfl⟩ := Prod.mk.inj
        ((commit (perform op) world.store).publicationReceipts.keyed _ _ hreceipt).symm
      exact hwitness hnew
  · rw [hsame]
    exact hconsistent

theorem operate (op : Op) : (world.step (.operate op)).Consistent := by
  refine hconsistent.performed (op.over world.bus) fun hacknowledges => ?_
  -- an operation that appends nothing acknowledges only what is on the bus
  cases op
  case settleFencedResponse | resolveRetained =>
    exact Store.Acknowledged.on_bus hacknowledges id nofun
  all_goals exact hacknowledges.elim

theorem post (message : Message) : (world.step (.post message)).Consistent where
  frozen := hconsistent.frozen
  single := fun publicationKey => by
    show ((world.bus.post message).keyed publicationKey).length ≤ 1
    rw [Bus.keyed_post]
    exact hconsistent.single publicationKey
  dispatched := hconsistent.dispatched
  firstOnce := hconsistent.firstOnce
  unsent := fun hcall hfirst => (Bus.keyed_post _ _ _).trans (hconsistent.unsent hcall hfirst)
  sent := fun hvalid hne => hconsistent.sent hvalid (by
    rwa [← Bus.keyed_post world.bus message])
  receipts := fun executionId exactTarget receipt hreceipt => by
    show ∃ message' ∈ (world.bus.post message).keyed _, _
    rw [Bus.keyed_post]
    exact hconsistent.receipts executionId exactTarget receipt hreceipt

/-- A new call is first only for a route without a dispatch row, so nothing of it can
be on the bus and no other call is first for it. -/
theorem add_call {call : PublishCall}
    (hdispatch : (world.store.appendDispatches.get? call.route).isSome = true)
    (hfresh : call.firstDispatch = true → ∀ {i : Nat} {other : PublishCall},
      world.calls[i]? = some other → other.firstDispatch = true → other.route ≠ call.route)
    (hunsent : call.firstDispatch = true →
      world.bus.keyed (canonicalPublicationKey call.route.1 call.route.2) = []) :
    Consistent { world with calls := world.calls ++ [call] } := by
  have hcases : ∀ {i : Nat} {other : PublishCall}, (world.calls ++ [call])[i]? = some other →
      world.calls[i]? = some other ∨ i = world.calls.length ∧ other = call := by
    intro i other hget
    rcases Nat.lt_trichotomy i world.calls.length with hlt | rfl | hgt
    · rw [List.getElem?_append_left hlt] at hget
      exact .inl hget
    · rw [List.getElem?_append_right le_rfl, Nat.sub_self] at hget
      exact .inr ⟨rfl, (Option.some.inj hget).symm⟩
    · rw [List.getElem?_eq_none (by simp; omega)] at hget
      cases hget
  refine { hconsistent with dispatched := ?_, firstOnce := ?_, unsent := ?_ }
  · intro i other hget hfirst
    rcases hcases hget with hold | ⟨-, rfl⟩
    · exact hconsistent.dispatched hold hfirst
    · exact hdispatch
  · intro i j other other' hget hget' hfirst hfirst' hroute
    rcases hcases hget with hold | ⟨rfl, rfl⟩ <;> rcases hcases hget' with hold' | ⟨rfl, rfl⟩
    · exact hconsistent.firstOnce hold hold' hfirst hfirst' hroute
    · exact absurd hroute (hfresh hfirst' hold hfirst)
    · exact absurd hroute.symm (hfresh hfirst hold' hfirst')
    · rfl
  · intro i other hget hfirst
    rcases hcases hget with hold | ⟨-, rfl⟩
    · exact hconsistent.unsent hold hfirst
    · exact hunsent hfirst

theorem dispatch (clock : Clock) (fence : OwnerFence) (exactTarget : String)
    (boundary : ResponseBoundary) :
    (world.step (.dispatch clock fence exactTarget boundary)).Consistent := by
  -- The store changes as for the operation alone.
  have hoperated := hconsistent.operate (.dispatchFencedResponse clock fence exactTarget boundary)
  have hstore : ∀ {store result}, world.store.dispatchFencedResponse clock fence exactTarget
      (boundary.over world.bus) = .ok (store, result) → Consistent { world with store } := by
    intro store result hok
    have hcommit : commit (perform (.dispatchFencedResponse clock fence exactTarget
        (boundary.over world.bus))) world.store = store :=
      commit_of_ok (map_eq_ok.mpr ⟨_, hok, rfl⟩)
    exact hcommit ▸ hoperated
  simp only [step]
  split
  next store first hok =>
    obtain ⟨hfirst, hdispatch, hintent⟩ := Store.dispatchFencedResponse_eq_ok hok
    refine (hstore hok).add_call hdispatch ?_ ?_
    · intro hcall i other hget hother hroute
      have hrow := hconsistent.dispatched hget hother
      rw [hroute, show world.store.appendDispatches.get? (PublishCall.route ⟨fence, exactTarget,
        first⟩) = none from hfirst.mp hcall] at hrow
      cases hrow
    · intro hcall
      obtain ⟨intent, hintent⟩ := Option.isSome_iff_exists.mp hintent
      by_contra hne
      have hrow : (world.store.appendDispatches.get? (fence.executionId, exactTarget)).isSome =
          true := hconsistent.sent (publicationKey_of_intent hintent).2 hne
      rw [hfirst.mp hcall] at hrow
      cases hrow
  next store hok => exact hstore hok
  · exact hconsistent

/-- A call that leaves takes nothing with it. -/
theorem remove_call (index : Nat) :
    Consistent { world with calls := world.calls.eraseIdx index } := by
  refine { hconsistent with
    dispatched := fun hget => hconsistent.dispatched (getElem?_of_eraseIdx hget)
    firstOnce := fun {i j} call call' hget hget' hfirst hfirst' hroute => ?_
    unsent := fun hget => hconsistent.unsent (getElem?_of_eraseIdx hget) }
  have hindex := hconsistent.firstOnce (getElem?_of_eraseIdx hget) (getElem?_of_eraseIdx hget')
    hfirst hfirst' hroute
  split at hindex <;> split at hindex <;> omega

/-- The reply of the first call of a route may go to the bus once the call is gone. -/
theorem send {call : PublishCall} {intent : PublicationIntent} (message : Message)
    (hothers : ∀ {i : Nat} {other : PublishCall}, world.calls[i]? = some other →
      other.firstDispatch = true → other.route ≠ call.route)
    (hintent : world.store.publicationIntents.get? call.route = some intent)
    (hdispatch : (world.store.appendDispatches.get? call.route).isSome = true)
    (hunsent : world.bus.keyed intent.publicationKey = []) :
    Consistent { world with
      bus := ⟨world.bus.records ++ [⟨some intent.publicationKey, message⟩]⟩ } := by
  obtain ⟨hkey, hvalid⟩ := publicationKey_of_intent hintent
  refine { hconsistent with single := ?_, unsent := ?_, sent := ?_, receipts := ?_ }
  · intro publicationKey
    rw [Bus.keyed_append]
    split
    next hsame =>
      rw [← hsame, show (Bus.mk world.bus.records).keyed _ = [] from hunsent]
      rfl
    · rw [List.append_nil]
      exact hconsistent.single publicationKey
  · intro i other hget hfirst
    rw [Bus.keyed_append, if_neg, List.append_nil]
    · exact hconsistent.unsent hget hfirst
    · intro hsame
      obtain ⟨intent, hintent⟩ := Option.isSome_iff_exists.mp
        (hconsistent.frozen _ (hconsistent.dispatched hget hfirst))
      have hother := (publicationKey_of_intent hintent).2
      obtain ⟨hid, htarget⟩ := canonicalPublicationKey_inj hvalid hother (hkey.symm.trans hsame)
      exact hothers hget hfirst (Prod.ext hid.symm htarget.symm)
  · intro executionId exactTarget hother hne
    rw [Bus.keyed_append] at hne
    split at hne
    next hsame =>
      obtain ⟨hid, htarget⟩ := canonicalPublicationKey_inj hvalid hother (hkey.symm.trans hsame)
      rw [show (executionId, exactTarget) = call.route from Prod.ext hid.symm htarget.symm]
      exact hdispatch
    · rw [List.append_nil] at hne
      exact hconsistent.sent hother hne
  · intro executionId exactTarget receipt hreceipt
    obtain ⟨stored, hmem, hsame⟩ := hconsistent.receipts executionId exactTarget receipt hreceipt
    refine ⟨stored, ?_, hsame⟩
    rw [Bus.keyed_append]
    exact List.mem_append_left _ hmem

theorem settle (index : Nat) (clock : Clock) (boundary : ResponseBoundary) (delivery : Delivery)
    (crashed : Bool) : (world.step (.settle index clock boundary delivery crashed)).Consistent := by
  simp only [step]
  split
  · exact hconsistent
  next call hcall =>
    have hremoved := hconsistent.remove_call index
    simp only [World.settle]
    generalize happend : world.append call boundary delivery = appended
    have happended := world.append_cases call boundary delivery
    rw [happend] at happended
    cases happended with
    | nothing =>
      cases crashed with
      | true => exact hremoved
      | false => exact hremoved.performed _ fun hacknowledged => hacknowledged.on_bus id nofun
    | reply intent message hfirst hintent hdispatch hunsent =>
      have hsent := hremoved.send message (fun {i other} hget hother hroute => by
        have hindex := hconsistent.firstOnce (getElem?_of_eraseIdx hget) hcall hother hfirst hroute
        split at hindex <;> omega) hintent hdispatch hunsent
      cases crashed with
      | true => exact hsent
      | false =>
        refine hsent.performed _ fun hacknowledged => hacknowledged.on_bus (fun hmem => ?_)
          fun hstored hown => ?_
        · rw [Bus.keyed_append]
          exact List.mem_append_left _ hmem
        · obtain rfl := Option.mem_unique hintent hstored
          rw [Bus.keyed_append, if_pos rfl, Option.some.inj hown]
          exact List.mem_append_right _ List.mem_cons_self

theorem step (event : Event) : (world.step event).Consistent := by
  cases event with
  | operate op => exact hconsistent.operate op
  | post message => exact hconsistent.post message
  | dispatch clock fence exactTarget boundary =>
    exact hconsistent.dispatch clock fence exactTarget boundary
  | settle index clock boundary delivery crashed =>
    exact hconsistent.settle index clock boundary delivery crashed

end World.Consistent

open World (after)

theorem World.consistent_after (events : List Event) : (after events).Consistent := by
  have hrun : ∀ {world : World}, world.Consistent → (events.foldl World.step world).Consistent := by
    induction events with
    | nil => exact id
    | cons event events ih => exact fun hconsistent => ih (hconsistent.step event)
  refine hrun ⟨nofun, fun _ => Nat.zero_le _, nofun, nofun, nofun, ?_, nofun⟩
  intro _ _ _ hne
  exact absurd rfl hne

/-! ### At most one reply -/

/-- A row under a key is only ever added by the second transaction of a call whose
flag is set, for that key's route. -/
theorem World.first_of_keyed_step {world : World} {event : Event} {publicationKey : String}
    (hkeyed : (world.step event).bus.keyed publicationKey ≠ world.bus.keyed publicationKey) :
    ∃ index clock boundary delivery crashed call,
      event = .settle index clock boundary delivery crashed ∧ world.calls[index]? = some call ∧
      call.firstDispatch = true ∧
      canonicalPublicationKey call.fence.executionId call.exactTarget = publicationKey := by
  cases event with
  | operate => exact absurd rfl hkeyed
  | post => exact absurd (Bus.keyed_post _ _ _) hkeyed
  | dispatch =>
    simp only [step] at hkeyed
    split at hkeyed <;> exact absurd rfl hkeyed
  | settle index clock boundary delivery crashed =>
    simp only [step] at hkeyed
    split at hkeyed
    · exact absurd rfl hkeyed
    next call hcall =>
      simp only [settle] at hkeyed
      have happended := world.append_cases call boundary delivery
      generalize world.append call boundary delivery = appended at happended hkeyed
      cases happended with
      | nothing => exact absurd rfl hkeyed
      | reply intent message hfirst hintent =>
        refine ⟨index, clock, boundary, delivery, crashed, call, rfl, hcall, hfirst, ?_⟩
        rw [Bus.keyed_append] at hkeyed
        split at hkeyed
        next hsame => exact (publicationKey_of_intent hintent).1.symm.trans hsame
        · exact absurd (List.append_nil _) hkeyed

/-- Over any sequence of events, with lost calls, crashes after an append and refused
transactions among them: a route's reply is on the bus at most once; a receipt is of
exactly that row; only a call whose own first transaction inserted the dispatch row
appends, and no two open calls are such calls of one route. -/
theorem reply_published_at_most_once (events : List Event) (executionId : ExecutionId)
    (exactTarget : String) :
    ((after events).bus.keyed
      (canonicalPublicationKey executionId exactTarget)).length ≤ 1 ∧
    (∀ receipt, (after events).store.publicationReceipts.get? (executionId, exactTarget) =
        some receipt →
      ∃ message, (after events).bus.keyed
          (canonicalPublicationKey executionId exactTarget) = [message] ∧
        message.seq = receipt.seq ∧ message.messageId = receipt.messageId) ∧
    (∀ event, ((after events).step event).bus.keyed
          (canonicalPublicationKey executionId exactTarget) ≠
        (after events).bus.keyed (canonicalPublicationKey executionId exactTarget) →
      ∃ index clock boundary delivery crashed call,
        event = .settle index clock boundary delivery crashed ∧
        (after events).calls[index]? = some call ∧ call.firstDispatch = true ∧
        canonicalPublicationKey call.fence.executionId call.exactTarget =
          canonicalPublicationKey executionId exactTarget) ∧
    (∀ clock fence target boundary,
      ((after events).step (.dispatch clock fence target boundary)).calls =
          (after events).calls ∨
        ∃ first, ((after events).step (.dispatch clock fence target boundary)).calls =
            (after events).calls ++ [⟨fence, target, first⟩] ∧
          (first = true ↔ (after events).store.appendDispatches.get?
            (fence.executionId, target) = none) ∧
          (((after events).step (.dispatch clock fence target boundary)
            ).store.appendDispatches.get? (fence.executionId, target)).isSome = true) ∧
    (∀ (i j : Nat) (call call' : PublishCall), (after events).calls[i]? = some call →
      (after events).calls[j]? = some call' → call.firstDispatch = true →
      call'.firstDispatch = true → call.route = call'.route → i = j) := by
  have hconsistent := World.consistent_after events
  refine ⟨hconsistent.single _, ?_, fun event => World.first_of_keyed_step, ?_,
    fun _ _ _ _ => hconsistent.firstOnce⟩
  · intro receipt hreceipt
    obtain ⟨message, hmem, hsame⟩ := hconsistent.receipts _ _ receipt hreceipt
    have hsingle := hconsistent.single (canonicalPublicationKey executionId exactTarget)
    -- A list of at most one element with a member is that member alone.
    match hkeyed : (after events).bus.keyed
        (canonicalPublicationKey executionId exactTarget) with
    | [] =>
      rw [hkeyed] at hmem
      cases hmem
    | [only] =>
      rw [hkeyed, List.mem_singleton] at hmem
      exact ⟨only, rfl, hmem ▸ hsame⟩
    | _ :: _ :: _ =>
      rw [hkeyed] at hsingle
      exact absurd hsingle (by simp)
  · intro clock fence target boundary
    simp only [World.step]
    split
    next store first hok =>
      obtain ⟨hfirst, hdispatch, -⟩ := Store.dispatchFencedResponse_eq_ok hok
      exact .inr ⟨first, rfl, hfirst, hdispatch⟩
    · exact .inl rfl
    · exact .inl rfl

end AgentComms.Coordination
