import TradingBot.Foundation.Dict
import TradingBot.Foundation.MachineInt
import TradingBot.Foundation.Run
import TradingBot.Foundation.TrimmedQueue

/-!
# The state synchronizer

`state_sync.rs`: actors queue messages that are processed together, and the updates among them go to
a shared store. A queue of more than a thousand messages is cut to the newest hundred, so what is
delivered are the updates among the messages that were kept. A lock is not poisoned, and the version
wraps around at 64 bits.
-/

open MachineInt Run TrimmedQueue

namespace TradingBot.Distributed

/-- `AssetState`. -/
structure AssetState where
  asset : String
  positionSide : Int
  positionQuantity : ℚ
  entryPrice : ℚ
  currentPnl : ℚ
  unrealizedPnl : ℚ
  lastUpdateNs : Nat
  signalStrength : ℚ
  isActive : Bool
  deriving DecidableEq, Repr

/-- `new` of a state, with the reading of the clock. -/
def AssetState.new (asset : String) (nowNs : Nat) : AssetState where
  asset := asset
  positionSide := 0
  positionQuantity := 0
  entryPrice := 0
  currentPnl := 0
  unrealizedPnl := 0
  lastUpdateNs := nowNs
  signalStrength := 0
  isActive := true

/-- `SharedStateStore`. -/
structure SharedStateStore where
  states : Dict String AssetState
  version : Nat
  maxAssets : Nat

namespace SharedStateStore

def new (maxAssets : Nat) : SharedStateStore where
  states := .empty
  version := 0
  maxAssets := maxAssets

/-- `update_asset`, with the new version. -/
def updateAsset (store : SharedStateStore) (asset : String) (state : AssetState) :
    Except String Nat × SharedStateStore :=
  if store.maxAssets ≤ store.states.size ∧ asset ∉ store.states.keys then
    (.error ("Maximum assets (" ++ toString store.maxAssets ++ ") reached"), store)
  else
    (.ok (castU64 (store.version + 1)), { store with
      states := store.states.put asset state
      version := castU64 (store.version + 1) })

def getAsset (store : SharedStateStore) (asset : String) : Option AssetState :=
  store.states.get asset

end SharedStateStore

/-- `StateSyncMessage`. -/
inductive StateSyncMessage where
  | updateState (state : AssetState)
  | requestState (asset : String)
  | stateResponse (state : Option AssetState)
  | heartbeat (actor : String)
  | shutdown

/-- `StateSynchronizer`. -/
structure StateSynchronizer where
  store : SharedStateStore
  messageQueue : List StateSyncMessage

namespace StateSynchronizer

def new (store : SharedStateStore) : StateSynchronizer where
  store := store
  messageQueue := []

def queueMessage (sync : StateSynchronizer) (msg : StateSyncMessage) : StateSynchronizer :=
  { sync with messageQueue := push 1000 100 sync.messageQueue msg }

/-- The effect of one message on the store; an update that is refused is ignored. -/
def deliver (store : SharedStateStore) : StateSyncMessage → SharedStateStore
  | .updateState state => (store.updateAsset state.asset state).2
  | _ => store

def processMessages (sync : StateSynchronizer) : List StateSyncMessage × StateSynchronizer :=
  (sync.messageQueue,
    { store := sync.messageQueue.foldl deliver sync.store, messageQueue := [] })

end StateSynchronizer

/-! ## What is delivered -/

/-- The asset that a message updates. -/
def updated : StateSyncMessage → Option String
  | .updateState state => some state.asset
  | _ => none

/-- The state of the last update of an asset among some messages. -/
def lastUpdate (asset : String) : List StateSyncMessage → Option AssetState
  | [] => none
  | message :: rest => (lastUpdate asset rest).or (match message with
    | .updateState state => if state.asset = asset then some state else none
    | _ => none)

/-- One call on a synchronizer. -/
inductive SyncCall where
  | queue (message : StateSyncMessage)
  /-- `process_messages`. -/
  | process

/-- A synchronizer with the messages that were queued since the last ones were processed. -/
structure SyncSession where
  sync : StateSynchronizer
  queued : List StateSyncMessage

namespace SyncSession

/-- A session of a new synchronizer. -/
def start (store : SharedStateStore) : SyncSession where
  sync := .new store
  queued := []

/-- A session after a call; every call is answered. -/
def step (session : SyncSession) : SyncCall → Option SyncSession
  | .queue message => some {
      sync := session.sync.queueMessage message
      queued := session.queued ++ [message] }
  | .process => some {
      sync := session.sync.processMessages.2
      queued := [] }

/-- The store has room for all its assets and those that are updated. -/
def HasRoom (store : SharedStateStore) (calls : List SyncCall) : Prop :=
  ∃ assets : Finset String, (∀ asset ∈ store.states.keys, asset ∈ assets) ∧
    (∀ message, .queue message ∈ calls → ∀ asset ∈ updated message, asset ∈ assets) ∧
    assets.card ≤ store.maxAssets

/-- After some messages are processed, the store holds the last update of every asset among those
that count, and else what it held before. -/
def Delivers (counting : List StateSyncMessage → List StateSyncMessage) (session : SyncSession)
    (call : SyncCall) (next : SyncSession) : Prop :=
  match call with
  | .queue _ => next.sync.store = session.sync.store
  | .process => ∀ asset, next.sync.store.getAsset asset =
      (lastUpdate asset (counting session.queued)).or (session.sync.store.getAsset asset)

section Delivery

variable {store : SharedStateStore} {assets : Finset String} {messages : List StateSyncMessage}

/-- The assets of a store are among some that it has room for. -/
structure Within (assets : Finset String) (store : SharedStateStore) : Prop where
  keys : ∀ asset ∈ store.states.keys, asset ∈ assets
  room : assets.card ≤ store.maxAssets

theorem size_lt (within : Within assets store) {asset : String} (member : asset ∈ assets)
    (fresh : asset ∉ store.states.keys) : store.states.size < store.maxAssets := by
  have keys : insert asset store.states.keys.toFinset ⊆ assets := by
    intro other listed
    rcases Finset.mem_insert.mp listed with same | there
    · rw [same]
      exact member
    · exact within.keys other (List.mem_toFinset.mp there)
  have count := Finset.card_le_card keys
  have distinct : store.states.keys.Nodup := store.states.nodup
  rw [Finset.card_insert_of_notMem (by simpa using fresh),
    List.toFinset_card_of_nodup distinct] at count
  have size : store.states.keys.length = store.states.size := List.length_map _
  have room := within.room
  omega

theorem updateAsset_within (within : Within assets store) {state : AssetState}
    (member : state.asset ∈ assets) :
    (store.updateAsset state.asset state).2 = { store with
      states := store.states.put state.asset state
      version := castU64 (store.version + 1) } := by
  unfold SharedStateStore.updateAsset
  rw [if_neg]
  rintro ⟨full, fresh⟩
  have less := size_lt within member fresh
  omega

theorem within_deliver (within : Within assets store) {message : StateSyncMessage}
    (member : ∀ asset ∈ updated message, asset ∈ assets) :
    Within assets (StateSynchronizer.deliver store message) := by
  cases message with
  | requestState | stateResponse | heartbeat | shutdown => exact within
  | updateState state =>
    have room := member state.asset rfl
    simp only [StateSynchronizer.deliver, updateAsset_within within room]
    refine ⟨fun asset listed => ?_, within.room⟩
    obtain ⟨value, found⟩ := Dict.mem_keys.mp listed
    obtain ⟨rfl, -⟩ | ⟨-, before⟩ := Dict.get_put_eq_some.mp found
    · exact room
    · exact within.keys asset (Dict.mem_keys.mpr ⟨value, before⟩)

theorem getAsset_deliver (within : Within assets store)
    (member : ∀ message ∈ messages, ∀ asset ∈ updated message, asset ∈ assets) (asset : String) :
    (messages.foldl StateSynchronizer.deliver store).getAsset asset =
      (lastUpdate asset messages).or (store.getAsset asset) := by
  induction messages generalizing store with
  | nil => rfl
  | cons message rest ih =>
    obtain ⟨first, later⟩ := List.forall_mem_cons.mp member
    rw [List.foldl_cons, ih (within_deliver within first) later]
    simp only [lastUpdate, Option.or_assoc]
    congr 1
    cases message with
    | requestState | stateResponse | heartbeat | shutdown => rfl
    | updateState state =>
      simp only [StateSynchronizer.deliver, SharedStateStore.getAsset,
        updateAsset_within within (first state.asset rfl), Dict.get_put]
      by_cases same : asset = state.asset
      · rw [if_pos same, if_pos same.symm, Option.some_or]
      · rw [if_neg same, if_neg (Ne.symm same), Option.none_or]

/-- The queue holds the newest of the messages that were queued, and there is room for all of
them. -/
structure Sound (assets : Finset String) (session : SyncSession) : Prop where
  queue : session.sync.messageQueue = newest 1000 100 session.queued
  within : Within assets session.sync.store
  member : ∀ message ∈ session.queued, ∀ asset ∈ updated message, asset ∈ assets

theorem within_delivers (within : Within assets store)
    (member : ∀ message ∈ messages, ∀ asset ∈ updated message, asset ∈ assets) :
    Within assets (messages.foldl StateSynchronizer.deliver store) := by
  induction messages generalizing store with
  | nil => exact within
  | cons message rest ih =>
    obtain ⟨first, later⟩ := List.forall_mem_cons.mp member
    exact ih (within_deliver within first) later

theorem mem_queue {session : SyncSession} (sound : Sound assets session) :
    ∀ message ∈ session.sync.messageQueue, ∀ asset ∈ updated message, asset ∈ assets := by
  intro message member
  rw [sound.queue] at member
  exact sound.member message (List.mem_of_mem_drop member)

/-- One call delivers the last updates of the newest messages. -/
theorem delivers_step {session next : SyncSession} {call : SyncCall} (sound : Sound assets session)
    (taken : step session call = some next) :
    Delivers (newest 1000 100) session call next := by
  cases call with
  | queue message =>
    cases taken
    rfl
  | process =>
    cases taken
    intro asset
    rw [← sound.queue]
    exact getAsset_deliver sound.within (mem_queue sound) asset

theorem sound_step {session next : SyncSession} {call : SyncCall} (sound : Sound assets session)
    (room : ∀ message, call = .queue message → ∀ asset ∈ updated message, asset ∈ assets)
    (taken : step session call = some next) : Sound assets next := by
  cases call with
  | queue message =>
    cases taken
    refine ⟨?_, sound.within, fun other listed => ?_⟩
    · simp only [StateSynchronizer.queueMessage, sound.queue]
      exact push_newest (by decide) session.queued message
    · rcases List.mem_append.mp listed with before | last
      · exact sound.member other before
      · rw [List.mem_singleton.mp last]
        exact room message rfl
  | process =>
    cases taken
    exact ⟨rfl, within_delivers sound.within (mem_queue sound), by simp⟩

end Delivery

/-- Whatever is queued and processed, the store holds after the messages are processed the last
update of every asset among the newest messages: all of up to a thousand, and of more the hundred
that the queue is cut to with those that came since. -/
theorem delivers_newest (store : SharedStateStore) (calls : List SyncCall)
    (room : HasRoom store calls) :
    Performs step (Delivers (newest 1000 100)) (start store) calls := by
  obtain ⟨assets, keys, member, fits⟩ := room
  have begins : Sound assets (start store) := ⟨rfl, ⟨keys, fits⟩, by simp [start]⟩
  apply @performs_of_offered _ _ step (fun session rest => Sound assets session ∧
    ∀ message, .queue message ∈ rest → ∀ asset ∈ updated message, asset ∈ assets) _
    fun _ _ => True
  · rintro session call rest ⟨sound, -⟩ -
    have taken : ∃ next, step session call = some next := by
      cases call <;> exact ⟨_, rfl⟩
    obtain ⟨next, taken⟩ := taken
    exact ⟨next, taken, delivers_step sound taken⟩
  · rintro session call rest next ⟨sound, among⟩ - taken -
    refine ⟨sound_step sound ?_ taken, fun message listed => ?_⟩
    · intro message same
      exact among message (same ▸ List.mem_cons_self)
    · exact among message (List.mem_cons_of_mem call listed)
  · exact ⟨begins, member⟩
  · exact offered_of_forall (fun _ _ => trivial) (start store)

/-- An update with a thousand heartbeats behind it. -/
def buriedUpdate : List StateSyncMessage :=
  .updateState (.new "BTCUSDT" 1) :: List.replicate 1000 (.heartbeat "risk")

/-- There is room for the update and for those of the calls behind it. -/
theorem hasRoom_buriedUpdate {store : SharedStateStore} {rest : List SyncCall}
    {assets : Finset String} (first : "BTCUSDT" ∈ assets)
    (keys : ∀ asset ∈ store.states.keys, asset ∈ assets)
    (behind : ∀ message, .queue message ∈ rest → ∀ asset ∈ updated message, asset ∈ assets)
    (fits : assets.card ≤ store.maxAssets) :
    HasRoom store (buriedUpdate.map .queue ++ rest) := by
  refine ⟨assets, keys, ?_, fits⟩
  intro message listed asset updates
  rcases List.mem_append.mp listed with queued | later
  · obtain ⟨other, member, same⟩ := List.mem_map.mp queued
    cases same
    rcases List.mem_cons.mp member with update | beat
    · rw [update] at updates
      cases updates
      exact first
    · rw [(List.mem_replicate.mp beat).2] at updates
      cases updates
  · exact behind message later asset updates

/-- With a thousand heartbeats between two updates the queue is cut, and the second is delivered. A
next one replaces it. -/
theorem delivers_newest_cut : Performs step (Delivers (newest 1000 100)) (start (.new 10))
    (buriedUpdate.map .queue ++ [.queue (.updateState (.new "ETHUSDT" 2)), .process,
      .queue (.updateState (.new "ETHUSDT" 3)), .queue (.requestState "ETHUSDT"), .process]) := by
  refine delivers_newest (.new 10) _ (hasRoom_buriedUpdate ?_ (by decide) ?_
    (by decide : Finset.card {"BTCUSDT", "ETHUSDT"} ≤ 10))
  · decide
  · simp [updated, AssetState.new]

theorem exec_queue (session : SyncSession) (messages : List StateSyncMessage)
    (queue : session.sync.messageQueue = newest 1000 100 session.queued) :
    exec step session (messages.map .queue) = some {
      sync := { session.sync with
        messageQueue := newest 1000 100 (session.queued ++ messages) }
      queued := session.queued ++ messages } := by
  induction messages generalizing session with
  | nil => simp [exec, ← queue]
  | cons message rest ih =>
    have pushed := @push_newest _ 1000 100 (by decide) session.queued message
    simp only [List.map_cons, exec, step, Option.bind_some]
    rw [ih]
    · simp [StateSynchronizer.queueMessage]
    · simp only [StateSynchronizer.queueMessage, queue]
      exact pushed

theorem lastUpdate_heartbeats (asset actor : String) (count : Nat) :
    lastUpdate asset (List.replicate count (.heartbeat actor)) = none := by
  induction count with
  | zero => rfl
  | succ count ih =>
    rw [List.replicate_succ]
    simp only [lastUpdate, ih, Option.or_none]

theorem newest_buriedUpdate :
    newest 1000 100 buriedUpdate = List.replicate 100 (.heartbeat "risk") := by
  have length : buriedUpdate.length = 1001 := by
    unfold buriedUpdate
    rw [List.length_cons, List.length_replicate]
  have count : kept 1000 100 1001 = 100 := by decide
  unfold newest
  rw [length, count]
  show List.drop (900 + 1) (_ :: List.replicate 1000 _) = _
  rw [List.drop_succ_cons, List.drop_replicate]

theorem not_delivers {session : SyncSession} {asset actor : String} {state : AssetState}
    {count : Nat} (queue : session.sync.messageQueue = List.replicate count (.heartbeat actor))
    (queued : lastUpdate asset session.queued = some state)
    (absent : session.sync.store.states = .empty) :
    ¬ ∃ next, step session .process = some next ∧ Delivers id session .process next := by
  rintro ⟨next, taken, delivers⟩
  cases taken
  have asked := delivers asset
  have within : Within ∅ session.sync.store := by
    refine ⟨fun key listed => ?_, Nat.zero_le _⟩
    rw [absent] at listed
    cases listed
  have none_ : ∀ message ∈ List.replicate count (StateSyncMessage.heartbeat actor),
      ∀ asset ∈ updated message, asset ∈ (∅ : Finset String) := by
    intro message member asset updates
    rw [(List.mem_replicate.mp member).2] at updates
    cases updates
  have empty : session.sync.store.getAsset asset = none := by
    unfold SharedStateStore.getAsset
    rw [absent]
    rfl
  simp only [StateSynchronizer.processMessages, queue, getAsset_deliver within none_,
    lastUpdate_heartbeats, id, queued, empty, Option.or_none] at asked
  cases asked

/-- An update is not delivered behind which a thousand heartbeats are queued, though there is room
for its asset. -/
theorem drops_update :
    HasRoom (.new 10) (buriedUpdate.map .queue ++ [.process]) ∧
      ¬ Performs step (Delivers id) (start (.new 10))
        (buriedUpdate.map .queue ++ [.process]) := by
  constructor
  · have first : "BTCUSDT" ∈ ({"BTCUSDT"} : Finset String) := by decide
    exact hasRoom_buriedUpdate first (by decide) (by simp) (by decide)
  · intro performs
    have begins := exec_queue (start (.new 10)) buriedUpdate rfl
    have queued : (start (.new 10)).queued ++ buriedUpdate = buriedUpdate := List.nil_append _
    rw [queued, newest_buriedUpdate] at begins
    have update : lastUpdate "BTCUSDT" buriedUpdate = some (.new "BTCUSDT" 1) := by
      unfold buriedUpdate lastUpdate
      rw [lastUpdate_heartbeats]
      decide
    exact absurd (performs.last begins) (not_delivers rfl update rfl)

end SyncSession

end TradingBot.Distributed
