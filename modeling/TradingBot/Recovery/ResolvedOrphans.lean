import TradingBot.Foundation.Run
import TradingBot.Recovery.OrphanResolution
import TradingBot.Recovery.OrphanScope

/-!
# Resolved orphans

Every reconciliation stores what it finds anew, and a resolution marks only the discrepancy that it
tried. An order that is stored twice is cancelled twice and counted twice, and what else is stored
about it stays pending.
-/

open Run

namespace TradingBot.Recovery

open OrphanTradeResolver ResolverState

namespace ResolvedOrphans

/-- What is done with a resolver. -/
inductive Call where
  | registerLocalOrder (order : LocalOrder)
  | removeLocalOrder (orderId : String)
  /-- A reconciliation with the exchange as it is then. -/
  | reconcile (exchange : Exchange) (symbols : Option (List String))
  /-- A resolution, and what comes of the request to cancel each stored order. -/
  | resolveAllOrphans (responses : Nat → CancelResponse)

/-- A resolver and the ids of the orders whose cancels succeeded, once for each cancel. -/
structure Session where
  state : ResolverState
  cancelled : List String

/-- A session of a new resolver. -/
def Session.start : Session := ⟨.new, []⟩

/-- The id of the order that a task cancels: its orphan is not resolved, and the response tells
success. -/
def cancelledBy (responses : Nat → CancelResponse) (task : Stored × Nat) : Option String :=
  if task.1.discrepancy.discrepancyType = .missingLocal ∧ task.1.resolved = false ∧
      (responses task.2 = .status 200 ∨ responses task.2 = .status 400) then
    task.1.discrepancy.exchangeOrder.map ExchangeOrder.orderId
  else none

/-- The ids that a resolution cancels, one for each cancel. -/
def cancels (state : ResolverState) (responses : Nat → CancelResponse) : List String :=
  state.discrepancies.zipIdx.filterMap (cancelledBy responses)

/-- The session after a call. -/
def step (session : Session) : Call → Option Session
  | .registerLocalOrder order =>
    some { session with state := session.state.registerLocalOrder order }
  | .removeLocalOrder orderId =>
    some { session with state := session.state.removeLocalOrder orderId }
  | .reconcile exchange symbols =>
    (session.state.reconcile exchange symbols).map fun state => { session with state }
  | .resolveAllOrphans responses => some
      { state := (session.state.resolveAllOrphans responses).2
        cancelled := session.cancelled ++ cancels session.state responses }

/-- A discrepancy is about an order with an exchange id. -/
def Concerns (discrepancy : Discrepancy) (id : String) : Prop :=
  (∃ order ∈ discrepancy.exchangeOrder, order.orderId = id) ∨
    ∃ localOrder ∈ discrepancy.localOrder, localOrder.exchangeOrderId = some id

instance (discrepancy : Discrepancy) : DecidablePred (Concerns discrepancy) := fun id =>
  inferInstanceAs (Decidable ((∃ order ∈ discrepancy.exchangeOrder, order.orderId = id) ∨
    ∃ localOrder ∈ discrepancy.localOrder, localOrder.exchangeOrderId = some id))

/-- Every order is cancelled and counted at most once, a resolution returns the number of orders
that it cancelled, and no pending discrepancy is about a cancelled order. -/
structure Good (session : Session) (call : Call) (next : Session) : Prop where
  once : next.cancelled.Nodup
  counted : next.state.totalResolved = next.cancelled.length
  result : ∀ responses, call = .resolveAllOrphans responses →
    (session.state.resolveAllOrphans responses).1 =
      (cancels session.state responses).dedup.length
  pending : ∀ stored ∈ next.state.getPendingDiscrepancies, ∀ id ∈ next.cancelled,
    ¬ Concerns stored.discrepancy id

/-- The status or the filled quantity of a local order differs from that of its exchange order. -/
def Differs (localOrder : LocalOrder) (order : ExchangeOrder) : Prop :=
  localOrder.status ≠ order.status ∨
    1 / 10000 < |localOrder.filledQuantity - order.filledQuantity|

/-- No fetched order is one that was cancelled, unless a local order matches it that does not differ
from it, and no such difference is found in a local order that was cancelled. -/
def FetchedUncancelled (resolver : OrphanTradeResolver) (fetched : List ExchangeOrder)
    (cancelled : List String) : Prop :=
  ∀ order ∈ fetched,
    (resolver.matchingOrder order = none → order.orderId ∉ cancelled) ∧
      ∀ localOrder ∈ resolver.matchingOrder order, Differs localOrder order →
        order.orderId ∉ cancelled ∧ ∀ id ∈ localOrder.exchangeOrderId, id ∉ cancelled

/-- No live local order that is missing on the exchange was cancelled. -/
def MissingUncancelled (resolver : OrphanTradeResolver) (fetched : List ExchangeOrder)
    (cancelled : List String) : Prop :=
  ∀ localOrder ∈ resolver.localOrders.values, ∀ id ∈ localOrder.exchangeOrderId,
    id ≠ "" → (∀ order ∈ fetched, order.orderId ≠ id) → localOrder.status ∉ terminalStatuses →
      id ∉ cancelled

/-- A reconciliation finds nothing about an order that was cancelled, and where a resolution cancels
an order, nothing else that is pending is about that order. -/
def InBounds (session : Session) : Call → Prop
  | .registerLocalOrder _ => True
  | .removeLocalOrder _ => True
  | .reconcile exchange symbols =>
    FetchedUncancelled session.state.resolver (exchangeOrders exchange symbols) session.cancelled ∧
      MissingUncancelled session.state.resolver (exchangeOrders exchange symbols) session.cancelled
  | .resolveAllOrphans responses =>
    ∀ task ∈ session.state.discrepancies.zipIdx, ∀ id ∈ cancelledBy responses task,
      ∀ other ∈ session.state.discrepancies.zipIdx, other.1.resolved = false →
        Concerns other.1.discrepancy id → other = task

/-- A started resolver whose orphans have no local order, and whose last call was good. -/
structure Sound (session : Session) : Prop where
  started : session.state.resolver.started = true
  orphans : ∀ stored ∈ session.state.discrepancies,
    stored.discrepancy.discrepancyType = .missingLocal → stored.discrepancy.localOrder = none
  once : session.cancelled.Nodup
  counted : session.state.totalResolved = session.cancelled.length
  pending : ∀ stored ∈ session.state.getPendingDiscrepancies, ∀ id ∈ session.cancelled,
    ¬ Concerns stored.discrepancy id

/-! ## Reconciliations -/

theorem forall_mem_ite {α : Type} {condition : Prop} [Decidable condition] {element : α}
    {property : α → Prop} :
    (∀ other ∈ (if condition then [element] else []), property other) ↔
      (condition → property element) := by
  split
  · next holds => simp [holds]
  · next fails => simp [fails]

theorem mem_ite {α : Type} {condition : Prop} [Decidable condition] {element other : α} :
    other ∈ (if condition then [element] else []) ↔ condition ∧ other = element := by
  split
  · next holds => simp [holds]
  · next fails => simp [fails]

section Reconciliations

variable {resolver : OrphanTradeResolver} {fetched : List ExchangeOrder} {cancelled : List String}

theorem fetched_iff : (∀ discrepancy ∈ fetched.flatMap resolver.checkExchangeOrder,
      ∀ id ∈ cancelled, ¬ Concerns discrepancy id) ↔
    FetchedUncancelled resolver fetched cancelled := by
  rw [List.forall_mem_flatMap]
  refine forall_congr' fun order => imp_congr_right fun _ => ?_
  unfold checkExchangeOrder
  cases resolver.matchingOrder order with
  | none =>
    rw [List.forall_mem_singleton]
    constructor
    · refine fun none_ => ⟨fun _ member => none_ order.orderId member ?_, nofun⟩
      exact .inl ⟨order, rfl, rfl⟩
    · rintro ⟨uncancelled, -⟩ id member (⟨_, ⟨⟩, rfl⟩ | ⟨_, ⟨⟩, -⟩)
      exact uncancelled rfl member
  | some localOrder =>
    have either : ∀ kind severity, (∀ id ∈ cancelled,
          ¬ Concerns ⟨kind, some localOrder, some order, severity⟩ id) ↔
        order.orderId ∉ cancelled ∧ ∀ id ∈ localOrder.exchangeOrderId, id ∉ cancelled := by
      intro kind severity
      constructor
      · intro none_
        refine ⟨fun member => none_ _ member (.inl ⟨order, rfl, rfl⟩), fun id same member => ?_⟩
        exact none_ id member (.inr ⟨localOrder, rfl, same⟩)
      · rintro ⟨uncancelled, others⟩ id member (⟨_, ⟨⟩, rfl⟩ | ⟨_, ⟨⟩, same⟩)
        · exact uncancelled member
        · exact others id same member
    rw [List.forall_mem_append, forall_mem_ite, forall_mem_ite, either, either]
    unfold Differs
    constructor
    · rintro ⟨status, quantity⟩
      refine ⟨nofun, ?_⟩
      rintro _ ⟨⟩ (differs | differs)
      · exact status differs
      · exact quantity differs
    · rintro ⟨-, differs⟩
      exact ⟨fun status => differs localOrder rfl (.inl status),
        fun quantity => differs localOrder rfl (.inr quantity)⟩

theorem missing_iff :
    (∀ discrepancy ∈ resolver.localOrders.values.flatMap (checkLocalOrder fetched),
      ∀ id ∈ cancelled, ¬ Concerns discrepancy id) ↔
    MissingUncancelled resolver fetched cancelled := by
  rw [List.forall_mem_flatMap]
  refine forall_congr' fun localOrder => imp_congr_right fun _ => ?_
  unfold checkLocalOrder
  cases named : localOrder.exchangeOrderId with
  | none =>
    exact iff_of_true (fun _ member => nomatch member) fun _ member => nomatch member
  | some id =>
    rw [forall_mem_ite]
    constructor
    · rintro none_ _ ⟨⟩ nonempty absent live member
      exact none_ ⟨nonempty, absent, live⟩ id member (.inr ⟨localOrder, rfl, named⟩)
    · rintro uncancelled ⟨nonempty, absent, live⟩ other member (⟨_, ⟨⟩, -⟩ | ⟨_, ⟨⟩, same⟩)
      have same_ : id = other := Option.some.inj (named.symm.trans same)
      exact uncancelled id rfl nonempty absent live (same_ ▸ member)

theorem localOrder_orphan {discrepancy : Discrepancy}
    (found : discrepancy ∈ fetched.flatMap resolver.checkExchangeOrder ++
      resolver.localOrders.values.flatMap (checkLocalOrder fetched))
    (orphan : discrepancy.discrepancyType = .missingLocal) : discrepancy.localOrder = none := by
  obtain exchange | local_ := List.mem_append.mp found
  · obtain ⟨order, -, member⟩ := List.mem_flatMap.mp exchange
    unfold checkExchangeOrder at member
    cases matching : resolver.matchingOrder order with
    | none =>
      rw [matching] at member
      rw [List.mem_singleton.mp member]
    | some localOrder =>
      rw [matching] at member
      obtain status | quantity := List.mem_append.mp member
      · rw [(mem_ite.mp status).2] at orphan
        cases orphan
      · rw [(mem_ite.mp quantity).2] at orphan
        cases orphan
  · obtain ⟨localOrder, -, member⟩ := List.mem_flatMap.mp local_
    unfold checkLocalOrder at member
    cases named : localOrder.exchangeOrderId with
    | none =>
      rw [named] at member
      cases member
    | some id =>
      rw [named] at member
      rw [(mem_ite.mp member).2] at orphan
      cases orphan

variable {session : Session} {exchange : Exchange} {symbols : Option (List String)}

theorem reconcile_iff (sound : Sound session) :
    ∃ next, step session (.reconcile exchange symbols) = some next ∧
      (Good session (.reconcile exchange symbols) next ↔
        InBounds session (.reconcile exchange symbols)) ∧
      (Good session (.reconcile exchange symbols) next → Sound next) := by
  let fetched := exchangeOrders exchange symbols
  let found := fetched.flatMap session.state.resolver.checkExchangeOrder ++
    session.state.resolver.localOrders.values.flatMap (checkLocalOrder fetched)
  let next : Session :=
    { state :=
        { session.state with
          resolver := { session.state.resolver with
            discrepancies := session.state.resolver.discrepancies ++ found
            totalDetected := session.state.resolver.totalDetected + found.length }
          discrepancies := session.state.discrepancies ++
            found.map fun discrepancy => { discrepancy } }
      cancelled := session.cancelled }
  have taken : step session (.reconcile exchange symbols) = some next := by
    have reconciled : session.state.resolver.reconcile exchange symbols =
        .ok (found, next.state.resolver) := by
      unfold OrphanTradeResolver.reconcile
      exact if_pos sound.started
    show (session.state.reconcile exchange symbols).map _ = some next
    unfold ResolverState.reconcile
    rw [reconciled]
    rfl
  have pending : next.state.getPendingDiscrepancies = session.state.getPendingDiscrepancies ++
      found.map fun discrepancy => { discrepancy : Stored } := by
    unfold getPendingDiscrepancies
    rw [List.filter_append]
    congr 1
    rw [List.filter_eq_self]
    intro stored member
    obtain ⟨discrepancy, -, rfl⟩ := List.mem_map.mp member
    rfl
  have exact_ : (∀ stored ∈ next.state.getPendingDiscrepancies, ∀ id ∈ next.cancelled,
      ¬ Concerns stored.discrepancy id) ↔ InBounds session (.reconcile exchange symbols) := by
    rw [pending, List.forall_mem_append, and_iff_right sound.pending, List.forall_mem_map,
      List.forall_mem_append, fetched_iff, missing_iff]
    exact Iff.rfl
  refine ⟨next, taken, ⟨fun good => exact_.mp good.pending, fun bound => ?_⟩, fun good => ?_⟩
  · exact ⟨sound.once, sound.counted, fun _ other => (nomatch other), exact_.mpr bound⟩
  · refine ⟨sound.started, fun stored member orphan => ?_, good.once, good.counted, good.pending⟩
    obtain old | new := List.mem_append.mp member
    · exact sound.orphans stored old orphan
    · obtain ⟨discrepancy, there, rfl⟩ := List.mem_map.mp new
      exact localOrder_orphan there orphan

end Reconciliations

/-! ## Resolutions -/

section Resolutions

variable {session : Session} {responses : Nat → CancelResponse} {task other : Stored × Nat}
  {id : String}

theorem cancelledBy_eq_some : cancelledBy responses task = some id →
    task.1.discrepancy.discrepancyType = .missingLocal ∧ task.1.resolved = false ∧
      ∃ order ∈ task.1.discrepancy.exchangeOrder, order.orderId = id := by
  unfold cancelledBy
  split
  · next tried =>
    intro named
    exact ⟨tried.1, tried.2.1, Option.map_eq_some_iff.mp named⟩
  · exact nofun

/-- What becomes of one task. -/
theorem resolve_spec (task : Stored × Nat) :
    (resolve true responses task).stored.discrepancy = task.1.discrepancy ∧
      ((resolve true responses task).success = true ↔
        (cancelledBy responses task).isSome = true) ∧
      ((resolve true responses task).stored.resolved = false ↔
        task.1.resolved = false ∧ cancelledBy responses task = none) := by
  unfold resolve cancelledBy resolveOrphanOrder cancelOrder
  by_cases orphan : task.1.discrepancy.discrepancyType = .missingLocal ∧ task.1.resolved = false
  · rw [if_pos orphan, if_neg (not_not_intro orphan.1), if_pos rfl]
    cases exchangeOrder : task.1.discrepancy.exchangeOrder with
    | none => simp [orphan.2]
    | some order =>
      cases response : responses task.2 with
      | status code =>
        by_cases success : code ∈ [200, 400]
        · have either : code = 200 ∨ code = 400 := by simpa using success
          simp [orphan, either]
        · have neither : ¬ (code = 200 ∨ code = 400) := by simpa using success
          simp [orphan, neither]
      | raises => simp [orphan]
  · rw [if_neg orphan, if_neg fun all => orphan ⟨all.1, all.2.1⟩]
    simp

theorem countP_success (started : session.state.resolver.started = true) :
    (session.state.resolveAllOrphans responses).1 = (cancels session.state responses).length := by
  unfold resolveAllOrphans cancels
  dsimp only
  rw [started]
  induction session.state.discrepancies.zipIdx with
  | nil => rfl
  | cons task rest ih =>
    have success := (@resolve_spec responses task).2.1
    rw [List.map_cons, List.countP_cons, ih, List.filterMap_cons]
    cases cancelled : cancelledBy responses task with
    | none =>
      rw [cancelled] at success
      rw [if_neg fun holds => nomatch success.mp holds]
      rfl
    | some id =>
      rw [cancelled] at success
      rw [if_pos (success.mpr rfl)]
      rfl

theorem pending_resolved (started : session.state.resolver.started = true)
    (property : Discrepancy → Prop) :
    (∀ stored ∈ (session.state.resolveAllOrphans responses).2.getPendingDiscrepancies,
        property stored.discrepancy) ↔
      ∀ task ∈ session.state.discrepancies.zipIdx, task.1.resolved = false →
        cancelledBy responses task = none → property task.1.discrepancy := by
  unfold resolveAllOrphans getPendingDiscrepancies
  dsimp only
  rw [started, List.forall_mem_filter, List.map_map, List.forall_mem_map]
  refine forall_congr' fun task => imp_congr_right fun _ => ?_
  obtain ⟨same, -, pending⟩ := @resolve_spec responses task
  simp only [Function.comp, decide_eq_true_eq, same, pending, and_imp]

theorem nodup_zipIdx (stored : List Stored) : stored.zipIdx.Nodup := by
  refine List.Nodup.of_map Prod.snd ?_
  rw [List.zipIdx_map_snd]
  exact List.nodup_range'

/-- Two tasks do not cancel one order. -/
def Apart (responses : Nat → CancelResponse) (task other : Stored × Nat) : Prop :=
  ∀ id, cancelledBy responses task = some id → cancelledBy responses other ≠ some id

instance : Std.Symm (Apart responses) where
  symm _ _ apart id second first := apart id first second

theorem nodup_cancels : (cancels session.state responses).Nodup ↔
    ∀ task ∈ session.state.discrepancies.zipIdx, ∀ other ∈ session.state.discrepancies.zipIdx,
      task ≠ other → Apart responses task other := by
  have pairs : (cancels session.state responses).Nodup ↔
      session.state.discrepancies.zipIdx.Pairwise (Apart responses) := by
    unfold cancels List.Nodup
    rw [List.pairwise_filterMap]
    refine ⟨fun apart => apart.imp ?_, fun apart => apart.imp ?_⟩
    · exact fun distinct id first second => distinct id first id second rfl
    · rintro task other apart id first _ second rfl
      exact apart id first second
  rw [pairs]
  constructor
  · exact fun apart task member other there => apart.forall member there
  · exact fun apart => (nodup_zipIdx _).pairwise_of_forall_ne apart

theorem pending_of_unresolved (member : task ∈ session.state.discrepancies.zipIdx)
    (unresolved : task.1.resolved = false) :
    task.1 ∈ session.state.getPendingDiscrepancies :=
  List.mem_filter.mpr ⟨List.fst_mem_of_mem_zipIdx member, decide_eq_true unresolved⟩

theorem inBounds_resolved (sound : Sound session)
    (good : Good session (.resolveAllOrphans responses)
      { state := (session.state.resolveAllOrphans responses).2
        cancelled := session.cancelled ++ cancels session.state responses }) :
    InBounds session (.resolveAllOrphans responses) := by
  intro task member id cancelled other there unresolved concerns
  by_contra different
  have listed : id ∈ session.cancelled ++ cancels session.state responses :=
    List.mem_append_right _ (List.mem_filterMap.mpr ⟨task, member, cancelled⟩)
  cases others : cancelledBy responses other with
  | none =>
    -- The other discrepancy stays pending.
    have stays := (@pending_resolved _ responses sound.started fun discrepancy =>
      ∀ id ∈ session.cancelled ++ cancels session.state responses,
        ¬ Concerns discrepancy id).mp good.pending
    exact stays other there unresolved others id listed concerns
  | some second =>
    -- The other discrepancy is an orphan of the same order.
    obtain ⟨orphan, -, order, found, rfl⟩ := cancelledBy_eq_some others
    have none_ := sound.orphans other.1 (List.fst_mem_of_mem_zipIdx there) orphan
    have same : order.orderId = id := by
      obtain ⟨order_, found_, same⟩ | ⟨localOrder, found_, -⟩ := concerns
      · rw [Option.mem_def.mp found] at found_
        cases found_
        exact same
      · rw [none_] at found_
        cases found_
    have apart := nodup_cancels.mp (List.nodup_append.mp good.once).2.1
    exact apart task member other there (Ne.symm different) id cancelled (same ▸ others)

theorem nodup_of_inBounds (bound : InBounds session (.resolveAllOrphans responses)) :
    (cancels session.state responses).Nodup := by
  refine nodup_cancels.mpr fun task member other there different id cancelled again => ?_
  obtain ⟨-, unresolved, about⟩ := cancelledBy_eq_some again
  exact different (bound task member id cancelled other there unresolved (.inl about)).symm

theorem good_resolved (sound : Sound session)
    (bound : InBounds session (.resolveAllOrphans responses)) :
    Good session (.resolveAllOrphans responses)
      { state := (session.state.resolveAllOrphans responses).2
        cancelled := session.cancelled ++ cancels session.state responses } := by
  have apart := nodup_of_inBounds bound
  have count := @countP_success session responses sound.started
  constructor
  case once =>
    refine List.nodup_append.mpr ⟨sound.once, apart, fun id before other after => ?_⟩
    rintro rfl
    obtain ⟨task, member, cancelled⟩ := List.mem_filterMap.mp after
    obtain ⟨-, unresolved, about⟩ := cancelledBy_eq_some cancelled
    exact sound.pending task.1 (pending_of_unresolved member unresolved) id before (.inl about)
  case counted =>
    rw [List.length_append, ← count, ← sound.counted]
    rfl
  case result =>
    rintro _ ⟨⟩
    rw [count, apart.dedup]
  case pending =>
    refine (pending_resolved sound.started fun discrepancy =>
      ∀ id ∈ session.cancelled ++ cancels session.state responses,
        ¬ Concerns discrepancy id).mpr fun task member unresolved kept id listed about => ?_
    obtain before | after := List.mem_append.mp listed
    · exact sound.pending task.1 (pending_of_unresolved member unresolved) id before about
    · obtain ⟨other, there, cancelled⟩ := List.mem_filterMap.mp after
      have same := bound other there id cancelled task member unresolved about
      rw [same, cancelled] at kept
      cases kept

theorem resolve_iff (sound : Sound session) :
    ∃ next, step session (.resolveAllOrphans responses) = some next ∧
      (Good session (.resolveAllOrphans responses) next ↔
        InBounds session (.resolveAllOrphans responses)) ∧
      (Good session (.resolveAllOrphans responses) next → Sound next) := by
  refine ⟨_, rfl, ⟨inBounds_resolved sound, good_resolved sound⟩, fun good => ?_⟩
  refine ⟨sound.started, fun stored member orphan => ?_, good.once, good.counted, good.pending⟩
  obtain ⟨resolution, there, rfl⟩ := List.mem_map.mp member
  obtain ⟨task, listed, rfl⟩ := List.mem_map.mp there
  have same := (@resolve_spec responses task).1
  rw [sound.started] at orphan ⊢
  rw [same] at orphan ⊢
  exact sound.orphans task.1 (List.fst_mem_of_mem_zipIdx listed) orphan

end Resolutions

theorem call_iff {session : Session} (sound : Sound session) (call : Call) :
    ∃ next, step session call = some next ∧ (Good session call next ↔ InBounds session call) ∧
      (Good session call next → Sound next) := by
  cases call with
  | registerLocalOrder order =>
    refine ⟨_, rfl, iff_of_true ⟨sound.once, sound.counted, fun _ other => (nomatch other),
      sound.pending⟩ trivial, ?_⟩
    exact fun _ => ⟨sound.started, sound.orphans, sound.once, sound.counted, sound.pending⟩
  | removeLocalOrder orderId =>
    refine ⟨_, rfl, iff_of_true ⟨sound.once, sound.counted, fun _ other => (nomatch other),
      sound.pending⟩ trivial, ?_⟩
    exact fun _ => ⟨sound.started, sound.orphans, sound.once, sound.counted, sound.pending⟩
  | reconcile exchange symbols => exact reconcile_iff sound
  | resolveAllOrphans responses => exact resolve_iff sound

theorem sound_start : Sound .start where
  started := rfl
  orphans := fun _ member => nomatch member
  once := .nil
  counted := rfl
  pending := fun _ member => nomatch member

/-- From a new resolver on, whatever the exchange has and answers, every order is cancelled and
counted at most once, every resolution returns the number of orders it cancelled, and nothing about
a cancelled order is pending, precisely as long as every call is in bounds. -/
theorem resolutions_iff (calls : List Call) :
    Performs step Good .start calls ↔ Offered step InBounds .start calls := by
  refine @performs_iff _ _ step (fun session _ => Sound session) Good InBounds ?_ ?_ _ _ sound_start
  · intro session call rest sound
    obtain ⟨next, taken, good, -⟩ := call_iff sound call
    rw [← good]
    constructor
    · rintro ⟨other, again, well⟩
      cases taken.symm.trans again
      exact well
    · exact fun well => ⟨next, taken, well⟩
  · intro session call rest next sound taken well
    obtain ⟨other, again, -, kept⟩ := call_iff sound call
    cases taken.symm.trans again
    exact kept well

/-- An open order that no local order matches. -/
def orphan : ExchangeOrder := ⟨"12345", "BTCUSDT", 0, "NEW"⟩

/-- The exchange with that order. -/
def exchange : Exchange := ⟨[orphan], fun _ => true⟩

/-- An orphan that two reconciliations find is cancelled and counted twice. -/
theorem orphan_found_twice : ¬ Performs step Good .start
    [.reconcile exchange none, .reconcile exchange none, .resolveAllOrphans fun _ => .status 200] ∧
    ((exec step .start [.reconcile exchange none, .reconcile exchange none,
      .resolveAllOrphans fun _ => .status 200]).map fun session =>
        (session.cancelled, session.state.totalResolved)) = some (["12345", "12345"], 2) := by
  constructor
  · rintro ⟨_, ⟨⟩, -, _, ⟨⟩, -, _, ⟨⟩, good, -⟩
    exact absurd good.once (by decide +kernel)
  · decide +kernel

end ResolvedOrphans

end TradingBot.Recovery
