import TradingBot.Foundation.Run
import TradingBot.Events.MessageBroker

/-!
# Routing by the latest subscription

A message is to go once to each subscriber whose latest subscription takes it. A subscription that
another one of the same subscriber replaces stays in the lists of its topics, where only a
subscription of the same topics would have it removed.
-/

open Run

namespace TradingBot.Events.Routing

variable {π κ : Type}

/-- One call on a broker. -/
inductive BrokerCall (π κ : Type) where
  | subscribe (subscriberId : String) (topics : Finset MessageType) (callback : Option κ)
    (filterFn : Option (Message π → Bool))
  | unsubscribe (subscriberId : String)

/-- A broker beside the latest subscription of every subscriber that has not unsubscribed since. -/
structure Session (π κ : Type) where
  broker : MessageBroker π κ
  latest : String → Option (Subscription π κ)

/-- A session after a call. -/
def step (session : Session π κ) : BrokerCall π κ → Option (Session π κ)
  | .subscribe subscriberId topics callback filterFn => some {
      broker := (session.broker.subscribe subscriberId topics callback filterFn).2
      latest := Function.update session.latest subscriberId
        (some (Subscription.new subscriberId topics callback filterFn)) }
  | .unsubscribe subscriberId => some {
      broker := (session.broker.unsubscribe subscriberId).2
      latest := Function.update session.latest subscriberId none }

/-- A session of a new broker. -/
def Session.start : Session π κ := { broker := .new, latest := fun _ => none }

/-- What a subscription is to have delivered of a message: one call if the type is among its topics
and it has a callback and accepts the message. -/
def wanted (subscription : Subscription π κ) (message : Message π) : Option (String × κ) :=
  if message.messageType ∈ subscription.topics then subscription.deliver message else none

/-- What a subscriber is to have delivered of a message. -/
def due (session : Session π κ) (subscriberId : String) (message : Message π) :
    Option (String × κ) :=
  (session.latest subscriberId).bind fun subscription => wanted subscription message

/-- Every message is delivered to each subscriber once as its latest subscription wants it, and to
nobody else. -/
def Routes (session : Session π κ) : Prop :=
  ∀ message subscriberId, (session.broker.routeMessage message).filter
    (fun delivery => delivery.1 = subscriberId) = (due session subscriberId message).toList

/-- A subscriber that subscribes is not subscribed, or its subscription has nothing delivered. -/
def Unshadowed (session : Session π κ) : BrokerCall π κ → Prop
  | .subscribe subscriberId .. => ∀ subscription ∈ session.latest subscriberId,
      ∀ message, wanted subscription message = none
  | .unsubscribe _ => True

section Calls

variable {session next : Session π κ} {broker : MessageBroker π κ} {subscriberId other : String}
  {message : Message π}

/-- The broker keeps the latest subscriptions by subscriber. -/
def Kept (session : Session π κ) : Prop :=
  ∀ subscriberId, session.broker.subscriberById.get subscriberId = session.latest subscriberId

theorem deliver_some {subscription : Subscription π κ} {delivery : String × κ}
    (delivered : subscription.deliver message = some delivery) :
    delivery.1 = subscription.subscriberId := by
  unfold Subscription.deliver at delivered
  split at delivered
  · obtain ⟨callback, _, same⟩ := Option.map_eq_some_iff.mp delivered
    rw [← same]
  · cases delivered

/-- The deliveries of a list of subscriptions to a subscriber. -/
def deliveriesTo (subscriberId : String) (message : Message π)
    (subscriptions : List (Subscription π κ)) : List (String × κ) :=
  (subscriptions.filterMap fun subscription => subscription.deliver message).filter
    fun delivery => delivery.1 = subscriberId

theorem deliveriesTo_append (first second : List (Subscription π κ)) :
    deliveriesTo subscriberId message (first ++ second) =
      deliveriesTo subscriberId message first ++ deliveriesTo subscriberId message second := by
  unfold deliveriesTo
  rw [List.filterMap_append, List.filter_append]

theorem deliveriesTo_singleton (subscription : Subscription π κ) :
    deliveriesTo subscriberId message [subscription] =
      if subscription.subscriberId = subscriberId then (subscription.deliver message).toList
      else [] := by
  unfold deliveriesTo
  cases delivered : subscription.deliver message with
  | none =>
    simp only [List.filterMap_cons, delivered]
    split <;> rfl
  | some delivery =>
    have name := deliver_some delivered
    simp only [List.filterMap_cons, delivered, List.filterMap_nil, List.filter_singleton, name]
    by_cases same : subscription.subscriberId = subscriberId
    · rw [if_pos same, decide_eq_true same]
      rfl
    · rw [if_neg same, decide_eq_false same]
      rfl

theorem deliveriesTo_without (subscriptions : List (Subscription π κ)) :
    deliveriesTo other message
        (subscriptions.filter fun subscription => subscription.subscriberId ≠ subscriberId) =
      if other = subscriberId then [] else deliveriesTo other message subscriptions := by
  induction subscriptions with
  | nil => split <;> rfl
  | cons subscription rest ih =>
    have split_ : subscription :: rest = [subscription] ++ rest := rfl
    rw [split_, List.filter_append, deliveriesTo_append, deliveriesTo_append, ih,
      deliveriesTo_singleton, List.filter_singleton]
    by_cases removed : subscription.subscriberId = subscriberId
    · rw [decide_eq_false (not_not_intro removed), removed]
      by_cases same : other = subscriberId
      · rw [if_pos same, if_pos same]
        rfl
      · rw [if_neg same, if_neg same, if_neg (Ne.symm same)]
        rfl
    · rw [decide_eq_true removed, cond_true, deliveriesTo_singleton]
      by_cases same : other = subscriberId
      · rw [if_pos same, if_pos same, if_neg (same ▸ removed)]
        rfl
      · rw [if_neg same, if_neg same]

/-- What is delivered after a subscription is what was delivered before and, to its subscriber,
what the new one wants. -/
theorem routeMessage_subscribe (broker : MessageBroker π κ) (subscriberId other : String)
    (topics : Finset MessageType) (callback : Option κ) (filterFn : Option (Message π → Bool))
    (message : Message π) :
    ((broker.subscribe subscriberId topics callback filterFn).2.routeMessage message).filter
        (fun delivery => delivery.1 = other) =
      (broker.routeMessage message).filter (fun delivery => delivery.1 = other) ++
        if subscriberId = other then
          (wanted (Subscription.new subscriberId topics callback filterFn) message).toList
        else [] := by
  show deliveriesTo other message (if message.messageType ∈ topics then
      broker.subscribers message.messageType ++
        [Subscription.new subscriberId topics callback filterFn]
    else broker.subscribers message.messageType) = deliveriesTo other message _ ++ _
  unfold wanted
  by_cases listed : message.messageType ∈ topics
  · rw [if_pos listed, if_pos (show message.messageType ∈ (Subscription.new subscriberId topics
      callback filterFn).topics from listed), deliveriesTo_append, deliveriesTo_singleton]
    rfl
  · rw [if_neg listed, if_neg (show message.messageType ∉ (Subscription.new subscriberId topics
      callback filterFn).topics from listed)]
    split <;> exact (List.append_nil _).symm

theorem routes_subscribe (routes : Routes session) (subscriberId : String)
    (topics : Finset MessageType) (callback : Option κ) (filterFn : Option (Message π → Bool))
    (stepped : step session (.subscribe subscriberId topics callback filterFn) = some next) :
    Routes next ↔ Unshadowed session (.subscribe subscriberId topics callback filterFn) := by
  cases stepped
  have after : ∀ message other, due {
      broker := (session.broker.subscribe subscriberId topics callback filterFn).2
      latest := Function.update session.latest subscriberId
        (some (Subscription.new subscriberId topics callback filterFn)) } other message =
      if subscriberId = other then
        wanted (Subscription.new subscriberId topics callback filterFn) message
      else due session other message := by
    intro message other
    show (Function.update session.latest subscriberId _ other).bind _ = _
    by_cases same : subscriberId = other
    · rw [if_pos same, ← same, Function.update_self]
      rfl
    · rw [if_neg same, Function.update_of_ne (Ne.symm same)]
      rfl
  constructor
  · intro kept subscription current message
    have now := kept message subscriberId
    rw [after, if_pos rfl, routeMessage_subscribe, if_pos rfl, routes message subscriberId] at now
    have nothing := List.append_left_eq_self.mp now
    have before : due session subscriberId message = wanted subscription message := by
      unfold due
      rw [current]
      rfl
    rw [before] at nothing
    exact Option.toList_eq_nil_iff.mp nothing
  · intro unshadowed message other
    rw [after, routeMessage_subscribe, routes message other]
    by_cases same : subscriberId = other
    · have nothing : due session other message = none := by
        unfold due
        cases current : session.latest other with
        | none => rfl
        | some subscription => exact unshadowed subscription (same ▸ current) message
      rw [if_pos same, if_pos same, nothing]
      rfl
    · rw [if_neg same, if_neg same, List.append_nil]

theorem routeMessage_unsubscribe {subscription : Subscription π κ}
    (current : broker.subscriberById.get subscriberId = some subscription) (other : String)
    (message : Message π) :
    ((broker.unsubscribe subscriberId).2.routeMessage message).filter
        (fun delivery => delivery.1 = other) =
      if other = subscriberId ∧ message.messageType ∈ subscription.topics then []
      else (broker.routeMessage message).filter (fun delivery => delivery.1 = other) := by
  unfold MessageBroker.unsubscribe
  rw [current]
  show deliveriesTo other message (if message.messageType ∈ subscription.topics then
      (broker.subscribers message.messageType).filter fun other => other.subscriberId ≠ subscriberId
    else broker.subscribers message.messageType) = if _ then [] else deliveriesTo other message _
  by_cases listed : message.messageType ∈ subscription.topics
  · rw [if_pos listed, deliveriesTo_without]
    simp only [listed, and_true]
  · rw [if_neg listed, if_neg (fun both => listed both.2)]

theorem routes_unsubscribe (kept : Kept session) (routes : Routes session) (subscriberId : String)
    (stepped : step session (.unsubscribe subscriberId) = some next) : Routes next := by
  cases stepped
  intro message other
  have after : due {
      broker := (session.broker.unsubscribe subscriberId).2
      latest := Function.update session.latest subscriberId none } other message =
      if other = subscriberId then none else due session other message := by
    show (Function.update session.latest subscriberId none other).bind _ = _
    by_cases same : other = subscriberId
    · rw [if_pos same, same, Function.update_self]
      rfl
    · rw [if_neg same, Function.update_of_ne same]
      rfl
  rw [after]
  cases current : session.broker.subscriberById.get subscriberId with
  | none =>
    have unchanged : (session.broker.unsubscribe subscriberId).2 = session.broker := by
      unfold MessageBroker.unsubscribe
      rw [current]
    rw [unchanged, routes message other]
    by_cases same : other = subscriberId
    · have missing : session.latest other = none := by
        rw [same, ← kept, current]
      unfold due
      rw [if_pos same, missing]
      rfl
    · rw [if_neg same]
  | some subscription =>
    rw [routeMessage_unsubscribe current, routes message other]
    by_cases same : other = subscriberId
    · rw [if_pos same]
      by_cases listed : message.messageType ∈ subscription.topics
      · rw [if_pos ⟨same, listed⟩]
        rfl
      · rw [if_neg fun both => listed both.2]
        unfold due
        rw [same, ← kept, current]
        show (wanted subscription message).toList = _
        unfold wanted
        rw [if_neg listed]
    · rw [if_neg fun both => same both.1, if_neg same]

theorem kept_step {call : BrokerCall π κ} (kept : Kept session)
    (stepped : step session call = some next) : Kept next := by
  intro other
  cases call with
  | subscribe subscriberId topics callback filterFn =>
    cases stepped
    show (session.broker.subscriberById.put subscriberId _).get other =
      Function.update session.latest subscriberId _ other
    rw [Dict.get_put, Function.update_apply, kept other]
  | unsubscribe subscriberId =>
    cases stepped
    show (session.broker.unsubscribe subscriberId).2.subscriberById.get other =
      Function.update session.latest subscriberId none other
    unfold MessageBroker.unsubscribe
    rw [Function.update_apply, ← kept other]
    cases current : session.broker.subscriberById.get subscriberId with
    | none =>
      by_cases same : other = subscriberId
      · rw [if_pos same, same]
        exact current
      · rw [if_neg same]
    | some subscription => exact Dict.get_pop _ _ _

end Calls

/-! ## Runs -/

/-- Along every run of subscriptions and unsubscriptions, every message is delivered exactly once
to each subscriber as its latest subscription wants it and to nobody else, if and only if every
subscriber that subscribes is not subscribed or has nothing delivered by its subscription. -/
theorem routes_iff_unshadowed (calls : List (BrokerCall π κ)) :
    Always step Routes (Session.start : Session π κ) calls ↔
      Guarded step Unshadowed Session.start calls := by
  apply @always_iff_guarded _ _ step Kept
  · exact fun _ _ _ kept stepped => kept_step kept stepped
  · intro session call next kept routes stepped
    cases call with
    | subscribe subscriberId topics callback filterFn =>
      exact routes_subscribe routes subscriberId topics callback filterFn stepped
    | unsubscribe subscriberId =>
      exact iff_of_true (routes_unsubscribe kept routes subscriberId stepped) trivial
  · exact fun _ => rfl
  · exact fun _ _ => rfl

/-- A subscriber that subscribes to two topics one after the other, and unsubscribes. -/
def subscribedTwice : List (BrokerCall Unit String) :=
  [.subscribe "strategy" {.tick} (some "onTick") none,
    .subscribe "strategy" {.order} (some "onOrder") none, .unsubscribe "strategy"]

/-- The first callback of that subscriber is called after it has unsubscribed. -/
theorem called_after_unsubscribe : ¬ Always step Routes Session.start subscribedTwice := by
  intro always
  obtain ⟨last, ran⟩ : ∃ last, exec step Session.start subscribedTwice = some last := ⟨_, rfl⟩
  have routed := always.final ran ⟨.tick, ()⟩ "strategy"
  cases ran
  exact absurd routed (by decide +kernel)

end TradingBot.Events.Routing
