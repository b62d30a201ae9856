import TradingBot.Foundation.Dict

/-!
# The message broker

`message_broker.py` without its actors: subscriptions are listed by topic and kept by subscriber.
A filter answers on every message, a callback that fails is caught, and what is delivered is the
calls of callbacks.
-/

namespace TradingBot.Events

/-- `MessageType`. -/
inductive MessageType where
  | tick
  | order
  | fill
  | cancel
  | position
  | pnl
  | signal
  | risk
  | system
  | nautilusEvent
  deriving DecidableEq, Repr

/-- `Message`; what only filters and callbacks read of it is its content. -/
structure Message (π : Type) where
  messageType : MessageType
  content : π

/-- `Subscription`, with a name for its callback. -/
structure Subscription (π κ : Type) where
  subscriberId : String
  topics : Finset MessageType
  callback : Option κ
  filterFn : Option (Message π → Bool)
  isActive : Bool

/-- `MessageBroker`. -/
structure MessageBroker (π κ : Type) where
  subscribers : MessageType → List (Subscription π κ)
  subscriberById : Dict String (Subscription π κ)
  /-- `active_subscribers` of the statistics. -/
  activeSubscribers : Nat

variable {π κ : Type}

/-- The subscription that a call of `subscribe` makes. -/
def Subscription.new (subscriberId : String) (topics : Finset MessageType) (callback : Option κ)
    (filterFn : Option (Message π → Bool)) : Subscription π κ where
  subscriberId := subscriberId
  topics := topics
  callback := callback
  filterFn := filterFn
  isActive := true

/-- Whether a subscription has a message delivered, its type apart. -/
def Subscription.accepts (subscription : Subscription π κ) (message : Message π) : Bool :=
  subscription.isActive && subscription.filterFn.all fun filterFn => filterFn message

/-- The call of the callback of a subscription for a message. -/
def Subscription.deliver (subscription : Subscription π κ) (message : Message π) :
    Option (String × κ) :=
  if subscription.accepts message then
    subscription.callback.map fun callback => (subscription.subscriberId, callback)
  else none

namespace MessageBroker

/-- `__init__`. -/
def new : MessageBroker π κ where
  subscribers := fun _ => []
  subscriberById := .empty
  activeSubscribers := 0

def subscribe (broker : MessageBroker π κ) (subscriberId : String)
    (topics : Finset MessageType) (callback : Option κ) (filterFn : Option (Message π → Bool)) :
    String × MessageBroker π κ :=
  let subscription := Subscription.new subscriberId topics callback filterFn
  let subscriberById := broker.subscriberById.put subscriberId subscription
  (subscriberId, {
    subscribers := fun topic =>
      if topic ∈ topics then broker.subscribers topic ++ [subscription]
      else broker.subscribers topic
    subscriberById := subscriberById
    activeSubscribers := subscriberById.size })

/-- `unsubscribe`; only the topics of the subscription that is kept are looked through. -/
def unsubscribe (broker : MessageBroker π κ) (subscriberId : String) :
    Bool × MessageBroker π κ :=
  match broker.subscriberById.get subscriberId with
  | none => (false, broker)
  | some subscription =>
    let subscriberById := broker.subscriberById.pop subscriberId
    (true, {
      subscribers := fun topic =>
        if topic ∈ subscription.topics then
          (broker.subscribers topic).filter fun other => other.subscriberId ≠ subscriberId
        else broker.subscribers topic
      subscriberById := subscriberById
      activeSubscribers := subscriberById.size })

/-- `_route_message`, as the calls of callbacks in order. -/
def routeMessage (broker : MessageBroker π κ) (message : Message π) : List (String × κ) :=
  (broker.subscribers message.messageType).filterMap fun subscription =>
    subscription.deliver message

end MessageBroker

end TradingBot.Events
