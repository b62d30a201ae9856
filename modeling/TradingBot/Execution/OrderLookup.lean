import TradingBot.Execution.FillLocks

/-!
# Lookups of orders

The indexes of `order_manager.py` by client and by exchange order id. Both ids of an order are drawn
from a clock in milliseconds, the order id with random bytes besides. A lookup answers an order
object, so the objects are numbered in the order of their creation. A fill that moves its order
holds the lock of the state machine for ever, and a call that comes to the lock after that never
returns.
-/

open Run

namespace TradingBot.Execution

namespace OrderManager

/-- The order id that an index has for a key; an empty one counts as none. -/
def keyOf (index : Dict String String) (key : String) : Option String :=
  (index.get key).filter (· ≠ "")

def getOrderByExchangeId (manager : OrderManager) (exchangeOrderId : String) : Option Order :=
  (keyOf manager.ordersByExchangeId exchangeOrderId).bind manager.orders.get

def getOrderByClientId (manager : OrderManager) (clientOrderId : String) : Option Order :=
  (keyOf manager.ordersByClientId clientOrderId).bind manager.orders.get

end OrderManager

namespace OrderLookup

/-- A request to a manager, with what `create_order` reads from the clock and draws at random. -/
inductive Request where
  | create (orderMillis : Nat) (token : String) (clientMillis : Nat) (quantity : ℚ)
  | submit (orderId exchangeOrderId : String)
  | acknowledge (orderId : String)
  | fill (orderId : String) (price quantity commission : ℚ) (commissionAsset : String)
      (tradeId : Option Int)
  | cancel (orderId reason : String)
  | reject (orderId reason : String)

/-- `order_id` of a new order. -/
def orderIdAt (millis : Nat) (token : String) : String := "ORD_" ++ toString millis ++ "_" ++ token

/-- `client_order_id` of a new order. -/
def clientIdAt (millis : Nat) : String := "CLI_" ++ toString millis

/-- A manager, with the order objects that were created. -/
structure Session where
  manager : OrderManager
  /-- A fill holds the lock of the state machine, and waits for it. -/
  held : Bool
  /-- The number of the object that each order id stands for. -/
  objects : Dict String Nat
  /-- The client order id of each object, by its number. -/
  created : List String

namespace Session

/-- A new manager. -/
def new : Session := ⟨.new, false, .empty, []⟩

/-- An order is written with its exchange order id. -/
def write (session : Session) (orderId : String) (order : Order) (exchangeOrderId : String) :
    Session :=
  { session with
    manager :=
      { session.manager.setOrder orderId order with
        ordersByExchangeId := session.manager.ordersByExchangeId.put exchangeOrderId orderId } }

/-- `submit_order`, with its answer if it returns: the ids are written before it comes to the
lock. -/
def submitOrder (session : Session) (orderId exchangeOrderId : String) : Option Bool × Session :=
  match session.manager.orders.get orderId with
  | none => (some false, session)
  | some order =>
    let sent := { order with exchangeOrderId := some exchangeOrderId }
    if session.held then (none, session.write orderId sent exchangeOrderId)
    else
      let moved := sent.transition .submitted none
      (some moved.1, session.write orderId moved.2 exchangeOrderId)

/-- `add_fill`: a fill that moves its order comes to wait for the lock that it holds. -/
def addFill (session : Session) (orderId : String) (fill : Fill) : Session :=
  match session.manager.orders.get orderId with
  | none => session
  | some order =>
    if session.held || !order.isActive then session
    else
      let filled := order.withFill fill
      { session with
        manager := session.manager.setOrder orderId filled
        held := (FillLocks.Desk.transitionAfter filled order.filledQuantity).isSome }

/-- A session after a call that does nothing before it has the lock. -/
def locking (session : Session) (moved : Bool × OrderManager) : Session :=
  if session.held then session else { session with manager := moved.2 }

/-- The object that `get_order_by_client_id` answers. -/
def byClientId (session : Session) (clientOrderId : String) : Option Nat :=
  (OrderManager.keyOf session.manager.ordersByClientId clientOrderId).bind session.objects.get

/-- The object that `get_order_by_exchange_id` answers. -/
def byExchangeId (session : Session) (exchangeOrderId : String) : Option Nat :=
  (OrderManager.keyOf session.manager.ordersByExchangeId exchangeOrderId).bind session.objects.get

/-- An object has an exchange order id. -/
def Carries (session : Session) (number : Nat) (exchangeOrderId : String) : Prop :=
  ∃ orderId order, session.objects.get orderId = some number ∧
    session.manager.orders.get orderId = some order ∧ order.exchangeOrderId = some exchangeOrderId

end Session

/-- A session after a request. -/
def step (session : Session) : Request → Option Session
  | .create orderMillis token clientMillis quantity =>
    let orderId := orderIdAt orderMillis token
    let clientOrderId := clientIdAt clientMillis
    some { session with
      manager := (session.manager.createOrder orderId clientOrderId quantity).2
      objects := session.objects.put orderId session.created.length
      created := session.created ++ [clientOrderId] }
  | .submit orderId exchangeOrderId => some (session.submitOrder orderId exchangeOrderId).2
  | .acknowledge orderId => some (session.locking (session.manager.acknowledgeOrder orderId))
  | .fill orderId price quantity commission commissionAsset tradeId =>
    some (session.addFill orderId ⟨orderId, price, quantity, commission, commissionAsset, tradeId⟩)
  | .cancel orderId reason => some (session.locking (session.manager.cancelOrder orderId reason))
  | .reject orderId reason => some (session.locking (session.manager.rejectOrder orderId reason))

/-- Every order that was created is found by its client order id, and an exchange order id finds
the order that has it. -/
structure Exact (session : Session) : Prop where
  byClient : ∀ number clientOrderId, session.created[number]? = some clientOrderId →
    session.byClientId clientOrderId = some number
  byExchange : ∀ exchangeOrderId number,
    session.byExchangeId exchangeOrderId = some number ↔ session.Carries number exchangeOrderId

/-- The lookups are exact after a request, and a submission that is refused changes nothing. -/
def Good (session : Session) (request : Request) (next : Session) : Prop :=
  Exact next ∧ ∀ orderId exchangeOrderId, request = .submit orderId exchangeOrderId →
    (session.submitOrder orderId exchangeOrderId).1 = some false →
      next.manager = session.manager

/-- The exchange order ids that are submitted. -/
def submitted (requests : List Request) : List String :=
  requests.filterMap fun request => match request with
    | .submit _ exchangeOrderId => some exchangeOrderId
    | _ => none

/-- A new order has an order id and a client order id of its own, and an order that is submitted is
new, or is not there; where the submission will not return, it has no exchange order id. -/
def InBounds (session : Session) : Request → Prop
  | .create orderMillis token clientMillis _ =>
    session.manager.orders.get (orderIdAt orderMillis token) = none ∧
      session.manager.ordersByClientId.get (clientIdAt clientMillis) = none
  | .submit orderId _ => ∀ order ∈ session.manager.orders.get orderId,
      if session.held then order.exchangeOrderId = none else order.state = .created
  | _ => True

instance (session : Session) : DecidablePred (InBounds session)
  | .create .. => inferInstanceAs (Decidable (_ ∧ _))
  | .submit orderId _ => inferInstanceAs (Decidable (∀ order ∈ session.manager.orders.get orderId,
      if session.held then order.exchangeOrderId = none else order.state = .created))
  | .acknowledge .. | .fill .. | .cancel .. | .reject .. => inferInstanceAs (Decidable True)

/-- What the indexes keep, with the requests that are left. -/
structure Indexed (session : Session) (rest : List Request) : Prop where
  exact_ : Exact session
  keys : ∀ orderId, session.objects.get orderId = none ↔ session.manager.orders.get orderId = none
  named : session.objects.get "" = none
  numbered : ∀ orderId number, session.objects.get orderId = some number →
    number < session.created.length
  injective : ∀ orderId other number, session.objects.get orderId = some number →
    session.objects.get other = some number → orderId = other
  /-- A new order has no exchange order id yet, unless its submission does not return. -/
  fresh : session.held = false → ∀ orderId order,
    session.manager.orders.get orderId = some order → order.state = .created →
      order.exchangeOrderId = none
  clients : ∀ clientOrderId orderId,
    session.manager.ordersByClientId.get clientOrderId = some orderId →
      clientOrderId ∈ session.created
  exchanges : ∀ exchangeOrderId orderId,
    session.manager.ordersByExchangeId.get exchangeOrderId = some orderId →
      session.manager.orders.get orderId ≠ none
  /-- No exchange order id that is still to be submitted is known. -/
  unused : ∀ exchangeOrderId ∈ submitted rest,
    session.manager.ordersByExchangeId.get exchangeOrderId = none
  distinct : (submitted rest).Nodup

/-! ## Moves of orders -/

section Moves

variable {session next : Session} {rest : List Request} {orderId : String} {order : Order}

/-- A move of an order leaves its exchange order id, and makes no order new. -/
def Keeps (move : Order → Bool × Order) : Prop :=
  ∀ order, (move order).2.exchangeOrderId = order.exchangeOrderId ∧
    ((move order).2.state = .created → order.state = .created)

theorem keeps_transition (newState : OrderState) (reason : Option String) :
    Keeps fun order => order.transition newState reason := by
  intro order
  obtain ⟨same, -⟩ | ⟨listed, moved⟩ := order.transition_cases newState reason
  · exact ⟨congrArg Order.exchangeOrderId same, fun new => congrArg Order.state same ▸ new⟩
  · have sameId : (order.transition newState reason).2.exchangeOrderId = order.exchangeOrderId := by
      rw [moved]
    refine ⟨sameId, fun new => ?_⟩
    have state : newState = .created := (congrArg Order.state moved).symm.trans new
    rw [state] at listed
    revert listed
    cases order.state <;> decide

theorem keeps_cancel (reason : String) : Keeps fun order =>
    if !order.isActive then (false, order) else order.transition .cancelled (some reason) := by
  intro order
  dsimp only
  split
  · exact ⟨rfl, id⟩
  · exact keeps_transition .cancelled (some reason) order

theorem submitted_tail (request : Request) (rest : List Request) :
    ∀ exchangeOrderId ∈ submitted rest, exchangeOrderId ∈ submitted (request :: rest) := by
  intro exchangeOrderId member
  unfold submitted
  rw [List.filterMap_cons]
  split
  · exact member
  · exact List.mem_cons_of_mem _ member

variable {request : Request}

theorem distinct_tail (distinct : (submitted (request :: rest)).Nodup) :
    (submitted rest).Nodup := by
  unfold submitted at distinct
  rw [List.filterMap_cons] at distinct
  split at distinct
  · exact distinct
  · exact distinct.of_cons

theorem carries_moved (found : session.manager.orders.get orderId = some order) {moved : Order}
    (sameId : moved.exchangeOrderId = order.exchangeOrderId) {number : Nat}
    {exchangeOrderId : String} :
    session.Carries number exchangeOrderId ↔
      Session.Carries { session with manager := session.manager.setOrder orderId moved } number
        exchangeOrderId := by
  refine exists_congr fun other => ?_
  constructor
  · rintro ⟨kept, object, has, carries⟩
    by_cases same : other = orderId
    · cases found.symm.trans (same ▸ has)
      exact ⟨moved, object, Dict.get_put_eq_some.mpr (.inl ⟨same, rfl⟩), sameId.trans carries⟩
    · exact ⟨kept, object, Dict.get_put_eq_some.mpr (.inr ⟨same, has⟩), carries⟩
  · rintro ⟨kept, object, has, carries⟩
    obtain ⟨rfl, rfl⟩ | ⟨-, before⟩ := Dict.get_put_eq_some.mp has
    · exact ⟨order, object, found, sameId.symm.trans carries⟩
    · exact ⟨kept, object, before, carries⟩

theorem indexed_same (indexed : Indexed session (request :: rest)) : Indexed session rest :=
  { indexed with
    unused := fun id member => indexed.unused id (submitted_tail request rest id member)
    distinct := distinct_tail indexed.distinct }

theorem indexed_set {request : Request} (indexed : Indexed session (request :: rest))
    (found : session.manager.orders.get orderId = some order) {moved : Order}
    (sameId : moved.exchangeOrderId = order.exchangeOrderId)
    (noNew : moved.state = .created → order.state = .created) {held : Bool}
    (stays : held = false → session.held = false) :
    Indexed { session with manager := session.manager.setOrder orderId moved, held } rest := by
  have there : ∀ other, (session.manager.orders.put orderId moved).get other = none ↔
      session.manager.orders.get other = none := fun _ => Dict.get_replace_eq_none found
  refine { indexed_same indexed with
    exact_ := ⟨indexed.exact_.byClient, fun exchangeOrderId number => ?_⟩
    keys := fun other => (indexed.keys other).trans (there other).symm
    fresh := fun free => (Dict.forall_put (indexed.fresh (stays free))).mpr fun new => ?_
    exchanges := fun exchangeOrderId other known missing => ?_ }
  · refine (indexed.exact_.byExchange exchangeOrderId number).trans ?_
    exact carries_moved found sameId
  · exact sameId.trans (indexed.fresh (stays free) orderId order found (noNew new))
  · exact indexed.exchanges exchangeOrderId other known ((there other).mp missing)

theorem indexed_locking (indexed : Indexed session (request :: rest)) {move : Order → Bool × Order}
    (keeps : Keeps move) (orderId : String) :
    Indexed (session.locking (session.manager.moveOrder orderId move)) rest := by
  unfold Session.locking
  split
  · exact indexed_same indexed
  · cases found : session.manager.orders.get orderId with
    | none =>
      rw [OrderManager.moveOrder_missing found]
      exact indexed_same indexed
    | some order =>
      rw [OrderManager.moveOrder_found found]
      obtain ⟨sameId, noNew⟩ := keeps order
      exact indexed_set indexed found sameId noNew id

theorem indexed_addFill (indexed : Indexed session (request :: rest)) (orderId : String)
    (fill : Fill) : Indexed (session.addFill orderId fill) rest := by
  unfold Session.addFill
  cases found : session.manager.orders.get orderId with
  | none => exact indexed_same indexed
  | some order =>
    dsimp only
    split
    · exact indexed_same indexed
    · next takes =>
      have free : session.held = false := by
        cases held : session.held with
        | false => rfl
        | true => exact absurd (by rw [held]; rfl) takes
      exact @indexed_set session rest orderId order _ indexed found (order.withFill fill) rfl id _
        fun _ => free

end Moves

/-! ## Requests -/

section Requests

variable {session next : Session} {rest : List Request} {orderId : String} {order : Order}

/-- A key finds an object through the id it is indexed under. -/
theorem keyOf_bind {α : Type} (index : Dict String String) (objects : Dict String α) (key : String)
    (object : α) :
    (OrderManager.keyOf index key).bind objects.get = some object ↔
      ∃ orderId, index.get key = some orderId ∧ orderId ≠ "" ∧
        objects.get orderId = some object := by
  unfold OrderManager.keyOf
  cases index.get key with
  | none => simp
  | some orderId => by_cases empty : orderId = "" <;> simp [Option.filter, empty]

theorem orderIdAt_ne (millis : Nat) (token : String) : orderIdAt millis token ≠ "" := by
  intro empty
  have letters := congrArg String.length empty
  simp [orderIdAt] at letters

theorem Indexed.client_known (indexed : Indexed session rest) {clientOrderId : String} :
    session.manager.ordersByClientId.get clientOrderId = none ↔
      clientOrderId ∉ session.created := by
  constructor
  · intro missing member
    obtain ⟨number, found⟩ := List.mem_iff_getElem?.mp member
    have answered := indexed.exact_.byClient number clientOrderId found
    obtain ⟨orderId, there, -⟩ := (keyOf_bind _ _ _ _).mp answered
    cases missing.symm.trans there
  · intro absent
    cases known : session.manager.ordersByClientId.get clientOrderId with
    | none => rfl
    | some orderId => exact absurd (indexed.clients clientOrderId orderId known) absent

theorem Indexed.object (indexed : Indexed session rest)
    (found : session.manager.orders.get orderId = some order) :
    ∃ number, session.objects.get orderId = some number := by
  cases object : session.objects.get orderId with
  | none => cases found.symm.trans ((indexed.keys orderId).mp object)
  | some number => exact ⟨number, rfl⟩

variable {orderMillis clientMillis : Nat} {token : String} {quantity : ℚ}

theorem create_needs (indexed : Indexed session rest)
    (taken : step session (.create orderMillis token clientMillis quantity) = some next)
    (exact_ : Exact next) : InBounds session (.create orderMillis token clientMillis quantity) := by
  cases taken
  -- An object that was found before is not the new one.
  have old : ∀ number clientOrderId, session.created[number]? = some clientOrderId →
      ∃ known, (session.manager.ordersByClientId.put (clientIdAt clientMillis)
          (orderIdAt orderMillis token)).get clientOrderId = some known ∧
        (session.objects.put (orderIdAt orderMillis token) session.created.length).get known =
          some number := by
    intro number clientOrderId found
    have inside := (List.getElem?_eq_some_iff.mp found).1
    have kept : (session.created ++ [clientIdAt clientMillis])[number]? = some clientOrderId :=
      (List.getElem?_append_left inside).trans found
    obtain ⟨known, there, -, answered⟩ :=
      (keyOf_bind _ _ _ _).mp (exact_.byClient number clientOrderId kept)
    exact ⟨known, there, answered⟩
  have ownClient : session.manager.ordersByClientId.get (clientIdAt clientMillis) = none := by
    rw [indexed.client_known]
    intro member
    obtain ⟨number, found⟩ := List.mem_iff_getElem?.mp member
    obtain ⟨known, there, answered⟩ := old number _ found
    rw [Dict.get_put, if_pos rfl] at there
    cases there
    rw [Dict.get_put, if_pos rfl] at answered
    have inside := (List.getElem?_eq_some_iff.mp found).1
    have same := Option.some.inj answered
    omega
  refine ⟨(indexed.keys _).mp ?_, ownClient⟩
  cases known : session.objects.get (orderIdAt orderMillis token) with
  | none => rfl
  | some number =>
    have inside := indexed.numbered _ number known
    have found : session.created[number]? = some session.created[number] :=
      List.getElem?_eq_getElem inside
    obtain ⟨before, thereBefore, -, answeredBefore⟩ :=
      (keyOf_bind _ _ _ _).mp (indexed.exact_.byClient number _ found)
    have sameId := indexed.injective _ _ number answeredBefore known
    obtain ⟨after, there, answered⟩ := old number _ found
    rw [Dict.get_put] at there
    split at there
    next again =>
      rw [again] at thereBefore
      cases ownClient.symm.trans thereBefore
    next other =>
      cases thereBefore.symm.trans there
      rw [Dict.get_put, if_pos sameId] at answered
      have same := Option.some.inj answered
      omega

theorem mem_created {created : List String} {number : Nat} {clientOrderId new : String} :
    (created ++ [new])[number]? = some clientOrderId ↔
      created[number]? = some clientOrderId ∨ number = created.length ∧ clientOrderId = new := by
  rw [List.getElem?_append]
  split
  next inside =>
    have below : number ≠ created.length := Nat.ne_of_lt inside
    simp [below]
  next outside =>
    have missing : created[number]? = none := List.getElem?_eq_none (Nat.not_lt.mp outside)
    rw [missing, List.getElem?_singleton]
    have exactly : number - created.length = 0 ↔ number = created.length := by omega
    simp [exactly, eq_comm]

theorem create_byClient (indexed : Indexed session rest)
    (met : InBounds session (.create orderMillis token clientMillis quantity))
    (taken : step session (.create orderMillis token clientMillis quantity) = some next)
    (number : Nat) (clientOrderId : String)
    (found : next.created[number]? = some clientOrderId) :
    next.byClientId clientOrderId = some number := by
  cases taken
  obtain ⟨ownId, ownClient⟩ := met
  have noObject := (indexed.keys _).mpr ownId
  refine (keyOf_bind _ _ _ _).mpr ?_
  obtain before | ⟨rfl, rfl⟩ := mem_created.mp found
  · obtain ⟨known, there, some_, answered⟩ :=
      (keyOf_bind _ _ _ _).mp (indexed.exact_.byClient number clientOrderId before)
    have otherClient : clientOrderId ≠ clientIdAt clientMillis := by
      rintro rfl
      cases ownClient.symm.trans there
    have otherId : known ≠ orderIdAt orderMillis token := by
      rintro rfl
      cases noObject.symm.trans answered
    exact ⟨known, Dict.get_put_eq_some.mpr (.inr ⟨otherClient, there⟩), some_,
      Dict.get_put_eq_some.mpr (.inr ⟨otherId, answered⟩)⟩
  · exact ⟨orderIdAt orderMillis token, Dict.get_put_self _ _ _, orderIdAt_ne orderMillis token,
      Dict.get_put_self _ _ _⟩

theorem create_byExchange (indexed : Indexed session rest)
    (met : InBounds session (.create orderMillis token clientMillis quantity))
    (taken : step session (.create orderMillis token clientMillis quantity) = some next)
    (exchangeOrderId : String) (number : Nat) :
    next.byExchangeId exchangeOrderId = some number ↔ next.Carries number exchangeOrderId := by
  cases taken
  have ownId := met.1
  have noObject := (indexed.keys _).mpr ownId
  refine (keyOf_bind _ _ _ _).trans ?_
  have before := (keyOf_bind _ _ _ _).symm.trans (indexed.exact_.byExchange exchangeOrderId number)
  constructor
  · rintro ⟨orderId, there, some_, answered⟩
    obtain ⟨rfl, -⟩ | ⟨-, found⟩ := Dict.get_put_eq_some.mp answered
    · exact absurd ownId (indexed.exchanges exchangeOrderId _ there)
    · obtain ⟨known, order, object, has, carries⟩ := before.mp ⟨orderId, there, some_, found⟩
      have other : known ≠ orderIdAt orderMillis token := by
        rintro rfl
        cases ownId.symm.trans has
      exact ⟨known, order, Dict.get_put_eq_some.mpr (.inr ⟨other, object⟩),
        Dict.get_put_eq_some.mpr (.inr ⟨other, has⟩), carries⟩
  · rintro ⟨orderId, order, object, has, carries⟩
    obtain ⟨-, rfl⟩ | ⟨other, has_⟩ := Dict.get_put_eq_some.mp has
    · cases carries
    · obtain ⟨same, -⟩ | ⟨-, found⟩ := Dict.get_put_eq_some.mp object
      · exact absurd same other
      · obtain ⟨known, there, some_, answered⟩ := before.mpr ⟨orderId, order, found, has_, carries⟩
        have otherId : known ≠ orderIdAt orderMillis token := by
          rintro rfl
          cases noObject.symm.trans answered
        exact ⟨known, there, some_, Dict.get_put_eq_some.mpr (.inr ⟨otherId, answered⟩)⟩

theorem create_indexed {request : Request} (indexed : Indexed session (request :: rest))
    (met : InBounds session (.create orderMillis token clientMillis quantity))
    (taken : step session (.create orderMillis token clientMillis quantity) = some next) :
    Indexed next rest := by
  have byClient := create_byClient indexed met taken
  have byExchange := create_byExchange indexed met taken
  cases taken
  have grown : (session.created ++ [clientIdAt clientMillis]).length =
      session.created.length + 1 := List.length_append
  refine {
    exact_ := ⟨byClient, byExchange⟩
    keys := fun orderId => ?_
    named := Dict.get_put_eq_none.mpr ⟨Ne.symm (orderIdAt_ne orderMillis token), indexed.named⟩
    numbered := (Dict.forall_put fun orderId number found => ?_).mpr ?_
    injective := fun orderId other number found again => ?_
    fresh := fun free => (Dict.forall_put (indexed.fresh free)).mpr fun _ => rfl
    clients := (Dict.forall_put fun clientOrderId orderId known => ?_).mpr ?_
    exchanges := fun exchangeOrderId orderId found missing => ?_
    unused := fun id member => indexed.unused id (submitted_tail _ rest id member)
    distinct := distinct_tail indexed.distinct }
  · refine Dict.get_put_eq_none.trans (Iff.trans ?_ Dict.get_put_eq_none.symm)
    exact and_congr_right fun _ => indexed.keys orderId
  · have inside := indexed.numbered orderId number found
    show number < (session.created ++ [clientIdAt clientMillis]).length
    omega
  · show session.created.length < (session.created ++ [clientIdAt clientMillis]).length
    omega
  · obtain ⟨rfl, rfl⟩ | ⟨-, before⟩ := Dict.get_put_eq_some.mp found
    · obtain ⟨rfl, -⟩ | ⟨-, old⟩ := Dict.get_put_eq_some.mp again
      · rfl
      · exact absurd (indexed.numbered _ _ old) (Nat.lt_irrefl _)
    · obtain ⟨rfl, rfl⟩ | ⟨-, old⟩ := Dict.get_put_eq_some.mp again
      · exact absurd (indexed.numbered _ _ before) (Nat.lt_irrefl _)
      · exact indexed.injective orderId other number before old
  · exact List.mem_append_left _ (indexed.clients clientOrderId orderId known)
  · exact List.mem_append_right _ List.mem_cons_self
  · have gone := (Dict.get_put_eq_none.mp missing).2
    exact indexed.exchanges exchangeOrderId orderId found gone

variable {exchangeOrderId : String}

theorem submitOrder_missing (missing : session.manager.orders.get orderId = none)
    (exchangeOrderId : String) :
    session.submitOrder orderId exchangeOrderId = (some false, session) := by
  unfold Session.submitOrder
  rw [missing]

theorem submitOrder_free (free : session.held = false) (exchangeOrderId : String) :
    session.submitOrder orderId exchangeOrderId =
      (some (session.manager.submitOrder orderId exchangeOrderId).1,
        { session with manager := (session.manager.submitOrder orderId exchangeOrderId).2 }) := by
  have open_ : ¬ session.held = true := by simp [free]
  unfold Session.submitOrder OrderManager.submitOrder
  cases session.manager.orders.get orderId with
  | none => rfl
  | some order =>
    dsimp only
    rw [if_neg open_]
    rfl

theorem submitOrder_found (found : session.manager.orders.get orderId = some order)
    (exchangeOrderId : String) :
    ∃ sent, (session.submitOrder orderId exchangeOrderId).2 =
        session.write orderId sent exchangeOrderId ∧
      sent.exchangeOrderId = some exchangeOrderId ∧
      (session.held = false → sent.state ≠ .created) := by
  unfold Session.submitOrder
  rw [found]
  cases held : session.held with
  | true => exact ⟨_, rfl, rfl, fun free => nomatch free⟩
  | false =>
    refine ⟨_, rfl, ?_⟩
    unfold Order.transition
    cases order.state <;> simp [validTransitions]

theorem submit_answer (free : session.held = false)
    (found : session.manager.orders.get orderId = some order) (exchangeOrderId : String) :
    (session.submitOrder orderId exchangeOrderId).1 = some false ↔ order.state ≠ .created := by
  unfold Session.submitOrder Order.transition
  rw [found, free]
  cases state : order.state <;> simp [state, validTransitions]

theorem submit_waits (held : session.held = true)
    (found : session.manager.orders.get orderId = some order) (exchangeOrderId : String) :
    (session.submitOrder orderId exchangeOrderId).1 = none := by
  unfold Session.submitOrder
  rw [found, held]
  rfl

theorem written_needs (indexed : Indexed session rest)
    (found : session.manager.orders.get orderId = some order) {sent : Order}
    (carried : sent.exchangeOrderId = some exchangeOrderId)
    (unused : session.manager.ordersByExchangeId.get exchangeOrderId = none)
    (exact_ : Exact (session.write orderId sent exchangeOrderId)) :
    order.exchangeOrderId = none := by
  cases carries : order.exchangeOrderId with
  | none => rfl
  | some before =>
    obtain ⟨number, object⟩ := indexed.object found
    have answered := (indexed.exact_.byExchange before number).mpr
      ⟨orderId, order, object, found, carries⟩
    obtain ⟨known, there, some_, object_⟩ := (keyOf_bind _ _ _ _).mp answered
    have differs : before ≠ exchangeOrderId := by
      rintro rfl
      cases unused.symm.trans there
    have still : (session.write orderId sent exchangeOrderId).byExchangeId before = some number :=
      (keyOf_bind _ _ _ _).mpr
        ⟨known, Dict.get_put_eq_some.mpr (.inr ⟨differs, there⟩), some_, object_⟩
    obtain ⟨known_, kept, object_, has, carries_⟩ := (exact_.byExchange before number).mp still
    cases indexed.injective known_ orderId number object_ object
    obtain ⟨-, rfl⟩ | ⟨other, -⟩ := Dict.get_put_eq_some.mp has
    · exact absurd (Option.some.inj (carries_.symm.trans carried)) differs
    · exact absurd rfl other

/-- After an order without an exchange order id is written with one that no order has, each is found
by the one it has. -/
theorem written_byExchange (indexed : Indexed session rest)
    (found : session.manager.orders.get orderId = some order)
    (noId : order.exchangeOrderId = none) {sent : Order}
    (carried : sent.exchangeOrderId = some exchangeOrderId)
    (unused : session.manager.ordersByExchangeId.get exchangeOrderId = none) (other : String)
    (number : Nat) :
    (session.write orderId sent exchangeOrderId).byExchangeId other = some number ↔
      (session.write orderId sent exchangeOrderId).Carries number other := by
  have before := (keyOf_bind _ _ _ _).symm.trans (indexed.exact_.byExchange other number)
  refine (keyOf_bind _ _ _ _).trans ?_
  constructor
  · rintro ⟨known, has, some_, answered⟩
    obtain ⟨rfl, rfl⟩ | ⟨differs, there⟩ := Dict.get_put_eq_some.mp has
    · exact ⟨orderId, sent, answered, Dict.get_put_self _ _ _, carried⟩
    · obtain ⟨known_, kept, object, has_, carries⟩ := before.mp ⟨known, there, some_, answered⟩
      have otherId : known_ ≠ orderId := by
        rintro rfl
        cases found.symm.trans has_
        cases noId.symm.trans carries
      exact ⟨known_, kept, object, Dict.get_put_eq_some.mpr (.inr ⟨otherId, has_⟩), carries⟩
  · rintro ⟨known, kept, object, has, carries⟩
    obtain ⟨rfl, rfl⟩ | ⟨-, has_⟩ := Dict.get_put_eq_some.mp has
    · have some_ : known ≠ "" := by
        rintro rfl
        cases object.symm.trans indexed.named
      have same : other = exchangeOrderId := Option.some.inj (carries.symm.trans carried)
      exact ⟨known, Dict.get_put_eq_some.mpr (.inl ⟨same, rfl⟩), some_, object⟩
    · obtain ⟨known_, there, some_, answered⟩ := before.mpr ⟨known, kept, object, has_, carries⟩
      have differs : other ≠ exchangeOrderId := by
        rintro rfl
        cases unused.symm.trans there
      exact ⟨known_, Dict.get_put_eq_some.mpr (.inr ⟨differs, there⟩), some_, answered⟩

theorem submit_needs (indexed : Indexed session (.submit orderId exchangeOrderId :: rest))
    (good : Good session (.submit orderId exchangeOrderId)
      (session.submitOrder orderId exchangeOrderId).2) :
    InBounds session (.submit orderId exchangeOrderId) := by
  have unused : session.manager.ordersByExchangeId.get exchangeOrderId = none :=
    indexed.unused exchangeOrderId List.mem_cons_self
  intro order found
  obtain ⟨sent, written, carried, -⟩ := submitOrder_found found exchangeOrderId
  rw [written] at good
  cases held : session.held with
  | true =>
    rw [if_pos rfl]
    exact written_needs indexed found carried unused good.1
  | false =>
    rw [if_neg Bool.false_ne_true]
    by_contra old
    have refused := (submit_answer held found exchangeOrderId).mpr old
    have unchanged := good.2 orderId exchangeOrderId rfl refused
    have index : session.manager.ordersByExchangeId.put exchangeOrderId orderId =
        session.manager.ordersByExchangeId := congrArg OrderManager.ordersByExchangeId unchanged
    have there := Dict.get_put_self session.manager.ordersByExchangeId exchangeOrderId orderId
    rw [index] at there
    cases unused.symm.trans there

theorem submit_indexed
    (indexed : Indexed session (.submit orderId exchangeOrderId :: rest))
    (met : InBounds session (.submit orderId exchangeOrderId)) :
    Indexed (session.submitOrder orderId exchangeOrderId).2 rest := by
  have distinct : exchangeOrderId ∉ submitted rest ∧ (submitted rest).Nodup :=
    List.nodup_cons.mp indexed.distinct
  have unused : session.manager.ordersByExchangeId.get exchangeOrderId = none :=
    indexed.unused exchangeOrderId List.mem_cons_self
  cases found : session.manager.orders.get orderId with
  | none =>
    rw [submitOrder_missing found]
    exact indexed_same indexed
  | some order =>
    have noId : order.exchangeOrderId = none := by
      have needs := met order found
      cases held : session.held with
      | true => exact (if_pos held).mp needs
      | false =>
        have new : order.state = .created := by simpa [held] using needs
        exact indexed.fresh held orderId order found new
    obtain ⟨sent, written, carried, notNew⟩ := submitOrder_found found exchangeOrderId
    rw [written]
    have there : ∀ other, (session.manager.orders.put orderId sent).get other = none ↔
        session.manager.orders.get other = none := fun _ => Dict.get_replace_eq_none found
    refine { indexed_same indexed with
      exact_ := ⟨indexed.exact_.byClient, written_byExchange indexed found noId carried unused⟩
      keys := fun other => (indexed.keys other).trans (there other).symm
      fresh := fun free => (Dict.forall_put (indexed.fresh free)).mpr ?_
      exchanges := (Dict.forall_put fun key other known missing => ?_).mpr ?_
      unused := fun key member => ?_ }
    · exact fun isNew => absurd isNew (notNew free)
    · exact indexed.exchanges key other known ((there other).mp missing)
    · intro missing
      cases found.symm.trans ((there orderId).mp missing)
    · have later := indexed.unused key (submitted_tail _ rest key member)
      refine Dict.get_put_eq_none.mpr ⟨?_, later⟩
      rintro rfl
      exact distinct.1 member

theorem indexed_step (session : Session) (request : Request) (rest : List Request)
    (indexed : Indexed session (request :: rest)) (met : InBounds session request) :
    ∃ next, step session request = some next ∧ Indexed next rest := by
  cases request with
  | create orderMillis token clientMillis quantity =>
    exact ⟨_, rfl, create_indexed indexed met rfl⟩
  | submit orderId exchangeOrderId => exact ⟨_, rfl, submit_indexed indexed met⟩
  | acknowledge orderId =>
    exact ⟨_, rfl, indexed_locking indexed (keeps_transition .acknowledged none) orderId⟩
  | fill orderId price quantity commission commissionAsset tradeId =>
    exact ⟨_, rfl, indexed_addFill indexed orderId _⟩
  | cancel orderId reason => exact ⟨_, rfl, indexed_locking indexed (keeps_cancel reason) orderId⟩
  | reject orderId reason =>
    exact ⟨_, rfl, indexed_locking indexed (keeps_transition .rejected (some reason)) orderId⟩

theorem good_iff (session : Session) (request : Request) (rest : List Request)
    (indexed : Indexed session (request :: rest)) :
    (∃ next, step session request = some next ∧ Good session request next) ↔
      InBounds session request := by
  constructor
  · rintro ⟨next, taken, good⟩
    cases request with
    | create orderMillis token clientMillis quantity => exact create_needs indexed taken good.1
    | submit orderId exchangeOrderId =>
      cases taken
      exact submit_needs indexed good
    | acknowledge _ | fill _ _ _ _ _ _ | cancel _ _ | reject _ _ => trivial
  · intro met
    obtain ⟨next, taken, kept⟩ := indexed_step session request rest indexed met
    refine ⟨next, taken, kept.exact_, fun orderId exchangeOrderId same refused => ?_⟩
    cases same
    cases taken
    cases found : session.manager.orders.get orderId with
    | none => rw [submitOrder_missing found]
    | some order =>
      cases held : session.held with
      | true => cases (submit_waits held found exchangeOrderId).symm.trans refused
      | false =>
        have new : order.state = .created := by simpa [held] using met order found
        exact absurd new ((submit_answer held found exchangeOrderId).mp refused)

theorem indexed_new {requests : List Request} (distinct : (submitted requests).Nodup) :
    Indexed .new requests := by
  have nothing : ∀ (number : Nat), ([] : List String)[number]? = none := fun _ => rfl
  refine ⟨⟨fun number _ found => ?_, fun exchangeOrderId number => ?_⟩,
    fun _ => ⟨fun _ => rfl, fun _ => rfl⟩, rfl,
    fun _ _ found => (nomatch found), fun _ _ _ found => (nomatch found),
    fun _ _ _ found => (nomatch found), fun _ _ found => (nomatch found),
    fun _ _ found => (nomatch found), fun _ _ => rfl, distinct⟩
  · cases (nothing number).symm.trans found
  · constructor
    · intro answered
      obtain ⟨_, there, -⟩ := (keyOf_bind _ _ _ _).mp answered
      cases there
    · rintro ⟨_, _, object, -⟩
      cases object

end Requests

/-- Along the requests to a new manager that submit distinct exchange order ids, the lookups are
exact and refused submissions change nothing precisely as long as no id is drawn twice and only new
orders are submitted. -/
theorem lookups_exact_iff (requests : List Request) (distinct : (submitted requests).Nodup) :
    Performs step Good .new requests ↔ Offered step InBounds .new requests := by
  refine @performs_iff _ _ step Indexed Good InBounds good_iff ?_ _ _ (indexed_new distinct)
  intro session request rest next indexed taken good
  have met := (good_iff session request rest indexed).mp ⟨next, taken, good⟩
  obtain ⟨other, again, kept⟩ := indexed_step session request rest indexed met
  cases taken.symm.trans again
  exact kept

/-- Two orders, in different milliseconds, that are submitted: the second one when a fill of the
first holds the lock. -/
def twoOrders : List Request :=
  [.create 1 "0a0b0c0d" 1 2, .create 2 "0a0b0c0d" 2 3, .submit "ORD_1_0a0b0c0d" "X1",
    .acknowledge "ORD_1_0a0b0c0d", .fill "ORD_1_0a0b0c0d" 50000 1 0 "USDT" none,
    .submit "ORD_2_0a0b0c0d" "X2"]

/-- Orders of different milliseconds are found by all their ids. -/
theorem lookups_exact_twoOrders : Performs step Good .new twoOrders :=
  (lookups_exact_iff twoOrders (by decide)).mpr (by decide +kernel)

/-- Of two orders of one millisecond the first is not found by its client order id; and the second
submission of one order is refused, but has changed the index. -/
theorem lookups_of_one_millisecond :
    ¬ Performs step Good .new [.create 1 "0a0b0c0d" 1 2, .create 1 "ffffffff" 1 3] ∧
      ¬ Performs step Good .new
        [.create 1 "0a0b0c0d" 1 2, .submit "ORD_1_0a0b0c0d" "X1",
          .submit "ORD_1_0a0b0c0d" "X2"] := by
  constructor
  · rintro ⟨_, ⟨⟩, -, _, ⟨⟩, good, -⟩
    have answered := good.1.byClient 0 "CLI_1" (by decide +kernel)
    revert answered
    decide +kernel
  · rintro ⟨_, ⟨⟩, -, _, ⟨⟩, -, _, ⟨⟩, good, -⟩
    have same := good.2 _ _ rfl (by decide +kernel)
    have index := congrArg (fun manager => manager.ordersByExchangeId.get "X2") same
    revert index
    decide +kernel

end OrderLookup

end TradingBot.Execution
