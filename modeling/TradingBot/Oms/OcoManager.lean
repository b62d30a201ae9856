import Mathlib.Algebra.Order.Ring.Rat
import TradingBot.Foundation.Dict

/-!
# The one-cancels-other manager

`oco_manager.py`: groups of two orders of which one is cancelled when the other fills. Reports
find their group by order identifier and write the leg and the state of the group as they come,
whatever the group has recorded before.
-/

namespace TradingBot.Oco

/-- `OCOState`: state machine for OCO order groups. -/
inductive OCOState where
  | pending
  | active
  | legAFilled
  | legBFilled
  | legACancelled
  | legBCancelled
  | fullyFilled
  | fullyCancelled
  | partialFillA
  | partialFillB
  | error
  deriving DecidableEq, Repr

/-- The two legs of a group. -/
inductive LegId where
  | a
  | b
  deriving DecidableEq, Repr

/-- The counterpart of a leg. -/
def LegId.other : LegId → LegId
  | .a => .b
  | .b => .a

/-- The state of a group whose leg is fully filled. -/
def OCOState.legFilled : LegId → OCOState
  | .a => .legAFilled
  | .b => .legBFilled

/-- The state of a group whose leg is cancelled. -/
def OCOState.legCancelled : LegId → OCOState
  | .a => .legACancelled
  | .b => .legBCancelled

/-- The state of a group whose leg is partially filled. -/
def OCOState.partialFill : LegId → OCOState
  | .a => .partialFillA
  | .b => .partialFillB

/-- The states in which a cleanup removes a group. -/
def OCOState.terminal : OCOState → Bool
  | .fullyFilled => true
  | .fullyCancelled => true
  | .error => true
  | _ => false

/-- `is_active`: the states in which a group counts in the total exposure. -/
def OCOState.isActive : OCOState → Bool
  | .active => true
  | .legAFilled => true
  | .legBFilled => true
  | .partialFillA => true
  | .partialFillB => true
  | _ => false

/-- The configuration of a leg, with its defaults. -/
structure LegConfig where
  symbol : String
  /-- BUY or SELL. -/
  side : String
  /-- LIMIT, STOP_LOSS, etc. -/
  orderType : String := "LIMIT"
  price : ℚ := 0
  stopPrice : Option ℚ := none
  quantity : ℚ

/-- `OCOLeg`: one leg of an OCO order pair; its identifier is its place in the group. -/
structure OCOLeg extends LegConfig where
  orderId : Option String
  filledQuantity : ℚ
  remainingQuantity : ℚ
  /-- NEW, FILLED, CANCELLED, REJECTED, EXPIRED, and PENDING_CANCEL. -/
  status : String

namespace OCOLeg

/-- A leg as `create_oco_group` makes it. -/
def new (config : LegConfig) : OCOLeg where
  toLegConfig := config
  orderId := none
  filledQuantity := 0
  remainingQuantity := config.quantity
  status := "NEW"

def isFullyFilled (leg : OCOLeg) : Bool := leg.remainingQuantity ≤ 0 ∧ leg.status = "FILLED"

def isCancelled (leg : OCOLeg) : Bool := leg.status = "CANCELLED" ∨ leg.status = "EXPIRED"

/-- A leg with its order identifier. -/
def assign (leg : OCOLeg) (orderId : String) : OCOLeg := { leg with orderId := some orderId }

/-- A leg with the quantities and the status of a report. -/
def report (leg : OCOLeg) (filledQty remainingQty : ℚ) (status : String) : OCOLeg :=
  { leg with filledQuantity := filledQty, remainingQuantity := remainingQty, status := status }

/-- A leg whose cancellation is confirmed. -/
def cancel (leg : OCOLeg) : OCOLeg := { leg with status := "CANCELLED", remainingQuantity := 0 }

/-- `_cancel_counterpart_leg`: the leg as the counterpart of a filled one. -/
def cancelCounterpart (leg : OCOLeg) : OCOLeg :=
  if leg.isCancelled ∨ leg.isFullyFilled then leg else { leg with status := "PENDING_CANCEL" }

end OCOLeg

/-- `OCOGroup`: an OCO order group with two legs, validated as `__post_init__` does. -/
structure OCOGroup where
  legA : OCOLeg
  legB : OCOLeg
  state : OCOState
  createdAt : ℚ
  sameSymbol : legA.symbol = legB.symbol
  oppositeSides : legA.side ≠ legB.side

namespace OCOGroup

/-- A leg of a group. -/
def leg (group : OCOGroup) : LegId → OCOLeg
  | .a => group.legA
  | .b => group.legB

/-- A group with a leg that has the same configuration as before. -/
def setLeg (group : OCOGroup) (legId : LegId) (leg : OCOLeg)
    (same : leg.toLegConfig = (group.leg legId).toLegConfig) : OCOGroup :=
  match legId with
  | .a => { group with
      legA := leg
      sameSymbol := (congrArg LegConfig.symbol same).trans group.sameSymbol
      oppositeSides := fun equal =>
        group.oppositeSides ((congrArg LegConfig.side same).symm.trans equal) }
  | .b => { group with
      legB := leg
      sameSymbol := group.sameSymbol.trans (congrArg LegConfig.symbol same).symm
      oppositeSides := fun equal =>
        group.oppositeSides (equal.trans (congrArg LegConfig.side same)) }

theorem config_cancelCounterpart (leg : OCOLeg) :
    leg.cancelCounterpart.toLegConfig = leg.toLegConfig := by
  unfold OCOLeg.cancelCounterpart
  split <;> rfl

/-- A group after the fill report of a leg: a full fill cancels the counterpart. -/
def fill (group : OCOGroup) (legId : LegId) (filledQty remainingQty : ℚ) (status : String) :
    OCOGroup :=
  let reported := group.setLeg legId ((group.leg legId).report filledQty remainingQty status) rfl
  if remainingQty ≤ 0 then
    { reported.setLeg legId.other (reported.leg legId.other).cancelCounterpart
        (config_cancelCounterpart _) with state := .legFilled legId }
  else { reported with state := .partialFill legId }

/-- A group after the cancellation report of a leg. -/
def cancel (group : OCOGroup) (legId : LegId) : OCOGroup :=
  { group.setLeg legId (group.leg legId).cancel rfl with state := .legCancelled legId }

/-- `get_risk_exposure`: the remaining risk exposure considering partial fills. -/
def riskExposure (group : OCOGroup) : ℚ :=
  if group.state = .fullyFilled then 0
  else if group.legA.isFullyFilled ∨ group.legB.isFullyFilled then 0
  else max group.legA.remainingQuantity group.legB.remainingQuantity

/-- A group with the order identifiers of its legs. -/
def assign (group : OCOGroup) (orderIdA orderIdB : String) : OCOGroup :=
  { group with legA := group.legA.assign orderIdA, legB := group.legB.assign orderIdB }

/-- Which leg of a group an order identifier is that of. -/
def findLeg (group : OCOGroup) (orderId : String) : Option LegId :=
  if group.legA.orderId = some orderId then some .a
  else if group.legB.orderId = some orderId then some .b
  else none

end OCOGroup

/-- Why `create_oco_group` fails. -/
inductive CreateError where
  | maximumReached (maxGroups : Int)
  | differentSymbols
  | sameSides

/-- `OCOManager`, without its queue of cancellations and its callbacks. -/
structure OCOManager where
  maxGroups : Int
  ttlSeconds : ℚ
  /-- Groups by identifier. -/
  groups : Dict String OCOGroup
  /-- Group identifiers by order identifier. -/
  orderIndex : Dict String String
  /-- Group identifiers by symbol. -/
  symbolIndex : Dict String (Finset String)

namespace OCOManager

/-- `__init__`. -/
def new (maxGroups : Int) (ttlSeconds : ℚ) : OCOManager where
  maxGroups := maxGroups
  ttlSeconds := ttlSeconds
  groups := .empty
  orderIndex := .empty
  symbolIndex := .empty

variable (manager : OCOManager)

/-- Whether a cleanup removes a group. -/
def expired (now : ℚ) (group : OCOGroup) : Bool :=
  manager.ttlSeconds < now - group.createdAt ∧ group.state.terminal

/-- An order index without the order of a leg, if it has one. -/
def unindex (orderIndex : Dict String String) (leg : OCOLeg) : Dict String String :=
  match leg.orderId with
  | none => orderIndex
  | some orderId => if orderId = "" then orderIndex else orderIndex.pop orderId

/-- The groups of a symbol; a symbol without any has the empty set. -/
def groupsOf (symbol : String) : Finset String := (manager.symbolIndex.get symbol).getD ∅

/-- A manager without a group and its entries in the indices. -/
def remove (groupId : String) (group : OCOGroup) : OCOManager :=
  { manager with
    groups := manager.groups.pop groupId
    orderIndex := unindex (unindex manager.orderIndex group.legA) group.legB
    symbolIndex := manager.symbolIndex.put group.legA.symbol
      ((manager.groupsOf group.legA.symbol).erase groupId) }

/-- `_cleanup_expired_groups`: remove completed groups from memory. -/
def cleanupExpiredGroups (now : ℚ) : OCOManager :=
  (manager.groups.entries.filter fun entry => manager.expired now entry.2).foldl
    (fun current entry => current.remove entry.1 entry.2) manager

/-- A manager with a group in its indices. -/
def register (groupId : String) (group : OCOGroup) : OCOManager :=
  { manager with
    groups := manager.groups.put groupId group
    symbolIndex := manager.symbolIndex.put group.legA.symbol
      (insert groupId (manager.groupsOf group.legA.symbol)) }

/-- `create_oco_group`: create a new OCO group from two leg configurations, at a time of the clock
and with the random part of its identifier. -/
def createOcoGroup (legA legB : LegConfig) (token : String) (now : ℚ) :
    Except CreateError String × OCOManager :=
  let groupId := "OCO_" ++ token
  let cleaned :=
    if manager.maxGroups ≤ manager.groups.size then manager.cleanupExpiredGroups now else manager
  if cleaned.maxGroups ≤ cleaned.groups.size then
    (.error (.maximumReached cleaned.maxGroups), cleaned)
  else if same : legA.symbol = legB.symbol then
    if opposite : legA.side ≠ legB.side then
      (.ok groupId, cleaned.register groupId {
        legA := .new legA
        legB := .new legB
        state := .active
        createdAt := now
        sameSymbol := same
        oppositeSides := opposite })
    else (.error .sameSides, cleaned)
  else (.error .differentSymbols, cleaned)

/-- `assign_order_ids`: assign exchange order identifiers to the legs of a group. -/
def assignOrderIds (groupId orderIdA orderIdB : String) : Bool × OCOManager :=
  match manager.groups.get groupId with
  | none => (false, manager)
  | some group =>
    (true, { manager with
      groups := manager.groups.put groupId (group.assign orderIdA orderIdB)
      orderIndex := (manager.orderIndex.put orderIdA groupId).put orderIdB groupId })

/-- The group and the leg of an order identifier. -/
def findOrder (orderId : String) : Option (String × OCOGroup × LegId) :=
  (manager.orderIndex.get orderId).bind fun groupId =>
    (manager.groups.get groupId).bind fun group =>
      (group.findLeg orderId).map fun legId => (groupId, group, legId)

/-- `handle_leg_fill`: handle the fill event of a leg; it returns the group. -/
def handleLegFill (orderId : String) (filledQty remainingQty : ℚ) (status : String) :
    Option String × OCOManager :=
  match manager.findOrder orderId with
  | none => (none, manager)
  | some (groupId, group, legId) =>
    (some groupId, { manager with
      groups := manager.groups.put groupId (group.fill legId filledQty remainingQty status) })

/-- `handle_leg_cancel`: handle the cancellation event of a leg; it returns the group. -/
def handleLegCancel (orderId : String) : Option String × OCOManager :=
  match manager.findOrder orderId with
  | none => (none, manager)
  | some (groupId, group, legId) =>
    (some groupId, { manager with groups := manager.groups.put groupId (group.cancel legId) })

/-- `get_active_groups_for_symbol`: the identifiers of the active groups of a symbol. -/
def activeGroupsForSymbol (symbol : String) : Finset String :=
  (manager.groupsOf symbol).filter fun groupId =>
    (manager.groups.get groupId).any fun group => group.state.isActive

/-- `get_total_risk_exposure`: the total risk exposure of the active groups, of one symbol or of
all. -/
def getTotalRiskExposure (symbol : Option String) : ℚ :=
  match symbol.filter (· ≠ "") with
  | some symbol => ∑ groupId ∈ manager.activeGroupsForSymbol symbol,
      ((manager.groups.get groupId).map OCOGroup.riskExposure).getD 0
  | none => ((manager.groups.values.filter fun group => group.state.isActive).map
      OCOGroup.riskExposure).sum

/-- `cleanup_all`: full cleanup of all groups. -/
def cleanupAll : OCOManager :=
  { manager with groups := .empty, orderIndex := .empty, symbolIndex := .empty }

variable {manager} {groupId orderId : String} {group : OCOGroup} {legId : LegId}

theorem assignOrderIds_found (there : manager.groups.get groupId = some group)
    (orderIdA orderIdB : String) :
    (manager.assignOrderIds groupId orderIdA orderIdB).2.groups =
      manager.groups.put groupId (group.assign orderIdA orderIdB) := by
  unfold assignOrderIds
  rw [there]

theorem assignOrderIds_missing (absent : manager.groups.get groupId = none)
    (orderIdA orderIdB : String) :
    (manager.assignOrderIds groupId orderIdA orderIdB).2 = manager := by
  unfold assignOrderIds
  rw [absent]

theorem handleLegFill_found (found : manager.findOrder orderId = some (groupId, group, legId))
    (filledQty remainingQty : ℚ) (status : String) :
    (manager.handleLegFill orderId filledQty remainingQty status).2.groups =
      manager.groups.put groupId (group.fill legId filledQty remainingQty status) := by
  unfold handleLegFill
  rw [found]

theorem handleLegFill_missing (absent : manager.findOrder orderId = none)
    (filledQty remainingQty : ℚ) (status : String) :
    (manager.handleLegFill orderId filledQty remainingQty status).2 = manager := by
  unfold handleLegFill
  rw [absent]

theorem handleLegCancel_found (found : manager.findOrder orderId = some (groupId, group, legId)) :
    (manager.handleLegCancel orderId).2.groups =
      manager.groups.put groupId (group.cancel legId) := by
  unfold handleLegCancel
  rw [found]

theorem handleLegCancel_missing (absent : manager.findOrder orderId = none) :
    (manager.handleLegCancel orderId).2 = manager := by
  unfold handleLegCancel
  rw [absent]

theorem get_of_findOrder (found : manager.findOrder orderId = some (groupId, group, legId)) :
    manager.groups.get groupId = some group := by
  obtain ⟨id, _, inner⟩ := Option.bind_eq_some_iff.mp found
  obtain ⟨held, there, last⟩ := Option.bind_eq_some_iff.mp inner
  obtain ⟨leg, _, same⟩ := Option.map_eq_some_iff.mp last
  cases same
  exact there

/-- No group is in a state in which a cleanup removes it. -/
def Lasting (manager : OCOManager) : Prop :=
  ∀ groupId group, manager.groups.get groupId = some group → group.state.terminal = false

theorem cleanup_eq (lasting : manager.Lasting) (now : ℚ) :
    manager.cleanupExpiredGroups now = manager := by
  have none : (manager.groups.entries.filter fun entry => manager.expired now entry.2) = [] := by
    apply List.filter_eq_nil_iff.mpr
    intro entry member expired
    have lasts := lasting entry.1 entry.2 (Dict.get_eq_some.mpr member)
    have terminal := (of_decide_eq_true expired).2
    exact Bool.false_ne_true (lasts.symm.trans terminal)
  unfold cleanupExpiredGroups
  rw [none]
  rfl

/-- A creation is refused or registers an active group. -/
theorem create_cases (lasting : manager.Lasting) (legA legB : LegConfig) (token : String)
    (now : ℚ) :
    (manager.createOcoGroup legA legB token now).2 = manager ∨
      ∃ group : OCOGroup, (manager.createOcoGroup legA legB token now).2 =
        manager.register ("OCO_" ++ token) group ∧
          group.state = .active ∧ ∀ legId, (group.leg legId).status = "NEW" := by
  have cleaned : (if manager.maxGroups ≤ manager.groups.size then
      manager.cleanupExpiredGroups now else manager) = manager := by
    rw [cleanup_eq lasting, ite_self]
  unfold createOcoGroup
  dsimp only
  rw [cleaned]
  split
  · exact .inl rfl
  · split
    · split
      · exact .inr ⟨_, rfl, rfl, fun legId => by cases legId <;> rfl⟩
      · exact .inl rfl
    · exact .inl rfl

end OCOManager

end TradingBot.Oco
