import TradingBot.Foundation.Run
import TradingBot.Oms.OcoManager

/-!
# The capacity of the one-cancels-other manager

A creation at the limit of groups first cleans up what is older than its time to live and in a
terminal state. No operation ever puts a group into such a state: the reports leave it filled or
cancelled on one leg. A finished group therefore keeps its place, and a creation succeeds exactly if
there was room before.
-/

open Run

namespace TradingBot.Oco

/-! ## Operations of a manager -/

/-- One operation on a manager. -/
inductive ManagerCall where
  /-- `create_oco_group`. -/
  | create (legA legB : LegConfig) (token : String) (now : ℚ)
  | assign (groupId orderIdA orderIdB : String)
  /-- `handle_leg_fill`. -/
  | fill (orderId : String) (filledQty remainingQty : ℚ) (status : String)
  /-- `handle_leg_cancel`. -/
  | cancel (orderId : String)
  | cleanupAll

/-- A manager after an operation. -/
def OCOManager.step (manager : OCOManager) : ManagerCall → Option OCOManager
  | .create legA legB token now => some (manager.createOcoGroup legA legB token now).2
  | .assign groupId orderIdA orderIdB =>
    some (manager.assignOrderIds groupId orderIdA orderIdB).2
  | .fill orderId filledQty remainingQty status =>
    some (manager.handleLegFill orderId filledQty remainingQty status).2
  | .cancel orderId => some (manager.handleLegCancel orderId).2
  | .cleanupAll => some manager.cleanupAll

/-- What an operation does to the groups: nothing, it removes all, or it puts one that is new, or
that had been there and got identifiers, a fill or a cancellation. -/
inductive GroupsAfter (manager next : OCOManager) : ManagerCall → Prop
  /-- The groups are as before. -/
  | same {call : ManagerCall} (groups : next.groups = manager.groups) :
      GroupsAfter manager next call
  /-- All groups are gone. -/
  | cleared (groups : next.groups = .empty) : GroupsAfter manager next .cleanupAll
  /-- A group is new. -/
  | created {legA legB : LegConfig} {token : String} {now : ℚ} (group : OCOGroup)
      (groups : next.groups = manager.groups.put ("OCO_" ++ token) group)
      (active : group.state = .active) (fresh : ∀ legId, (group.leg legId).status = "NEW") :
      GroupsAfter manager next (.create legA legB token now)
  /-- A group has got its order identifiers. -/
  | assigned {groupId orderIdA orderIdB : String} (group : OCOGroup)
      (there : manager.groups.get groupId = some group)
      (groups : next.groups = manager.groups.put groupId (group.assign orderIdA orderIdB)) :
      GroupsAfter manager next (.assign groupId orderIdA orderIdB)
  /-- A leg of a group was reported filled. -/
  | filled {orderId status : String} {filledQty remainingQty : ℚ} (groupId : String)
      (group : OCOGroup) (legId : LegId)
      (found : manager.findOrder orderId = some (groupId, group, legId))
      (groups : next.groups = manager.groups.put groupId
        (group.fill legId filledQty remainingQty status)) :
      GroupsAfter manager next (.fill orderId filledQty remainingQty status)
  /-- A leg of a group was reported cancelled. -/
  | cancelled {orderId : String} (groupId : String) (group : OCOGroup) (legId : LegId)
      (found : manager.findOrder orderId = some (groupId, group, legId))
      (groups : next.groups = manager.groups.put groupId (group.cancel legId)) :
      GroupsAfter manager next (.cancel orderId)

section Operations

variable {manager next : OCOManager} {call : ManagerCall}

/-- What a call does to the groups. -/
theorem step_cases (lasting : manager.Lasting) (taken : manager.step call = some next) :
    GroupsAfter manager next call := by
  cases call with
  | create legA legB token now =>
    cases taken
    rcases OCOManager.create_cases lasting legA legB token now with
      same | ⟨group, registered, active, fresh⟩
    · exact .same (congrArg OCOManager.groups same)
    · exact .created group (congrArg OCOManager.groups registered) active fresh
  | assign groupId orderIdA orderIdB =>
    cases taken
    cases there : manager.groups.get groupId with
    | none => exact .same (congrArg OCOManager.groups (OCOManager.assignOrderIds_missing there _ _))
    | some group => exact .assigned group there (OCOManager.assignOrderIds_found there _ _)
  | fill orderId filledQty remainingQty status =>
    cases taken
    cases found : manager.findOrder orderId with
    | none =>
      exact .same (congrArg OCOManager.groups (OCOManager.handleLegFill_missing found _ _ _))
    | some order =>
      exact .filled order.1 order.2.1 order.2.2 found (OCOManager.handleLegFill_found found _ _ _)
  | cancel orderId =>
    cases taken
    cases found : manager.findOrder orderId with
    | none => exact .same (congrArg OCOManager.groups (OCOManager.handleLegCancel_missing found))
    | some order =>
      exact .cancelled order.1 order.2.1 order.2.2 found (OCOManager.handleLegCancel_found found)
  | cleanupAll =>
    cases taken
    exact .cleared rfl

theorem groups_put {holds : OCOGroup → Prop} {groupId : String} {group : OCOGroup}
    (before : ∀ other held, manager.groups.get other = some held → holds held)
    (groups : next.groups = manager.groups.put groupId group) (here : holds group)
    (other : String) (held : OCOGroup) (there : next.groups.get other = some held) :
    holds held := by
  rw [groups] at there
  exact (Dict.forall_put before).mpr here other held there

theorem lasting_put {groupId : String} {group : OCOGroup} (lasting : manager.Lasting)
    (groups : next.groups = manager.groups.put groupId group)
    (lasts : group.state.terminal = false) : next.Lasting :=
  @groups_put manager next (fun group => group.state.terminal = false) groupId group lasting groups
    lasts

theorem terminal_fill (group : OCOGroup) (legId : LegId) (filledQty remainingQty : ℚ)
    (status : String) :
    (group.fill legId filledQty remainingQty status).state.terminal = false := by
  have state : (group.fill legId filledQty remainingQty status).state = .legFilled legId ∨
      (group.fill legId filledQty remainingQty status).state = .partialFill legId := by
    unfold OCOGroup.fill
    dsimp only
    split
    · exact .inl rfl
    · exact .inr rfl
  rcases state with filled | filled
  · rw [filled]
    cases legId <;> rfl
  · rw [filled]
    cases legId <;> rfl

/-- Every call keeps the groups lasting. -/
theorem lasting_step (lasting : manager.Lasting) (taken : manager.step call = some next) :
    next.Lasting := by
  cases step_cases lasting taken with
  | same groups =>
    unfold OCOManager.Lasting
    rw [groups]
    exact lasting
  | cleared groups =>
    unfold OCOManager.Lasting
    rw [groups]
    exact fun _ _ found => by cases found
  | created group groups active fresh =>
    have lasts : group.state.terminal = false := by
      rw [active]
      rfl
    exact lasting_put lasting groups lasts
  | assigned group there groups =>
    exact lasting_put lasting groups (lasting _ group there)
  | filled groupId group legId found groups =>
    exact lasting_put lasting groups (terminal_fill group legId _ _ _)
  | cancelled groupId group legId found groups =>
    have lasts : (group.cancel legId).state.terminal = false := by cases legId <;> rfl
    exact lasting_put lasting groups lasts

end Operations

theorem lasting_new (maxGroups : Int) (ttlSeconds : ℚ) :
    (OCOManager.new maxGroups ttlSeconds).Lasting :=
  fun _ _ found => by cases found

/-! ## Whether a creation succeeds -/

/-- Two configurations of the legs of one group. -/
structure ValidLegs where
  legA : LegConfig
  legB : LegConfig
  sameSymbol : legA.symbol = legB.symbol
  oppositeSides : legA.side ≠ legB.side

/-- A manager after `create_oco_group`. -/
def OCOManager.afterCreate (manager : OCOManager) (legs : ValidLegs) (token : String) (now : ℚ) :
    OCOManager :=
  (manager.createOcoGroup legs.legA legs.legB token now).2

/-- Both legs of a group are finished: one is fully filled and the other cancelled, or both are
cancelled. -/
def OCOGroup.Finished (group : OCOGroup) : Prop :=
  (group.legA.isFullyFilled = true ∧ group.legB.isCancelled = true) ∨
    (group.legB.isFullyFilled = true ∧ group.legA.isCancelled = true) ∨
    (group.legA.isCancelled = true ∧ group.legB.isCancelled = true)

/-- Every registered group is finished and older than the time to live. -/
def Idle (manager : OCOManager) (now : ℚ) : Prop :=
  ∀ group ∈ manager.groups.values,
    group.Finished ∧ manager.ttlSeconds < now - group.createdAt

instance (manager : OCOManager) (now : ℚ) : Decidable (Idle manager now) :=
  inferInstanceAs (Decidable (∀ group ∈ manager.groups.values, (_ ∨ _ ∨ _) ∧ _ < _))

/-- A creation succeeds, and no index keeps an entry of a group that its cleanup removed. -/
structure Recovered (manager : OCOManager) (legs : ValidLegs) (token : String) (now : ℚ) :
    Prop where
  created : (manager.createOcoGroup legs.legA legs.legB token now).1 = .ok ("OCO_" ++ token)
  removed : ∀ groupId group, manager.groups.get groupId = some group →
    (manager.afterCreate legs token now).groups.get groupId = none →
      (∀ orderId, (manager.afterCreate legs token now).orderIndex.get orderId ≠ some groupId) ∧
      ∀ symbol, groupId ∉ (manager.afterCreate legs token now).groupsOf symbol

theorem recovered_iff {manager : OCOManager} (lasting : manager.Lasting) (legs : ValidLegs)
    (token : String) (now : ℚ) :
    Recovered manager legs token now ↔ manager.groups.size < manager.maxGroups := by
  have cleaned : (if manager.maxGroups ≤ manager.groups.size then
      manager.cleanupExpiredGroups now else manager) = manager := by
    rw [OCOManager.cleanup_eq lasting, ite_self]
  constructor
  · intro recovered
    by_contra full
    have refused : (manager.createOcoGroup legs.legA legs.legB token now).1 =
        .error (.maximumReached manager.maxGroups) := by
      unfold OCOManager.createOcoGroup
      simp only [cleaned, if_pos (not_lt.mp full)]
    cases refused.symm.trans recovered.created
  · intro room
    refine ⟨?_, ?_⟩
    · unfold OCOManager.createOcoGroup
      simp only [cleaned, if_neg (not_le.mpr room), dif_pos legs.sameSymbol,
        dif_pos legs.oppositeSides]
    · intro groupId group there gone
      exfalso
      rcases OCOManager.create_cases lasting legs.legA legs.legB token now with
        same | ⟨fresh, registered, _⟩
      · unfold OCOManager.afterCreate at gone
        rw [same, there] at gone
        cases gone
      · have groups := congrArg OCOManager.groups registered
        unfold OCOManager.afterCreate at gone
        rw [groups] at gone
        simp only [OCOManager.register, Dict.get_put, there] at gone
        split at gone <;> cases gone

/-- In every state of every run a creation recovers the capacity of the manager if and only if fewer
groups than the maximum are registered, finished and old or not. -/
theorem capacity_recovered_iff (maxGroups : Int) (ttlSeconds : ℚ) (calls : List ManagerCall) :
    Always OCOManager.step (fun manager => ∀ (legs : ValidLegs) (token : String) (now : ℚ),
      Recovered manager legs token now ↔ manager.groups.size < manager.maxGroups)
      (.new maxGroups ttlSeconds) calls := by
  have lasts : Always OCOManager.step OCOManager.Lasting (.new maxGroups ttlSeconds) calls :=
    always_of_preserved (fun _ _ _ lasting taken => lasting_step lasting taken)
      (lasting_new maxGroups ttlSeconds) calls
  exact lasts.imp fun manager lasting => recovered_iff lasting

/-- The legs of a group of a tenth of a bitcoin. -/
def tenthLegs : ValidLegs where
  legA := { symbol := "BTCUSDT", side := "BUY", quantity := 1 / 10 }
  legB := { symbol := "BTCUSDT", side := "SELL", quantity := 1 / 10 }
  sameSymbol := rfl
  oppositeSides := by decide

/-- A group whose first leg is filled and whose second leg is cancelled. -/
def finishedGroup : List ManagerCall :=
  [.create tenthLegs.legA tenthLegs.legB "1" 0, .assign "OCO_1" "A" "B",
    .fill "A" (1 / 10) 0 "FILLED", .cancel "B"]

/-- A finished and old group blocks the only place of a manager for ever. -/
theorem capacity_not_recovered :
    ¬∀ (maxGroups : Int) (ttlSeconds : ℚ) (calls : List ManagerCall), 1 ≤ maxGroups →
      Always OCOManager.step (fun manager => ∀ (legs : ValidLegs) (token : String) (now : ℚ),
        Idle manager now → Recovered manager legs token now) (.new maxGroups ttlSeconds) calls := by
  intro claim
  refine @not_always_of_view _ _ OCOManager.step _ (fun manager => (decide (Idle manager 1000),
      (manager.createOcoGroup tenthLegs.legA tenthLegs.legB "2" 1000).1.toOption)) (true, none) _
    (.new 1 60) finishedGroup (by decide +kernel) (fun final both recovered => ?_)
    (claim 1 60 finishedGroup (le_refl 1))
  have idle : decide (Idle final 1000) = true := congrArg Prod.fst both
  have created := (recovered tenthLegs "2" 1000 (of_decide_eq_true idle)).created
  have refused := congrArg Prod.snd both
  dsimp only at refused
  rw [created] at refused
  cases refused

end TradingBot.Oco
