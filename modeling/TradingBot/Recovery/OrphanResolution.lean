import TradingBot.Recovery.OrphanTradeResolver

/-!
# Orphan resolution

The other half of `OrphanTradeResolver`: the orphaned orders among the stored discrepancies are
cancelled on the exchange. The cancels of one call run concurrently, and what they write does not
depend on the order in which they end. The times of resolutions and their average are left out.
-/

namespace TradingBot.Recovery

/-- A stored `Discrepancy`, with the fields that a resolution sets. -/
structure Stored where
  discrepancy : Discrepancy
  resolved : Bool := false
  resolutionAction : Option String := none
  deriving DecidableEq, Repr

/-- What comes of a request to cancel. -/
inductive CancelResponse where
  /-- A response with a status. -/
  | status (code : Nat)
  /-- The request raises. -/
  | raises
  deriving DecidableEq, Repr

/-- `OrphanTradeResolver` with its discrepancies as they are stored, and the counts of
`_resolution_stats`. -/
structure ResolverState where
  resolver : OrphanTradeResolver
  discrepancies : List Stored
  totalResolved : Nat
  failedResolutions : Nat

/-- What `resolve_orphan_order` does with a discrepancy: what it leaves there, what it returns, and
whether it counts a failure. -/
structure Resolution where
  stored : Stored
  success : Bool
  failed : Bool

/-- `_cancel_order`; the status 400 can mean that the order is cancelled already. -/
def cancelOrder (started : Bool) (response : CancelResponse) : Except String Bool :=
  if started then
    match response with
    | .status code => .ok (code ∈ [200, 400])
    | .raises => .ok false
  else .error "Resolver not started"

def resolveOrphanOrder (started : Bool) (stored : Stored) (response : CancelResponse) :
    Resolution :=
  if stored.discrepancy.discrepancyType ≠ .missingLocal then ⟨stored, false, false⟩
  else
    match stored.discrepancy.exchangeOrder with
    | none => ⟨stored, false, false⟩
    | some _ =>
      match cancelOrder started response with
      | .ok true =>
        ⟨{ stored with resolved := true, resolutionAction := some "cancelled" }, true, false⟩
      | .ok false =>
        ⟨{ stored with resolved := false, resolutionAction := some "failed" }, false, true⟩
      | .error _ => ⟨stored, false, true⟩

namespace ResolverState

/-- `__init__` and `start`. -/
def new : ResolverState := ⟨.new, [], 0, 0⟩

def registerLocalOrder (state : ResolverState) (order : LocalOrder) : ResolverState :=
  { state with resolver := state.resolver.registerLocalOrder order }

def removeLocalOrder (state : ResolverState) (orderId : String) : ResolverState :=
  { state with resolver := state.resolver.removeLocalOrder orderId }

/-- `reconcile`, unless it raises; what it finds is stored as unresolved. -/
def reconcile (state : ResolverState) (exchange : Exchange) (symbols : Option (List String)) :
    Option ResolverState :=
  match state.resolver.reconcile exchange symbols with
  | .ok (found, resolver) => some
      { state with
        resolver
        discrepancies := state.discrepancies ++ found.map fun discrepancy => { discrepancy } }
  | .error _ => none

/-- What a call of `resolve_all_orphans` does with the discrepancy at a position: only an orphan
that is not resolved is tried. -/
def resolve (started : Bool) (responses : Nat → CancelResponse) (task : Stored × Nat) :
    Resolution :=
  if task.1.discrepancy.discrepancyType = .missingLocal ∧ task.1.resolved = false then
    resolveOrphanOrder started task.1 (responses task.2)
  else ⟨task.1, false, false⟩

/-- `resolve_all_orphans` without an argument, with what comes of the request to cancel each stored
order: the count of resolved orphans and the state. -/
def resolveAllOrphans (state : ResolverState) (responses : Nat → CancelResponse) :
    Nat × ResolverState :=
  let resolutions := state.discrepancies.zipIdx.map (resolve state.resolver.started responses)
  let resolvedCount := resolutions.countP Resolution.success
  (resolvedCount,
    { state with
      discrepancies := resolutions.map Resolution.stored
      totalResolved := state.totalResolved + resolvedCount
      failedResolutions := state.failedResolutions + resolutions.countP Resolution.failed })

def getPendingDiscrepancies (state : ResolverState) : List Stored :=
  state.discrepancies.filter fun stored => stored.resolved = false

end ResolverState

end TradingBot.Recovery
