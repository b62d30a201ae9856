import Mathlib.Data.Rat.Floor
import TradingBot.Foundation.Dict

/-!
# Cross-venue reconciler

`CrossVenueReconciler`: the internal positions and balances of every venue against those of the
exchanges. Floats are rationals, and the times of records, results and alerts are left out. The
balances and the positions are reconciled by one loop over the external records; they differ in
the value that is compared, in the maximum it is compared with and in the alerts.
-/

namespace TradingBot.Venues

/-- `Venue`. -/
inductive Venue where
  | binance
  | coinbase
  | kraken
  | bybit
  | okx
  deriving DecidableEq, Repr

/-- The value of a venue. -/
def Venue.value : Venue → String
  | .binance => "binance"
  | .coinbase => "coinbase"
  | .kraken => "kraken"
  | .bybit => "bybit"
  | .okx => "okx"

/-- `ReconciliationStatus`. -/
inductive ReconciliationStatus where
  | matched
  | minorDrift
  | majorDrift
  | fatalDesync
  | missingData
  deriving DecidableEq, Repr

/-- `PositionRecord`. -/
structure PositionRecord where
  venue : Venue
  symbol : String
  quantity : ℚ
  avgEntryPrice : ℚ
  unrealizedPnl : ℚ

/-- `BalanceRecord`. -/
structure BalanceRecord where
  venue : Venue
  asset : String
  free : ℚ
  locked : ℚ
  total : ℚ

/-- `ReconciliationResult`. -/
structure ReconciliationResult where
  status : ReconciliationStatus
  venue : Venue
  assetOrSymbol : String
  internalValue : ℚ
  externalValue : ℚ
  driftAbsolute : ℚ
  driftPct : ℚ
  actionRequired : String

/-- `DriftAlert`, as it is created. -/
structure DriftAlert where
  alertId : Nat
  severity : String
  venue : Venue
  assetOrSymbol : String
  driftPct : ℚ
  internalValue : ℚ
  externalValue : ℚ

/-- `CrossVenueReconciler`. Records are kept by venue and by asset or symbol. -/
structure CrossVenueReconciler where
  internalPositions : Dict Venue (Dict String PositionRecord)
  internalBalances : Dict Venue (Dict String BalanceRecord)
  externalPositions : Dict Venue (Dict String PositionRecord)
  externalBalances : Dict Venue (Dict String BalanceRecord)
  driftThresholdPct : ℚ
  alerts : List DriftAlert
  alertCounter : Nat
  tradingHalted : Bool
  haltReason : Option String
  reconciliationCount : Nat
  driftsDetected : Nat

/-- Python's rounding of a number that is formatted: to the nearest, halves to even. -/
def roundHalfEven (value : ℚ) : Int :=
  if value - ⌊value⌋ < 1 / 2 then ⌊value⌋
  else if 1 / 2 < value - ⌊value⌋ then ⌊value⌋ + 1
  else if ⌊value⌋ % 2 = 0 then ⌊value⌋ else ⌊value⌋ + 1

/-- The format `.2f`. -/
def fixed2 (value : ℚ) : String :=
  let cents := (roundHalfEven (|value| * 100)).toNat
  let digits := toString (cents % 100)
  (if value < 0 then "-" else "") ++ toString (cents / 100) ++ "." ++
    (if cents % 100 < 10 then "0" ++ digits else digits)

/-- What differs between balances and positions of a reconciliation. -/
structure RecordKind (ρ : Type) where
  /-- The value of a record that is compared. -/
  value : ρ → ℚ
  /-- The size of a value, in the maximum that a drift is relative to. -/
  size : ℚ → ℚ
  /-- Whether a drift creates an alert. -/
  alerting : Bool
  /-- The action for a record without an internal one. -/
  missing : String

/-- Balances: the totals, as they are. -/
def balanceKind : RecordKind BalanceRecord where
  value := BalanceRecord.total
  size := id
  alerting := true
  missing := "Investigate missing internal balance record"

/-- Positions: the quantities, by their absolute values. -/
def positionKind : RecordKind PositionRecord where
  value := PositionRecord.quantity
  size := fun quantity => |quantity|
  alerting := false
  missing := "Investigate missing internal position record"

/-- A record put under a venue and a name, in a dictionary that the venue may not be in yet. -/
def putRecord {ρ : Type} (records : Dict Venue (Dict String ρ)) (venue : Venue) (name : String)
    (record : ρ) : Dict Venue (Dict String ρ) :=
  records.put venue (((records.get venue).getD .empty).put name record)

/-- The record of a venue and a name. -/
def recordOf {ρ : Type} (records : Dict Venue (Dict String ρ)) (venue : Venue) (name : String) :
    Option ρ :=
  (records.get venue).bind fun venueRecords => venueRecords.get name

theorem recordOf_putRecord {ρ : Type} {records : Dict Venue (Dict String ρ)} {venue other : Venue}
    {name otherName : String} {record : ρ} :
    recordOf (putRecord records venue name record) other otherName =
      if other = venue ∧ otherName = name then some record
      else recordOf records other otherName := by
  unfold recordOf putRecord
  rw [Dict.get_put]
  by_cases same : other = venue
  · subst same
    rw [if_pos rfl, Option.bind_some, Dict.get_put]
    by_cases sameName : otherName = name
    · rw [if_pos sameName, if_pos ⟨rfl, sameName⟩]
    · rw [if_neg sameName, if_neg fun both => sameName both.2]
      cases records.get other <;> rfl
  · rw [if_neg same, if_neg fun both => same both.1]

namespace CrossVenueReconciler

/-- `__init__`. -/
def new (driftThresholdPct : ℚ) : CrossVenueReconciler where
  internalPositions := .empty
  internalBalances := .empty
  externalPositions := .empty
  externalBalances := .empty
  driftThresholdPct := driftThresholdPct
  alerts := []
  alertCounter := 0
  tradingHalted := false
  haltReason := none
  reconciliationCount := 0
  driftsDetected := 0

def majorDriftThresholdPct (reconciler : CrossVenueReconciler) : ℚ :=
  reconciler.driftThresholdPct * 10

def fatalDesyncThresholdPct (reconciler : CrossVenueReconciler) : ℚ :=
  reconciler.driftThresholdPct * 100

def updateInternalPosition (reconciler : CrossVenueReconciler) (record : PositionRecord) :
    CrossVenueReconciler :=
  { reconciler with
    internalPositions :=
      putRecord reconciler.internalPositions record.venue record.symbol record }

def updateExternalPosition (reconciler : CrossVenueReconciler) (record : PositionRecord) :
    CrossVenueReconciler :=
  { reconciler with
    externalPositions :=
      putRecord reconciler.externalPositions record.venue record.symbol record }

def updateInternalBalance (reconciler : CrossVenueReconciler) (venue : Venue) (asset : String)
    (free locked : ℚ) : CrossVenueReconciler :=
  { reconciler with
    internalBalances := putRecord reconciler.internalBalances venue asset
      ⟨venue, asset, free, locked, free + locked⟩ }

def updateExternalBalance (reconciler : CrossVenueReconciler) (venue : Venue) (asset : String)
    (free locked : ℚ) : CrossVenueReconciler :=
  { reconciler with
    externalBalances := putRecord reconciler.externalBalances venue asset
      ⟨venue, asset, free, locked, free + locked⟩ }

def classifyDrift (reconciler : CrossVenueReconciler) (driftPct : ℚ) : ReconciliationStatus :=
  if driftPct < reconciler.driftThresholdPct then .matched
  else if driftPct < reconciler.majorDriftThresholdPct then .minorDrift
  else if driftPct < reconciler.fatalDesyncThresholdPct then .majorDrift
  else .fatalDesync

def getAction (status : ReconciliationStatus) (driftPct : ℚ) : String :=
  match status with
  | .minorDrift => "Monitor drift (" ++ fixed2 driftPct ++ "%). Log for investigation."
  | .majorDrift =>
    "Reduce position size. Investigate immediately. Drift: " ++ fixed2 driftPct ++ "%"
  | .fatalDesync => "HALT TRADING. Critical desync detected. Drift: " ++ fixed2 driftPct ++ "%"
  | .matched => "No action required"
  | .missingData => "No action required"

def createAlert (reconciler : CrossVenueReconciler) (venue : Venue) (assetOrSymbol : String)
    (driftPct internalValue externalValue : ℚ) : CrossVenueReconciler :=
  let severity :=
    if reconciler.fatalDesyncThresholdPct ≤ driftPct then "critical"
    else if reconciler.majorDriftThresholdPct ≤ driftPct then "high"
    else if reconciler.driftThresholdPct ≤ driftPct then "medium"
    else "low"
  let alerts := reconciler.alerts ++ [⟨reconciler.alertCounter + 1, severity, venue,
    assetOrSymbol, driftPct, internalValue, externalValue⟩]
  { reconciler with
    alertCounter := reconciler.alertCounter + 1
    -- Keep only last 1000 alerts
    alerts := if 1000 < alerts.length then alerts.drop (alerts.length - 1000) else alerts }

variable {ρ : Type}

/-- The body of the loop over the external records of a venue: the results it appends, and the
reconciler after it. -/
def reconcileRecord (reconciler : CrossVenueReconciler) (kind : RecordKind ρ) (venue : Venue)
    (name : String) (internal : Option ρ) (external : ρ) :
    List ReconciliationResult × CrossVenueReconciler :=
  match internal with
  | none =>
    ([{ status := .missingData
        venue := venue
        assetOrSymbol := name
        internalValue := 0
        externalValue := kind.value external
        driftAbsolute := kind.value external
        driftPct := 100
        actionRequired := kind.missing }], reconciler)
  | some internal =>
    let driftAbs := |kind.value internal - kind.value external|
    let maxVal := max (max (kind.size (kind.value internal)) (kind.size (kind.value external)))
      (1 / 10000000000)
    let driftPct := driftAbs / maxVal * 100
    let status := reconciler.classifyDrift driftPct
    if status = .matched then ([], reconciler)
    else
      let counted := { reconciler with driftsDetected := reconciler.driftsDetected + 1 }
      ([{ status := status
          venue := venue
          assetOrSymbol := name
          internalValue := kind.value internal
          externalValue := kind.value external
          driftAbsolute := driftAbs
          driftPct := driftPct
          actionRequired := getAction status driftPct }],
        if kind.alerting then
          counted.createAlert venue name driftPct (kind.value internal) (kind.value external)
        else counted)

/-- The loop over the external records of a venue. -/
def reconcileVenue (kind : RecordKind ρ) (venue : Venue) (internals : Dict String ρ) :
    List (String × ρ) → CrossVenueReconciler → List ReconciliationResult × CrossVenueReconciler
  | [], reconciler => ([], reconciler)
  | (name, external) :: rest, reconciler =>
    let first := reconciler.reconcileRecord kind venue name (internals.get name) external
    let later := reconcileVenue kind venue internals rest first.2
    (first.1 ++ later.1, later.2)

/-- The loop over the external venues. -/
def reconcileVenues (kind : RecordKind ρ) (internals : Dict Venue (Dict String ρ)) :
    List (Venue × Dict String ρ) → CrossVenueReconciler →
      List ReconciliationResult × CrossVenueReconciler
  | [], reconciler => ([], reconciler)
  | (venue, externals) :: rest, reconciler =>
    let first := reconcileVenue kind venue ((internals.get venue).getD .empty) externals.entries
      reconciler
    let later := reconcileVenues kind internals rest first.2
    (first.1 ++ later.1, later.2)

def reconcileBalances (reconciler : CrossVenueReconciler) :
    List ReconciliationResult × CrossVenueReconciler :=
  reconcileVenues balanceKind reconciler.internalBalances reconciler.externalBalances.entries
    reconciler

def reconcilePositions (reconciler : CrossVenueReconciler) :
    List ReconciliationResult × CrossVenueReconciler :=
  reconcileVenues positionKind reconciler.internalPositions reconciler.externalPositions.entries
    reconciler

def triggerTradingHalt (reconciler : CrossVenueReconciler)
    (fatalResults : List ReconciliationResult) : CrossVenueReconciler :=
  let reasons := (fatalResults.take 5).map fun result =>
    result.venue.value ++ "/" ++ result.assetOrSymbol ++ ": " ++ fixed2 result.driftPct ++
      "% drift"
  { reconciler with
    tradingHalted := true
    haltReason := some ("Fatal reconciliation desync: " ++ "; ".intercalate reasons) }

/-- What `reconcile_all` returns: the results of the balances and then those of the positions. -/
structure Results where
  balances : List ReconciliationResult
  positions : List ReconciliationResult

/-- The list that `reconcile_all` returns. -/
def Results.all (results : Results) : List ReconciliationResult :=
  results.balances ++ results.positions

def reconcileAll (reconciler : CrossVenueReconciler) : Results × CrossVenueReconciler :=
  let counted := { reconciler with reconciliationCount := reconciler.reconciliationCount + 1 }
  let balances := counted.reconcileBalances
  let positions := balances.2.reconcilePositions
  let results : Results := ⟨balances.1, positions.1⟩
  let fatalResults := results.all.filter fun result => result.status = .fatalDesync
  (results,
    if fatalResults = [] then positions.2 else positions.2.triggerTradingHalt fatalResults)

def resumeTrading (reconciler : CrossVenueReconciler) : CrossVenueReconciler :=
  { reconciler with tradingHalted := false, haltReason := none }

end CrossVenueReconciler

end TradingBot.Venues
