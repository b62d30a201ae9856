import TradingBot.Foundation.Run
import TradingBot.Stress.CircuitBreaker

/-!
# The emergency stop

An emergency stop locks the global breaker out. The only way out asks first whether trading is
safe, which a breaker that is locked out never is: the stop holds for ever.
-/

open Run

namespace TradingBot.Stress

namespace EmergencyStop

/-- One call on a manager or its global breaker. -/
inductive ManagerCall where
  | checkRiskLimits (currentLossPct currentVar : ℚ)
  /-- `trip` on the global breaker. -/
  | trip (reason : TripReason) (asset : Option String) (severity : Nat)
  /-- `reset` on the global breaker. -/
  | reset
  | emergencyStop
  | resumeTrading
  deriving DecidableEq, Repr

/-- A call and the reading of the clock during it. -/
structure TimedCall where
  nowNs : Nat
  call : ManagerCall

/-- A manager with the last reading of the clock, whether an emergency stop was not followed by a
successful resumption, and the time of the last call that tripped the breaker. -/
structure Session where
  manager : CircuitBreakerManager
  clockNs : Nat
  stopped : Bool
  lastTripNs : Option Nat

/-- The manager after a call. -/
def managerAfter (manager : CircuitBreakerManager) (timed : TimedCall) : CircuitBreakerManager :=
  match timed.call with
  | .checkRiskLimits currentLossPct currentVar =>
    (manager.checkRiskLimits currentLossPct currentVar timed.nowNs).2
  | .trip reason asset severity =>
    { manager with
      globalBreaker := (manager.globalBreaker.trip reason asset severity timed.nowNs).2 }
  | .reset => { manager with globalBreaker := manager.globalBreaker.reset.2 }
  | .emergencyStop => manager.emergencyStop timed.nowNs
  | .resumeTrading => (manager.resumeTrading timed.nowNs).2

/-- Whether the manager is stopped after a call. -/
def Session.stoppedAfter (session : Session) (timed : TimedCall) : Bool :=
  match timed.call with
  | .emergencyStop => true
  | .resumeTrading => session.stopped && !(session.manager.resumeTrading timed.nowNs).1
  | _ => session.stopped

/-- A session after a call; the clock does not go back. A call that raises the number of trips has
tripped the breaker. -/
def step (session : Session) (timed : TimedCall) : Option Session :=
  if timed.nowNs < session.clockNs then none
  else
    let after := managerAfter session.manager timed
    some {
      manager := after
      clockNs := timed.nowNs
      stopped := session.stoppedAfter timed
      lastTripNs :=
        if session.manager.globalBreaker.tripCount < after.globalBreaker.tripCount then
          some timed.nowNs
        else session.lastTripNs }

/-- A session of a new manager with some limits. -/
def Session.start (riskLimits : RiskLimits) : Session where
  manager := CircuitBreakerManager.new.setRiskLimits riskLimits
  clockNs := 0
  stopped := false
  lastTripNs := none

/-- Trading is not allowed from now on while the stop is not lifted. -/
def Holds (session : Session) : Prop :=
  session.stopped = true → ∀ laterNs, session.clockNs ≤ laterNs →
    session.manager.globalBreaker.isSafeToTrade laterNs = false

/-- A call is a resumption after a stop, the cooldown since the last trip being over. -/
def Due (session : Session) (timed : TimedCall) : Prop :=
  timed.call = .resumeTrading ∧ session.stopped = true ∧
    ∀ trippedNs ∈ session.lastTripNs,
      session.manager.globalBreaker.config.cooldownMs * 1000000 ≤ timed.nowNs - trippedNs

/-- A resumption that is due succeeds and allows trading. -/
def Lifts (session : Session) (timed : TimedCall) : Prop :=
  Due session timed → (session.manager.resumeTrading timed.nowNs).1 = true ∧
    (session.manager.resumeTrading timed.nowNs).2.globalBreaker.isSafeToTrade timed.nowNs = true

instance (session : Session) : DecidablePred (Due session) :=
  fun _ => inferInstanceAs (Decidable (_ ∧ _ ∧ ∀ trippedNs ∈ _, _ ≤ _ - _))

instance (session : Session) : DecidablePred (Lifts session) :=
  fun _ => inferInstanceAs (Decidable (_ → _ ∧ _))

/-- A stopped manager has a breaker that is locked out. -/
def Locked (session : Session) : Prop :=
  session.stopped = true → session.manager.globalBreaker.isLockedOut = true

section Runs

variable {session next : Session} {timed : TimedCall} {manager : CircuitBreakerManager}

section

variable (locked : manager.globalBreaker.isLockedOut = true)
include locked

theorem resume_locked (nowNs : Nat) : manager.resumeTrading nowNs = (false, manager) := by
  unfold CircuitBreakerManager.resumeTrading
  rw [CircuitBreaker.unsafe_of_locked locked]
  rfl

theorem check_locked (currentLossPct currentVar : ℚ) (nowNs : Nat) :
    (manager.checkRiskLimits currentLossPct currentVar nowNs).2.globalBreaker.isLockedOut =
      true := by
  unfold CircuitBreakerManager.checkRiskLimits
  split
  · exact CircuitBreaker.trip_locked locked
  · split
    · exact CircuitBreaker.trip_locked locked
    · exact locked

theorem locked_after (timed : TimedCall) :
    (managerAfter manager timed).globalBreaker.isLockedOut = true := by
  unfold managerAfter
  cases timed.call with
  | checkRiskLimits currentLossPct currentVar => exact check_locked locked _ _ _
  | trip reason asset severity => exact CircuitBreaker.trip_locked locked
  | reset =>
    show manager.globalBreaker.reset.2.isLockedOut = true
    rw [CircuitBreaker.reset_locked locked]
    exact locked
  | emergencyStop => exact CircuitBreaker.manualLockout_locked _ _
  | resumeTrading =>
    show (manager.resumeTrading timed.nowNs).2.globalBreaker.isLockedOut = true
    rw [resume_locked locked]
    exact locked

end

/-- Every call keeps the lock. -/
theorem locked_step (locked : Locked session) (taken : step session timed = some next) :
    Locked next := by
  unfold step at taken
  split at taken
  · cases taken
  · cases taken
    intro stopped
    have stopped : session.stoppedAfter timed = true := stopped
    show (managerAfter session.manager timed).globalBreaker.isLockedOut = true
    by_cases before : session.stopped = true
    · exact locked_after (locked before) timed
    · -- Only an emergency stop can have stopped the manager.
      unfold Session.stoppedAfter at stopped
      unfold managerAfter
      cases call : timed.call with
      | emergencyStop => exact CircuitBreaker.manualLockout_locked _ _
      | resumeTrading =>
        rw [call] at stopped
        exact absurd (Bool.and_elim_left stopped) before
      | checkRiskLimits _ _ | trip _ _ _ | reset =>
        rw [call] at stopped
        exact absurd stopped before

theorem holds_of_locked (locked : Locked session) : Holds session :=
  fun stopped laterNs _ => CircuitBreaker.unsafe_of_locked (locked stopped) laterNs

theorem lifts_iff (locked : Locked session) : Lifts session timed ↔ ¬Due session timed := by
  constructor
  · intro lifts due
    have refused := resume_locked (locked due.2.1) timed.nowNs
    have succeeds := (lifts due).1
    rw [refused] at succeeds
    exact Bool.false_ne_true succeeds
  · exact fun none due => absurd due none

theorem locked_start (riskLimits : RiskLimits) : Locked (Session.start riskLimits) :=
  fun stopped => by cases stopped

theorem stop_holds (riskLimits : RiskLimits) (calls : List TimedCall) :
    Always step Holds (Session.start riskLimits) calls :=
  (always_of_preserved (fun _ _ _ locked taken => locked_step locked taken)
    (locked_start riskLimits) calls).imp fun _ locked => holds_of_locked locked

/-- Along every run on a new manager the stop holds until it is lifted and is lifted by every
resumption that is due if and only if no resumption ever is due. -/
theorem stop_lifted_iff (riskLimits : RiskLimits) (calls : List TimedCall) :
    Always step Holds (Session.start riskLimits) calls ∧
        Guarded step Lifts (Session.start riskLimits) calls ↔
      Guarded step (fun session timed => ¬Due session timed) (Session.start riskLimits) calls := by
  rw [and_iff_right (stop_holds riskLimits calls)]
  exact guarded_congr (fun _ _ _ locked taken => locked_step locked taken)
    (fun _ _ _ locked _ => lifts_iff locked) (locked_start riskLimits) calls

/-- An emergency stop and a resumption two minutes later. -/
def stoppedOnce : List TimedCall := [⟨1000000, .emergencyStop⟩, ⟨120001000000, .resumeTrading⟩]

/-- The resumption two minutes after an emergency stop is due and refused. -/
theorem resume_refused : ¬Guarded step Lifts (Session.start .default) stoppedOnce := by
  decide +kernel

end Runs

end EmergencyStop

end TradingBot.Stress
