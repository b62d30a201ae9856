import TradingBot.Foundation.Run
import TradingBot.Stress.CircuitBreaker

/-!
# A trip stops trading

A trip made while trading is allowed is to stop it for a cooldown, until a reset. A breaker that
is still open when its cooldown is over allows trading, and ignores the trips that follow.
-/

open Run MachineInt

namespace TradingBot.Stress

namespace TripHolds

/-- One call on a breaker. -/
inductive BreakerCall where
  | trip (reason : TripReason) (asset : Option String) (severity : Nat)
  /-- `transition_to_half_open`. -/
  | halfOpen
  | reset
  /-- `manual_lockout`. -/
  | lockout
  /-- `release_lockout`. -/
  | release

/-- A call and the reading of the clock during it. -/
structure TimedCall where
  nowNs : Nat
  call : BreakerCall

/-- A breaker with the last reading of the clock and the time of the last trip that was made while
trading was allowed, unless a reset or a release succeeded after it. -/
structure Session where
  breaker : CircuitBreaker
  clockNs : Nat
  tripped : Option Nat

/-- The time of the trip to hold after a call. -/
def Session.trippedAfter (session : Session) (timed : TimedCall) : Option Nat :=
  match timed.call with
  | .trip .. =>
    if session.breaker.isSafeToTrade timed.nowNs then some timed.nowNs else session.tripped
  | .reset => if session.breaker.reset.1 then none else session.tripped
  | .release => none
  | .halfOpen => session.tripped
  | .lockout => session.tripped

/-- The breaker after a call. -/
def breakerAfter (breaker : CircuitBreaker) (timed : TimedCall) : CircuitBreaker :=
  match timed.call with
  | .trip reason asset severity => (breaker.trip reason asset severity timed.nowNs).2
  | .halfOpen => (breaker.transitionToHalfOpen timed.nowNs).2
  | .reset => breaker.reset.2
  | .lockout => breaker.manualLockout timed.nowNs
  | .release => breaker.releaseLockout

/-- A session after a call; the clock does not go back. -/
def step (session : Session) (timed : TimedCall) : Option Session :=
  if timed.nowNs < session.clockNs then none
  else some {
    breaker := breakerAfter session.breaker timed
    clockNs := timed.nowNs
    tripped := session.trippedAfter timed }

/-- A session of a new breaker. -/
def Session.start (config : CircuitBreakerConfig) : Session where
  breaker := .withConfig config
  clockNs := 0
  tripped := none

/-- Trading is not allowed from now on until the cooldown of the trip to hold is over. The last
such trip is the one whose cooldown ends last. -/
def Stopped (session : Session) : Prop :=
  ∀ trippedNs ∈ session.tripped, ∀ laterNs, session.clockNs ≤ laterNs →
    laterNs - trippedNs < session.breaker.config.cooldownMs * 1000000 →
      session.breaker.isSafeToTrade laterNs = false

/-- A trip while trading is allowed finds a breaker that is not open, and the clock past zero or
the breaker one trip before its lockout. -/
def Taken (session : Session) (timed : TimedCall) : Prop :=
  match timed.call with
  | .trip .. => session.breaker.isSafeToTrade timed.nowNs = true →
      session.breaker.state ≠ .opened ∧ (0 < timed.nowNs ∨
        session.breaker.config.maxTripsBeforeLockout ≤ session.breaker.tripCount + 1)
  | _ => True

instance (session : Session) : DecidablePred (Taken session) := fun timed =>
  match timed with
  | ⟨_, .trip ..⟩ => inferInstanceAs (Decidable (_ → _ ∧ (_ ∨ _)))
  | ⟨_, .halfOpen⟩ | ⟨_, .reset⟩ | ⟨_, .lockout⟩ | ⟨_, .release⟩ =>
    inferInstanceAs (Decidable True)

/-! ## One call -/

section Calls

variable {session : Session} {breaker after : CircuitBreaker} {nowNs laterNs cooldownMs : Nat}
  {reason : TripReason} {asset : Option String} {severity : Nat}

theorem config_breakerAfter (breaker : CircuitBreaker) (timed : TimedCall) :
    (breakerAfter breaker timed).config = breaker.config := by
  unfold breakerAfter
  cases timed.call with
  | trip reason asset severity =>
    dsimp only [CircuitBreaker.trip]
    split <;> rfl
  | halfOpen =>
    dsimp only [CircuitBreaker.transitionToHalfOpen]
    split
    · rfl
    · split <;> rfl
  | reset =>
    dsimp only [CircuitBreaker.reset]
    split <;> rfl
  | lockout =>
    dsimp only [CircuitBreaker.manualLockout, CircuitBreaker.trip]
    split <;> rfl
  | release => rfl

theorem elapsed_lt (early : laterNs - nowNs < cooldownMs * 1000000) :
    (laterNs - nowNs) / 1000000 < cooldownMs :=
  (Nat.div_lt_iff_lt_mul (by decide)).mpr early

theorem unsafe_of_tripped (state : after.state = .opened) (since : after.tripTimestampNs = nowNs)
    (past : 0 < nowNs) (early : laterNs - nowNs < after.config.cooldownMs * 1000000) :
    after.isSafeToTrade laterNs = false := by
  apply Bool.eq_false_iff.mpr
  intro safe
  have over_ := (CircuitBreaker.safe_iff.mp safe).2 state
  unfold CircuitBreaker.elapsedSinceTripMs at over_
  rw [since, if_neg (Nat.ne_of_gt past)] at over_
  exact absurd (elapsed_lt early) (Nat.not_lt.mpr over_)

theorem safe_of_tripped_at_zero (since : after.tripTimestampNs = 0)
    (free : after.isLockedOut = false) (laterNs : Nat) :
    after.isSafeToTrade laterNs = true := by
  refine CircuitBreaker.safe_iff.mpr ⟨free, fun _ => ?_⟩
  unfold CircuitBreaker.elapsedSinceTripMs
  rw [if_pos since]
  exact Nat.le_sub_one_of_lt after.config.fits

theorem trip_stops (positive : 0 < breaker.config.cooldownMs)
    (allowed : breaker.isSafeToTrade nowNs = true) :
    (∀ laterNs, nowNs ≤ laterNs → laterNs - nowNs < breaker.config.cooldownMs * 1000000 →
        (breaker.trip reason asset severity nowNs).2.isSafeToTrade laterNs = false) ↔
      breaker.state ≠ .opened ∧
        (0 < nowNs ∨ breaker.config.maxTripsBeforeLockout ≤ breaker.tripCount + 1) := by
  have soon : nowNs - nowNs < breaker.config.cooldownMs * 1000000 := by omega
  by_cases state : breaker.state = .opened
  · rw [CircuitBreaker.trip_opened state]
    refine iff_of_false (fun stops => ?_) fun taken => taken.1 state
    exact Bool.false_ne_true ((stops nowNs (Nat.le_refl _) soon).symm.trans allowed)
  · obtain ⟨after, taken, config, opened, since, locked⟩ :=
      @CircuitBreaker.trip_taken breaker reason asset severity nowNs state
    rw [taken, and_iff_right state]
    have free : breaker.isLockedOut = false := (CircuitBreaker.safe_iff.mp allowed).1
    rw [free] at locked
    constructor
    · intro stops
      by_contra missed
      obtain ⟨start, few⟩ := not_or.mp missed
      have unlocked : after.isLockedOut = false :=
        Bool.eq_false_iff.mpr fun lock =>
          (locked.mp lock).elim Bool.false_ne_true few
      have zero : after.tripTimestampNs = 0 := since.trans (Nat.eq_zero_of_not_pos start)
      have safe := safe_of_tripped_at_zero zero unlocked nowNs
      exact Bool.false_ne_true ((stops nowNs (Nat.le_refl _) soon).symm.trans safe)
    · intro reason laterNs _ early
      rcases reason with past | many
      · exact unsafe_of_tripped opened since past (config ▸ early)
      · exact CircuitBreaker.unsafe_of_locked (locked.mpr (.inr many)) laterNs

end Calls

/-! ## Runs -/

section Runs

variable {session next : Session} {timed : TimedCall}

theorem stopped_of_locked (locked : session.breaker.isLockedOut = true) : Stopped session :=
  fun _ _ laterNs _ _ => CircuitBreaker.unsafe_of_locked locked laterNs

theorem stopped_later (stopped : Stopped session) {nowNs : Nat}
    (forward : session.clockNs ≤ nowNs) :
    Stopped { session with clockNs := nowNs } :=
  fun trippedNs held laterNs later early =>
    stopped trippedNs held laterNs (Nat.le_trans forward later) early

theorem stopped_trip_refused (stopped : Stopped session) {nowNs : Nat}
    (forward : session.clockNs ≤ nowNs) (forbidden : session.breaker.isSafeToTrade nowNs = false)
    (reason : TripReason) (asset : Option String) (severity : Nat) :
    Stopped { session with
      breaker := (session.breaker.trip reason asset severity nowNs).2
      clockNs := nowNs } := by
  by_cases state : session.breaker.state = .opened
  · rw [CircuitBreaker.trip_opened state]
    exact stopped_later stopped forward
  · apply stopped_of_locked
    apply CircuitBreaker.trip_locked
    by_contra free
    have safe : session.breaker.isSafeToTrade nowNs = true := CircuitBreaker.safe_iff.mpr
      ⟨Bool.eq_false_iff.mpr free, fun opened => absurd opened state⟩
    exact Bool.false_ne_true (forbidden.symm.trans safe)

theorem stopped_half_open (stopped : Stopped session) {nowNs : Nat}
    (forward : session.clockNs ≤ nowNs) :
    Stopped { session with
      breaker := (session.breaker.transitionToHalfOpen nowNs).2
      clockNs := nowNs } := by
  rcases CircuitBreaker.transitionToHalfOpen_cases session.breaker nowNs with same | ⟨late, lock⟩
  · rw [same]
    exact stopped_later stopped forward
  · cases locked : session.breaker.isLockedOut with
    | true =>
      exact stopped_of_locked (lock.trans locked)
    | false =>
      -- Trading was allowed, so the cooldown of the trip to hold is over.
      intro trippedNs held laterNs later early
      have config : (session.breaker.transitionToHalfOpen nowNs).2.config =
          session.breaker.config := config_breakerAfter session.breaker ⟨nowNs, .halfOpen⟩
      have sooner : nowNs - trippedNs < session.breaker.config.cooldownMs * 1000000 := by
        rw [← config]
        exact Nat.lt_of_le_of_lt (Nat.sub_le_sub_right later trippedNs) early
      have unsafe_ := stopped trippedNs held nowNs forward sooner
      exact absurd (unsafe_.symm.trans (late locked)) Bool.false_ne_true

/-- One call keeps the stop exactly when it is taken. -/
theorem stopped_step (positive : 0 < session.breaker.config.cooldownMs) (stopped : Stopped session)
    (taken : step session timed = some next) : Stopped next ↔ Taken session timed := by
  obtain ⟨nowNs, call⟩ := timed
  unfold step at taken
  split at taken
  · cases taken
  · next inOrder =>
    have forward : session.clockNs ≤ nowNs := Nat.not_lt.mp inOrder
    clear inOrder
    cases taken
    cases call with
    | trip reason asset severity =>
      unfold Stopped Taken Session.trippedAfter breakerAfter
      dsimp only
      cases allowed : session.breaker.isSafeToTrade nowNs with
      | false =>
        refine iff_of_true ?_ fun safe => absurd safe Bool.false_ne_true
        exact stopped_trip_refused stopped forward allowed reason asset severity
      | true =>
        have config : (session.breaker.trip reason asset severity nowNs).2.config =
            session.breaker.config :=
          config_breakerAfter session.breaker ⟨nowNs, .trip reason asset severity⟩
        rw [if_pos rfl, config, ← trip_stops positive allowed, forall_prop_of_true rfl]
        constructor
        · exact fun stops => stops nowNs rfl
        · intro stops trippedNs same
          cases same
          exact stops
    | halfOpen => exact iff_of_true (stopped_half_open stopped forward) trivial
    | reset =>
      refine iff_of_true ?_ trivial
      unfold Stopped Session.trippedAfter breakerAfter
      dsimp only
      cases locked : session.breaker.isLockedOut with
      | true =>
        rw [CircuitBreaker.reset_locked locked]
        exact stopped_later stopped forward
      | false =>
        have succeeds : session.breaker.reset.1 = true := by
          unfold CircuitBreaker.reset
          rw [locked]
          rfl
        rw [succeeds]
        intro trippedNs held
        cases held
    | lockout =>
      refine iff_of_true (stopped_of_locked ?_) trivial
      exact CircuitBreaker.manualLockout_locked session.breaker nowNs
    | release =>
      refine iff_of_true (fun trippedNs held => ?_) trivial
      cases held

theorem positive_step (positive : 0 < session.breaker.config.cooldownMs)
    (taken : step session timed = some next) : 0 < next.breaker.config.cooldownMs := by
  unfold step at taken
  split at taken
  · cases taken
  · cases taken
    show 0 < (breakerAfter session.breaker timed).config.cooldownMs
    rw [config_breakerAfter]
    exact positive

/-- Along every run on a new breaker each trip made while trading is allowed stops it for the
cooldown if and only if each such trip is taken. -/
theorem stopped_iff_taken (config : CircuitBreakerConfig) (positive : 1 ≤ config.cooldownMs)
    (calls : List TimedCall) :
    Always step Stopped (Session.start config) calls ↔
      Guarded step Taken (Session.start config) calls := by
  have start : Stopped (Session.start config) := fun _ held => by cases held
  exact @always_iff_guarded _ _ step (fun session => 0 < session.breaker.config.cooldownMs) Stopped
    Taken (fun _ _ _ holds taken => positive_step holds taken)
    (fun _ _ _ holds stopped taken => stopped_step holds stopped taken) (Session.start config)
    positive start calls

/-- A trip, a transition to half open when the cooldown of 60 seconds is over, and a second trip. -/
def probed : List TimedCall :=
  [⟨1000000, .trip .flashCrash (some "BTC") 5⟩, ⟨60001000000, .halfOpen⟩,
    ⟨60002000000, .trip .latencySpike none 3⟩]

/-- A trip of a breaker that is half open stops trading again. -/
theorem stopped_iff_taken_probed : Always step Stopped (Session.start .default) probed :=
  (stopped_iff_taken .default (by decide) probed).mpr (by decide +kernel)

/-- A trip of a breaker that is still open when its cooldown is over does not stop trading. -/
theorem second_trip_ignored : ¬∀ (config : CircuitBreakerConfig), 1 ≤ config.cooldownMs →
    ∀ calls, Always step Stopped (Session.start config) calls := by
  intro claim
  have always := claim .default (by decide) [⟨1000000, .trip .flashCrash (some "BTC") 5⟩,
    ⟨60001000000, .trip .latencySpike none 3⟩]
  have reached : (exec step (Session.start .default) [⟨1000000, .trip .flashCrash (some "BTC") 5⟩,
      ⟨60001000000, .trip .latencySpike none 3⟩]).map (fun session =>
        (session.tripped, session.clockNs, session.breaker.config.cooldownMs,
          session.breaker.isSafeToTrade 60001000000)) =
      some (some 60001000000, 60001000000, 60000, true) := by
    decide +kernel
  obtain ⟨final, ran, shown⟩ := Option.map_eq_some_iff.mp reached
  obtain ⟨tripped, clock, cooldown, safe⟩ : final.tripped = some 60001000000 ∧
      final.clockNs = 60001000000 ∧ final.breaker.config.cooldownMs = 60000 ∧
        final.breaker.isSafeToTrade 60001000000 = true := by
    simpa using shown
  have unsafe_ := always.final ran 60001000000 tripped 60001000000 (Nat.le_of_eq clock)
    (by rw [cooldown]; decide)
  exact Bool.false_ne_true (unsafe_.symm.trans safe)

end Runs

end TripHolds

end TradingBot.Stress
