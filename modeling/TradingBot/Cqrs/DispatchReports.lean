import TradingBot.Foundation.Run
import TradingBot.Cqrs.CommandBus

/-!
# What a dispatch reports

The result of a dispatch, the status of its command and the counters of the bus are to agree on
whether the handler executed the command. They do not where a post-hook raises after a handler
that succeeded, and a command that a validator rejects is counted nowhere, as is one whose
dispatch is cancelled: `except Exception` does not catch that.
-/

open Run

namespace TradingBot.Cqrs

namespace DispatchReports

variable {π δ ω : Type}

/-- One call on a bus. -/
inductive Call (π δ ω : Type) where
  /-- `dispatch`, between two readings of the clock. -/
  | dispatch (command : Command π) (startTime stopTime : ℚ)
  /-- `dispatch`, whose task is cancelled while it waits for the lock. -/
  | cancelledDispatch
  | registerValidator (commandType : CommandType)
      (validator : Command π → Stage ω (Bool × String))
  | registerHandler (commandType : CommandType) (handler : Command π → Stage ω (CommandResult δ))
  | addPreHook (hook : Command π → Stage ω Unit)
  | addPostHook (hook : Command π → CommandResult δ → Stage ω Unit)
  | shutdown

/-- What one dispatch on a running bus reported, with no success where it raised, and whether the
handler ran for the command and returned a success. -/
structure Report where
  success : Option Bool
  status : CommandStatus
  successfulBefore : Nat
  successfulAfter : Nat
  handlerSucceeded : Bool

/-- The report agrees with the handler. -/
def Report.Honest (report : Report) : Prop :=
  report.success = some report.handlerSucceeded ∧
    (report.status = .completed ↔ report.handlerSucceeded = true) ∧
    report.successfulAfter =
      report.successfulBefore + if report.handlerSucceeded then 1 else 0

instance : DecidablePred Report.Honest := fun report =>
  inferInstanceAs (Decidable (_ ∧ (report.status = .completed ↔ _) ∧ _))

/-- A bus with the world of its stages, the number of dispatch calls made while it was running and
their reports. -/
structure Session (π δ ω : Type) where
  bus : CommandBus π δ ω
  world : ω
  dispatched : Nat
  reports : List Report

/-- A session of a new bus. -/
def Session.start (world : ω) : Session π δ ω where
  bus := .new
  world := world
  dispatched := 0
  reports := []

/-- The session after a dispatch. -/
def Session.dispatch (session : Session π δ ω) (command : Command π) (startTime stopTime : ℚ) :
    Session π δ ω :=
  let after := session.bus.dispatch command session.world startTime stopTime
  { bus := after.bus
    world := after.world
    dispatched := session.dispatched + if session.bus.isRunning then 1 else 0
    reports :=
      if session.bus.isRunning then
        { success := after.result.toOption.map CommandResult.success
          status := after.command.status
          successfulBefore := session.bus.successfulCommands
          successfulAfter := after.bus.successfulCommands
          handlerSucceeded := after.handled.any fun result => result.success } :: session.reports
      else session.reports }

/-- A session after a call. -/
def step (session : Session π δ ω) : Call π δ ω → Option (Session π δ ω)
  | .dispatch command startTime stopTime => some (session.dispatch command startTime stopTime)
  | .cancelledDispatch =>
    some { session with
      dispatched := session.dispatched + if session.bus.isRunning then 1 else 0 }
  | .registerValidator commandType validator =>
    some { session with bus := session.bus.registerValidator commandType validator }
  | .registerHandler commandType handler =>
    some { session with bus := session.bus.registerHandler commandType handler }
  | .addPreHook hook => some { session with bus := session.bus.addPreHook hook }
  | .addPostHook hook => some { session with bus := session.bus.addPostHook hook }
  | .shutdown => some { session with bus := session.bus.shutdown }

/-- Every report so far is honest, the total is the number of dispatch calls made while running,
and it is the sum of the successful and the failed commands. -/
def Reported (session : Session π δ ω) : Prop :=
  (∀ report ∈ session.reports, report.Honest) ∧
    session.bus.totalCommands = session.dispatched ∧
    session.bus.totalCommands = session.bus.successfulCommands + session.bus.failedCommands

instance : DecidablePred (@Reported π δ ω) := fun session =>
  inferInstanceAs (Decidable ((∀ report ∈ session.reports, report.Honest) ∧ _ ∧ _))

/-- On a running bus, no validator rejects the command, nothing raised escapes the dispatch, and no
post-hook raises after a handler that returned a success. -/
def Observed (session : Session π δ ω) : Call π δ ω → Prop
  | .dispatch command _ _ => session.bus.isRunning = true →
    match session.bus.ending command session.world with
    | .rejected => False
    | .escaped => False
    | .hookRaised result => result.success = false
    | .raised => True
    | .finished _ => True
  | .cancelledDispatch => session.bus.isRunning = false
  | _ => True

/-! ## One call -/

section Calls

variable {session : Session π δ ω} {command : Command π} {startTime stopTime : ℚ}

/-- What a dispatch on a running bus leaves is rightly reported if and only if its report is
honest and it was counted. -/
theorem reported_dispatch_iff (running : session.bus.isRunning = true)
    (reported : Reported session) {success : Option Bool} {completed : Bool}
    {counted succeeded failed : Nat} {handled : Option (CommandResult δ)}
    (reports : CommandBus.Reports session.bus
      (session.bus.dispatch command session.world startTime stopTime) success completed counted
      succeeded failed handled) :
    Reported (session.dispatch command startTime stopTime) ↔
      (success = some (handled.any fun result => result.success) ∧
        (completed = true ↔ (handled.any fun result => result.success) = true) ∧
        succeeded = if (handled.any fun result => result.success) = true then 1 else 0) ∧
        counted = 1 ∧ counted = succeeded + failed := by
  obtain ⟨honest, total, sum⟩ := reported
  dsimp only [Reported, Session.dispatch]
  rw [if_pos running, if_pos running, List.forall_mem_cons, and_iff_left honest, reports.total,
    reports.successful, reports.failed, reports.handled, reports.success]
  dsimp only [Report.Honest]
  rw [reports.status, Nat.add_left_cancel_iff]
  refine and_congr_right fun _ => and_congr ?_ ?_
  · omega
  · omega

/-- A dispatch on a running bus is rightly reported if and only if it is observed. -/
theorem dispatch_exact (running : session.bus.isRunning = true) (reported : Reported session) :
    Reported (session.dispatch command startTime stopTime) ↔
      Observed session (.dispatch command startTime stopTime) := by
  have reports := @CommandBus.dispatch_reports _ _ _ session.bus command session.world startTime
    stopTime running
  dsimp only [Observed]
  rw [forall_prop_of_true running]
  cases ended : session.bus.ending command session.world with
  | rejected =>
    rw [ended] at reports
    rw [reported_dispatch_iff running reported reports]
    exact iff_of_false (fun counted => absurd counted.2.1 (by decide)) id
  | raised =>
    rw [ended] at reports
    rw [reported_dispatch_iff running reported reports]
    exact iff_of_true ⟨⟨rfl, Iff.rfl, rfl⟩, rfl, rfl⟩ trivial
  | hookRaised result =>
    rw [ended] at reports
    rw [reported_dispatch_iff running reported reports]
    dsimp only [Option.any_some]
    constructor
    · exact fun counted => (Option.some.inj counted.1.1).symm
    · intro failed
      rw [if_neg (Bool.eq_false_iff.mp failed), failed]
      exact ⟨⟨rfl, Iff.rfl, rfl⟩, rfl, rfl⟩
  | escaped =>
    rw [ended] at reports
    obtain ⟨handled, reports⟩ := reports
    rw [reported_dispatch_iff running reported reports]
    exact iff_of_false (fun counted => absurd counted.2.1 (by decide)) id
  | finished result =>
    rw [ended] at reports
    rw [reported_dispatch_iff running reported reports]
    refine iff_of_true ?_ trivial
    dsimp only [Option.any_some]
    refine ⟨⟨rfl, Iff.rfl, rfl⟩, rfl, ?_⟩
    split <;> rfl

/-- A dispatch whose task is cancelled at the lock is counted only among the calls. -/
theorem cancelled_exact (reported : Reported session) :
    Reported { session with
      dispatched := session.dispatched + if session.bus.isRunning then 1 else 0 } ↔
      session.bus.isRunning = false := by
  obtain ⟨honest, total, sum⟩ := reported
  dsimp only [Reported]
  rw [and_iff_right honest, and_iff_left sum, total]
  cases session.bus.isRunning <;> simp

/-- A dispatch on a bus that was shut down is no concern of the reports. -/
theorem dispatch_stopped (stopped : session.bus.isRunning = false) :
    Reported (session.dispatch command startTime stopTime) ↔ Reported session := by
  dsimp only [Reported, Session.dispatch]
  rw [CommandBus.dispatch_stopped stopped, stopped]
  rfl

/-- A call keeps the reports right if and only if it is observed. -/
theorem step_exact {call : Call π δ ω} {next : Session π δ ω} (reported : Reported session)
    (stepped : step session call = some next) : Reported next ↔ Observed session call := by
  cases call with
  | dispatch command startTime stopTime =>
    cases stepped
    cases running : session.bus.isRunning with
    | true => exact dispatch_exact running reported
    | false =>
      rw [dispatch_stopped running]
      refine iff_of_true reported fun started => ?_
      rw [running] at started
      exact absurd started Bool.false_ne_true
  | cancelledDispatch =>
    cases stepped
    exact cancelled_exact reported
  | registerValidator commandType validator =>
    cases stepped
    exact iff_of_true reported trivial
  | registerHandler commandType handler =>
    cases stepped
    exact iff_of_true reported trivial
  | addPreHook hook =>
    cases stepped
    exact iff_of_true reported trivial
  | addPostHook hook =>
    cases stepped
    exact iff_of_true reported trivial
  | shutdown =>
    cases stepped
    exact iff_of_true reported trivial

end Calls

/-- Along every run of calls on a new bus the dispatches are rightly reported if and only if no
validator rejects a command, nothing raised escapes a dispatch and no post-hook raises after a
handler that succeeded. -/
theorem reported_iff (world : ω) (calls : List (Call π δ ω)) :
    Always step Reported (Session.start world) calls ↔
      Guarded step Observed (Session.start world) calls :=
  @always_iff_guarded _ _ step (fun _ => True) Reported Observed (fun _ _ _ _ _ => trivial)
    (fun _ _ _ _ reported stepped => step_exact reported stepped) (Session.start world) trivial
    ⟨nofun, rfl, rfl⟩ calls

/-- A handler that counts the orders it places, then an audit hook that fails. -/
def failingAudit : List (Call Unit Unit Nat) :=
  [.registerHandler .placeOrder fun command placed =>
      (.ok { success := true, message := "placed", commandId := command.commandId,
             executionTimeMs := 1 }, placed + 1),
    .addPostHook fun _ _ placed => (.error (.exception "disk full"), placed),
    .dispatch { commandType := .placeOrder, payload := (), commandId := "c1" } 0 1]

/-- An order that was placed is reported as failed when the audit hook after it raises. -/
theorem failed_hook_reported : ¬ Always step Reported (Session.start 0) failingAudit := by
  decide +kernel

end DispatchReports

end TradingBot.Cqrs
