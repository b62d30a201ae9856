import Mathlib.Data.Rat.Defs
import TradingBot.Foundation.Dict

/-!
# Command bus

`CommandBus`: the pipeline of validators, pre-hooks, handler and post-hooks of a command. A stage
is any function that returns or raises and may change a world of its own; it does not change the
command or the result it is shown. What is raised is its text and whether `except Exception`
catches it, and the readings of `perf_counter` are arguments.
-/

namespace TradingBot.Cqrs

/-- `CommandType`. -/
inductive CommandType where
  | placeOrder | cancelOrder | modifyOrder | replaceOrder
  | closePosition | adjustPosition | rebalancePortfolio
  | setRiskLimit | haltTrading | resumeTrading
  | subscribeSymbol | unsubscribeSymbol | refreshOrderbook
  | flushEventStore | createSnapshot | shutdown
  deriving DecidableEq, Repr

/-- The text of a command type in an f-string. -/
def CommandType.text : CommandType → String
  | .placeOrder => "CommandType.PLACE_ORDER"
  | .cancelOrder => "CommandType.CANCEL_ORDER"
  | .modifyOrder => "CommandType.MODIFY_ORDER"
  | .replaceOrder => "CommandType.REPLACE_ORDER"
  | .closePosition => "CommandType.CLOSE_POSITION"
  | .adjustPosition => "CommandType.ADJUST_POSITION"
  | .rebalancePortfolio => "CommandType.REBALANCE_PORTFOLIO"
  | .setRiskLimit => "CommandType.SET_RISK_LIMIT"
  | .haltTrading => "CommandType.HALT_TRADING"
  | .resumeTrading => "CommandType.RESUME_TRADING"
  | .subscribeSymbol => "CommandType.SUBSCRIBE_SYMBOL"
  | .unsubscribeSymbol => "CommandType.UNSUBSCRIBE_SYMBOL"
  | .refreshOrderbook => "CommandType.REFRESH_ORDERBOOK"
  | .flushEventStore => "CommandType.FLUSH_EVENT_STORE"
  | .createSnapshot => "CommandType.CREATE_SNAPSHOT"
  | .shutdown => "CommandType.SHUTDOWN"

/-- `CommandStatus`. -/
inductive CommandStatus where
  | pending
  | validating
  | executing
  | completed
  | failed
  | rolledBack
  deriving DecidableEq, Repr

/-- `CommandResult`; its data is of any type. -/
structure CommandResult (δ : Type) where
  success : Bool
  message : String
  commandId : String
  executionTimeMs : ℚ
  resultData : Option δ := none
  errorCode : Option String := none
  rollbackPerformed : Bool := false

/-- `Command`; what only the stages read of it is its payload. -/
structure Command (π : Type) where
  commandType : CommandType
  payload : π
  commandId : String
  status : CommandStatus := .pending

/-- The command with another status. -/
def Command.withStatus {π : Type} (command : Command π) (status : CommandStatus) : Command π :=
  { command with status := status }

/-- What a stage raises, with its text: an `Exception`, or a `BaseException` that is none, such as
`asyncio.CancelledError` or `KeyboardInterrupt`. -/
inductive Raised where
  | exception (message : String)
  | baseException (message : String)

/-- What a stage does to its world: it returns a value or raises. -/
abbrev Stage (ω α : Type) := ω → Except Raised α × ω

/-- `CommandBus`. -/
structure CommandBus (π δ ω : Type) where
  validators : Dict CommandType (List (Command π → Stage ω (Bool × String)))
  handlers : Dict CommandType (Command π → Stage ω (CommandResult δ))
  preHooks : List (Command π → Stage ω Unit)
  postHooks : List (Command π → CommandResult δ → Stage ω Unit)
  commandHistory : List (Command π)
  isRunning : Bool
  totalCommands : Nat
  successfulCommands : Nat
  failedCommands : Nat
  totalExecutionTimeMs : ℚ

/-- What a call of `dispatch` leaves: what it returns or raises, the command, the bus, the world of
the stages and what the registered handler returned for the command, if it ran and returned. -/
structure Dispatched (π δ ω : Type) where
  result : Except Raised (CommandResult δ)
  command : Command π
  bus : CommandBus π δ ω
  world : ω
  handled : Option (CommandResult δ)

variable {π δ ω : Type}

/-- The loop of `_validate_command`: the first validator that does not accept ends it. -/
def runValidators (command : Command π) :
    List (Command π → Stage ω (Bool × String)) → Stage ω (Bool × String)
  | [], world => (.ok (true, ""), world)
  | validate :: rest, world =>
    match validate command world with
    | (.error raised, world) => (.error raised, world)
    | (.ok (false, errorMsg), world) => (.ok (false, errorMsg), world)
    | (.ok (true, _), world) => runValidators command rest world

/-- A loop over hooks: the first that raises ends it. -/
def runHooks : List (Stage ω Unit) → Stage ω Unit
  | [], world => (.ok (), world)
  | hook :: rest, world =>
    match hook world with
    | (.error raised, world) => (.error raised, world)
    | (.ok (), world) => runHooks rest world

namespace CommandBus

/-- `__init__`. -/
def new : CommandBus π δ ω where
  validators := .empty
  handlers := .empty
  preHooks := []
  postHooks := []
  commandHistory := []
  isRunning := true
  totalCommands := 0
  successfulCommands := 0
  failedCommands := 0
  totalExecutionTimeMs := 0

def registerValidator (bus : CommandBus π δ ω) (commandType : CommandType)
    (validator : Command π → Stage ω (Bool × String)) : CommandBus π δ ω :=
  { bus with
    validators := bus.validators.put commandType
      ((bus.validators.get commandType).getD [] ++ [validator]) }

def registerHandler (bus : CommandBus π δ ω) (commandType : CommandType)
    (handler : Command π → Stage ω (CommandResult δ)) : CommandBus π δ ω :=
  { bus with handlers := bus.handlers.put commandType handler }

def addPreHook (bus : CommandBus π δ ω) (hook : Command π → Stage ω Unit) : CommandBus π δ ω :=
  { bus with preHooks := bus.preHooks ++ [hook] }

def addPostHook (bus : CommandBus π δ ω) (hook : Command π → CommandResult δ → Stage ω Unit) :
    CommandBus π δ ω :=
  { bus with postHooks := bus.postHooks ++ [hook] }

def shutdown (bus : CommandBus π δ ω) : CommandBus π δ ω := { bus with isRunning := false }

def validateCommand (bus : CommandBus π δ ω) (command : Command π) : Stage ω (Bool × String) :=
  runValidators command ((bus.validators.get command.commandType).getD [])

/-- The loop over the pre-hooks. -/
def runPreHooks (bus : CommandBus π δ ω) (command : Command π) : Stage ω Unit :=
  runHooks (bus.preHooks.map fun hook => hook command)

/-- The loop over the post-hooks. -/
def runPostHooks (bus : CommandBus π δ ω) (command : Command π) (result : CommandResult δ) :
    Stage ω Unit :=
  runHooks (bus.postHooks.map fun hook => hook command result)

/-- The history with one more command, kept to the last thousand. -/
def record (history : List (Command π)) (command : Command π) : List (Command π) :=
  if 1000 < (history ++ [command]).length then (history ++ [command]).drop 1
  else history ++ [command]

/-- The branch `except Exception` of `dispatch`. -/
def executionError (bus : CommandBus π δ ω) (command : Command π) (world : ω)
    (executionTime : ℚ) (message : String) (handled : Option (CommandResult δ)) :
    Dispatched π δ ω where
  result := .ok {
    success := false
    message := message
    commandId := command.commandId
    executionTimeMs := executionTime
    errorCode := some "EXECUTION_ERROR" }
  command := command.withStatus .failed
  bus := { bus with
    totalCommands := bus.totalCommands + 1
    failedCommands := bus.failedCommands + 1
    totalExecutionTimeMs := bus.totalExecutionTimeMs + executionTime }
  world := world
  handled := handled

/-- The end of `dispatch` after something is raised: what is no `Exception` escapes it. -/
def interrupted (bus : CommandBus π δ ω) (command : Command π) (world : ω)
    (executionTime : ℚ) (raised : Raised) (handled : Option (CommandResult δ)) :
    Dispatched π δ ω :=
  match raised with
  | .exception message => bus.executionError command world executionTime message handled
  | .baseException _ =>
    { result := .error raised
      command := command
      bus := bus
      world := world
      handled := handled }

/-- The end of `dispatch` after all stages returned. -/
def executed (bus : CommandBus π δ ω) (command : Command π) (world : ω) (executionTime : ℚ)
    (result : CommandResult δ) : Dispatched π δ ω :=
  let command :=
    command.withStatus (if result.success then .completed else .failed)
  { result := .ok result
    command := command
    bus := { bus with
      totalCommands := bus.totalCommands + 1
      totalExecutionTimeMs := bus.totalExecutionTimeMs + executionTime
      successfulCommands := bus.successfulCommands + if result.success then 1 else 0
      failedCommands := bus.failedCommands + if result.success then 0 else 1
      commandHistory := record bus.commandHistory command }
    world := world
    handled := some result }

/-- `dispatch`, between two readings of the clock. -/
def dispatch (bus : CommandBus π δ ω) (command : Command π) (world : ω)
    (startTime stopTime : ℚ) : Dispatched π δ ω :=
  let executionTime := (stopTime - startTime) * 1000
  if bus.isRunning then
    -- Step 1: Validate command
    let validating := command.withStatus .validating
    match bus.validateCommand validating world with
    | (.error raised, world) => bus.interrupted validating world executionTime raised none
    | (.ok (false, errorMsg), world) =>
      { result := .ok {
          success := false
          message := errorMsg
          commandId := command.commandId
          executionTimeMs := 0
          errorCode := some "VALIDATION_FAILED" }
        command := command.withStatus .failed
        bus := bus
        world := world
        handled := none }
    | (.ok (true, _), world) =>
      -- Step 2: Run pre-hooks
      let command := command.withStatus .executing
      match bus.runPreHooks command world with
      | (.error raised, world) => bus.interrupted command world executionTime raised none
      | (.ok (), world) =>
        -- Step 3: Execute handler
        match bus.handlers.get command.commandType with
        | none =>
          bus.executionError command world executionTime
            ("No handler registered for command type: " ++ command.commandType.text) none
        | some handler =>
          match handler command world with
          | (.error raised, world) => bus.interrupted command world executionTime raised none
          | (.ok result, world) =>
            -- Step 4: Run post-hooks
            match bus.runPostHooks command result world with
            | (.error raised, world) =>
              bus.interrupted command world executionTime raised (some result)
            | (.ok (), world) => bus.executed command world executionTime result
  else
    { result := .ok {
        success := false
        message := "Command bus is not running"
        commandId := command.commandId
        executionTimeMs := 0
        errorCode := some "BUS_NOT_RUNNING" }
      command := command
      bus := bus
      world := world
      handled := none }

/-! ## Which stage ends a dispatch -/

/-- Where the pipeline of a command ends. -/
inductive Ending (δ : Type) where
  /-- A validator does not accept the command. -/
  | rejected
  /-- A validator, a pre-hook or the handler raises an `Exception`, or there is no handler. -/
  | raised
  /-- The handler returned and a post-hook raises an `Exception`. -/
  | hookRaised (result : CommandResult δ)
  /-- A stage raises what is no `Exception`. -/
  | escaped
  /-- All stages returned. -/
  | finished (result : CommandResult δ)

/-- The ending after something is raised, by what the handler returned before. -/
def endingOf : Raised → Option (CommandResult δ) → Ending δ
  | .exception _, none => .raised
  | .exception _, some result => .hookRaised result
  | .baseException _, _ => .escaped

/-- Where the stages that are registered for a command end when they run in order. -/
def ending (bus : CommandBus π δ ω) (command : Command π) (world : ω) : Ending δ :=
  match bus.validateCommand (command.withStatus .validating) world with
  | (.error raised, _) => endingOf raised none
  | (.ok (false, _), _) => .rejected
  | (.ok (true, _), world) =>
    let command := command.withStatus .executing
    match bus.runPreHooks command world with
    | (.error raised, _) => endingOf raised none
    | (.ok (), world) =>
      match bus.handlers.get command.commandType with
      | none => .raised
      | some handler =>
        match handler command world with
        | (.error raised, _) => endingOf raised none
        | (.ok result, world) =>
          match bus.runPostHooks command result world with
          | (.error raised, _) => endingOf raised (some result)
          | (.ok (), _) => .finished result

/-- The counters and reports of a dispatch on a running bus. One that raises reports no success. -/
structure Reports (bus : CommandBus π δ ω) (after : Dispatched π δ ω)
    (success : Option Bool) (completed : Bool) (counted succeeded failed : Nat)
    (handled : Option (CommandResult δ)) : Prop where
  success : after.result.toOption.map CommandResult.success = success
  status : after.command.status = .completed ↔ completed = true
  total : after.bus.totalCommands = bus.totalCommands + counted
  successful : after.bus.successfulCommands = bus.successfulCommands + succeeded
  failed : after.bus.failedCommands = bus.failedCommands + failed
  handled : after.handled = handled
  running : after.bus.isRunning = bus.isRunning

/-- What a dispatch on a running bus reports, by where its pipeline ends. -/
def ReportsEnding (bus : CommandBus π δ ω) (after : Dispatched π δ ω) : Ending δ → Prop
  | .rejected => Reports bus after (some false) false 0 0 0 none
  | .raised => Reports bus after (some false) false 1 0 1 none
  | .hookRaised result => Reports bus after (some false) false 1 0 1 (some result)
  | .escaped => ∃ handled, Reports bus after none false 0 0 0 handled
  | .finished result =>
    Reports bus after (some result.success) result.success 1
      (if result.success then 1 else 0) (if result.success then 0 else 1) (some result)

/-- A dispatch that something is raised in reports by whether it is caught and by whether the
handler had returned. -/
theorem interrupted_reports (bus : CommandBus π δ ω) {command : Command π} {world : ω}
    {executionTime : ℚ} (raised : Raised) (handled : Option (CommandResult δ))
    (open_ : command.status ≠ .completed) :
    ReportsEnding bus (bus.interrupted command world executionTime raised handled)
      (endingOf raised handled) := by
  cases raised with
  | exception message =>
    cases handled with
    | none => exact ⟨rfl, iff_of_false nofun nofun, rfl, rfl, rfl, rfl, rfl⟩
    | some result => exact ⟨rfl, iff_of_false nofun nofun, rfl, rfl, rfl, rfl, rfl⟩
  | baseException message =>
    exact ⟨handled, rfl, iff_of_false open_ nofun, rfl, rfl, rfl, rfl, rfl⟩

/-- A dispatch that all stages returned in reports what the handler returned. -/
theorem executed_reports (bus : CommandBus π δ ω) (command : Command π) (world : ω)
    (executionTime : ℚ) (result : CommandResult δ) :
    ReportsEnding bus (bus.executed command world executionTime result) (.finished result) := by
  have status : (if result.success then CommandStatus.completed else .failed) = .completed ↔
      result.success = true := by
    cases result.success <;> decide
  exact ⟨rfl, status, rfl, rfl, rfl, rfl, rfl⟩

/-- A dispatch on a running bus reports by where its pipeline ends. -/
theorem dispatch_reports {bus : CommandBus π δ ω} {command : Command π} {world : ω}
    {startTime stopTime : ℚ} (running : bus.isRunning = true) :
    ReportsEnding bus (bus.dispatch command world startTime stopTime)
      (bus.ending command world) := by
  have validating : (command.withStatus .validating).status ≠ .completed := nofun
  have executing : (command.withStatus .executing).status ≠ .completed := nofun
  dsimp only [ending, dispatch]
  rw [if_pos running]
  rcases bus.validateCommand (command.withStatus .validating) world with
    ⟨raised | ⟨_ | _, _⟩, validated⟩
  · exact bus.interrupted_reports raised none validating
  · exact ⟨rfl, iff_of_false nofun nofun, rfl, rfl, rfl, rfl, rfl⟩
  · dsimp only
    rcases bus.runPreHooks (command.withStatus .executing) validated with ⟨raised | ⟨⟩, hooked⟩
    · exact bus.interrupted_reports raised none executing
    · dsimp only
      rcases bus.handlers.get (command.withStatus .executing).commandType with _ | handler
      · exact ⟨rfl, iff_of_false nofun nofun, rfl, rfl, rfl, rfl, rfl⟩
      · dsimp only
        rcases handler (command.withStatus .executing) hooked with ⟨raised | result, handled⟩
        · exact bus.interrupted_reports raised none executing
        · dsimp only
          rcases bus.runPostHooks (command.withStatus .executing) result handled with
            ⟨raised | ⟨⟩, observed⟩
          · exact bus.interrupted_reports raised (some result) executing
          · exact bus.executed_reports _ _ _ result

/-- A dispatch on a bus that was shut down leaves the bus as it is. -/
theorem dispatch_stopped {bus : CommandBus π δ ω} {command : Command π} {world : ω}
    {startTime stopTime : ℚ} (stopped : bus.isRunning = false) :
    (bus.dispatch command world startTime stopTime).bus = bus := by
  dsimp only [dispatch]
  rw [stopped]
  rfl

end CommandBus

end TradingBot.Cqrs
