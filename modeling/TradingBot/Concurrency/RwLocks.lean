import TradingBot.Foundation.Interleaving

/-!
# The read-write lock

`RWLock` of `rw_locks.py`, used by any number of threads through `read_lock` and `write_lock`. What
a thread does between two waits on the condition is one step, and so is a wait that times out. What
the clock tells a call is given with it, one answer for each look; the statistics are left out.
-/

open Interleaving Run

namespace TradingBot.Concurrency

/-- `RWLock`, with how often its condition has been notified. -/
structure RWLock where
  readers : Nat
  writersWaiting : Nat
  writerActive : Bool
  writerPreference : Bool
  notified : Nat
  deriving DecidableEq, Repr

namespace RWLock

/-- `__init__`. -/
def new (writerPreference : Bool) : RWLock := ⟨0, 0, false, writerPreference, 0⟩

/-- The condition of the loop of `acquire_read`. -/
def readWaits (lock : RWLock) : Bool :=
  lock.writerActive ||
    lock.writerPreference && decide (0 < lock.writersWaiting) && decide (lock.readers = 0)

/-- The condition of the loop of `acquire_write`. -/
def writeWaits (lock : RWLock) : Bool := decide (0 < lock.readers) || lock.writerActive

/-- `release_read`, where it does not raise. -/
def releaseRead (lock : RWLock) : Option RWLock :=
  if lock.readers = 0 then none
  else if lock.readers - 1 = 0 then
    some { lock with readers := lock.readers - 1, notified := lock.notified + 1 }
  else some { lock with readers := lock.readers - 1 }

/-- `release_write`, where it does not raise. -/
def releaseWrite (lock : RWLock) : Option RWLock :=
  if lock.writerActive then
    some { lock with writerActive := false, notified := lock.notified + 1 }
  else none

end RWLock

/-- What a call is for. -/
inductive LockSide where
  | read
  | write
  deriving DecidableEq, Repr

namespace LockSide

/-- The lock when an acquisition begins. -/
def announce (lock : RWLock) : LockSide → RWLock
  | .read => lock
  | .write => { lock with writersWaiting := lock.writersWaiting + 1 }

/-- The condition of the loop. -/
def waits (lock : RWLock) : LockSide → Bool
  | .read => lock.readWaits
  | .write => lock.writeWaits

/-- The lock when the loop has ended. -/
def enter (lock : RWLock) : LockSide → RWLock
  | .read => { lock with readers := lock.readers + 1 }
  | .write => { lock with writerActive := true, writersWaiting := lock.writersWaiting - 1 }

/-- The lock when the deadline has passed. -/
def giveUp (lock : RWLock) : LockSide → RWLock
  | .read => lock
  | .write => { lock with writersWaiting := lock.writersWaiting - 1 }

/-- The release of the lock. -/
def release (lock : RWLock) : LockSide → Option RWLock
  | .read => lock.releaseRead
  | .write => lock.releaseWrite

end LockSide

/-- Where a call is. -/
inductive LockStage where
  | entering
  /-- It waits since the condition had been notified so often. -/
  | asleep (since : Nat)
  /-- Its wait has timed out, and it waits for the mutex. -/
  | expired
  | inside
  | returned (acquired : Bool)
  | raised
  deriving DecidableEq, Repr

/-- A call of `read_lock` or `write_lock`, with what the clock is going to tell it: whether the
deadline has passed. -/
structure LockCall where
  side : LockSide
  stage : LockStage
  overdue : List Bool
  deriving DecidableEq, Repr

/-- A call that begins. -/
def LockCall.begin (operation : LockSide × List Bool) : LockCall :=
  ⟨operation.1, .entering, operation.2⟩

namespace RWLock

/-- The loop of an acquisition up to its next wait. -/
def attempt (lock : RWLock) (call : LockCall) : RWLock × LockCall :=
  if call.side.waits lock then
    match call.overdue with
    | true :: later => (call.side.giveUp lock, ⟨call.side, .returned false, later⟩)
    | looks => (lock, ⟨call.side, .asleep lock.notified, looks.tail⟩)
  else (call.side.enter lock, { call with stage := .inside })

/-- The next step of a call. A wait ends when the condition was notified, or when it times out. -/
def next (lock : RWLock) (call : LockCall) : Option (RWLock × LockCall) :=
  match call.stage with
  | .entering => some (attempt (call.side.announce lock) call)
  | .asleep since =>
    if since < lock.notified then some (attempt lock call)
    else match call.overdue with
      | true :: later => some (lock, ⟨call.side, .expired, later⟩)
      | _ => none
  | .expired => some (call.side.giveUp lock, { call with stage := .returned false })
  | .inside => match call.side.release lock with
    | some freed => some (freed, { call with stage := .returned true })
    | none => some (lock, { call with stage := .raised })
  | .returned _ | .raised => none

end RWLock

namespace RwLocks

/-- A lock and the calls on it. -/
abbrev LockPool := Pool RWLock LockCall

/-- A pool after a move. -/
def step (pool : LockPool) (move : Move (LockSide × List Bool)) : Option LockPool :=
  pool.step LockCall.begin RWLock.next move

/-- A new lock. -/
def start (writerPreference : Bool) : LockPool := ⟨.new writerPreference, []⟩

/-- A call reads under the lock. -/
def reading (call : LockCall) : Bool := call.side = .read ∧ call.stage = .inside

/-- A call writes under the lock. -/
def writing (call : LockCall) : Bool := call.side = .write ∧ call.stage = .inside

/-- A call waits to write. -/
def waiting (call : LockCall) : Bool :=
  match call.side, call.stage with
  | .write, .asleep _ | .write, .expired => true
  | _, _ => false

variable {lock after : RWLock} {call moved : LockCall} {pool next : LockPool}

/-! ## One step of a call -/

/-- The lock that a call finds: one that begins has announced itself. -/
def found (lock : RWLock) (call : LockCall) : RWLock :=
  if call.stage = .entering then call.side.announce lock else lock

/-- A call evaluates the condition of its loop next: it begins, or it was notified. -/
def Awake (lock : RWLock) (call : LockCall) : Prop :=
  call.stage = .entering ∨ ∃ since, call.stage = .asleep since ∧ since < lock.notified

/-- What a step of a call can do, by the stage that it comes to. -/
def Effect (lock : RWLock) (call : LockCall) (after : RWLock) (moved : LockCall) : Prop :=
  match moved.stage with
  | .entering => False
  | .asleep since => since = lock.notified ∧ Awake lock call ∧ call.side.waits lock = true ∧
      after = found lock call
  | .expired => (∃ since, call.stage = .asleep since ∧ lock.notified ≤ since) ∧ after = lock
  | .inside => Awake lock call ∧ call.side.waits lock = false ∧
      after = call.side.enter (found lock call)
  | .returned false => (Awake lock call ∧ call.side.waits lock = true ∨ call.stage = .expired) ∧
      after = call.side.giveUp (found lock call)
  | .returned true => call.stage = .inside ∧ call.side.release lock = some after
  | .raised => call.stage = .inside ∧ call.side.release lock = none ∧ after = lock

theorem waits_announce (side : LockSide) : side.waits (side.announce lock) = side.waits lock := by
  cases side <;> rfl

/-- What an attempt to lock does: it takes the lock, waits on or gives up. -/
theorem attempt_cases (awake : Awake lock call)
    (stepped : (found lock call).attempt call = (after, moved)) :
    moved.side = call.side ∧ Effect lock call after moved := by
  have waits : call.side.waits (found lock call) = call.side.waits lock := by
    unfold found
    split
    · exact waits_announce call.side
    · rfl
  have notified : (found lock call).notified = lock.notified := by
    unfold found
    split
    · cases call.side <;> rfl
    · rfl
  unfold RWLock.attempt at stepped
  by_cases blocked : call.side.waits lock = true
  · rw [if_pos (waits.trans blocked)] at stepped
    split at stepped
    · cases stepped
      exact ⟨rfl, .inl ⟨awake, blocked⟩, rfl⟩
    · cases stepped
      exact ⟨rfl, notified, awake, blocked, rfl⟩
  · rw [if_neg (by rw [waits]; exact blocked)] at stepped
    cases stepped
    exact ⟨rfl, awake, Bool.eq_false_iff.mpr blocked, rfl⟩

/-- What one step of a call does to the lock. -/
theorem next_cases (stepped : lock.next call = some (after, moved)) :
    moved.side = call.side ∧ Effect lock call after moved := by
  unfold RWLock.next at stepped
  split at stepped
  case h_1 stage =>
    apply attempt_cases (.inl stage)
    rw [found, if_pos stage]
    exact Option.some.inj stepped
  case h_2 since stage =>
    split at stepped
    case isTrue later =>
      apply attempt_cases (.inr ⟨since, stage, later⟩)
      rw [found, if_neg (by rw [stage]; nofun)]
      exact Option.some.inj stepped
    case isFalse later =>
      split at stepped
      · cases stepped
        exact ⟨rfl, ⟨since, stage, not_lt.mp later⟩, rfl⟩
      · cases stepped
  case h_3 stage =>
    cases stepped
    refine ⟨rfl, .inr stage, ?_⟩
    rw [found, if_neg (by rw [stage]; nofun)]
  case h_4 stage =>
    split at stepped
    case h_1 freed =>
      cases stepped
      exact ⟨rfl, stage, freed⟩
    case h_2 refused =>
      cases stepped
      exact ⟨rfl, stage, refused, rfl⟩
  case h_5 => cases stepped
  case h_6 => cases stepped

/-! ## Exclusion -/

/-- The counts of the lock are those of the calls, no reader is inside with a writer, and no release
has raised. -/
structure Sound (pool : LockPool) : Prop where
  reads : pool.count reading = pool.shared.readers
  writes : pool.count writing = pool.shared.writerActive.toNat
  waits : pool.count waiting = pool.shared.writersWaiting
  apart : pool.shared.writerActive = true → pool.shared.readers = 0
  calm : ∀ call ∈ pool.calls, call.stage ≠ .raised

/-- A step of a call moves the counts of the lock by what the call moves. -/
structure Balanced (lock : RWLock) (call : LockCall) (after : RWLock) (moved : LockCall) :
    Prop where
  reads : after.readers + (reading call).toNat = lock.readers + (reading moved).toNat
  writes : after.writerActive.toNat + (writing call).toNat =
    lock.writerActive.toNat + (writing moved).toNat
  waits : after.writersWaiting + (waiting call).toNat =
    lock.writersWaiting + (waiting moved).toNat
  apart : after.writerActive = true → after.readers = 0
  calm : moved.stage ≠ .raised

theorem effect_balanced (side : moved.side = call.side) (effect : Effect lock call after moved)
    (apart : lock.writerActive = true → lock.readers = 0)
    (reads : reading call = true → 0 < lock.readers)
    (writes : writing call = true → lock.writerActive = true)
    (waits : waiting call = true → 0 < lock.writersWaiting) : Balanced lock call after moved := by
  obtain ⟨readers, writersWaiting, writerActive, writerPreference, notified⟩ := lock
  obtain ⟨callSide, stage, overdue⟩ := call
  obtain ⟨movedSide, movedStage, later⟩ := moved
  obtain rfl : movedSide = callSide := side
  match movedStage with
  | .asleep _ =>
    obtain ⟨rfl, awake, blocked, rfl⟩ := effect
    obtain rfl | ⟨since, rfl, -⟩ : stage = _ ∨ _ := awake
    all_goals
      cases movedSide
      all_goals constructor <;> simp_all [reading, writing, waiting, found, LockSide.announce]
  | .returned false =>
    obtain ⟨ends, rfl⟩ := effect
    obtain ⟨rfl | ⟨since, rfl, -⟩, -⟩ | rfl : (stage = _ ∨ _) ∧ _ ∨ stage = _ := ends
    all_goals
      cases movedSide
      all_goals
        constructor <;>
          simp_all [reading, writing, waiting, found, LockSide.announce, LockSide.giveUp] <;> omega
  | .inside =>
    obtain ⟨awake, free, rfl⟩ := effect
    obtain rfl | ⟨since, rfl, -⟩ : stage = _ ∨ _ := awake
    all_goals
      cases movedSide
      all_goals
        constructor <;>
          simp_all [reading, writing, waiting, found, LockSide.announce, LockSide.enter,
            LockSide.waits, RWLock.readWaits, RWLock.writeWaits] <;> omega
  | .expired =>
    obtain ⟨⟨since, asleep, late⟩, rfl⟩ := effect
    obtain rfl : stage = _ := asleep
    cases movedSide
    all_goals constructor <;> simp_all [reading, writing, waiting]
  | .returned true =>
    obtain ⟨inside, freed⟩ := effect
    obtain rfl : stage = _ := inside
    cases movedSide
    · simp only [LockSide.release, RWLock.releaseRead] at freed
      split at freed
      · cases freed
      · split at freed
        all_goals
          cases freed
          constructor <;> simp_all [reading, writing, waiting]
          omega
    · simp only [LockSide.release, RWLock.releaseWrite] at freed
      split at freed
      · cases freed
        constructor <;> simp_all [reading, writing, waiting]
      · cases freed
  | .raised =>
    obtain ⟨inside, refused, -⟩ := effect
    obtain rfl : stage = _ := inside
    cases movedSide
    · have positive : readers ≠ 0 := Nat.ne_of_gt (reads rfl)
      simp only [LockSide.release, RWLock.releaseRead, if_neg positive] at refused
      split at refused
      all_goals cases refused
    · have active : writerActive = true := writes rfl
      simp only [LockSide.release, RWLock.releaseWrite, if_pos active] at refused
      cases refused

theorem Sound.step (sound : Sound pool) {move : Move (LockSide × List Bool)}
    (stepped : step pool move = some next) : Sound next := by
  obtain ⟨reads, writes, waits, apart, calm⟩ := sound
  cases move with
  | start operation =>
    cases stepped
    refine ⟨?_, ?_, ?_, apart, fun call member => ?_⟩
    · rw [count_start, reads]
      simp [reading, LockCall.begin]
    · rw [count_start, writes]
      simp [writing, LockCall.begin]
    · rw [count_start, waits]
      cases operation.1 <;> simp [waiting, LockCall.begin]
    · obtain old | new := List.mem_append.mp member
      · exact calm call old
      · rw [List.mem_singleton.mp new]
        nofun
  | advance position =>
    obtain ⟨call, there, after, moved, taken, rfl⟩ := step_advance.mp stepped
    obtain ⟨side, effect⟩ := next_cases taken
    have balanced := effect_balanced side effect apart
      (fun passes => reads ▸ count_pos there passes)
      (fun passes => by
        have positive := writes ▸ count_pos there passes
        cases active : pool.shared.writerActive
        · rw [active] at positive
          cases positive
        · rfl)
      (fun passes => waits ▸ count_pos there passes)
    refine ⟨?_, ?_, ?_, balanced.apart, fun other member => ?_⟩
    · have moves := @count_advance _ _ pool position after call reading there moved
      have shared := balanced.reads
      show _ = after.readers
      omega
    · have moves := @count_advance _ _ pool position after call writing there moved
      have shared := balanced.writes
      show _ = after.writerActive.toNat
      omega
    · have moves := @count_advance _ _ pool position after call waiting there moved
      have shared := balanced.waits
      show _ = after.writersWaiting
      omega
    · obtain old | rfl := List.mem_or_eq_of_mem_set member
      · exact calm other old
      · exact balanced.calm

/-- A writer is inside alone: the counts of the lock are those of the calls, at most one call
writes, none reads beside it, and no release has raised. -/
def Exclusive (pool : LockPool) : Prop :=
  pool.count reading = pool.shared.readers ∧ pool.count waiting = pool.shared.writersWaiting ∧
    pool.count writing ≤ 1 ∧ (0 < pool.count writing → pool.count reading = 0) ∧
    ∀ call ∈ pool.calls, call.stage ≠ .raised

theorem Sound.exclusive (sound : Sound pool) : Exclusive pool := by
  obtain ⟨reads, writes, waits, apart, calm⟩ := sound
  refine ⟨reads, waits, ?_, fun some_ => ?_, calm⟩
  · rw [writes]
    exact Bool.toNat_le _
  · rw [reads]
    apply apart
    cases active : pool.shared.writerActive
    · rw [writes, active] at some_
      cases some_
    · rfl

/-- However the calls of any threads interleave and whichever deadlines pass, writers are inside
alone. -/
theorem exec_exclusive (writerPreference : Bool) (moves : List (Move (LockSide × List Bool))) :
    Always step Exclusive (start writerPreference) moves :=
  (always_of_preserved (fun _ _ _ sound stepped => sound.step stepped)
    (⟨rfl, rfl, rfl, nofun, nofun⟩ : Sound (start writerPreference)) moves).imp
      fun _ sound => sound.exclusive

/-! ## Wake-ups -/

/-- The wait of a writer can only time out. -/
def timesOut (lock : RWLock) (call : LockCall) : Bool :=
  match call.side, call.stage with
  | .write, .asleep since => decide (lock.notified ≤ since)
  | _, _ => false

/-- A move by which no wait of a writer times out. -/
def Patient (pool : LockPool) : Move (LockSide × List Bool) → Prop
  | .start _ => True
  | .advance position => ∀ call ∈ pool.calls[position]?, timesOut pool.shared call = false

instance (pool : LockPool) : DecidablePred (Patient pool)
  | .start _ => inferInstanceAs (Decidable True)
  | .advance _ => inferInstanceAs (Decidable (∀ call ∈ _, _ = _))

/-- A writer was notified and has not looked yet. -/
def Notified (pool : LockPool) : Prop :=
  ∃ call ∈ pool.calls, call.side = .write ∧
    ∃ since, call.stage = .asleep since ∧ since < pool.shared.notified

/-- A writer is inside, or one that was notified keeps readers out until it looks. -/
def Heralded (pool : LockPool) : Prop :=
  pool.shared.writerActive = true ∨
    (pool.shared.writerPreference = true ∧ pool.shared.readers = 0 ∧ Notified pool)

/-- A call that was not notified since it fell asleep has something to wait for. -/
structure Watched (pool : LockPool) : Prop where
  past : ∀ call ∈ pool.calls, ∀ since, call.stage = .asleep since → since ≤ pool.shared.notified
  patient : ∀ call ∈ pool.calls, call.side = .write → call.stage ≠ .expired
  writer : ∀ call ∈ pool.calls, call.side = .write →
    call.stage = .asleep pool.shared.notified → pool.shared.writeWaits = true
  reader : ∀ call ∈ pool.calls, call.side = .read →
    call.stage = .asleep pool.shared.notified → Heralded pool

theorem effect_notified (effect : Effect lock call after moved) :
    after.writerPreference = lock.writerPreference ∧
      (after.notified = lock.notified + 1 ∨ after.notified = lock.notified ∧
        (lock.writerActive = true → after.writerActive = true) ∧
        (0 < lock.readers → 0 < after.readers) ∧
        (lock.readers < after.readers → call.side = .read ∧ lock.readWaits = false)) := by
  have kept : (found lock call).writerPreference = lock.writerPreference ∧
      (found lock call).notified = lock.notified ∧
      (found lock call).writerActive = lock.writerActive ∧
      (found lock call).readers = lock.readers := by
    unfold found
    split
    · cases call.side <;> exact ⟨rfl, rfl, rfl, rfl⟩
    · exact ⟨rfl, rfl, rfl, rfl⟩
  unfold Effect at effect
  split at effect
  case h_1 => exact effect.elim
  case h_2 => simp [effect.2.2.2, kept]
  case h_3 => simp [effect.2]
  case h_4 =>
    obtain ⟨-, free, same⟩ := effect
    cases side : call.side
    · have waits : lock.readWaits = false := by rwa [side] at free
      simp [same, kept, side, LockSide.enter, waits]
    · simp [same, kept, side, LockSide.enter]
  case h_5 => cases side : call.side <;> simp [effect.2, kept, side, LockSide.giveUp]
  case h_6 =>
    obtain ⟨-, freed⟩ := effect
    cases side : call.side
    · simp only [side, LockSide.release, RWLock.releaseRead] at freed
      split at freed
      · cases freed
      · split at freed
        · cases freed
          exact ⟨rfl, .inl rfl⟩
        next more =>
          cases freed
          exact ⟨rfl, .inr ⟨rfl, id, fun _ => Nat.pos_of_ne_zero more,
            fun grown => absurd grown (by simp)⟩⟩
    · simp only [side, LockSide.release, RWLock.releaseWrite] at freed
      split at freed
      · cases freed
        exact ⟨rfl, .inl rfl⟩
      · cases freed
  case h_7 => simp [effect.2.2]

theorem effect_asleep (side : moved.side = call.side) (effect : Effect lock call after moved)
    {since : Nat} (asleep : moved.stage = .asleep since) :
    since = after.notified ∧ moved.side.waits after = true ∧
      (call.side = .read → after = lock) := by
  unfold Effect at effect
  simp only [asleep] at effect
  obtain ⟨rfl, -, waits, rfl⟩ := effect
  rw [side, found]
  split
  · rw [waits_announce]
    refine ⟨?_, waits, fun reads => ?_⟩
    · cases call.side <;> rfl
    · rw [reads]
      rfl
  · exact ⟨rfl, waits, fun _ => rfl⟩

theorem effect_writer (effect : Effect lock call after moved) (side : call.side = .write)
    {since : Nat} (stage : call.stage = .asleep since) (earlier : since < lock.notified)
    (free : lock.writeWaits = false) : after.writerActive = true := by
  unfold Effect at effect
  split at effect
  case h_1 => exact effect.elim
  case h_2 => cases free.symm.trans (side ▸ effect.2.2.1)
  case h_3 =>
    obtain ⟨⟨other, asleep, late⟩, -⟩ := effect
    cases stage.symm.trans asleep
    exact absurd earlier (not_lt.mpr late)
  case h_4 =>
    rw [effect.2.2, side]
    rfl
  case h_5 =>
    obtain ⟨⟨-, waits⟩ | expired, -⟩ := effect
    · cases free.symm.trans (side ▸ waits)
    · cases stage.symm.trans expired
  case h_6 => cases stage.symm.trans effect.1
  case h_7 => cases stage.symm.trans effect.1

theorem Heralded.advance {position : Nat} (heralded : Heralded pool) (sound : Sound pool)
    (there : pool.calls[position]? = some call) (effect : Effect pool.shared call after moved)
    (quiet : after.notified = pool.shared.notified) :
    Heralded ⟨after, pool.calls.set position moved⟩ := by
  obtain ⟨preference, changes⟩ := effect_notified effect
  obtain notifies | ⟨-, active, -, grows⟩ := changes
  · omega
  obtain inside | ⟨preferred, nobody, other, member, writes, since, asleep, earlier⟩ := heralded
  · exact .inl (active inside)
  by_cases inside : pool.shared.writerActive = true
  · exact .inl (active inside)
  have free : pool.shared.writeWaits = false := by simp [RWLock.writeWaits, nobody, inside]
  by_cases same : other = call
  · subst same
    exact .inl (effect_writer effect writes asleep earlier free)
  · have positive : 0 < pool.count waiting :=
      List.countP_pos_iff.mpr ⟨other, member, by simp [waiting, writes, asleep]⟩
    have blocked : pool.shared.readWaits = true := by
      rw [sound.waits] at positive
      simp [RWLock.readWaits, preferred, nobody, positive]
    refine .inr ⟨preference.trans preferred, ?_, other, mem_kept there member same moved, writes,
      since, asleep, quiet ▸ earlier⟩
    by_contra some_
    obtain ⟨-, unblocked⟩ := grows (by rw [nobody]; exact Nat.pos_of_ne_zero some_)
    cases blocked.symm.trans unblocked

theorem Watched.heralded (watched : Watched pool) (sound : Sound pool)
    (waits : pool.shared.readWaits = true) : Heralded pool := by
  by_cases inside : pool.shared.writerActive = true
  · exact .inl inside
  obtain ⟨⟨preferred, some_⟩, nobody⟩ : (pool.shared.writerPreference = true ∧
      0 < pool.shared.writersWaiting) ∧ pool.shared.readers = 0 := by
    simpa [RWLock.readWaits, inside] using waits
  rw [← sound.waits] at some_
  obtain ⟨other, member, passes⟩ := List.countP_pos_iff.mp some_
  obtain ⟨side, stage, overdue⟩ := other
  refine .inr ⟨preferred, nobody, _, member, ?_⟩
  match side, stage with
  | .write, .asleep since =>
    refine ⟨rfl, since, rfl, lt_of_le_of_ne (watched.past _ member since rfl) ?_⟩
    rintro rfl
    have blocked := watched.writer _ member rfl rfl
    simp [RWLock.writeWaits, nobody, inside] at blocked
  | .write, .expired => exact absurd rfl (watched.patient _ member rfl)

theorem Watched.step (watched : Watched pool) (sound : Sound pool)
    {move : Move (LockSide × List Bool)} (patient : Patient pool move)
    (stepped : step pool move = some next) : Watched next := by
  cases move with
  | start operation =>
    cases stepped
    have old : ∀ call ∈ pool.calls ++ [LockCall.begin operation], call.stage ≠ .entering →
        call ∈ pool.calls := by
      intro call member begun
      refine (List.mem_append.mp member).resolve_right fun new => begun ?_
      rw [List.mem_singleton.mp new]
      rfl
    refine ⟨fun call member since asleep => ?_, fun call member writes expired => ?_,
      fun call member writes asleep => ?_, fun call member reads asleep => ?_⟩
    · exact watched.past call (old call member (by rw [asleep]; nofun)) since asleep
    · exact watched.patient call (old call member (by rw [expired]; nofun)) writes expired
    · exact watched.writer call (old call member (by rw [asleep]; nofun)) writes asleep
    · obtain inside | ⟨preferred, nobody, other, there, notified⟩ :=
        watched.reader call (old call member (by rw [asleep]; nofun)) reads asleep
      · exact .inl inside
      · exact .inr ⟨preferred, nobody, other, List.mem_append_left _ there, notified⟩
  | advance position =>
    obtain ⟨call, there, after, moved, taken, rfl⟩ := step_advance.mp stepped
    obtain ⟨side, effect⟩ := next_cases taken
    obtain ⟨-, changes⟩ := effect_notified effect
    have later : pool.shared.notified ≤ after.notified := by omega
    refine ⟨fun other member since asleep => ?_, fun other member writes expired => ?_,
      fun other member writes asleep => ?_, fun other member reads asleep => ?_⟩
    · obtain old | rfl := List.mem_or_eq_of_mem_set member
      · exact (watched.past other old since asleep).trans later
      · exact (effect_asleep side effect asleep).1.le
    · obtain old | rfl := List.mem_or_eq_of_mem_set member
      · exact watched.patient other old writes expired
      · unfold Effect at effect
        simp only [expired] at effect
        obtain ⟨⟨since, asleep, late⟩, -⟩ := effect
        have waited := patient call there
        simp [timesOut, ← side, writes, asleep, late] at waited
    · obtain old | rfl := List.mem_or_eq_of_mem_set member
      · have past := watched.past other old _ asleep
        obtain notifies | ⟨quiet, active, some_, -⟩ := changes
        · exact absurd past (by simp [notifies])
        · have waits := watched.writer other old writes (quiet ▸ asleep)
          simp only [RWLock.writeWaits, Bool.or_eq_true, decide_eq_true_eq] at waits ⊢
          exact waits.imp some_ active
      · have waits := (effect_asleep side effect asleep).2.1
        rwa [writes] at waits
    · obtain old | rfl := List.mem_or_eq_of_mem_set member
      · have past := watched.past other old _ asleep
        have quiet : after.notified = pool.shared.notified := past.antisymm later
        exact (watched.reader other old reads (quiet ▸ asleep)).advance sound there effect quiet
      · obtain ⟨-, waits, same⟩ := effect_asleep side effect asleep
        rw [reads] at waits side
        obtain rfl : after = pool.shared := same side.symm
        exact (watched.heralded sound waits).advance sound there effect rfl

/-- No call that can go on is stuck. -/
theorem exists_step (member : call ∈ pool.calls)
    (ready : call.stage = .inside ∨ call.stage = .expired ∨ Awake pool.shared call) :
    ∃ position after, step pool (.advance position) = some after := by
  obtain ⟨position, there⟩ := List.mem_iff_getElem?.mp member
  have taken : ∃ after, pool.shared.next call = some after := by
    unfold RWLock.next
    obtain inside | expired | entering | ⟨since, asleep, earlier⟩ := ready
    · rw [inside]
      cases call.side.release pool.shared <;> exact ⟨_, rfl⟩
    · rw [expired]
      exact ⟨_, rfl⟩
    · rw [entering]
      exact ⟨_, rfl⟩
    · simp only [asleep, if_pos earlier]
      exact ⟨_, rfl⟩
  obtain ⟨⟨after, moved⟩, next⟩ := taken
  exact ⟨position, _, step_advance.mpr ⟨call, there, after, moved, next, rfl⟩⟩

/-- While a writer waits, some call can go on. -/
theorem Sound.exists_step (sound : Sound pool) (held : pool.shared.writeWaits = true) :
    ∃ position after, RwLocks.step pool (.advance position) = some after := by
  simp only [RWLock.writeWaits, Bool.or_eq_true, decide_eq_true_eq] at held
  obtain some_ | active := held
  · rw [← sound.reads] at some_
    obtain ⟨reader, member, passes⟩ := List.countP_pos_iff.mp some_
    exact RwLocks.exists_step member (.inl (of_decide_eq_true passes).2)
  · have positive : 0 < pool.count writing := by
      rw [sound.writes, active]
      exact Nat.one_pos
    obtain ⟨writer, member, passes⟩ := List.countP_pos_iff.mp positive
    exact RwLocks.exists_step member (.inl (of_decide_eq_true passes).2)

/-- Where no wait of a writer times out, no wake-up is lost: as long as a call has not returned,
some call has a next step. -/
theorem exec_progress {writerPreference : Bool} {moves : List (Move (LockSide × List Bool))}
    (patient : Guarded step Patient (start writerPreference) moves)
    (ran : exec step (start writerPreference) moves = some pool) (member : call ∈ pool.calls)
    (unfinished : ∀ acquired, call.stage ≠ .returned acquired) :
    ∃ position after, step pool (.advance position) = some after := by
  obtain ⟨sound, watched⟩ := @exec_guarded _ _ step (fun pool => Sound pool ∧ Watched pool) Patient
    (fun _ _ _ kept patient stepped => ⟨kept.1.step stepped, kept.2.step kept.1 patient stepped⟩)
    (start writerPreference) _ _ ⟨⟨rfl, rfl, rfl, nofun, nofun⟩, ⟨nofun, nofun, nofun, nofun⟩⟩
    patient ran
  cases stage : call.stage with
  | entering => exact exists_step member (.inr (.inr (.inl stage)))
  | inside => exact exists_step member (.inl stage)
  | raised => exact absurd stage (sound.calm call member)
  | returned acquired => exact absurd stage (unfinished acquired)
  | expired => exact exists_step member (.inr (.inl stage))
  | asleep since =>
    obtain earlier | same := (watched.past call member since stage).lt_or_eq
    · exact exists_step member (.inr (.inr (.inr ⟨since, stage, earlier⟩)))
    · rw [same] at stage
      cases side : call.side with
      | write => exact sound.exists_step (watched.writer call member side stage)
      | read =>
        obtain inside | ⟨-, -, writer, listed, -, awake⟩ := watched.reader call member side stage
        · exact sound.exists_step (by simp [RWLock.writeWaits, inside])
        · exact exists_step listed (.inr (.inr (.inr awake)))

/-- A writer that is inside lets the reader behind it go on. -/
theorem exec_progress_sample : ∃ position after, step
    ⟨⟨0, 0, true, true, 0⟩, [⟨.write, .inside, []⟩, ⟨.read, .asleep 0, []⟩]⟩
      (.advance position) = some after :=
  @exec_progress ⟨.read, .asleep 0, []⟩
    ⟨⟨0, 0, true, true, 0⟩, [⟨.write, .inside, []⟩, ⟨.read, .asleep 0, []⟩]⟩ true
    [.start (.write, []), .advance 0, .start (.read, []), .advance 1]
    (by decide) rfl (by decide) (by decide)

/-- After the wait of a writer timed out, a reader may sleep with the lock free. -/
example : (exec step (start true) [.start (.read, []), .advance 0, .start (.write, [false, true]),
    .advance 1, .advance 1, .advance 0, .start (.read, []), .advance 2, .advance 1]).map
      (fun pool => (pool.shared,
        [0, 1, 2].map fun position => (step pool (.advance position)).isSome)) =
    some (⟨0, 0, false, true, 1⟩, [false, false, false]) := by decide

end RwLocks

end TradingBot.Concurrency
