import TradingBot.Foundation.Run
import TradingBot.Persistence.WalManager

/-!
# Sequence numbers of the log

Whether the number an append returns identifies its record, over appends of any size and
re-openings of one directory. A rotation and a re-opening both restart the counter at zero, and
a rotation happens after the record was built with the number before it.
-/

open Bytes Run

namespace TradingBot.WalSequence

/-- What is done to one log directory. -/
inductive Operation where
  /-- A record is appended. -/
  | append (call : AppendCall)
  /-- The manager is dropped and a new one opens the directory. -/
  | reopen

/-- A manager with what its directory's history has returned. -/
structure History where
  /-- The manager that has the directory open. -/
  manager : WalManager
  /-- The numbers returned, oldest first, each with the header found where its record was
  written. -/
  returned : List (UInt64 × Option WalHeader)
  /-- Whether the log was rotated or re-opened since the last number was returned. -/
  restarted : Bool

/-- The history of an empty directory that has just been opened. -/
def opened : History where
  manager := .new [] []
  returned := []
  restarted := false

/-- One operation; a refused append has rotated the log. -/
def perform (crc : List UInt8 → UInt32) (history : History) : Operation → History
  | .append call =>
    match history.manager.append crc call with
    | (.ok number, next) => {
        manager := next
        returned := history.returned ++
          [(number, WalHeader.fromBytes (next.file.drop (next.writePosition - call.recordSize)))]
        restarted := false }
    | (.error _, next) => { history with manager := next, restarted := true }
  | .reopen => { history with
      manager := .new history.manager.file history.manager.archives
      restarted := true }

/-- Every operation can be performed. -/
def step (crc : List UInt8 → UInt32) (history : History) (operation : Operation) :
    Option History :=
  some (perform crc history operation)

/-- Every number returned is the one in the header of its record, and the numbers increase
strictly. -/
structure Identifies (history : History) : Prop where
  /-- The written header carries the returned number. -/
  written : ∀ entry ∈ history.returned, entry.2.map WalHeader.sequenceNum = some entry.1
  /-- No number is returned again or out of order. -/
  increasing : (history.returned.map Prod.fst).Pairwise (· < ·)

/-- An append whose record fits a file is the first one to return a number, or the log was
neither rotated nor re-opened since the last number and the record needs no rotation. -/
def Undisturbed (history : History) : Operation → Prop
  | .append call => call.recordSize ≤ maxWalSize →
      history.returned = [] ∨ history.restarted = false ∧
        history.manager.writePosition + call.recordSize ≤ maxWalSize
  | .reopen => True

/-- What holds of every directory history. -/
structure Consistent (history : History) : Prop where
  /-- The log is enabled. -/
  enabled : history.manager.enabled = true
  length : history.manager.file.length = maxWalSize
  /-- The write position is inside the file. -/
  inside : history.manager.writePosition ≤ maxWalSize
  /-- Every number drawn since the counter was restarted has taken a header. -/
  spent : history.manager.sequenceNum.toNat * WalHeader.size ≤ history.manager.writePosition
  /-- The counter is zero before the first number is returned. -/
  fresh : history.returned = [] → history.manager.sequenceNum = 0
  /-- The counter is zero after a rotation or a re-opening. -/
  zeroed : history.restarted = true → history.manager.sequenceNum = 0
  /-- Otherwise the counter stands one past the last number returned. -/
  next : history.restarted = false → ∀ entry, history.returned.getLast? = some entry →
    history.manager.sequenceNum.toNat = entry.1.toNat + 1

variable {crc : List UInt8 → UInt32}

theorem consistent_opened : Consistent opened where
  enabled := rfl
  length := by simp [opened, WalManager.new, WalManager.initMmap, WalManager.recoverSequenceNum]
  inside := Nat.zero_le _
  spent := Nat.zero_le _
  fresh _ := rfl
  zeroed _ := rfl
  next _ entry last := by cases last

/-! ## What one operation does -/

theorem header_written {file : List UInt8} {start : Nat} (record : WalRecord)
    (inside : start ≤ file.length) :
    WalHeader.fromBytes ((overwrite file start record.serialize).drop start) =
      some record.header := by
  rw [drop_overwrite inside, WalRecord.serialize, List.append_assoc]
  exact WalHeader.fromBytes_toBytes _ _

theorem perform_fits {history : History} {call : AppendCall} (consistent : Consistent history)
    (fits : history.manager.writePosition + call.recordSize ≤ maxWalSize) :
    perform crc history (.append call) = {
      manager := { history.manager with
        file := overwrite history.manager.file history.manager.writePosition
          (call.sealedRecord crc history.manager.sequenceNum).serialize
        writePosition := history.manager.writePosition + call.recordSize
        sequenceNum := history.manager.sequenceNum + 1 }
      returned := history.returned ++ [(history.manager.sequenceNum,
        some (call.sealedRecord crc history.manager.sequenceNum).header)]
      restarted := false } := by
  have place : history.manager.writePosition ≤ history.manager.file.length := by
    rw [consistent.length]
    exact consistent.inside
  have header := header_written (call.sealedRecord crc history.manager.sequenceNum) place
  simp only [perform, WalManager.append_fits consistent.enabled consistent.length fits,
    Nat.add_sub_cancel, header]

variable {call : AppendCall}

theorem perform_rotates {history : History} (consistent : Consistent history)
    (full : maxWalSize < history.manager.writePosition + call.recordSize)
    (fits : call.recordSize ≤ maxWalSize) : perform crc history (.append call) = {
      manager := { history.manager.rotate (call.timestampNs.toNat / 1000000000) with
        file := overwrite (List.replicate maxWalSize 0) 0
          (call.sealedRecord crc history.manager.sequenceNum).serialize
        writePosition := call.recordSize
        sequenceNum := 1 }
      returned := history.returned ++
        [(0, some (call.sealedRecord crc history.manager.sequenceNum).header)]
      restarted := false } := by
  have place : 0 ≤ (List.replicate maxWalSize (0 : UInt8)).length := Nat.zero_le _
  have header := header_written (call.sealedRecord crc history.manager.sequenceNum) place
  simp only [perform, WalManager.append_rotates consistent.enabled full fits, Nat.sub_self, header]

theorem perform_refused {history : History} (consistent : Consistent history)
    (oversized : maxWalSize < call.recordSize) : perform crc history (.append call) = { history with
      manager := history.manager.rotate (call.timestampNs.toNat / 1000000000)
      restarted := true } := by
  simp only [perform, WalManager.append_refused consistent.enabled oversized]

theorem rotate_length (manager : WalManager) (second : Nat) :
    (manager.rotate second).file.length = maxWalSize := by
  simp [WalManager.rotate, WalManager.initMmap]

theorem counter_succ {sequenceNum : UInt64} {position : Nat}
    (spent : sequenceNum.toNat * WalHeader.size ≤ position) (inside : position ≤ maxWalSize) :
    (sequenceNum + 1).toNat = sequenceNum.toNat + 1 := by
  have small : sequenceNum.toNat + 1 < 2 ^ 64 := by
    unfold WalHeader.size at spent
    unfold maxWalSize at inside
    omega
  rw [UInt64.toNat_add, UInt64.toNat_one]
  exact Nat.mod_eq_of_lt small

theorem consistent_restarted {manager : WalManager} (enabled : manager.enabled = true)
    (length : manager.file.length = maxWalSize) (inside : manager.writePosition ≤ maxWalSize)
    (zero : manager.sequenceNum = 0) (returned : List (UInt64 × Option WalHeader)) :
    Consistent ⟨manager, returned, true⟩ where
  enabled := enabled
  length := length
  inside := inside
  spent := by
    rw [zero, UInt64.toNat_zero, Nat.zero_mul]
    exact Nat.zero_le _
  fresh _ := zero
  zeroed _ := zero
  next restarted := by cases restarted

theorem consistent_returned {manager : WalManager} (enabled : manager.enabled = true)
    (length : manager.file.length = maxWalSize) (inside : manager.writePosition ≤ maxWalSize)
    (spent : manager.sequenceNum.toNat * WalHeader.size ≤ manager.writePosition)
    {number : UInt64} (succ : manager.sequenceNum.toNat = number.toNat + 1)
    (returned : List (UInt64 × Option WalHeader)) (header : Option WalHeader) :
    Consistent ⟨manager, returned ++ [(number, header)], false⟩ where
  enabled := enabled
  length := length
  inside := inside
  spent := spent
  fresh none := by simp at none
  zeroed restarted := by cases restarted
  next _ entry last := by
    rw [List.getLast?_concat] at last
    cases last
    exact succ

theorem written_length {file : List UInt8} {start : Nat} {number : UInt64}
    (length : file.length = maxWalSize) (fits : start + call.recordSize ≤ maxWalSize) :
    (overwrite file start (call.sealedRecord crc number).serialize).length = maxWalSize := by
  have room : start + (call.sealedRecord crc number).serialize.length ≤ file.length := by
    rw [AppendCall.sealedRecord_length, length]
    exact fits
  exact (overwrite_length room).trans length

theorem consistent_fits {history : History} (consistent : Consistent history)
    (fits : history.manager.writePosition + call.recordSize ≤ maxWalSize) :
    Consistent (perform crc history (.append call)) := by
  have succ := counter_succ consistent.spent consistent.inside
  rw [perform_fits consistent fits]
  apply consistent_returned
  · exact consistent.enabled
  · exact written_length consistent.length fits
  · exact fits
  · have spent := consistent.spent
    simp only [succ, AppendCall.recordSize, Nat.succ_mul]
    omega
  · exact succ

theorem consistent_rotates {history : History} (consistent : Consistent history)
    (full : maxWalSize < history.manager.writePosition + call.recordSize)
    (fits : call.recordSize ≤ maxWalSize) : Consistent (perform crc history (.append call)) := by
  rw [perform_rotates consistent full fits]
  apply consistent_returned
  · exact consistent.enabled
  · exact written_length List.length_replicate (by rw [Nat.zero_add]; exact fits)
  · exact fits
  · simp only [UInt64.toNat_one, AppendCall.recordSize]
    omega
  · rfl

theorem perform_consistent {history : History} {operation : Operation}
    (consistent : Consistent history) : Consistent (perform crc history operation) := by
  cases operation with
  | reopen =>
    exact consistent_restarted rfl (setLen_length _ _) (Nat.le_of_eq consistent.length) rfl _
  | append call =>
    by_cases fits : history.manager.writePosition + call.recordSize ≤ maxWalSize
    · exact consistent_fits consistent fits
    · have full := Nat.lt_of_not_le fits
      by_cases sized : call.recordSize ≤ maxWalSize
      · exact consistent_rotates consistent full sized
      · rw [perform_refused consistent (Nat.lt_of_not_le sized)]
        apply consistent_restarted
        · exact consistent.enabled
        · exact rotate_length _ _
        · exact Nat.zero_le _
        · rfl

/-! ## When a returned number identifies its record -/

theorem identifies_concat {manager next : WalManager} {returned : List (UInt64 × Option WalHeader)}
    {restarted later : Bool} (identifies : Identifies ⟨manager, returned, restarted⟩)
    (number : UInt64) (header : WalHeader) :
    Identifies ⟨next, returned ++ [(number, some header)], later⟩ ↔
      header.sequenceNum = number ∧ ∀ entry ∈ returned, entry.1 < number := by
  constructor
  · intro kept
    have carried := kept.written (number, some header) (by simp)
    have ordered := kept.increasing
    rw [List.map_append, List.pairwise_append] at ordered
    refine ⟨Option.some.inj carried, fun entry member => ?_⟩
    exact ordered.2.2 entry.1 (List.mem_map_of_mem member) number (by simp)
  · intro fresh
    constructor
    · intro entry member
      cases List.mem_append.mp member with
      | inl old => exact identifies.written entry old
      | inr new =>
        rw [List.mem_singleton.mp new]
        exact congrArg some fresh.1
    · rw [List.map_append, List.pairwise_append]
      refine ⟨identifies.increasing, List.pairwise_singleton _ _, ?_⟩
      intro first firstMember second secondMember
      have last : second = number := by simpa using secondMember
      obtain ⟨entry, member, same⟩ := List.mem_map.mp firstMember
      rw [last, ← same]
      exact fresh.2 entry member

theorem le_last {returned : List (UInt64 × Option WalHeader)}
    {entry last : UInt64 × Option WalHeader}
    (increasing : (returned.map Prod.fst).Pairwise (· < ·)) (member : entry ∈ returned)
    (final : returned.getLast? = some last) : entry.1 ≤ last.1 := by
  obtain ⟨before, rfl⟩ := List.getLast?_eq_some_iff.mp final
  rw [List.map_append, List.pairwise_append] at increasing
  cases List.mem_append.mp member with
  | inl old =>
    exact UInt64.le_of_lt (increasing.2.2 entry.1 (List.mem_map_of_mem old) last.1 (by simp))
  | inr new =>
    rw [List.mem_singleton.mp new]
    exact UInt64.le_refl _

theorem counter_exceeds {history : History} (consistent : Consistent history)
    (identifies : Identifies history) :
    (∀ entry ∈ history.returned, entry.1 < history.manager.sequenceNum) ↔
      history.returned = [] ∨ history.restarted = false := by
  constructor
  · intro exceeds
    by_cases none : history.returned = []
    · exact .inl none
    · obtain ⟨entry, member⟩ := List.exists_mem_of_ne_nil _ none
      cases restarted : history.restarted with
      | false => exact .inr rfl
      | true =>
        have below := exceeds entry member
        rw [consistent.zeroed restarted] at below
        exact absurd below (UInt64.not_lt_zero)
  · intro undisturbed entry member
    cases undisturbed with
    | inl none =>
      rw [none] at member
      cases member
    | inr running =>
      have some_ : history.returned ≠ [] := List.ne_nil_of_mem member
      have final := List.getLast?_eq_some_getLast some_
      have atMost := le_last identifies.increasing member final
      have next := consistent.next running _ final
      rw [UInt64.le_iff_toNat_le] at atMost
      rw [UInt64.lt_iff_toNat_lt]
      omega

theorem zero_exceeds (returned : List (UInt64 × Option WalHeader)) :
    (∀ entry ∈ returned, entry.1 < 0) ↔ returned = [] := by
  constructor
  · intro exceeds
    cases returned with
    | nil => rfl
    | cons entry rest => exact absurd (exceeds entry List.mem_cons_self) UInt64.not_lt_zero
  · intro none entry member
    rw [none] at member
    cases member

theorem perform_identifies {history : History} {operation : Operation}
    (consistent : Consistent history) (identifies : Identifies history) :
    Identifies (perform crc history operation) ↔ Undisturbed history operation := by
  cases operation with
  | reopen => exact ⟨fun _ => trivial, fun _ => ⟨identifies.written, identifies.increasing⟩⟩
  | append call =>
    by_cases fits : history.manager.writePosition + call.recordSize ≤ maxWalSize
    · have sized : call.recordSize ≤ maxWalSize := by omega
      rw [perform_fits consistent fits, identifies_concat identifies,
        counter_exceeds consistent identifies]
      constructor
      · intro fresh _
        exact fresh.2.imp_right fun running => ⟨running, fits⟩
      · intro undisturbed
        exact ⟨rfl, (undisturbed sized).imp_right And.left⟩
    · have full := Nat.lt_of_not_le fits
      by_cases sized : call.recordSize ≤ maxWalSize
      · rw [perform_rotates consistent full sized, identifies_concat identifies, zero_exceeds]
        constructor
        · intro fresh _
          exact .inl fresh.2
        · intro undisturbed
          have none : history.returned = [] :=
            (undisturbed sized).resolve_right fun running => fits running.2
          exact ⟨consistent.fresh none, none⟩
      · rw [perform_refused consistent (Nat.lt_of_not_le sized)]
        exact ⟨fun _ large => absurd large sized,
          fun _ => ⟨identifies.written, identifies.increasing⟩⟩

/-- Along any operations on an empty directory, every number returned identifies its record
and exceeds the ones before it if and only if no rotation and no re-opening lies between two
numbers returned. -/
theorem numbers_identify_records (crc : List UInt8 → UInt32) (operations : List Operation) :
    Always (step crc) Identifies opened operations ↔
      Guarded (step crc) Undisturbed opened operations := by
  refine @always_iff_guarded _ _ (step crc) Consistent Identifies Undisturbed ?_ ?_ _ ?_ ?_ _
  · intro history operation next consistent stepped
    cases stepped
    exact perform_consistent consistent
  · intro history operation next consistent identifies stepped
    cases stepped
    exact perform_identifies consistent identifies
  · exact consistent_opened
  · exact {
      written := fun entry member => nomatch member
      increasing := List.Pairwise.nil }

/-- An order logged without a payload. -/
def emptyOrder : AppendCall where
  recordType := .orderNew
  payload := []
  timestampNs := 1700000000000000000
  padding := 0

/-- Two appends around a re-opening return the number zero twice. -/
theorem reopened_log_repeats_zero :
    ¬Always (step WalRecord.crc32) Identifies opened
      [.append emptyOrder, .reopen, .append emptyOrder] := by
  intro always
  have first := always.2 _ rfl
  have second := first.2 _ rfl
  have third := second.2 _ rfl
  have logged := @perform_fits WalRecord.crc32 opened emptyOrder consistent_opened (by decide)
  have consistent : Consistent (perform WalRecord.crc32
      (perform WalRecord.crc32 opened (.append emptyOrder)) .reopen) :=
    perform_consistent (perform_consistent consistent_opened)
  have undisturbed := (perform_identifies consistent second.1).mp third (by decide)
  cases undisturbed with
  | inl none =>
    rw [logged] at none
    simp [perform] at none
  | inr running => exact Bool.noConfusion running.1

end TradingBot.WalSequence
