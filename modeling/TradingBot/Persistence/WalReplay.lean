import Mathlib.Data.UInt
import TradingBot.Persistence.WalManager

/-!
# Reading the log back

What `replay_from` returns after appends that fit one file. The loop reads record after record
and then meets the zeros the file is extended with. Two defects stand between the appended
records and the returned ones: `verify_checksum` adds the zeroed header to the bytes that
`compute_checksum` covers, and 32 zero bytes parse as a record with sequence number zero.
-/

open Bytes

namespace TradingBot.WalReplay

/-- The records a list of calls builds, numbered from `sequenceNum` on. -/
def built (sequenceNum : UInt64) : List AppendCall → List WalRecord
  | [] => []
  | call :: rest => call.record sequenceNum :: built (sequenceNum + 1) rest

/-- The records a list of appends writes on a fresh log, each with its checksum. -/
def appended (crc : List UInt8 → UInt32) (calls : List AppendCall) : List WalRecord :=
  (built 0 calls).map (WalRecord.computeChecksum crc)

/-- The bytes a list of calls needs in the file. -/
def totalSize (calls : List AppendCall) : Nat := (calls.map AppendCall.recordSize).sum

/-- The checksum over a record equals the one over the record, sealed with it, followed by its
unsealed header. -/
def ChecksumsAgree (crc : List UInt8 → UInt32) (record : WalRecord) : Prop :=
  let stored := crc (record.header.toBytes ++ record.payload)
  crc ({ record.header with checksum := stored }.toBytes ++ record.payload ++
    record.header.toBytes) = stored

instance (crc : List UInt8 → UInt32) (record : WalRecord) :
    Decidable (ChecksumsAgree crc record) :=
  inferInstanceAs (Decidable (_ = _))

variable {crc : List UInt8 → UInt32}

theorem verify_sealed {record : WalRecord} (unsealed : record.header.checksum = 0) :
    (record.computeChecksum crc).verifyChecksum crc = true ↔ ChecksumsAgree crc record := by
  have zeroed : { record.header with checksum := 0 } = record.header := by
    rw [← unsealed]
  simp only [WalRecord.verifyChecksum, WalRecord.computeChecksum, ChecksumsAgree, beq_iff_eq,
    zeroed]

/-! ## What the appends leave in the file -/

/-- The file of an open log: records, then zeros up to the maximal size. -/
structure Holds (manager : WalManager) (written : List UInt8) : Prop where
  enabled : manager.enabled = true
  /-- The next record goes right after the written bytes. -/
  position : manager.writePosition = written.length
  /-- The written bytes fit. -/
  fits : written.length ≤ maxWalSize
  /-- Zeros follow the written bytes. -/
  file : manager.file = written ++ List.replicate (maxWalSize - written.length) 0

theorem holds_new : Holds (WalManager.new [] []) [] where
  enabled := rfl
  position := rfl
  fits := Nat.zero_le _
  file := by simp [WalManager.new, WalManager.initMmap, WalManager.recoverSequenceNum]

theorem append_holds {manager : WalManager} {written : List UInt8} {call : AppendCall}
    (holds : Holds manager written) (fits : written.length + call.recordSize ≤ maxWalSize) :
    (manager.append crc call).2.sequenceNum = manager.sequenceNum + 1 ∧
      Holds (manager.append crc call).2
        (written ++ (call.sealedRecord crc manager.sequenceNum).serialize) := by
  have fileLength : manager.file.length = maxWalSize := by
    rw [holds.file, List.length_append, List.length_replicate]
    exact Nat.add_sub_cancel' holds.fits
  have room : manager.writePosition + call.recordSize ≤ maxWalSize := by
    rw [holds.position]
    exact fits
  rw [WalManager.append_fits holds.enabled fileLength room]
  refine ⟨rfl, ?_⟩
  exact {
    enabled := holds.enabled
    position := by
      simp only [holds.position, List.length_append, AppendCall.sealedRecord_length]
    fits := by
      rw [List.length_append, AppendCall.sealedRecord_length]
      exact fits
    file := by
      simp only [holds.file, holds.position, overwrite_append, List.drop_replicate,
        List.length_append, AppendCall.sealedRecord_length, Nat.sub_sub] }

theorem appendAll_holds {manager : WalManager} {written : List UInt8} {calls : List AppendCall}
    (holds : Holds manager written) (fits : written.length + totalSize calls ≤ maxWalSize) :
    Holds (manager.appendAll crc calls).2 (written ++
      ((built manager.sequenceNum calls).map (WalRecord.computeChecksum crc)).flatMap
        WalRecord.serialize) := by
  induction calls generalizing manager written with
  | nil => simpa [WalManager.appendAll, built] using holds
  | cons call rest ih =>
    have size : totalSize (call :: rest) = call.recordSize + totalSize rest := rfl
    have step := @append_holds crc manager written call holds (by omega)
    have length := AppendCall.sealedRecord_length crc call manager.sequenceNum
    have later := ih step.2 (by rw [List.length_append, length]; omega)
    rw [step.1, List.append_assoc] at later
    exact later

/-! ## What the loop reads -/

/-- The payload size in the header is the size of the payload. -/
def Sized (record : WalRecord) : Prop :=
  record.header.payloadSize.toNat = record.payload.length

/-- One round of the loop on a record that stands at the front. -/
theorem replayLoop_record {record : WalRecord} (sized : Sized record) (fromSeq : UInt64)
    (rest : List UInt8) (records : List WalRecord) :
    WalManager.replayLoop crc fromSeq (record.serialize ++ rest) records =
      if record.header.sequenceNum < fromSeq then
        WalManager.replayLoop crc fromSeq rest records
      else if record.verifyChecksum crc then
        WalManager.replayLoop crc fromSeq rest (records ++ [record])
      else
        .error s!"Checksum verification failed at seq {record.header.sequenceNum}" := by
  have enough : ¬(record.serialize ++ rest).length < WalHeader.size := by
    rw [List.length_append, WalRecord.serialize_length]
    omega
  have parsed : WalHeader.fromBytes (record.serialize ++ rest) = some record.header := by
    rw [WalRecord.serialize, List.append_assoc]
    exact WalHeader.fromBytes_toBytes _ _
  have behind : (record.serialize ++ rest).drop WalHeader.size = record.payload ++ rest := by
    rw [WalRecord.serialize, List.append_assoc, ← record.header.toBytes_length]
    exact List.drop_left
  have whole : ¬(record.payload ++ rest).length < record.header.payloadSize.toNat := by
    rw [sized, List.length_append]
    omega
  have payload :
      (record.payload ++ rest).take record.header.payloadSize.toNat = record.payload := by
    rw [sized]
    exact List.take_left
  have next : (record.payload ++ rest).drop record.header.payloadSize.toNat = rest := by
    rw [sized]
    exact List.drop_left
  rw [WalManager.replayLoop, if_neg enough]
  simp only [parsed, behind, if_neg whole, payload, next, Bool.not_eq_true']
  cases record.verifyChecksum crc <;> rfl

theorem replayLoop_end {bytes : List UInt8} (few : bytes.length < WalHeader.size)
    (fromSeq : UInt64) (records : List WalRecord) :
    WalManager.replayLoop crc fromSeq bytes records = .ok records := by
  rw [WalManager.replayLoop, if_pos few]

variable {fromSeq : UInt64} {records : List WalRecord}

theorem replayLoop_keeps {bytes : List UInt8} {result : List WalRecord}
    (read : WalManager.replayLoop crc fromSeq bytes records = .ok result) : records <+: result := by
  fun_induction WalManager.replayLoop crc fromSeq bytes records with
  | case1 =>
    cases read
    exact List.prefix_refl _
  | case2 => cases read
  | case3 => cases read
  | case4 bytes records _ header _ rest payloadSize _ _ ih => exact ih read
  | case5 => cases read
  | case6 => cases read
  | case7 bytes records _ header _ rest payloadSize _ _ record _ ih =>
    exact (List.prefix_append records [record]).trans (ih read)

/-! ## The zeros behind the records -/

/-- The record that 32 zero bytes parse as. -/
def zeroRecord : WalRecord where
  header := {
    recordType := 0
    version := 0
    flags := 0
    padding := 0
    timestampNs := 0
    sequenceNum := 0
    payloadSize := 0
    checksum := 0 }
  payload := []

theorem zeroRecord_sized : Sized zeroRecord := rfl

theorem zeros_start {count : Nat} (enough : WalHeader.size ≤ count) :
    List.replicate count (0 : UInt8) =
      zeroRecord.serialize ++ List.replicate (count - WalHeader.size) 0 := by
  have front : zeroRecord.serialize = List.replicate WalHeader.size 0 := by decide
  rw [front, List.replicate_append_replicate, Nat.add_sub_cancel' enough]

theorem replayLoop_zeros (later : 0 < fromSeq) (count : Nat) (records : List WalRecord) :
    WalManager.replayLoop crc fromSeq (List.replicate count 0) records = .ok records := by
  induction count using Nat.strong_induction_on with
  | _ count ih =>
    by_cases few : count < WalHeader.size
    · exact replayLoop_end (by simpa using few) fromSeq records
    · have enough : WalHeader.size ≤ count := Nat.le_of_not_lt few
      have smaller : count - WalHeader.size < count := by
        unfold WalHeader.size at *
        omega
      have skipped : zeroRecord.header.sequenceNum < fromSeq := later
      rw [zeros_start enough, replayLoop_record zeroRecord_sized, if_pos skipped]
      exact ih _ smaller

theorem replayLoop_zero_tail {count : Nat} (enough : WalHeader.size ≤ count)
    (records : List WalRecord) :
    WalManager.replayLoop crc 0 (List.replicate count 0) records ≠ .ok records := by
  intro read
  have kept : ¬zeroRecord.header.sequenceNum < 0 := by decide
  rw [zeros_start enough, replayLoop_record zeroRecord_sized, if_neg kept] at read
  by_cases passes : zeroRecord.verifyChecksum crc = true
  · rw [if_pos passes] at read
    have longer := (replayLoop_keeps read).length_le
    rw [List.length_append, List.length_singleton] at longer
    omega
  · rw [if_neg passes] at read
    cases read

/-! ## The whole file -/

theorem replayLoop_records (sized : ∀ record ∈ records, Sized record)
    (passes : ∀ record ∈ records, fromSeq ≤ record.header.sequenceNum →
      record.verifyChecksum crc = true)
    (rest : List UInt8) (before : List WalRecord) :
    WalManager.replayLoop crc fromSeq (records.flatMap WalRecord.serialize ++ rest) before =
      WalManager.replayLoop crc fromSeq rest
        (before ++ records.filter fun record => fromSeq ≤ record.header.sequenceNum) := by
  induction records generalizing before with
  | nil => simp
  | cons record later ih =>
    have ih := ih (fun other member => sized other (List.mem_cons_of_mem _ member))
      (fun other member => passes other (List.mem_cons_of_mem _ member))
    rw [List.flatMap_cons, List.append_assoc,
      replayLoop_record (sized record List.mem_cons_self)]
    by_cases old : record.header.sequenceNum < fromSeq
    · have dropped : ¬fromSeq ≤ record.header.sequenceNum := UInt64.not_le.mpr old
      rw [if_pos old, ih, List.filter_cons, if_neg (by simpa using dropped)]
    · have kept : fromSeq ≤ record.header.sequenceNum := UInt64.not_lt.mp old
      rw [if_neg old, if_pos (passes record List.mem_cons_self kept), ih, List.filter_cons,
        if_pos (by simpa using kept), List.append_assoc, List.singleton_append]

theorem replayLoop_verified {rest : List UInt8} {before result : List WalRecord}
    (sized : ∀ record ∈ records, Sized record)
    (read : WalManager.replayLoop crc fromSeq (records.flatMap WalRecord.serialize ++ rest) before =
      .ok result) :
    ∀ record ∈ records, fromSeq ≤ record.header.sequenceNum →
      record.verifyChecksum crc = true := by
  induction records generalizing before with
  | nil => intro record member; cases member
  | cons record later ih =>
    have laterSized : ∀ other ∈ later, Sized other := fun other member =>
      sized other (List.mem_cons_of_mem _ member)
    rw [List.flatMap_cons, List.append_assoc,
      replayLoop_record (sized record List.mem_cons_self)] at read
    intro other member from_
    by_cases old : record.header.sequenceNum < fromSeq
    · rw [if_pos old] at read
      cases member with
      | head => exact absurd from_ (UInt64.not_le.mpr old)
      | tail _ member => exact ih laterSized read other member from_
    · rw [if_neg old] at read
      by_cases verified : record.verifyChecksum crc = true
      · rw [if_pos verified] at read
        cases member with
        | head => exact verified
        | tail _ member => exact ih laterSized read other member from_
      · rw [if_neg verified] at read
        cases read

theorem built_sized {calls : List AppendCall} (fits : totalSize calls ≤ maxWalSize)
    (sequenceNum : UInt64) : ∀ record ∈ built sequenceNum calls, Sized record := by
  induction calls generalizing sequenceNum with
  | nil => intro record member; cases member
  | cons call rest ih =>
    have size : totalSize (call :: rest) = call.recordSize + totalSize rest := rfl
    intro record member
    cases member with
    | head =>
      have small : call.payload.length < 2 ^ 32 := by
        have bound : call.recordSize ≤ maxWalSize := by omega
        unfold AppendCall.recordSize maxWalSize at bound
        omega
      exact UInt32.toNat_ofNat_of_lt' small
    | tail _ member => exact ih (by omega) _ record member

theorem built_unsealed {calls : List AppendCall} {sequenceNum : UInt64} {record : WalRecord}
    (member : record ∈ built sequenceNum calls) : record.header.checksum = 0 := by
  induction calls generalizing sequenceNum with
  | nil => cases member
  | cons call rest ih =>
    cases member with
    | head => rfl
    | tail _ member => exact ih member

theorem built_length (calls : List AppendCall) (sequenceNum : UInt64) :
    (((built sequenceNum calls).map (WalRecord.computeChecksum crc)).flatMap
      WalRecord.serialize).length = totalSize calls := by
  induction calls generalizing sequenceNum with
  | nil => rfl
  | cons call rest ih =>
    have length := AppendCall.sealedRecord_length crc call sequenceNum
    have size : totalSize (call :: rest) = call.recordSize + totalSize rest := rfl
    simp only [built, List.map_cons, List.flatMap_cons, List.length_append, ih, size]
    exact congrArg (· + totalSize rest) length

theorem file_of_appends {calls : List AppendCall} (fits : totalSize calls ≤ maxWalSize) :
    ((WalManager.new [] []).appendAll crc calls).2.file =
      (appended crc calls).flatMap WalRecord.serialize ++
        List.replicate (maxWalSize - totalSize calls) 0 := by
  have holds := @appendAll_holds crc _ _ calls holds_new (by simpa using fits)
  have file := holds.file
  rw [List.nil_append, built_length] at file
  exact file

/-- For appends that fit one file, `replay_from` returns exactly the appended records from a
number on if and only if the two checksums agree on each of these records and, for the number
zero, fewer zeros than a header are left behind the records. -/
theorem replay_returns_appended (crc : List UInt8 → UInt32) (calls : List AppendCall)
    (fits : totalSize calls ≤ maxWalSize) (fromSeq : UInt64) :
    ((WalManager.new [] []).appendAll crc calls).2.replayFrom crc fromSeq =
        .ok ((appended crc calls).filter fun record => fromSeq ≤ record.header.sequenceNum) ↔
      (∀ record ∈ built 0 calls, fromSeq ≤ record.header.sequenceNum →
        ChecksumsAgree crc record) ∧
      (fromSeq = 0 → maxWalSize - totalSize calls < WalHeader.size) := by
  have sized : ∀ record ∈ appended crc calls, Sized record :=
    List.forall_mem_map.mpr (built_sized fits 0)
  have verified : (∀ record ∈ appended crc calls, fromSeq ≤ record.header.sequenceNum →
        record.verifyChecksum crc = true) ↔
      ∀ record ∈ built 0 calls, fromSeq ≤ record.header.sequenceNum →
        ChecksumsAgree crc record := by
    rw [appended, List.forall_mem_map]
    exact forall₃_congr fun record member _ => verify_sealed (built_unsealed member)
  rw [WalManager.replayFrom, file_of_appends fits, ← verified]
  constructor
  · intro read
    have passes := replayLoop_verified sized read
    refine ⟨passes, fun zero => ?_⟩
    rw [replayLoop_records sized passes, List.nil_append] at read
    apply Nat.lt_of_not_le
    intro enough
    subst zero
    exact replayLoop_zero_tail enough _ read
  · intro condition
    rw [replayLoop_records sized condition.1, List.nil_append]
    by_cases zero : fromSeq = 0
    · exact replayLoop_end (by simpa using condition.2 zero) fromSeq _
    · have later : 0 < fromSeq := UInt64.pos_iff_ne_zero.mpr zero
      exact replayLoop_zeros later _ _

/-- An order logged first on a fresh log. -/
def orderLogged : AppendCall where
  recordType := .orderNew
  payload := [1]
  timestampNs := 1700000000000000000
  padding := 0

/-- Where all checksums are one, the second of two orders is read back from its number on. -/
theorem replay_returns_appended_second :
    ((WalManager.new [] []).appendAll (fun _ => 7) [orderLogged, orderLogged]).2.replayFrom
      (fun _ => 7) 1 = .ok [orderLogged.sealedRecord (fun _ => 7) 1] :=
  (replay_returns_appended (fun _ => 7) [orderLogged, orderLogged] (by decide) 1).mpr
    ⟨fun _ _ _ => rfl, by decide⟩

/-- The record of the logged order has this checksum. -/
theorem orderLogged_sealed : orderLogged.sealedRecord WalRecord.crc32 0 =
    { orderLogged.record 0 with
      header := { (orderLogged.record 0).header with checksum := 4230714893 } } := by
  decide +kernel

/-- One logged order is not read back: its checksum fails verification. -/
theorem replay_refuses_logged_order :
    ((WalManager.new [] []).appendAll WalRecord.crc32 [orderLogged]).2.replayFrom
      WalRecord.crc32 0 = .error "Checksum verification failed at seq 0" := by
  have fits : totalSize [orderLogged] ≤ maxWalSize := by decide
  have single : (appended WalRecord.crc32 [orderLogged]).flatMap WalRecord.serialize =
      (orderLogged.sealedRecord WalRecord.crc32 0).serialize := List.append_nil _
  have sized : Sized (orderLogged.sealedRecord WalRecord.crc32 0) := rfl
  have kept : ¬(orderLogged.sealedRecord WalRecord.crc32 0).header.sequenceNum < 0 := by decide
  have refused : ¬(orderLogged.sealedRecord WalRecord.crc32 0).verifyChecksum WalRecord.crc32 =
      true := by
    have register : (orderLogged.sealedRecord WalRecord.crc32 0).serialize.foldl
        WalRecord.crcByte 0xFFFFFFFF = 4018017419 := by
      rw [orderLogged_sealed]
      decide +kernel
    have checked : WalRecord.crc32 ((orderLogged.sealedRecord WalRecord.crc32 0).serialize ++
        (orderLogged.record 0).header.toBytes) =
          (orderLogged.record 0).header.toBytes.foldl WalRecord.crcByte 4018017419 ^^^ 0xFFFFFFFF :=
      WalRecord.crc32_append register
    rw [WalRecord.verifyChecksum, beq_iff_eq]
    intro same
    have mismatch : (orderLogged.record 0).header.toBytes.foldl WalRecord.crcByte 4018017419 ^^^
        0xFFFFFFFF ≠ 4230714893 := by decide +kernel
    exact mismatch (checked.symm.trans (same.trans (by rw [orderLogged_sealed])))
  rw [WalManager.replayFrom, file_of_appends fits, single, replayLoop_record sized, if_neg kept,
    if_neg refused]
  rfl

end TradingBot.WalReplay
