import Mathlib.Data.List.DropRight
import TradingBot.Foundation.Run
import TradingBot.Persistence.CheckpointFiles

/-!
# The newest checkpoint

As long as every save gets a name that sorts after the names that are there, the files are those
of the saves, the one that is loaded is the last, and a cleanup keeps the last ones. A number with
one more digit, two saves in a millisecond and a new serializer break that order.
-/

namespace TradingBot.Persistence.NewestCheckpoint

open StateSerializer

variable {τ : Type}

/-- What is done with a directory. -/
inductive Event (τ : Type) where
  /-- `save_checkpoint`. -/
  | save (state : τ)
  /-- A new serializer. -/
  | reopen
  /-- `cleanup_old_checkpoints`. -/
  | cleanup (keepCount : Nat)

/-- A serializer with the history of its directory. -/
structure Session (τ : Type) where
  serializer : StateSerializer
  /-- The saves whose files are to be there, with their names, the most recent one last. -/
  kept : List (String × τ)
  /-- The state of the most recent save. -/
  last : Option τ

/-- A session that starts in an empty directory. -/
def start : Session τ := ⟨init .empty .empty, [], none⟩

/-- The session after an event. A save whose state cannot be serialized writes nothing. -/
def step (form : BinaryForm τ) (session : Session τ) (event : Event τ) : Option (Session τ) :=
  match event with
  | .save state =>
    match session.serializer.saveCheckpoint form state with
    | .error _ => some session
    | .ok (name, serializer) => some ⟨serializer, session.kept ++ [(name, state)], some state⟩
  | .reopen =>
    some { session with
      serializer := init session.serializer.checkpoints session.serializer.temporary }
  | .cleanup keepCount =>
    some { session with
      serializer := (session.serializer.cleanupOldCheckpoints keepCount).2
      kept := session.kept.rtake keepCount }

/-- No save has taken the name of another, the files are those of the saves that are to be there,
and the most recent save is the one that is loaded. -/
def Restores (form : BinaryForm τ) (session : Session τ) : Prop :=
  (session.kept.map Prod.fst).Nodup ∧
    (∀ name bytes, session.serializer.checkpoints.get name = some bytes ↔
      ∃ state, (name, state) ∈ session.kept ∧ form.serializeBinary state = .ok bytes) ∧
    session.serializer.loadLatestCheckpoint form = session.last

/-- A cleanup keeps at least one file. -/
def Proper : Event τ → Prop
  | .cleanup keepCount => 1 ≤ keepCount
  | .save _ | .reopen => True

/-- A save gets a name that sorts after the names of all files that are there. -/
def SortsLast (form : BinaryForm τ) (session : Session τ) : Event τ → Prop
  | .save state => ∀ name ∈ session.serializer.checkpoints.keys,
      name < filename (form.milliseconds state) session.serializer.checkpointCounter
  | .reopen | .cleanup _ => True

instance (form : BinaryForm τ) (session : Session τ) :
    ∀ event, Decidable (SortsLast form session event)
  | .save state => inferInstanceAs (Decidable (∀ name ∈ session.serializer.checkpoints.keys,
      name < filename (form.milliseconds state) session.serializer.checkpointCounter))
  | .reopen | .cleanup _ => .isTrue trivial

/-! ## The order of the names -/

/-- A session whose saves have ascending names. -/
structure Ordered (form : BinaryForm τ) (session : Session τ) : Prop where
  /-- The names ascend. -/
  ascending : (session.kept.map Prod.fst).Pairwise (· < ·)
  /-- The files are those of the saves. -/
  files : ∀ name bytes, session.serializer.checkpoints.get name = some bytes ↔
    ∃ state, (name, state) ∈ session.kept ∧ form.serializeBinary state = .ok bytes
  /-- Every save was serialized. -/
  serialized : ∀ entry ∈ session.kept, ∃ bytes, form.serializeBinary entry.2 = .ok bytes
  /-- The last save is the most recent one. -/
  recent : session.last = session.kept.getLast?.map Prod.snd

variable {form : BinaryForm τ} {session : Session τ}

theorem Ordered.nodup (ordered : Ordered form session) : (session.kept.map Prod.fst).Nodup :=
  ordered.ascending.imp fun below => below.ne

theorem Ordered.mem_keys (ordered : Ordered form session) {name : String} :
    name ∈ session.serializer.checkpoints.keys ↔ name ∈ session.kept.map Prod.fst := by
  rw [Dict.mem_keys]
  constructor
  · rintro ⟨bytes, there⟩
    obtain ⟨state, member, _⟩ := (ordered.files name bytes).mp there
    exact List.mem_map.mpr ⟨(name, state), member, rfl⟩
  · intro named
    obtain ⟨entry, member, rfl⟩ := List.mem_map.mp named
    obtain ⟨bytes, serialized⟩ := ordered.serialized entry member
    exact ⟨bytes, (ordered.files entry.1 bytes).mpr ⟨entry.2, member, serialized⟩⟩

theorem Ordered.sortedNames (ordered : Ordered form session) :
    session.serializer.sortedNames = (session.kept.map Prod.fst).reverse := by
  have same : session.serializer.checkpoints.keys.Perm (session.kept.map Prod.fst) :=
    (List.perm_ext_iff_of_nodup session.serializer.checkpoints.nodup ordered.nodup).mpr
      fun _ => ordered.mem_keys
  refine @List.Perm.eq_of_pairwise _ (· ≥ ·) _ _ (fun _ _ _ _ above below =>
    le_antisymm below above) (List.pairwise_insertionSort _ _) ?_ ?_
  · exact List.pairwise_reverse.mpr (ordered.ascending.imp fun below => below.le)
  · exact ((List.perm_insertionSort _ _).trans same).trans (List.reverse_perm _).symm

theorem Ordered.loads (lawful : form.Lawful) (ordered : Ordered form session) :
    session.serializer.loadLatestCheckpoint form = session.last := by
  unfold loadLatestCheckpoint
  rw [ordered.sortedNames, ordered.recent]
  rcases List.eq_nil_or_concat' session.kept with none_ | ⟨front, entry, kept⟩
  · rw [none_]
    rfl
  · have member : entry ∈ session.kept := by simp [kept]
    obtain ⟨bytes, serialized⟩ := ordered.serialized entry member
    have there := (ordered.files entry.1 bytes).mpr ⟨entry.2, member, serialized⟩
    have names : (session.kept.map Prod.fst).reverse =
        entry.1 :: (front.map Prod.fst).reverse := by simp [kept]
    have latest : session.kept.getLast? = some entry := by simp [kept]
    simp only [names, there, lawful _ _ serialized, latest, Option.map_some]

theorem Ordered.restores (lawful : form.Lawful) (ordered : Ordered form session) :
    Restores form session :=
  ⟨ordered.nodup, ordered.files, ordered.loads lawful⟩

/-! ## What a step keeps -/

theorem Ordered.save (ordered : Ordered form session) {state : τ} {name : String}
    {serializer : StateSerializer} (sorts : SortsLast form session (.save state))
    (saved : session.serializer.saveCheckpoint form state = .ok (name, serializer)) :
    Ordered form ⟨serializer, session.kept ++ [(name, state)], some state⟩ := by
  unfold saveCheckpoint at saved
  cases serialized : form.serializeBinary state with
  | error error => simp [serialized, bind, Except.bind] at saved
  | ok bytes =>
    simp only [serialized, bind, Except.bind, Except.ok.injEq, Prod.mk.injEq] at saved
    obtain ⟨rfl, rfl⟩ := saved
    generalize named : filename (form.milliseconds state)
      session.serializer.checkpointCounter = name at sorts ⊢
    have below : ∀ other ∈ session.kept.map Prod.fst, other < name := fun other member =>
      (sorts other (ordered.mem_keys.mpr member)).trans_eq named
    constructor
    · rw [List.map_append]
      refine List.pairwise_append.mpr ⟨ordered.ascending, List.pairwise_singleton _ _, ?_⟩
      intro other member last same
      rw [List.map_singleton, List.mem_singleton] at same
      exact same ▸ below other member
    · intro other data
      show (session.serializer.checkpoints.put name bytes).get other = some data ↔ _
      rw [Dict.get_put]
      by_cases same : other = name
      · subst same
        have fresh : ∀ older, (other, older) ∉ session.kept := fun older member =>
          (below other (List.mem_map.mpr ⟨(other, older), member, rfl⟩)).false
        simp [fresh, serialized]
      · simp [same, ordered.files other data]
    · intro entry member
      rcases List.mem_append.mp member with older | newest
      · exact ordered.serialized entry older
      · rw [List.mem_singleton.mp newest]
        exact ⟨bytes, serialized⟩
    · simp

theorem get_unlinked (names : List String) (serializer : StateSerializer) (name : String) :
    (names.foldl unlink serializer).checkpoints.get name =
      if name ∈ names then none else serializer.checkpoints.get name := by
  induction names generalizing serializer with
  | nil => rfl
  | cons first rest ih =>
    rw [List.foldl_cons, ih]
    show (if name ∈ rest then none else (serializer.checkpoints.pop first).get name) = _
    rw [Dict.get_pop]
    by_cases later : name ∈ rest
    · simp [later]
    · by_cases same : name = first <;> simp [later, same]

theorem mem_rtake_iff {α : Type} {list : List (String × α)}
    (nodup : (list.map Prod.fst).Nodup) (count : Nat) {entry : String × α} :
    entry ∈ list.rtake count ↔
      entry ∈ list ∧ entry.1 ∉ (list.rdrop count).map Prod.fst := by
  have parts : list.rdrop count ++ list.rtake count = list := List.take_append_drop _ list
  rw [← parts, List.map_append, List.nodup_append] at nodup
  constructor
  · intro last
    refine ⟨parts ▸ List.mem_append_right _ last, fun front => ?_⟩
    exact nodup.2.2 _ front _ (List.mem_map_of_mem last) rfl
  · rintro ⟨member, notFront⟩
    rw [← parts, List.mem_append] at member
    exact member.resolve_left fun front => notFront (List.mem_map_of_mem front)

theorem Ordered.files_cleanup (ordered : Ordered form session) (keepCount : Nat)
    (name : String) (bytes : List UInt8) :
    (session.serializer.cleanupOldCheckpoints keepCount).2.checkpoints.get name = some bytes ↔
      ∃ state, (name, state) ∈ session.kept.rtake keepCount ∧
        form.serializeBinary state = .ok bytes := by
  have total : session.serializer.checkpoints.keys.length = session.kept.length := by
    have sorted := congrArg List.length ordered.sortedNames
    simpa [StateSerializer.sortedNames, List.length_insertionSort] using sorted
  unfold cleanupOldCheckpoints
  rw [total]
  split
  · rename_i few
    have all : session.kept.rtake keepCount = session.kept := by
      rw [List.rtake, Nat.sub_eq_zero_of_le few, List.drop_zero]
    rw [all]
    exact ordered.files name bytes
  · have old : session.serializer.sortedNames.drop keepCount =
        ((session.kept.rdrop keepCount).map Prod.fst).reverse := by
      rw [ordered.sortedNames, List.rdrop, List.map_take, List.drop_reverse, List.length_map]
    simp only [old, get_unlinked, List.mem_reverse, mem_rtake_iff ordered.nodup]
    by_cases front : name ∈ (session.kept.rdrop keepCount).map Prod.fst
    · simp only [front, if_true, not_true, and_false, false_and, exists_false, reduceCtorEq]
    · simp only [front, if_false, not_false_iff, and_true]
      exact ordered.files name bytes

theorem Ordered.cleanup (ordered : Ordered form session) {keepCount : Nat}
    (positive : 1 ≤ keepCount) :
    Ordered form { session with
      serializer := (session.serializer.cleanupOldCheckpoints keepCount).2
      kept := session.kept.rtake keepCount } where
  ascending := by
    rw [List.rtake, List.map_drop]
    exact ordered.ascending.drop
  files := ordered.files_cleanup keepCount
  serialized entry member := ordered.serialized entry (List.mem_of_mem_drop member)
  recent := by
    rw [ordered.recent]
    rcases List.eq_nil_or_concat' session.kept with none_ | ⟨front, entry, kept⟩
    · simp [none_]
    · obtain ⟨count, rfl⟩ := Nat.exists_eq_add_of_le' positive
      rw [kept, List.rtake_concat_succ]
      simp

/-- A file that sorts last keeps the newest in order. -/
theorem step_ordered {next : Session τ} {event : Event τ} (ordered : Ordered form session)
    (proper : Proper event) (sorts : SortsLast form session event)
    (stepped : step form session event = some next) : Ordered form next := by
  cases event with
  | save state =>
    unfold step at stepped
    simp only at stepped
    split at stepped
    · cases stepped
      exact ordered
    · rename_i name serializer saved
      cases stepped
      exact ordered.save sorts saved
  | reopen =>
    cases stepped
    exact ⟨ordered.ascending, ordered.files, ordered.serialized, ordered.recent⟩
  | cleanup keepCount =>
    cases stepped
    exact ordered.cleanup proper

theorem start_ordered (form : BinaryForm τ) : Ordered form start where
  ascending := List.Pairwise.nil
  files name bytes := by
    constructor
    · intro there
      cases there
    · rintro ⟨state, member, _⟩
      cases member
  serialized _ member := nomatch member
  recent := rfl

/-- In every run whose saves all sort last, in every state no save has taken the name of another,
the most recent save is loaded, and the files are those of the saves that are to be there. -/
theorem restores_always (lawful : form.Lawful) (events : List (Event τ))
    (proper : ∀ event ∈ events, Proper event)
    (sorts : Run.Guarded (step form) (SortsLast form) start events) :
    Run.Always (step form) (Restores form) start events :=
  (Run.always_guarded
    (fun _ _ _ ordered met stepped => step_ordered ordered met.1 met.2 stepped)
    (start_ordered form) events ((Run.guarded_of_forall proper start).and sorts)).imp
    fun _ ordered => ordered.restores lawful

/-- States of two bytes, the first of them the seconds of the timestamp. -/
def sample : BinaryForm (UInt8 × UInt8) where
  milliseconds state := state.1.toNat * 1000
  serializeBinary state := .ok [state.1, state.2]
  deserializeBinary
    | [seconds, value] => .ok (some (seconds, value))
    | _ => .ok none

theorem sample_lawful : sample.Lawful := by
  intro state bytes written
  cases written
  rfl

/-- Saves in later seconds with as many digits, a new serializer and a cleanup keep the order. -/
theorem restores_seconds :
    Run.Always (step sample) (Restores sample) start
      [.save (11, 1), .save (12, 2), .reopen, .save (13, 3), .save (13, 3), .cleanup 2,
        .save (14, 4)] :=
  restores_always sample_lawful _ (by simp [Proper]) (by decide +kernel)

theorem not_always_of_loaded {events : List (Event (UInt8 × UInt8))}
    {loaded last : Option (UInt8 × UInt8)} (other : loaded ≠ last)
    (decided : (Run.exec (step sample) start events).map (fun final =>
      (final.serializer.loadLatestCheckpoint sample, final.last)) = some (loaded, last)) :
    ¬ Run.Always (step sample) (Restores sample) start events := by
  refine Run.not_always_of_view decided fun final seen restores => ?_
  obtain ⟨loads, recent⟩ := Prod.ext_iff.mp seen
  exact other ((loads.symm.trans restores.2.2).trans recent)

/-- A save in the tenth second sorts before one in the ninth, an eleventh save in one second before
the tenth, and a new serializer takes the name of a save in the same second. -/
theorem newest_not_loaded :
    sample.Lawful ∧
      ¬ Run.Always (step sample) (Restores sample) start [.save (9, 1), .save (10, 2)] ∧
      ¬ Run.Always (step sample) (Restores sample) start
        ((List.range 11).map fun value => .save (9, UInt8.ofNat value)) ∧
      ¬ Run.Always (step sample) (Restores sample) start
        [.save (9, 1), .reopen, .save (9, 2)] := by
  refine ⟨sample_lawful, @not_always_of_loaded _ (some (9, 1)) (some (10, 2)) (by decide)
    (by decide +kernel), @not_always_of_loaded _ (some (9, 9)) (some (9, 10)) (by decide)
    (by decide +kernel), ?_⟩
  have decided : (Run.exec (step sample) start [.save (9, 1), .reopen, .save (9, 2)]).map
      (fun final => final.kept.map Prod.fst) =
        some ["checkpoint_9000_0.bin", "checkpoint_9000_0.bin"] := by decide +kernel
  refine Run.not_always_of_view decided fun final names restores => ?_
  have nodup := restores.1
  rw [names] at nodup
  simp at nodup

end TradingBot.Persistence.NewestCheckpoint
