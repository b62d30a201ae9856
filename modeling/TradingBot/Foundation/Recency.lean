import TradingBot.Foundation.Dict

/-!
# Recency of use

What is put in a store, used, removed and cleared is written in a journal, the latest change first.
The journal says what a key holds and when it was used last. An ordered dictionary that moves each
used key to its end lists the keys from the one whose last use is oldest, and so may remove its
first key.
-/

namespace Recency

/-- A change of a store. -/
inductive Change (κ ν : Type*) where
  | put (key : κ) (value : ν)
  | used (key : κ)
  | removed (key : κ)
  | cleared

variable {κ ν : Type*} [DecidableEq κ]

/-- The value that was put at a key last, unless the key was removed since. -/
def held : List (Change κ ν) → κ → Option ν
  | [], _ => none
  | .put key value :: older, other => if other = key then some value else held older other
  | .used _ :: older, other => held older other
  | .removed key :: older, other => if other = key then none else held older other
  | .cleared :: _, _ => none

/-- The number of changes up to the last one that put or used a key. -/
def lastUse : List (Change κ ν) → κ → Nat
  | [], _ => 0
  | .put key _ :: older, other => if other = key then older.length + 1 else lastUse older other
  | .used key :: older, other => if other = key then older.length + 1 else lastUse older other
  | .removed _ :: older, other => lastUse older other
  | .cleared :: older, other => lastUse older other

/-- A key that holds a value, and whose last use is older than that of every other one. -/
structure Oldest (journal : List (Change κ ν)) (key : κ) : Prop where
  there : (held journal key).isSome = true
  before : ∀ other, other ≠ key → (held journal other).isSome = true →
    lastUse journal key < lastUse journal other

/-- Every key that was removed was the oldest one then. -/
def RemovesOldest : List (Change κ ν) → Prop
  | [] => True
  | .put _ _ :: older => RemovesOldest older
  | .used _ :: older => RemovesOldest older
  | .removed key :: older => Oldest older key ∧ RemovesOldest older
  | .cleared :: older => RemovesOldest older

/-- The keys that hold a value, from the one whose last use is oldest. -/
structure Follows (journal : List (Change κ ν)) (order : List κ) : Prop where
  listed : ∀ key, key ∈ order ↔ (held journal key).isSome = true
  sorted : order.Pairwise fun earlier later => lastUse journal earlier < lastUse journal later

variable {journal : List (Change κ ν)} {order rest : List κ} {key : κ} {value : ν}

theorem lastUse_le (journal : List (Change κ ν)) (key : κ) :
    lastUse journal key ≤ journal.length := by
  induction journal with
  | nil => exact Nat.le_refl 0
  | cons change older ih =>
    have longer := Nat.le_succ_of_le ih
    cases change with
    | put other value =>
      show (if key = other then older.length + 1 else lastUse older key) ≤ older.length + 1
      split
      · exact Nat.le_refl _
      · exact longer
    | used other =>
      show (if key = other then older.length + 1 else lastUse older key) ≤ older.length + 1
      split
      · exact Nat.le_refl _
      · exact longer
    | removed other => exact longer
    | cleared => exact longer

theorem follows_nil : Follows ([] : List (Change κ ν)) [] :=
  ⟨fun _ => iff_of_false List.not_mem_nil Bool.false_ne_true, .nil⟩

theorem Follows.nodup (follows : Follows journal order) : order.Nodup := by
  refine follows.sorted.imp ?_
  rintro earlier _ before rfl
  exact Nat.lt_irrefl _ before

/-- A key moved to the end of an order. -/
theorem pairwise_moved {before after : κ → Nat} {bound : Nat}
    (sorted : order.Pairwise fun earlier later => before earlier < before later)
    (kept : ∀ other, other ≠ key → after other = before other)
    (bounded : ∀ other, before other ≤ bound) (last : after key = bound + 1) :
    (order.filter (· ≠ key) ++ [key]).Pairwise
      fun earlier later => after earlier < after later := by
  have others : ∀ other ∈ order.filter (· ≠ key), after other = before other := by
    intro other member
    exact kept other (of_decide_eq_true (List.mem_filter.mp member).2)
  rw [List.pairwise_append]
  refine ⟨?_, List.pairwise_singleton _ _, ?_⟩
  · refine (sorted.filter _).imp_of_mem fun {earlier later} first second less => ?_
    rw [others earlier first, others later second]
    exact less
  · intro other member here single
    rw [List.mem_singleton.mp single, others other member, last]
    exact Nat.lt_succ_of_le (bounded other)

theorem Follows.put (follows : Follows journal order) (key : κ) (value : ν) :
    Follows (.put key value :: journal) (order.filter (· ≠ key) ++ [key]) := by
  constructor
  · intro other
    show _ ↔ (if other = key then some value else held journal other).isSome = true
    rw [List.mem_append, List.mem_filter, List.mem_singleton, follows.listed, decide_eq_true_iff]
    by_cases same : other = key
    · rw [if_pos same]
      exact iff_of_true (.inr same) rfl
    · rw [if_neg same]
      exact (or_iff_left same).trans (and_iff_left same)
  · refine pairwise_moved follows.sorted (fun other differs => ?_) (lastUse_le journal) ?_
    · exact if_neg differs
    · exact if_pos rfl

theorem Follows.used (follows : Follows journal order) (there : key ∈ order) :
    Follows (.used key :: journal) (order.filter (· ≠ key) ++ [key]) := by
  constructor
  · intro other
    show _ ↔ (held journal other).isSome = true
    rw [List.mem_append, List.mem_filter, List.mem_singleton, ← follows.listed, decide_eq_true_iff]
    by_cases same : other = key
    · exact iff_of_true (.inr same) (same ▸ there)
    · exact (or_iff_left same).trans (and_iff_left same)
  · refine pairwise_moved follows.sorted (fun other differs => ?_) (lastUse_le journal) ?_
    · exact if_neg differs
    · exact if_pos rfl

theorem Follows.missed (follows : Follows journal order) (absent : key ∉ order) :
    Follows (.used key :: journal) order := by
  refine ⟨follows.listed, follows.sorted.imp_of_mem fun {earlier later} first second less => ?_⟩
  show (if earlier = key then _ else _) < if later = key then _ else _
  rw [if_neg (ne_of_mem_of_not_mem first absent), if_neg (ne_of_mem_of_not_mem second absent)]
  exact less

theorem Follows.oldest (follows : Follows journal (key :: rest)) : Oldest journal key := by
  refine ⟨(follows.listed key).mp List.mem_cons_self, fun other differs there => ?_⟩
  have member := (List.mem_cons.mp ((follows.listed other).mpr there)).resolve_left differs
  exact (List.pairwise_cons.mp follows.sorted).1 other member

theorem Follows.removed (follows : Follows journal (key :: rest)) :
    Follows (.removed key :: journal) rest := by
  obtain ⟨fresh, -⟩ := List.nodup_cons.mp follows.nodup
  refine ⟨fun other => ?_, (List.pairwise_cons.mp follows.sorted).2⟩
  show _ ↔ (if other = key then none else held journal other).isSome = true
  by_cases same : other = key
  · rw [if_pos same]
    exact iff_of_false (same ▸ fresh) Bool.false_ne_true
  · rw [if_neg same, ← follows.listed, List.mem_cons]
    exact (or_iff_right same).symm

theorem follows_cleared (journal : List (Change κ ν)) : Follows (.cleared :: journal) [] :=
  ⟨fun _ => iff_of_false List.not_mem_nil Bool.false_ne_true, .nil⟩

end Recency

/-! ## Ordered dictionaries -/

namespace Dict

variable {κ ν : Type*} [DecidableEq κ]

/-- A dictionary with one of its keys moved to the end. -/
def moveToEnd (dict : Dict κ ν) (key : κ) : Dict κ ν :=
  match dict.get key with
  | some value => (dict.pop key).put key value
  | none => dict

variable {dict : Dict κ ν} {key : κ} {value : ν}

theorem put_put (dict : Dict κ ν) (key : κ) (old value : ν) :
    (dict.put key old).put key value = dict.put key value := by
  apply ext_entries
  show putEntry key value (putEntry key old dict.entries) = putEntry key value dict.entries
  induction dict.entries with
  | nil => exact if_pos rfl
  | cons entry rest ih =>
    by_cases here : entry.1 = key
    · simp only [putEntry, if_pos here, if_true]
    · simp only [putEntry, if_neg here, ih]

theorem entries_pop_put (dict : Dict κ ν) (key : κ) (value : ν) :
    ((dict.pop key).put key value).entries =
      dict.entries.filter (fun entry => entry.1 ≠ key) ++ [(key, value)] := by
  refine putEntry_fresh key value fun member => ?_
  obtain ⟨entry, there, same⟩ := List.mem_map.mp member
  exact of_decide_eq_true (List.mem_filter.mp there).2 same

theorem keys_pop_put (dict : Dict κ ν) (key : κ) (value : ν) :
    ((dict.pop key).put key value).keys = dict.keys.filter (· ≠ key) ++ [key] := by
  unfold keys
  rw [entries_pop_put, List.map_append, List.filter_map]
  rfl

theorem put_moved (dict : Dict κ ν) (key : κ) (value : ν) :
    (if (dict.get key).isSome then dict.moveToEnd key else dict).put key value =
      (dict.pop key).put key value := by
  cases found : dict.get key with
  | none => rw [pop_absent found, if_neg (by exact Bool.false_ne_true)]
  | some old =>
    unfold moveToEnd
    rw [found, if_pos (by exact rfl), put_put]

theorem pop_put (dict : Dict κ ν) (key : κ) (value : ν) :
    (dict.put key value).pop key = dict.pop key := by
  apply ext_entries
  show (putEntry key value dict.entries).filter _ = dict.entries.filter _
  induction dict.entries with
  | nil => exact List.filter_cons_of_neg (by simp)
  | cons entry rest ih =>
    by_cases here : entry.1 = key
    · rw [putEntry, if_pos here, List.filter_cons_of_neg (by simp),
        List.filter_cons_of_neg (by simp [here])]
    · rw [putEntry, if_neg here, List.filter_cons_of_pos (by simp [here]), ih,
        List.filter_cons_of_pos (by simp [here])]

theorem moveToEnd_put (dict : Dict κ ν) (key : κ) (value : ν) :
    (dict.put key value).moveToEnd key = (dict.pop key).put key value := by
  unfold moveToEnd
  rw [get_put_self]
  exact congrArg (fun left : Dict κ ν => left.put key value) (pop_put dict key value)

theorem get_pop_put (dict : Dict κ ν) (key other : κ) (value : ν) :
    ((dict.pop key).put key value).get other =
      if other = key then some value else dict.get other := by
  rw [get_put, get_pop]
  by_cases same : other = key
  · rw [if_pos same, if_pos same]
  · rw [if_neg same, if_neg same, if_neg same]

theorem sum_pop_put {α : Type*} [AddCommMonoid α] (weight : ν → α) (dict : Dict κ ν) (key : κ)
    (value : ν) :
    (((dict.pop key).put key value).values.map weight).sum + ((dict.get key).map weight).getD 0 =
      (dict.values.map weight).sum + weight value := by
  have entries : ∀ other : Dict κ ν, (other.values.map weight).sum =
      (other.entries.map fun entry => weight entry.2).sum := fun other => by
    unfold values
    rw [List.map_map]
    rfl
  have gone : (dict.pop key).get key = none := by
    rw [get_pop, if_pos rfl]
  rw [values_put_fresh value gone, List.map_append, List.sum_append, List.map_singleton,
    List.sum_singleton, entries, entries]
  cases found : dict.get key with
  | none =>
    rw [pop_absent found]
    exact add_zero _
  | some old =>
    rw [sum_pop (fun entry => weight entry.2) found]
    exact add_right_comm _ _ _

theorem size_pop_put (dict : Dict κ ν) (key : κ) (value : ν) :
    ((dict.pop key).put key value).size = (dict.put key value).size := by
  have gone : (dict.pop key).get key = none := by
    rw [get_pop, if_pos rfl]
  rw [size_put, size_put, gone, if_neg (by exact Bool.false_ne_true), size_pop]
  cases found : dict.get key with
  | none => rfl
  | some old =>
    have there : 0 < dict.size := List.length_pos_of_mem (get_eq_some.mp found)
    show dict.size - 1 + 1 = dict.size
    omega

theorem entries_pop_head {rest : List (κ × ν)} (first : dict.entries = (key, value) :: rest) :
    (dict.pop key).entries = rest := by
  have distinct := dict.nodup
  rw [first, List.map_cons, List.nodup_cons] at distinct
  show dict.entries.filter _ = rest
  rw [first, List.filter_cons_of_neg (by simp)]
  refine List.filter_eq_self.mpr fun entry member => decide_eq_true fun same => ?_
  exact distinct.1 (List.mem_map.mpr ⟨entry, member, same⟩)

end Dict
