import Mathlib.Data.List.Nodup
import TradingBot.Foundation.MachineInt

/-!
# Ids from a counter

A counter of 64 bits gives out its value and moves on by one, from the largest value to zero. The
ids of any number of draws are a stretch of the values of the type, which is free of repetitions as
long as it is no longer than the type.
-/

open MachineInt

namespace IdCounter

/-- The ids of some draws from a counter. -/
def ids (start count : Nat) : List Nat := (List.range count).map fun i => castU64 (start + i)

variable {start count first second id : Nat}

@[simp] theorem ids_zero (start : Nat) : ids start 0 = [] := rfl

theorem ids_add (start first second : Nat) :
    ids start (first + second) = ids start first ++ ids (castU64 (start + first)) second := by
  unfold ids
  rw [List.range_add, List.map_append, List.map_map]
  congr 1
  apply List.map_congr_left
  intro i _
  simp only [Function.comp, castU64, Nat.mod_add_mod, Nat.add_assoc]

theorem ids_succ (fits : start < u64Size) (count : Nat) :
    ids start (count + 1) = start :: ids (castU64 (start + 1)) count := by
  rw [Nat.add_comm, ids_add]
  simp [ids, castU64_of_fits fits]

theorem castU64_add_inj {i j : Nat} (ordered : i ≤ j) (near : j < i + u64Size)
    (same : castU64 (start + i) = castU64 (start + j)) : i = j := by
  unfold castU64 at same
  unfold u64Size at same near
  omega

theorem ids_nodup_iff : (ids start count).Nodup ↔ count ≤ u64Size := by
  unfold ids
  rw [List.nodup_map_iff_inj_on List.nodup_range]
  constructor
  · intro distinct
    by_contra more
    have above : u64Size < count := by omega
    have turn : castU64 (start + 0) = castU64 (start + u64Size) := by
      unfold castU64
      rw [Nat.add_zero, Nat.add_mod_right]
    have same := distinct 0 (List.mem_range.mpr (by omega)) u64Size (List.mem_range.mpr above) turn
    exact absurd same (by decide)
  · intro few i below j below_ same
    have small := List.mem_range.mp below
    have small_ := List.mem_range.mp below_
    rcases Nat.le_total i j with ordered | ordered
    · exact castU64_add_inj ordered (by omega) same
    · exact (castU64_add_inj ordered (by omega) same.symm).symm

end IdCounter
