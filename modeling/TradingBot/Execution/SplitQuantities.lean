import Mathlib.Algebra.Group.Action.Defs
import Mathlib.Algebra.BigOperators.Group.List.Basic
import TradingBot.Execution.ExecutionRouter

/-!
# The quantities of a split

An order is split without loss if the number of its shares divides what remains of it, and an
iceberg if it is no smaller than the smallest part that is shown. The ids are those of a counter,
and differ until that has made a whole turn.
-/

open MachineInt IdCounter

namespace TradingBot.Execution.ExecutionRouter

/-- There is something to split and somewhere to send it. -/
def CanSplit (parent : ParentOrder) : Prop := 0 < parent.remaining ∧ parent.venues ≠ []

instance (parent : ParentOrder) : Decidable (CanSplit parent) :=
  inferInstanceAs (Decidable (_ < _ ∧ _ ≠ _))

/-- A part of an order is shown: it is no more than what remains, its slices are enough for that,
and none but the last is more than what is left for it. -/
def Shows (remaining : Nat) (child : ChildOrder) : Prop :=
  1 ≤ child.quantityMicro ∧ child.quantityMicro ≤ remaining ∧
    remaining ≤ child.totalSequences * child.quantityMicro ∧
    ∀ earlier, earlier + 1 < child.totalSequences →
      child.quantityMicro ≤ remaining - earlier * child.quantityMicro

/-- The children carry what remains of an order. -/
def Carries (parent : ParentOrder) (children : List ChildOrder) : Prop :=
  match parent.algo with
  | .iceberg => ∃ child, children = [child] ∧ Shows parent.remaining child
  | _ => (children.map ChildOrder.quantityMicro).sum = parent.remaining

/-- The children of an order carry what remains of it, go to its venues and are numbered in
turn. -/
structure Splits (parent : ParentOrder) (children : List ChildOrder) : Prop where
  carries : Carries parent children
  venues : ∀ child ∈ children, child.venueId ∈ parent.venues
  numbered : children.map ChildOrder.sequence = List.range children.length

/-- What remains of an order is split evenly, or is enough for the smallest part of an iceberg and
little enough for the number of its parts to be computed. -/
def SplitsEvenly (parent : ParentOrder) : Prop :=
  match parent.algo with
  | .twap => numSlices parent ∣ parent.remaining
  | .iceberg => 10000 ≤ parent.remaining ∧
      parent.remaining + displayQty parent.remaining < u64Size
  | _ => parent.venues.length ∣ parent.remaining

instance (parent : ParentOrder) : Decidable (SplitsEvenly parent) := by
  unfold SplitsEvenly
  split <;> infer_instance

/-- The number of children of an order. -/
def childCount (parent : ParentOrder) : Nat :=
  if CanSplit parent then
    match parent.algo with
    | .twap => numSlices parent
    | .iceberg => 1
    | _ => parent.venues.length
  else 0

/-- A router after an order. -/
def drawn (router : ExecutionRouter) (count : Nat) : ExecutionRouter :=
  { router with orderCounter := castU64 (router.orderCounter + count) }

section Children

variable {α β : Type} {router next : ExecutionRouter} {parent : ParentOrder}
  {currentPrices : List (Nat × Nat)} {children : List ChildOrder} {remaining count : Nat}

/-! ## Children that are pushed -/

theorem map_pushChildren (build : α → Nat → ChildOrder) (read : ChildOrder → β) (known : α → β)
    (same : ∀ item orderId, read (build item orderId) = known item) (router : ExecutionRouter)
    (items : List α) :
    (router.pushChildren (items.map build)).1.map read = items.map known := by
  induction items generalizing router with
  | nil => rfl
  | cons item rest ih =>
    simp only [List.map_cons, pushChildren]
    rw [same, ih]

theorem pushChildren_ids (build : α → Nat → ChildOrder)
    (given : ∀ item orderId, (build item orderId).orderId = orderId)
    (fits : router.orderCounter < u64Size) (items : List α) :
    (router.pushChildren (items.map build)).1.map ChildOrder.orderId =
        ids router.orderCounter items.length ∧
      (router.pushChildren (items.map build)).2 = router.drawn items.length := by
  induction items generalizing router with
  | nil =>
    refine ⟨rfl, ?_⟩
    simp [pushChildren, drawn, castU64_of_fits fits]
  | cons item rest ih =>
    have size : 0 < u64Size := by decide
    have later := @ih router.nextOrderId.2 (Nat.mod_lt _ size)
    simp only [List.map_cons, pushChildren, List.length_cons]
    rw [given, ids_succ fits, later.1, later.2]
    refine ⟨rfl, ?_⟩
    simp only [nextOrderId, drawn, castU64, Nat.mod_add_mod]
    rw [Nat.add_assoc, Nat.add_comm 1]

theorem length_pushChildren (build : α → Nat → ChildOrder) (router : ExecutionRouter)
    (items : List α) : (router.pushChildren (items.map build)).1.length = items.length := by
  have lengths := congrArg List.length
    (map_pushChildren build (fun _ => ()) (fun _ => ()) (fun _ _ => rfl) router items)
  simpa using lengths

theorem shares_sum_iff (items : List α) (whole : Nat) :
    (items.map fun _ => whole / items.length).sum = whole ↔ items.length ∣ whole := by
  rw [List.map_const', List.sum_replicate, smul_eq_mul, Nat.mul_comm]
  constructor
  · intro same
    exact ⟨whole / items.length, by rw [Nat.mul_comm]; exact same.symm⟩
  · exact Nat.div_mul_cancel

/-! ## Icebergs -/

theorem parts_bounds {shown : Nat} (some_ : 0 < shown) (whole : 0 < remaining) :
    remaining ≤ (remaining + shown - 1) / shown * shown ∧
      (remaining + shown - 1) / shown * shown < remaining + shown := by
  have parts := Nat.div_add_mod (remaining + shown - 1) shown
  have rest := Nat.mod_lt (remaining + shown - 1) some_
  have turned := Nat.mul_comm shown ((remaining + shown - 1) / shown)
  omega

theorem shows_iff (whole : 0 < remaining) {child : ChildOrder}
    (shown : child.quantityMicro = displayQty remaining)
    (parts : child.totalSequences =
      (remaining + displayQty remaining - 1) / displayQty remaining) :
    Shows remaining child ↔ 10000 ≤ remaining := by
  have least : 10000 ≤ displayQty remaining := Nat.le_max_right _ _
  have bounds := parts_bounds (by omega : 0 < displayQty remaining) whole
  unfold Shows
  rw [shown, parts]
  constructor
  · rintro ⟨-, within, -, -⟩
    omega
  · intro enough
    have within : displayQty remaining ≤ remaining := by
      unfold displayQty
      omega
    refine ⟨by omega, within, bounds.1, fun earlier before => ?_⟩
    -- the part after an earlier one still ends before the last part begins
    have more : (earlier + 2) * displayQty remaining ≤
        (remaining + displayQty remaining - 1) / displayQty remaining * displayQty remaining :=
      Nat.mul_le_mul_right _ before
    have two : (earlier + 2) * displayQty remaining =
        earlier * displayQty remaining + 2 * displayQty remaining := Nat.add_mul _ _ _
    omega

/-! ## One order -/

theorem splitOrder_of_can (can : CanSplit parent) :
    router.splitOrder parent currentPrices =
      match parent.algo with
      | .twap => router.splitTwap parent parent.remaining
      | .vwap => some (router.splitVwap parent parent.remaining currentPrices)
      | .iceberg => router.splitIceberg parent parent.remaining
      | .sniper => some (router.splitSniper parent parent.remaining) := by
  obtain ⟨whole, venues⟩ := can
  have some_ : ¬ (parent.remaining = 0 ∨ parent.venues = []) := by
    rintro (none_ | empty)
    · omega
    · exact venues empty
  exact if_neg some_

/-- Children are answered as they are to be: with the ids of the counter, and splitting the order
exactly if that is split evenly. -/
def AnswersWell (router : ExecutionRouter) (parent : ParentOrder) (children : List ChildOrder)
    (next : ExecutionRouter) : Prop :=
  children.map ChildOrder.orderId = ids router.orderCounter (childCount parent) ∧
    next = router.drawn (childCount parent) ∧
    (CanSplit parent → (Splits parent children ↔ SplitsEvenly parent))

/-- Shares that are numbered in turn and go to the venues of an order are answered well. -/
theorem shares_answer {build : α → Nat → ChildOrder} {items : List α}
    (pushed : router.pushChildren (items.map build) = (children, next))
    (number venue : α → Nat) (fits : router.orderCounter < u64Size)
    (counted : childCount parent = items.length) (shared : parent.algo ≠ .iceberg)
    (evenly : SplitsEvenly parent ↔ items.length ∣ parent.remaining)
    (numbered : items.map number = List.range items.length)
    (venues : ∀ item ∈ items, venue item ∈ parent.venues)
    (reads : ∀ item orderId, (build item orderId).orderId = orderId ∧
      (build item orderId).quantityMicro = parent.remaining / items.length ∧
      (build item orderId).sequence = number item ∧ (build item orderId).venueId = venue item) :
    AnswersWell router parent children next := by
  have pushed_ := pushChildren_ids build (fun item orderId => (reads item orderId).1) fits items
  have quantities := map_pushChildren build ChildOrder.quantityMicro _
    (fun item orderId => (reads item orderId).2.1) router items
  have sequences := map_pushChildren build ChildOrder.sequence _
    (fun item orderId => (reads item orderId).2.2.1) router items
  have goes := map_pushChildren build ChildOrder.venueId _
    (fun item orderId => (reads item orderId).2.2.2) router items
  have length := length_pushChildren build router items
  rw [pushed] at pushed_ quantities sequences goes length
  have carried : Carries parent children ↔ items.length ∣ parent.remaining := by
    rw [← shares_sum_iff, ← quantities]
    unfold Carries
    split
    · next iceberg => exact absurd iceberg shared
    · exact Iff.rfl
  unfold AnswersWell
  rw [counted, evenly]
  refine ⟨pushed_.1, pushed_.2, fun _ => ⟨fun splits => carried.mp splits.carries,
    fun even => ⟨carried.mpr even, fun child member => ?_, ?_⟩⟩⟩
  · have listed := List.mem_map_of_mem (f := ChildOrder.venueId) member
    rw [goes] at listed
    obtain ⟨item, among, same⟩ := List.mem_map.mp listed
    rw [← same]
    exact venues item among
  · rw [sequences, numbered, length]

theorem zipIdx_numbered (venues : List Nat) :
    venues.zipIdx.map Prod.snd = List.range venues.zipIdx.length := by
  rw [List.zipIdx_map_snd, List.length_zipIdx, List.range_eq_range']

theorem splitTwap_answer (can : CanSplit parent) (algo : parent.algo = .twap)
    (fits : router.orderCounter < u64Size)
    (answered : router.splitTwap parent parent.remaining = some (children, next)) :
    AnswersWell router parent children next := by
  have venues : router.venuesOf parent = parent.venues := if_neg can.2
  have counted : childCount parent = _ := if_pos can
  simp only [algo, splitTwap, venues] at answered counted
  rw [dif_neg can.2] at answered
  apply shares_answer (Option.some.inj answered) id (rotated parent.venues can.2) fits
  · rw [counted, List.length_range]
  · rw [algo]
    decide
  · simp only [SplitsEvenly, algo, List.length_range]
  · simp
  · intro i _
    exact List.get_mem _ _
  · intro i orderId
    simp

theorem venues_answer {build : Nat × Nat → Nat → ChildOrder}
    (pushed : router.pushChildren (parent.venues.zipIdx.map build) = (children, next))
    (can : CanSplit parent) (algo : parent.algo = .vwap ∨ parent.algo = .sniper)
    (fits : router.orderCounter < u64Size)
    (reads : ∀ item orderId, (build item orderId).orderId = orderId ∧
      (build item orderId).quantityMicro = parent.remaining / parent.venues.length ∧
      (build item orderId).sequence = item.2 ∧ (build item orderId).venueId = item.1) :
    AnswersWell router parent children next := by
  have counted : childCount parent = _ := if_pos can
  have length : parent.venues.zipIdx.length = parent.venues.length := List.length_zipIdx
  apply shares_answer pushed Prod.snd Prod.fst fits
  · rw [counted, length]
    rcases algo with algo | algo <;> rw [algo]
  · rcases algo with algo | algo <;> rw [algo] <;> decide
  · rw [length]
    rcases algo with algo | algo <;> simp only [SplitsEvenly, algo]
  · exact zipIdx_numbered parent.venues
  · intro item member
    exact List.fst_mem_of_mem_zipIdx member
  · rw [length]
    exact reads

theorem splitIceberg_answer (can : CanSplit parent) (algo : parent.algo = .iceberg)
    (fits : router.orderCounter < u64Size)
    (answered : router.splitIceberg parent parent.remaining = some (children, next)) :
    AnswersWell router parent children next := by
  have venues : router.venuesOf parent = parent.venues := if_neg can.2
  have counted : childCount parent = _ := if_pos can
  simp only [algo, splitIceberg, venues] at answered counted
  obtain ⟨venue, others, listed⟩ := List.exists_cons_of_ne_nil can.2
  rw [listed, List.head?_cons] at answered
  obtain ⟨sum, computed, pushed⟩ := Option.map_eq_some_iff.mp answered
  obtain ⟨small, rfl⟩ := u64_eq_some.mp computed
  obtain ⟨rfl, rfl⟩ := Prod.mk.inj pushed
  have ids_ : ids router.orderCounter 1 = [router.orderCounter] := ids_succ fits 0
  unfold AnswersWell
  rw [counted, ids_]
  refine ⟨rfl, rfl, fun _ => ?_⟩
  simp only [SplitsEvenly, algo]
  constructor
  · intro splits
    have carried := splits.carries
    simp only [Carries, algo] at carried
    obtain ⟨child, same, shows_⟩ := carried
    rw [← List.singleton_inj.mp same] at shows_
    exact ⟨(shows_iff can.1 rfl rfl).mp shows_, small⟩
  · rintro ⟨enough, -⟩
    refine ⟨?_, ?_, rfl⟩
    · simp only [Carries, algo]
      exact ⟨_, rfl, (shows_iff can.1 rfl rfl).mpr enough⟩
    · intro child member
      rw [List.mem_singleton.mp member, listed]
      exact List.mem_cons_self

theorem splitOrder_of_not_can (cannot : ¬CanSplit parent) :
    router.splitOrder parent currentPrices = some ([], router) := by
  refine if_pos ?_
  by_contra some_
  obtain ⟨whole, venues⟩ := not_or.mp some_
  exact cannot ⟨by omega, venues⟩

theorem splitOrder_answer (fits : router.orderCounter < u64Size)
    (answered : router.splitOrder parent currentPrices = some (children, next)) :
    AnswersWell router parent children next := by
  by_cases can : CanSplit parent
  · have venues : router.venuesOf parent = parent.venues := if_neg can.2
    rw [splitOrder_of_can can] at answered
    cases algo : parent.algo with
    | twap =>
      simp only [algo] at answered
      exact splitTwap_answer can algo fits answered
    | vwap =>
      simp only [algo, splitVwap, venues, if_neg can.2] at answered
      exact venues_answer (Option.some.inj answered) can (.inl algo) fits
        fun item orderId => ⟨rfl, rfl, rfl, rfl⟩
    | iceberg =>
      simp only [algo] at answered
      exact splitIceberg_answer can algo fits answered
    | sniper =>
      simp only [algo, splitSniper, venues] at answered
      exact venues_answer (Option.some.inj answered) can (.inr algo) fits
        fun item orderId => ⟨rfl, rfl, rfl, rfl⟩
  · rw [splitOrder_of_not_can can] at answered
    obtain ⟨rfl, rfl⟩ := Prod.mk.inj (Option.some.inj answered)
    have counted : childCount parent = 0 := if_neg can
    unfold AnswersWell drawn
    rw [counted, Nat.add_zero, castU64_of_fits fits]
    exact ⟨rfl, rfl, fun splits => absurd splits can⟩

theorem splitOrder_answers (router : ExecutionRouter) (currentPrices : List (Nat × Nat))
    (even : CanSplit parent → SplitsEvenly parent) :
    ∃ children next, router.splitOrder parent currentPrices = some (children, next) := by
  by_cases can : CanSplit parent
  · have venues : router.venuesOf parent = parent.venues := if_neg can.2
    have even_ := even can
    rw [splitOrder_of_can can]
    unfold SplitsEvenly at even_
    cases algo : parent.algo with
    | twap =>
      simp only [splitTwap, venues]
      rw [dif_neg can.2]
      exact ⟨_, _, rfl⟩
    | vwap => exact ⟨_, _, rfl⟩
    | sniper => exact ⟨_, _, rfl⟩
    | iceberg =>
      simp only [algo] at even_
      obtain ⟨venue, others, listed⟩ := List.exists_cons_of_ne_nil can.2
      simp only [splitIceberg, venues, listed, List.head?_cons]
      rw [u64_eq_some.mpr ⟨even_.2, rfl⟩]
      exact ⟨_, _, rfl⟩
  · exact ⟨[], router, splitOrder_of_not_can can⟩

end Children

/-! ## Any orders -/

section Orders

variable {router final : ExecutionRouter} {calls : List (ParentOrder × List (Nat × Nat))}
  {answers : List (List ChildOrder)}

/-- The number of children of some orders. -/
def totalCount (calls : List (ParentOrder × List (Nat × Nat))) : Nat :=
  (calls.map fun call => childCount call.1).sum

/-- The orders are split, those that can be without loss, and no two children have one id. -/
def SplitsAll (calls : List (ParentOrder × List (Nat × Nat))) (answers : List (List ChildOrder)) :
    Prop :=
  List.Forall₂ (fun call children => CanSplit call.1 → Splits call.1 children) calls answers ∧
    (answers.flatten.map ChildOrder.orderId).Nodup

theorem splitOrders_answer (fits : router.orderCounter < u64Size)
    (answered : router.splitOrders calls = some (answers, final)) :
    answers.flatten.map ChildOrder.orderId = ids router.orderCounter (totalCount calls) ∧
      (List.Forall₂ (fun call children => CanSplit call.1 → Splits call.1 children) calls answers ↔
        ∀ call ∈ calls, CanSplit call.1 → SplitsEvenly call.1) := by
  induction calls generalizing router answers with
  | nil =>
    obtain ⟨rfl, -⟩ := Prod.mk.inj (Option.some.inj answered)
    simp [totalCount]
  | cons call rest ih =>
    obtain ⟨⟨children, next⟩, first, later⟩ := Option.bind_eq_some_iff.mp answered
    obtain ⟨⟨others, last⟩, split, same⟩ := Option.map_eq_some_iff.mp later
    obtain ⟨rfl, rfl⟩ := Prod.mk.inj same
    obtain ⟨ids_, moved, even⟩ := splitOrder_answer fits first
    subst moved
    obtain ⟨idsLater, evenLater⟩ := ih (Nat.mod_lt _ (by decide)) split
    constructor
    · have count : totalCount (call :: rest) = childCount call.1 + totalCount rest := by
        simp [totalCount]
      rw [List.flatten_cons, List.map_append, ids_, idsLater, count, ids_add]
      rfl
    · rw [List.forall₂_cons, evenLater, List.forall_mem_cons]
      constructor
      · rintro ⟨splits, all⟩
        exact ⟨fun can => (even can).mp (splits can), all⟩
      · rintro ⟨evenly, all⟩
        exact ⟨fun can => (even can).mpr (evenly can), all⟩

theorem splitOrders_answers (router : ExecutionRouter)
    (even : ∀ call ∈ calls, CanSplit call.1 → SplitsEvenly call.1) :
    ∃ answers final, router.splitOrders calls = some (answers, final) := by
  induction calls generalizing router with
  | nil => exact ⟨_, _, rfl⟩
  | cons call rest ih =>
    obtain ⟨first, later⟩ := List.forall_mem_cons.mp even
    obtain ⟨children, next, answered⟩ := splitOrder_answers router call.2 first
    obtain ⟨answers, final, split⟩ := ih next later
    refine ⟨children :: answers, final, ?_⟩
    simp only [splitOrders, answered, Option.bind_some, split, Option.map_some]

/-- All orders of a router are split without loss exactly if every one that can be is split evenly,
and their children are no more than the ids. -/
theorem splitsAll_iff (defaultVenues : List Nat)
    (calls : List (ParentOrder × List (Nat × Nat))) :
    (∃ answers final, (new defaultVenues).splitOrders calls = some (answers, final) ∧
      SplitsAll calls answers) ↔
      (∀ call ∈ calls, CanSplit call.1 → SplitsEvenly call.1) ∧ totalCount calls ≤ u64Size := by
  have fits : (new defaultVenues).orderCounter < u64Size := (by decide : 1 < u64Size)
  constructor
  · rintro ⟨answers, final, answered, splits, distinct⟩
    obtain ⟨ids_, even⟩ := splitOrders_answer fits answered
    rw [ids_, ids_nodup_iff] at distinct
    exact ⟨even.mp splits, distinct⟩
  · rintro ⟨evenly, few⟩
    obtain ⟨answers, final, answered⟩ := splitOrders_answers (new defaultVenues) evenly
    obtain ⟨ids_, even⟩ := splitOrders_answer fits answered
    refine ⟨answers, final, answered, even.mpr evenly, ?_⟩
    rw [ids_]
    exact ids_nodup_iff.mpr few

/-- An order for 1000 units in three seconds. -/
def threeSeconds : ParentOrder where
  orderId := 1
  side := .buy
  totalQuantityMicro := 1000
  executedQuantityMicro := 0
  algo := .twap
  timeHorizonMs := 3000
  venues := [1, 2]

/-- Three slices of 333 leave one unit of the order, and an iceberg of 1000 units shows 10000. -/
theorem loses_remainder :
    CanSplit threeSeconds ∧
      ((new []).splitOrder threeSeconds []).map (fun answer =>
        answer.1.map ChildOrder.quantityMicro) = some [333, 333, 333] ∧
      ((new []).splitOrder { threeSeconds with algo := .iceberg } []).map (fun answer =>
        answer.1.map ChildOrder.quantityMicro) = some [10000] ∧
      ¬ ∃ answers final, (new []).splitOrders [(threeSeconds, [])] = some (answers, final) ∧
        SplitsAll [(threeSeconds, [])] answers := by
  have can : CanSplit threeSeconds := by decide
  have quantities : ((new []).splitOrder threeSeconds []).map (fun answer =>
      answer.1.map ChildOrder.quantityMicro) = some [333, 333, 333] := by decide
  refine ⟨can, quantities, by decide, ?_⟩
  rintro ⟨answers, final, answered, splits, -⟩
  obtain ⟨⟨children, next⟩, first, later⟩ := Option.bind_eq_some_iff.mp answered
  rw [first] at quantities
  have shares : children.map ChildOrder.quantityMicro = [333, 333, 333] :=
    Option.some.inj quantities
  obtain ⟨⟨others, last⟩, -, same⟩ := Option.map_eq_some_iff.mp later
  obtain ⟨rfl, -⟩ := Prod.mk.inj same
  have carried := ((List.forall₂_cons.mp splits).1 can).carries
  have total : (children.map ChildOrder.quantityMicro).sum = 1000 := carried
  rw [shares] at total
  exact absurd total (by decide)

end Orders

end TradingBot.Execution.ExecutionRouter
