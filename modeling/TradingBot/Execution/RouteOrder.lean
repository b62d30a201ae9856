import Mathlib.Data.List.Pairwise
import TradingBot.Execution.SorEngine

/-!
# The order of routes

The heap of the router is turned around, so what it has at its root is a route of the least score.
An order that is split goes to the best venue whole; one that is not split gets the routes as the
heap has them.
-/

open MachineInt BinaryHeap

namespace TradingBot.Execution.Sor

/-- An order is split. -/
def RoutingConfig.Splits (config : RoutingConfig) (quantity : Nat) : Prop :=
  config.allowSplitting = true ∧ config.minSplitQuantity * 2 < quantity

/-- The routes come with the best first, of different venues, within the costs that are tolerated,
and those of a split are together of the quantity that is asked for. -/
structure BestFirst (config : RoutingConfig) (quantity : Nat) (routes : List ExecutionRoute) :
    Prop where
  ordered : routes.Pairwise fun left right => right.priorityScore ≤ left.priorityScore
  once : (routes.map ExecutionRoute.venue).Nodup
  within : ∀ route ∈ routes, route.totalCostBps ≤ config.maxSlippageBps
  whole : config.Splits quantity → routes ≠ [] → config.minSplitQuantity ≤ quantity →
    (routes.map ExecutionRoute.quantity).sum = quantity

section Search

variable (round : ℚ → ℚ) (config : RoutingConfig) (side : OrderSide) (quantity : Nat)
  (market : List VenueLevel)

/-- A route is within the costs that are tolerated. -/
def Cheap (route : ExecutionRoute) : Prop := i64ToU64 route.totalCostBps ≤ config.maxSlippageBps

/-- A venue is scored with a level of the market, and a route is what comes of it. -/
def Scored (venue : VenueInfo) (level : VenueLevel) (route : Option ExecutionRoute) : Prop :=
  SorEngine.isVenueSuitable venue quantity side = true ∧
    SorEngine.levelOf market venue = some level ∧
    calculateRouteScore round config venue level quantity = route

/-- No computation leaves its type. -/
structure Fits (venues : List VenueInfo) : Prop where
  scores : ∀ venue ∈ venues, ∀ level, ¬ Scored round config side quantity market venue level none
  splitting : config.allowSplitting = true → config.minSplitQuantity * 2 < u64Size

/-- The venues that can be afforded have one score. -/
def EqualScores (venues : List VenueInfo) : Prop :=
  ∀ first ∈ venues, ∀ second ∈ venues, ∀ level other left right,
    Scored round config side quantity market first level (some left) → Cheap config left →
      Scored round config side quantity market second other (some right) → Cheap config right →
        left.priorityScore = right.priorityScore

/-- The routes that are pushed into the heap, in turn. -/
def offers : List VenueInfo → Option (List ExecutionRoute)
  | [] => some []
  | venue :: rest =>
    if !SorEngine.isVenueSuitable venue quantity side then offers rest
    else
      match SorEngine.levelOf market venue with
      | none => offers rest
      | some level => (calculateRouteScore round config venue level quantity).bind fun route =>
        (offers rest).map fun later =>
          if i64ToU64 route.totalCostBps ≤ config.maxSlippageBps then route :: later else later

variable {round config side quantity market}

theorem scoreVenues_eq (routes : List ExecutionRoute) (venues : List VenueInfo) :
    SorEngine.scoreVenues round config side quantity market routes venues =
      (offers round config side quantity market venues).map
        fun found => found.foldl (push routeLe) routes := by
  induction venues generalizing routes with
  | nil => rfl
  | cons venue rest ih =>
    unfold SorEngine.scoreVenues offers
    cases SorEngine.isVenueSuitable venue quantity side with
    | false => exact ih routes
    | true =>
      cases SorEngine.levelOf market venue with
      | none => exact ih routes
      | some level =>
        cases scored : calculateRouteScore round config venue level quantity with
        | none => simp [scored]
        | some route =>
          by_cases cheap : i64ToU64 route.totalCostBps ≤ config.maxSlippageBps
          · simp [scored, cheap, ih, Function.comp_def]
          · simp [scored, cheap, ih]

theorem score_frame {venue : VenueInfo} {level : VenueLevel} {route : ExecutionRoute}
    (scored : calculateRouteScore round config venue level quantity = some route) :
    route.venue = venue.venue ∧ route.quantity = quantity ∧ route.totalCostBps ≤ i64Max := by
  unfold calculateRouteScore at scored
  simp only [Option.bind_eq_bind, Option.bind_eq_some_iff, Option.some.injEq] at scored
  obtain ⟨fee, -, total, fits, quick, -, latency, -, cheap, -, fees, -, liquidity, -, first, -,
    priority, -, rfl⟩ := scored
  obtain ⟨⟨-, upper⟩, rfl⟩ := i64_eq_some.mp fits
  exact ⟨rfl, rfl, upper⟩

theorem cheap_within {route : ExecutionRoute} (fits : route.totalCostBps ≤ i64Max)
    (cheap : Cheap config route) : route.totalCostBps ≤ config.maxSlippageBps := by
  unfold Cheap i64ToU64 at cheap
  unfold i64Max at fits
  unfold u64Size at cheap
  omega

/-- A venue is not scored and adds no route, or it is scored with one level, and its route is pushed
before the others if it can be afforded. -/
theorem offers_cons (venue : VenueInfo) (rest : List VenueInfo) :
    (∀ level route, ¬ Scored round config side quantity market venue level route) ∧
        offers round config side quantity market (venue :: rest) =
          offers round config side quantity market rest ∨
      ∃ level own, (∀ other route, Scored round config side quantity market venue other route ↔
          other = level ∧ route = own) ∧
        offers round config side quantity market (venue :: rest) = own.bind fun route =>
          (offers round config side quantity market rest).map fun later =>
            if i64ToU64 route.totalCostBps ≤ config.maxSlippageBps then route :: later
            else later := by
  rw [offers]
  cases suitable : SorEngine.isVenueSuitable venue quantity side with
  | false =>
    refine .inl ⟨?_, rfl⟩
    rintro level route ⟨fits, -⟩
    cases suitable.symm.trans fits
  | true =>
    cases found : SorEngine.levelOf market venue with
    | none =>
      refine .inl ⟨?_, rfl⟩
      rintro level route ⟨-, there, -⟩
      cases found.symm.trans there
    | some level =>
      refine .inr ⟨level, calculateRouteScore round config venue level quantity, ?_, rfl⟩
      intro other route
      constructor
      · rintro ⟨-, there, scored⟩
        cases found.symm.trans there
        exact ⟨rfl, scored.symm⟩
      · rintro ⟨rfl, rfl⟩
        exact ⟨suitable, found, rfl⟩

theorem offers_isSome (venues : List VenueInfo) :
    (offers round config side quantity market venues).isSome = true ↔
      ∀ venue ∈ venues, ∀ level, ¬ Scored round config side quantity market venue level none := by
  induction venues with
  | nil => exact ⟨fun _ _ member => (nomatch member), fun _ => rfl⟩
  | cons venue rest ih =>
    rw [List.forall_mem_cons, ← ih]
    obtain ⟨unscored, same⟩ | ⟨level, own, scored, same⟩ := offers_cons venue rest
    · have none_ := fun level => unscored level none
      rw [same]
      exact (and_iff_right none_).symm
    · rw [same]
      cases own with
      | none =>
        refine iff_of_false Bool.false_ne_true fun both => ?_
        exact both.1 level ((scored level none).mpr ⟨rfl, rfl⟩)
      | some route =>
        have none_ : ∀ other, ¬ Scored round config side quantity market venue other none := by
          intro other missing
          cases ((scored other none).mp missing).2
        rw [and_iff_right none_, Option.bind_some, Option.isSome_map]

theorem mem_offers {venues : List VenueInfo} {found : List ExecutionRoute}
    (offered : offers round config side quantity market venues = some found)
    (route : ExecutionRoute) :
    route ∈ found ↔ (∃ venue ∈ venues, ∃ level,
      Scored round config side quantity market venue level (some route)) ∧ Cheap config route := by
  induction venues generalizing found with
  | nil =>
    cases offered
    simp
  | cons venue rest ih =>
    rw [List.exists_mem_cons_iff]
    obtain ⟨unscored, same⟩ | ⟨level, own, scored, same⟩ := offers_cons venue rest
    · have none_ : ¬ ∃ level, Scored round config side quantity market venue level (some route) :=
        fun ⟨level, here⟩ => unscored level (some route) here
      rw [ih (same.symm.trans offered), or_iff_right none_]
    · obtain ⟨pushed, rfl, added⟩ := Option.bind_eq_some_iff.mp (same.symm.trans offered)
      obtain ⟨later, offeredLater, rfl⟩ := Option.map_eq_some_iff.mp added
      have exactly :
          (∃ level, Scored round config side quantity market venue level (some route)) ↔
            route = pushed := by
        constructor
        · rintro ⟨other, here⟩
          exact Option.some.inj ((scored other (some route)).mp here).2
        · rintro rfl
          exact ⟨level, (scored level (some route)).mpr ⟨rfl, rfl⟩⟩
      rw [exactly, or_and_right, ← ih offeredLater]
      split
      next cheap =>
        have affordable : route = pushed → Cheap config route := fun here => here ▸ cheap
        rw [List.mem_cons, and_iff_left_of_imp affordable]
      next dear =>
        have nothing : ¬ (route = pushed ∧ Cheap config route) := fun both => dear (both.1 ▸ both.2)
        exact (or_iff_right nothing).symm

theorem offers_venues {venues : List VenueInfo} {found : List ExecutionRoute}
    (offered : offers round config side quantity market venues = some found) :
    (found.map ExecutionRoute.venue).Sublist (venues.map VenueInfo.venue) := by
  induction venues generalizing found with
  | nil =>
    cases offered
    exact List.Sublist.refl _
  | cons venue rest ih =>
    rw [List.map_cons]
    obtain ⟨-, same⟩ | ⟨level, own, scored, same⟩ := offers_cons venue rest
    · exact (ih (same.symm.trans offered)).cons _
    · obtain ⟨pushed, rfl, added⟩ := Option.bind_eq_some_iff.mp (same.symm.trans offered)
      obtain ⟨later, offeredLater, rfl⟩ := Option.map_eq_some_iff.mp added
      obtain ⟨-, -, came⟩ := (scored level (some pushed)).mpr ⟨rfl, rfl⟩
      split
      · rw [List.map_cons, (score_frame came).1]
        exact (ih offeredLater).cons_cons _
      · exact (ih offeredLater).cons _

end Search

/-! ## The heap of routes -/

theorem routeLe_total (left right : ExecutionRoute) :
    routeLe left right = true ∨ routeLe right left = true := by
  have either := le_total right.priorityScore left.priorityScore
  exact either.imp decide_eq_true decide_eq_true

theorem routeLe_trans (first second third : ExecutionRoute)
    (left : routeLe first second = true) (right : routeLe second third = true) :
    routeLe first third = true := by
  have upper : second.priorityScore ≤ first.priorityScore := of_decide_eq_true left
  have lower : third.priorityScore ≤ second.priorityScore := of_decide_eq_true right
  exact decide_eq_true (le_trans lower upper)

variable {routes : List ExecutionRoute}

theorem equal_of_ordered (heap : Heap routeLe routes)
    (ordered : routes.Pairwise fun left right => right.priorityScore ≤ left.priorityScore) :
    ∀ left ∈ routes, ∀ right ∈ routes, left.priorityScore = right.priorityScore := by
  cases routes with
  | nil => exact fun _ member => nomatch member
  | cons root rest =>
    have same : ∀ route ∈ root :: rest, route.priorityScore = root.priorityScore := by
      intro route member
      have least : root.priorityScore ≤ route.priorityScore :=
        of_decide_eq_true (heap.root_greatest routeLe_total routeLe_trans rfl member)
      obtain rfl | later := List.mem_cons.mp member
      · rfl
      · have most := (List.pairwise_cons.mp ordered).1 route later
        omega
    intro left leftMember right rightMember
    rw [same left leftMember, same right rightMember]

/-! ## A split -/

theorem optimizeSplit_whole {config : RoutingConfig} {quantity : Nat} (side : OrderSide)
    (positive : 0 < quantity) (enough : config.minSplitQuantity ≤ quantity)
    (wholes : ∀ route ∈ routes, route.quantity = quantity) :
    optimizeSplit config routes quantity side = some [] ∧ routes = [] ∨
      ∃ best ∈ routes, optimizeSplit config routes quantity side = some [best] := by
  unfold optimizeSplit
  by_cases empty : routes = []
  · exact .inl ⟨(if_pos (.inl empty)).trans (congrArg some empty), empty⟩
  · have some_ : ¬ (routes = [] ∨ quantity = 0) := by
      rintro (none_ | zero)
      · exact empty none_
      · omega
    rw [if_neg some_]
    dsimp only
    have perm := List.mergeSort_perm routes
      fun left right => decide (right.priorityScore ≤ left.priorityScore)
    cases sorted : routes.mergeSort
        fun left right => decide (right.priorityScore ≤ left.priorityScore) with
    | nil =>
      rw [sorted] at perm
      exact absurd perm.nil_eq.symm empty
    | cons best rest =>
      have member : best ∈ routes := by
        rw [sorted] at perm
        exact perm.mem_iff.mp List.mem_cons_self
      have whole := wholes best member
      have taken : min quantity best.quantity = quantity := by rw [whole, Nat.min_self]
      have same : { best with quantity := min quantity best.quantity } = best := by
        rw [taken, ← whole]
      have done : ∀ others, allocate config.minSplitQuantity 0 [best] others = (0, [best]) := by
        intro others
        cases others <;> rfl
      refine .inr ⟨best, member, ?_⟩
      rw [allocate, if_neg (Nat.ne_of_gt positive), if_pos (taken.symm ▸ enough), same, taken,
        Nat.sub_self, List.nil_append, done]
      rfl

theorem bestFirst_singleton {config : RoutingConfig} {quantity : Nat} {route : ExecutionRoute}
    (within : route.totalCostBps ≤ config.maxSlippageBps) (whole : route.quantity = quantity) :
    BestFirst config quantity [route] where
  ordered := List.pairwise_singleton _ _
  once := List.nodup_singleton _
  within := fun other member => List.mem_singleton.mp member ▸ within
  whole := fun _ _ _ => by
    rw [List.map_singleton, List.sum_singleton]
    exact whole

theorem bestFirst_nil (config : RoutingConfig) (quantity : Nat) : BestFirst config quantity [] where
  ordered := List.Pairwise.nil
  once := List.nodup_nil
  within := fun _ member => nomatch member
  whole := fun _ none_ => absurd rfl none_

/-! ## The search -/

variable {round : ℚ → ℚ} {engine : SorEngine} {side : OrderSide} {quantity : Nat}
  {market : List VenueLevel}

theorem search_routes (fits : Fits round engine.routingConfig side quantity market engine.venues) :
    ∃ routes, SorEngine.scoreVenues round engine.routingConfig side quantity market []
        engine.venues = some routes ∧ Heap routeLe routes ∧
      (routes.map ExecutionRoute.venue).Nodup ∧
      ∀ route, route ∈ routes ↔ (∃ venue ∈ engine.venues, ∃ level,
        Scored round engine.routingConfig side quantity market venue level (some route)) ∧
          Cheap engine.routingConfig route := by
  obtain ⟨found, offered⟩ :=
    Option.isSome_iff_exists.mp ((offers_isSome engine.venues).mpr fits.scores)
  have perm : (found.foldl (push routeLe) []).Perm found := pushes_perm found []
  refine ⟨found.foldl (push routeLe) [], ?_, ?_, ?_, fun route => ?_⟩
  · rw [scoreVenues_eq, offered]
    rfl
  · exact pushes_heap routeLe_total routeLe_trans found heap_nil
  · have distinct := (offers_venues offered).nodup engine.distinct
    exact (perm.map ExecutionRoute.venue).nodup_iff.mpr distinct
  · exact perm.mem_iff.trans (mem_offers offered route)

theorem fits_of_found {result : List ExecutionRoute × SorEngine}
    (found : engine.findBestRoute round side quantity market = some result) :
    Fits round engine.routingConfig side quantity market engine.venues := by
  unfold SorEngine.findBestRoute at found
  simp only [Option.bind_eq_bind, Option.bind_eq_some_iff] at found
  obtain ⟨routes, scored, chosen, ended, -⟩ := found
  constructor
  · apply (offers_isSome engine.venues).mp
    rw [scoreVenues_eq] at scored
    obtain ⟨offered, some_, -⟩ := Option.map_eq_some_iff.mp scored
    rw [some_]
    rfl
  · intro allowed
    unfold splitRoutes at ended
    rw [if_pos allowed] at ended
    obtain ⟨twice, fitted, -⟩ := Option.bind_eq_some_iff.mp ended
    exact (u64_eq_some.mp fitted).1

/-- What a search that fits returns: the routes of the heap, or of a split. -/
theorem findBestRoute_eq
    (scored : SorEngine.scoreVenues round engine.routingConfig side quantity market []
      engine.venues = some routes)
    (splitting : engine.routingConfig.allowSplitting = true →
      engine.routingConfig.minSplitQuantity * 2 < u64Size) :
    (engine.routingConfig.Splits quantity →
        engine.findBestRoute round side quantity market =
          (optimizeSplit engine.routingConfig routes quantity side).map
            fun result => (result, { engine with state := .routing })) ∧
      (¬ engine.routingConfig.Splits quantity →
        engine.findBestRoute round side quantity market =
          some (routes, { engine with state := .routing })) := by
  unfold SorEngine.findBestRoute RoutingConfig.Splits splitRoutes
  cases allowed : engine.routingConfig.allowSplitting with
  | false => simp [scored, allowed]
  | true =>
    have twice := u64_eq_some.mpr ⟨splitting allowed, rfl⟩
    by_cases large : engine.routingConfig.minSplitQuantity * 2 < quantity
    · simp only [scored, allowed, twice, large, if_true, Option.bind_eq_bind, Option.bind_some,
        and_true, not_true, false_imp_iff, true_imp_iff]
      cases optimizeSplit engine.routingConfig routes quantity side <;> rfl
    · simp [scored, allowed, twice, large]

/-- A search returns the best route first, of different venues and within the costs that are
tolerated, exactly if no computation leaves its type, and the order is split or all venues that can
be afforded have one score. -/
theorem best_first_iff (round : ℚ → ℚ) (engine : SorEngine) (side : OrderSide) (quantity : Nat)
    (market : List VenueLevel) :
    (∃ routes next, engine.findBestRoute round side quantity market = some (routes, next) ∧
        BestFirst engine.routingConfig quantity routes) ↔
      Fits round engine.routingConfig side quantity market engine.venues ∧
        (engine.routingConfig.Splits quantity ∨
          EqualScores round engine.routingConfig side quantity market engine.venues) := by
  constructor
  · rintro ⟨routes, next, found, best⟩
    have fits := fits_of_found found
    refine ⟨fits, or_iff_not_imp_left.mpr fun whole => ?_⟩
    obtain ⟨heap, scored, ordered, -, members⟩ := search_routes fits
    have returned := (findBestRoute_eq scored fits.splitting).2 whole
    cases found.symm.trans returned
    have equal := equal_of_ordered ordered best.ordered
    intro first firstMember second secondMember level other left right leftScored leftCheap
      rightScored rightCheap
    have leftMember := (members left).mpr ⟨⟨first, firstMember, level, leftScored⟩, leftCheap⟩
    have rightMember := (members right).mpr ⟨⟨second, secondMember, other, rightScored⟩, rightCheap⟩
    exact equal left leftMember right rightMember
  · rintro ⟨fits, splits⟩
    obtain ⟨heap, scored, -, distinct, members⟩ := search_routes fits
    have within : ∀ route ∈ heap, route.totalCostBps ≤ engine.routingConfig.maxSlippageBps := by
      intro route member
      obtain ⟨⟨venue, -, level, -, -, came⟩, cheap⟩ := (members route).mp member
      exact cheap_within (score_frame came).2.2 cheap
    by_cases split : engine.routingConfig.Splits quantity
    · have returned := (findBestRoute_eq scored fits.splitting).1 split
      have wholes : ∀ route ∈ heap, route.quantity = quantity := by
        intro route member
        obtain ⟨⟨venue, -, level, -, -, came⟩, -⟩ := (members route).mp member
        exact (score_frame came).2.1
      have large := split.2
      obtain ⟨none_, -⟩ | ⟨best, member, one⟩ := optimizeSplit_whole side
        (show 0 < quantity by omega)
        (show engine.routingConfig.minSplitQuantity ≤ quantity by omega) wholes
      · rw [none_] at returned
        exact ⟨[], _, returned, bestFirst_nil _ _⟩
      · rw [one] at returned
        exact ⟨[best], _, returned, bestFirst_singleton (within best member) (wholes best member)⟩
    · have returned := (findBestRoute_eq scored fits.splitting).2 split
      have equal := splits.resolve_left split
      refine ⟨heap, _, returned, ?_, distinct, within, fun splits => absurd splits split⟩
      apply List.pairwise_of_forall_mem_list
      intro left leftMember right rightMember
      obtain ⟨⟨first, firstMember, level, leftScored⟩, leftCheap⟩ := (members left).mp leftMember
      obtain ⟨⟨second, secondMember, other, rightScored⟩, rightCheap⟩ :=
        (members right).mp rightMember
      exact (equal first firstMember second secondMember level other left right leftScored
        leftCheap rightScored rightCheap).ge

/-- The market of `test_sor_routing`. -/
def testMarket : List VenueLevel :=
  [⟨.spot, 500000, 10000, 10, 50, true⟩, ⟨.futuresUsdM, 499950, 50000, 4, 40, true⟩]

/-- Without splitting, and exact floats, the order of the test gets the spot market before the
futures that have the better score. -/
theorem worse_route_first : ¬ ∃ routes next,
    (SorEngine.new { RoutingConfig.default with allowSplitting := false }).findBestRoute id .buy
        5000 testMarket = some (routes, next) ∧
      BestFirst { RoutingConfig.default with allowSplitting := false } 5000 routes := by
  rintro ⟨routes, next, found, best⟩
  have scores : ((SorEngine.new { RoutingConfig.default with
      allowSplitting := false }).findBestRoute id .buy 5000 testMarket).map
        (fun result => result.1.map ExecutionRoute.priorityScore) = some [48, 49] := by
    decide +kernel
  rw [found] at scores
  have listed : routes.map ExecutionRoute.priorityScore = [48, 49] := Option.some.inj scores
  have ordered : (routes.map ExecutionRoute.priorityScore).Pairwise fun left right =>
      right ≤ left := List.pairwise_map.mpr best.ordered
  rw [listed] at ordered
  revert ordered
  decide

end TradingBot.Execution.Sor
