import TradingBot.Arbitrage.CycleExtraction

/-!
# The cycles that are found

What is returned is the backward listing of negative cycles that can be reached. Where the opposite
edges are missing, the cycle is lost; where some of them are, what is returned need not be a cycle;
and going back may end at a start that no cycle leads back to.
-/

open Network

namespace TradingBot.Arbitrage.BellmanFordSolver

variable {solver : BellmanFordSolver}

/-! ## What is returned -/

/-- A cycle that is returned is a cycle of the graph, with its edges and their weight, that pays
enough. -/
structure IsReal (math : Logarithm) (solver : BellmanFordSolver) (cycle : ArbCycle) : Prop where
  /-- The last symbol is the first. -/
  closed : cycle.cycleSymbols.head? = cycle.cycleSymbols.getLast?
  /-- The edges lead from each symbol to the next. -/
  steps : cycle.edges.map (fun edge => (edge.fromSymbol, edge.toSymbol)) =
    cycle.cycleSymbols.zip cycle.cycleSymbols.tail
  nonempty : cycle.edges ≠ []
  /-- The edges are edges of the graph. -/
  listed : ∀ edge ∈ cycle.edges, edge ∈ solver.edges
  weight : cycle.totalLogWeight = (cycle.edges.map Edge.logWeight).sum
  profit : cycle.profitBps = math.profitBps cycle.totalLogWeight
  /-- The profit is enough. -/
  pays : solver.minProfitBps ≤ cycle.profitBps

/-- The cycles returned are real, and some is if there is a negative cycle and all of them pay. -/
structure FindsCycles (math : Logarithm) (order : SetOrder Nat) (solver : BellmanFordSolver)
    (startSymbol : Option String) : Prop where
  real : ∀ cycle ∈ (solver.findArbitrageCycles math order startSymbol).2, IsReal math solver cycle
  found : (∃ cycle, solver.network.IsCycle cycle ∧ solver.network.total cycle < 0) →
    (∀ cycle, solver.network.IsCycle cycle → solver.network.total cycle < 0 →
      solver.minProfitBps ≤ math.profitBps (solver.network.total cycle)) →
    (solver.findArbitrageCycles math order startSymbol).2 ≠ []

/-- Backwards, no negative cycle that can be reached pays enough, or none of it is found. -/
def Silent (math : Logarithm) (solver : BellmanFordSolver) (startSymbol : Option String) : Prop :=
  ∀ cycle, solver.Reached startSymbol cycle → solver.backward cycle = [] ∨
    math.profitBps (solver.network.total (solver.backward cycle)) < solver.minProfitBps

/-- Backwards, a negative cycle that can be reached and pays enough is found as a whole. -/
def Harmless (math : Logarithm) (solver : BellmanFordSolver) (startSymbol : Option String) :
    Prop :=
  ∀ cycle, solver.Reached startSymbol cycle →
    (solver.backward cycle).length = cycle.length ∨ solver.backward cycle = [] ∨
      math.profitBps (solver.network.total (solver.backward cycle)) < solver.minProfitBps

/-- There is no negative cycle, or one that does not pay enough. -/
def Settled (math : Logarithm) (solver : BellmanFordSolver) : Prop :=
  (∀ cycle, solver.network.IsCycle cycle → 0 ≤ solver.network.total cycle) ∨
    ∃ cycle, solver.network.IsCycle cycle ∧ solver.network.total cycle < 0 ∧
      math.profitBps (solver.network.total cycle) < solver.minProfitBps

/-- Some negative cycle leads through the start without meeting all symbols. -/
def Turns (solver : BellmanFordSolver) (startSymbol : Option String) : Prop :=
  ∃ cycle, solver.network.IsCycle cycle ∧ solver.network.total cycle < 0 ∧
    cycle.length < solver.symbols.length ∧
    ∃ edge ∈ cycle, edge.fromSymbol = solver.idxToSymbol (solver.startIdx startSymbol)

/-- Backwards, every negative cycle that can be reached is found and pays enough. -/
def PaysBack (math : Logarithm) (solver : BellmanFordSolver) (startSymbol : Option String) :
    Prop :=
  ∀ cycle, solver.Reached startSymbol cycle → solver.backward cycle ≠ [] ∧
    solver.minProfitBps ≤ math.profitBps (solver.network.total (solver.backward cycle))

theorem ends_of_complete (edges : List Edge)
    (complete : (edges.filterMap solver.opposite).length = edges.length) :
    (edges.filterMap solver.opposite).map (fun edge => (edge.fromSymbol, edge.toSymbol)) =
      edges.map fun edge => (edge.toSymbol, edge.fromSymbol) := by
  induction edges with
  | nil => rfl
  | cons edge rest ih =>
    have shorter := List.length_filterMap_le solver.opposite rest
    cases found : solver.opposite edge with
    | none =>
      rw [List.filterMap_cons_none found, List.length_cons] at complete
      omega
    | some other =>
      rw [List.filterMap_cons_some found, List.length_cons, List.length_cons] at complete
      have ends : other.fromSymbol = edge.toSymbol ∧ other.toSymbol = edge.fromSymbol := by
        simpa using List.find?_some found
      rw [List.filterMap_cons_some found, List.map_cons, List.map_cons, ih (by omega), ends.1,
        ends.2]

theorem backward_listed (cycle : List Edge) :
    ∀ edge ∈ solver.backward cycle, edge ∈ solver.edges := by
  intro edge member
  obtain ⟨_, _, found⟩ := List.mem_filterMap.mp member
  exact List.mem_of_find?_eq_some found

section Returned

variable {math : Logarithm} {order : SetOrder Nat} {startSymbol : Option String}

theorem nothing_of_silent (listed : solver.Listed) (silent : solver.Silent math startSymbol) :
    (solver.findArbitrageCycles math order startSymbol).2 = [] := by
  refine List.eq_nil_iff_forall_not_mem.mpr fun cycle member => ?_
  obtain ⟨nonempty, pays, vertex, extracted⟩ := mem_profitableCycles member
  obtain ⟨forward, reached, _, found, _, _, _, profit⟩ :=
    extractCycle_backward listed nonempty extracted
  rcases silent forward reached with none_ | poor
  · exact found none_
  · exact absurd (profit ▸ pays) (not_le.mpr poor)

theorem real_of_harmless (listed : solver.Listed) (harmless : solver.Harmless math startSymbol) :
    ∀ cycle ∈ (solver.findArbitrageCycles math order startSymbol).2, IsReal math solver cycle := by
  intro cycle member
  obtain ⟨nonempty, pays, vertex, extracted⟩ := mem_profitableCycles member
  obtain ⟨forward, reached, edges, found, symbols, pairs, weight, profit⟩ :=
    extractCycle_backward listed nonempty extracted
  rcases harmless forward reached with complete | none_ | poor
  · have whole : (solver.backward forward).length = forward.reverse.length := by
      rw [complete, List.length_reverse]
    refine ⟨?_, ?_, edges ▸ found, ?_, ?_, weight ▸ profit, pays⟩
    · rw [symbols]
      cases forward.reverse.map Edge.toSymbol with
      | nil => rfl
      | cons first rest =>
        rw [List.take_succ_cons, List.take_zero, List.getLast?_concat]
        rfl
    · rw [edges, pairs]
      exact ends_of_complete forward.reverse whole
    · rw [edges]
      exact backward_listed forward
    · rw [weight, edges]
      rfl
  · exact absurd none_ found
  · exact absurd (profit ▸ pays) (not_le.mpr poor)

/-- If a negative cycle turns back to the start, every vertex with an edge to relax is traced to
a circle. -/
theorem traced_of_turns (listed : solver.Listed) (nonempty : solver.symbols ≠ [])
    (turns : solver.Turns startSymbol) {vertex : Nat}
    (member : vertex ∈ solver.verticesInCycle (solver.finalLabels startSymbol)) :
    ∃ current traced,
      stepBack (solver.finalLabels startSymbol).predecessor solver.symbols.length vertex =
        some current ∧
      traceCycle (solver.finalLabels startSymbol).predecessor (solver.symbols.length + 1) []
        current = some traced := by
  obtain ⟨startIn, startsAt⟩ := startIdx_symbol nonempty startSymbol
  obtain ⟨via, traces⟩ := finalLabels_traces solver startSymbol
  obtain ⟨cycle, cyclic, negative, short, edge, inCycle, leaves⟩ := turns
  obtain ⟨around, closed, perm⟩ := (listed.isCycle_indexed.mpr cyclic).turned inCycle
  have here : solver.indexed.source edge = solver.startIdx startSymbol := by
    show solver.symbolToIdx edge.fromSymbol = _
    rw [leaves, startsAt]
  rw [here] at closed
  have lighter : solver.indexed.total around < 0 := by
    have same : solver.indexed.total around = solver.network.total cycle :=
      (perm.map Edge.logWeight).sum_eq
    exact same ▸ negative
  have shorter : around.length ≤ solver.symbols.length - 1 := by
    have same := perm.length_eq
    omega
  have startBounded := startsAt ▸ symbolToIdx_mem startIn
  obtain ⟨relaxed, inFilter, rfl⟩ := List.mem_map.mp member
  obtain ⟨inEdges, relaxable⟩ := List.mem_filter.mp inFilter
  have improves : solver.indexed.Relaxable (solver.finalLabels startSymbol) relaxed :=
    of_decide_eq_true relaxable
  obtain ⟨near, source⟩ := improves.source_finite
  obtain ⟨walk, walks, _⟩ := traces.walked _ near source
  unfold finalLabels at traces ⊢
  rw [relaxRounds_eq] at traces ⊢
  have finite := dist_ne_top_of_reaches startBounded listed.target_mem solver.rounds_enough
    ⟨_, walks.snoc inEdges rfl⟩
  -- The finite labels were all improved, so going back does not end at the start.
  have continues := traces.improved closed lighter shorter
  have bounded := traces.mem_of_finite startBounded listed.target_mem
  simp only [Finset.mem_range] at bounded
  obtain ⟨current, stepped, still⟩ := stepBack_some continues solver.symbols.length finite
  obtain ⟨traced, done⟩ := @traceCycle_some _ _ _ (solver.symbols.length + 1) continues bounded []
    current nofun still List.nodup_nil (Nat.le_refl _)
  exact ⟨current, traced, stepped, done⟩

theorem buildCycle_some (math : Logarithm) {cycleSymbols : List String}
    (found : solver.edgesInCycle cycleSymbols ≠ []) :
    ∃ cycle, solver.buildCycle math cycleSymbols = some cycle := ⟨_, if_neg found⟩

/-- If a negative cycle turns back to the start and all are found backwards, every vertex with an
edge to relax leads to a cycle. -/
theorem extracted_of_turns (math : Logarithm) (listed : solver.Listed)
    (nonempty : solver.symbols ≠ [])
    (turns : solver.Turns startSymbol)
    (found : ∀ cycle, solver.Reached startSymbol cycle → solver.backward cycle ≠ []) {vertex : Nat}
    (member : vertex ∈ solver.verticesInCycle (solver.finalLabels startSymbol)) :
    ∃ cycle, solver.extractCycle math (solver.finalLabels startSymbol) vertex
      solver.symbols.length = some cycle := by
  obtain ⟨current, ⟨visited, again⟩, stepped, done⟩ := traced_of_turns listed nonempty turns member
  obtain ⟨forward, reached, edges, _⟩ := traced_backward listed nonempty done rfl
  unfold extractCycle
  rw [stepped, Option.bind_some, done, Option.bind_some]
  exact buildCycle_some math (edges ▸ found forward reached)

theorem returned_of_turns (listed : solver.Listed) (turns : solver.Turns startSymbol)
    (paysBack : solver.PaysBack math startSymbol) :
    (solver.findArbitrageCycles math order startSymbol).2 ≠ [] := by
  have ⟨cycle, cyclic, negative, _, edge, inCycle, leaves⟩ := turns
  obtain ⟨_, closed⟩ := cyclic.closed
  have inEdges := closed.mem_arcs edge inCycle
  have someSymbols : solver.symbols ≠ [] := List.ne_nil_of_mem (listed edge inEdges).1
  have someEdges : solver.edges ≠ [] := List.ne_nil_of_mem inEdges
  have reached : solver.Reached startSymbol cycle :=
    ⟨cyclic, negative, edge, inCycle, [], leaves.symm⟩
  obtain ⟨vertex, member⟩ := List.exists_mem_of_ne_nil _
    ((relaxable_iff_reached listed startSymbol someSymbols).mpr ⟨cycle, reached⟩)
  obtain ⟨found, extracted⟩ := extracted_of_turns math listed someSymbols turns
    (fun cycle reached => (paysBack cycle reached).1) member
  have someCycles : ((order.iterate (solver.verticesInCycle
      (solver.finalLabels startSymbol))).filterMap fun vertex =>
        solver.extractCycle math (solver.finalLabels startSymbol) vertex
          solver.symbols.length) ≠ [] :=
    List.ne_nil_of_mem (List.mem_filterMap.mpr
      ⟨vertex, (order.mem_iterate _ vertex).mpr member, extracted⟩)
  obtain ⟨kept, keptIn⟩ := List.exists_mem_of_ne_nil _ (deduplicateCycles_ne_nil someCycles)
  obtain ⟨other, _, keptFrom⟩ := List.mem_filterMap.mp (deduplicateCycles_subset _ _ keptIn)
  obtain ⟨forward, met, _, _, _, _, _, profit⟩ :=
    extractCycle_backward listed someSymbols keptFrom
  have pays : solver.minProfitBps ≤ kept.profitBps := profit ▸ (paysBack forward met).2
  have unfolded : kept ∈ solver.profitableCycles math order startSymbol := by
    unfold profitableCycles
    rw [if_neg (not_or.mpr ⟨someSymbols, someEdges⟩)]
    exact List.mem_filter.mpr ⟨keptIn, decide_eq_true pays⟩
  exact List.ne_nil_of_mem unfolded

theorem settled_iff : solver.Settled math ↔
    ¬((∃ cycle, solver.network.IsCycle cycle ∧ solver.network.total cycle < 0) ∧
      ∀ cycle, solver.network.IsCycle cycle → solver.network.total cycle < 0 →
        solver.minProfitBps ≤ math.profitBps (solver.network.total cycle)) := by
  rw [not_and_or]
  refine or_congr ?_ ?_
  · simp only [not_exists, not_and, not_lt]
  · simp only [not_forall, not_le, exists_prop]

/-- On a harmless graph the cycles are found if it is settled, or if a negative cycle turns back to
the start and all pay backwards; where none pays backwards they are found only if the graph is
settled. -/
theorem findsCycles_of_quotes (math : Logarithm) (order : SetOrder Nat)
    (solver : BellmanFordSolver) (quotes : List Quote)
    (positive : ∀ quote ∈ quotes, 0 < quote.rateAfterFee) :
    ∃ updated, solver.updateGraph math quotes = some updated ∧ ∀ startSymbol,
      (updated.Harmless math startSymbol →
        updated.Settled math ∨ updated.Turns startSymbol ∧ updated.PaysBack math startSymbol →
          updated.FindsCycles math order startSymbol) ∧
      (updated.Silent math startSymbol →
        (updated.FindsCycles math order startSymbol ↔ updated.Settled math)) := by
  obtain ⟨updated, made, listed⟩ := updateGraph_listed math solver positive
  refine ⟨updated, made, fun startSymbol => ?_⟩
  have enough : updated.Harmless math startSymbol →
      updated.Settled math ∨ updated.Turns startSymbol ∧ updated.PaysBack math startSymbol →
        updated.FindsCycles math order startSymbol := by
    intro harmless reason
    refine ⟨real_of_harmless listed harmless, fun negative pay => ?_⟩
    rcases reason with settled | ⟨turns, paysBack⟩
    · exact absurd ⟨negative, pay⟩ (settled_iff.mp settled)
    · exact returned_of_turns listed turns paysBack
  refine ⟨enough, fun silent => ⟨fun finds => ?_, fun settled => ?_⟩⟩
  · refine settled_iff.mpr fun unsettled => ?_
    exact finds.found unsettled.1 unsettled.2 (nothing_of_silent listed silent)
  · exact enough (fun cycle reached => .inr (silent cycle reached)) (.inl settled)

end Returned

/-! ## Two graphs -/

/-- A set iterated in the order of the last additions. -/
def lastAdded : SetOrder Nat where
  iterate := List.dedup
  mem_iterate := fun _ _ => List.mem_dedup
  nodup := List.nodup_dedup

/-- Logarithms to base two, exact for powers of two. -/
def binary : Logarithm where
  log := fun number => (Nat.log2 number.num.toNat : ℚ) - Nat.log2 number.den
  exp := fun number =>
    if 0 ≤ number then 2 ^ number.num.toNat else 1 / 2 ^ (-number).num.toNat

/-- Edges of one weight weigh as much as there are. -/
theorem total_of_uniform {weight : ℚ} {edges : List Edge}
    (uniform : ∀ edge ∈ edges, edge.logWeight = weight) :
    solver.network.total edges = edges.length * weight := by
  have same : ∀ number ∈ edges.map Edge.logWeight, number = weight := by
    intro number member
    obtain ⟨edge, inside, rfl⟩ := List.mem_map.mp member
    exact uniform edge inside
  have summed := List.sum_eq_card_nsmul (edges.map Edge.logWeight) weight same
  rw [List.length_map, nsmul_eq_mul] at summed
  exact summed

/-- An amount of at least one is one when it is rounded down. -/
theorem one_le_quantizeDown {amount : ℚ} (large : 1 ≤ amount) : 1 ≤ quantizeDown amount := by
  have floored : (100 : ℤ) ≤ ⌊amount * 100⌋ := Int.le_floor.mpr (by push_cast; linarith)
  have scaled : (100 : ℚ) ≤ ⌊amount * 100⌋ := by exact_mod_cast floored
  unfold quantizeDown
  rw [if_pos (by linarith)]
  linarith

/-- Edges that all double pay enough. -/
theorem doubling_pays {edges : List Edge} (some_ : edges ≠ [])
    (doubles : ∀ edge ∈ edges, edge.logWeight = -1) :
    1 ≤ binary.profitBps (solver.network.total edges) := by
  have long : 1 ≤ edges.length := List.length_pos_iff.mpr some_
  have grows : (2 : ℚ) ≤ 2 ^ edges.length := by
    calc
      (2 : ℚ) = 2 ^ 1 := (pow_one 2).symm
      _ ≤ 2 ^ edges.length := pow_le_pow_right₀ (by norm_num) long
  refine one_le_quantizeDown ?_
  rw [total_of_uniform doubles]
  have exponent : binary.exp (-(edges.length * -1 : ℚ)) = 2 ^ edges.length := by
    simp [binary]
  unfold Logarithm.profit
  rw [exponent]
  linarith

/-- The edges of a cycle are edges of the graph, and there is one behind each. -/
theorem edges_of_cycle {cycle : List Edge} (cyclic : solver.network.IsCycle cycle) :
    ∀ edge ∈ cycle, edge ∈ solver.edges ∧ ∃ next ∈ solver.edges,
      next.fromSymbol = edge.toSymbol := by
  obtain ⟨_, closed⟩ := cyclic.closed
  intro edge member
  have target : edge.toSymbol ∈ cycle.map solver.network.source :=
    closed.perm.mem_iff.mp (List.mem_map_of_mem member)
  obtain ⟨next, inside, leaves⟩ := List.mem_map.mp target
  exact ⟨closed.mem_arcs edge member, next, closed.mem_arcs next inside, leaves⟩

/-- Two symbols that are quoted both ways, each of which doubles, and a third beside them. -/
def twoWay : List Quote :=
  [⟨"BTC", "ETH", 2, 0⟩, ⟨"ETH", "BTC", 2, 0⟩, ⟨"ETH", "USDT", 2, 0⟩]

/-- The graph of the two symbols and the third. -/
def twoWaySolver : BellmanFordSolver := {
  new with
  edges := [⟨"BTC", "ETH", 2, 0, -1⟩, ⟨"ETH", "BTC", 2, 0, -1⟩, ⟨"ETH", "USDT", 2, 0, -1⟩]
  symbols := ["BTC", "ETH", "USDT"] }

/-- The way there and back is found, and multiplies by four. -/
theorem two_way_found : ∃ updated, new.updateGraph binary twoWay = some updated ∧
    updated.FindsCycles binary lastAdded (some "BTC") ∧
    (updated.findArbitrageCycles binary lastAdded (some "BTC")).2.map
      (fun cycle => (cycle.cycleSymbols, cycle.profitBps)) = [(["BTC", "ETH", "BTC"], 30000)] := by
  obtain ⟨updated, made, holds⟩ :=
    findsCycles_of_quotes binary lastAdded new twoWay (by decide +kernel)
  refine ⟨updated, made, ?_⟩
  have same : updated = twoWaySolver := by
    have known : new.updateGraph binary twoWay = some twoWaySolver := by decide +kernel
    exact Option.some.inj (made.symm.trans known)
  subst same
  refine ⟨?_, by decide +kernel⟩
  have doubles : ∀ edge ∈ twoWaySolver.edges, edge.logWeight = -1 := by decide +kernel
  have back : ∀ cycle, twoWaySolver.network.IsCycle cycle →
      (twoWaySolver.backward cycle).length = cycle.length := by
    intro cycle cyclic
    have opposed : ∀ edge ∈ cycle.reverse, (twoWaySolver.opposite edge).isSome = true := by
      intro edge member
      have ⟨listed, followed⟩ := edges_of_cycle cyclic edge (List.mem_reverse.mp member)
      have met : ∀ edge ∈ twoWaySolver.edges,
          (∃ next ∈ twoWaySolver.edges, next.fromSymbol = edge.toSymbol) →
            (twoWaySolver.opposite edge).isSome = true := by
        decide +kernel
      exact met edge listed followed
    rw [backward, List.length_filterMap_eq_countP, List.countP_eq_length.mpr opposed,
      List.length_reverse]
  have around : twoWaySolver.network.IsCycle (twoWaySolver.edges.take 2) :=
    ⟨List.cons_ne_nil _ _, ⟨"BTC", by simp [IsWalk, network, twoWaySolver]⟩, by decide +kernel⟩
  refine (holds (some "BTC")).1 (fun cycle reached => .inl (back cycle reached.cyclic))
    (.inr ⟨?_, ?_⟩)
  · exact ⟨_, around, by decide +kernel, by decide, twoWaySolver.edges.head (List.cons_ne_nil _ _),
      by decide, by decide +kernel⟩
  · intro cycle reached
    have some_ : twoWaySolver.backward cycle ≠ [] := by
      rw [← List.length_pos_iff, back cycle reached.cyclic]
      exact List.length_pos_iff.mpr reached.cyclic.nonempty
    exact ⟨some_, doubling_pays some_ fun edge member =>
      doubles edge (backward_listed cycle edge member)⟩

/-- Three quotes around a triangle, each of which doubles. -/
def triangle : List Quote :=
  [⟨"BTC", "ETH", 2, 0⟩, ⟨"ETH", "USDT", 2, 0⟩, ⟨"USDT", "BTC", 2, 0⟩]

/-- The graph of the triangle. -/
def triangleSolver : BellmanFordSolver := {
  new with
  edges := [⟨"BTC", "ETH", 2, 0, -1⟩, ⟨"ETH", "USDT", 2, 0, -1⟩, ⟨"USDT", "BTC", 2, 0, -1⟩]
  symbols := ["BTC", "ETH", "USDT"] }

/-- The triangle multiplies by eight and is not found: its edges do not lead back. -/
theorem one_way_triangle_lost : ∃ updated, new.updateGraph binary triangle = some updated ∧
    ¬updated.FindsCycles binary lastAdded (some "BTC") := by
  refine ⟨triangleSolver, by decide +kernel, fun finds => ?_⟩
  have doubles : ∀ edge ∈ triangleSolver.edges, edge.logWeight = -1 := by decide +kernel
  have around : triangleSolver.network.IsCycle triangleSolver.edges :=
    ⟨List.cons_ne_nil _ _, ⟨"BTC", by simp [IsWalk, network, triangleSolver]⟩, by decide +kernel⟩
  refine finds.found ⟨_, around, by decide +kernel⟩ (fun cycle cyclic _ => ?_) (by decide +kernel)
  exact doubling_pays cyclic.nonempty fun edge member =>
    doubles edge (edges_of_cycle cyclic edge member).1

end TradingBot.Arbitrage.BellmanFordSolver
