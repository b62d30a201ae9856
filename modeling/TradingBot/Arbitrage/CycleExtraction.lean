import TradingBot.Arbitrage.BellmanFordSolver

/-!
# The cycle of the predecessors

The passes over the edges are sweeps over the graph of the indices, so an edge stays relaxable
exactly if a negative cycle can be reached from the start. The cycle that is then extracted follows
the predecessors, so it lists such a cycle backwards, and the edges that are looked up for it are
those that lead back along it.
-/

open Network

namespace TradingBot.Arbitrage.BellmanFordSolver

/-! ## The graph -/

/-- The graph of the symbols. -/
def network (solver : BellmanFordSolver) : Network String Edge ℚ where
  arcs := solver.edges
  source := Edge.fromSymbol
  target := Edge.toSymbol
  weight := Edge.logWeight

/-- The graph of the indices. -/
def indexed (solver : BellmanFordSolver) : Network Nat Edge ℚ :=
  solver.network.relabel solver.symbolToIdx

/-- Every edge leads from a symbol to a symbol. -/
def Listed (solver : BellmanFordSolver) : Prop :=
  ∀ edge ∈ solver.edges, edge.fromSymbol ∈ solver.symbols ∧ edge.toSymbol ∈ solver.symbols

/-- A negative cycle that can be reached from the start. -/
structure Reached (solver : BellmanFordSolver) (startSymbol : Option String)
    (cycle : List Edge) : Prop where
  cyclic : solver.network.IsCycle cycle
  negative : solver.network.total cycle < 0
  reached : solver.network.ReachesCycle
    (solver.idxToSymbol (solver.startIdx startSymbol)) cycle

variable {solver : BellmanFordSolver}

theorem Listed.distinguishes (listed : solver.Listed) :
    solver.network.Distinguishes solver.symbolToIdx {symbol | symbol ∈ solver.symbols} := by
  refine ⟨fun one oneIn other _ same => ?_, listed⟩
  exact (List.idxOf_inj oneIn).mp same

theorem Listed.isCycle_indexed (listed : solver.Listed) {cycle : List Edge} :
    solver.indexed.IsCycle cycle ↔ solver.network.IsCycle cycle :=
  isCycle_relabel listed.distinguishes

theorem symbolToIdx_mem {symbol : String} (member : symbol ∈ solver.symbols) :
    solver.symbolToIdx symbol ∈ Finset.range solver.symbols.length :=
  Finset.mem_range.mpr (List.idxOf_lt_length_iff.mpr member)

theorem Listed.target_mem (listed : solver.Listed) : ∀ edge ∈ solver.indexed.arcs,
    solver.indexed.target edge ∈ Finset.range solver.symbols.length :=
  fun edge member => symbolToIdx_mem (listed edge member).2

theorem rounds_enough (solver : BellmanFordSolver) :
    (Finset.range solver.symbols.length).card ≤ solver.symbols.length - 1 + 1 := by
  rw [Finset.card_range]
  omega

theorem idxToSymbol_symbolToIdx {symbol : String} (member : symbol ∈ solver.symbols) :
    solver.idxToSymbol (solver.symbolToIdx symbol) = symbol := by
  have inside := List.idxOf_lt_length_iff.mpr member
  unfold idxToSymbol symbolToIdx
  rw [List.getD_eq_getElem?_getD, List.getElem?_eq_getElem inside, Option.getD_some,
    List.getElem_idxOf inside]

theorem startIdx_symbol (nonempty : solver.symbols ≠ []) (startSymbol : Option String) :
    solver.idxToSymbol (solver.startIdx startSymbol) ∈ solver.symbols ∧
      solver.symbolToIdx (solver.idxToSymbol (solver.startIdx startSymbol)) =
        solver.startIdx startSymbol := by
  have first : solver.idxToSymbol 0 ∈ solver.symbols ∧
      solver.symbolToIdx (solver.idxToSymbol 0) = 0 := by
    unfold idxToSymbol symbolToIdx
    cases listed : solver.symbols with
    | nil => exact absurd listed nonempty
    | cons symbol rest => exact ⟨List.mem_cons_self, List.idxOf_cons_self⟩
  cases startSymbol with
  | none => exact first
  | some symbol =>
    rw [startIdx]
    split
    next given => rw [idxToSymbol_symbolToIdx given.2]; exact ⟨given.2, rfl⟩
    · exact first

theorem edges_of_create (math : Logarithm) {quotes : List Quote}
    (positive : ∀ quote ∈ quotes, 0 < quote.rateAfterFee) :
    ∃ edges, quotes.mapM (Edge.create math) = some edges ∧ ∀ edge ∈ edges, ∃ quote ∈ quotes,
      edge.fromSymbol = quote.fromSymbol ∧ edge.toSymbol = quote.toSymbol := by
  induction quotes with
  | nil => exact ⟨[], rfl, nofun⟩
  | cons quote rest ih =>
    obtain ⟨edges, made, drawn⟩ := ih fun other member =>
      positive other (List.mem_cons_of_mem _ member)
    have created : Edge.create math quote = some _ := if_pos (positive quote List.mem_cons_self)
    refine ⟨_ :: edges, by simp only [List.mapM_cons, created, made]; rfl, ?_⟩
    rintro edge member
    rcases List.mem_cons.mp member with rfl | later
    · exact ⟨quote, List.mem_cons_self, rfl, rfl⟩
    · obtain ⟨other, inside, ends⟩ := drawn edge later
      exact ⟨other, List.mem_cons_of_mem _ inside, ends⟩

theorem updateGraph_listed (math : Logarithm) (solver : BellmanFordSolver) {quotes : List Quote}
    (positive : ∀ quote ∈ quotes, 0 < quote.rateAfterFee) :
    ∃ updated, solver.updateGraph math quotes = some updated ∧ updated.Listed := by
  obtain ⟨edges, made, drawn⟩ := edges_of_create math positive
  refine ⟨_, by rw [updateGraph, made]; rfl, fun edge member => ?_⟩
  obtain ⟨quote, inside, left, right⟩ := drawn edge member
  simp only [List.mem_insertionSort, List.mem_dedup, List.mem_flatMap]
  rw [left, right]
  exact ⟨⟨quote, inside, List.mem_cons_self⟩,
    ⟨quote, inside, List.mem_cons_of_mem _ List.mem_cons_self⟩⟩

/-! ## The rounds -/

theorem relaxEdge_eq (labels : Labels Nat ℚ) (edge : Edge) :
    relaxEdge labels (solver.symbolToIdx edge.fromSymbol) (solver.symbolToIdx edge.toSymbol)
      edge.logWeight =
        (solver.indexed.relax labels edge, decide (solver.indexed.Relaxable labels edge)) := by
  by_cases relaxable : solver.indexed.Relaxable labels edge
  · rw [relax, if_pos relaxable, decide_eq_true relaxable]
    exact if_pos relaxable
  · rw [relax, if_neg relaxable, decide_eq_false relaxable]
    exact if_neg relaxable

theorem fold_relaxNext (relaxed : List Edge) (state : Labels Nat ℚ × Bool) :
    (relaxed.foldl solver.relaxNext state).1 = relaxed.foldl solver.indexed.relax state.1 ∧
      ((relaxed.foldl solver.relaxNext state).2 = false →
        state.2 = false ∧ relaxed.foldl solver.indexed.relax state.1 = state.1) := by
  induction relaxed generalizing state with
  | nil => exact ⟨rfl, fun quiet => ⟨quiet, rfl⟩⟩
  | cons edge rest ih =>
    have next : solver.relaxNext state edge = (solver.indexed.relax state.1 edge,
        state.2 || decide (solver.indexed.Relaxable state.1 edge)) := by
      unfold relaxNext
      rw [relaxEdge_eq]
    rw [List.foldl_cons, List.foldl_cons, next]
    obtain ⟨same, still⟩ := ih (solver.indexed.relax state.1 edge,
      state.2 || decide (solver.indexed.Relaxable state.1 edge))
    refine ⟨same, fun quiet => ?_⟩
    obtain ⟨quietBefore, stays⟩ := still quiet
    obtain ⟨quietState, quietEdge⟩ := Bool.or_eq_false_iff.mp quietBefore
    have unrelaxed : solver.indexed.relax state.1 edge = state.1 :=
      if_neg (of_decide_eq_false quietEdge)
    exact ⟨quietState, by rw [unrelaxed] at stays ⊢; exact stays⟩

theorem relaxRounds_eq (rounds : Nat) (labels : Labels Nat ℚ) :
    solver.relaxRounds rounds labels = solver.indexed.sweep^[rounds] labels := by
  induction rounds generalizing labels with
  | zero => rfl
  | succ rounds ih =>
    obtain ⟨swept, still⟩ := @fold_relaxNext solver solver.edges (labels, false)
    rw [Function.iterate_succ_apply, relaxRounds]
    split
    · rw [ih]
      exact congrArg _ swept
    next quiet =>
      have stays : solver.indexed.sweep labels = labels :=
        (still (Bool.eq_false_iff.mpr quiet)).2
      rw [stays, Function.iterate_fixed stays]
      exact swept.trans stays

theorem finalLabels_traces (solver : BellmanFordSolver) (startSymbol : Option String) :
    ∃ via, solver.indexed.Traces (solver.startIdx startSymbol) via
      (solver.finalLabels startSymbol) := by
  unfold finalLabels
  rw [relaxRounds_eq]
  exact traces_iterate solver.indexed _ _

theorem verticesInCycle_ne_nil (labels : Labels Nat ℚ) : solver.verticesInCycle labels ≠ [] ↔
    ∃ edge ∈ solver.edges, solver.indexed.Relaxable labels edge := by
  unfold verticesInCycle
  rw [Ne, List.map_eq_nil_iff, List.filter_eq_nil_iff]
  simp only [decide_eq_true_eq, not_forall, not_not, exists_prop]
  exact Iff.rfl

theorem relaxable_iff_reached (listed : solver.Listed) (startSymbol : Option String)
    (nonempty : solver.symbols ≠ []) :
    solver.verticesInCycle (solver.finalLabels startSymbol) ≠ [] ↔
      ∃ cycle, solver.Reached startSymbol cycle := by
  obtain ⟨startIn, startsAt⟩ := startIdx_symbol nonempty startSymbol
  have reaches : ∀ cycle, solver.network.IsCycle cycle →
      (solver.indexed.ReachesCycle (solver.startIdx startSymbol) cycle ↔
        solver.network.ReachesCycle (solver.idxToSymbol (solver.startIdx startSymbol)) cycle) := by
    intro cycle cyclic
    rw [← reachesCycle_relabel listed.distinguishes startIn cyclic, startsAt]
    rfl
  rw [verticesInCycle_ne_nil, finalLabels, relaxRounds_eq]
  constructor
  · rintro ⟨edge, member, relaxable⟩
    by_contra unreached
    have positive : ∀ cycle, solver.indexed.IsCycle cycle →
        solver.indexed.ReachesCycle (solver.startIdx startSymbol) cycle →
          0 ≤ solver.indexed.total cycle := by
      intro cycle cyclic reached
      have onGraph := listed.isCycle_indexed.mp cyclic
      refine not_lt.mp fun negative => unreached ⟨cycle, onGraph, negative, ?_⟩
      exact (reaches cycle onGraph).mp reached
    exact not_relaxable_of_cycles (startsAt ▸ symbolToIdx_mem startIn) listed.target_mem
      solver.rounds_enough positive member relaxable
  · rintro ⟨cycle, cyclic, negative, reached⟩
    exact exists_relaxable_of_cycle (listed.isCycle_indexed.mpr cyclic)
      ((reaches cycle cyclic).mpr reached) negative _

/-! ## One extraction -/

variable {predecessor : Nat → Option Nat} {visited : List Nat} {current : Nat}
  {startSymbol : Option String}

/-- The trace lists vertices that follow one another back, none of them twice, until one is met
again. -/
theorem traceCycle_follows {fuel : Nat} {traced : List Nat} {again : Nat} (distinct : visited.Nodup)
    (follows : (visited ++ [current]).IsChain fun vertex previous => predecessor vertex =
      some previous)
    (done : traceCycle predecessor fuel visited current = some (traced, again)) :
    traced.Nodup ∧ again ∈ traced ∧ (traced ++ [again]).IsChain fun vertex previous =>
      predecessor vertex = some previous := by
  induction fuel generalizing visited current with
  | zero => cases done
  | succ fuel ih =>
    unfold traceCycle at done
    split at done
    next met =>
      cases done
      exact ⟨distinct, met, follows⟩
    next fresh =>
      obtain ⟨previous, came, later⟩ := Option.bind_eq_some_iff.mp done
      refine ih (List.concat_eq_append ▸ distinct.concat fresh) ?_ later
      refine follows.append (List.isChain_singleton previous) fun one last other head => ?_
      rw [List.getLast?_concat, Option.mem_some_iff] at last
      cases head
      exact last ▸ came

theorem visited_length_le {n : Nat} (inside : ∀ vertex ∈ visited, vertex < n)
    (distinct : visited.Nodup) : visited.length ≤ n := by
  have within : visited ⊆ List.range n :=
    fun vertex member => List.mem_range.mpr (inside vertex member)
  have fits := (distinct.subperm within).length_le
  rwa [List.length_range] at fits

theorem traceCycle_enough {n fuel : Nat} (extra : Nat)
    (bounded : ∀ vertex, ∀ previous ∈ predecessor vertex, previous < n)
    (inside : ∀ vertex ∈ visited, vertex < n) (currentIn : current < n) (distinct : visited.Nodup)
    (enough : n + 1 ≤ fuel + visited.length) :
    traceCycle predecessor (fuel + extra) visited current =
      traceCycle predecessor fuel visited current := by
  induction fuel generalizing visited current with
  | zero =>
    have fits := visited_length_le inside distinct
    omega
  | succ fuel ih =>
    rw [Nat.add_right_comm, traceCycle, traceCycle]
    split
    · rfl
    next fresh =>
      cases came : predecessor current with
      | none => rfl
      | some previous =>
        refine ih ?_ (bounded current previous came) ?_ ?_
        · intro vertex member
          rcases List.mem_append.mp member with old | new
          · exact inside vertex old
          · exact List.mem_singleton.mp new ▸ currentIn
        · exact List.concat_eq_append ▸ distinct.concat fresh
        · rw [List.length_append, List.length_singleton]
          omega

theorem traceCycle_ends (listed : solver.Listed) (startSymbol : Option String)
    (inside : current < solver.symbols.length) (extra : Nat) :
    traceCycle (solver.finalLabels startSymbol).predecessor (solver.symbols.length + 1 + extra) []
        current =
      traceCycle (solver.finalLabels startSymbol).predecessor (solver.symbols.length + 1) []
        current := by
  obtain ⟨via, traces⟩ := finalLabels_traces solver startSymbol
  refine traceCycle_enough extra (fun vertex previous came => ?_) nofun inside List.nodup_nil
    (Nat.le_refl _)
  rw [traces.predecessor, Option.mem_map] at came
  obtain ⟨edge, arrived, rfl⟩ := came
  exact List.idxOf_lt_length_iff.mpr (listed edge (traces.arrives vertex edge arrived).1).1

theorem stepBack_some {among : Nat → Prop}
    (continues : ∀ vertex, among vertex → ∃ previous, predecessor vertex = some previous ∧
      among previous)
    (steps : Nat) {vertex : Nat} (inside : among vertex) :
    ∃ current, stepBack predecessor steps vertex = some current ∧ among current := by
  induction steps generalizing vertex with
  | zero => exact ⟨vertex, rfl, inside⟩
  | succ steps ih =>
    obtain ⟨previous, came, still⟩ := continues vertex inside
    obtain ⟨current, stepped, there⟩ := ih still
    exact ⟨current, by rw [stepBack, came, Option.bind_some, stepped], there⟩

theorem traceCycle_some {predecessor : Nat → Option Nat} {among : Nat → Prop} {n fuel : Nat}
    (continues : ∀ vertex, among vertex → ∃ previous, predecessor vertex = some previous ∧
      among previous)
    (bounded : ∀ vertex, among vertex → vertex < n)
    {visited : List Nat} {current : Nat} (inside : ∀ vertex ∈ visited, vertex < n)
    (currentIn : among current) (distinct : visited.Nodup)
    (enough : n + 1 ≤ fuel + visited.length) :
    ∃ traced, traceCycle predecessor fuel visited current = some traced := by
  induction fuel generalizing visited current with
  | zero =>
    have fits := visited_length_le inside distinct
    omega
  | succ fuel ih =>
    rw [traceCycle]
    split
    · exact ⟨_, rfl⟩
    next fresh =>
      obtain ⟨previous, came, still⟩ := continues current currentIn
      rw [came, Option.bind_some]
      refine ih ?_ still (List.concat_eq_append ▸ distinct.concat fresh) ?_
      · intro vertex member
        rcases List.mem_append.mp member with old | new
        · exact inside vertex old
        · exact List.mem_singleton.mp new ▸ bounded current currentIn
      · rw [List.length_append, List.length_singleton]
        omega

theorem traced_circle {relation : Nat → Nat → Prop} {traced : List Nat} {again : Nat}
    (distinct : traced.Nodup) (met : again ∈ traced)
    (follows : (traced ++ [again]).IsChain relation) :
    ∃ rest, traced.drop (traced.idxOf again) = again :: rest ∧ (again :: rest).Nodup ∧
      (again :: rest ++ [again]).IsChain relation := by
  have inside := List.idxOf_lt_length_iff.mpr met
  have dropped : traced.drop (traced.idxOf again) =
      again :: traced.drop (traced.idxOf again + 1) := by
    rw [List.drop_eq_getElem_cons inside, List.getElem_idxOf inside]
  refine ⟨_, dropped, dropped ▸ distinct.drop, ?_⟩
  rw [← dropped]
  rw [← List.take_append_drop (traced.idxOf again) traced, List.append_assoc] at follows
  exact follows.right_of_append

/-- The edge that leads back along an edge. -/
def opposite (solver : BellmanFordSolver) (edge : Edge) : Option Edge :=
  solver.findEdge edge.toSymbol edge.fromSymbol

/-- The edges that are looked up for a cycle of the graph: those that lead back along it. -/
def backward (solver : BellmanFordSolver) (cycle : List Edge) : List Edge :=
  cycle.reverse.filterMap solver.opposite

theorem circle_symbols (listed : solver.Listed) {edges : List Edge} {first : Nat} {rest : List Nat}
    (members : ∀ edge ∈ edges, edge ∈ solver.edges)
    (targets : edges.map solver.indexed.target = first :: rest)
    (sources : edges.map solver.indexed.source = rest ++ [first]) :
    (first :: rest).map solver.idxToSymbol = edges.map Edge.toSymbol ∧
      ((first :: rest).map solver.idxToSymbol ++ [solver.idxToSymbol first]).zip
          ((first :: rest).map solver.idxToSymbol ++ [solver.idxToSymbol first]).tail =
        edges.map fun edge => (edge.toSymbol, edge.fromSymbol) := by
  have named : (edges.map solver.indexed.target).map solver.idxToSymbol =
      edges.map Edge.toSymbol := by
    rw [List.map_map]
    exact List.map_congr_left fun edge member =>
      idxToSymbol_symbolToIdx (listed edge (members edge member)).2
  have named' : (edges.map solver.indexed.source).map solver.idxToSymbol =
      edges.map Edge.fromSymbol := by
    rw [List.map_map]
    exact List.map_congr_left fun edge member =>
      idxToSymbol_symbolToIdx (listed edge (members edge member)).1
  rw [targets] at named
  rw [sources, List.map_append, List.map_singleton] at named'
  refine ⟨named, ?_⟩
  have tail : ((first :: rest).map solver.idxToSymbol ++ [solver.idxToSymbol first]).tail =
      edges.map Edge.fromSymbol ++ [] := by
    rw [List.append_nil, ← named']
    rfl
  rw [tail, named, List.zip_append (by rw [List.length_map, List.length_map]), List.zip_nil_right,
    List.append_nil, List.zip_map']

/-- What is traced is a negative cycle that can be reached, backwards. -/
theorem traced_backward (listed : solver.Listed) (nonempty : solver.symbols ≠ []) {fuel again : Nat}
    {cycleSymbols : List String}
    (done : traceCycle (solver.finalLabels startSymbol).predecessor fuel [] current =
      some (visited, again))
    (named : cycleSymbols = (visited.drop (visited.idxOf again)).map solver.idxToSymbol) :
    ∃ forward, solver.Reached startSymbol forward ∧
      solver.edgesInCycle (cycleSymbols ++ cycleSymbols.take 1) = solver.backward forward ∧
      cycleSymbols = forward.reverse.map Edge.toSymbol ∧
      (cycleSymbols ++ cycleSymbols.take 1).zip (cycleSymbols ++ cycleSymbols.take 1).tail =
        forward.reverse.map fun edge => (edge.toSymbol, edge.fromSymbol) := by
  obtain ⟨via, traces⟩ := finalLabels_traces solver startSymbol
  obtain ⟨distinct, met, follows⟩ :=
    traceCycle_follows List.nodup_nil (List.isChain_singleton current) done
  obtain ⟨rest, dropped, simple, circle⟩ := traced_circle distinct met follows
  obtain ⟨forward, cyclic, reached, negative, targets, sources⟩ := traces.circle simple circle
  have onGraph := listed.isCycle_indexed.mp cyclic
  obtain ⟨startIn, startsAt⟩ := startIdx_symbol nonempty startSymbol
  obtain ⟨_, closed⟩ := onGraph.closed
  have members : ∀ edge ∈ forward.reverse, edge ∈ solver.edges :=
    fun edge member => closed.mem_arcs edge (List.mem_reverse.mp member)
  obtain ⟨symbols, pairs⟩ := circle_symbols listed members targets sources
  rw [dropped] at named
  have whole : cycleSymbols ++ cycleSymbols.take 1 =
      (again :: rest).map solver.idxToSymbol ++ [solver.idxToSymbol again] := by
    rw [named]
    rfl
  refine ⟨forward, ⟨onGraph, negative, ?_⟩, ?_, named.trans symbols, whole ▸ pairs⟩
  · rw [← startsAt] at reached
    exact (reachesCycle_relabel listed.distinguishes startIn onGraph).mp reached
  · unfold edgesInCycle backward
    rw [whole, pairs, List.filterMap_map]
    rfl

/-- What is extracted is a negative cycle that can be reached, backwards. -/
theorem extractCycle_backward {math : Logarithm} (listed : solver.Listed)
    (nonempty : solver.symbols ≠ []) {vertex n : Nat} {cycle : ArbCycle}
    (extracted : solver.extractCycle math (solver.finalLabels startSymbol) vertex n = some cycle) :
    ∃ forward, solver.Reached startSymbol forward ∧
      cycle.edges = solver.backward forward ∧ solver.backward forward ≠ [] ∧
      cycle.cycleSymbols = forward.reverse.map Edge.toSymbol ++
        (forward.reverse.map Edge.toSymbol).take 1 ∧
      cycle.cycleSymbols.zip cycle.cycleSymbols.tail =
        (forward.reverse.map fun edge => (edge.toSymbol, edge.fromSymbol)) ∧
      cycle.totalLogWeight = solver.network.total (solver.backward forward) ∧
      cycle.profitBps = math.profitBps (solver.network.total (solver.backward forward)) := by
  obtain ⟨current, _, traced⟩ := Option.bind_eq_some_iff.mp extracted
  obtain ⟨⟨visited, again⟩, done, built⟩ := Option.bind_eq_some_iff.mp traced
  obtain ⟨forward, reached, edges, symbols, pairs⟩ := traced_backward listed nonempty done rfl
  simp only [buildCycle, edges] at built
  obtain ⟨found, made⟩ := Option.ite_none_left_eq_some.mp built
  cases made
  exact ⟨forward, reached, rfl, found, by rw [symbols], pairs, rfl, rfl⟩

/-! ## All extractions -/

theorem fold_deduplicateNext (cycles : List ArbCycle)
    (state : List (Finset String) × List ArbCycle) :
    (∀ cycle ∈ (cycles.foldl deduplicateNext state).2, cycle ∈ state.2 ∨ cycle ∈ cycles) ∧
      ∀ cycle ∈ state.2, cycle ∈ (cycles.foldl deduplicateNext state).2 := by
  induction cycles generalizing state with
  | nil => exact ⟨fun _ member => .inl member, fun _ member => member⟩
  | cons head rest ih =>
    obtain ⟨among, stays⟩ := ih (deduplicateNext state head)
    rw [List.foldl_cons]
    constructor
    · intro cycle member
      rcases among cycle member with old | later
      · dsimp only [deduplicateNext] at old
        split at old
        · exact .inl old
        · rcases List.mem_append.mp old with earlier | new
          · exact .inl earlier
          · exact .inr (List.mem_singleton.mp new ▸ List.mem_cons_self)
      · exact .inr (List.mem_cons_of_mem _ later)
    · intro cycle member
      refine stays cycle ?_
      dsimp only [deduplicateNext]
      split
      · exact member
      · exact List.mem_append_left _ member

theorem deduplicateCycles_subset (cycles : List ArbCycle) :
    ∀ cycle ∈ deduplicateCycles cycles, cycle ∈ cycles :=
  fun cycle member => ((fold_deduplicateNext cycles ([], [])).1 cycle member).resolve_left nofun

theorem deduplicateCycles_ne_nil {cycles : List ArbCycle} (nonempty : cycles ≠ []) :
    deduplicateCycles cycles ≠ [] := by
  cases cycles with
  | nil => exact absurd rfl nonempty
  | cons head rest =>
    have first : head ∈ (deduplicateNext ([], []) head).2 := List.mem_singleton_self head
    exact List.ne_nil_of_mem ((fold_deduplicateNext rest _).2 head first)

theorem mem_profitableCycles {math : Logarithm} {order : SetOrder Nat} {cycle : ArbCycle}
    (member : cycle ∈ solver.profitableCycles math order startSymbol) :
    solver.symbols ≠ [] ∧ solver.minProfitBps ≤ cycle.profitBps ∧
      ∃ vertex, solver.extractCycle math (solver.finalLabels startSymbol) vertex
        solver.symbols.length = some cycle := by
  unfold profitableCycles at member
  split at member
  · cases member
  next nonempty =>
    obtain ⟨kept, pays⟩ := List.mem_filter.mp member
    obtain ⟨vertex, _, extracted⟩ := List.mem_filterMap.mp (deduplicateCycles_subset _ _ kept)
    exact ⟨fun empty => nonempty (.inl empty), of_decide_eq_true pays, vertex, extracted⟩

end TradingBot.Arbitrage.BellmanFordSolver
