import Mathlib.Data.List.Sort
import Mathlib.Data.Rat.Floor
import TradingBot.Foundation.Relaxation

/-!
# Bellman-Ford solver

`Edge`, `ArbCycle` and `BellmanFordSolver` of `backend/arbitrage/bellman_ford_solver.py` over exact
rationals, so without the tolerance for rounding of `_relax_edge`. The logarithm and the
exponential are parameters, as is the order in which a set is iterated. A symbol's index is its
place among the sorted symbols, and `none` is the predecessor `-1`.
-/

open Network

namespace TradingBot.Arbitrage

/-- The functions that the solver takes from `math`. -/
structure Logarithm where
  log : ℚ → ℚ
  exp : ℚ → ℚ

/-- The order in which a set is iterated, by what was added to it. -/
structure SetOrder (α : Type) where
  iterate : List α → List α
  mem_iterate : ∀ added element, element ∈ iterate added ↔ element ∈ added
  nodup : ∀ added, (iterate added).Nodup

/-- What `update_graph` is given for an edge. -/
structure Quote where
  fromSymbol : String
  toSymbol : String
  rate : ℚ
  feeBps : ℚ

/-- `rate_after_fee` of `Edge.create`. -/
def Quote.rateAfterFee (quote : Quote) : ℚ := quote.rate * (1 - quote.feeBps / 10000)

/-- `Edge`. -/
structure Edge where
  fromSymbol : String
  toSymbol : String
  rate : ℚ
  feeBps : ℚ
  logWeight : ℚ
  deriving DecidableEq, Repr

/-- `Edge.create`; `math.log` raises for numbers that are not positive. -/
def Edge.create (math : Logarithm) (quote : Quote) : Option Edge :=
  if 0 < quote.rateAfterFee then
    some {
      fromSymbol := quote.fromSymbol
      toSymbol := quote.toSymbol
      rate := quote.rate
      feeBps := quote.feeBps
      logWeight := -math.log quote.rateAfterFee }
  else none

/-- `ArbCycle`. -/
structure ArbCycle where
  cycleSymbols : List String
  totalLogWeight : ℚ
  profitBps : ℚ
  edges : List Edge
  confidenceScore : ℚ

/-- The profit before it is quantized. -/
def Logarithm.profit (math : Logarithm) (totalLogWeight : ℚ) : ℚ :=
  (math.exp (-totalLogWeight) - 1) * 10000

/-- `quantize(Decimal('0.01'), rounding=ROUND_DOWN)`. -/
def quantizeDown (amount : ℚ) : ℚ :=
  (if 0 ≤ amount then ⌊amount * 100⌋ else ⌈amount * 100⌉) / 100

/-- The `profit_bps` of a cycle by its total weight. -/
def Logarithm.profitBps (math : Logarithm) (totalLogWeight : ℚ) : ℚ :=
  quantizeDown (math.profit totalLogWeight)

/-- `BellmanFordSolver`, with its symbols in the order of their indices. -/
structure BellmanFordSolver where
  edges : List Edge
  symbols : List String
  minProfitBps : ℚ
  detectionCount : Nat
  totalScans : Nat
  deriving DecidableEq, Repr

namespace BellmanFordSolver

/-- A new solver, with the default `MIN_PROFIT_BPS`. -/
def new : BellmanFordSolver where
  edges := []
  symbols := []
  minProfitBps := 1
  detectionCount := 0
  totalScans := 0

def updateGraph (math : Logarithm) (solver : BellmanFordSolver) (quotes : List Quote) :
    Option BellmanFordSolver :=
  (quotes.mapM (Edge.create math)).map fun edges => {
    solver with
    edges := edges
    symbols := (quotes.flatMap fun quote =>
      [quote.fromSymbol, quote.toSymbol]).dedup.insertionSort (· ≤ ·) }

def symbolToIdx (solver : BellmanFordSolver) (symbol : String) : Nat :=
  solver.symbols.idxOf symbol

def idxToSymbol (solver : BellmanFordSolver) (idx : Nat) : String :=
  solver.symbols.getD idx ""

def relaxEdge (labels : Labels Nat ℚ) (u v : Nat) (weight : ℚ) : Labels Nat ℚ × Bool :=
  if labels.dist u + weight < labels.dist v then
    ({ dist := Function.update labels.dist v (labels.dist u + weight)
       predecessor := Function.update labels.predecessor v (some u) }, true)
  else (labels, false)

/-- The relaxation of one edge in a pass of `find_arbitrage_cycles`, with `updated`. -/
def relaxNext (solver : BellmanFordSolver) (state : Labels Nat ℚ × Bool) (edge : Edge) :
    Labels Nat ℚ × Bool :=
  let relaxed := relaxEdge state.1 (solver.symbolToIdx edge.fromSymbol)
    (solver.symbolToIdx edge.toSymbol) edge.logWeight
  (relaxed.1, state.2 || relaxed.2)

/-- One pass over the edges. -/
def relaxAll (solver : BellmanFordSolver) (labels : Labels Nat ℚ) : Labels Nat ℚ × Bool :=
  solver.edges.foldl solver.relaxNext (labels, false)

/-- So many passes, or fewer if one of them changes nothing. -/
def relaxRounds (solver : BellmanFordSolver) : Nat → Labels Nat ℚ → Labels Nat ℚ
  | 0, labels => labels
  | rounds + 1, labels =>
    let state := solver.relaxAll labels
    if state.2 then solver.relaxRounds rounds state.1 else state.1

/-- The vertex that `find_arbitrage_cycles` starts from. An empty symbol is as none. -/
def startIdx (solver : BellmanFordSolver) : Option String → Nat
  | some symbol =>
    if symbol ≠ "" ∧ symbol ∈ solver.symbols then solver.symbolToIdx symbol else 0
  | none => 0

/-- The labels that `find_arbitrage_cycles` ends with. -/
def finalLabels (solver : BellmanFordSolver) (startSymbol : Option String) : Labels Nat ℚ :=
  solver.relaxRounds (solver.symbols.length - 1) (labelsFrom (solver.startIdx startSymbol))

/-- The vertices that are added to `vertices_in_cycle`. -/
def verticesInCycle (solver : BellmanFordSolver) (labels : Labels Nat ℚ) : List Nat :=
  (solver.edges.filter fun edge =>
    labels.dist (solver.symbolToIdx edge.fromSymbol) + edge.logWeight <
      labels.dist (solver.symbolToIdx edge.toSymbol)).map
    fun edge => solver.symbolToIdx edge.toSymbol

/-- The steps back of `_extract_cycle`. -/
def stepBack (predecessor : Nat → Option Nat) : Nat → Nat → Option Nat
  | 0, current => some current
  | steps + 1, current => (predecessor current).bind (stepBack predecessor steps)

/-- The loop of `_extract_cycle` that traces the cycle: the vertices in the order of their visits
and the vertex that was met again. -/
def traceCycle (predecessor : Nat → Option Nat) : Nat → List Nat → Nat → Option (List Nat × Nat)
  | 0, _, _ => none
  | fuel + 1, visited, current =>
    if current ∈ visited then some (visited, current)
    else (predecessor current).bind (traceCycle predecessor fuel (visited ++ [current]))

/-- The first edge from one symbol to another. -/
def findEdge (solver : BellmanFordSolver) (fromSymbol toSymbol : String) : Option Edge :=
  solver.edges.find? fun edge => edge.fromSymbol = fromSymbol ∧ edge.toSymbol = toSymbol

/-- `edges_in_cycle` of `_extract_cycle`: the edges found between neighbours. -/
def edgesInCycle (solver : BellmanFordSolver) (cycleSymbols : List String) : List Edge :=
  (cycleSymbols.zip cycleSymbols.tail).filterMap fun pair => solver.findEdge pair.1 pair.2

/-- The `ArbCycle` of `_extract_cycle` for the symbols of a cycle, the first one repeated. -/
def buildCycle (math : Logarithm) (solver : BellmanFordSolver) (cycleSymbols : List String) :
    Option ArbCycle :=
  let edges := solver.edgesInCycle cycleSymbols
  let totalLogWeight := (edges.map Edge.logWeight).sum
  if edges = [] then none
  else some {
    cycleSymbols := cycleSymbols
    totalLogWeight := totalLogWeight
    profitBps := math.profitBps totalLogWeight
    edges := edges
    confidenceScore :=
      min 1 (math.profit totalLogWeight / 100) * (3 / (cycleSymbols.length : ℚ)) }

def extractCycle (math : Logarithm) (solver : BellmanFordSolver) (labels : Labels Nat ℚ)
    (startVertex n : Nat) : Option ArbCycle :=
  (stepBack labels.predecessor n startVertex).bind fun current =>
    (traceCycle labels.predecessor (n + 1) [] current).bind fun traced =>
      let cycleVertices := traced.1.drop (traced.1.idxOf traced.2)
      let cycleSymbols := cycleVertices.map solver.idxToSymbol
      solver.buildCycle math (cycleSymbols ++ cycleSymbols.take 1)

/-- One step of `_deduplicate_cycles`, with what was seen and what is unique. -/
def deduplicateNext (state : List (Finset String) × List ArbCycle) (cycle : ArbCycle) :
    List (Finset String) × List ArbCycle :=
  let cycleSet := cycle.cycleSymbols.dropLast.toFinset
  if cycleSet ∈ state.1 then state else (cycleSet :: state.1, state.2 ++ [cycle])

def deduplicateCycles (cycles : List ArbCycle) : List ArbCycle :=
  (cycles.foldl deduplicateNext ([], [])).2

/-- The cycles that `find_arbitrage_cycles` returns. -/
def profitableCycles (math : Logarithm) (order : SetOrder Nat) (solver : BellmanFordSolver)
    (startSymbol : Option String) : List ArbCycle :=
  if solver.symbols = [] ∨ solver.edges = [] then []
  else
    let labels := solver.finalLabels startSymbol
    let cycles := (order.iterate (solver.verticesInCycle labels)).filterMap fun vertex =>
      solver.extractCycle math labels vertex solver.symbols.length
    (deduplicateCycles cycles).filter fun cycle => solver.minProfitBps ≤ cycle.profitBps

def findArbitrageCycles (math : Logarithm) (order : SetOrder Nat) (solver : BellmanFordSolver)
    (startSymbol : Option String) : BellmanFordSolver × List ArbCycle :=
  let cycles := solver.profitableCycles math order startSymbol
  ({ solver with
      totalScans := solver.totalScans + 1
      detectionCount := solver.detectionCount + cycles.length }, cycles)

end BellmanFordSolver

end TradingBot.Arbitrage
