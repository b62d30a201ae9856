import Mathlib.Data.String.Basic
import TradingBot.Causal.DoCalculus

/-!
# The search for an adjustment set

`DoCalculusEngine` of `do_calculus.py` tries the observed parents of the treatment, then these with
one more observed node that the treatment does not cause, and then a mediator. Where the graph has
no cycle and the parents are observed, the parents always do. The rules that test a separation call
a method that the graph does not have and are left out.
-/

open Relation

namespace TradingBot.Causal

namespace CausalGraph

/-- `", ".join(sorted(nodes))`. -/
def joinSorted (nodes : List String) : String :=
  ", ".intercalate (nodes.mergeSort fun first second => first ≤ second)

def backdoorFormula (treatment outcome : String) (adjustmentSet evidence : List String) : String :=
  let adjStr := joinSorted adjustmentSet
  let evStr := joinSorted evidence
  let effect := "P(" ++ outcome ++ "|do(" ++ treatment ++ ")) = "
  if adjStr ≠ "" ∧ evStr ≠ "" then
    effect ++ "Σ_" ++ adjStr ++ " P(" ++ outcome ++ "|" ++ treatment ++ "," ++ adjStr ++ "," ++
      evStr ++ ") P(" ++ adjStr ++ "|" ++ evStr ++ ")"
  else if adjStr ≠ "" then
    effect ++ "Σ_" ++ adjStr ++ " P(" ++ outcome ++ "|" ++ treatment ++ "," ++ adjStr ++ ") P(" ++
      adjStr ++ ")"
  else effect ++ "P(" ++ outcome ++ "|" ++ treatment ++ ")"

def frontdoorFormula (treatment outcome : String) (frontdoorSet : List String) : String :=
  let m := joinSorted frontdoorSet
  "P(" ++ outcome ++ "|do(" ++ treatment ++ ")) = Σ_" ++ m ++ " P(" ++ m ++ "|" ++ treatment ++
    ") Σ_x P(" ++ outcome ++ "|x," ++ m ++ ") P(x)"

section Operations

variable (traversal : Traversal String) (graph : CausalGraph)

/-- The observed parents of a treatment. -/
def observedParents (treatment : String) : List String :=
  (graph.getParents treatment).filter fun node => node ∈ graph.observed

/-- The greedy search over the candidates that are left. -/
def searchCandidates (treatment outcome : String) (adjustmentSet : List String) :
    List String → Option (Option (List String))
  | [] => some none
  | candidate :: rest => do
    let testSet := setAdd adjustmentSet candidate
    let (valid, _) ← graph.isValidAdjustmentSet traversal treatment outcome testSet
    if valid then some (some testSet) else searchCandidates treatment outcome adjustmentSet rest

/-- The candidates: observed nodes besides the treatment and the outcome, outside the evidence, that
the treatment does not cause. -/
def candidates (treatment outcome : String) (evidence descendants : List String) : List String :=
  graph.observed.filter fun node =>
    node ≠ treatment ∧ node ≠ outcome ∧ node ∉ evidence ∧ node ∉ descendants

def findBackdoorAdjustment (treatment outcome : String) (evidence : List String) :
    Option (Option (List String)) := do
  let observedParents := graph.observedParents treatment
  let (valid, _) ← graph.isValidAdjustmentSet traversal treatment outcome observedParents
  if valid then some (some (observedParents.filter fun node => node ∉ evidence))
  else
    let descendants ← graph.getDescendants traversal [treatment]
    graph.searchCandidates traversal treatment outcome observedParents
      ((graph.candidates treatment outcome evidence descendants).mergeSort
        fun first second => first ≤ second)

def findFrontdoorAdjustment (treatment outcome : String) : Option (List String) :=
  ((traversal.order (graph.getChildren treatment)).find? fun mediator =>
    mediator ≠ outcome ∧ graph.findBackdoorPaths traversal treatment mediator = []).map
      fun mediator => [mediator]

def identifyCausalEffect (treatment outcome : String) (evidence : List String) :
    Option (Bool × String × Option (List String)) :=
  if treatment = outcome then some (true, "P(Y|do(Y)) = 1", some [])
  else do
    match ← graph.findBackdoorAdjustment traversal treatment outcome evidence with
    | some adjustmentSet =>
      some (true, backdoorFormula treatment outcome adjustmentSet evidence, some adjustmentSet)
    | none =>
      match graph.findFrontdoorAdjustment traversal treatment outcome with
      | some frontdoorSet =>
        some (true, frontdoorFormula treatment outcome frontdoorSet, some frontdoorSet)
      | none => some (false, "Effect not identifiable with available methods", none)

end Operations

variable {graph : CausalGraph} {treatment outcome : String} {evidence adjustmentSet : List String}

/-! ## What the search finds -/

/-- A node that the search may add to the observed parents. -/
structure Candidate (graph : CausalGraph) (treatment outcome : String) (evidence : List String)
    (node : String) : Prop where
  observed : node ∈ graph.observed
  notOutcome : node ≠ outcome
  notEvidence : node ∉ evidence
  notCaused : ¬ ReflTransGen graph.Causes treatment node

/-- What a search may answer: a set that meets the criterion, up to evidence that is left out of it,
or nothing where neither the observed parents nor these with a candidate meet it. -/
def Finds (graph : CausalGraph) (treatment outcome : String) (evidence : List String) :
    Option (List String) → Prop
  | some found => ∃ base, graph.BackdoorCriterion treatment outcome base ∧
      (∀ node ∈ base, node ∈ graph.observed) ∧ (∀ node ∈ found, node ∈ base) ∧
        ∀ node ∈ base, node ∉ found → node ∈ evidence
  | none => ¬ graph.BackdoorCriterion treatment outcome (graph.observedParents treatment) ∧
      ∀ node, graph.Candidate treatment outcome evidence node →
        ¬ graph.BackdoorCriterion treatment outcome
          (setAdd (graph.observedParents treatment) node)

/-- The search finds a candidate that meets the criterion, or none does. -/
theorem Agrees.searchCandidates_spec (agrees : graph.Agrees) (traversal : Traversal String)
    (candidates : List String) :
    ∃ found, graph.searchCandidates traversal treatment outcome adjustmentSet candidates =
        some found ∧
      ((∃ candidate ∈ candidates, found = some (setAdd adjustmentSet candidate) ∧
          graph.BackdoorCriterion treatment outcome (setAdd adjustmentSet candidate)) ∨
        found = none ∧ ∀ candidate ∈ candidates,
          ¬ graph.BackdoorCriterion treatment outcome (setAdd adjustmentSet candidate)) := by
  induction candidates with
  | nil => exact ⟨none, rfl, .inr ⟨rfl, nofun⟩⟩
  | cons candidate rest ih =>
    obtain ⟨valid, reason, checked, exact_, -⟩ := agrees.isValidAdjustmentSet_spec traversal
      treatment outcome (setAdd adjustmentSet candidate)
    rw [searchCandidates]
    simp only [checked, Option.bind_eq_bind, Option.bind_some]
    cases valid with
    | true =>
      exact ⟨_, rfl, .inl ⟨candidate, List.mem_cons_self, rfl, exact_.mp rfl⟩⟩
    | false =>
      have fails : ¬ graph.BackdoorCriterion treatment outcome (setAdd adjustmentSet candidate) :=
        fun criterion => Bool.false_ne_true (exact_.mpr criterion)
      obtain ⟨found, searched, spec⟩ := ih
      refine ⟨found, searched, spec.imp ?_ ?_⟩
      · rintro ⟨other, member, same, criterion⟩
        exact ⟨other, List.mem_cons_of_mem candidate member, same, criterion⟩
      · rintro ⟨missing, all⟩
        exact ⟨missing, List.forall_mem_cons.mpr ⟨fails, all⟩⟩

/-- The search answers with a set that meets the criterion, the parents first. -/
theorem Agrees.findBackdoorAdjustment_spec (agrees : graph.Agrees) (traversal : Traversal String)
    (treatment outcome : String) (evidence : List String) :
    ∃ found, graph.findBackdoorAdjustment traversal treatment outcome evidence = some found ∧
      graph.Finds treatment outcome evidence found ∧
      (graph.BackdoorCriterion treatment outcome (graph.observedParents treatment) →
        found = some ((graph.observedParents treatment).filter fun node => node ∉ evidence)) := by
  have parents : ∀ node ∈ graph.observedParents treatment, node ∈ graph.observed := by
    intro node member
    simpa using (List.mem_filter.mp member).2
  obtain ⟨valid, reason, checked, exact_, -⟩ := agrees.isValidAdjustmentSet_spec traversal
    treatment outcome (graph.observedParents treatment)
  unfold findBackdoorAdjustment
  simp only [checked, Option.bind_eq_bind, Option.bind_some]
  cases valid with
  | true =>
    refine ⟨_, rfl, ⟨_, exact_.mp rfl, parents, fun node member =>
      (List.mem_filter.mp member).1, fun node member out => ?_⟩, fun _ => rfl⟩
    by_contra outside
    exact out (List.mem_filter.mpr ⟨member, decide_eq_true outside⟩)
  | false =>
    have fails : ¬ graph.BackdoorCriterion treatment outcome (graph.observedParents treatment) :=
      fun criterion => Bool.false_ne_true (exact_.mpr criterion)
    obtain ⟨descendants, closed, -, reached⟩ :=
      agrees.descendants traversal (List.nodup_singleton treatment)
    simp only [List.mem_singleton, exists_eq_left] at reached
    have candidate : ∀ node,
        node ∈ (graph.candidates treatment outcome evidence descendants).mergeSort
          (fun first second => first ≤ second) ↔
        graph.Candidate treatment outcome evidence node := by
      intro node
      rw [List.mem_mergeSort, candidates, List.mem_filter, decide_eq_true_iff, reached]
      constructor
      · rintro ⟨seen, -, other, outside, free⟩
        exact ⟨seen, other, outside, free⟩
      · rintro ⟨seen, other, outside, free⟩
        refine ⟨seen, ?_, other, outside, free⟩
        rintro rfl
        exact free .refl
    obtain ⟨found, searched, spec⟩ := @Agrees.searchCandidates_spec _ treatment outcome
      (graph.observedParents treatment) agrees traversal
      ((graph.candidates treatment outcome evidence descendants).mergeSort
        fun first second => first ≤ second)
    simp only [closed, Option.bind_some]
    refine ⟨found, searched, ?_, fun criterion => absurd criterion fails⟩
    obtain ⟨node, member, rfl, criterion⟩ | ⟨rfl, none_⟩ := spec
    · refine ⟨_, criterion, fun other inside => ?_, fun _ inside => inside,
        fun other inside out => absurd inside out⟩
      obtain rfl | parent := mem_setAdd.mp inside
      · exact ((candidate other).mp member).observed
      · exact parents other parent
    · exact ⟨fails, fun node is => none_ node ((candidate node).mpr is)⟩

theorem Agrees.observedParents_criterion (agrees : graph.Agrees)
    (acyclic : ∀ node, ¬ TransGen graph.Causes node node)
    (observed : ∀ node, graph.Causes node treatment → node ∈ graph.observed) (outcome : String) :
    graph.BackdoorCriterion treatment outcome (graph.observedParents treatment) := by
  have parents : ∀ node, node ∈ graph.observedParents treatment ↔
      graph.Causes node treatment := by
    intro node
    rw [observedParents, List.mem_filter, agrees.parents, decide_eq_true_iff]
    exact and_iff_left_of_imp (observed node)
  constructor
  · intro node member _ reached
    exact acyclic node (.head' ((parents node).mp member) reached)
  · rintro path ⟨parent, causes, -, first, -⟩
    have here : path[0]? = some parent := by rw [← List.head?_eq_getElem?, first]
    refine ⟨0, parent, here, ?_, .inr ⟨?_, (parents parent).mpr causes⟩⟩
    · rintro rfl
      exact acyclic _ (.single causes)
    · rintro ⟨before, _, _, _, next, -⟩
      exact Nat.succ_ne_zero before next.symm

/-- In a graph without cycles that calls have built, the effect of a treatment whose parents are all
observed on another node is identified, by the parents outside the evidence. -/
theorem identifyCausalEffect_parents {calls : List Call}
    (acyclic : ∀ node, ¬ TransGen (build calls).Causes node node)
    (observed : ∀ node, (build calls).Causes node treatment → node ∈ (build calls).observed)
    (differs : treatment ≠ outcome) (traversal : Traversal String) (evidence : List String) :
    ∃ adjustmentSet, (build calls).identifyCausalEffect traversal treatment outcome evidence =
        some (true, backdoorFormula treatment outcome adjustmentSet evidence, some adjustmentSet) ∧
      ∀ node, node ∈ adjustmentSet ↔
        (build calls).Causes node treatment ∧ node ∉ evidence := by
  have agrees := agrees_build calls
  obtain ⟨found, searched, -, byParents⟩ :=
    agrees.findBackdoorAdjustment_spec traversal treatment outcome evidence
  obtain rfl := byParents (agrees.observedParents_criterion acyclic observed outcome)
  refine ⟨(observedParents (build calls) treatment).filter fun node => node ∉ evidence, ?_,
    fun node => ?_⟩
  · rw [identifyCausalEffect, if_neg differs, searched]
    rfl
  · rw [List.mem_filter, observedParents, List.mem_filter, agrees.parents, decide_eq_true_iff,
      decide_eq_true_iff]
    exact and_congr_left fun _ => and_iff_left_of_imp (observed node)

/-- The effect of the supply shock on the price is identified by the sentiment. -/
theorem identifyCausalEffect_shock : ∃ adjustmentSet,
    (build confounded).identifyCausalEffect asListed "Supply_Shock" "Price_Impact" [] =
        some (true, backdoorFormula "Supply_Shock" "Price_Impact" adjustmentSet [],
          some adjustmentSet) ∧ "Market_Sentiment" ∈ adjustmentSet := by
  let rank : String → Nat := fun node =>
    if node = "Market_Sentiment" then 0 else if node = "Supply_Shock" then 1 else 2
  have rises : ∀ source target, (build confounded).Causes source target →
      rank source < rank target := by
    intro source target causes
    rw [causes_build] at causes
    simp only [confounded, List.mem_cons, Call.addDirectedEdge.injEq, reduceCtorEq, false_or,
      List.not_mem_nil, or_false] at causes
    obtain ⟨rfl, rfl⟩ | ⟨rfl, rfl⟩ | ⟨rfl, rfl⟩ := causes
    all_goals decide
  have acyclic : ∀ node, ¬ TransGen (build confounded).Causes node node := by
    have up : ∀ {first last}, TransGen (build confounded).Causes first last →
        rank first < rank last := by
      intro first last path
      induction path with
      | single causes => exact rises _ _ causes
      | tail _ causes ih => exact ih.trans (rises _ _ causes)
    exact fun node cycle => Nat.lt_irrefl _ (up cycle)
  have observed : ∀ node, (build confounded).Causes node "Supply_Shock" →
      node ∈ (build confounded).observed := by
    intro node causes
    rw [causes_build] at causes
    simp only [confounded, List.mem_cons, Call.addDirectedEdge.injEq, reduceCtorEq, false_or,
      List.not_mem_nil, or_false] at causes
    obtain ⟨rfl, -⟩ | ⟨-, wrong⟩ | ⟨-, wrong⟩ := causes
    · decide
    · exact absurd wrong (by decide)
    · exact absurd wrong (by decide)
  have differs : "Supply_Shock" ≠ "Price_Impact" := by decide
  obtain ⟨adjustmentSet, identified, members⟩ :=
    identifyCausalEffect_parents acyclic observed differs asListed []
  refine ⟨adjustmentSet, identified, (members _).mpr ⟨?_, List.not_mem_nil⟩⟩
  rw [causes_build]
  simp [confounded]

end CausalGraph

end TradingBot.Causal
