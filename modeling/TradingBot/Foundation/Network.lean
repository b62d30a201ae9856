import Mathlib.Algebra.Order.Monoid.WithTop
import Mathlib.Data.Finset.Card

/-!
# Networks and their walks

A network is a list of arcs, parallel ones included, each with a source, a target and a weight. A
walk is the list of its arcs. Where an estimate of the distances bounds every arc, it bounds every
walk; a walk that meets a vertex again contains a cycle.
-/

/-- Arcs between vertices, with weights. -/
structure Network (V E G : Type*) where
  arcs : List E
  source : E → V
  target : E → V
  weight : E → G

namespace Network

variable {V W E G : Type*}

/-! ## Walks -/

/-- A list of arcs leads from one vertex to another. -/
def IsWalk (network : Network V E G) : V → V → List E → Prop
  | first, last, [] => first = last
  | first, last, arc :: rest =>
    arc ∈ network.arcs ∧ network.source arc = first ∧ network.IsWalk (network.target arc) last rest

/-- Some walk leads from one vertex to another. -/
def Reaches (network : Network V E G) (first last : V) : Prop :=
  ∃ walk, network.IsWalk first last walk

/-- A closed walk that meets no vertex twice. -/
structure IsCycle (network : Network V E G) (cycle : List E) : Prop where
  nonempty : cycle ≠ []
  closed : ∃ vertex, network.IsWalk vertex vertex cycle
  simple : (cycle.map network.source).Nodup

/-- Some vertex of a cycle can be reached. -/
def ReachesCycle (network : Network V E G) (start : V) (cycle : List E) : Prop :=
  ∃ arc ∈ cycle, network.Reaches start (network.source arc)

/-- The weight of a list of arcs. -/
def total [AddCommMonoid G] (network : Network V E G) (walk : List E) : G :=
  (walk.map network.weight).sum

variable {network : Network V E G} {first middle last start : V} {walk before after : List E}
  {arc : E}

theorem isWalk_nil (network : Network V E G) (vertex : V) : network.IsWalk vertex vertex [] := rfl

/-- A walk is cut where its parts meet. -/
theorem isWalk_append : network.IsWalk first last (before ++ after) ↔
    ∃ middle, network.IsWalk first middle before ∧ network.IsWalk middle last after := by
  induction before generalizing first with
  | nil => exact ⟨fun walks => ⟨first, rfl, walks⟩, fun ⟨_, same, walks⟩ => same ▸ walks⟩
  | cons arc rest ih =>
    simp only [List.cons_append, IsWalk, ih]
    constructor
    · rintro ⟨member, here, middle, left, right⟩
      exact ⟨middle, ⟨member, here, left⟩, right⟩
    · rintro ⟨middle, ⟨member, here, left⟩, right⟩
      exact ⟨member, here, middle, left, right⟩

section

variable (walks : network.IsWalk first last walk)
include walks

/-- A walk goes on by an arc from its end. -/
theorem IsWalk.snoc (member : arc ∈ network.arcs) (here : network.source arc = last) :
    network.IsWalk first (network.target arc) (walk ++ [arc]) :=
  isWalk_append.mpr ⟨last, walks, member, here, rfl⟩

/-- A walk uses arcs of the network. -/
theorem IsWalk.mem_arcs : ∀ arc ∈ walk, arc ∈ network.arcs := by
  induction walk generalizing first with
  | nil => exact nofun
  | cons head rest ih =>
    intro arc member
    rcases List.mem_cons.mp member with rfl | later
    · exact walks.1
    · exact ih walks.2.2 arc later

theorem IsWalk.last_unique (other : network.IsWalk first middle walk) : last = middle := by
  induction walk generalizing first with
  | nil => exact walks.symm.trans other
  | cons arc rest ih => exact ih walks.2.2 other.2.2

theorem IsWalk.vertices : first :: walk.map network.target = walk.map network.source ++ [last] := by
  induction walk generalizing first with
  | nil => exact congrArg (fun vertex => [vertex]) walks
  | cons arc rest ih =>
    obtain ⟨_, here, later⟩ := walks
    rw [List.map_cons, ih later, List.map_cons, here]
    rfl

end

/-- A closed walk enters each vertex as often as it leaves it. -/
theorem IsWalk.perm (closed : network.IsWalk first first walk) :
    (walk.map network.target).Perm (walk.map network.source) := by
  have turned := closed.vertices ▸ List.perm_append_singleton first (walk.map network.source)
  exact (List.perm_cons first).mp turned

theorem IsCycle.ends (cycle : network.IsCycle walk) (walks : network.IsWalk first last walk) :
    first = last := by
  obtain ⟨vertex, closed⟩ := cycle.closed
  cases walk with
  | nil => exact absurd rfl cycle.nonempty
  | cons arc rest =>
    have same : vertex = first := closed.2.1.symm.trans walks.2.1
    exact (same ▸ closed).last_unique walks

theorem IsCycle.nodup_target (cycle : network.IsCycle walk) :
    (walk.map network.target).Nodup := by
  obtain ⟨vertex, closed⟩ := cycle.closed
  exact closed.perm.nodup_iff.mpr cycle.simple

/-! ## Totals -/

@[simp] theorem total_nil [AddCommMonoid G] (network : Network V E G) : network.total [] = 0 := rfl

@[simp] theorem total_cons [AddCommMonoid G] (network : Network V E G) (arc : E) (walk : List E) :
    network.total (arc :: walk) = network.weight arc + network.total walk := by
  simp only [total, List.map_cons, List.sum_cons]

@[simp] theorem total_append [AddCommMonoid G] (network : Network V E G) (before after : List E) :
    network.total (before ++ after) = network.total before + network.total after := by
  simp only [total, List.map_append, List.sum_append]

theorem IsWalk.le_dist [AddCommMonoid G] [LinearOrder G] [IsOrderedAddMonoid G]
    {dist : V → WithTop G} (walks : network.IsWalk first last walk)
    (bounded : ∀ arc ∈ walk,
      dist (network.target arc) ≤ dist (network.source arc) + network.weight arc) :
    dist last ≤ dist first + network.total walk := by
  induction walk generalizing first with
  | nil =>
    cases walks
    simp only [total_nil, WithTop.coe_zero, add_zero, le_refl]
  | cons arc rest ih =>
    obtain ⟨_, here, later⟩ := walks
    calc
      dist last ≤ dist (network.target arc) + network.total rest :=
        ih later fun other member => bounded other (List.mem_cons_of_mem _ member)
      _ ≤ dist (network.source arc) + network.weight arc + network.total rest :=
        add_le_add_left (bounded arc List.mem_cons_self) _
      _ = dist first + network.total (arc :: rest) := by
        rw [here, total_cons, WithTop.coe_add, add_assoc]

theorem IsWalk.add_total_le [AddCommMonoid G] [LinearOrder G] [IsOrderedAddMonoid G]
    {dist : V → WithTop G} (walks : network.IsWalk first last walk)
    (fits : ∀ arc ∈ walk,
      dist (network.source arc) + network.weight arc ≤ dist (network.target arc)) :
    dist first + network.total walk ≤ dist last := by
  induction walk generalizing first with
  | nil =>
    cases walks
    simp only [total_nil, WithTop.coe_zero, add_zero, le_refl]
  | cons arc rest ih =>
    obtain ⟨_, here, later⟩ := walks
    calc
      dist first + network.total (arc :: rest) =
          dist (network.source arc) + network.weight arc + network.total rest := by
        rw [here, total_cons, WithTop.coe_add, add_assoc]
      _ ≤ dist (network.target arc) + network.total rest :=
        add_le_add_left (fits arc List.mem_cons_self) _
      _ ≤ dist last := ih later fun other member => fits other (List.mem_cons_of_mem _ member)

/-! ## Cycles in walks -/

theorem IsWalk.exists_cycle (walks : network.IsWalk first last walk)
    (again : ¬(first :: walk.map network.target).Nodup) :
    ∃ before cycle after, walk = before ++ cycle ++ after ∧ network.IsCycle cycle := by
  induction walk generalizing first with
  | nil => exact absurd (List.nodup_singleton first) again
  | cons arc rest ih =>
    obtain ⟨member, here, later⟩ := walks
    by_cases simple : (network.target arc :: rest.map network.target).Nodup
    · -- Only the first vertex is met again, so the way back to it is a cycle.
      rw [List.map_cons, List.nodup_cons, not_and] at again
      have back : first ∈ network.target arc :: rest.map network.target := by
        by_contra fresh
        exact again fresh simple
      obtain ⟨way, others, rfl, returns⟩ : ∃ way others, rest = way ++ others ∧
          network.IsWalk (network.target arc) first way := by
        rcases List.mem_cons.mp back with same | met
        · exact ⟨[], rest, rfl, same.symm⟩
        · obtain ⟨entering, inside, enters⟩ := List.mem_map.mp met
          obtain ⟨way, others, rfl⟩ := List.append_of_mem inside
          refine ⟨way ++ [entering], others, by simp only [List.append_assoc,
            List.singleton_append], ?_⟩
          obtain ⟨_, left, entered, leaves, _⟩ := isWalk_append.mp later
          exact enters ▸ left.snoc entered leaves
      have closed : network.IsWalk first first (arc :: way) := ⟨member, here, returns⟩
      refine ⟨[], arc :: way, others, rfl, List.cons_ne_nil _ _, ⟨first, closed⟩, ?_⟩
      refine closed.perm.nodup_iff.mp ?_
      rw [List.map_append] at simple
      exact (List.nodup_append.mp (List.cons_append ▸ simple)).1
    · obtain ⟨before, cycle, after, rfl, cyclic⟩ := ih later simple
      exact ⟨arc :: before, cycle, after, rfl, cyclic⟩

/-- A walk with a property that stays when a cycle is left out can be made to meet no vertex
twice. -/
theorem IsWalk.exists_simple (property : List E → Prop)
    (cuts : ∀ before cycle after, network.IsCycle cycle → network.ReachesCycle first cycle →
      property (before ++ cycle ++ after) → property (before ++ after))
    (walks : network.IsWalk first last walk) (holds : property walk) :
    ∃ shorter, network.IsWalk first last shorter ∧ property shorter ∧
      (first :: shorter.map network.target).Nodup := by
  induction long : walk.length using Nat.strongRecOn generalizing walk with
  | ind length ih =>
    by_cases simple : (first :: walk.map network.target).Nodup
    · exact ⟨walk, walks, holds, simple⟩
    · obtain ⟨before, cycle, after, rfl, cyclic⟩ := walks.exists_cycle simple
      obtain ⟨back, left, afterward⟩ := isWalk_append.mp walks
      obtain ⟨vertex, toCycle, around⟩ := isWalk_append.mp left
      -- A cycle on the way can be left out.
      have closed := cyclic.ends around
      have straight : network.IsWalk first last (before ++ after) :=
        isWalk_append.mpr ⟨back, closed ▸ toCycle, afterward⟩
      have reached : network.ReachesCycle first cycle := by
        cases cycle with
        | nil => exact absurd rfl cyclic.nonempty
        | cons arc rest => exact ⟨arc, List.mem_cons_self, before, around.2.1 ▸ toCycle⟩
      have shorter : (before ++ after).length < length := by
        have positiveLength := List.length_pos_iff.mpr cyclic.nonempty
        simp only [List.length_append] at long ⊢
        omega
      exact ih _ shorter straight (cuts before cycle after cyclic reached holds) rfl

/-- Without a negative cycle a walk can be made to meet no vertex twice, at no greater weight. -/
theorem IsWalk.exists_lighter [AddCommGroup G] [LinearOrder G] [IsOrderedAddMonoid G]
    (positive : ∀ cycle, network.IsCycle cycle → network.ReachesCycle first cycle →
      0 ≤ network.total cycle)
    (walks : network.IsWalk first last walk) :
    ∃ shorter, network.IsWalk first last shorter ∧
      network.total shorter ≤ network.total walk ∧
      (first :: shorter.map network.target).Nodup := by
  refine walks.exists_simple (fun other => network.total other ≤ network.total walk) ?_ (le_refl _)
  intro before cycle after cyclic reached bounded
  refine le_trans ?_ bounded
  simp only [total_append]
  exact add_le_add_left (le_add_of_nonneg_right (positive cycle cyclic reached)) _

theorem IsWalk.length_lt_card [DecidableEq V] {vertices : Finset V}
    (walks : network.IsWalk first last walk) (firstIn : first ∈ vertices)
    (inside : ∀ arc ∈ network.arcs, network.target arc ∈ vertices)
    (distinct : (first :: walk.map network.target).Nodup) : walk.length < vertices.card := by
  have bounded : (first :: walk.map network.target).length ≤ vertices.card := by
    rw [← List.toFinset_card_of_nodup distinct]
    refine Finset.card_le_card fun vertex met => ?_
    rcases List.mem_cons.mp (List.mem_toFinset.mp met) with rfl | entered
    · exact firstIn
    · obtain ⟨arc, taken, rfl⟩ := List.mem_map.mp entered
      exact inside arc (walks.mem_arcs arc taken)
  rw [List.length_cons, List.length_map] at bounded
  exact bounded

theorem IsCycle.turned (cyclic : network.IsCycle walk) (member : arc ∈ walk) :
    ∃ around, network.IsWalk (network.source arc) (network.source arc) around ∧
      around.Perm walk := by
  obtain ⟨vertex, closed⟩ := cyclic.closed
  obtain ⟨before, after, rfl⟩ := List.append_of_mem member
  obtain ⟨_, left, inside, here, right⟩ := isWalk_append.mp closed
  refine ⟨arc :: after ++ before, isWalk_append.mpr ⟨vertex, ⟨inside, rfl, right⟩, here ▸ left⟩, ?_⟩
  exact List.perm_append_comm

/-! ## Relabelled vertices -/

/-- A network with its vertices renamed. -/
def relabel (network : Network V E G) (name : V → W) : Network W E G where
  arcs := network.arcs
  source := fun arc => name (network.source arc)
  target := fun arc => name (network.target arc)
  weight := network.weight

/-- A renaming keeps the vertices of the arcs apart. -/
def Distinguishes (network : Network V E G) (name : V → W) (vertices : Set V) : Prop :=
  Set.InjOn name vertices ∧
    ∀ arc ∈ network.arcs, network.source arc ∈ vertices ∧ network.target arc ∈ vertices

theorem isWalk_relabel {name : V → W} {vertices : Set V}
    (distinguishes : network.Distinguishes name vertices) (firstIn : first ∈ vertices)
    (lastIn : last ∈ vertices) :
    (network.relabel name).IsWalk (name first) (name last) walk ↔
      network.IsWalk first last walk := by
  induction walk generalizing first with
  | nil => exact ⟨distinguishes.1 firstIn lastIn, congrArg name⟩
  | cons arc rest ih =>
    refine and_congr_right fun member => ?_
    obtain ⟨sourceIn, targetIn⟩ := distinguishes.2 arc member
    exact and_congr (distinguishes.1.eq_iff sourceIn firstIn) (ih targetIn)

theorem isCycle_relabel {name : V → W} {vertices : Set V}
    (distinguishes : network.Distinguishes name vertices) :
    (network.relabel name).IsCycle walk ↔ network.IsCycle walk := by
  have sources : walk.map (network.relabel name).source = (walk.map network.source).map name := by
    rw [List.map_map]
    rfl
  constructor
  · rintro ⟨nonempty, ⟨vertex, closed⟩, simple⟩
    refine ⟨nonempty, ?_, List.Nodup.of_map name (sources ▸ simple)⟩
    cases walk with
    | nil => exact absurd rfl nonempty
    | cons arc rest =>
      have inside := (distinguishes.2 arc closed.1).1
      refine ⟨network.source arc, (isWalk_relabel distinguishes inside inside).mp ?_⟩
      have here : name (network.source arc) = vertex := closed.2.1
      exact here ▸ closed
  · rintro ⟨nonempty, ⟨vertex, closed⟩, simple⟩
    have inside : vertex ∈ vertices := by
      cases walk with
      | nil => exact absurd rfl nonempty
      | cons arc rest => exact closed.2.1 ▸ (distinguishes.2 arc closed.1).1
    refine ⟨nonempty, ⟨name vertex, (isWalk_relabel distinguishes inside inside).mpr closed⟩, ?_⟩
    rw [sources]
    refine simple.map_on fun one oneIn other otherIn same => ?_
    obtain ⟨left, leftIn, rfl⟩ := List.mem_map.mp oneIn
    obtain ⟨right, rightIn, rfl⟩ := List.mem_map.mp otherIn
    exact distinguishes.1 (distinguishes.2 left (closed.mem_arcs left leftIn)).1
      (distinguishes.2 right (closed.mem_arcs right rightIn)).1 same

theorem reachesCycle_relabel {name : V → W} {vertices : Set V}
    (distinguishes : network.Distinguishes name vertices) (startIn : start ∈ vertices)
    (cycle : network.IsCycle walk) :
    (network.relabel name).ReachesCycle (name start) walk ↔ network.ReachesCycle start walk := by
  obtain ⟨vertex, closed⟩ := cycle.closed
  refine exists_congr fun arc => and_congr_right fun member => exists_congr fun way => ?_
  exact isWalk_relabel distinguishes startIn (distinguishes.2 arc (closed.mem_arcs arc member)).1

end Network
