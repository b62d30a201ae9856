import Mathlib.Data.List.Chain
import TradingBot.Foundation.Network

/-!
# Relaxing the arcs of a network

The labels of the vertices hold an estimate of the distance from a start and the vertex that the
estimate came from. Relaxing an arc improves the label of its target. Predecessors that lead in a
circle lead around a negative cycle, whatever the order of the relaxations; and a sweep over all
arcs, done as often as a simple walk is long, leaves no arc to relax unless there is a negative
cycle.
-/

namespace Network

/-- The labels of the vertices. -/
structure Labels (V G : Type*) where
  dist : V → WithTop G
  predecessor : V → Option V

variable {V E G : Type*} [AddCommGroup G] [LinearOrder G]

/-- The label of the target of an arc can be improved. -/
def Relaxable (network : Network V E G) (labels : Labels V G) (arc : E) : Prop :=
  labels.dist (network.source arc) + network.weight arc < labels.dist (network.target arc)

instance decidableRelaxable (network : Network V E G) (labels : Labels V G) (arc : E) :
    Decidable (network.Relaxable labels arc) :=
  inferInstanceAs (Decidable (_ < _))

variable {network : Network V E G} {labels : Labels V G} {start vertex : V} {arc : E}
  {via : V → Option E}

/-- An arc that can be relaxed starts at a finite distance. -/
theorem Relaxable.source_finite (relaxable : network.Relaxable labels arc) :
    ∃ near : G, labels.dist (network.source arc) = near := by
  have improves : labels.dist (network.source arc) + network.weight arc <
      labels.dist (network.target arc) := relaxable
  obtain ⟨near, source⟩ := WithTop.ne_top_iff_exists.mp
    (WithTop.add_ne_top.mp (ne_top_of_lt improves)).1
  exact ⟨near, source.symm⟩

/-- An arc that can be relaxed closes a walk that fits the labels to a negative circle. -/
theorem Relaxable.add_total_neg [IsOrderedAddMonoid G] (relaxable : network.Relaxable labels arc)
    {walk : List E}
    (walks : network.IsWalk (network.target arc) (network.source arc) walk)
    (fits : ∀ other ∈ walk, labels.dist (network.source other) + network.weight other ≤
      labels.dist (network.target other)) :
    network.weight arc + network.total walk < 0 := by
  have circle := walks.add_total_le fits
  have improves : labels.dist (network.source arc) + network.weight arc <
      labels.dist (network.target arc) := relaxable
  obtain ⟨near, source⟩ := relaxable.source_finite
  rw [source] at circle improves
  obtain ⟨far, target⟩ := WithTop.ne_top_iff_exists.mp
    (WithTop.add_ne_top.mp (ne_top_of_le_ne_top WithTop.coe_ne_top circle)).1
  rw [← target] at circle improves
  have behind : far + network.total walk ≤ near := WithTop.coe_le_coe.mp circle
  have ahead : near + network.weight arc < far := WithTop.coe_lt_coe.mp improves
  have falls : near + (network.weight arc + network.total walk) < near :=
    calc
      near + (network.weight arc + network.total walk) =
          near + network.weight arc + network.total walk := (add_assoc ..).symm
      _ < far + network.total walk := add_lt_add_left ahead _
      _ ≤ near := behind
  exact add_lt_iff_neg_left.mp falls

/-! ## Traces -/

/-- The labels come from the arcs by which the vertices were last improved. -/
structure Traces (network : Network V E G) (start : V) (via : V → Option E)
    (labels : Labels V G) : Prop where
  /-- Every label was improved by an arc to it. -/
  arrives : ∀ vertex, ∀ arc ∈ via vertex, arc ∈ network.arcs ∧ network.target arc = vertex
  /-- The predecessor is the source of that arc. -/
  predecessor : ∀ vertex, labels.predecessor vertex = (via vertex).map network.source
  /-- The label has not been left behind by that of the source. -/
  fits : ∀ vertex, ∀ arc ∈ via vertex,
    labels.dist (network.source arc) + network.weight arc ≤ labels.dist vertex
  /-- Every label is the weight of a walk. -/
  walked : ∀ vertex, ∀ distance : G, labels.dist vertex = distance →
    ∃ walk, network.IsWalk start vertex walk ∧ network.total walk = distance
  /-- A label that was not improved is that of the start, or infinite. -/
  untouched : ∀ vertex, via vertex = none →
    vertex = start ∧ labels.dist vertex = 0 ∨ labels.dist vertex = ⊤
  /-- An improved label is finite. -/
  finite : ∀ vertex, ∀ arc ∈ via vertex, labels.dist vertex ≠ ⊤
  /-- The arcs close no cycle but a negative one. -/
  negative : ∀ cycle, network.IsCycle cycle →
    (∀ arc ∈ cycle, via (network.target arc) = some arc) → network.total cycle < 0

theorem Traces.mem_of_finite (traces : network.Traces start via labels) {vertices : Finset V}
    (startIn : start ∈ vertices)
    (inside : ∀ arc ∈ network.arcs, network.target arc ∈ vertices) :
    ∀ vertex, labels.dist vertex ≠ ⊤ → vertex ∈ vertices := by
  intro vertex finite
  obtain ⟨distance, labelled⟩ := WithTop.ne_top_iff_exists.mp finite
  obtain ⟨walk, walks, _⟩ := traces.walked vertex distance labelled.symm
  have met : vertex ∈ start :: walk.map network.target :=
    walks.vertices ▸ List.mem_append_right _ (List.mem_singleton_self vertex)
  rcases List.mem_cons.mp met with rfl | entered
  · exact startIn
  · obtain ⟨arc, taken, rfl⟩ := List.mem_map.mp entered
    exact inside arc (walks.mem_arcs arc taken)

/-- Predecessors followed back are the sources of the arcs of a walk. -/
theorem Traces.follow (traces : network.Traces start via labels) {vertices : List V} {last : V}
    (follows : (vertices ++ [last]).IsChain fun vertex previous =>
      labels.predecessor vertex = some previous) :
    ∃ arcs : List E, arcs.map network.target = vertices ∧
      arcs.map network.source = (vertices ++ [last]).tail ∧
      (∀ arc ∈ arcs, via (network.target arc) = some arc) ∧
      ∀ first ∈ (vertices ++ [last]).head?, network.IsWalk last first arcs.reverse := by
  induction vertices with
  | nil => exact ⟨[], rfl, rfl, nofun, fun first same => Option.some.inj same⟩
  | cons vertex rest ih =>
    rw [List.cons_append, List.isChain_cons] at follows
    obtain ⟨here, later⟩ := follows
    obtain ⟨arcs, targets, sources, through, walks⟩ := ih later
    obtain ⟨previous, listed⟩ : ∃ previous, (rest ++ [last]).head? = some previous := by
      cases rest with
      | nil => exact ⟨last, rfl⟩
      | cons head _ => exact ⟨head, rfl⟩
    have came := here previous listed
    rw [traces.predecessor, Option.map_eq_some_iff] at came
    obtain ⟨arc, arrived, left⟩ := came
    obtain ⟨member, target⟩ := traces.arrives vertex arc arrived
    refine ⟨arc :: arcs, ?_, ?_, ?_, ?_⟩
    · rw [List.map_cons, targets, target]
    · rw [List.map_cons, sources, left, List.cons_append, List.tail_cons]
      exact List.cons_head?_tail listed
    · rintro other inside
      rcases List.mem_cons.mp inside with rfl | earlier
      · rw [target]
        exact arrived
      · exact through other earlier
    · rintro first same
      cases same
      rw [List.reverse_cons, ← target]
      exact (walks previous listed).snoc member left

/-- Predecessors that lead in a circle lead around a negative cycle that can be reached. -/
theorem Traces.circle (traces : network.Traces start via labels) {first : V} {rest : List V}
    (distinct : (first :: rest).Nodup)
    (follows : (first :: rest ++ [first]).IsChain fun vertex previous =>
      labels.predecessor vertex = some previous) :
    ∃ cycle, network.IsCycle cycle ∧ network.ReachesCycle start cycle ∧
      network.total cycle < 0 ∧ cycle.reverse.map network.target = first :: rest ∧
      cycle.reverse.map network.source = rest ++ [first] := by
  obtain ⟨arcs, targets, sources, through, walks⟩ := traces.follow follows
  have closed : network.IsWalk first first arcs.reverse := walks first rfl
  have nonempty : arcs ≠ [] := by
    rintro rfl
    cases targets
  have cyclic : network.IsCycle arcs.reverse := by
    refine ⟨fun empty => nonempty (List.reverse_eq_nil_iff.mp empty), ⟨first, closed⟩, ?_⟩
    refine closed.perm.nodup_iff.mp ?_
    rw [List.map_reverse, List.nodup_reverse, targets]
    exact distinct
  have arrived : ∀ arc ∈ arcs.reverse, via (network.target arc) = some arc :=
    fun arc member => through arc (List.mem_reverse.mp member)
  obtain ⟨arc, member⟩ := List.exists_mem_of_ne_nil _ cyclic.nonempty
  have came := arrived arc member
  have reached : ∃ near : G, labels.dist (network.source arc) = near := by
    have bounded := ne_top_of_le_ne_top (traces.finite _ arc came) (traces.fits _ arc came)
    obtain ⟨near, source⟩ := WithTop.ne_top_iff_exists.mp (WithTop.add_ne_top.mp bounded).1
    exact ⟨near, source.symm⟩
  obtain ⟨near, source⟩ := reached
  obtain ⟨walk, walks, _⟩ := traces.walked _ near source
  refine ⟨arcs.reverse, cyclic, ⟨arc, member, walk, walks⟩,
    traces.negative _ cyclic arrived, ?_, ?_⟩
  · rw [List.reverse_reverse, targets]
  · rw [List.reverse_reverse, sources]
    rfl

/-! ## One relaxation -/

variable [DecidableEq V]

/-- The labels after the relaxation of an arc. -/
def relax (network : Network V E G) (labels : Labels V G) (arc : E) : Labels V G :=
  if network.Relaxable labels arc then {
    dist := Function.update labels.dist (network.target arc)
      (labels.dist (network.source arc) + network.weight arc)
    predecessor := Function.update labels.predecessor (network.target arc)
      (some (network.source arc)) }
  else labels

/-- The labels after the relaxation of every arc. -/
def sweep (network : Network V E G) (labels : Labels V G) : Labels V G :=
  network.arcs.foldl network.relax labels

/-- The labels at the start. -/
def labelsFrom (start : V) : Labels V G where
  dist := Function.update (fun _ => ⊤) start 0
  predecessor := fun _ => none

theorem relax_dist_target (relaxable : network.Relaxable labels arc) :
    (network.relax labels arc).dist (network.target arc) =
      labels.dist (network.source arc) + network.weight arc := by
  rw [relax, if_pos relaxable]
  exact Function.update_self ..

theorem relax_dist_other (elsewhere : vertex ≠ network.target arc) :
    (network.relax labels arc).dist vertex = labels.dist vertex := by
  unfold relax
  split
  · exact Function.update_of_ne elsewhere ..
  · rfl

theorem relax_dist_le (network : Network V E G) (labels : Labels V G) (arc : E) (vertex : V) :
    (network.relax labels arc).dist vertex ≤ labels.dist vertex := by
  by_cases here : vertex = network.target arc
  · subst here
    by_cases relaxable : network.Relaxable labels arc
    · exact (relax_dist_target relaxable).le.trans (le_of_lt relaxable)
    · rw [relax, if_neg relaxable]
  · exact (relax_dist_other here).le

theorem relax_dist_target_le (network : Network V E G) (labels : Labels V G) (arc : E) :
    (network.relax labels arc).dist (network.target arc) ≤
      labels.dist (network.source arc) + network.weight arc := by
  by_cases relaxable : network.Relaxable labels arc
  · exact (relax_dist_target relaxable).le
  · rw [relax, if_neg relaxable]
    exact not_lt.mp relaxable

theorem fold_dist_le (network : Network V E G) (relaxed : List E) (labels : Labels V G)
    (vertex : V) : (relaxed.foldl network.relax labels).dist vertex ≤ labels.dist vertex := by
  induction relaxed generalizing labels with
  | nil => exact le_refl _
  | cons arc rest ih => exact (ih _).trans (relax_dist_le network labels arc vertex)

/-! ## Traces of relaxations -/

theorem traces_start (network : Network V E G) (start : V) :
    network.Traces start (fun _ => none) (labelsFrom start) where
  arrives := nofun
  predecessor := fun _ => rfl
  fits := nofun
  walked := by
    intro vertex distance labelled
    simp only [labelsFrom] at labelled
    by_cases here : vertex = start
    · subst here
      rw [Function.update_self] at labelled
      exact ⟨[], rfl, WithTop.coe_injective labelled⟩
    · rw [Function.update_of_ne here] at labelled
      cases labelled
  untouched := by
    intro vertex _
    simp only [labelsFrom]
    by_cases here : vertex = start
    · subst here
      exact .inl ⟨rfl, Function.update_self ..⟩
    · exact .inr (Function.update_of_ne here ..)
  finite := nofun
  negative := by
    intro cycle cyclic arrived
    obtain ⟨arc, member⟩ := List.exists_mem_of_ne_nil _ cyclic.nonempty
    cases arrived arc member

variable [IsOrderedAddMonoid G]

theorem Traces.closes_negative (traces : network.Traces start via labels)
    (relaxable : network.Relaxable labels arc) {cycle : List E} (cyclic : network.IsCycle cycle)
    (arrived : ∀ other ∈ cycle,
      Function.update via (network.target arc) (some arc) (network.target other) = some other) :
    network.total cycle < 0 := by
  by_cases closes : ∃ other ∈ cycle, network.target other = network.target arc
  · obtain ⟨other, member, same⟩ := closes
    have relaxed := arrived other member
    rw [same, Function.update_self] at relaxed
    cases relaxed
    obtain ⟨before, after, rfl⟩ := List.append_of_mem member
    obtain ⟨vertex, closed⟩ := cyclic.closed
    obtain ⟨_, arriving, _, here, leaving⟩ := isWalk_append.mp closed
    -- The other arcs enter other vertices, so they fit the labels before the relaxation.
    have distinct := cyclic.nodup_target
    rw [List.map_append, List.map_cons, List.nodup_middle, List.nodup_cons] at distinct
    have fits : ∀ other ∈ after ++ before,
        labels.dist (network.source other) + network.weight other ≤
          labels.dist (network.target other) := by
      intro other inside
      have elsewhere : network.target other ≠ network.target arc := by
        intro same
        refine distinct.1 (same ▸ ?_)
        rw [← List.map_append]
        exact List.mem_map_of_mem (List.mem_append.mpr (List.mem_append.mp inside).symm)
      have through := arrived other (by
        rcases List.mem_append.mp inside with later | earlier
        · exact List.mem_append_right _ (List.mem_cons_of_mem _ later)
        · exact List.mem_append_left _ earlier)
      rw [Function.update_of_ne elsewhere] at through
      exact traces.fits _ other through
    have turned : network.total (before ++ arc :: after) =
        network.weight arc + network.total (after ++ before) := by
      simp only [total_append, total_cons]
      ac_rfl
    rw [turned]
    exact relaxable.add_total_neg (isWalk_append.mpr ⟨vertex, leaving, here ▸ arriving⟩) fits
  · refine traces.negative cycle cyclic fun other member => ?_
    have arrives := arrived other member
    rwa [Function.update_of_ne fun same => closes ⟨other, member, same⟩] at arrives

theorem mem_update {place : V} {other : E} :
    other ∈ Function.update via place (some arc) vertex ↔
      vertex = place ∧ other = arc ∨ vertex ≠ place ∧ other ∈ via vertex := by
  by_cases here : vertex = place
  · subst here
    simp only [Function.update_self, Option.mem_some_iff, true_and, ne_eq, not_true_eq_false,
      false_and, or_false, eq_comm]
  · simp only [Function.update_of_ne here, here, false_and, ne_eq, not_false_eq_true, true_and,
      false_or]

theorem Traces.relaxed (traces : network.Traces start via labels) (member : arc ∈ network.arcs)
    (relaxable : network.Relaxable labels arc) :
    network.Traces start (Function.update via (network.target arc) (some arc))
      (network.relax labels arc) where
  arrives := by
    intro vertex other through
    rcases mem_update.mp through with ⟨rfl, rfl⟩ | ⟨_, before⟩
    · exact ⟨member, rfl⟩
    · exact traces.arrives vertex other before
  predecessor := by
    intro vertex
    rw [Network.relax, if_pos relaxable]
    by_cases here : vertex = network.target arc
    · subst here
      simp only [Function.update_self, Option.map_some]
    · simp only [Function.update_of_ne here]
      exact traces.predecessor vertex
  fits := by
    intro vertex other through
    rcases mem_update.mp through with ⟨rfl, rfl⟩ | ⟨here, before⟩
    · rw [relax_dist_target relaxable]
      exact add_le_add_left (relax_dist_le network labels other _) _
    · rw [relax_dist_other here]
      exact (add_le_add_left (relax_dist_le network labels arc _) _).trans
        (traces.fits vertex other before)
  walked := by
    intro vertex distance labelled
    by_cases here : vertex = network.target arc
    · subst here
      obtain ⟨near, source⟩ := relaxable.source_finite
      obtain ⟨walk, walks, weighs⟩ := traces.walked _ near source
      refine ⟨walk ++ [arc], walks.snoc member rfl, ?_⟩
      rw [relax_dist_target relaxable, source] at labelled
      rw [total_append, weighs, total_cons, total_nil, add_zero]
      exact WithTop.coe_injective labelled
    · rw [relax_dist_other here] at labelled
      exact traces.walked vertex distance labelled
  untouched := by
    intro vertex untouched
    by_cases here : vertex = network.target arc
    · subst here
      rw [Function.update_self] at untouched
      cases untouched
    · rw [Function.update_of_ne here] at untouched
      rw [relax_dist_other here]
      exact traces.untouched vertex untouched
  finite := by
    intro vertex other through
    rcases mem_update.mp through with ⟨rfl, rfl⟩ | ⟨here, before⟩
    · obtain ⟨near, source⟩ := relaxable.source_finite
      rw [relax_dist_target relaxable, source]
      exact WithTop.coe_ne_top
    · rw [relax_dist_other here]
      exact traces.finite vertex other before
  negative := fun _ cyclic arrived => traces.closes_negative relaxable cyclic arrived

theorem Traces.relax (traces : network.Traces start via labels) (member : arc ∈ network.arcs) :
    ∃ via, network.Traces start via (network.relax labels arc) := by
  by_cases relaxable : network.Relaxable labels arc
  · exact ⟨_, traces.relaxed member relaxable⟩
  · rw [Network.relax, if_neg relaxable]
    exact ⟨via, traces⟩

theorem Traces.fold (traces : network.Traces start via labels) {relaxed : List E}
    (members : ∀ arc ∈ relaxed, arc ∈ network.arcs) :
    ∃ via, network.Traces start via (relaxed.foldl network.relax labels) := by
  induction relaxed generalizing labels via with
  | nil => exact ⟨via, traces⟩
  | cons arc rest ih =>
    obtain ⟨_, later⟩ := traces.relax (members arc List.mem_cons_self)
    exact ih later fun other member => members other (List.mem_cons_of_mem _ member)

/-! ## Sweeps -/

theorem fold_dist_target_le {relaxed : List E} (member : arc ∈ relaxed) (labels : Labels V G) :
    (relaxed.foldl network.relax labels).dist (network.target arc) ≤
      labels.dist (network.source arc) + network.weight arc := by
  induction relaxed generalizing labels with
  | nil => cases member
  | cons head rest ih =>
    rcases List.mem_cons.mp member with rfl | later
    · exact (fold_dist_le network rest _ _).trans (relax_dist_target_le network labels arc)
    · exact (ih later _).trans (add_le_add_left (relax_dist_le network labels head _) _)

variable {sweeps : Nat}

/-- After enough sweeps no walk is shorter than the distance. -/
theorem iterate_dist_le {walk : List E} {last : V} (walks : network.IsWalk start last walk)
    (short : walk.length ≤ sweeps) :
    (network.sweep^[sweeps] (labelsFrom start)).dist last ≤ network.total walk := by
  induction sweeps generalizing walk last with
  | zero =>
    cases List.eq_nil_of_length_eq_zero (Nat.le_zero.mp short)
    cases walks
    simp only [labelsFrom, Function.iterate_zero, id_eq, Function.update_self, total_nil,
      WithTop.coe_zero, le_refl]
  | succ sweeps ih =>
    rw [Function.iterate_succ_apply']
    rcases List.eq_nil_or_concat walk with rfl | ⟨front, arc, rfl⟩
    · exact (fold_dist_le network _ _ last).trans (ih walks (Nat.zero_le _))
    · obtain ⟨middle, left, member, here, there⟩ := isWalk_append.mp (List.concat_eq_append ▸ walks)
      cases here
      cases there
      have shorter : front.length ≤ sweeps := by
        simp only [List.length_concat] at short
        omega
      rw [List.concat_eq_append, total_append, total_cons, total_nil, add_zero, WithTop.coe_add]
      exact (fold_dist_target_le member _).trans (add_le_add_left (ih left shorter) _)

theorem traces_iterate (network : Network V E G) (start : V) (sweeps : Nat) :
    ∃ via, network.Traces start via (network.sweep^[sweeps] (labelsFrom start)) := by
  induction sweeps with
  | zero => exact ⟨_, traces_start network start⟩
  | succ sweeps ih =>
    obtain ⟨_, traces⟩ := ih
    rw [Function.iterate_succ_apply']
    exact traces.fold fun _ member => member

/-- Without a negative cycle no arc is left to relax after enough sweeps. -/
theorem not_relaxable_of_cycles {vertices : Finset V} (startIn : start ∈ vertices)
    (inside : ∀ arc ∈ network.arcs, network.target arc ∈ vertices)
    (enough : vertices.card ≤ sweeps + 1)
    (positive : ∀ cycle, network.IsCycle cycle → network.ReachesCycle start cycle →
      0 ≤ network.total cycle)
    (member : arc ∈ network.arcs) :
    ¬network.Relaxable (network.sweep^[sweeps] (labelsFrom start)) arc := by
  obtain ⟨_, traces⟩ := traces_iterate network start sweeps
  intro relaxable
  obtain ⟨near, source⟩ := relaxable.source_finite
  obtain ⟨walk, walks, weighs⟩ := traces.walked _ near source
  obtain ⟨shorter, leads, lighter, distinct⟩ := (walks.snoc member rfl).exists_lighter positive
  have fits : shorter.length ≤ sweeps := by
    have short := leads.length_lt_card startIn inside distinct
    omega
  have labelled := (iterate_dist_le leads fits).trans (WithTop.coe_le_coe.mpr lighter)
  rw [total_append, weighs, total_cons, total_nil, add_zero, WithTop.coe_add, ← source] at labelled
  exact absurd relaxable (not_lt.mpr labelled)

theorem exists_relaxable_of_cycle {cycle : List E} (cyclic : network.IsCycle cycle)
    (reached : network.ReachesCycle start cycle) (negative : network.total cycle < 0)
    (sweeps : Nat) : ∃ arc ∈ network.arcs,
      network.Relaxable (network.sweep^[sweeps] (labelsFrom start)) arc := by
  by_contra settled
  have bounded : ∀ arc ∈ network.arcs,
      (network.sweep^[sweeps] (labelsFrom start)).dist (network.target arc) ≤
        (network.sweep^[sweeps] (labelsFrom start)).dist (network.source arc) +
          network.weight arc :=
    fun arc member => not_lt.mp fun relaxable => settled ⟨arc, member, relaxable⟩
  -- The bounds carry a finite label from the start to the cycle and around it.
  obtain ⟨vertex, closed⟩ := cyclic.closed
  obtain ⟨arc, member, walk, walks⟩ := reached
  obtain ⟨before, after, rfl⟩ := List.append_of_mem member
  obtain ⟨_, _, inside, here, onward⟩ := isWalk_append.mp closed
  have way : network.IsWalk start vertex (walk ++ arc :: after) :=
    isWalk_append.mpr ⟨_, walks, inside, rfl, onward⟩
  have started := iterate_dist_le (network.isWalk_nil start) (Nat.zero_le sweeps)
  have carried := way.le_dist fun other taken => bounded other (way.mem_arcs other taken)
  have around := closed.le_dist fun other taken => bounded other (closed.mem_arcs other taken)
  obtain ⟨near, source⟩ := WithTop.ne_top_iff_exists.mp
    (ne_top_of_le_ne_top WithTop.coe_ne_top started)
  rw [← source, ← WithTop.coe_add] at carried
  obtain ⟨far, target⟩ := WithTop.ne_top_iff_exists.mp
    (ne_top_of_le_ne_top WithTop.coe_ne_top carried)
  rw [← target] at around
  exact absurd (WithTop.coe_le_coe.mp around) (not_le.mpr (add_lt_iff_neg_left.mpr negative))

theorem dist_ne_top_of_reaches {vertices : Finset V} (startIn : start ∈ vertices)
    (inside : ∀ arc ∈ network.arcs, network.target arc ∈ vertices)
    (enough : vertices.card ≤ sweeps + 1) (reached : network.Reaches start vertex) :
    (network.sweep^[sweeps] (labelsFrom start)).dist vertex ≠ ⊤ := by
  obtain ⟨walk, walks⟩ := reached
  obtain ⟨shorter, leads, _, distinct⟩ :=
    walks.exists_simple (fun _ => True) (fun _ _ _ _ _ _ => trivial) trivial
  have short := leads.length_lt_card startIn inside distinct
  exact ne_top_of_le_ne_top WithTop.coe_ne_top (iterate_dist_le leads (by omega))

/-- If a negative cycle leads back to the start in as many sweeps, every finite label was
improved, from another finite one. -/
theorem Traces.improved {cycle : List E}
    (traces : network.Traces start via (network.sweep^[sweeps] (labelsFrom start)))
    (closed : network.IsWalk start start cycle) (negative : network.total cycle < 0)
    (short : cycle.length ≤ sweeps) :
    ∀ vertex, (network.sweep^[sweeps] (labelsFrom start)).dist vertex ≠ ⊤ →
      ∃ previous, (network.sweep^[sweeps] (labelsFrom start)).predecessor vertex = some previous ∧
        (network.sweep^[sweeps] (labelsFrom start)).dist previous ≠ ⊤ := by
  intro vertex finite
  cases came : via vertex with
  | none =>
    rcases traces.untouched vertex came with ⟨rfl, zero⟩ | infinite
    · have improved := iterate_dist_le closed short
      rw [zero] at improved
      exact absurd (WithTop.coe_le_coe.mp improved) (not_le.mpr negative)
    · exact absurd infinite finite
  | some arc =>
    refine ⟨network.source arc, by rw [traces.predecessor, came]; rfl, ?_⟩
    have fits := traces.fits vertex arc came
    exact (WithTop.add_ne_top.mp (ne_top_of_le_ne_top finite fits)).1

end Network
