import Mathlib.Data.List.Basic
import Mathlib.Data.Nat.Bitwise

/-!
# Merkle trees

A Merkle tree combines neighboring digests level by level until one is left; a digest without a
neighbor is combined with itself. Two lists of one length with the same root are the same, or two
different pairs of digests combine to the same one. A path of siblings leads from a digest to the
root, and another digest that a path leads to the root from its place shows such pairs as well.
-/

namespace MerkleTree

variable {δ : Type*}

/-- The neighbors that one level combines.
-/
def pairs : List δ → List (δ × δ)
  | [] => []
  | [last] => [(last, last)]
  | left :: right :: rest => (left, right) :: pairs rest

section Definitions

variable (combine : δ → δ → δ)

/-- The next level. -/
def level (leaves : List δ) : List δ := (pairs leaves).map fun pair => combine pair.1 pair.2

/-- The digest that is left after all levels, as far as the fuel goes. -/
def root : Nat → List δ → Option δ
  | _, [] => none
  | _, [digest] => some digest
  | 0, _ :: _ :: _ => none
  | fuel + 1, leaves => root fuel (level combine leaves)

/-- The siblings on the way from an index to the root, where there is one, and whether they are to
the left. -/
def path : Nat → List δ → Nat → List (δ × Bool)
  | 0, _, _ => []
  | fuel + 1, leaves, index =>
    if leaves.length ≤ 1 then []
    else
      let next := path fuel (level combine leaves) (index / 2)
      match leaves[index ^^^ 1]? with
      | some sibling => (sibling, decide (index ^^^ 1 < index)) :: next
      | none => next

/-- The digest that siblings lead to from a digest at an index of so many leaves; a digest without a
sibling is combined with itself. A sibling on the wrong side, or one too many or too few, leads
nowhere. -/
def climb : Nat → Nat → Nat → δ → List (δ × Bool) → Option δ
  | 0, count, _, digest, siblings => if count ≤ 1 ∧ siblings.isEmpty then some digest else none
  | fuel + 1, count, index, digest, siblings =>
    if count ≤ 1 then if siblings.isEmpty then some digest else none
    else if index ^^^ 1 < count then
      match siblings with
      | [] => none
      | (sibling, left) :: rest =>
        if left = decide (index ^^^ 1 < index) then
          climb fuel ((count + 1) / 2) (index / 2)
            (if left then combine sibling digest else combine digest sibling) rest
        else none
    else climb fuel ((count + 1) / 2) (index / 2) (combine digest digest) siblings

/-- The pairs that all levels combine. -/
def treePairs : Nat → List δ → List (δ × δ)
  | 0, _ => []
  | fuel + 1, leaves => pairs leaves ++ treePairs fuel (level combine leaves)

/-- The pairs that a climb combines. -/
def climbPairs : Nat → Nat → Nat → δ → List (δ × Bool) → List (δ × δ)
  | 0, _, _, _, _ => []
  | fuel + 1, count, index, digest, siblings =>
    if count ≤ 1 then []
    else if index ^^^ 1 < count then
      match siblings with
      | [] => []
      | (sibling, left) :: rest =>
        let pair := if left then (sibling, digest) else (digest, sibling)
        pair :: climbPairs fuel ((count + 1) / 2) (index / 2) (combine pair.1 pair.2) rest
    else (digest, digest) ::
      climbPairs fuel ((count + 1) / 2) (index / 2) (combine digest digest) siblings

/-- Of two lists of pairs, one pair of each combines to the same digest, but they differ. -/
def Collide (first second : List (δ × δ)) : Prop :=
  ∃ one ∈ first, ∃ other ∈ second, one ≠ other ∧ combine one.1 one.2 = combine other.1 other.2

end Definitions

variable {combine : δ → δ → δ} {fuel index : Nat} {leaves others : List δ} {digest top : δ}
  {siblings : List (δ × Bool)}

theorem length_pairs (leaves : List δ) : (pairs leaves).length = (leaves.length + 1) / 2 := by
  induction leaves using pairs.induct with
  | case1 => simp [pairs]
  | case2 last => simp [pairs]
  | case3 left right rest ih =>
    rw [pairs, List.length_cons, ih]
    simp only [List.length_cons]
    omega

theorem length_level (leaves : List δ) :
    (level combine leaves).length = (leaves.length + 1) / 2 := by
  rw [level, List.length_map, length_pairs]

/-- Each leaf pairs with the next, the last with itself. -/
theorem getElem?_pairs (leaves : List δ) (index : Nat) : (pairs leaves)[index]? =
    (leaves[2 * index]?).map fun left => (left, (leaves[2 * index + 1]?).getD left) := by
  induction leaves using pairs.induct generalizing index with
  | case1 => rfl
  | case2 last =>
    cases index with
    | zero => rfl
    | succ index => simp [pairs]
  | case3 left right rest ih =>
    cases index with
    | zero => rfl
    | succ index =>
      rw [pairs, List.getElem?_cons_succ, ih]
      rfl

theorem pairs_inj (length : leaves.length = others.length) (same : pairs leaves = pairs others) :
    leaves = others := by
  refine List.ext_getElem? fun index => ?_
  by_cases inside : index < leaves.length
  · have halves := congrArg (fun list => list[index / 2]?) same
    simp only [getElem?_pairs] at halves
    have first : 2 * (index / 2) < leaves.length := by omega
    have first_ : 2 * (index / 2) < others.length := by omega
    rw [List.getElem?_eq_getElem first, List.getElem?_eq_getElem first_] at halves
    simp only [Option.map_some, Option.some.injEq, Prod.mk.injEq] at halves
    obtain even | odd : index = 2 * (index / 2) ∨ index = 2 * (index / 2) + 1 := by omega
    · rw [even, List.getElem?_eq_getElem first, List.getElem?_eq_getElem first_, halves.1]
    · have second := halves.2
      rw [odd] at inside
      have inside_ : 2 * (index / 2) + 1 < others.length := by omega
      rw [List.getElem?_eq_getElem inside, List.getElem?_eq_getElem inside_] at second
      rw [odd, List.getElem?_eq_getElem inside, List.getElem?_eq_getElem inside_]
      exact congrArg some second
  · rw [List.getElem?_eq_none (not_lt.mp inside), List.getElem?_eq_none (by omega)]

theorem map_combine {first second : List (δ × δ)}
    (same : first.map (fun pair => combine pair.1 pair.2) =
      second.map fun pair => combine pair.1 pair.2) :
    first = second ∨ Collide combine first second := by
  induction first generalizing second with
  | nil =>
    cases second with
    | nil => exact .inl rfl
    | cons other rest => cases same
  | cons one rest ih =>
    cases second with
    | nil => cases same
    | cons other others =>
      obtain ⟨here, later⟩ := List.cons.inj same
      by_cases equal : one = other
      · refine (ih later).imp (fun rests => by rw [equal, rests]) ?_
        rintro ⟨left, leftIn, right, rightIn, differ, combined⟩
        exact ⟨left, List.mem_cons_of_mem one leftIn, right, List.mem_cons_of_mem other rightIn,
          differ, combined⟩
      · exact .inr ⟨one, List.mem_cons_self, other, List.mem_cons_self, equal, here⟩

theorem treePairs_all {property : δ → Prop} (combined : ∀ left right, property (combine left right))
    (all : ∀ leaf ∈ leaves, property leaf) :
    ∀ pair ∈ treePairs combine fuel leaves, property pair.1 ∧ property pair.2 := by
  induction fuel generalizing leaves with
  | zero => nofun
  | succ fuel ih =>
    intro pair member
    obtain here | above := List.mem_append.mp member
    · obtain ⟨index, inside, same⟩ := List.getElem_of_mem here
      have found : (pairs leaves)[index]? = some pair :=
        List.getElem?_eq_some_iff.mpr ⟨inside, same⟩
      rw [getElem?_pairs, Option.map_eq_some_iff] at found
      obtain ⟨left, there, rfl⟩ := found
      refine ⟨all left (List.mem_of_getElem? there), ?_⟩
      cases next : leaves[2 * index + 1]? with
      | some right => exact all right (List.mem_of_getElem? next)
      | none => exact all left (List.mem_of_getElem? there)
    · refine ih (fun leaf inside => ?_) pair above
      obtain ⟨below, -, rfl⟩ := List.mem_map.mp inside
      exact combined below.1 below.2

/-- What combined digests have, and the first digest and the siblings have, all pairs of a climb
have. -/
theorem climbPairs_all {property : δ → Prop} {count : Nat}
    (combined : ∀ left right, property (combine left right)) (own : property digest)
    (all : ∀ sibling ∈ siblings, property sibling.1) :
    ∀ pair ∈ climbPairs combine fuel count index digest siblings,
      property pair.1 ∧ property pair.2 := by
  induction fuel generalizing count index digest siblings with
  | zero => nofun
  | succ fuel ih =>
    intro pair member
    unfold climbPairs at member
    split at member
    · cases member
    · split at member
      · match siblings with
        | [] => cases member
        | (sibling, left) :: rest =>
          obtain ⟨first, later⟩ := List.forall_mem_cons.mp all
          obtain rfl | above := List.mem_cons.mp member
          · cases left
            · exact ⟨own, first⟩
            · exact ⟨first, own⟩
          · exact ih (combined _ _) later pair above
      · obtain rfl | above := List.mem_cons.mp member
        · exact ⟨own, own⟩
        · exact ih (combined _ _) all pair above

theorem root_total (nonempty : leaves ≠ []) (enough : leaves.length ≤ fuel + 1) :
    ∃ digest, root combine fuel leaves = some digest := by
  induction fuel generalizing leaves with
  | zero =>
    match leaves with
    | [] => exact absurd rfl nonempty
    | [digest] => exact ⟨digest, rfl⟩
    | _ :: _ :: _ => simp at enough
  | succ fuel ih =>
    match leaves with
    | [] => exact absurd rfl nonempty
    | [digest] => exact ⟨digest, rfl⟩
    | left :: right :: rest =>
      refine @ih (level combine (left :: right :: rest)) ?_ ?_
      · exact List.cons_ne_nil _ _
      · rw [length_level]
        simp only [List.length_cons] at enough ⊢
        omega

theorem root_level (more : 1 < leaves.length) :
    root combine (fuel + 1) leaves = root combine fuel (level combine leaves) := by
  match leaves with
  | [] => cases more
  | [digest] => exact absurd more (Nat.lt_irrefl 1)
  | left :: right :: rest => rfl

theorem root_binding (length : leaves.length = others.length)
    (first : root combine fuel leaves = some digest)
    (second : root combine fuel others = some digest) :
    leaves = others ∨
      Collide combine (treePairs combine fuel leaves) (treePairs combine fuel others) := by
  induction fuel generalizing leaves others with
  | zero =>
    match leaves, others with
    | [one], [other] =>
      cases first
      cases second
      exact .inl rfl
    | [], _ => cases first
    | _ :: _ :: _, _ => cases first
    | [_], [] => cases second
    | [_], _ :: _ :: _ => cases second
  | succ fuel ih =>
    by_cases more : 1 < leaves.length
    · rw [root_level more] at first
      rw [root_level (by omega)] at second
      obtain same | above := ih (by rw [length_level, length_level, length]) first second
      · obtain equal | here := map_combine same
        · exact .inl (pairs_inj length equal)
        · obtain ⟨one, oneIn, other, otherIn, differ⟩ := here
          exact .inr ⟨one, List.mem_append_left _ oneIn, other, List.mem_append_left _ otherIn,
            differ⟩
      · obtain ⟨one, oneIn, other, otherIn, differ⟩ := above
        exact .inr ⟨one, List.mem_append_right _ oneIn, other, List.mem_append_right _ otherIn,
          differ⟩
    · match leaves, others with
      | [one], [other] =>
        cases first
        cases second
        exact .inl rfl
      | [], _ => cases first
      | _ :: _ :: _, _ => simp at more
      | [_], [] => cases length
      | [_], _ :: _ :: _ => simp at length

/-! ## Paths to the root -/

theorem sibling (index : Nat) : (index % 2 = 0 ∧ index ^^^ 1 = index + 1) ∨
    (index % 2 = 1 ∧ (index ^^^ 1) + 1 = index) := by
  have half : (index ^^^ 1) / 2 = index / 2 := by
    rw [Nat.xor_div_two]
    simp
  have parity : (index ^^^ 1) % 2 = (index + 1) % 2 := Nat.xor_mod_two_eq
  omega

/-- What a level has at the half of an index: the digest there combined with its sibling on the
right side, or with itself where it has none. -/
theorem getElem?_level (there : leaves[index]? = some digest) :
    (level combine leaves)[index / 2]? = some (match leaves[index ^^^ 1]? with
      | some other => if index ^^^ 1 < index then combine other digest else combine digest other
      | none => combine digest digest) := by
  rw [level, List.getElem?_map, getElem?_pairs]
  obtain ⟨even, next⟩ | ⟨odd, next⟩ := sibling index
  · have here : 2 * (index / 2) = index := by omega
    rw [here, there, next]
    cases leaves[index + 1]? with
    | some other => simp
    | none => rfl
  · have here : 2 * (index / 2) = index ^^^ 1 := by omega
    have after : (index ^^^ 1) + 1 = index := next
    obtain ⟨inside, -⟩ := List.getElem?_eq_some_iff.mp there
    have some_ : leaves[index ^^^ 1]? = some leaves[index ^^^ 1] :=
      List.getElem?_eq_getElem (by omega)
    rw [here, after, there, some_]
    simp [show index ^^^ 1 < index by omega]

theorem climb_path (there : leaves[index]? = some digest) (enough : leaves.length ≤ fuel + 1) :
    climb combine fuel leaves.length index digest (path combine fuel leaves index) =
      root combine fuel leaves := by
  induction fuel generalizing leaves index digest with
  | zero =>
    obtain ⟨inside, same⟩ := List.getElem?_eq_some_iff.mp there
    match leaves with
    | [] => cases inside
    | [only] =>
      obtain rfl : index = 0 := by simpa using inside
      rw [← same]
      rfl
    | _ :: _ :: _ => simp at enough
  | succ fuel ih =>
    obtain ⟨inside, same⟩ := List.getElem?_eq_some_iff.mp there
    unfold climb path
    by_cases more : leaves.length ≤ 1
    · match leaves with
      | [] => cases inside
      | [only] =>
        obtain rfl : index = 0 := by simpa using inside
        rw [← same]
        rfl
      | _ :: _ :: _ => simp at more
    · have above := @getElem?_level _ combine index leaves digest there
      rw [if_neg more, if_neg more, root_level (by omega)]
      have half : (leaves.length + 1) / 2 = (level combine leaves).length := (length_level _).symm
      cases found : leaves[index ^^^ 1]? with
      | some other =>
        rw [found] at above
        simp only [if_pos (List.getElem?_eq_some_iff.mp found).1, ↓reduceIte, half,
          decide_eq_true_eq]
        exact ih above (by rw [length_level]; omega)
      | none =>
        rw [found] at above
        simp only [if_neg (not_lt.mpr (List.getElem?_eq_none_iff.mp found)), half]
        exact ih above (by rw [length_level]; omega)

/-- A pair that combines to what the next level has at an index is the pair there, or they collide;
and so is one of the pairs above. -/
theorem binding_level (pair : δ × δ) (later : List (δ × δ))
    (own : (pairs leaves)[index / 2]? = some pair → leaves[index]? = some digest)
    (above : (level combine leaves)[index / 2]? = some (combine pair.1 pair.2) ∨
      Collide combine later (treePairs combine fuel (level combine leaves))) :
    leaves[index]? = some digest ∨
      Collide combine (pair :: later) (treePairs combine (fuel + 1) leaves) := by
  obtain same | ⟨one, oneIn, other, otherIn, differ⟩ := above
  · rw [level, List.getElem?_map, Option.map_eq_some_iff] at same
    obtain ⟨other, found, combined⟩ := same
    by_cases equal : pair = other
    · exact .inl (own (equal ▸ found))
    · exact .inr ⟨pair, List.mem_cons_self, other,
        List.mem_append_left _ (List.mem_of_getElem? found), equal, combined.symm⟩
  · exact .inr ⟨one, List.mem_cons_of_mem pair oneIn, other, List.mem_append_right _ otherIn,
      differ⟩

theorem climb_only (climbed : climb combine fuel 1 0 digest siblings = some top) :
    some digest = some top := by
  cases fuel
  all_goals
    unfold climb at climbed
    simp only [Nat.le_refl, true_and, ↓reduceIte] at climbed
    split at climbed
    · exact climbed
    · cases climbed

/-- A digest that a path leads to the root from an index is the one there, or two pairs collide. -/
theorem climb_binding (inside : index < leaves.length)
    (climbed : climb combine fuel leaves.length index digest siblings = some top)
    (rooted : root combine fuel leaves = some top) :
    leaves[index]? = some digest ∨
      Collide combine (climbPairs combine fuel leaves.length index digest siblings)
        (treePairs combine fuel leaves) := by
  induction fuel generalizing leaves index digest siblings with
  | zero =>
    match leaves with
    | [] => cases inside
    | [only] =>
      obtain rfl : index = 0 := by simpa using inside
      exact .inl (rooted.trans (climb_only climbed).symm)
    | _ :: _ :: _ => cases rooted
  | succ fuel ih =>
    by_cases more : leaves.length ≤ 1
    · match leaves with
      | [] => cases inside
      | [only] =>
        obtain rfl : index = 0 := by simpa using inside
        exact .inl (rooted.trans (climb_only climbed).symm)
      | _ :: _ :: _ => simp at more
    · unfold climb at climbed
      rw [if_neg more] at climbed
      rw [root_level (by omega)] at rooted
      have half : (leaves.length + 1) / 2 = (level combine leaves).length := (length_level _).symm
      have within : index / 2 < (level combine leaves).length := by
        rw [length_level]
        omega
      have there : leaves[index]? = some leaves[index] := List.getElem?_eq_getElem inside
      have parity := sibling index
      unfold climbPairs
      rw [if_neg more]
      by_cases beside : index ^^^ 1 < leaves.length
      · rw [if_pos beside] at climbed ⊢
        match siblings with
        | [] => cases climbed
        | (other, left) :: rest =>
          simp only [half] at climbed ⊢
          split at climbed
          case isFalse => cases climbed
          next side =>
            refine binding_level (if left then (other, digest) else (digest, other)) _
              (fun found => ?_) ?_
            · rw [getElem?_pairs] at found
              obtain ⟨even, next⟩ | ⟨odd, next⟩ := parity
              · have here : 2 * (index / 2) = index := by omega
                have right : left = false := by
                  rw [side]
                  exact decide_eq_false (by omega)
                rw [here, there, right] at found
                rw [there]
                exact congrArg some (congrArg Prod.fst (Option.some.inj found))
              · have here : 2 * (index / 2) + 1 = index := by omega
                have right : left = true := by
                  rw [side]
                  exact decide_eq_true (by omega)
                have before : 2 * (index / 2) < leaves.length := by omega
                rw [here, there, right, List.getElem?_eq_getElem before] at found
                rw [there]
                exact congrArg some (congrArg Prod.snd (Option.some.inj found))
            · cases left <;> exact ih within climbed rooted
      · rw [if_neg beside, half] at climbed
        rw [if_neg beside, half]
        refine binding_level (digest, digest) _ (fun found => ?_) (ih within climbed rooted)
        rw [getElem?_pairs] at found
        have here : 2 * (index / 2) = index := by omega
        rw [here, there] at found
        rw [there]
        exact congrArg some (congrArg Prod.fst (Option.some.inj found))

end MerkleTree
