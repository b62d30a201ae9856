import Mathlib.Data.List.Infix

/-!
# Hash chains

A hash chain gives each block the digest of the digest before it and the block. Without collisions
its last digest determines the whole chain, so a chain that ends in a digest of another one is the
beginning of that one. Nothing in a chain says how long it was: every beginning is a chain.
-/

namespace HashChain

variable {δ β : Type*}

section Definitions

variable (link : δ → β → δ)

/-- The digest at the end of a chain that starts after a digest.
-/
def tip : δ → List β → δ := List.foldl link

/-- The digests of the blocks of a chain that starts after a digest. -/
def digests : δ → List β → List δ
  | _, [] => []
  | prior, block :: rest => link prior block :: digests (link prior block) rest

/-- What is linked along a chain: each block with the digest before it. -/
def inputs : δ → List β → List (δ × β)
  | _, [] => []
  | prior, block :: rest => (prior, block) :: inputs (link prior block) rest

/-- Two chains collide: different digests and blocks link to one digest, or a link is the start. -/
def Collide (genesis : δ) (first second : List β) : Prop :=
  (∃ one ∈ inputs link genesis first, ∃ other ∈ inputs link genesis second,
    one ≠ other ∧ link one.1 one.2 = link other.1 other.2) ∨
  ∃ one ∈ inputs link genesis first ++ inputs link genesis second, link one.1 one.2 = genesis

/-- No two chains that start at `genesis` collide: links of well-formed digests are well-formed,
have one origin, and never lead back to the start. -/
structure CollisionFree (wellFormed : δ → Prop) (genesis : δ) : Prop where
  start : wellFormed genesis
  /-- A link of a well-formed digest is well-formed. -/
  closed : ∀ prior block, wellFormed prior → wellFormed (link prior block)
  /-- Equal links of well-formed digests have the same digest and block before them. -/
  origin : ∀ prior other block another, wellFormed prior → wellFormed other →
    link prior block = link other another → prior = other ∧ block = another
  /-- No link is the start. -/
  fresh : ∀ prior block, link prior block ≠ genesis

end Definitions

variable {link : δ → β → δ} {wellFormed : δ → Prop} {genesis : δ}

@[simp] theorem tip_nil (prior : δ) : tip link prior [] = prior := rfl

@[simp] theorem tip_cons (prior : δ) (block : β) (rest : List β) :
    tip link prior (block :: rest) = tip link (link prior block) rest := rfl

/-- The tip moves on by the last block. -/
@[simp] theorem tip_concat (prior : δ) (blocks : List β) (last : β) :
    tip link prior (blocks ++ [last]) = link (tip link prior blocks) last := by
  simp [tip, List.foldl_append]

theorem mem_digests {prior digest : δ} {blocks : List β} :
    digest ∈ digests link prior blocks ↔
      ∃ kept, kept ≠ [] ∧ kept <+: blocks ∧ tip link prior kept = digest := by
  induction blocks generalizing prior with
  | nil => simp [digests]
  | cons block rest ih =>
    simp only [digests, List.mem_cons, ih]
    constructor
    · rintro (rfl | ⟨kept, -, begins, ends⟩)
      · exact ⟨[block], by simp, by simp, rfl⟩
      · exact ⟨block :: kept, by simp, by simpa using begins, ends⟩
    · rintro ⟨kept, nonempty, begins, ends⟩
      cases kept with
      | nil => exact absurd rfl nonempty
      | cons head tail =>
        obtain ⟨rfl, shorter⟩ := List.cons_prefix_cons.mp begins
        cases tail with
        | nil => exact Or.inl ends.symm
        | cons next more => exact Or.inr ⟨next :: more, by simp, shorter, ends⟩

theorem tip_mem_digests {prior : δ} {blocks : List β} (nonempty : blocks ≠ []) :
    tip link prior blocks ∈ digests link prior blocks :=
  mem_digests.mpr ⟨blocks, nonempty, List.prefix_rfl, rfl⟩

theorem digests_concat (prior : δ) (blocks : List β) (last : β) :
    digests link prior (blocks ++ [last]) =
      digests link prior blocks ++ [link (tip link prior blocks) last] := by
  induction blocks generalizing prior with
  | nil => rfl
  | cons block rest ih => simp [digests, ih]

theorem inputs_concat (prior : δ) (blocks : List β) (last : β) :
    inputs link prior (blocks ++ [last]) =
      inputs link prior blocks ++ [(tip link prior blocks, last)] := by
  induction blocks generalizing prior with
  | nil => rfl
  | cons block rest ih => simp [inputs, ih]

theorem tip_binding {first second : List β}
    (same : tip link genesis first = tip link genesis second) :
    first = second ∨ Collide link genesis first second := by
  induction first using List.reverseRecOn generalizing second with
  | nil =>
    cases second using List.reverseRecOn with
    | nil => exact .inl rfl
    | append_singleton blocks last =>
      rw [tip_nil, tip_concat] at same
      refine .inr (.inr ⟨(tip link genesis blocks, last), ?_, same.symm⟩)
      rw [inputs_concat]
      simp
  | append_singleton blocks last ih =>
    cases second using List.reverseRecOn with
    | nil =>
      rw [tip_nil, tip_concat] at same
      refine .inr (.inr ⟨(tip link genesis blocks, last), ?_, same⟩)
      rw [inputs_concat]
      simp
    | append_singleton others another =>
      rw [tip_concat, tip_concat] at same
      by_cases equal : (tip link genesis blocks, last) = (tip link genesis others, another)
      · obtain ⟨tips, rfl⟩ := Prod.mk.inj equal
        obtain rfl | collide := ih tips
        · exact .inl rfl
        · refine .inr ?_
          unfold Collide at collide ⊢
          rw [inputs_concat, inputs_concat]
          refine collide.imp ?_ ?_
          · rintro ⟨one, oneIn, other, otherIn, differ⟩
            exact ⟨one, List.mem_append_left _ oneIn, other, List.mem_append_left _ otherIn, differ⟩
          · rintro ⟨one, oneIn, start⟩
            refine ⟨one, ?_, start⟩
            simp only [List.mem_append] at oneIn ⊢
            exact oneIn.imp .inl .inl
      · refine .inr (.inl ⟨(tip link genesis blocks, last), ?_, (tip link genesis others, another),
          ?_, equal, same⟩)
        · rw [inputs_concat]
          simp
        · rw [inputs_concat]
          simp

/-- What is left of a list, and still begins it with all the marks that it has there, begins what
is left. -/
theorem prefix_of_sublist {α γ : Type*} {mark : α → γ} {kept left whole : List α}
    (some_left : left.Sublist whole) (begins : kept <+: whole) (apart : (whole.map mark).Nodup)
    (marked : ∀ item ∈ kept, ∃ found ∈ left, mark item = mark found) : kept <+: left := by
  induction some_left generalizing kept with
  | slnil => exact begins
  | cons head shorter ih =>
    cases kept with
    | nil => exact List.nil_prefix
    | cons first rest =>
      -- the first mark would have to come again after the head it belongs to
      obtain ⟨rfl, -⟩ := List.cons_prefix_cons.mp begins
      obtain ⟨found, member, same⟩ := marked first List.mem_cons_self
      apply absurd _ (List.nodup_cons.mp apart).1
      rw [same]
      exact List.mem_map_of_mem (shorter.mem member)
  | cons_cons head shorter ih =>
    cases kept with
    | nil => exact List.nil_prefix
    | cons first rest =>
      obtain ⟨rfl, tail⟩ := List.cons_prefix_cons.mp begins
      have distinct := List.nodup_cons.mp apart
      apply List.cons_prefix_cons.mpr ⟨rfl, _⟩
      apply ih tail distinct.2
      intro item member
      obtain ⟨found, place, same⟩ := marked item (List.mem_cons_of_mem _ member)
      refine ⟨found, (List.mem_cons.mp place).resolve_left ?_, same⟩
      rintro rfl
      exact distinct.1 (same ▸ List.mem_map_of_mem (tail.mem member))

namespace CollisionFree

variable (free : CollisionFree link wellFormed genesis)
include free

theorem tip_wellFormed (blocks : List β) : wellFormed (tip link genesis blocks) := by
  induction blocks using List.reverseRecOn with
  | nil => exact free.start
  | append_singleton blocks last ih =>
    rw [tip_concat]
    exact free.closed _ _ ih

theorem tip_injective : Function.Injective (tip link genesis) := by
  intro first
  induction first using List.reverseRecOn with
  | nil =>
    intro second same
    cases second using List.reverseRecOn with
    | nil => rfl
    | append_singleton blocks last =>
      rw [tip_concat] at same
      exact absurd same.symm (free.fresh _ _)
  | append_singleton blocks last ih =>
    intro second same
    cases second using List.reverseRecOn with
    | nil =>
      rw [tip_concat] at same
      exact absurd same (free.fresh _ _)
    | append_singleton others another =>
      rw [tip_concat, tip_concat] at same
      have parts := free.origin _ _ _ _ (free.tip_wellFormed _) (free.tip_wellFormed _) same
      rw [ih parts.1, parts.2]

theorem prefix_of_tip_mem {forged genuine : List β}
    (reused : tip link genesis forged ∈ digests link genesis genuine) : forged <+: genuine := by
  obtain ⟨kept, -, begins, ends⟩ := mem_digests.mp reused
  rwa [← free.tip_injective ends]

theorem prefix_of_digests_subset {forged genuine : List β}
    (reused : digests link genesis forged ⊆ digests link genesis genuine) :
    forged <+: genuine := by
  by_cases empty : forged = []
  · rw [empty]
    exact List.nil_prefix
  · exact free.prefix_of_tip_mem (reused (tip_mem_digests empty))

theorem digests_nodup (blocks : List β) : (digests link genesis blocks).Nodup := by
  induction blocks using List.reverseRecOn with
  | nil => exact List.nodup_nil
  | append_singleton blocks last ih =>
    rw [digests_concat]
    apply (List.perm_append_singleton _ _).nodup_iff.mpr
    refine List.nodup_cons.mpr ⟨?_, ih⟩
    intro repeated
    obtain ⟨kept, -, begins, ends⟩ := mem_digests.mp repeated
    have whole := free.tip_injective (ends.trans (tip_concat _ _ _).symm)
    have short := begins.length_le
    rw [whole, List.length_append] at short
    exact absurd short (by simp)

end CollisionFree

end HashChain
