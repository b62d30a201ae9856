import TradingBot.Cqrs.AuditTrail

/-!
# What the audit trail proves

A trail that calls have made is valid from every number on. Whoever presents other nodes that pass
the check and end in the same hash, or other leaves under the same Merkle root, or another event
with a path to it, presents two different texts with the same digest. Other timestamps are not
found: no hash covers them.
-/

open HashChain Text

namespace TradingBot.Cqrs

namespace AuditTrail

open HashAlgorithm (cumulativeInput genesisText)

variable {algorithm : HashAlgorithm} {trail : AuditTrail} {calls others : List Call}
  {forged : List HashChainNode}

/-- A text of one list and another text of the other have the same digest. -/
def Collision (algorithm : HashAlgorithm) (first second : List (List UInt8)) : Prop :=
  ∃ one ∈ first, ∃ other ∈ second, one ≠ other ∧ algorithm.digest one = algorithm.digest other

/-- The texts that the hashes of a chain are taken of. -/
def chainTexts (chain : List HashChainNode) : List (List UInt8) :=
  genesisText :: chain.map fun node =>
    cumulativeInput node.previousHash node.eventHash node.sequence

/-- The texts that the hashes of pairs are taken of. -/
def pairTexts (pairs : List (String × String)) : List (List UInt8) :=
  pairs.map fun pair => asBytes (pair.1 ++ pair.2)

/-- A digest that collides: the sum of the bytes. -/
def sumAlgorithm : HashAlgorithm where
  digest data := [data.foldl (· + ·) 0]
  hmac key data := [(key ++ data).foldl (· + ·) 0]
  size := 1
  positive := Nat.one_pos
  sized _ := rfl

/-- Calls that append two events. -/
def sampleCalls (first : UInt8) : List Call :=
  [.appendEvent 0 [first] none 10, .appendEvent 1 [3] none 11]

/-! ## Genuine chains -/

theorem previousHash_eq (blocks : List (String × Int)) {place : Nat}
    (inside : place ≤ blocks.length) :
    (if place = 0 then algorithm.genesisHash
      else ((nodesFrom algorithm algorithm.genesisHash blocks)[place - 1]?).elim
        algorithm.genesisHash ChainLink.cumulativeHash) =
      tip algorithm.link algorithm.genesisHash (blocks.take place) := by
  cases place with
  | zero => rfl
  | succ place =>
    have whole : blocks = blocks.take place ++ [blocks[place]] ++ blocks.drop (place + 1) := by
      rw [← List.take_succ_eq_append_getElem (by omega), List.take_append_drop]
    have before :
        (nodesFrom algorithm algorithm.genesisHash (blocks.take place)).length = place := by
      have blocks_ := congrArg List.length
        (@map_block algorithm algorithm.genesisHash (blocks.take place))
      rw [List.length_map, List.length_take] at blocks_
      omega
    rw [if_neg (Nat.succ_ne_zero place), Nat.add_sub_cancel]
    conv_lhs => rw [whole]
    rw [nodesFrom_append, nodesFrom_concat, List.append_assoc, List.getElem?_append_right
      (by omega), before, Nat.sub_self]
    rw [List.take_succ_eq_append_getElem (by omega), tip_concat]
    rfl

/-- Whatever events are appended, with or without keys, and however often the trail is cleared, the
check of the chain from any number on is valid and counts the nodes from the first with at least
that number, or all of them where there is none. -/
theorem verifyChain_run (algorithm : HashAlgorithm) (calls : List Call) (fromSequence : Int) :
    verifyChain algorithm (run algorithm calls).chain fromSequence =
      ⟨true, (run algorithm calls).chain.length -
        startIdx (run algorithm calls).chain fromSequence, none, none⟩ := by
  obtain ⟨nodes, -, -, -⟩ := chained_run algorithm calls
  generalize (run algorithm calls).chain = chain at nodes
  unfold verifyChain
  by_cases empty : chain = []
  · rw [if_pos empty, empty]
    simp
  · rw [if_neg empty]
    generalize place_ : startIdx chain fromSequence = place
    have inside : place ≤ (blocks chain).length := by
      rw [blocks, links, List.length_map, List.length_map, ← place_, startIdx]
      cases found : chain.findIdx? fun node => fromSequence ≤ node.sequence with
      | none => exact Nat.zero_le _
      | some index =>
        obtain ⟨bound, -⟩ := List.findIdx?_eq_some_iff_getElem.mp found
        exact bound.le
    have prior := @previousHash_eq algorithm (blocks chain) place inside
    rw [← nodes, links, List.getElem?_map, Option.elim_map] at prior
    have prior : (if place = 0 then algorithm.genesisHash
        else (chain[place - 1]?).elim algorithm.genesisHash (·.cumulativeHash)) =
      tip algorithm.link algorithm.genesisHash ((blocks chain).take place) := prior
    simp only [prior]
    have back : links (chain.drop place) = nodesFrom algorithm
        (tip algorithm.link algorithm.genesisHash ((blocks chain).take place))
          (blocks (chain.drop place)) := by
      have dropped : blocks (chain.drop place) = (blocks chain).drop place := by
        rw [blocks, links, List.map_drop, List.map_drop, ← links, ← blocks]
      have split_ := @nodesFrom_append algorithm algorithm.genesisHash
        ((blocks chain).take place) ((blocks chain).drop place)
      rw [List.take_append_drop, ← nodes] at split_
      have front : (nodesFrom algorithm algorithm.genesisHash
          ((blocks chain).take place)).length = place := by
        have blocks_ := congrArg List.length
          (@map_block algorithm algorithm.genesisHash ((blocks chain).take place))
        rw [List.length_map, List.length_take] at blocks_
        omega
      rw [dropped, links, List.map_drop, ← links]
      conv_lhs => rw [split_]
      rw [List.drop_append_of_le_length (by omega), List.drop_of_length_le (by omega),
        List.nil_append]
    have valid := (@verifyNodes_isValid algorithm _ 0 _).mpr back
    rw [verifyNodes_count valid, List.length_drop, Nat.zero_add]

/-! ## Forged chains -/

theorem map_inputs (previousHash : String) (blocks : List (String × Int)) :
    (nodesFrom algorithm previousHash blocks).map (fun node => (node.previousHash, block node)) =
      inputs algorithm.link previousHash blocks := by
  induction blocks generalizing previousHash with
  | nil => rfl
  | cons first rest ih =>
    rw [nodesFrom, List.map_cons, ih]
    rfl

theorem last_nodesFrom (previousHash : String) (blocks : List (String × Int)) :
    ((nodesFrom algorithm previousHash blocks).getLast?.map ChainLink.cumulativeHash).getD
      previousHash = tip algorithm.link previousHash blocks := by
  induction blocks using List.reverseRecOn with
  | nil => rfl
  | append_singleton blocks last ih =>
    rw [nodesFrom_concat, List.getLast?_concat, tip_concat]
    rfl

/-- A hash is twice as many characters as its bytes. -/
theorem length_computeHash (data : List UInt8) :
    (algorithm.computeHash data).length = 2 * algorithm.size := by
  have digits : ∀ bytes : List UInt8, (hexEncode bytes).length = 2 * bytes.length := by
    intro bytes
    unfold hexEncode
    rw [String.length_ofList]
    induction bytes with
    | nil => rfl
    | cons byte rest ih =>
      rw [List.flatMap_cons, List.length_append, ih, List.length_cons]
      simp only [byteDigits, List.length_cons, List.length_nil]
      omega
  rw [HashAlgorithm.computeHash, digits, algorithm.sized]

theorem digest_eq {first second : List UInt8}
    (same : algorithm.computeHash first = algorithm.computeHash second) :
    algorithm.digest first = algorithm.digest second := hexEncode_injective same

theorem append_inj {first second front back : String} (length : first.length = second.length)
    (same : first ++ front = second ++ back) : first = second ∧ front = back := by
  have listed := congrArg String.toList same
  rw [String.toList_append, String.toList_append] at listed
  obtain ⟨left, right⟩ := List.append_inj listed (by
    rw [String.length_toList, String.length_toList, length])
  exact ⟨String.toList_inj.mp left, String.toList_inj.mp right⟩

theorem cumulativeInput_inj {prior other hash another : String} {sequence number : Int}
    (priors : prior.length = other.length) (hashes : hash.length = another.length)
    (same : cumulativeInput prior hash sequence = cumulativeInput other another number) :
    prior = other ∧ hash = another ∧ sequence = number := by
  have texts := asBytes_injective same
  rw [String.append_assoc, String.append_assoc] at texts
  obtain ⟨left, rest⟩ := append_inj priors texts
  obtain ⟨middle, right⟩ := append_inj hashes rest
  exact ⟨left, middle, Int.repr_injective right⟩

theorem cumulativeInput_ne_genesis (data : List UInt8) (hash : String) (sequence : Int) :
    cumulativeInput (algorithm.computeHash data) hash sequence ≠ genesisText := by
  intro same
  have texts := congrArg String.toList (asBytes_injective same)
  rw [String.append_assoc, String.toList_append] at texts
  have long := @length_computeHash algorithm data
  have positive := algorithm.positive
  have noLetter : 'G' ∉ (algorithm.computeHash data).toList :=
    notMem_hexEncode _ fun _ => Nat.digitChar_ne 'G' rfl
  cases digits : (algorithm.computeHash data).toList with
  | nil =>
    rw [← String.length_toList, digits] at long
    simp only [List.length_nil] at long
    omega
  | cons first rest =>
    rw [digits, List.cons_append] at texts
    have head : first = 'G' := (List.cons.inj (texts.trans rfl)).1
    exact noLetter (digits ▸ head ▸ List.mem_cons_self)

theorem inputs_hashed {blocks : List (String × Int)} {prior : String}
    {input : String × (String × Int)} (hashed : ∃ data, prior = algorithm.computeHash data)
    (wide : ∀ block ∈ blocks, block.1.length = 2 * algorithm.size)
    (member : input ∈ inputs algorithm.link prior blocks) :
    (∃ data, input.1 = algorithm.computeHash data) ∧
      input.2.1.length = 2 * algorithm.size := by
  induction blocks generalizing prior with
  | nil => cases member
  | cons first rest ih =>
    obtain ⟨here, later⟩ := List.forall_mem_cons.mp wide
    obtain rfl | after := List.mem_cons.mp member
    · exact ⟨hashed, here⟩
    · exact ih ⟨_, rfl⟩ later after

/-- Nodes that pass the check from their start on, whose event hashes have the length of digests,
and that end in the hash of a trail that calls have made, are the nodes of that trail up to their
timestamps, or one text that their hashes are taken of has the digest of another text of the
trail. -/
theorem verifyChain_binds (algorithm : HashAlgorithm) (calls : List Call)
    {forged : List HashChainNode} {fromSequence : Int} (start : startIdx forged fromSequence = 0)
    (valid : (verifyChain algorithm forged fromSequence).isValid = true)
    (last : (forged.getLast?.map (·.cumulativeHash)).getD algorithm.genesisHash =
      (run algorithm calls).lastCumulativeHash)
    (wide : ∀ node ∈ forged, node.eventHash.length = 2 * algorithm.size) :
    links forged = links (run algorithm calls).chain ∨
      Collision algorithm (chainTexts forged) (chainTexts (run algorithm calls).chain) := by
  obtain ⟨nodes, tip_, -, hashed⟩ := chained_run algorithm calls
  generalize (run algorithm calls).chain = chain at nodes tip_ hashed
  have linked : links forged = nodesFrom algorithm algorithm.genesisHash (blocks forged) := by
    unfold verifyChain at valid
    by_cases empty : forged = []
    · rw [empty]
      rfl
    · rw [if_neg empty] at valid
      simp only [start, ↓reduceIte, List.drop_zero] at valid
      exact verifyNodes_isValid.mp valid
  have wideBlocks : ∀ pair ∈ blocks forged, pair.1.length = 2 * algorithm.size := by
    intro pair member
    rw [blocks, links, List.map_map] at member
    obtain ⟨node, listed, rfl⟩ := List.mem_map.mp member
    exact wide node listed
  have hashedBlocks : ∀ pair ∈ blocks chain, pair.1.length = 2 * algorithm.size := by
    intro pair member
    rw [blocks, links, List.map_map] at member
    obtain ⟨node, listed, rfl⟩ := List.mem_map.mp member
    obtain ⟨data, same⟩ := hashed node listed
    show node.eventHash.length = _
    rw [same, length_computeHash]
  have ends := @last_nodesFrom algorithm algorithm.genesisHash (blocks forged)
  rw [← linked, links, List.getLast?_map, Option.map_map] at ends
  have ends := last.symm.trans ends
  rw [tip_] at ends
  -- What is linked is a text of the chain.
  have text : ∀ {list : List HashChainNode},
      links list = nodesFrom algorithm algorithm.genesisHash (blocks list) →
      ∀ input ∈ inputs algorithm.link algorithm.genesisHash (blocks list),
        cumulativeInput input.1 input.2.1 input.2.2 ∈ chainTexts list := by
    intro list same input member
    rw [← map_inputs, ← same, links, List.map_map] at member
    obtain ⟨node, listed, rfl⟩ := List.mem_map.mp member
    exact List.mem_cons_of_mem _ (List.mem_map.mpr ⟨node, listed, rfl⟩)
  obtain same | ⟨one, oneIn, other, otherIn, differ, links⟩ | ⟨one, oneIn, links⟩ :=
    tip_binding ends.symm
  · rw [linked, same, ← nodes]
    exact .inl rfl
  · obtain ⟨⟨left, leftHash⟩, leftWide⟩ := inputs_hashed ⟨_, rfl⟩ wideBlocks oneIn
    obtain ⟨⟨right, rightHash⟩, rightWide⟩ := inputs_hashed ⟨_, rfl⟩ hashedBlocks otherIn
    refine .inr ⟨_, text linked one oneIn, _, text nodes other otherIn, fun equal => ?_,
      digest_eq links⟩
    obtain ⟨priors, hashes, numbers⟩ := cumulativeInput_inj
      (by rw [leftHash, rightHash, length_computeHash, length_computeHash])
      (leftWide.trans rightWide.symm) equal
    exact differ (Prod.ext priors (Prod.ext hashes numbers))
  · obtain here | there := List.mem_append.mp oneIn
    · obtain ⟨⟨data, hash⟩, -⟩ := inputs_hashed ⟨_, rfl⟩ wideBlocks here
      refine .inr ⟨_, text linked one here, genesisText, List.mem_cons_self, ?_, digest_eq links⟩
      rw [hash]
      exact cumulativeInput_ne_genesis data _ _
    · obtain ⟨⟨data, hash⟩, -⟩ := inputs_hashed ⟨_, rfl⟩ hashedBlocks there
      refine .inr ⟨genesisText, List.mem_cons_self, _, text nodes one there, ?_,
        (digest_eq links).symm⟩
      rw [hash]
      exact (cumulativeInput_ne_genesis data _ _).symm

/-- The hashes of bytes with the same digits have the same sum, so the chains of two such events end
in one hash. -/
theorem verifyChain_swapped : Collision sumAlgorithm
    (chainTexts (run sumAlgorithm (sampleCalls 0x12)).chain)
    (chainTexts (run sumAlgorithm (sampleCalls 0x21)).chain) :=
  (@verifyChain_binds sumAlgorithm (sampleCalls 0x21)
    (run sumAlgorithm (sampleCalls 0x12)).chain 0 (by decide +kernel) (by decide +kernel)
      (by decide +kernel) (by decide +kernel)).resolve_left (by decide +kernel)

/-! ## Merkle roots -/

theorem leaves_wide (algorithm : HashAlgorithm) (calls : List Call)
    (sequences : Option (List Int)) : ∀ leaf ∈ (run algorithm calls).leaves sequences,
      leaf.length = 2 * algorithm.size := by
  intro leaf member
  obtain ⟨-, -, index, hashed⟩ := chained_run algorithm calls
  obtain ⟨sequence, -, found⟩ := List.mem_filterMap.mp member
  obtain ⟨node, there, rfl⟩ := Option.map_eq_some_iff.mp found
  rw [index] at there
  obtain ⟨data, same⟩ := hashed node (List.mem_reverse.mp (List.mem_of_find?_eq_some there))
  rw [same, length_computeHash]

theorem collision_of_collide {first second : List (String × String)}
    (firstWide : ∀ pair ∈ first, pair.1.length = 2 * algorithm.size ∧
      pair.2.length = 2 * algorithm.size)
    (secondWide : ∀ pair ∈ second, pair.1.length = 2 * algorithm.size ∧
      pair.2.length = 2 * algorithm.size)
    (collide : MerkleTree.Collide algorithm.combine first second) :
    Collision algorithm (pairTexts first) (pairTexts second) := by
  obtain ⟨one, oneIn, other, otherIn, differ, combined⟩ := collide
  refine ⟨_, List.mem_map_of_mem oneIn, _, List.mem_map_of_mem otherIn, fun same => ?_,
    digest_eq combined⟩
  have lengths := (firstWide one oneIn).1.trans (secondWide other otherIn).1.symm
  obtain ⟨left, right⟩ := append_inj lengths (asBytes_injective same)
  exact differ (Prod.ext left right)

/-- The texts that a Merkle root is taken of. -/
def rootTexts (algorithm : HashAlgorithm) (leaves : List String) : List (List UInt8) :=
  pairTexts (MerkleTree.treePairs algorithm.combine leaves.length leaves)

/-- Two trails that calls have made give the same Merkle root to as many events only if these have
the same hashes in the same order, or some text of the one tree has the digest of another text of
the other. -/
theorem getMerkleRoot_binds (algorithm : HashAlgorithm) {calls others : List Call}
    {sequences numbers : Option (List Int)}
    (count : ((run algorithm calls).leaves sequences).length =
      ((run algorithm others).leaves numbers).length)
    (same : (run algorithm calls).getMerkleRoot algorithm sequences =
      (run algorithm others).getMerkleRoot algorithm numbers) :
    (run algorithm calls).leaves sequences = (run algorithm others).leaves numbers ∨
      Collision algorithm (rootTexts algorithm ((run algorithm calls).leaves sequences))
        (rootTexts algorithm ((run algorithm others).leaves numbers)) := by
  have firstWide := leaves_wide algorithm calls sequences
  have secondWide := leaves_wide algorithm others numbers
  unfold getMerkleRoot at same
  generalize (run algorithm calls).leaves sequences = first at count same firstWide
  generalize (run algorithm others).leaves numbers = second at count same secondWide
  by_cases empty : first = []
  · rw [empty] at count
    rw [empty, List.eq_nil_of_length_eq_zero count.symm]
    exact .inl rfl
  · have some_ : second ≠ [] := by
      rintro rfl
      exact empty (List.eq_nil_of_length_eq_zero count)
    obtain ⟨digest, root⟩ := @MerkleTree.root_total _ algorithm.combine first.length first empty
      (Nat.le_succ _)
    simp only [if_neg empty, if_neg some_, root] at same
    rw [← count] at same
    have wide : ∀ left right, (algorithm.combine left right).length = 2 * algorithm.size :=
      fun left right => length_computeHash _
    refine (MerkleTree.root_binding count root same.symm).imp_right fun collide => ?_
    unfold rootTexts
    rw [← count]
    exact collision_of_collide (MerkleTree.treePairs_all wide firstWide)
      (MerkleTree.treePairs_all wide secondWide) collide

theorem Chained.get (chained : trail.Chained algorithm)
    (distinct : (trail.chain.map (·.sequence)).Nodup) {node : HashChainNode}
    (there : node ∈ trail.chain) : trail.hashIndex.get node.sequence = some node := by
  rw [chained.index]
  cases found : trail.chain.reverse.find? fun other => other.sequence = node.sequence with
  | none =>
    have missed := List.find?_eq_none.mp found node (List.mem_reverse.mpr there)
    simp at missed
  | some other =>
    have member := List.mem_reverse.mp (List.mem_of_find?_eq_some found)
    have same : other.sequence = node.sequence := by simpa using List.find?_some found
    rw [List.inj_on_of_nodup_map distinct member there same]

theorem Chained.leaves (chained : trail.Chained algorithm)
    (rising : (trail.chain.map (·.sequence)).Pairwise (· < ·)) :
    trail.leaves none = trail.chain.map (·.eventHash) := by
  have sorted : (trail.chain.map (·.sequence)).mergeSort
      (fun first second => first ≤ second) = trail.chain.map (·.sequence) :=
    List.mergeSort_of_pairwise (by simpa using rising.imp Int.le_of_lt)
  unfold AuditTrail.leaves
  simp only [Option.getD_none, sorted]
  rw [List.filterMap_map, ← List.filterMap_eq_map]
  refine List.filterMap_congr fun node there => ?_
  show (trail.hashIndex.get node.sequence).map _ = _
  rw [chained.get (rising.imp Int.ne_of_lt) there]
  rfl

/-- Two such events give one Merkle root. -/
theorem getMerkleRoot_swapped : Collision sumAlgorithm
    (rootTexts sumAlgorithm ((run sumAlgorithm (sampleCalls 0x12)).leaves none))
    (rootTexts sumAlgorithm ((run sumAlgorithm (sampleCalls 0x21)).leaves none)) :=
  have first := (chained_run sumAlgorithm (sampleCalls 0x12)).leaves (by decide +kernel)
  have second := (chained_run sumAlgorithm (sampleCalls 0x21)).leaves (by decide +kernel)
  (getMerkleRoot_binds sumAlgorithm (by rw [first, second]; decide +kernel)
    (by unfold getMerkleRoot; rw [first, second]; decide +kernel)).resolve_left
      (by rw [first, second]; decide +kernel)

/-! ## Proofs of events -/

/-- For a trail that calls have made without a repeated number, the proof of a node's number names
the node's hash and place, and its path leads from there to the root of the hashes in the chain. -/
theorem Chained.generateProof (chained : trail.Chained algorithm)
    (distinct : (trail.chain.map (·.sequence)).Nodup) {node : HashChainNode}
    (there : node ∈ trail.chain) :
    ∃ proof, trail.generateProof algorithm node.sequence = some (.ok proof) ∧
      proof.eventHash = node.eventHash ∧ trail.chain[proof.chainPosition]? = some node ∧
      MerkleTree.root algorithm.combine trail.chain.length
        (trail.chain.map (·.eventHash)) = some proof.merkleRoot ∧
      MerkleTree.climb algorithm.combine trail.chain.length trail.chain.length
        proof.chainPosition proof.eventHash proof.proofPath = some proof.merkleRoot := by
  obtain ⟨place, placed⟩ : ∃ place,
      (trail.chain.findIdx? fun other => other.sequence = node.sequence) = some place := by
    cases found : trail.chain.findIdx? fun other => other.sequence = node.sequence with
    | none =>
      have missed := List.findIdx?_eq_none_iff.mp found node there
      simp at missed
    | some place => exact ⟨place, rfl⟩
  obtain ⟨inside, same, -⟩ := List.findIdx?_eq_some_iff_getElem.mp placed
  have here : trail.chain[place]? = some node := by
    rw [List.getElem?_eq_getElem inside, List.inj_on_of_nodup_map distinct (List.getElem_mem inside)
      there (by simpa using same)]
  have leaf : (trail.chain.map (·.eventHash))[place]? = some node.eventHash := by
    rw [List.getElem?_map, here]
    rfl
  have nonempty : trail.chain.map (·.eventHash) ≠ [] := by
    intro empty
    rw [empty] at leaf
    cases leaf
  obtain ⟨top, rooted⟩ := @MerkleTree.root_total _ algorithm.combine trail.chain.length _ nonempty
    (by rw [List.length_map]; omega)
  have climbs := @MerkleTree.climb_path _ algorithm.combine trail.chain.length _ _ _ leaf
    (by rw [List.length_map]; omega)
  rw [List.length_map, rooted] at climbs
  refine ⟨⟨node.sequence, node.eventHash, top, MerkleTree.path algorithm.combine
    trail.chain.length (trail.chain.map (·.eventHash)) place, place⟩, ?_, rfl, here,
    rooted, climbs⟩
  unfold AuditTrail.generateProof
  simp only [chained.get distinct there, placed, List.length_map, rooted, Option.bind_eq_bind,
    Option.bind_some]

/-- In a trail that calls have made without a repeated number, every event has a proof that leads
from its hash to the root of the chain, which is the root of all events where the numbers rise.
Another hash with another path, of texts of the length of digests, that leads there from the same
place shows two different texts with one digest. -/
theorem generateProof_binds (algorithm : HashAlgorithm) {calls : List Call}
    (distinct : ((run algorithm calls).chain.map (·.sequence)).Nodup)
    {node : HashChainNode} (there : node ∈ (run algorithm calls).chain) :
    ∃ proof, (run algorithm calls).generateProof algorithm node.sequence = some (.ok proof) ∧
      proof.eventHash = node.eventHash ∧
      (run algorithm calls).chain[proof.chainPosition]? = some node ∧
      MerkleTree.climb algorithm.combine (run algorithm calls).chain.length
        (run algorithm calls).chain.length proof.chainPosition node.eventHash proof.proofPath =
          some proof.merkleRoot ∧
      (((run algorithm calls).chain.map (·.sequence)).Pairwise (· < ·) →
        (run algorithm calls).getMerkleRoot algorithm none = some proof.merkleRoot) ∧
      ∀ digest siblings, digest.length = 2 * algorithm.size →
        (∀ sibling ∈ siblings, sibling.1.length = 2 * algorithm.size) →
        MerkleTree.climb algorithm.combine (run algorithm calls).chain.length
          (run algorithm calls).chain.length proof.chainPosition digest siblings =
            some proof.merkleRoot →
        digest = node.eventHash ∨
          Collision algorithm (pairTexts (MerkleTree.climbPairs algorithm.combine
            (run algorithm calls).chain.length (run algorithm calls).chain.length
              proof.chainPosition digest siblings))
            (rootTexts algorithm
              ((run algorithm calls).chain.map (·.eventHash))) := by
  have chained := chained_run algorithm calls
  obtain ⟨proof, generated, own, here, rooted, climbs⟩ := chained.generateProof distinct there
  have count : ((run algorithm calls).chain.map (·.eventHash)).length =
      (run algorithm calls).chain.length := List.length_map _
  refine ⟨proof, generated, own, here, own ▸ climbs, fun rising => ?_,
    fun digest siblings ownWide allWide climbed => ?_⟩
  · have nonempty : (run algorithm calls).chain.map (·.eventHash) ≠ [] :=
      List.ne_nil_of_mem (List.mem_map_of_mem there)
    unfold getMerkleRoot
    rw [chained.leaves rising]
    simp only [if_neg nonempty, count, rooted]
  have inside : proof.chainPosition <
      ((run algorithm calls).chain.map (·.eventHash)).length := by
    rw [count]
    exact (List.getElem?_eq_some_iff.mp here).1
  have wide : ∀ left right, (algorithm.combine left right).length = 2 * algorithm.size :=
    fun left right => length_computeHash _
  have leavesWide : ∀ leaf ∈ (run algorithm calls).chain.map (·.eventHash),
      leaf.length = 2 * algorithm.size := by
    intro leaf member
    obtain ⟨other, listed, rfl⟩ := List.mem_map.mp member
    obtain ⟨data, same⟩ := chained.hashed other listed
    rw [same, length_computeHash]
  rw [← count] at climbed rooted
  obtain same | collide := MerkleTree.climb_binding inside climbed rooted
  · rw [List.getElem?_map, here] at same
    exact .inl (Option.some.inj same).symm
  · rw [count] at collide
    have climbWide := @MerkleTree.climbPairs_all _ algorithm.combine
      (run algorithm calls).chain.length proof.chainPosition digest siblings
      (fun text => text.length = 2 * algorithm.size) (run algorithm calls).chain.length
      wide ownWide allWide
    refine .inr (collision_of_collide climbWide ?_ ?_)
    · exact MerkleTree.treePairs_all wide leavesWide
    · rw [count]
      exact collide

/-- The last of two events has a proof of its hash. -/
theorem generateProof_sample : ∃ proof,
    (run sumAlgorithm (sampleCalls 0x12)).generateProof sumAlgorithm 1 = some (.ok proof) ∧
      proof.eventHash = "03" := by
  obtain ⟨proof, made, own, -⟩ := @generateProof_binds sumAlgorithm (sampleCalls 0x12)
    (by decide +kernel) ⟨⟨1, "03", "25", "fb"⟩, 11⟩ (by decide +kernel)
  exact ⟨proof, made, own⟩

/-! ## Single events -/

/-- The texts that the hash of an event is taken of. -/
def eventTexts (algorithm : HashAlgorithm) (eventBytes : List UInt8) :
    Option (List UInt8) → List (List UInt8)
  | some (byte :: key) => [eventBytes, asBytes (algorithm.computeHash eventBytes ++
      algorithm.computeHmac eventBytes (byte :: key))]
  | _ => [eventBytes]

theorem eventHash_binds {first second : List UInt8} {signingKey : Option (List UInt8)}
    (same : algorithm.eventHash first signingKey = algorithm.eventHash second signingKey) :
    first = second ∨ Collision algorithm (eventTexts algorithm first signingKey)
      (eventTexts algorithm second signingKey) := by
  by_cases equal : first = second
  · exact .inl equal
  refine .inr ?_
  match signingKey with
  | none | some [] => exact ⟨first, List.mem_singleton_self _, second, List.mem_singleton_self _,
      equal, digest_eq same⟩
  | some (byte :: key) =>
    by_cases texts : asBytes (algorithm.computeHash first ++
        algorithm.computeHmac first (byte :: key)) =
      asBytes (algorithm.computeHash second ++ algorithm.computeHmac second (byte :: key))
    · obtain ⟨hashes, -⟩ := append_inj (by rw [length_computeHash, length_computeHash])
        (asBytes_injective texts)
      exact ⟨first, List.mem_cons_self, second, List.mem_cons_self, equal, digest_eq hashes⟩
    · exact ⟨_, List.mem_cons_of_mem _ List.mem_cons_self, _,
        List.mem_cons_of_mem _ List.mem_cons_self, texts, digest_eq same⟩

/-- A call neither appends an event with a number nor clears the trail. -/
def Spares (sequence : Int) : Call → Prop
  | .appendEvent other _ _ _ => other ≠ sequence
  | .clear => False

theorem get_run (earlier : List Call) {later : List Call} {sequence : Int}
    (eventBytes : List UInt8) (signingKey : Option (List UInt8)) (timestamp : Int)
    (spared : ∀ call ∈ later, Spares sequence call) :
    ∃ node, (run algorithm
      (earlier ++ .appendEvent sequence eventBytes signingKey timestamp :: later)
      ).hashIndex.get sequence = some node ∧
        node.eventHash = algorithm.eventHash eventBytes signingKey := by
  unfold run
  rw [List.foldl_append, List.foldl_cons]
  generalize start : apply algorithm _ _ = trail
  have there : ∃ node, trail.hashIndex.get sequence = some node ∧
      node.eventHash = algorithm.eventHash eventBytes signingKey := by
    subst start
    exact ⟨_, (Dict.get_put _ _ _ _).trans (if_pos rfl), rfl⟩
  clear start
  induction later generalizing trail with
  | nil => exact there
  | cons call rest ih =>
    obtain ⟨here, others⟩ := List.forall_mem_cons.mp spared
    refine ih others _ ?_
    cases call with
    | appendEvent other _ _ _ =>
      obtain ⟨node, found, hash⟩ := there
      exact ⟨node, (Dict.get_put _ _ _ _).trans ((if_neg (Ne.symm here)).trans found), hash⟩
    | clear => exact here.elim

/-- Once it is appended, an event is verified until its number is appended again or the trail is
cleared; and another event is verified in its place only if one text of its hash has the digest of
another text of the hash of that event. -/
theorem verifyEvent_run (algorithm : HashAlgorithm) (earlier : List Call) {later : List Call}
    {sequence : Int} (eventBytes : List UInt8) (signingKey : Option (List UInt8))
    (timestamp : Int) (spared : ∀ call ∈ later, Spares sequence call) :
    (run algorithm (earlier ++ .appendEvent sequence eventBytes signingKey timestamp :: later)
      ).verifyEvent algorithm sequence eventBytes signingKey = true ∧
    ∀ presented, (run algorithm
      (earlier ++ .appendEvent sequence eventBytes signingKey timestamp :: later)
      ).verifyEvent algorithm sequence presented signingKey = true → presented = eventBytes ∨
        Collision algorithm (eventTexts algorithm presented signingKey)
          (eventTexts algorithm eventBytes signingKey) := by
  obtain ⟨node, found, hash⟩ :=
    @get_run algorithm earlier later sequence eventBytes signingKey timestamp spared
  unfold verifyEvent
  rw [found]
  refine ⟨decide_eq_true hash.symm, fun presented verified => eventHash_binds ?_⟩
  exact (of_decide_eq_true verified).trans hash

/-- An event is verified after another one is appended. -/
theorem verifyEvent_sample :
    (run sumAlgorithm (sampleCalls 0x12)).verifyEvent sumAlgorithm 0 [0x12] none = true :=
  (verifyEvent_run sumAlgorithm [] [0x12] none 10
    (show ∀ call ∈ [Call.appendEvent 1 [3] none 11], Spares 0 call from
      List.forall_mem_singleton.mpr (show (1 : Int) ≠ 0 by decide))).1

end AuditTrail

end TradingBot.Cqrs
