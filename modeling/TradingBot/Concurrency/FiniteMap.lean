import TradingBot.Foundation.Dict
import TradingBot.Foundation.Run
import TradingBot.Concurrency.LockFreeMap

/-!
# The order map beside a finite map

The map is to do what a dictionary does. Its chains are edited as if the node that is looked for
were their head: an insertion of a key further back cuts off the nodes before it, and an update of
one is not made.
-/

open Run

namespace TradingBot.Concurrency.FiniteMap

/-- One call on a map. -/
inductive MapCall where
  | insert (order : OrderInfo)
  | get (orderId : Nat)
  | remove (orderId : Nat)
  /-- `update_state`, with the reading of the clock during it. -/
  | updateState (orderId : Nat) (newState : OrderState) (fillQty : ℚ) (nowNs : Nat)

/-- What a call answers. -/
inductive MapAnswer where
  | order (found : Option OrderInfo)
  | updated (success : Bool)
  deriving DecidableEq, Repr

/-- The dictionary of orders that a map is to be. -/
abbrev Ledger := Dict Nat OrderInfo

variable {hashKey : Nat → Nat}

/-- A map after a call, and the answer. -/
def callMap (map : LockFreeOrderMap hashKey) : MapCall → MapAnswer × LockFreeOrderMap hashKey
  | .insert order => (.order (map.insert order).1, (map.insert order).2)
  | .get orderId => (.order (map.get orderId), map)
  | .remove orderId => (.order (map.remove orderId).1, (map.remove orderId).2)
  | .updateState orderId newState fillQty nowNs =>
    (.updated (map.updateState orderId newState fillQty nowNs).1,
      (map.updateState orderId newState fillQty nowNs).2)

/-- A dictionary of orders after a call, and the answer it gives. -/
def callLedger (ledger : Ledger) : MapCall → MapAnswer × Ledger
  | .insert order => (.order (ledger.get order.orderId), ledger.put order.orderId order)
  | .get orderId => (.order (ledger.get orderId), ledger)
  | .remove orderId => (.order (ledger.get orderId), ledger.pop orderId)
  | .updateState orderId newState fillQty nowNs =>
    match ledger.get orderId with
    | none => (.updated false, ledger)
    | some order =>
      (.updated true, ledger.put orderId (order.updateFill fillQty newState nowNs))

/-- A map beside the dictionary it is to be, and whether their last answers were the same. -/
structure Session (hashKey : Nat → Nat) where
  map : LockFreeOrderMap hashKey
  ledger : Ledger
  answered : Bool

/-- A session after a call. -/
def step (session : Session hashKey) (call : MapCall) : Option (Session hashKey) :=
  some {
    map := (callMap session.map call).2
    ledger := (callLedger session.ledger call).2
    answered := (callMap session.map call).1 = (callLedger session.ledger call).1 }

/-- A session of a new map. -/
def Session.start (map : LockFreeOrderMap hashKey) : Session hashKey where
  map := map
  ledger := .empty
  answered := true

/-- A map answers as the dictionary does, has its orders and counts them. -/
structure Agrees (session : Session hashKey) : Prop where
  answered : session.answered = true
  orders : ∀ orderId, session.map.get orderId = session.ledger.get orderId
  counted : session.map.len = session.ledger.size

/-- A key that has an order is the key of the head of its chain. -/
def AtHead (map : LockFreeOrderMap hashKey) (orderId : Nat) : Prop :=
  (map.get orderId).isSome = true →
    (map.chain (hashKey orderId)).head?.map Node.key = some orderId

/-- What a call replaces is the head of its chain. -/
def InPlace (session : Session hashKey) : MapCall → Prop
  | .insert order => AtHead session.map order.orderId
  | .updateState orderId .. => AtHead session.map orderId
  | _ => True

instance (session : Session hashKey) : DecidablePred (InPlace session)
  | .insert _ => inferInstanceAs (Decidable (_ → _ = _))
  | .updateState .. => inferInstanceAs (Decidable (_ → _ = _))
  | .get _ | .remove _ => inferInstanceAs (Decidable True)

/-! ## One chain -/

section Chains

variable {hash orderId other : Nat} {node : Node} {behind chain : List Node}

theorem lookup_cons (hash orderId : Nat) (node : Node) (behind : List Node) :
    lookup hash orderId (node :: behind) =
      if node.isFor hash orderId then some node.value else lookup hash orderId behind := by
  unfold lookup
  rw [seek]
  split <;> rfl

theorem lookup_cons_other (different : node.key ≠ orderId) :
    lookup hash orderId (node :: behind) = lookup hash orderId behind := by
  rw [lookup_cons, if_neg]
  simp [Node.isFor, different]

theorem lookup_absent (absent : orderId ∉ chain.map Node.key) :
    lookup hash orderId chain = none := by
  induction chain with
  | nil => rfl
  | cons node behind ih =>
    have parts := not_or.mp (mt List.mem_cons.mpr absent)
    rw [lookup_cons_other (Ne.symm parts.1)]
    exact ih parts.2

theorem seek_some {found : Node} (sought : seek hash orderId chain = some (found, behind)) :
    found.isFor hash orderId = true ∧ ∃ front, chain = front ++ found :: behind ∧
      ∀ node ∈ front, node.isFor hash orderId = false := by
  induction chain with
  | nil => cases sought
  | cons node rest ih =>
    rw [seek] at sought
    by_cases here : node.isFor hash orderId = true
    · rw [if_pos here] at sought
      cases sought
      exact ⟨here, [], rfl, nofun⟩
    · rw [if_neg here] at sought
      obtain ⟨matched, front, split_, others⟩ := ih sought
      refine ⟨matched, node :: front, by rw [split_]; rfl, ?_⟩
      intro earlier member
      rcases List.mem_cons.mp member with same | later
      · rw [same]
        exact Bool.eq_false_of_not_eq_true here
      · exact others earlier later

theorem lookup_erase (different : other ≠ orderId) (hash' : Nat) :
    lookup hash' other (chain.eraseP fun node => node.isFor hash orderId) =
      lookup hash' other chain := by
  induction chain with
  | nil => rfl
  | cons node behind ih =>
    cases matched : node.isFor hash orderId with
    | true =>
      have key_ : node.key = orderId := by
        unfold Node.isFor at matched
        exact of_decide_eq_true (Bool.and_eq_true_iff.mp matched).2
      rw [List.eraseP_cons, matched, cond_true, lookup_cons_other (key_ ▸ Ne.symm different)]
    | false =>
      rw [List.eraseP_cons, matched, cond_false, lookup_cons, lookup_cons, ih]

end Chains

/-! ## One map -/

section Maps

variable {map : LockFreeOrderMap hashKey} {hash other orderId : Nat} {nodes : List Node}
  {node : Node}

theorem chain_setChain (map : LockFreeOrderMap hashKey) (hash other : Nat) (nodes : List Node) :
    (map.setChain hash nodes).chain other =
      if hash &&& map.bucketMask = other &&& map.bucketMask then nodes else map.chain other := by
  unfold LockFreeOrderMap.chain LockFreeOrderMap.setChain
  simp only [List.get_eq_getElem]
  exact List.getElem_set _

theorem chain_congr (same : hash &&& map.bucketMask = other &&& map.bucketMask) :
    map.chain hash = map.chain other := by
  have index : map.getBucketIndex hash = map.getBucketIndex other := Fin.ext same
  unfold LockFreeOrderMap.chain
  rw [index]

theorem get_setChain
    (others : ∀ other, other ≠ orderId → lookup (hashKey other) other nodes =
      lookup (hashKey other) other (map.chain (hashKey orderId))) (other : Nat) :
    (map.setChain (hashKey orderId) nodes).get other =
      if other = orderId then lookup (hashKey orderId) orderId nodes else map.get other := by
  show lookup (hashKey other) other ((map.setChain (hashKey orderId) nodes).chain (hashKey other)) =
    if other = orderId then lookup (hashKey orderId) orderId nodes
    else lookup (hashKey other) other (map.chain (hashKey other))
  rw [chain_setChain]
  by_cases same : other = orderId
  · rw [if_pos same, same, if_pos rfl]
  · rw [if_neg same]
    by_cases bucket : hashKey orderId &&& map.bucketMask = hashKey other &&& map.bucketMask
    · rw [if_pos bucket, others other same, chain_congr bucket]
    · rw [if_neg bucket]

/-- The nodes of a chain have keys that differ, their own hashes, and the chain's bucket. -/
def Placed (map : LockFreeOrderMap hashKey) : Prop :=
  ∀ hash, ((map.chain hash).map Node.key).Nodup ∧ ∀ node ∈ map.chain hash,
    node.hash = hashKey node.key ∧ node.hash &&& map.bucketMask = hash &&& map.bucketMask

section

variable (placed : Placed map)
include placed

theorem placed_setChain (nodup : (nodes.map Node.key).Nodup)
    (own : ∀ node ∈ nodes, node.hash = hashKey node.key ∧ node.hash &&& map.bucketMask =
      hash &&& map.bucketMask) :
    Placed (map.setChain hash nodes) := by
  intro other
  rw [chain_setChain]
  by_cases bucket : hash &&& map.bucketMask = other &&& map.bucketMask
  · rw [if_pos bucket]
    exact ⟨nodup, fun node member => ⟨(own node member).1, (own node member).2.trans bucket⟩⟩
  · rw [if_neg bucket]
    exact placed other

theorem placed_sublist (fewer : nodes.Sublist (map.chain hash)) :
    Placed (map.setChain hash nodes) := by
  apply placed_setChain placed
  · exact (fewer.map Node.key).nodup (placed hash).1
  · exact fun node member => (placed hash).2 node (fewer.subset member)

theorem placed_cons (value : OrderInfo) (fewer : nodes.Sublist (map.chain (hashKey orderId)))
    (absent : orderId ∉ nodes.map Node.key) : Placed (map.setChain (hashKey orderId)
      ({ key := orderId, value := value, hash := hashKey orderId } :: nodes)) := by
  apply placed_setChain placed
  · exact List.nodup_cons.mpr ⟨absent, (fewer.map Node.key).nodup (placed (hashKey orderId)).1⟩
  · intro node member
    rcases List.mem_cons.mp member with same | old
    · rw [same]
      exact ⟨rfl, rfl⟩
    · exact (placed (hashKey orderId)).2 node (fewer.subset old)

/-- In its own bucket, a node is for an id exactly when it has the key. -/
theorem isFor_iff (member : node ∈ map.chain hash) (orderId : Nat) :
    node.isFor (hashKey orderId) orderId = true ↔ node.key = orderId := by
  unfold Node.isFor
  rw [Bool.and_eq_true, decide_eq_true_iff, decide_eq_true_iff]
  refine ⟨And.right, fun same => ⟨?_, same⟩⟩
  rw [((placed hash).2 node member).1, same]

theorem get_eq_none :
    map.get orderId = none ↔ orderId ∉ (map.chain (hashKey orderId)).map Node.key := by
  refine ⟨fun missing member => ?_, fun absent => lookup_absent absent⟩
  obtain ⟨node, among, same⟩ := List.mem_map.mp member
  have matched := (isFor_iff placed among orderId).mpr same
  have found : ∃ found, lookup (hashKey orderId) orderId (map.chain (hashKey orderId)) =
      some found := by
    clear missing member
    revert among
    induction map.chain (hashKey orderId) with
    | nil => exact nofun
    | cons first behind ih =>
      intro among
      rw [lookup_cons]
      by_cases here : first.isFor (hashKey orderId) orderId = true
      · exact ⟨first.value, if_pos here⟩
      · rw [if_neg here]
        apply ih
        rcases List.mem_cons.mp among with same | later
        · exact absurd (same ▸ matched) here
        · exact later
  obtain ⟨found, there⟩ := found
  exact absurd (there.symm.trans missing) (Option.some_ne_none found)

theorem get_head {behind : List Node} (chain : map.chain hash = node :: behind) :
    map.get node.key = some node.value := by
  have member : node ∈ map.chain hash := chain ▸ List.mem_cons_self
  have own := (placed hash).2 node member
  have bucket : map.chain (hashKey node.key) = node :: behind := by
    rw [← chain]
    exact chain_congr (own.1 ▸ own.2)
  show lookup (hashKey node.key) node.key (map.chain (hashKey node.key)) = some node.value
  rw [bucket, lookup_cons, if_pos ((isFor_iff placed member node.key).mpr rfl)]

end

end Maps

/-! ## One call -/

section Calls

variable {map : LockFreeOrderMap hashKey} {ledger : Ledger} {orderId : Nat}

/-- The node of an order at a key. -/
abbrev nodeOf (hashKey : Nat → Nat) (orderId : Nat) (value : OrderInfo) : Node :=
  { key := orderId, value := value, hash := hashKey orderId }

theorem lookup_nodeOf (value : OrderInfo) (behind : List Node) :
    lookup (hashKey orderId) orderId (nodeOf hashKey orderId value :: behind) = some value := by
  rw [lookup_cons, if_pos]
  simp [Node.isFor]

/-- A key has no order, the order of the head of its chain, or one further back. -/
inductive Sought (map : LockFreeOrderMap hashKey) (orderId : Nat) : Prop where
  | absent (missing : map.get orderId = none)
    (sought : seek (hashKey orderId) orderId (map.chain (hashKey orderId)) = none)
  | head (node : Node) (behind : List Node) (key : node.key = orderId)
    (chain : map.chain (hashKey orderId) = node :: behind)
  | further (first found : Node) (front behind : List Node) (key : found.key = orderId)
    (different : first.key ≠ orderId)
    (chain : map.chain (hashKey orderId) = first :: (front ++ found :: behind))
    (sought : seek (hashKey orderId) orderId (map.chain (hashKey orderId)) = some (found, behind))

/-- A lookup finds the node of the key or its place. -/
theorem sought_cases (placed : Placed map) (orderId : Nat) : Sought map orderId := by
  cases sought : seek (hashKey orderId) orderId (map.chain (hashKey orderId)) with
  | none =>
    refine .absent ?_ sought
    show (seek (hashKey orderId) orderId (map.chain (hashKey orderId))).map _ = none
    rw [sought]
    rfl
  | some pair =>
    obtain ⟨found, behind⟩ := pair
    obtain ⟨matched, front, chain, others⟩ := seek_some sought
    have member : found ∈ map.chain (hashKey orderId) := by
      rw [chain]
      exact List.mem_append_right front List.mem_cons_self
    have key := (isFor_iff placed member orderId).mp matched
    cases front with
    | nil => exact .head found behind key chain
    | cons first front =>
      have leading : first ∈ map.chain (hashKey orderId) := chain ▸ List.mem_cons_self
      have different : first.key ≠ orderId := by
        intro same
        have for_ := (isFor_iff placed leading orderId).mpr same
        rw [others first List.mem_cons_self] at for_
        cases for_
      exact .further first found front behind key different chain sought

/-- A map beside a dictionary has its orders and counts them. -/
def Same (map : LockFreeOrderMap hashKey) (ledger : Ledger) : Prop :=
  (∀ orderId, map.get orderId = ledger.get orderId) ∧ map.len = ledger.size

theorem get_putHead {nodes : List Node} (value : OrderInfo)
    (others : ∀ other, other ≠ orderId → lookup (hashKey other) other nodes =
      lookup (hashKey other) other (map.chain (hashKey orderId))) (other : Nat) :
    (map.setChain (hashKey orderId) (nodeOf hashKey orderId value :: nodes)).get other =
      if other = orderId then some value else map.get other := by
  rw [get_setChain, lookup_nodeOf]
  intro other different
  rw [lookup_cons_other (Ne.symm different)]
  exact others other different

variable {node : Node} {behind : List Node}

theorem lookup_behind (key : node.key = orderId)
    (chain : map.chain (hashKey orderId) = node :: behind) (other : Nat)
    (different : other ≠ orderId) : lookup (hashKey other) other behind =
      lookup (hashKey other) other (map.chain (hashKey orderId)) := by
  rw [chain, lookup_cons_other (key ▸ Ne.symm different)]

theorem head_absent (placed : Placed map) {hash : Nat} (chain : map.chain hash = node :: behind) :
    node.key ∉ behind.map Node.key := by
  have nodup := (placed hash).1
  rw [chain, List.map_cons] at nodup
  exact (List.nodup_cons.mp nodup).1

theorem insert_absent {order : OrderInfo} (sought : seek (hashKey order.orderId) order.orderId
      (map.chain (hashKey order.orderId)) = none) :
    map.insert order = (none, { map.setChain (hashKey order.orderId)
      (nodeOf hashKey order.orderId order :: map.chain (hashKey order.orderId)) with
        size := map.size + 1 }) := by
  unfold LockFreeOrderMap.insert
  simp only [sought]

theorem insert_found {order : OrderInfo} {found : Node}
    (sought : seek (hashKey order.orderId) order.orderId (map.chain (hashKey order.orderId)) =
      some (found, behind)) :
    map.insert order = (some found.value, map.setChain (hashKey order.orderId)
      (nodeOf hashKey order.orderId order :: behind)) := by
  unfold LockFreeOrderMap.insert
  simp only [sought]

theorem seek_head (placed : Placed map) (key : node.key = orderId)
    (chain : map.chain (hashKey orderId) = node :: behind) :
    seek (hashKey orderId) orderId (map.chain (hashKey orderId)) = some (node, behind) := by
  have member : node ∈ map.chain (hashKey orderId) := chain ▸ List.mem_cons_self
  rw [chain, seek, if_pos ((isFor_iff placed member orderId).mpr key)]

theorem atHead_iff (map : LockFreeOrderMap hashKey) {value : OrderInfo}
    (chain : map.chain (hashKey orderId) = node :: behind) (there : map.get orderId = some value) :
    AtHead map orderId ↔ node.key = orderId := by
  unfold AtHead
  rw [there, chain]
  exact ⟨fun head => Option.some.inj (head rfl), fun same _ => congrArg some same⟩

theorem atHead_absent (missing : map.get orderId = none) : AtHead map orderId := by
  intro present
  rw [missing] at present
  cases present

theorem get_found {found : Node}
    (sought : seek (hashKey orderId) orderId (map.chain (hashKey orderId)) = some (found, behind)) :
    map.get orderId = some found.value := by
  show (seek (hashKey orderId) orderId (map.chain (hashKey orderId))).map _ = _
  rw [sought]
  rfl

theorem get_cut (placed : Placed map) {lost : Node} (value : OrderInfo)
    (member : lost ∈ map.chain (hashKey orderId)) (different : lost.key ≠ orderId)
    (gone : lost.key ∉ behind.map Node.key) :
    (map.setChain (hashKey orderId) (nodeOf hashKey orderId value :: behind)).get lost.key =
      none := by
  have own := (placed (hashKey orderId)).2 lost member
  have bucket : hashKey orderId &&& map.bucketMask = hashKey lost.key &&& map.bucketMask := by
    rw [← own.1, own.2]
  show lookup (hashKey lost.key) lost.key ((map.setChain (hashKey orderId)
    (nodeOf hashKey orderId value :: behind)).chain (hashKey lost.key)) = none
  rw [chain_setChain, if_pos bucket, lookup_cons_other (Ne.symm different)]
  exact lookup_absent gone

theorem get_missing
    (sought : seek (hashKey orderId) orderId (map.chain (hashKey orderId)) = none) :
    map.get orderId = none := by
  show (seek (hashKey orderId) orderId (map.chain (hashKey orderId))).map _ = _
  rw [sought]
  rfl

section

variable (placed : Placed map)
include placed

theorem insert_same (same : Same map ledger) (order : OrderInfo) :
    (map.insert order).1 = ledger.get order.orderId ∧
        Same (map.insert order).2 (ledger.put order.orderId order) ↔
      AtHead map order.orderId := by
  rcases sought_cases placed order.orderId with
    ⟨missing, sought⟩ | ⟨node, behind, key, chain⟩ |
      ⟨first, found, front, behind, key, different, chain, sought⟩
  · rw [insert_absent sought]
    refine iff_of_true ⟨?_, ?_, ?_⟩ (atHead_absent missing)
    · rw [← same.1, missing]
    · intro other
      rw [Dict.get_put, ← same.1]
      exact get_putHead order (fun _ _ => rfl) other
    · rw [Dict.size_put, ← same.1, missing, ← same.2]
      rfl
  · have there := get_found (seek_head placed key chain)
    rw [insert_found (seek_head placed key chain)]
    refine iff_of_true ⟨?_, ?_, ?_⟩ ((atHead_iff map chain there).mpr key)
    · rw [← same.1, there]
    · intro other
      rw [Dict.get_put, ← same.1]
      exact get_putHead order (lookup_behind key chain) other
    · rw [Dict.size_put, ← same.1, there, ← same.2]
      rfl
  · rw [insert_found sought]
    refine iff_of_false (fun kept => ?_)
      (mt (atHead_iff map chain (get_found sought)).mp different)
    -- The first node is cut off.
    have before := get_head placed chain
    have gone : first.key ∉ behind.map Node.key := by
      intro member
      apply head_absent placed chain
      rw [List.map_append]
      exact List.mem_append_right _ (List.mem_cons_of_mem _ member)
    have after := get_cut placed order (chain ▸ List.mem_cons_self) different gone
    rw [kept.2.1, Dict.get_put, if_neg different, ← same.1, before] at after
    cases after

theorem erase_absent {found : Node} (member : found ∈ map.chain (hashKey orderId))
    (matched : found.isFor (hashKey orderId) orderId = true) :
    orderId ∉ ((map.chain (hashKey orderId)).eraseP fun node =>
      node.isFor (hashKey orderId) orderId).map Node.key := by
  obtain ⟨node, front, behind, _, node_, chain, rest⟩ := @List.exists_of_eraseP _
    (fun node => node.isFor (hashKey orderId) orderId) _ found member matched
  have nodup := (placed (hashKey orderId)).1
  have among : node ∈ map.chain (hashKey orderId) := by
    rw [chain]
    exact List.mem_append_right front List.mem_cons_self
  rw [chain, List.map_append, List.map_cons, List.nodup_middle] at nodup
  rw [rest, List.map_append, ← (isFor_iff placed among orderId).mp node_]
  exact (List.nodup_cons.mp nodup).1

theorem remove_same (same : Same map ledger) (orderId : Nat) :
    (map.remove orderId).1 = ledger.get orderId ∧
      Same (map.remove orderId).2 (ledger.pop orderId) := by
  unfold LockFreeOrderMap.remove
  cases sought : seek (hashKey orderId) orderId (map.chain (hashKey orderId)) with
  | none =>
    have missing : map.get orderId = none := get_missing sought
    simp only [sought]
    refine ⟨by rw [← same.1, missing], fun other => ?_, ?_⟩
    · rw [Dict.get_pop, ← same.1]
      by_cases same_ : other = orderId
      · rw [if_pos same_, same_, missing]
      · rw [if_neg same_]
    · rw [Dict.size_pop, ← same.1, missing, ← same.2]
      rfl
  | some pair =>
    obtain ⟨found, behind⟩ := pair
    obtain ⟨matched, front, chain, _⟩ := seek_some sought
    have there := get_found sought
    have member : found ∈ map.chain (hashKey orderId) := by
      rw [chain]
      exact List.mem_append_right front List.mem_cons_self
    simp only [sought]
    refine ⟨by rw [← same.1, there], fun other => ?_, ?_⟩
    · rw [Dict.get_pop, ← same.1]
      apply (get_setChain (fun other different => lookup_erase different _) other).trans
      rw [lookup_absent (erase_absent placed member matched)]
    · rw [Dict.size_pop, ← same.1, there, ← same.2]
      rfl

theorem updateState_head (key : node.key = orderId)
    (chain : map.chain (hashKey orderId) = node :: behind) (newState : OrderState) (fillQty : ℚ)
    (nowNs : Nat) : map.updateState orderId newState fillQty nowNs =
      (true, map.setChain (hashKey orderId) (nodeOf hashKey orderId
        (node.value.updateFill fillQty newState nowNs) :: behind)) := by
  have member : node ∈ map.chain (hashKey orderId) := chain ▸ List.mem_cons_self
  unfold LockFreeOrderMap.updateState
  simp only [chain]
  rw [if_pos ((isFor_iff placed member orderId).mpr key)]

theorem updateState_missed
    (others : (map.chain (hashKey orderId)).head?.map Node.key ≠ some orderId)
    (newState : OrderState) (fillQty : ℚ) (nowNs : Nat) :
    map.updateState orderId newState fillQty nowNs = (false, map) := by
  unfold LockFreeOrderMap.updateState
  cases chain : map.chain (hashKey orderId) with
  | nil => simp only [chain]
  | cons node behind =>
    have member : node ∈ map.chain (hashKey orderId) := chain ▸ List.mem_cons_self
    rw [chain] at others
    have key : node.key ≠ orderId := fun same => others (congrArg some same)
    simp only [chain]
    rw [if_neg (mt (isFor_iff placed member orderId).mp key)]

theorem updateState_same (same : Same map ledger) (orderId : Nat) (newState : OrderState)
    (fillQty : ℚ) (nowNs : Nat) :
    MapAnswer.updated (map.updateState orderId newState fillQty nowNs).1 =
          (callLedger ledger (.updateState orderId newState fillQty nowNs)).1 ∧
        Same (map.updateState orderId newState fillQty nowNs).2
          (callLedger ledger (.updateState orderId newState fillQty nowNs)).2 ↔
      AtHead map orderId := by
  unfold callLedger
  rcases sought_cases placed orderId with
    ⟨missing, sought⟩ | ⟨node, behind, key, chain⟩ |
      ⟨first, found, front, behind, key, different, chain, sought⟩
  · have others : (map.chain (hashKey orderId)).head?.map Node.key ≠ some orderId := by
      intro head
      obtain ⟨node, first, key⟩ := Option.map_eq_some_iff.mp head
      exact (get_eq_none placed).mp missing
        (List.mem_map.mpr ⟨node, List.mem_of_mem_head? first, key⟩)
    rw [updateState_missed placed others]
    simp only [← same.1, missing]
    exact iff_of_true ⟨trivial, same⟩ (atHead_absent missing)
  · have there := get_found (seek_head placed key chain)
    rw [updateState_head placed key chain]
    simp only [← same.1, there]
    refine iff_of_true ⟨trivial, fun other => ?_, ?_⟩ ((atHead_iff map chain there).mpr key)
    · rw [Dict.get_put, ← same.1]
      exact get_putHead _ (lookup_behind key chain) other
    · rw [Dict.size_put, ← same.1, there, ← same.2]
      rfl
  · have others : (map.chain (hashKey orderId)).head?.map Node.key ≠ some orderId := by
      rw [chain]
      exact fun head => different (Option.some.inj head)
    rw [updateState_missed placed others]
    simp only [← same.1, get_found sought]
    exact iff_of_false (fun both => absurd (MapAnswer.updated.inj both.1) Bool.false_ne_true)
      (mt (atHead_iff map chain (get_found sought)).mp different)

theorem placed_call (call : MapCall) : Placed (callMap map call).2 := by
  cases call with
  | insert order =>
    show Placed (map.insert order).2
    rcases sought_cases placed order.orderId with
      ⟨missing, sought⟩ | ⟨node, behind, key, chain⟩ |
        ⟨first, found, front, behind, key, different, chain, sought⟩
    · rw [insert_absent sought]
      exact placed_cons placed order (List.Sublist.refl _) ((get_eq_none placed).mp missing)
    · rw [insert_found (seek_head placed key chain)]
      have fewer : behind.Sublist (map.chain (hashKey order.orderId)) := by
        rw [chain]
        exact List.sublist_cons_self node behind
      exact placed_cons placed order fewer (key ▸ head_absent placed chain)
    · rw [insert_found sought]
      have fewer : (found :: behind).Sublist (map.chain (hashKey order.orderId)) := by
        rw [chain]
        exact (List.sublist_append_right front _).trans (List.sublist_cons_self first _)
      have nodup := (fewer.map Node.key).nodup (placed (hashKey order.orderId)).1
      exact placed_cons placed order ((List.sublist_cons_self found behind).trans fewer)
        (key ▸ (List.nodup_cons.mp nodup).1)
  | get orderId => exact placed
  | remove orderId =>
    show Placed (map.remove orderId).2
    unfold LockFreeOrderMap.remove
    cases sought : seek (hashKey orderId) orderId (map.chain (hashKey orderId)) with
    | none =>
      simp only [sought]
      exact placed
    | some pair =>
      simp only [sought]
      exact placed_sublist placed List.eraseP_sublist
  | updateState orderId newState fillQty nowNs =>
    show Placed (map.updateState orderId newState fillQty nowNs).2
    by_cases head : (map.chain (hashKey orderId)).head?.map Node.key = some orderId
    · obtain ⟨node, first, key⟩ := Option.map_eq_some_iff.mp head
      obtain ⟨behind, chain⟩ := List.head?_eq_some_iff.mp first
      rw [updateState_head placed key chain]
      have fewer : behind.Sublist (map.chain (hashKey orderId)) := by
        rw [chain]
        exact List.sublist_cons_self node behind
      exact placed_cons placed _ fewer (key ▸ head_absent placed chain)
    · rw [updateState_missed placed head]
      exact placed

end

theorem agrees_iff {session next : Session hashKey} {call : MapCall}
    (stepped : step session call = some next) : Agrees next ↔
      (callMap session.map call).1 = (callLedger session.ledger call).1 ∧
        Same (callMap session.map call).2 (callLedger session.ledger call).2 := by
  cases stepped
  constructor
  · exact fun agrees => ⟨of_decide_eq_true agrees.answered, agrees.orders, agrees.counted⟩
  · exact fun kept => ⟨decide_eq_true kept.1, kept.2.1, kept.2.2⟩

/-- One call keeps the agreement exactly when it updates in place. -/
theorem agrees_step {session next : Session hashKey} {call : MapCall}
    (placed : Placed session.map) (agrees : Agrees session)
    (stepped : step session call = some next) : Agrees next ↔ InPlace session call := by
  have same : Same session.map session.ledger := ⟨agrees.orders, agrees.counted⟩
  rw [agrees_iff stepped]
  cases call with
  | insert order =>
    apply Iff.trans _ (insert_same placed same order)
    exact and_congr_left' (Iff.of_eq (MapAnswer.order.injEq _ _))
  | get orderId => exact iff_of_true ⟨congrArg _ (same.1 orderId), same⟩ trivial
  | remove orderId =>
    have kept := remove_same placed same orderId
    exact iff_of_true ⟨congrArg _ kept.1, kept.2⟩ trivial
  | updateState orderId newState fillQty nowNs =>
    exact updateState_same placed same orderId newState fillQty nowNs

end Calls

/-! ## Runs -/

theorem chain_new {capacity : Nat} {map : LockFreeOrderMap hashKey}
    (created : LockFreeOrderMap.new hashKey capacity = some map) (hash : Nat) :
    map.chain hash = [] := by
  unfold LockFreeOrderMap.new at created
  split at created
  · cases created
  · cases created
    exact List.getElem_replicate _

theorem agrees_start {capacity : Nat} {map : LockFreeOrderMap hashKey}
    (created : LockFreeOrderMap.new hashKey capacity = some map) :
    Placed map ∧ Agrees (Session.start map) := by
  have empty := chain_new created
  refine ⟨fun hash => ?_, rfl, fun orderId => ?_, ?_⟩
  · rw [empty]
    exact ⟨List.nodup_nil, nofun⟩
  · show lookup (hashKey orderId) orderId (map.chain (hashKey orderId)) = none
    rw [empty]
    rfl
  · unfold LockFreeOrderMap.new at created
    split at created
    · cases created
    · cases created
      rfl

/-- For every hash function, capacity and run of calls, the map answers as a dictionary does, has
its orders and counts them in every state, if and only if every insertion and every update of an
order that is there finds it at the head of its chain. -/
theorem finite_map_iff_in_place (capacity : Nat) (map : LockFreeOrderMap hashKey)
    (created : LockFreeOrderMap.new hashKey capacity = some map) (calls : List MapCall) :
    Always step Agrees (Session.start map) calls ↔
      Guarded step InPlace (Session.start map) calls := by
  have start := agrees_start created
  apply @always_iff_guarded _ _ step (fun session => Placed session.map)
  · intro session call next placed stepped
    cases stepped
    exact placed_call placed call
  · exact fun session call next placed agrees stepped => agrees_step placed agrees stepped
  · exact start.1
  · exact start.2

/-- An order of a quantity. -/
def orderOf (orderId : Nat) (quantity : ℚ) : OrderInfo := .new orderId 0 0 quantity 50000 1

/-- A run on keys of two chains: both are inserted, updated, one is replaced and one removed. -/
def headed : List MapCall :=
  [.insert (orderOf 1 1), .insert (orderOf 2 3), .updateState 1 .submitted 0 2,
    .updateState 2 .filled 3 3, .insert (orderOf 1 2), .remove 2, .get 2]

/-- Every call of that run is in place under a hash that keeps the keys apart, so the map is the
dictionary throughout. -/
theorem finite_map_iff_in_place_headed :
    ∃ map, LockFreeOrderMap.new id 64 = some map ∧
      Guarded step InPlace (Session.start map) headed ∧
        Always step Agrees (Session.start map) headed := by
  have guarded : ∀ map ∈ LockFreeOrderMap.new id 64,
      Guarded step InPlace (Session.start map) headed := by decide +kernel
  obtain ⟨map, created⟩ := Option.isSome_iff_exists.mp
    (by decide +kernel : (LockFreeOrderMap.new id 64).isSome = true)
  exact ⟨map, created, guarded map created,
    (finite_map_iff_in_place 64 map created headed).mpr (guarded map created)⟩

/-- A run that replaces the first of two orders in one chain. -/
def behindHead : List MapCall :=
  [.insert (orderOf 1 1), .insert (orderOf 2 3), .insert (orderOf 1 2)]

/-- The other order is lost by that run. -/
theorem neighbour_lost : ∃ map : LockFreeOrderMap fun _ => 0,
    LockFreeOrderMap.new (fun _ => 0) 64 = some map ∧
      ¬ Always step Agrees (Session.start map) behindHead := by
  obtain ⟨map, created⟩ := Option.isSome_iff_exists.mp
    (by decide +kernel : (LockFreeOrderMap.new (fun _ => 0) 64).isSome = true)
  have ends : ∀ map ∈ LockFreeOrderMap.new (fun _ => 0) 64, ∃ last ∈
      exec step (Session.start map) behindHead, last.map.get 2 ≠ last.ledger.get 2 := by
    decide +kernel
  refine ⟨map, created, fun always => ?_⟩
  obtain ⟨last, ran, differ⟩ := ends map created
  exact differ ((always.final ran).orders 2)

end TradingBot.Concurrency.FiniteMap
