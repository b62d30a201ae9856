import TradingBot.Recovery.OrphanTradeResolver

/-!
# What a reconciliation can tell

A failed request looks like an exchange without orders, and the local orders are checked whatever
symbols were asked for. An order is reported as missing on the exchange wherever no successful
request asked for it.
-/

namespace TradingBot.Recovery

open OrphanTradeResolver

namespace OrphanScope

/-- A symbol that a reconciliation is asked for. -/
def InScope (symbols : Option (List String)) (symbol : String) : Prop :=
  match symbols with
  | none => True
  | some symbols => symbol ∈ symbols

/-- The request for the orders of a symbol succeeds. -/
def Succeeded (exchange : Exchange) (symbols : Option (List String)) (symbol : String) : Prop :=
  match symbols with
  | none => exchange.answers none = true
  | some _ => exchange.answers (some symbol) = true

/-- A local order belongs to an exchange order by its exchange identifier or by its own. -/
def Matches (localOrder : LocalOrder) (order : ExchangeOrder) : Prop :=
  (localOrder.exchangeOrderId = some order.orderId ∧ order.orderId ≠ "") ∨
    localOrder.orderId = order.orderId

/-- A local order that has an exchange identifier and is not terminal. -/
def Live (localOrder : LocalOrder) : Prop :=
  (∃ id, localOrder.exchangeOrderId = some id ∧ id ≠ "") ∧
    localOrder.status ∉ terminalStatuses

/-- The exchange order of a local order is among the open orders. -/
def OnExchange (exchange : Exchange) (localOrder : LocalOrder) : Prop :=
  ∃ order ∈ exchange.openOrders, localOrder.exchangeOrderId = some order.orderId

/-- No local order matches an exchange order. -/
def Unmatched (resolver : OrphanTradeResolver) (order : ExchangeOrder) : Prop :=
  ∀ localOrder ∈ resolver.localOrders.values, ¬ Matches localOrder order

/-- The discrepancies that a reconciliation returns are exact: orders missing locally are the
unmatched open orders in scope whose request succeeded, and orders missing on the exchange are
live, in scope and not open there. -/
def Detects (resolver : OrphanTradeResolver) (exchange : Exchange)
    (symbols : Option (List String)) : Prop :=
  ∃ found after, resolver.reconcile exchange symbols = .ok (found, after) ∧
    (∀ order, (∃ discrepancy ∈ found, discrepancy.discrepancyType = .missingLocal ∧
        discrepancy.exchangeOrder = some order) ↔
      order ∈ exchange.openOrders ∧ InScope symbols order.symbol ∧
        Succeeded exchange symbols order.symbol ∧ Unmatched resolver order) ∧
    ∀ discrepancy ∈ found, discrepancy.discrepancyType = .missingExchange →
      ∃ localOrder ∈ resolver.localOrders.values,
        discrepancy.localOrder = some localOrder ∧ Live localOrder ∧
          InScope symbols localOrder.symbol ∧ ¬ OnExchange exchange localOrder

/-- An open order that a successful request asked for. -/
def Obtained (exchange : Exchange) (symbols : Option (List String)) (order : ExchangeOrder) :
    Prop :=
  order ∈ exchange.openOrders ∧
    match symbols with
    | none => exchange.answers none = true
    | some [] => exchange.answers none = true
    | some symbols => ∃ symbol ∈ symbols, exchange.answers (some symbol) = true ∧
      (symbol = "" ∨ order.symbol = symbol)

/-- A list of symbols asks for all orders, because it or one of its symbols is empty, and that
request succeeds. -/
def Unrestricted (exchange : Exchange) (symbols : Option (List String)) : Prop :=
  match symbols with
  | none => False
  | some [] => exchange.answers none = true
  | some symbols => "" ∈ symbols ∧ exchange.answers (some "") = true

/-- An unrestricted request meets only unmatched orders that are in scope, and every live local
order was obtained, or is in scope and not open on the exchange. -/
def ScopeKept (resolver : OrphanTradeResolver) (exchange : Exchange)
    (symbols : Option (List String)) : Prop :=
  (Unrestricted exchange symbols → ∀ order ∈ exchange.openOrders, Unmatched resolver order →
    InScope symbols order.symbol ∧ Succeeded exchange symbols order.symbol) ∧
  ∀ localOrder ∈ resolver.localOrders.values, Live localOrder →
    (∃ order, Obtained exchange symbols order ∧
      localOrder.exchangeOrderId = some order.orderId) ∨
    InScope symbols localOrder.symbol ∧ ¬ OnExchange exchange localOrder

section Reconciliation

variable {resolver : OrphanTradeResolver} {exchange : Exchange} {symbols : Option (List String)}
  {order : ExchangeOrder} {localOrder : LocalOrder} {discrepancy : Discrepancy}

theorem mem_exchangeOrders : order ∈ exchangeOrders exchange symbols ↔
    Obtained exchange symbols order := by
  have fetched : ∀ symbol, order ∈ fetchExchangeOrders exchange symbol ↔
      order ∈ exchange.openOrders ∧ exchange.answers symbol = true ∧
        requested symbol order = true := by
    intro symbol
    unfold fetchExchangeOrders
    split
    · rename_i answered
      rw [List.mem_filter, and_iff_right answered]
    · rename_i failed
      exact iff_of_false List.not_mem_nil fun all => failed all.2.1
  unfold exchangeOrders Obtained
  split
  · rw [fetched]
    exact and_congr_right fun _ => and_iff_left rfl
  · rw [fetched]
    exact and_congr_right fun _ => and_iff_left rfl
  · rw [List.mem_flatMap]
    simp only [fetched, requested, Bool.or_eq_true, decide_eq_true_eq]
    constructor
    · rintro ⟨symbol, asked, opened, answered, restricted⟩
      exact ⟨opened, symbol, asked, answered, restricted⟩
    · rintro ⟨opened, symbol, asked, answered, restricted⟩
      exact ⟨symbol, asked, opened, answered, restricted⟩

theorem matchingOrder_eq_none : resolver.matchingOrder order = none ↔ Unmatched resolver order := by
  have byExchange : resolver.localByExchangeId order.orderId = none ↔
      ∀ localOrder ∈ resolver.localOrders.values,
        ¬ (localOrder.exchangeOrderId = some order.orderId ∧ order.orderId ≠ "") := by
    unfold localByExchangeId
    rw [List.find?_eq_none]
    simp only [List.mem_reverse, Bool.and_eq_true, decide_eq_true_eq]
  have byId : resolver.localOrders.get order.orderId = none ↔
      ∀ localOrder ∈ resolver.localOrders.values, localOrder.orderId ≠ order.orderId := by
    constructor
    · intro absent localOrder member same
      obtain ⟨key, found⟩ := Dict.mem_values.mp member
      rw [← resolver.keyed key localOrder found, same, absent] at found
      exact Option.some_ne_none localOrder found.symm
    · intro none_
      by_contra present
      obtain ⟨localOrder, found⟩ := Option.ne_none_iff_exists'.mp present
      exact none_ localOrder (Dict.mem_values.mpr ⟨_, found⟩) (resolver.keyed _ _ found)
  have both : resolver.matchingOrder order = none ↔
      resolver.localByExchangeId order.orderId = none ∧
        resolver.localOrders.get order.orderId = none := by
    unfold matchingOrder
    cases resolver.localByExchangeId order.orderId with
    | none => exact (and_iff_right rfl).symm
    | some localOrder =>
      exact iff_of_false (Option.some_ne_none _) fun none_ => Option.some_ne_none _ none_.1
  rw [both, byExchange, byId]
  unfold Unmatched Matches
  constructor
  · rintro ⟨first, second⟩ localOrder member (matched | matched)
    · exact first localOrder member matched
    · exact second localOrder member matched
  · intro none_
    exact ⟨fun localOrder member matched => none_ localOrder member (.inl matched),
      fun localOrder member matched => none_ localOrder member (.inr matched)⟩

theorem missingLocal_mem :
    (discrepancy ∈ resolver.checkExchangeOrder order ∧
        discrepancy.discrepancyType = .missingLocal) ↔
      Unmatched resolver order ∧ discrepancy = ⟨.missingLocal, none, some order, "critical"⟩ := by
  rw [← matchingOrder_eq_none]
  unfold checkExchangeOrder
  cases resolver.matchingOrder order with
  | none =>
    rw [and_iff_right rfl, List.mem_singleton]
    refine ⟨And.left, fun same => ⟨same, ?_⟩⟩
    rw [same]
  | some localOrder =>
    refine iff_of_false (fun found => ?_) fun none_ => Option.some_ne_none _ none_.1
    obtain ⟨member, type⟩ := found
    rcases List.mem_append.mp member with status | quantity
    · split at status
      · rw [List.mem_singleton.mp status] at type
        exact OrderDiscrepancyType.noConfusion type
      · exact List.not_mem_nil status
    · split at quantity
      · rw [List.mem_singleton.mp quantity] at type
        exact OrderDiscrepancyType.noConfusion type
      · exact List.not_mem_nil quantity

theorem checkLocalOrder_mem {fetched : List ExchangeOrder} :
    discrepancy ∈ checkLocalOrder fetched localOrder ↔
      (Live localOrder ∧ ∀ order ∈ fetched, localOrder.exchangeOrderId ≠ some order.orderId) ∧
        discrepancy = ⟨.missingExchange, some localOrder, none, "medium"⟩ := by
  unfold checkLocalOrder Live
  cases localOrder.exchangeOrderId with
  | none =>
    refine iff_of_false List.not_mem_nil ?_
    rintro ⟨⟨⟨⟨id, some_, _⟩, _⟩, _⟩, _⟩
    cases some_
  | some id =>
    have live : ((∃ other, some id = some other ∧ other ≠ "") ∧
        localOrder.status ∉ terminalStatuses) ↔
          id ≠ "" ∧ localOrder.status ∉ terminalStatuses := by
      simp
    have absent : (∀ order ∈ fetched, some id ≠ some order.orderId) ↔
        ∀ order ∈ fetched, order.orderId ≠ id := by
      refine forall_congr' fun order => forall_congr' fun _ => ?_
      rw [ne_eq, Option.some.injEq, eq_comm]
    dsimp only
    rw [live, absent]
    split
    · rename_i missing
      rw [List.mem_singleton]
      exact (and_iff_right ⟨⟨missing.1, missing.2.2⟩, missing.2.1⟩).symm
    · rename_i present
      exact iff_of_false List.not_mem_nil fun found =>
        present ⟨found.1.1.1, found.1.2, found.1.1.2⟩

theorem obtained_scope (obtained : Obtained exchange symbols order) :
    order ∈ exchange.openOrders ∧ (Unrestricted exchange symbols ∨
      InScope symbols order.symbol ∧ Succeeded exchange symbols order.symbol) := by
  obtain ⟨opened, asked⟩ := obtained
  refine ⟨opened, ?_⟩
  cases symbols with
  | none => exact .inr ⟨trivial, asked⟩
  | some symbols =>
    cases symbols with
    | nil => exact .inl asked
    | cons first rest =>
      obtain ⟨symbol, member, answered, rfl | same⟩ := asked
      · exact .inl ⟨member, answered⟩
      · rw [same]
        exact .inr ⟨member, answered⟩

theorem obtained_of_scope (opened : order ∈ exchange.openOrders)
    (inScope : InScope symbols order.symbol)
    (succeeded : Succeeded exchange symbols order.symbol) : Obtained exchange symbols order := by
  refine ⟨opened, ?_⟩
  cases symbols with
  | none => exact succeeded
  | some symbols =>
    cases symbols with
    | nil => exact absurd inScope List.not_mem_nil
    | cons first rest => exact ⟨order.symbol, inScope, succeeded, .inr rfl⟩

theorem obtained_of_unrestricted (opened : order ∈ exchange.openOrders)
    (unrestricted : Unrestricted exchange symbols) : Obtained exchange symbols order := by
  refine ⟨opened, ?_⟩
  cases symbols with
  | none => exact absurd unrestricted id
  | some symbols =>
    cases symbols with
    | nil => exact unrestricted
    | cons first rest => exact ⟨"", unrestricted.1, unrestricted.2, .inl rfl⟩

theorem missingLocal_iff {locals : List LocalOrder} {fetched : List ExchangeOrder} :
    (∃ discrepancy ∈ (exchangeOrders exchange symbols).flatMap resolver.checkExchangeOrder ++
        locals.flatMap (checkLocalOrder fetched),
        discrepancy.discrepancyType = .missingLocal ∧ discrepancy.exchangeOrder = some order) ↔
      Obtained exchange symbols order ∧ Unmatched resolver order := by
  constructor
  · rintro ⟨discrepancy, member, type, ofOrder⟩
    rcases List.mem_append.mp member with onExchange | locally
    · obtain ⟨other, fetched, found⟩ := List.mem_flatMap.mp onExchange
      obtain ⟨unmatched, rfl⟩ := missingLocal_mem.mp ⟨found, type⟩
      cases ofOrder
      exact ⟨mem_exchangeOrders.mp fetched, unmatched⟩
    · obtain ⟨localOrder, _, found⟩ := List.mem_flatMap.mp locally
      rw [(checkLocalOrder_mem.mp found).2] at type
      exact OrderDiscrepancyType.noConfusion type
  · rintro ⟨obtained, unmatched⟩
    have found := missingLocal_mem.mpr ⟨unmatched, rfl⟩
    exact ⟨_, List.mem_append_left _
      (List.mem_flatMap.mpr ⟨order, mem_exchangeOrders.mpr obtained, found.1⟩), rfl, rfl⟩

theorem checkExchangeOrder_type (member : discrepancy ∈ resolver.checkExchangeOrder order) :
    discrepancy.discrepancyType ≠ .missingExchange := by
  unfold checkExchangeOrder at member
  generalize resolver.matchingOrder order = matching at member
  cases matching with
  | none =>
    rw [List.mem_singleton.mp member]
    exact OrderDiscrepancyType.noConfusion
  | some localOrder =>
    rcases List.mem_append.mp member with status | quantity
    · split at status
      · rw [List.mem_singleton.mp status]
        exact OrderDiscrepancyType.noConfusion
      · exact absurd status List.not_mem_nil
    · split at quantity
      · rw [List.mem_singleton.mp quantity]
        exact OrderDiscrepancyType.noConfusion
      · exact absurd quantity List.not_mem_nil

/-- The orders that are reported as missing on the exchange are the live ones that were not
obtained. -/
theorem missingExchange_mem :
    (discrepancy ∈ (exchangeOrders exchange symbols).flatMap resolver.checkExchangeOrder ++
        resolver.localOrders.values.flatMap (checkLocalOrder (exchangeOrders exchange symbols)) ∧
        discrepancy.discrepancyType = .missingExchange) ↔
      ∃ localOrder ∈ resolver.localOrders.values,
        (Live localOrder ∧ ∀ order, Obtained exchange symbols order →
          localOrder.exchangeOrderId ≠ some order.orderId) ∧
        discrepancy = ⟨.missingExchange, some localOrder, none, "medium"⟩ := by
  constructor
  · rintro ⟨member, type⟩
    rcases List.mem_append.mp member with onExchange | locally
    · obtain ⟨order, _, found⟩ := List.mem_flatMap.mp onExchange
      exact absurd type (checkExchangeOrder_type found)
    · obtain ⟨localOrder, held, found⟩ := List.mem_flatMap.mp locally
      obtain ⟨⟨live, absent⟩, same⟩ := checkLocalOrder_mem.mp found
      exact ⟨localOrder, held, ⟨live, fun order obtained =>
        absent order (mem_exchangeOrders.mpr obtained)⟩, same⟩
  · rintro ⟨localOrder, held, ⟨live, absent⟩, rfl⟩
    refine ⟨List.mem_append_right _ (List.mem_flatMap.mpr ⟨localOrder, held, ?_⟩), rfl⟩
    exact checkLocalOrder_mem.mpr ⟨⟨live, fun order fetched =>
      absent order (mem_exchangeOrders.mp fetched)⟩, rfl⟩

end Reconciliation

/-- A reconciliation of a started resolver is exact if and only if an unrestricted request meets
only unmatched orders in scope, and every live local order was obtained, or is in scope and not
open on the exchange. -/
theorem detects_iff (resolver : OrphanTradeResolver) (exchange : Exchange)
    (symbols : Option (List String)) (started : resolver.started = true) :
    Detects resolver exchange symbols ↔ ScopeKept resolver exchange symbols := by
  have reconciled : Detects resolver exchange symbols ↔
      (∀ order, Obtained exchange symbols order ∧ Unmatched resolver order ↔
        order ∈ exchange.openOrders ∧ InScope symbols order.symbol ∧
          Succeeded exchange symbols order.symbol ∧ Unmatched resolver order) ∧
      ∀ localOrder ∈ resolver.localOrders.values, Live localOrder →
        (∀ order, Obtained exchange symbols order →
          localOrder.exchangeOrderId ≠ some order.orderId) →
        InScope symbols localOrder.symbol ∧ ¬ OnExchange exchange localOrder := by
    unfold Detects reconcile
    rw [if_pos started]
    constructor
    · rintro ⟨found, after, returned, missingLocal, missingExchange⟩
      cases returned
      refine ⟨fun order => missingLocal_iff.symm.trans (missingLocal order), ?_⟩
      intro localOrder held live absent
      have reported := missingExchange_mem.mpr ⟨localOrder, held, ⟨live, absent⟩, rfl⟩
      obtain ⟨other, _, same, _, scope⟩ := missingExchange _ reported.1 rfl
      cases same
      exact scope
    · rintro ⟨missingLocal, missingExchange⟩
      refine ⟨_, _, rfl, fun order => missingLocal_iff.trans (missingLocal order), ?_⟩
      intro discrepancy member type
      obtain ⟨localOrder, held, ⟨live, absent⟩, rfl⟩ := missingExchange_mem.mp ⟨member, type⟩
      exact ⟨localOrder, held, rfl, live, missingExchange localOrder held live absent⟩
  rw [reconciled]
  refine and_congr ?_ (forall_congr' fun localOrder => forall_congr' fun _ =>
    forall_congr' fun live => ?_)
  · constructor
    · intro exact_ unrestricted order opened unmatched
      have all := (exact_ order).mp ⟨obtained_of_unrestricted opened unrestricted, unmatched⟩
      exact ⟨all.2.1, all.2.2.1⟩
    · intro kept order
      constructor
      · rintro ⟨obtained, unmatched⟩
        obtain ⟨opened, unrestricted | scope⟩ := obtained_scope obtained
        · have scope := kept unrestricted order opened unmatched
          exact ⟨opened, scope.1, scope.2, unmatched⟩
        · exact ⟨opened, scope.1, scope.2, unmatched⟩
      · rintro ⟨opened, inScope, succeeded, unmatched⟩
        exact ⟨obtained_of_scope opened inScope succeeded, unmatched⟩
  · constructor
    · intro missing
      by_contra neither
      obtain ⟨absent, outside⟩ := not_or.mp neither
      exact outside (missing fun order obtained same => absent ⟨order, obtained, same⟩)
    · rintro (⟨order, obtained, same⟩ | scope) absent
      · exact absurd same (absent order obtained)
      · exact scope

/-- A resolver with one open order. -/
def oneOrder : OrphanTradeResolver :=
  OrphanTradeResolver.new.registerLocalOrder ⟨"l1", "BTCUSDT", 0, "NEW", some "7"⟩

/-- An exchange that lists the order, and one that nobody knows, and answers for one symbol. -/
def answering : Exchange where
  openOrders := [⟨"7", "BTCUSDT", 0, "NEW"⟩, ⟨"8", "BTCUSDT", 0, "NEW"⟩]
  answers := fun symbol => symbol = some "BTCUSDT"

/-- A reconciliation of the symbol of the order is exact. -/
theorem detects_answered : Detects oneOrder answering (some ["BTCUSDT"]) := by
  refine (detects_iff oneOrder answering _ rfl).mpr ⟨fun unrestricted => ?_, ?_⟩
  · exact absurd unrestricted.1 (by decide)
  · intro localOrder held _
    have only : localOrder = ⟨"l1", "BTCUSDT", 0, "NEW", some "7"⟩ := List.mem_singleton.mp held
    subst only
    exact .inl ⟨⟨"7", "BTCUSDT", 0, "NEW"⟩, ⟨by decide, "BTCUSDT", by decide, by decide, .inr rfl⟩,
      rfl⟩

/-- An exchange that lists the order and does not answer. -/
def silent : Exchange where
  openOrders := [⟨"7", "BTCUSDT", 0, "NEW"⟩]
  answers := fun _ => false

/-- A request that fails marks the open order as missing on the exchange. -/
theorem failed_request_marks : ¬ Detects oneOrder silent none := by
  rintro ⟨found, after, returned, _, missingExchange⟩
  have reported : (oneOrder.reconcile silent none).toOption.map Prod.fst =
      some [⟨.missingExchange, some ⟨"l1", "BTCUSDT", 0, "NEW", some "7"⟩, none, "medium"⟩] := by
    decide +kernel
  rw [returned] at reported
  have only : found = _ := Option.some.inj reported
  rw [only] at missingExchange
  obtain ⟨localOrder, _, same, _, _, absent⟩ :=
    missingExchange _ (List.mem_singleton_self _) rfl
  cases same
  exact absent ⟨⟨"7", "BTCUSDT", 0, "NEW"⟩, List.mem_singleton_self _, rfl⟩

end OrphanScope

end TradingBot.Recovery
