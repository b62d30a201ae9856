import TradingBot.Foundation.Dict
import TradingBot.Foundation.Run

/-!
# The event type registry

`EventTypeRegistry` of `event_serializer.rs`: names of event types and the 16-bit ids they are given
in turn. Whether the counter of ids is checked for overflow is up to the build: a checked one stops
the program, and an unchecked one goes on with zero and then with the first id.
-/

open Run

namespace TradingBot.EventSerializer

/-- `EventTypeRegistry`: the name of every id, and the id that is given next. No name has two ids,
so a search by name finds the same entry in whatever order the map yields them. -/
structure EventTypeRegistry where
  /-- The names by id. -/
  types : Dict UInt16 String
  nextId : UInt16
  /-- No name is there twice. -/
  distinct : types.values.Nodup

namespace EventTypeRegistry

def getName (registry : EventTypeRegistry) (eventTypeId : UInt16) : Option String :=
  registry.types.get eventTypeId

def getId (registry : EventTypeRegistry) (eventType : String) : Option UInt16 :=
  (registry.types.entries.find? fun entry => entry.2 = eventType).map Prod.fst

variable {registry : EventTypeRegistry} {eventType : String}

/-- A registered name has the id that gives it back. -/
theorem getId_eq_some {id : UInt16} :
    registry.getId eventType = some id ↔ registry.getName id = some eventType := by
  unfold getId getName
  rw [Dict.get_eq_some]
  constructor
  · intro found
    obtain ⟨entry, first, same⟩ := Option.map_eq_some_iff.mp found
    have named : entry.2 = eventType := by simpa using List.find?_some first
    have whole : entry = (id, eventType) := Prod.ext same named
    exact whole ▸ List.mem_of_find?_eq_some first
  · intro member
    cases found : registry.types.entries.find? fun entry => entry.2 = eventType with
    | none => exact absurd (decide_eq_true rfl) (List.find?_eq_none.mp found _ member)
    | some entry =>
      have named : entry.2 = eventType := by simpa using List.find?_some found
      have same := List.inj_on_of_nodup_map registry.distinct
        (List.mem_of_find?_eq_some found) member named
      rw [Option.map_some, same]

theorem getId_eq_none : registry.getId eventType = none ↔ eventType ∉ registry.types.values := by
  unfold getId Dict.values
  rw [Option.map_eq_none_iff, List.find?_eq_none, List.mem_map]
  constructor
  · rintro absent ⟨entry, member, named⟩
    exact absent entry member (decide_eq_true named)
  · intro absent entry member named
    exact absent ⟨entry, member, of_decide_eq_true named⟩

theorem nodup_values_put (absent : registry.getId eventType = none) (id : UInt16) :
    (registry.types.put id eventType).values.Nodup := by
  have fresh := getId_eq_none.mp absent
  have distinct := registry.distinct
  cases found : registry.types.get id with
  | none =>
    rw [Dict.values_put_fresh eventType found]
    rw [← List.concat_eq_append]
    exact distinct.concat fresh
  | some old =>
    obtain ⟨front, back, before, after⟩ := Dict.values_put_there found eventType
    rw [before] at fresh distinct
    rw [after, List.nodup_middle]
    have others := (List.nodup_middle.mp distinct).of_cons
    refine List.nodup_cons.mpr ⟨fun member => fresh ?_, others⟩
    rcases List.mem_append.mp member with early | late
    · exact List.mem_append_left _ early
    · exact List.mem_append_right _ (List.mem_cons_of_mem old late)

/-- `register`: the id of a name and the registry after it. A checked counter stops the program
where it would leave its type. -/
def register (checked : Bool) (registry : EventTypeRegistry) (eventType : String) :
    Option (UInt16 × EventTypeRegistry) :=
  match absent : registry.getId eventType with
  | some id => some (id, registry)
  | none =>
    if checked = true ∧ registry.nextId = 65535 then none
    else some (registry.nextId, {
      types := registry.types.put registry.nextId eventType
      nextId := registry.nextId + 1
      distinct := nodup_values_put absent registry.nextId })

/-- The standard event types that `new` registers. -/
def standardTypes : List String :=
  ["TickReceived", "OrderPlaced", "OrderFilled", "OrderCancelled", "OrderModified",
    "PositionOpened", "PositionClosed", "PnLUpdate", "RiskLimitBreached", "MarketHalt"]

/-- `new`: the standard event types, registered in turn from the id one on. -/
def new (checked : Bool) : Option EventTypeRegistry :=
  standardTypes.foldlM
    (fun registry eventType => (registry.register checked eventType).map Prod.snd)
    { types := .empty, nextId := 1, distinct := List.nodup_nil }

end EventTypeRegistry

/-- A registry and the names it was asked to register with the ids it returned. -/
structure RegistrySession where
  registry : EventTypeRegistry
  assigned : List (String × UInt16)

namespace RegistrySession

/-- A new registry, which has returned the ids of the standard event types. -/
def new (checked : Bool) : Option RegistrySession :=
  (EventTypeRegistry.new checked).map fun registry =>
    { registry, assigned := registry.types.entries.map Prod.swap }

/-- A call of `register`. -/
def step (checked : Bool) (session : RegistrySession) (eventType : String) :
    Option RegistrySession :=
  (session.registry.register checked eventType).map fun result =>
    { registry := result.2, assigned := session.assigned ++ [(eventType, result.1)] }

/-- Names and the ids they were given determine each other, and the registry tells them. -/
structure Bijective (session : RegistrySession) : Prop where
  exclusive : ∀ first ∈ session.assigned, ∀ second ∈ session.assigned,
    first.2 = second.2 → first.1 = second.1
  stable : ∀ first ∈ session.assigned, ∀ second ∈ session.assigned,
    first.1 = second.1 → first.2 = second.2
  named : ∀ entry ∈ session.assigned, session.registry.getName entry.2 = some entry.1
  found : ∀ entry ∈ session.assigned, session.registry.getId entry.1 = some entry.2

end RegistrySession

/-! ## Ids in turn -/

namespace EventTypeRegistry

/-- The number of names a registry takes: a checked counter stops before the last id, and an
unchecked one gives the id zero after it. -/
def capacity (checked : Bool) : Nat := if checked then 65534 else 65536

/-- The ids were given in turn, as many as there are names. -/
structure Dense (checked : Bool) (registry : EventTypeRegistry) : Prop where
  ids : registry.types.keys =
    (List.range registry.types.size).map fun index => UInt16.ofNat (index + 1)
  next : registry.nextId = UInt16.ofNat (registry.types.size + 1)
  room : registry.types.size ≤ capacity checked

section Register

variable {checked : Bool} {registry next : EventTypeRegistry} {eventType : String} {id : UInt16}

theorem register_known (known : registry.getId eventType = some id) :
    registry.register checked eventType = some (id, registry) := by
  unfold register
  split
  · next found =>
    rw [Option.some.inj (known.symm.trans found)]
  · next absent => cases known.symm.trans absent

theorem register_new (absent : registry.getId eventType = none)
    (counts : ¬(checked = true ∧ registry.nextId = 65535)) :
    ∃ next, registry.register checked eventType = some (registry.nextId, next) ∧
      next.types = registry.types.put registry.nextId eventType ∧
      next.nextId = registry.nextId + 1 := by
  unfold register
  split
  · next found => cases absent.symm.trans found
  · rw [if_neg counts]
    exact ⟨_, rfl, rfl, rfl⟩

theorem register_stops (absent : registry.getId eventType = none)
    (stops : checked = true ∧ registry.nextId = 65535) :
    registry.register checked eventType = none := by
  unfold register
  split
  · next found => cases absent.symm.trans found
  · exact if_pos stops

theorem ofNat_eq_iff (first second : Nat) :
    UInt16.ofNat first = UInt16.ofNat second ↔ first % 65536 = second % 65536 := by
  rw [← UInt16.toNat_inj, UInt16.toNat_ofNat', UInt16.toNat_ofNat']

theorem getName_next (dense : Dense checked registry)
    (room : registry.types.size < capacity checked) : registry.getName registry.nextId = none := by
  have small : registry.types.size < 65536 := by
    unfold capacity at room
    split at room <;> omega
  cases found : registry.getName registry.nextId with
  | none => rfl
  | some name =>
    have member : registry.nextId ∈ registry.types.keys := Dict.mem_keys.mpr ⟨name, found⟩
    rw [dense.ids, dense.next] at member
    obtain ⟨index, inside, same⟩ := List.mem_map.mp member
    have before := List.mem_range.mp inside
    rw [ofNat_eq_iff] at same
    omega

theorem register_room (dense : Dense checked registry)
    (absent : registry.getId eventType = none)
    (room : registry.types.size < capacity checked) :
    ∃ next, registry.register checked eventType = some (registry.nextId, next) ∧
      Dense checked next ∧
      next.types.values = registry.types.values ++ [eventType] ∧
      ∀ id, next.getName id =
        if id = registry.nextId then some eventType else registry.getName id := by
  have free := getName_next dense room
  have counts : ¬(checked = true ∧ registry.nextId = 65535) := by
    rintro ⟨rfl, last⟩
    have limit : registry.types.size < 65534 := room
    rw [dense.next, show (65535 : UInt16) = UInt16.ofNat 65535 from rfl, ofNat_eq_iff] at last
    omega
  obtain ⟨next, registered, types, later⟩ := register_new absent counts
  have entries : next.types.entries =
      registry.types.entries ++ [(registry.nextId, eventType)] := by
    rw [types]
    refine Dict.putEntry_fresh _ _ fun member => ?_
    obtain ⟨name, named⟩ := Dict.mem_keys.mp member
    cases free.symm.trans named
  have size : next.types.size = registry.types.size + 1 := by
    unfold Dict.size
    rw [entries, List.length_append, List.length_singleton]
  refine ⟨next, registered, ⟨?_, ?_, ?_⟩, ?_, fun id => ?_⟩
  · have keys : next.types.keys = registry.types.keys ++ [registry.nextId] := by
      unfold Dict.keys
      rw [entries, List.map_append]
      rfl
    rw [keys, size, List.range_succ, List.map_append, ← dense.ids, dense.next]
    rfl
  · rw [later, size, dense.next, UInt16.ofNat_add (registry.types.size + 1) 1]
    rfl
  · rw [size]
    exact room
  · unfold Dict.values
    rw [entries, List.map_append]
    rfl
  · unfold getName
    rw [types, Dict.get_put]

theorem length_values (registry : EventTypeRegistry) :
    registry.types.values.length = registry.types.size :=
  List.length_map _

theorem register_all {names : List String} (dense : Dense checked registry)
    (room : registry.types.size + names.length ≤ capacity checked) :
    ∃ next, names.foldlM
        (fun registry eventType => (registry.register checked eventType).map Prod.snd) registry =
          some next ∧
      Dense checked next ∧
      next.types.values.toFinset = (registry.types.values ++ names).toFinset := by
  induction names generalizing registry with
  | nil => exact ⟨registry, rfl, dense, by rw [List.append_nil]⟩
  | cons name rest ih =>
    rw [List.length_cons] at room
    rw [List.foldlM_cons]
    cases known : registry.getId name with
    | some id =>
      obtain ⟨next, registered, denseNext, values⟩ := ih dense (by omega)
      have there : name ∈ registry.types.values :=
        Dict.mem_values.mpr ⟨id, getId_eq_some.mp known⟩
      refine ⟨next, ?_, denseNext, ?_⟩
      · rw [register_known known]
        exact registered
      · rw [values]
        ext other
        simp only [List.toFinset_append, List.toFinset_cons, Finset.mem_union, List.mem_toFinset,
          Finset.mem_insert]
        constructor
        · exact fun either => either.imp_right .inr
        · rintro (old | same | new)
          · exact .inl old
          · exact .inl (same ▸ there)
          · exact .inr new
    | none =>
      obtain ⟨middle, registered, denseMiddle, added, _⟩ := register_room dense known (by omega)
      have size : middle.types.size = registry.types.size + 1 := by
        rw [← length_values, added, List.length_append, length_values]
        rfl
      obtain ⟨next, later, denseNext, values⟩ := ih denseMiddle (by omega)
      refine ⟨next, ?_, denseNext, ?_⟩
      · rw [registered]
        exact later
      · rw [values, added, List.append_assoc]
        rfl

theorem new_dense (checked : Bool) :
    ∃ registry, new checked = some registry ∧ Dense checked registry ∧
      registry.types.values.toFinset = standardTypes.toFinset := by
  have blank : Dense checked { types := .empty, nextId := 1, distinct := List.nodup_nil } :=
    ⟨rfl, rfl, Nat.zero_le _⟩
  have room : 0 + standardTypes.length ≤ capacity checked := by
    cases checked <;> decide
  exact register_all blank room

end Register

end EventTypeRegistry

/-! ## Runs -/

namespace RegistrySession

open EventTypeRegistry

section Runs

variable {checked : Bool} {session next : RegistrySession} {eventType : String}

/-- The ids that were returned are those of the registry. -/
def Told (session : RegistrySession) : Prop :=
  ∀ name id, (name, id) ∈ session.assigned ↔ session.registry.getName id = some name

theorem told_entries (registry : EventTypeRegistry) :
    Told { registry, assigned := registry.types.entries.map Prod.swap } := by
  intro name id
  show (name, id) ∈ registry.types.entries.map Prod.swap ↔ registry.types.get id = some name
  rw [Dict.get_eq_some, List.mem_map]
  constructor
  · rintro ⟨entry, member, same⟩
    cases same
    exact member
  · exact fun member => ⟨(id, name), member, rfl⟩

theorem bijective_of_told (told : Told session) : Bijective session where
  exclusive first early second late same := by
    have one := (told first.1 first.2).mp early
    have other := (told second.1 second.2).mp late
    rw [same, other] at one
    exact (Option.some.inj one).symm
  stable first early second late same := by
    have one := getId_eq_some.mpr ((told first.1 first.2).mp early)
    have other := getId_eq_some.mpr ((told second.1 second.2).mp late)
    rw [same, other] at one
    exact (Option.some.inj one).symm
  named entry member := (told entry.1 entry.2).mp member
  found entry member := getId_eq_some.mpr ((told entry.1 entry.2).mp member)

theorem step_of_registered {id : UInt16} {registry : EventTypeRegistry}
    (registered : session.registry.register checked eventType = some (id, registry)) :
    step checked session eventType =
      some { registry, assigned := session.assigned ++ [(eventType, id)] } := by
  unfold step
  rw [registered]
  rfl

theorem step_known (told : Told session) {id : UInt16}
    (known : session.registry.getId eventType = some id) :
    ∃ next, step checked session eventType = some next ∧ Told next ∧
      next.registry = session.registry := by
  refine ⟨_, step_of_registered (register_known known), fun name other => ?_, rfl⟩
  rw [List.mem_append, List.mem_singleton, told name other]
  constructor
  · rintro (old | same)
    · exact old
    · cases same
      exact getId_eq_some.mp known
  · exact .inl

/-- A new name takes the next id while there is room. -/
theorem step_room (told : Told session) (dense : Dense checked session.registry)
    (absent : session.registry.getId eventType = none)
    (room : session.registry.types.size < capacity checked) :
    ∃ next, step checked session eventType = some next ∧ Told next ∧
      Dense checked next.registry ∧
      next.registry.types.values = session.registry.types.values ++ [eventType] := by
  obtain ⟨registry, registered, kept, values, names⟩ := register_room dense absent room
  refine ⟨_, step_of_registered registered, fun name other => ?_, kept, values⟩
  show _ ↔ registry.getName other = some name
  rw [List.mem_append, List.mem_singleton, told name other, names other]
  by_cases here : other = session.registry.nextId
  · rw [if_pos here, here, getName_next dense room]
    constructor
    · rintro (old | same)
      · cases old
      · rw [(Prod.mk.inj same).1]
    · intro same
      exact .inr (Prod.ext (Option.some.inj same).symm rfl)
  · rw [if_neg here]
    exact or_iff_left fun same => here (Prod.mk.inj same).2

theorem not_bijective_of_full (told : Told session) (dense : Dense false session.registry)
    (absent : session.registry.getId eventType = none)
    (full : session.registry.types.size = capacity false)
    (taken : step false session eventType = some next) : ¬Bijective next := by
  have size : session.registry.types.size = 65536 := full
  have first : UInt16.ofNat 1 ∈ session.registry.types.keys := by
    rw [dense.ids, List.mem_map]
    exact ⟨0, List.mem_range.mpr (by omega), rfl⟩
  obtain ⟨name, named⟩ := Dict.mem_keys.mp first
  have again : session.registry.nextId = UInt16.ofNat 1 := by
    rw [dense.next, size, ofNat_eq_iff]
  obtain ⟨registry, registered, _, _⟩ := @register_new false session.registry eventType absent
    (fun stops => absurd stops.1 Bool.false_ne_true)
  cases (step_of_registered registered).symm.trans taken
  intro bijective
  have early : (name, UInt16.ofNat 1) ∈ session.assigned := (told name _).mpr named
  have same : name = eventType := bijective.exclusive (name, UInt16.ofNat 1)
    (List.mem_append_left _ early) (eventType, session.registry.nextId)
    (List.mem_append_right _ (List.mem_singleton.mpr rfl)) again.symm
  subst same
  cases absent.symm.trans (getId_eq_some.mpr named)

/-- A full registry stops in the checked build. -/
theorem step_stops (dense : Dense true session.registry)
    (absent : session.registry.getId eventType = none)
    (full : session.registry.types.size = capacity true) :
    step true session eventType = none := by
  have size : session.registry.types.size = 65534 := full
  have stops := register_stops absent ⟨rfl, by rw [dense.next, size]; rfl⟩
  unfold step
  rw [stops]
  rfl

theorem more_names_than_ids {registry : EventTypeRegistry} {name : String} {rest : List String}
    (absent : registry.getId name = none) (full : registry.types.size = capacity false) :
    65536 < (registry.types.values ++ name :: rest).toFinset.card := by
  have size : registry.types.size = 65536 := full
  have distinct : (name :: registry.types.values).Nodup :=
    List.nodup_cons.mpr ⟨getId_eq_none.mp absent, registry.distinct⟩
  have count := List.toFinset_card_of_nodup distinct
  rw [List.length_cons, length_values, size] at count
  have more : (name :: registry.types.values).toFinset ⊆
      (registry.types.values ++ name :: rest).toFinset := by
    intro other member
    simp only [List.mem_toFinset, List.mem_cons, List.mem_append] at member ⊢
    rcases member with here | old
    · exact .inr (.inl here)
    · exact .inl old
  have large := Finset.card_le_card more
  omega

theorem toFinset_known {registry : EventTypeRegistry} {name : String} {id : UInt16}
    (known : registry.getId name = some id) (rest : List String) :
    (registry.types.values ++ name :: rest).toFinset =
      (registry.types.values ++ rest).toFinset := by
  have there : name ∈ registry.types.values :=
    Dict.mem_values.mpr ⟨id, getId_eq_some.mp known⟩
  rw [List.toFinset_append, List.toFinset_cons, List.toFinset_append, Finset.union_insert,
    Finset.insert_eq_of_mem]
  exact Finset.mem_union_left _ (List.mem_toFinset.mpr there)

theorem always_bijective_full {name : String} {rest : List String} (told : Told session)
    (dense : Dense checked session.registry) (absent : session.registry.getId name = none)
    (full : session.registry.types.size = capacity checked) :
    Always (step checked) Bijective session (name :: rest) ↔ checked = true := by
  cases checked with
  | true =>
    refine iff_of_true ⟨bijective_of_told told, fun next taken => ?_⟩ rfl
    cases (step_stops dense absent full).symm.trans taken
  | false =>
    refine iff_of_false (fun always => ?_) Bool.false_ne_true
    obtain ⟨registry, registered, _, _⟩ := @register_new false session.registry name absent
      (fun stops => absurd stops.1 Bool.false_ne_true)
    have taken := @step_of_registered false session name _ _ registered
    exact not_bijective_of_full told dense absent full taken (always.2 _ taken).first

theorem always_bijective_iff {names : List String} (told : Told session)
    (dense : Dense checked session.registry) :
    Always (step checked) Bijective session names ↔
      checked = true ∨ (session.registry.types.values ++ names).toFinset.card ≤ 65536 := by
  have bijective := bijective_of_told told
  have below : capacity checked ≤ 65536 := by
    cases checked <;> decide
  induction names generalizing session with
  | nil =>
    have few := (List.toFinset_card_le session.registry.types.values).trans
      ((length_values session.registry).le.trans (dense.room.trans below))
    rw [List.append_nil]
    exact iff_of_true bijective (.inr few)
  | cons name rest ih =>
    cases known : session.registry.getId name with
    | some id =>
      obtain ⟨next, taken, toldNext, same⟩ := @step_known checked _ _ told _ known
      rw [always_cons bijective taken, toFinset_known known rest, ← same]
      exact ih toldNext (same ▸ dense) (bijective_of_told toldNext)
    | none =>
      by_cases room : session.registry.types.size < capacity checked
      · obtain ⟨next, taken, toldNext, denseNext, values⟩ := step_room told dense known room
        have later := ih toldNext denseNext (bijective_of_told toldNext)
        rw [values, List.append_assoc] at later
        exact (always_cons bijective taken).trans later
      · have full : session.registry.types.size = capacity checked := by
          have limit := dense.room
          omega
        rw [always_bijective_full told dense known full]
        refine (or_iff_left_of_imp fun few => ?_).symm
        cases checked with
        | true => rfl
        | false =>
          have more := @more_names_than_ids session.registry name rest known full
          omega

end Runs

theorem new_of_built {checked : Bool} {registry : EventTypeRegistry}
    (built : EventTypeRegistry.new checked = some registry) :
    new checked = some { registry, assigned := registry.types.entries.map Prod.swap } := by
  unfold new
  rw [built]
  rfl

theorem exists_names (count : Nat) : ∃ names : List String, names.Nodup ∧ names.length = count := by
  refine ⟨(List.range count).map fun length => String.ofList (List.replicate length 'a'), ?_, ?_⟩
  · refine List.Nodup.map (fun first second same => ?_) List.nodup_range
    simpa using congrArg String.length same
  · rw [List.length_map, List.length_range]

/-- From a new registry on, names and ids determine each other along a run of registrations, and the
registry tells both, if and only if the counter of ids is checked, or no more than 65536 distinct
names are registered, the standard ones among them. -/
theorem bijective_iff_few_names {checked : Bool} {session : RegistrySession}
    (made : new checked = some session) (names : List String) :
    Always (step checked) Bijective session names ↔
      checked = true ∨ (standardTypes ++ names).toFinset.card ≤ 65536 := by
  obtain ⟨registry, built, dense, values⟩ := new_dense checked
  cases (new_of_built built).symm.trans made
  rw [always_bijective_iff (told_entries registry) dense, List.toFinset_append, values,
    ← List.toFinset_append]

/-- A custom name and a standard one are registered. -/
theorem bijective_iff_few_names_custom :
    ∃ session, new false = some session ∧
      Always (step false) Bijective session ["FundingPaid", "OrderPlaced"] := by
  obtain ⟨registry, built, _⟩ := new_dense false
  have made := new_of_built built
  exact ⟨_, made, (bijective_iff_few_names made ["FundingPaid", "OrderPlaced"]).mpr
    (.inr (by decide))⟩

/-- With more names than ids a name is given the id of another. -/
theorem id_reused :
    ¬∀ (checked : Bool) (session : RegistrySession) (names : List String),
      new checked = some session → Always (step checked) Bijective session names := by
  intro claim
  obtain ⟨registry, built, dense, _⟩ := new_dense false
  obtain ⟨names, distinct, length⟩ := exists_names 65537
  have always := claim false _ names (new_of_built built)
  have few := (always_bijective_iff (told_entries registry) dense).mp always
  have count := List.toFinset_card_of_nodup distinct
  rw [List.toFinset_append] at few
  have more := Finset.card_le_card
    (@Finset.subset_union_right _ _ registry.types.values.toFinset names.toFinset)
  have small : (registry.types.values.toFinset ∪ names.toFinset).card ≤ 65536 :=
    few.resolve_left Bool.false_ne_true
  omega

end RegistrySession

end TradingBot.EventSerializer
