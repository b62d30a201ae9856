import TradingBot.Analytics.SchemaRegistry
import TradingBot.Foundation.Run

/-!
# Versions of schemas

The versions given out for a message type are to grow with every registration, and the active
schema of a type is to be the one last registered or activated for it. A version is the highest
active one plus one, so it grows until an older version is activated; and a schema can be
deactivated while it is the active one.
-/

open Run MachineInt

namespace TradingBot.Analytics

/-- A schema lists a message type. -/
def SchemaMetadata.lists (schema : SchemaMetadata) (messageType : String) : Bool :=
  schema.messageTypes.contains messageType

namespace SchemaRegistry

variable {registry : SchemaRegistry} {iteration : Iteration} {messageType : String} {version : Nat}
  {schema : SchemaMetadata}

/-- The versions given out for a message type in the order of registration. -/
def versions (registry : SchemaRegistry) (messageType : String) : List Nat :=
  (registry.schemas.values.filter fun schema => schema.lists messageType).map
    SchemaMetadata.version

/-- The versions given out for a message type grow. -/
def Increasing (registry : SchemaRegistry) : Prop :=
  ∀ messageType, (registry.versions messageType).Pairwise (· < ·)

/-- A schema answers for each type it lists, under its own version. -/
theorem answers_iff (schema : SchemaMetadata) (messageType : String) (version : Nat) :
    schema.answers messageType version = true ↔
      schema.lists messageType = true ∧ schema.version = version := by
  unfold SchemaMetadata.answers SchemaMetadata.lists
  rw [Bool.and_eq_true, decide_eq_true_iff]

theorem Increasing.unique (increasing : registry.Increasing) {first second : SchemaMetadata}
    (left : first ∈ registry.schemas.values) (right : second ∈ registry.schemas.values)
    (one : first.answers messageType version = true)
    (other : second.answers messageType version = true) : first = second := by
  obtain ⟨firstLists, firstVersion⟩ := (answers_iff first messageType version).mp one
  obtain ⟨secondLists, secondVersion⟩ := (answers_iff second messageType version).mp other
  have distinct : (registry.versions messageType).Nodup :=
    (increasing messageType).imp Nat.ne_of_lt
  exact List.inj_on_of_nodup_map distinct (List.mem_filter.mpr ⟨left, firstLists⟩)
    (List.mem_filter.mpr ⟨right, secondLists⟩) (firstVersion.trans secondVersion.symm)

theorem Increasing.search_eq (increasing : registry.Increasing) :
    registry.search iteration messageType version = some schema ↔
      schema ∈ registry.schemas.values ∧ schema.answers messageType version = true := by
  have met : ∀ other, other ∈ iteration.order registry.schemas.values ↔
      other ∈ registry.schemas.values :=
    fun other => (iteration.perm registry.schemas.values).mem_iff
  have passes : ∀ other, (iteration.order registry.schemas.values).find? (fun schema =>
      schema.answers messageType version) = some other →
        other.answers messageType version = true :=
    fun other found => by simpa using List.find?_some found
  unfold search
  constructor
  · intro found
    exact ⟨(met schema).mp (List.mem_of_find?_eq_some found), passes schema found⟩
  · rintro ⟨member, answers⟩
    cases found : (iteration.order registry.schemas.values).find? fun schema =>
        schema.answers messageType version with
    | none => exact absurd answers (List.find?_eq_none.mp found schema ((met schema).mpr member))
    | some other =>
      have there := (met other).mp (List.mem_of_find?_eq_some found)
      rw [increasing.unique there member (passes other found) answers]

theorem search_eq_none :
    registry.search iteration messageType version = none ↔
      ∀ schema ∈ registry.schemas.values, ¬schema.answers messageType version = true := by
  unfold search
  rw [List.find?_eq_none]
  exact forall_congr' fun schema =>
    imp_congr_left (iteration.perm registry.schemas.values).mem_iff

theorem maxVersion_attained (registry : SchemaRegistry) (messageTypes : List String) :
    registry.maxVersion messageTypes = 0 ∨ ∃ messageType ∈ messageTypes,
      registry.activeSchemas.get messageType = some (registry.maxVersion messageTypes) := by
  unfold maxVersion
  generalize 0 = start
  induction messageTypes generalizing start with
  | nil => exact .inl rfl
  | cons first rest ih =>
    rw [List.foldl_cons]
    cases active : registry.activeSchemas.get first with
    | none =>
      rcases ih start with same | ⟨messageType, member, there⟩
      · exact .inl same
      · exact .inr ⟨messageType, List.mem_cons_of_mem first member, there⟩
    | some version =>
      rcases ih (max start version) with same | ⟨messageType, member, there⟩
      · rcases max_choice start version with before | its
        · exact .inl (same.trans before)
        · exact .inr ⟨first, List.mem_cons_self, by rw [active, same, its]⟩
      · exact .inr ⟨messageType, List.mem_cons_of_mem first member, there⟩

end SchemaRegistry

namespace SchemaVersions

/-! ## Runs -/

/-- One call on a registry. -/
inductive RegistryCall where
  | register (schemaContent schemaType : String) (messageTypes : List String)
    (compatibility : Option CompatibilityLevel) (nowSecs : Nat)
  | activate (messageType : String) (version : Nat)
  | deactivate (schemaId : String)

/-- A registry with what the calls asked for. -/
structure Session where
  registry : SchemaRegistry
  /-- The schema of the last successful registration or activation for each message type. -/
  last : Dict String String
  /-- The schemas that were deactivated. -/
  deactivated : List String

/-- A session of a new registry. -/
def Session.start : Session where
  registry := .new
  last := .empty
  deactivated := []

/-- The registered schema with a message type and a version. -/
def Session.registered (session : Session) (messageType : String) (version : Nat) :
    Option SchemaMetadata :=
  session.registry.schemas.values.find? fun schema => schema.answers messageType version

/-- The schemas asked for after an activation. -/
def Session.lastActivated (session : Session) (messageType : String) (version : Nat) :
    Dict String String :=
  match session.registered messageType version with
  | none => session.last
  | some schema => session.last.put messageType schema.schemaId

/-- What a call that may fail leaves of a registry. -/
def kept (registry : SchemaRegistry) : Except SchemaError SchemaRegistry → SchemaRegistry
  | .ok after => after
  | .error _ => registry

variable (iteration : Iteration) (generateSchemaId : String → String)

/-- A session after a registration. -/
def Session.register (session : Session) (schemaContent schemaType : String)
    (messageTypes : List String) (compatibility : Option CompatibilityLevel) (nowSecs : Nat) :
    Session :=
  let answered := session.registry.registerSchema iteration generateSchemaId schemaContent
    schemaType messageTypes compatibility nowSecs
  { session with
    registry := answered.2
    last := session.last.putAll messageTypes answered.1 }

/-- A session after an activation. -/
def Session.activate (session : Session) (messageType : String) (version : Nat) : Session :=
  { session with
    registry := kept session.registry
      (session.registry.activateVersion iteration messageType version)
    last := session.lastActivated messageType version }

/-- A session after a deactivation. -/
def Session.deactivate (session : Session) (schemaId : String) : Session :=
  { session with
    registry := kept session.registry (session.registry.deactivateSchema schemaId)
    deactivated :=
      if (session.registry.schemas.get schemaId).isSome then schemaId :: session.deactivated
      else session.deactivated }

/-- A session after a call. -/
def step (session : Session) : RegistryCall → Option Session
  | .register schemaContent schemaType messageTypes compatibility nowSecs =>
    some (session.register iteration generateSchemaId schemaContent schemaType messageTypes
      compatibility nowSecs)
  | .activate messageType version => some (session.activate iteration messageType version)
  | .deactivate schemaId => some (session.deactivate schemaId)

/-- Versions identify schemas, and the active schema of each type is the one last asked for. -/
structure Identified (session : Session) : Prop where
  /-- At most one schema lists a type with a version. -/
  unique : ∀ messageType version, ∀ first ∈ session.registry.schemas.values,
    ∀ second ∈ session.registry.schemas.values, first.answers messageType version = true →
      second.answers messageType version = true → first = second
  /-- The versions given out for a type grow. -/
  increasing : session.registry.Increasing
  /-- The active schema is the one last asked for. -/
  latest : ∀ messageType,
    (session.registry.getActiveSchema iteration messageType).map SchemaMetadata.schemaId =
      session.last.get messageType
  /-- No active schema was deactivated. -/
  alive : ∀ messageType, ∀ schema ∈ session.registry.getActiveSchema iteration messageType,
    schema.schemaId ∉ session.deactivated

/-- A new schema gets a version above all those of its types, and one that is there is the one last
asked for of all its types. -/
def RegistersApart (session : Session) (schemaId : String) (messageTypes : List String) : Prop :=
  match session.registry.schemas.get schemaId with
  | some _ => ∀ messageType ∈ messageTypes, session.last.get messageType = some schemaId
  | none => session.registry.maxVersion messageTypes < u32Max ∧
      ∀ messageType ∈ messageTypes, ∀ schema ∈ session.registry.schemas.values,
        schema.lists messageType = true →
          schema.version ≤ session.registry.maxVersion messageTypes

instance (session : Session) (schemaId : String) (messageTypes : List String) :
    Decidable (RegistersApart session schemaId messageTypes) :=
  match there : session.registry.schemas.get schemaId with
  | some _ => decidable_of_iff
      (∀ messageType ∈ messageTypes, session.last.get messageType = some schemaId)
      (by unfold RegistersApart; rw [there])
  | none => decidable_of_iff (session.registry.maxVersion messageTypes < u32Max ∧
      ∀ messageType ∈ messageTypes, ∀ schema ∈ session.registry.schemas.values,
        schema.lists messageType = true →
          schema.version ≤ session.registry.maxVersion messageTypes)
      (by unfold RegistersApart; rw [there])

/-- A registration keeps the schemas apart, only a schema that was not deactivated is activated, and
none is deactivated that was asked for last. -/
def Distinguished (session : Session) : RegistryCall → Prop
  | .register schemaContent _ messageTypes _ _ =>
    RegistersApart session (generateSchemaId schemaContent) messageTypes
  | .activate messageType version => ∀ schema ∈ session.registry.schemas.values,
      schema.answers messageType version = true → schema.schemaId ∉ session.deactivated
  | .deactivate schemaId => schemaId ∉ session.last.values

instance (session : Session) : DecidablePred (Distinguished generateSchemaId session) := fun call =>
  match call with
  | .register .. => inferInstanceAs (Decidable (RegistersApart _ _ _))
  | .activate _ _ => inferInstanceAs (Decidable (∀ _ ∈ Dict.values _, _ → ¬_ ∈ _))
  | .deactivate _ => inferInstanceAs (Decidable (¬_ ∈ _))

/-- What every session knows of its registry. -/
structure Coherent (session : Session) : Prop where
  /-- Every schema stands under its id. -/
  keyed : ∀ schemaId schema, session.registry.schemas.get schemaId = some schema →
    schema.schemaId = schemaId
  /-- A schema asked for is there, and its version is the active one. -/
  pointed : ∀ messageType schemaId, session.last.get messageType = some schemaId →
    ∃ schema, session.registry.schemas.get schemaId = some schema ∧
      schema.lists messageType = true ∧
      session.registry.activeSchemas.get messageType = some schema.version
  /-- Only a type that was asked for has an active version. -/
  asked : ∀ messageType version, session.registry.activeSchemas.get messageType = some version →
    ∃ schemaId, session.last.get messageType = some schemaId
  /-- Only a registered schema is deactivated. -/
  dead : ∀ schemaId ∈ session.deactivated,
    ∃ schema, session.registry.schemas.get schemaId = some schema

section Runs

variable {iteration} {generateSchemaId} {session next : Session} {call : RegistryCall}
  {messageType : String} {version : Nat} {schema : SchemaMetadata}

theorem Coherent.get_of_mem (coherent : Coherent session)
    (member : schema ∈ session.registry.schemas.values) :
    session.registry.schemas.get schema.schemaId = some schema := by
  obtain ⟨schemaId, there⟩ := Dict.mem_values.mp member
  rw [coherent.keyed schemaId schema there]
  exact there

theorem Coherent.latest (coherent : Coherent session)
    (increasing : session.registry.Increasing) (messageType : String) :
    (session.registry.getActiveSchema iteration messageType).map SchemaMetadata.schemaId =
      session.last.get messageType := by
  unfold SchemaRegistry.getActiveSchema
  cases asked : session.last.get messageType with
  | none =>
    have inactive : session.registry.activeSchemas.get messageType = none := by
      refine Option.eq_none_iff_forall_ne_some.mpr fun version active => ?_
      obtain ⟨schemaId, some_⟩ := coherent.asked messageType version active
      cases asked.symm.trans some_
    rw [inactive]
    rfl
  | some schemaId =>
    obtain ⟨schema, there, lists, active⟩ := coherent.pointed messageType schemaId asked
    have found : session.registry.search iteration messageType schema.version = some schema :=
      increasing.search_eq.mpr ⟨Dict.mem_values.mpr ⟨schemaId, there⟩,
        (SchemaRegistry.answers_iff schema messageType schema.version).mpr ⟨lists, rfl⟩⟩
    rw [active, Option.bind_some, found, Option.map_some, coherent.keyed schemaId schema there]

/-- It is identified when versions increase and no last schema is inactive. -/
theorem identified_iff (coherent : Coherent session) :
    Identified iteration session ↔ session.registry.Increasing ∧
      ∀ messageType schemaId, session.last.get messageType = some schemaId →
        schemaId ∉ session.deactivated := by
  constructor
  · intro identified
    refine ⟨identified.increasing, fun messageType schemaId asked => ?_⟩
    have latest := identified.latest messageType
    rw [asked] at latest
    obtain ⟨schema, active, rfl⟩ := Option.map_eq_some_iff.mp latest
    exact identified.alive messageType schema active
  · rintro ⟨increasing, alive⟩
    refine ⟨fun messageType version first left second right => increasing.unique left right,
      increasing, coherent.latest increasing, fun messageType schema active => ?_⟩
    have latest := @Coherent.latest iteration session coherent increasing messageType
    rw [Option.mem_def.mp active] at latest
    exact alive messageType schema.schemaId latest.symm

/-! ### Registration -/

section Registration

variable {schemaContent schemaType : String} {messageTypes : List String}
  {compatibility : Option CompatibilityLevel} {nowSecs : Nat}

theorem register_there (coherent : Coherent session) {existing : SchemaMetadata}
    (there : session.registry.schemas.get (generateSchemaId schemaContent) = some existing) :
    session.register iteration generateSchemaId schemaContent schemaType messageTypes compatibility
        nowSecs =
      { session with
        last := session.last.putAll messageTypes (generateSchemaId schemaContent) } := by
  unfold Session.register SchemaRegistry.registerSchema
  dsimp only
  rw [there]
  dsimp only
  rw [coherent.keyed _ existing there]

theorem register_fresh
    (fresh : session.registry.schemas.get (generateSchemaId schemaContent) = none) :
    ∃ metadata : SchemaMetadata, metadata.schemaId = generateSchemaId schemaContent ∧
      metadata.messageTypes = messageTypes ∧
      metadata.version = session.registry.getNextVersion messageTypes ∧
      let after := session.register iteration generateSchemaId schemaContent schemaType
        messageTypes compatibility nowSecs
      after.registry.schemas =
          session.registry.schemas.put (generateSchemaId schemaContent) metadata ∧
        after.registry.activeSchemas =
          session.registry.activeSchemas.putAll messageTypes metadata.version ∧
        after.last = session.last.putAll messageTypes (generateSchemaId schemaContent) ∧
        after.deactivated = session.deactivated := by
  refine ⟨session.registry.newMetadata iteration (generateSchemaId schemaContent) schemaType
    messageTypes compatibility nowSecs, rfl, rfl, rfl, ?_⟩
  unfold Session.register SchemaRegistry.registerSchema
  dsimp only
  rw [fresh]
  exact ⟨rfl, rfl, rfl, rfl⟩

theorem last_putAll (asked : ∀ messageType ∈ messageTypes,
    session.last.get messageType = some (generateSchemaId schemaContent)) (messageType : String) :
    (session.last.putAll messageTypes (generateSchemaId schemaContent)).get messageType =
      session.last.get messageType := by
  rw [Dict.get_putAll]
  split
  · next member => exact (asked messageType member).symm
  · rfl

variable {metadata : SchemaMetadata}

theorem versions_put {registry after : SchemaRegistry} {schemaId : String}
    (fresh : registry.schemas.get schemaId = none)
    (put : after.schemas = registry.schemas.put schemaId metadata) (messageType : String) :
    after.versions messageType = registry.versions messageType ++
      if metadata.lists messageType then [metadata.version] else [] := by
  unfold SchemaRegistry.versions
  rw [put, Dict.values_put_fresh metadata fresh, List.filter_append, List.map_append,
    List.filter_singleton]
  cases metadata.lists messageType <;> rfl

theorem increasing_put {registry after : SchemaRegistry} {schemaId : String}
    (fresh : registry.schemas.get schemaId = none)
    (put : after.schemas = registry.schemas.put schemaId metadata)
    (increasing : registry.Increasing) :
    after.Increasing ↔ ∀ messageType, metadata.lists messageType = true →
      ∀ schema ∈ registry.schemas.values, schema.lists messageType = true →
        schema.version < metadata.version := by
  unfold SchemaRegistry.Increasing
  refine forall_congr' fun messageType => ?_
  rw [versions_put fresh put]
  cases lists : metadata.lists messageType with
  | false =>
    rw [if_neg Bool.false_ne_true, List.append_nil]
    exact iff_of_true (increasing messageType) fun listed => absurd listed Bool.false_ne_true
  | true =>
    rw [if_pos rfl, List.pairwise_append, forall_prop_of_true rfl]
    unfold SchemaRegistry.versions
    constructor
    · rintro ⟨-, -, below⟩ schema member lists
      exact below schema.version (List.mem_map_of_mem (List.mem_filter.mpr ⟨member, lists⟩))
        metadata.version (List.mem_singleton_self _)
    · intro below
      refine ⟨increasing messageType, List.pairwise_singleton _ _,
        fun version member other new => ?_⟩
      obtain ⟨schema, there, rfl⟩ := List.mem_map.mp member
      obtain ⟨registered, lists⟩ := List.mem_filter.mp there
      rw [List.mem_singleton.mp new]
      exact below schema registered lists

/-- The version of a new schema is above those of its types exactly if the highest active one is
the highest of them and can be counted on. -/
theorem above_iff (coherent : Coherent session) (types : metadata.messageTypes = messageTypes)
    (next : metadata.version = session.registry.getNextVersion messageTypes) :
    (∀ messageType, metadata.lists messageType = true →
      ∀ schema ∈ session.registry.schemas.values, schema.lists messageType = true →
        schema.version < metadata.version) ↔
      session.registry.maxVersion messageTypes < u32Max ∧
        ∀ messageType ∈ messageTypes, ∀ schema ∈ session.registry.schemas.values,
          schema.lists messageType = true →
            schema.version ≤ session.registry.maxVersion messageTypes := by
  have listed : ∀ messageType, metadata.lists messageType = true ↔ messageType ∈ messageTypes := by
    intro messageType
    unfold SchemaMetadata.lists
    rw [types, List.contains_iff_mem]
  have bound : metadata.version ≤ u32Max := by
    rw [next]
    exact Nat.le_of_lt_succ (Nat.mod_lt _ (Nat.succ_pos u32Max))
  have small : metadata.version ≤ session.registry.maxVersion messageTypes + 1 := by
    rw [next]
    exact Nat.mod_le _ _
  simp only [listed]
  constructor
  · intro below
    refine ⟨?_, fun messageType member schema registered lists => ?_⟩
    · rcases session.registry.maxVersion_attained messageTypes with zero | ⟨messageType, member,
        active⟩
      · rw [zero]
        decide
      · -- The highest active version is that of a schema, which has a version below the new one.
        obtain ⟨schemaId, asked⟩ := coherent.asked messageType _ active
        obtain ⟨schema, there, lists, its⟩ := coherent.pointed messageType schemaId asked
        have same := Option.some.inj (active.symm.trans its)
        have less := below messageType member schema (Dict.mem_values.mpr ⟨schemaId, there⟩) lists
        omega
    · have less := below messageType member schema registered lists
      omega
  · rintro ⟨countable, highest⟩ messageType member schema registered lists
    have exactly_ : metadata.version = session.registry.maxVersion messageTypes + 1 := by
      rw [next]
      exact Nat.mod_eq_of_lt (Nat.succ_lt_succ countable)
    have below := highest messageType member schema registered lists
    omega

theorem coherent_register (coherent : Coherent session)
    (apart : RegistersApart session (generateSchemaId schemaContent) messageTypes) :
    Coherent (session.register iteration generateSchemaId schemaContent schemaType messageTypes
      compatibility nowSecs) := by
  unfold RegistersApart at apart
  cases there : session.registry.schemas.get (generateSchemaId schemaContent) with
  | some existing =>
    rw [there] at apart
    rw [register_there coherent there]
    refine ⟨coherent.keyed, fun messageType schemaId asked => ?_,
      fun messageType version active => ?_, coherent.dead⟩
    · exact coherent.pointed messageType schemaId ((last_putAll apart messageType).symm.trans asked)
    · obtain ⟨schemaId, asked⟩ := coherent.asked messageType version active
      exact ⟨schemaId, (last_putAll apart messageType).trans asked⟩
  | none =>
    obtain ⟨metadata, its, types, -, schemas, active, last, dead⟩ :=
      @register_fresh iteration generateSchemaId session schemaContent schemaType messageTypes
        compatibility nowSecs there
    have older : ∀ {schemaId schema}, session.registry.schemas.get schemaId = some schema →
        schemaId ≠ generateSchemaId schemaContent := by
      intro schemaId schema found same
      rw [same, there] at found
      cases found
    constructor
    · intro schemaId schema found
      rw [schemas] at found
      exact (Dict.forall_put coherent.keyed).mpr its schemaId schema found
    · intro messageType schemaId asked
      rw [last, Dict.get_putAll] at asked
      rw [active, schemas]
      split at asked
      · next member =>
        cases asked
        refine ⟨metadata, Dict.get_put_self _ _ _, ?_, by rw [Dict.get_putAll, if_pos member]⟩
        unfold SchemaMetadata.lists
        rw [types]
        exact List.contains_iff_mem.mpr member
      · next absent =>
        obtain ⟨schema, found, lists, its⟩ := coherent.pointed messageType schemaId asked
        refine ⟨schema, Dict.get_put_eq_some.mpr (.inr ⟨older found, found⟩), lists, ?_⟩
        rw [Dict.get_putAll, if_neg absent]
        exact its
    · intro messageType version given
      rw [active, Dict.get_putAll] at given
      rw [last, Dict.get_putAll]
      split at given
      · next member => exact ⟨_, if_pos member⟩
      · next absent =>
        obtain ⟨schemaId, asked⟩ := coherent.asked messageType version given
        exact ⟨schemaId, (if_neg absent).trans asked⟩
    · intro schemaId off
      rw [dead] at off
      obtain ⟨schema, found⟩ := coherent.dead schemaId off
      rw [schemas]
      exact ⟨schema, Dict.get_put_eq_some.mpr (.inr ⟨older found, found⟩)⟩

theorem identified_register (coherent : Coherent session)
    (identified : Identified iteration session) :
    Identified iteration (session.register iteration generateSchemaId schemaContent schemaType
        messageTypes compatibility nowSecs) ↔
      RegistersApart session (generateSchemaId schemaContent) messageTypes := by
  obtain ⟨increasing, alive⟩ := (identified_iff coherent).mp identified
  constructor
  · intro after
    unfold RegistersApart
    cases there : session.registry.schemas.get (generateSchemaId schemaContent) with
    | some existing =>
      -- The active schemas are those from before the call.
      intro messageType member
      have latest := after.latest messageType
      rw [register_there coherent there] at latest
      dsimp only at latest
      rw [identified.latest messageType, Dict.get_putAll, if_pos member] at latest
      exact latest
    | none =>
      obtain ⟨metadata, -, types, next, schemas, -⟩ :=
        @register_fresh iteration generateSchemaId session schemaContent schemaType messageTypes
          compatibility nowSecs there
      exact (above_iff coherent types next).mp
        ((increasing_put there schemas increasing).mp after.increasing)
  · intro apart
    refine (identified_iff (coherent_register coherent apart)).mpr ?_
    unfold RegistersApart at apart
    cases there : session.registry.schemas.get (generateSchemaId schemaContent) with
    | some existing =>
      rw [there] at apart
      rw [register_there coherent there]
      refine ⟨increasing, fun messageType schemaId asked => ?_⟩
      exact alive messageType schemaId ((last_putAll apart messageType).symm.trans asked)
    | none =>
      rw [there] at apart
      obtain ⟨metadata, -, types, next, schemas, -, last, dead⟩ :=
        @register_fresh iteration generateSchemaId session schemaContent schemaType messageTypes
          compatibility nowSecs there
      refine ⟨(increasing_put there schemas increasing).mpr
        ((above_iff coherent types next).mpr apart), fun messageType schemaId asked => ?_⟩
      rw [dead]
      rw [last, Dict.get_putAll] at asked
      split at asked
      · cases asked
        intro off
        obtain ⟨schema, found⟩ := coherent.dead _ off
        cases there.symm.trans found
      · exact alive messageType schemaId asked

end Registration

/-! ### Activation and deactivation -/

section Rollback

variable {schemaId : String}

/-- An activation finds no schema or writes the one it finds. -/
theorem activate_cases (session : Session) (messageType : String) (version : Nat) :
    (∀ schema ∈ session.registry.schemas.values,
        ¬schema.answers messageType version = true) ∧
        session.activate iteration messageType version = session ∨
      ∃ schema ∈ session.registry.schemas.values, schema.answers messageType version = true ∧
        let after := session.activate iteration messageType version
        after.registry.schemas = session.registry.schemas ∧
          after.registry.activeSchemas = session.registry.activeSchemas.put messageType version ∧
          after.last = session.last.put messageType schema.schemaId ∧
          after.deactivated = session.deactivated := by
  unfold Session.activate Session.lastActivated SchemaRegistry.activateVersion
  dsimp only
  cases found : session.registered messageType version with
  | none =>
    have absent := List.find?_eq_none.mp found
    rw [SchemaRegistry.search_eq_none.mpr absent]
    exact .inl ⟨absent, rfl⟩
  | some schema =>
    have member := List.mem_of_find?_eq_some found
    have answers : schema.answers messageType version = true := by
      simpa using List.find?_some found
    cases met : session.registry.search iteration messageType version with
    | none => exact absurd answers (SchemaRegistry.search_eq_none.mp met schema member)
    | some other => exact .inr ⟨schema, member, answers, rfl, rfl, rfl, rfl⟩

theorem coherent_activate (coherent : Coherent session) (messageType : String) (version : Nat) :
    Coherent (session.activate iteration messageType version) := by
  rcases @activate_cases iteration session messageType version with
    ⟨-, same⟩ | ⟨schema, member, answers, schemas, active, last, dead⟩
  · rw [same]
    exact coherent
  · obtain ⟨lists, its⟩ := (SchemaRegistry.answers_iff schema messageType version).mp answers
    constructor
    · rw [schemas]
      exact coherent.keyed
    · intro other schemaId asked
      rw [last, Dict.get_put] at asked
      rw [schemas, active, Dict.get_put]
      split at asked
      · next here =>
        cases asked
        rw [here, if_pos rfl, ← its]
        exact ⟨schema, coherent.get_of_mem member, lists, rfl⟩
      · next elsewhere =>
        rw [if_neg elsewhere]
        exact coherent.pointed other schemaId asked
    · intro other otherVersion given
      rw [active, Dict.get_put] at given
      rw [last, Dict.get_put]
      split at given
      · next here => exact ⟨_, if_pos here⟩
      · next elsewhere =>
        obtain ⟨schemaId, asked⟩ := coherent.asked other otherVersion given
        exact ⟨schemaId, (if_neg elsewhere).trans asked⟩
    · rw [dead, schemas]
      exact coherent.dead

theorem identified_activate (coherent : Coherent session)
    (identified : Identified iteration session) (messageType : String) (version : Nat) :
    Identified iteration (session.activate iteration messageType version) ↔
      ∀ schema ∈ session.registry.schemas.values, schema.answers messageType version = true →
        schema.schemaId ∉ session.deactivated := by
  obtain ⟨increasing, alive⟩ := (identified_iff coherent).mp identified
  rcases @activate_cases iteration session messageType version with
    ⟨absent, same⟩ | ⟨schema, member, answers, schemas, -, last, dead⟩
  · rw [same]
    exact iff_of_true identified fun schema member answers => absurd answers (absent schema member)
  · rw [identified_iff (coherent_activate coherent messageType version), dead, last]
    constructor
    · rintro ⟨-, alive⟩ other there its
      rw [increasing.unique there member its answers]
      exact alive messageType schema.schemaId (Dict.get_put_self _ _ _)
    · intro living
      refine ⟨?_, fun other schemaId asked => ?_⟩
      · unfold SchemaRegistry.Increasing SchemaRegistry.versions
        rw [schemas]
        exact increasing
      · obtain ⟨rfl, rfl⟩ | ⟨-, before⟩ := Dict.get_put_eq_some.mp asked
        · exact living schema member answers
        · exact alive other schemaId before

/-- A deactivation finds no schema or writes the one it finds. -/
theorem deactivate_cases (session : Session) (schemaId : String) :
    session.registry.schemas.get schemaId = none ∧ session.deactivate schemaId = session ∨
      ∃ schema, session.registry.schemas.get schemaId = some schema ∧
        let after := session.deactivate schemaId
        after.registry.schemas =
            session.registry.schemas.put schemaId { schema with isActive := false } ∧
          after.registry.activeSchemas = session.registry.activeSchemas ∧
          after.last = session.last ∧
          after.deactivated = schemaId :: session.deactivated := by
  unfold Session.deactivate SchemaRegistry.deactivateSchema
  dsimp only
  cases there : session.registry.schemas.get schemaId with
  | none => exact .inl ⟨rfl, rfl⟩
  | some schema => exact .inr ⟨schema, rfl, rfl, rfl, rfl, rfl⟩

theorem versions_mark {registry after : SchemaRegistry} {schemaId : String}
    (there : registry.schemas.get schemaId = some schema)
    (put : after.schemas = registry.schemas.put schemaId { schema with isActive := false })
    (messageType : String) : after.versions messageType = registry.versions messageType := by
  obtain ⟨front, back, before, marked⟩ :=
    Dict.values_put_there there { schema with isActive := false }
  have lists : SchemaMetadata.lists { schema with isActive := false } messageType =
      schema.lists messageType := rfl
  unfold SchemaRegistry.versions
  rw [put, marked, before]
  simp only [List.filter_append, List.filter_cons, lists, List.map_append]
  cases schema.lists messageType <;> rfl

theorem coherent_deactivate (coherent : Coherent session) (schemaId : String) :
    Coherent (session.deactivate schemaId) := by
  rcases deactivate_cases session schemaId with
    ⟨-, same⟩ | ⟨schema, there, schemas, active, last, dead⟩
  · rw [same]
    exact coherent
  · have found : ∀ otherId other, session.registry.schemas.get otherId = some other →
        ∃ after, (session.registry.schemas.put schemaId { schema with isActive := false }).get
          otherId = some after ∧ after.messageTypes = other.messageTypes ∧
            after.version = other.version := by
      intro otherId other its
      rw [Dict.get_put]
      by_cases here : otherId = schemaId
      · rw [if_pos here]
        rw [here, there] at its
        cases its
        exact ⟨_, rfl, rfl, rfl⟩
      · rw [if_neg here]
        exact ⟨other, its, rfl, rfl⟩
    constructor
    · intro otherId other its
      rw [schemas, Dict.get_put] at its
      split at its
      · next here =>
        cases its
        exact (coherent.keyed schemaId schema there).trans here.symm
      · exact coherent.keyed otherId other its
    · intro messageType otherId asked
      rw [last] at asked
      obtain ⟨other, its, lists, version⟩ := coherent.pointed messageType otherId asked
      obtain ⟨after, kept, types, same⟩ := found otherId other its
      rw [schemas, active]
      refine ⟨after, kept, ?_, by rw [same]; exact version⟩
      unfold SchemaMetadata.lists at lists ⊢
      rw [types]
      exact lists
    · rw [active, last]
      exact coherent.asked
    · intro otherId off
      rw [dead] at off
      rw [schemas]
      rcases List.mem_cons.mp off with rfl | earlier
      · exact ⟨_, by rw [Dict.get_put, if_pos rfl]⟩
      · obtain ⟨other, its⟩ := coherent.dead otherId earlier
        obtain ⟨after, kept, -⟩ := found otherId other its
        exact ⟨after, kept⟩

theorem identified_deactivate (coherent : Coherent session)
    (identified : Identified iteration session) (schemaId : String) :
    Identified iteration (session.deactivate schemaId) ↔ schemaId ∉ session.last.values := by
  obtain ⟨increasing, alive⟩ := (identified_iff coherent).mp identified
  rcases deactivate_cases session schemaId with
    ⟨absent, same⟩ | ⟨schema, there, schemas, -, last, dead⟩
  · rw [same]
    refine iff_of_true identified fun member => ?_
    obtain ⟨messageType, asked⟩ := Dict.mem_values.mp member
    obtain ⟨schema, found, -⟩ := coherent.pointed messageType schemaId asked
    cases absent.symm.trans found
  · rw [identified_iff (coherent_deactivate coherent schemaId), last, dead]
    constructor
    · rintro ⟨-, living⟩ member
      obtain ⟨messageType, asked⟩ := Dict.mem_values.mp member
      exact living messageType schemaId asked List.mem_cons_self
    · intro unasked
      refine ⟨?_, fun messageType otherId asked off => ?_⟩
      · unfold SchemaRegistry.Increasing
        intro messageType
        rw [versions_mark there schemas messageType]
        exact increasing messageType
      · rcases List.mem_cons.mp off with rfl | earlier
        · exact unasked (Dict.mem_values.mpr ⟨messageType, asked⟩)
        · exact alive messageType otherId asked earlier

end Rollback

/-! ### Whole runs -/

/-- Names that stay apart keep the registry coherent. -/
theorem coherent_step (coherent : Coherent session)
    (apart : Distinguished generateSchemaId session call)
    (taken : step iteration generateSchemaId session call = some next) : Coherent next := by
  cases call with
  | register =>
    cases taken
    exact coherent_register coherent apart
  | activate messageType version =>
    cases taken
    exact coherent_activate coherent messageType version
  | deactivate schemaId =>
    cases taken
    exact coherent_deactivate coherent schemaId

/-- One call keeps the identification exactly when it tells names apart. -/
theorem identified_step (coherent : Coherent session) (identified : Identified iteration session)
    (taken : step iteration generateSchemaId session call = some next) :
    Identified iteration next ↔ Distinguished generateSchemaId session call := by
  cases call with
  | register =>
    cases taken
    exact identified_register coherent identified
  | activate messageType version =>
    cases taken
    exact identified_activate coherent identified messageType version
  | deactivate schemaId =>
    cases taken
    exact identified_deactivate coherent identified schemaId

/-- Along every run on a new registry versions identify schemas and the active schema is the one
last asked for if and only if every call keeps the schemas apart. -/
theorem identified_iff_distinguished (iteration : Iteration) (generateSchemaId : String → String)
    (calls : List RegistryCall) :
    Always (step iteration generateSchemaId) (Identified iteration) .start calls ↔
      Guarded (step iteration generateSchemaId) (Distinguished generateSchemaId) .start calls := by
  have coherent : Coherent .start :=
    ⟨fun _ schema found => absurd found (Option.some_ne_none schema).symm,
      fun _ schemaId asked => absurd asked (Option.some_ne_none schemaId).symm,
      fun _ version active => absurd active (Option.some_ne_none version).symm,
      fun _ off => absurd off List.not_mem_nil⟩
  have identified : Identified iteration .start :=
    (identified_iff coherent).mpr ⟨fun _ => List.Pairwise.nil,
      fun _ schemaId asked => absurd asked (Option.some_ne_none schemaId).symm⟩
  exact @always_iff_guarded_of _ _ (step iteration generateSchemaId) Coherent
    (Identified iteration) (fun _ _ => True) (Distinguished generateSchemaId)
    (fun _ _ _ coherent _ _ apart taken => coherent_step coherent apart taken)
    (fun _ _ _ coherent identified _ taken => identified_step coherent identified taken)
    .start coherent identified calls (guarded_of_forall (fun _ _ => trivial) _)

/-- Two versions of a schema, a return to the first, and a third version. -/
def rolledBack : List RegistryCall :=
  [.register "table Order { price: double; }" "flatbuffer" ["Order"] none 1,
    .register "table Order { price: double; quantity: double; }" "flatbuffer" ["Order"] none 2,
    .activate "Order" 1,
    .register "table Order { price: double; side: byte; }" "flatbuffer" ["Order"] none 3]

/-- After a return to the first version the second one is given out again. -/
theorem rollback_repeats_version : ¬∀ (iteration : Iteration) (generateSchemaId : String → String),
    Function.Injective generateSchemaId → ∀ calls : List RegistryCall,
      Always (step iteration generateSchemaId) (Identified iteration) .start calls := by
  intro claim
  refine @not_always_of_view _ _ (step ⟨id, List.Perm.refl⟩ id) _
    (fun session => session.registry.versions "Order") [1, 2, 2] (Identified ⟨id, List.Perm.refl⟩)
    .start rolledBack (by decide +kernel) ?_
    (claim ⟨id, List.Perm.refl⟩ id Function.injective_id rolledBack)
  intro final seen identified
  have growing := identified.increasing "Order"
  rw [seen] at growing
  exact absurd growing (by decide)

end Runs

end SchemaVersions

end TradingBot.Analytics
