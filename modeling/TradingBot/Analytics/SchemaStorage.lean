import TradingBot.Analytics.SchemaVersions

/-!
# Schemas across restarts

The registry writes the content of a schema to its directory, after it has changed its maps. A
registry that is opened on the directory finds the ids and the contents, but not the message types,
the versions and the levels of compatibility. So neither a failed write nor a restart leaves the
schemas of any message type as they were.
-/

open Run

namespace TradingBot.Analytics

namespace SchemaStorage

/-- The errors of `SchemaError` that the storage and the check of data make. -/
inductive StorageError where
  | notFound (id : String)
  | compatibilityViolation (message : String)
  | ioError (error : String)
  | schemaMismatch (message : String)

/-- `SchemaRegistry`, with the setting that the check of data reads and with its directory: the
contents of the files with the extension `schema`, by their stems. -/
structure StoredRegistry where
  registry : SchemaRegistry
  haltOnMismatch : Bool
  storage : Dict String String

/-- The metadata that `load_from_storage` makes up for a file. -/
def loadedMetadata (schemaId : String) (compatibility : CompatibilityLevel) : SchemaMetadata where
  schemaId := schemaId
  version := 1
  schemaType := "unknown"
  messageTypes := []
  registeredAt := 0
  compatibility := compatibility
  isActive := true
  parentVersion := none
  breakingChanges := []

def loadFromStorage (registry : SchemaRegistry) (storage : Dict String String) : SchemaRegistry :=
  let schemas := storage.keys.foldl (fun schemas schemaId =>
    if schemaId = "" then schemas
    else schemas.put schemaId (loadedMetadata schemaId registry.defaultCompatibility))
    registry.schemas
  { registry with
    schemas := schemas
    stats := { registry.stats with
      totalSchemas := schemas.size
      activeSchemas := schemas.size } }

/-- `SchemaRegistry::new` on a directory with files. -/
def openOn (storage : Dict String String) (haltOnMismatch : Bool) : StoredRegistry where
  registry := loadFromStorage .new storage
  haltOnMismatch := haltOnMismatch
  storage := storage

/-- A new registry on the same directory. -/
def StoredRegistry.reopened (store : StoredRegistry) : StoredRegistry :=
  openOn store.storage store.haltOnMismatch

/-- `persist_schema`; a write that meets a fault leaves the files as they are. -/
def persistSchema (storage : Dict String String) (schemaId content : String)
    (fault : Option String) : Except StorageError (Dict String String) :=
  match fault with
  | some error => .error (.ioError error)
  | none => .ok (storage.put schemaId content)

/-- The arguments of a call of `register_schema`, the reading of the clock and what befalls its
write. -/
structure RegisterCall where
  schemaContent : String
  schemaType : String
  messageTypes : List String
  compatibility : Option CompatibilityLevel
  nowSecs : Nat
  fault : Option String

section Calls

variable (iteration : Iteration) (generateSchemaId : String → String)

/-- The registry with a new schema, before its write and the count. -/
def recorded (registry : SchemaRegistry) (call : RegisterCall) : SchemaRegistry :=
  let schemaId := generateSchemaId call.schemaContent
  let metadata := registry.newMetadata iteration schemaId call.schemaType call.messageTypes
    call.compatibility call.nowSecs
  { registry with
    schemas := registry.schemas.put schemaId metadata
    activeSchemas := registry.activeSchemas.putAll call.messageTypes metadata.version }

/-- The registry with a new schema counted. -/
def counted (registry : SchemaRegistry) : SchemaRegistry :=
  { registry with
    stats := {
      schemaRegistrations := registry.stats.schemaRegistrations + 1
      totalSchemas := registry.schemas.size
      activeSchemas := registry.activeSchemas.size } }

def registerSchema (store : StoredRegistry) (call : RegisterCall) :
    Except StorageError String × StoredRegistry :=
  let schemaId := generateSchemaId call.schemaContent
  match store.registry.schemas.get schemaId with
  | some existing => (.ok existing.schemaId, store)
  | none =>
    let changed := recorded iteration generateSchemaId store.registry call
    match persistSchema store.storage schemaId call.schemaContent call.fault with
    | .error error => (.error error, { store with registry := changed })
    | .ok storage => (.ok schemaId, { store with registry := counted changed, storage := storage })

/-- `check_data_compatibility`, without its counts. -/
def checkDataCompatibility (store : StoredRegistry) (messageType incomingSchemaId : String) :
    Except StorageError Bool :=
  let activeVersion := (store.registry.activeSchemas.get messageType).getD 0
  if activeVersion = 0 then .ok true
  else
    match store.registry.schemas.get incomingSchemaId with
    | none => .error (.notFound incomingSchemaId)
    | some incoming =>
      match incoming.compatibility with
      | .none_ =>
        if incoming.version ≠ activeVersion then
          if store.haltOnMismatch then
            .error (.schemaMismatch ("Schema version mismatch for " ++ messageType ++
              ": expected " ++ toString activeVersion ++ ", got " ++ toString incoming.version ++
              ". HALTING."))
          else
            .error (.compatibilityViolation ("Version mismatch: expected " ++
              toString activeVersion ++ ", got " ++ toString incoming.version))
        else .ok true
      | .forward | .backward | .full => .ok true

/-- A store after a call. -/
def step (store : StoredRegistry) (call : RegisterCall) : Option StoredRegistry :=
  some (registerSchema iteration generateSchemaId store call).2

/-- The id and the version of the active schema of a message type. -/
def activeOf (store : StoredRegistry) (messageType : String) : Option (String × Nat) :=
  (store.registry.getActiveSchema iteration messageType).map fun schema =>
    (schema.schemaId, schema.version)

/-- A new registry on the same directory has the same active schemas and gives the same answers on
data. -/
def Reopens (store : StoredRegistry) : Prop :=
  (∀ messageType, activeOf iteration store.reopened messageType =
    activeOf iteration store messageType) ∧
  ∀ messageType schemaId, checkDataCompatibility store.reopened messageType schemaId =
    checkDataCompatibility store messageType schemaId

/-- A registration that fails changes nothing in the registry, so that the next one with a working
write stores the content. Either way the registry survives a restart. -/
structure Survives (store : StoredRegistry) (call : RegisterCall) (next : StoredRegistry) :
    Prop where
  unchanged : (registerSchema iteration generateSchemaId store call).1.isOk = false →
    next.registry = store.registry
  repeated : (registerSchema iteration generateSchemaId store call).1.isOk = false →
    (registerSchema iteration generateSchemaId next { call with fault := none }).2.storage.get
      (generateSchemaId call.schemaContent) = some call.schemaContent
  reopens : Reopens iteration next

/-- A content that is registered for the first time lists no message type, and its write meets no
fault. -/
def Plain (store : StoredRegistry) (call : RegisterCall) : Prop :=
  store.registry.schemas.get (generateSchemaId call.schemaContent) = none →
    call.messageTypes = [] ∧ call.fault = none

end Calls

/-! ## Runs -/

section Runs

variable {iteration : Iteration} {generateSchemaId : String → String} {store : StoredRegistry}
  {call : RegisterCall}

theorem registerSchema_working (working : call.fault = none) :
    (registerSchema iteration generateSchemaId store call).1.toOption =
      some (store.registry.registerSchema iteration generateSchemaId call.schemaContent
        call.schemaType call.messageTypes call.compatibility call.nowSecs).1 ∧
    (registerSchema iteration generateSchemaId store call).2.registry =
      (store.registry.registerSchema iteration generateSchemaId call.schemaContent
        call.schemaType call.messageTypes call.compatibility call.nowSecs).2 := by
  unfold registerSchema SchemaRegistry.registerSchema persistSchema
  dsimp only
  cases store.registry.schemas.get (generateSchemaId call.schemaContent) with
  | some existing => exact ⟨rfl, rfl⟩
  | none =>
    rw [working]
    exact ⟨rfl, rfl⟩

theorem registerSchema_known {existing : SchemaMetadata}
    (known : store.registry.schemas.get (generateSchemaId call.schemaContent) = some existing) :
    registerSchema iteration generateSchemaId store call = (.ok existing.schemaId, store) := by
  unfold registerSchema
  dsimp only
  rw [known]

theorem registerSchema_failed {error : String}
    (fresh : store.registry.schemas.get (generateSchemaId call.schemaContent) = none)
    (failing : call.fault = some error) :
    registerSchema iteration generateSchemaId store call = (.error (.ioError error),
      { store with registry := recorded iteration generateSchemaId store.registry call }) := by
  unfold registerSchema persistSchema
  dsimp only
  rw [fresh, failing]

theorem registerSchema_stored
    (fresh : store.registry.schemas.get (generateSchemaId call.schemaContent) = none)
    (working : call.fault = none) :
    registerSchema iteration generateSchemaId store call =
      (.ok (generateSchemaId call.schemaContent), { store with
        registry := counted (recorded iteration generateSchemaId store.registry call)
        storage :=
          store.storage.put (generateSchemaId call.schemaContent) call.schemaContent }) := by
  unfold registerSchema persistSchema
  dsimp only
  rw [fresh, working]

/-- No message type has an active schema. -/
def Inactive (store : StoredRegistry) : Prop :=
  ∀ messageType, store.registry.activeSchemas.get messageType = none

theorem inactive_open (storage : Dict String String) (haltOnMismatch : Bool) :
    Inactive (openOn storage haltOnMismatch) := fun _ => rfl

theorem activeOf_inactive (inactive : Inactive store) (messageType : String) :
    activeOf iteration store messageType = none := by
  unfold activeOf SchemaRegistry.getActiveSchema
  rw [inactive messageType]
  rfl

theorem check_inactive (inactive : Inactive store) (messageType schemaId : String) :
    checkDataCompatibility store messageType schemaId = .ok true := by
  unfold checkDataCompatibility
  rw [inactive messageType]
  rfl

theorem reopens_inactive (inactive : Inactive store) : Reopens iteration store := by
  have opened : Inactive store.reopened := inactive_open store.storage store.haltOnMismatch
  constructor
  · intro messageType
    rw [activeOf_inactive opened, activeOf_inactive inactive]
  · intro messageType schemaId
    rw [check_inactive opened, check_inactive inactive]

theorem activeOf_recorded {registry : SchemaRegistry} {messageType : String}
    (listed : messageType ∈ call.messageTypes)
    (schemas : registry.schemas = (recorded iteration generateSchemaId store.registry call).schemas)
    (active : registry.activeSchemas =
      (recorded iteration generateSchemaId store.registry call).activeSchemas)
    {storage : Dict String String} {haltOnMismatch : Bool} :
    (activeOf iteration ⟨registry, haltOnMismatch, storage⟩ messageType).isSome = true := by
  let metadata := store.registry.newMetadata iteration (generateSchemaId call.schemaContent)
    call.schemaType call.messageTypes call.compatibility call.nowSecs
  have version : registry.activeSchemas.get messageType = some metadata.version := by
    rw [active]
    exact (Dict.get_putAll _ _ _ _).trans (if_pos listed)
  have there : metadata ∈ registry.schemas.values := by
    refine Dict.mem_values.mpr ⟨generateSchemaId call.schemaContent, ?_⟩
    rw [schemas]
    exact Dict.get_put_self _ _ metadata
  have answers : metadata.answers messageType metadata.version = true :=
    (SchemaRegistry.answers_iff metadata messageType metadata.version).mpr
      ⟨List.contains_iff_mem.mpr listed, rfl⟩
  have found : registry.search iteration messageType metadata.version ≠ none := fun missing =>
    SchemaRegistry.search_eq_none.mp missing metadata there answers
  unfold activeOf SchemaRegistry.getActiveSchema
  dsimp only
  rw [version, Option.isSome_map, Option.bind_some]
  exact Option.isSome_iff_ne_none.mpr found

theorem not_reopens {messageType : String}
    (active : (activeOf iteration store messageType).isSome = true) :
    ¬ Reopens iteration store := by
  intro reopens
  have opened : Inactive store.reopened := inactive_open store.storage store.haltOnMismatch
  have same := reopens.1 messageType
  rw [activeOf_inactive opened] at same
  rw [← same] at active
  cases active

theorem not_survives_failed {error : String}
    (known : store.registry.schemas.get (generateSchemaId call.schemaContent) = none)
    (fault : call.fault = some error) :
    ¬ Survives iteration generateSchemaId store call
      (registerSchema iteration generateSchemaId store call).2 := by
  intro survives
  have answer := @registerSchema_failed iteration generateSchemaId store call error known fault
  have same := survives.unchanged (by rw [answer]; rfl)
  rw [answer] at same
  have same : recorded iteration generateSchemaId store.registry call = store.registry := same
  have there : (recorded iteration generateSchemaId store.registry call).schemas.get
    (generateSchemaId call.schemaContent) = some _ := Dict.get_put_self _ _ _
  rw [same, known] at there
  cases there

theorem survives_stored (inactive : Inactive store)
    (known : store.registry.schemas.get (generateSchemaId call.schemaContent) = none)
    (fault : call.fault = none) (types : call.messageTypes = []) :
    Survives iteration generateSchemaId store call
        (registerSchema iteration generateSchemaId store call).2 ∧
      Inactive (registerSchema iteration generateSchemaId store call).2 := by
  have answer := @registerSchema_stored iteration generateSchemaId store call known fault
  have after : Inactive { store with
      registry := counted (recorded iteration generateSchemaId store.registry call)
      storage := store.storage.put (generateSchemaId call.schemaContent) call.schemaContent } := by
    intro messageType
    show (store.registry.activeSchemas.putAll call.messageTypes _).get messageType = none
    rw [types]
    exact inactive messageType
  rw [answer]
  refine ⟨⟨?_, ?_, reopens_inactive after⟩, after⟩
  · intro failed
    rw [answer] at failed
    cases failed
  · intro failed
    rw [answer] at failed
    cases failed

theorem survives_iff (inactive : Inactive store) (call : RegisterCall) :
    (Survives iteration generateSchemaId store call
        (registerSchema iteration generateSchemaId store call).2 ↔
      Plain generateSchemaId store call) ∧
    (Plain generateSchemaId store call →
      Inactive (registerSchema iteration generateSchemaId store call).2) := by
  cases known : store.registry.schemas.get (generateSchemaId call.schemaContent) with
  | some existing =>
    have answer := @registerSchema_known iteration generateSchemaId store call existing known
    rw [answer]
    refine ⟨iff_of_true ⟨?_, ?_, reopens_inactive inactive⟩ ?_, fun _ => inactive⟩
    · exact fun _ => rfl
    · intro failed
      rw [answer] at failed
      cases failed
    · intro fresh
      rw [known] at fresh
      cases fresh
  | none =>
    cases fault : call.fault with
    | some error =>
      have damaged : ¬ Plain generateSchemaId store call := fun plain => by
        have working := (plain known).2
        rw [fault] at working
        cases working
      exact ⟨iff_of_false (not_survives_failed known fault) damaged,
        fun plain => absurd plain damaged⟩
    | none =>
      cases types : call.messageTypes with
      | nil =>
        obtain ⟨survives, after⟩ := @survives_stored iteration generateSchemaId store call inactive
          known fault types
        exact ⟨iff_of_true survives fun _ => ⟨types, fault⟩, fun _ => after⟩
      | cons messageType others =>
        have answer := @registerSchema_stored iteration generateSchemaId store call known fault
        rw [answer]
        have listed : messageType ∈ call.messageTypes := types ▸ List.mem_cons_self
        have damaged : ¬ Plain generateSchemaId store call := fun plain => by
          have none_ := (plain known).1
          rw [types] at none_
          cases none_
        refine ⟨iff_of_false (fun survives => ?_) damaged, fun plain => absurd plain damaged⟩
        exact not_reopens (activeOf_recorded listed rfl rfl) survives.reopens

/-- Along any registrations on a registry opened on any directory, the registry survives failed
writes and restarts if and only if every new content lists no message type and its write meets no
fault. -/
theorem survives_run_iff (iteration : Iteration) (generateSchemaId : String → String)
    (storage : Dict String String) (haltOnMismatch : Bool) (calls : List RegisterCall) :
    Reopens iteration (openOn storage haltOnMismatch) ∧
        Performs (step iteration generateSchemaId) (Survives iteration generateSchemaId)
          (openOn storage haltOnMismatch) calls ↔
      Offered (step iteration generateSchemaId) (Plain generateSchemaId)
        (openOn storage haltOnMismatch) calls := by
  have inactive := inactive_open storage haltOnMismatch
  refine (and_iff_right (reopens_inactive inactive)).trans ?_
  refine @performs_iff _ _ (step iteration generateSchemaId) (fun store _ => Inactive store)
    (Survives iteration generateSchemaId) (Plain generateSchemaId) ?_ ?_ _ calls inactive
  · intro store call _ inactive
    have exact_ := (@survives_iff iteration generateSchemaId store inactive call).1
    constructor
    · rintro ⟨next, taken, survives⟩
      cases taken
      exact exact_.mp survives
    · exact fun plain => ⟨_, rfl, exact_.mpr plain⟩
  · intro store call _ next inactive taken survives
    cases taken
    obtain ⟨exact_, kept⟩ := @survives_iff iteration generateSchemaId store inactive call
    exact kept (exact_.mp survives)

end Runs

/-- The search that meets the schemas in the order of their registration. -/
def inOrder : Iteration := ⟨id, fun values => List.Perm.refl values⟩

/-- A schema of ticks. -/
def tickSchema : RegisterCall :=
  ⟨"table Tick { price: double; }", "flatbuffer", ["Tick"], some .backward, 1700000000, none⟩

/-- The schema of ticks is not active any more after a restart. -/
theorem tick_schema_lost : ¬∀ (iteration : Iteration) (generateSchemaId : String → String)
    (storage : Dict String String) (haltOnMismatch : Bool) (calls : List RegisterCall),
    Reopens iteration (openOn storage haltOnMismatch) ∧
      Performs (step iteration generateSchemaId) (Survives iteration generateSchemaId)
        (openOn storage haltOnMismatch) calls := by
  intro claim
  obtain ⟨-, next, taken, survives, -⟩ := claim inOrder id .empty true [tickSchema]
  cases taken
  have same := survives.reopens.1 "Tick"
  revert same
  decide +kernel

end SchemaStorage

end TradingBot.Analytics
