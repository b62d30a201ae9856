import TradingBot.Foundation.Dict
import TradingBot.Foundation.MachineInt

/-!
# Schema registry

`schema_registry.rs`: schemas are registered under an id made from their content, get a version for
the message types they list, and one version of each type is active. The id of a content is a
parameter. A search through the map of the schemas meets them in any order, so that order is a
parameter too. Writing to the storage succeeds.
-/

open MachineInt

namespace TradingBot.Analytics

/-- `CompatibilityLevel`. -/
inductive CompatibilityLevel where
  | none_
  | forward
  | backward
  | full

/-- `SchemaMetadata`. -/
structure SchemaMetadata where
  schemaId : String
  version : Nat
  schemaType : String
  messageTypes : List String
  registeredAt : Nat
  compatibility : CompatibilityLevel
  isActive : Bool
  parentVersion : Option Nat
  breakingChanges : List String

/-- A schema has a version and lists a message type: the test of the searches of the registry. -/
def SchemaMetadata.answers (schema : SchemaMetadata) (messageType : String) (version : Nat) :
    Bool :=
  schema.messageTypes.contains messageType && schema.version = version

/-- The errors of `SchemaError` that a modelled function makes. -/
inductive SchemaError where
  | notFound (id : String)

/-- `RegistryStats`, without the counts that no modelled function writes. -/
structure RegistryStats where
  totalSchemas : Nat
  activeSchemas : Nat
  schemaRegistrations : Nat

/-- An order in which a hash map is gone through. -/
structure Iteration where
  order : List SchemaMetadata → List SchemaMetadata
  /-- Every value is met once. -/
  perm : ∀ values, (order values).Perm values

/-- `SchemaRegistry`, without the settings that no modelled function reads. The schemas stand in the
order of their registration. -/
structure SchemaRegistry where
  schemas : Dict String SchemaMetadata
  activeSchemas : Dict String Nat
  defaultCompatibility : CompatibilityLevel
  stats : RegistryStats

namespace SchemaRegistry

/-- `SchemaRegistry::new` on an empty directory. -/
def new : SchemaRegistry where
  schemas := .empty
  activeSchemas := .empty
  defaultCompatibility := .backward
  stats := { totalSchemas := 0, activeSchemas := 0, schemaRegistrations := 0 }

/-- The highest active version of some message types; zero without one. -/
def maxVersion (registry : SchemaRegistry) (messageTypes : List String) : Nat :=
  messageTypes.foldl (fun highest messageType =>
    match registry.activeSchemas.get messageType with
    | some version => max highest version
    | none => highest) 0

def getNextVersion (registry : SchemaRegistry) (messageTypes : List String) : Nat :=
  (registry.maxVersion messageTypes + 1) % (u32Max + 1)

variable (iteration : Iteration)

/-- The schema of the registry a search for a message type and a version finds. -/
def search (registry : SchemaRegistry) (messageType : String) (version : Nat) :
    Option SchemaMetadata :=
  (iteration.order registry.schemas.values).find? fun schema =>
    schema.answers messageType version

def getActiveSchema (registry : SchemaRegistry) (messageType : String) : Option SchemaMetadata :=
  (registry.activeSchemas.get messageType).bind fun version =>
    registry.search iteration messageType version

/-- The breaking change `check_compatibility` finds in a new schema for one message type. -/
def breakingChange (registry : SchemaRegistry) (level : CompatibilityLevel)
    (messageType : String) : Option String :=
  match registry.activeSchemas.get messageType with
  | none => none
  | some 0 => none
  | some version =>
    (registry.search iteration messageType version).bind fun previous =>
      match level with
      | .none_ => some ("No compatibility guarantee for " ++ messageType)
      | .backward | .full =>
        if previous.schemaType ≠ "flatbuffer" then
          some ("Potential breaking change in " ++ messageType ++ " (non-FlatBuffer)")
        else none
      | .forward => none

/-- `check_compatibility`, which refuses nothing. -/
def checkCompatibility (registry : SchemaRegistry) (messageTypes : List String)
    (level : CompatibilityLevel) : List String :=
  messageTypes.filterMap (registry.breakingChange iteration level)

/-- The metadata `register_schema` makes. -/
def newMetadata (registry : SchemaRegistry) (schemaId schemaType : String)
    (messageTypes : List String) (compatibility : Option CompatibilityLevel) (nowSecs : Nat) :
    SchemaMetadata :=
  let version := registry.getNextVersion messageTypes
  let level := compatibility.getD registry.defaultCompatibility
  { schemaId := schemaId
    version := version
    schemaType := schemaType
    messageTypes := messageTypes
    registeredAt := nowSecs
    compatibility := level
    isActive := true
    parentVersion := if 1 < version then some (version - 1) else none
    breakingChanges := registry.checkCompatibility iteration messageTypes level }

variable (generateSchemaId : String → String)

def registerSchema (registry : SchemaRegistry) (schemaContent schemaType : String)
    (messageTypes : List String) (compatibility : Option CompatibilityLevel) (nowSecs : Nat) :
    String × SchemaRegistry :=
  let schemaId := generateSchemaId schemaContent
  match registry.schemas.get schemaId with
  | some existing => (existing.schemaId, registry)
  | none =>
    let metadata :=
      registry.newMetadata iteration schemaId schemaType messageTypes compatibility nowSecs
    let schemas := registry.schemas.put schemaId metadata
    let active := registry.activeSchemas.putAll messageTypes metadata.version
    (schemaId, { registry with
      schemas := schemas
      activeSchemas := active
      stats := {
        schemaRegistrations := registry.stats.schemaRegistrations + 1
        totalSchemas := schemas.size
        activeSchemas := active.size } })

def deactivateSchema (registry : SchemaRegistry) (schemaId : String) :
    Except SchemaError SchemaRegistry :=
  match registry.schemas.get schemaId with
  | none => .error (.notFound schemaId)
  | some schema => .ok { registry with
      schemas := registry.schemas.put schemaId { schema with isActive := false }
      stats := { registry.stats with activeSchemas := registry.activeSchemas.size } }

def activateVersion (registry : SchemaRegistry) (messageType : String) (version : Nat) :
    Except SchemaError SchemaRegistry :=
  match registry.search iteration messageType version with
  | none => .error (.notFound ("Schema version " ++ toString version ++ " for " ++ messageType))
  | some _ =>
    let active := registry.activeSchemas.put messageType version
    .ok { registry with
      activeSchemas := active
      stats := { registry.stats with activeSchemas := active.size } }

end SchemaRegistry

end TradingBot.Analytics
