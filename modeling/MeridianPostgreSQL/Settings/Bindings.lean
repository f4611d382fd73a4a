import MeridianPostgreSQL.Foundation.Rearrangements
import MeridianPostgreSQL.Json
import MeridianPostgreSQL.Settings.CheckedLayouts

/-! # Bindings

`PostgreSQLSettings.from_binding`: the settings of a Binding, parsed from JSON. -/

namespace MeridianPostgreSQL.Bindings

open Settings

/-! ## Refusals -/

/-- Why a Binding is refused. A text begins with the path of what it is about; the
last kind names a Resource instead. -/
inductive Refusal where
  | type (text : String)
  | value (text : String)
  | members (path : String) (missing unknown : List String)
  | resource (text : String)
deriving DecidableEq

/-- The path of a part, completed by that of the whole. -/
def Refusal.under (path : String) : Refusal → Refusal
  | .type text => .type (path ++ text)
  | .value text => .value (path ++ text)
  | .members inner missing unknown => .members (path ++ inner) missing unknown
  | .resource text => .resource text

abbrev Parsed (α : Type) := Except Refusal α

def under {α : Type} (path : String) (result : Parsed α) : Parsed α :=
  result.mapError (Refusal.under path)

/-! ## Values -/

/-- `_mapping` -/
def mapping : Json → Parsed Json.Object
  | .object members => .ok members
  | _ => .error (.type " must be an object")

/-- `_sequence` -/
def sequence : Json → Parsed (List Json)
  | .array items => .ok items
  | _ => .error (.type " must be an array")

/-- `_closed` -/
def closed (required optional : List String) (value : Json) : Parsed Json.Object := do
  let members ← mapping value
  let missing := required.filter fun name => name ∉ Json.names members
  let unknown := (Json.names members).filter fun name => name ∉ required ++ optional
  if missing ≠ [] ∨ unknown ≠ [] then
    .error (.members "" (sortedBy id missing) (sortedBy id unknown))
  else .ok members

/-- A member that is required. -/
def member (members : Json.Object) (name : String) : Json := (Json.get members name).getD .null

/-- `identifier` -/
def identifier : Json → Parsed Identifier
  | .string text =>
      if valid : isIdentifier text = true then .ok ⟨text, valid⟩
      else .error (.value " must be a lower-case PostgreSQL identifier")
  | _ => .error (.value " must be a lower-case PostgreSQL identifier")

/-- `^sha256:[0-9a-f]{64}$` -/
def isSha256 (text : String) : Bool :=
  let characters := text.toList
  characters.take 7 = "sha256:".toList && (characters.drop 7).length = 64 &&
    (characters.drop 7).all fun character =>
      ('0' ≤ character && character ≤ '9') || ('a' ≤ character && character ≤ 'f')

/-- `fingerprint` -/
def fingerprint : Json → Parsed String
  | .string text =>
      if isSha256 text then .ok text else .error (.value " must be a sha256 fingerprint")
  | _ => .error (.value " must be a sha256 fingerprint")

def boolean (text : String) : Json → Parsed Bool
  | .bool value => .ok value
  | _ => .error (.type text)

/-- A name where the source expects a text. What is none is refused in any case, by
its comparison with the declared names at the latest. -/
def textOf : Json → Parsed String
  | .string text => .ok text
  | _ => .error (.type " must be a text")

/-! ## Layouts -/

def logicalTypes : List (String × LogicalType) :=
  [("boolean", .boolean), ("bytes", .bytes), ("date", .date), ("decimal", .decimal),
    ("duration", .duration), ("enum", .enum), ("float64", .float64), ("int8", .int8),
    ("int16", .int16), ("int32", .int32), ("int64", .int64), ("json", .json),
    ("objectRef", .objectRef), ("recordRef", .recordRef), ("string", .string),
    ("utcTimestamp", .utcTimestamp), ("uuid", .uuid), ("wgs84Point", .wgs84Point)]

def logicalTypeOf : Json → Parsed LogicalType
  | .string text =>
      match logicalTypes.lookup text with
      | some found => .ok found
      | none => .error (.value ".logicalType is unsupported")
  | _ => .error (.value ".logicalType is unsupported")

def cardinalityOf : Option Json → Parsed Cardinality
  | none => .ok .one
  | some (.string "one") => .ok .one
  | some (.string "many") => .ok .many
  | some _ => .error (.value ".cardinality must be one or many")

def optionalInteger (text : String) : Option Json → Parsed (Option Int)
  | none => .ok none
  | some .null => .ok none
  | some (.int value) => .ok (some value)
  | some _ => .error (.type text)

def fieldNameOf : Json → Parsed String
  | .string text =>
      if text = "" then .error (.value ".name must be non-empty") else .ok text
  | _ => .error (.value ".name must be non-empty")

/-- The precision and the scale that a logical type has. -/
def checkDecimal (kind : LogicalType) (precision scale : Option Int) : Parsed Unit :=
  if kind = .decimal then
    match precision, scale with
    | some precision, some scale =>
        if 1 ≤ precision ∧ precision ≤ 1000 ∧ 0 ≤ scale ∧ scale ≤ precision then .ok ()
        else .error (.value " decimal requires valid precision and scale")
    | _, _ => .error (.value " decimal requires valid precision and scale")
  else if precision ≠ none ∨ scale ≠ none then
    .error (.value " precision and scale are valid only for decimal")
  else .ok ()

/-- `FieldLayout.from_mapping` -/
def FieldLayout.fromJson (value : Json) : Parsed FieldLayout := do
  let item ← closed ["name", "column", "logicalType", "nullable", "mutable"]
    ["cardinality", "precision", "scale"] value
  let name ← fieldNameOf (member item "name")
  let kind ← logicalTypeOf (member item "logicalType")
  let nullable ← boolean ".nullable and mutable must be booleans" (member item "nullable")
  let changes ← boolean ".nullable and mutable must be booleans" (member item "mutable")
  let cardinality ← cardinalityOf (Json.get item "cardinality")
  let precision ← optionalInteger ".precision must be an integer" (Json.get item "precision")
  let scale ← optionalInteger ".scale must be an integer" (Json.get item "scale")
  checkDecimal kind precision scale
  let column ← under ".column" (identifier (member item "column"))
  .ok ⟨name, column, kind, nullable, changes, cardinality, precision, scale⟩

def indexKinds : List (String × IndexKind) :=
  [("btree", .btree), ("hash", .hash), ("full-text", .fullText), ("geospatial", .geospatial),
    ("relation-endpoint", .relationEndpoint), ("time-series", .timeSeries)]

def indexKindOf : Json → Parsed IndexKind
  | .string text =>
      match indexKinds.lookup text with
      | some found => .ok found
      | none => .error (.value ".kind is unsupported")
  | _ => .error (.value ".kind is unsupported")

def checkIndexFields (fields : List String) : Parsed Unit :=
  if fields = [] ∨ ¬ fields.Nodup ∨ "" ∈ fields then
    .error (.value ".fields must be non-empty and unique")
  else .ok ()

def checkUnique (unique : Bool) (kind : IndexKind) : Parsed Unit :=
  if unique = true ∧ kind ≠ .btree then
    .error (.value ".unique is supported only for btree indexes")
  else .ok ()

/-- `IndexLayout.from_mapping` -/
def IndexLayout.fromJson (value : Json) : Parsed IndexLayout := do
  let item ← closed ["name", "kind", "fields", "unique"] [] value
  let kind ← indexKindOf (member item "kind")
  let entries ← under ".fields" (sequence (member item "fields"))
  let fields ← under ".fields" (entries.mapM textOf)
  checkIndexFields fields
  let unique ← boolean ".unique must be a boolean" (member item "unique")
  checkUnique unique kind
  let name ← under ".name" (identifier (member item "name"))
  .ok ⟨name, kind, fields, unique⟩

/-- What Core keeps of a required capability. -/
structure CapabilityRequirement where
  operationContract : String
  operationVersion : String
  others : Json
deriving DecidableEq

structure ResourceDefinition where
  ref : ResourceRef
  profile : Json
  schema : Option Json
  labels : Json.Object
  requirements : List CapabilityRequirement
  requiredScope : List Json
  relatedResources : List ResourceRef
  extensions : Json.Object

/-- What the parser calls of Core. -/
structure Core where
  resourceRef : Json → Option ResourceRef
  /-- In one catalog, and from a text. -/
  resourceRefIn : String → String → Option ResourceRef
  schemaRef : Json.Object → Option Json
  requirement : Json.Object → Option CapabilityRequirement
  definition : ResourceDefinition → Option ResourceDefinition
  toDict : ResourceDefinition → Json
  fingerprint : ResourceDefinition → String

def raised {α : Type} (text : String) : Option α → Parsed α
  | some value => .ok value
  | none => .error (.resource text)

variable (core : Core)

/-- The endpoint collections of a relation, sorted. An entry that is no text is
refused: it has no order, it is no `ResourceRef`, or it is not hashable. -/
def collections (value : Json) : Parsed (List String) := do
  let entries ← sequence value
  let texts ← entries.mapM textOf
  .ok (sortedBy id texts)

def endpointFields : Json → Json → Parsed (String × String)
  | .string source, .string target =>
      if source = target then .error (.value " requires distinct source and target fields")
      else .ok (source, target)
  | _, _ => .error (.value " requires distinct source and target fields")

def checkCollections (sources targets : List String) : Parsed Unit :=
  if sources = [] ∨ targets = [] ∨ ¬ sources.Nodup ∨ ¬ targets.Nodup then
    .error (.value " endpoint collections must be non-empty and unique")
  else .ok ()

/-- `RelationLayout.from_mapping` -/
def RelationLayout.fromJson (value : Json) : Parsed RelationLayout := do
  let item ← closed
    ["sourceField", "targetField", "directed", "sourceCollections", "targetCollections"] [] value
  let fields ← endpointFields (member item "sourceField") (member item "targetField")
  let directed ← boolean ".directed must be a boolean" (member item "directed")
  let sources ← under ".sourceCollections" (collections (member item "sourceCollections"))
  let targets ← under ".targetCollections" (collections (member item "targetCollections"))
  let _ ← (sources ++ targets).mapM fun ref => raised ref (core.resourceRefIn "structured" ref)
  checkCollections sources targets
  .ok ⟨fields.1, fields.2, directed, sources, targets⟩

def optionalRelation : Json → Parsed (Option RelationLayout)
  | .null => .ok none
  | relation => (under ".relation" (RelationLayout.fromJson core relation)).map some

/-- `ResourceLayout.from_mapping` -/
def ResourceLayout.fromJson (value : Json) : Parsed ResourceLayout := do
  let item ← closed ["ref", "table", "profile", "schemaFingerprint", "resourceFingerprint",
    "fields", "identity", "indexes", "relation"] [] value
  let fieldEntries ← under ".fields" (sequence (member item "fields"))
  let fields ← fieldEntries.zipIdx.mapM fun entry =>
    under s!".fields[{entry.2}]" (FieldLayout.fromJson entry.1)
  let indexEntries ← under ".indexes" (sequence (member item "indexes"))
  let indexes ← indexEntries.zipIdx.mapM fun entry =>
    under s!".indexes[{entry.2}]" (IndexLayout.fromJson entry.1)
  let identityEntries ← under ".identity" (sequence (member item "identity"))
  let identity ← under ".identity" (identityEntries.mapM textOf)
  let ref ← raised "ref" (core.resourceRef (member item "ref"))
  let table ← under ".table" (identifier (member item "table"))
  let profile ← under ".profile" (textOf (member item "profile"))
  let schema ← under ".schemaFingerprint" (fingerprint (member item "schemaFingerprint"))
  let resource ← under ".resourceFingerprint" (fingerprint (member item "resourceFingerprint"))
  let relation ← optionalRelation core (member item "relation")
  let layout : ResourceLayout :=
    ⟨ref, table, profile, schema, resource, fields, identity, indexes, relation⟩
  layout.check.mapError .resource
  .ok layout

/-! ## Read compatibility -/

def optionalSchema : Json → Parsed (Option Json)
  | .null => .ok none
  | schema => do
      let members ← under ".schema" (mapping schema)
      (raised ".schema" (core.schemaRef members)).map some

/-- A `ResourceRef` that is written as an object. -/
def reference (path : String) (value : Json) : Parsed ResourceRef := do
  let members ← under path (mapping value)
  raised path (core.resourceRef (.object members))

def requirement (value : Json) : Parsed CapabilityRequirement := do
  let members ← under ".requirements[]" (mapping value)
  raised ".requirements[]" (core.requirement members)

/-- `_resource_definition` -/
def resourceDefinition (value : Json) : Parsed ResourceDefinition := do
  let item ← closed ["formatVersion", "ref", "profile", "schema", "labels", "requirements",
    "requiredScope", "relatedResources", "extensions"] [] value
  let ref ← reference core ".ref" (member item "ref")
  let schema ← optionalSchema core (member item "schema")
  let labels ← under ".labels" (mapping (member item "labels"))
  let requirementEntries ← under ".requirements" (sequence (member item "requirements"))
  let requirements ← requirementEntries.mapM (requirement core)
  let requiredScope ← under ".requiredScope" (sequence (member item "requiredScope"))
  let relatedEntries ← under ".relatedResources" (sequence (member item "relatedResources"))
  let related ← relatedEntries.mapM (reference core ".relatedResources[]")
  let extensions ← under ".extensions" (mapping (member item "extensions"))
  let resource ← raised "ResourceDefinition" (core.definition
    ⟨ref, member item "profile", schema, labels, requirements, requiredScope, related, extensions⟩)
  if ¬ (core.toDict resource).equals (.object item) then
    .error (.value " must use the canonical ResourceDefinition serialization")
  else .ok resource

structure ReadCompatibility where
  storedResource : ResourceDefinition
  readerResource : ResourceDefinition

/-- The first required `structured.put`, in its next version. -/
def nextPut : List CapabilityRequirement → List CapabilityRequirement
  | [] => []
  | requirement :: rest =>
      if requirement.operationContract = "meridian.structured.put" then
        { requirement with operationVersion := "2.0.0" } :: rest
      else requirement :: nextPut rest

/-- `ReadCompatibility.__post_init__` -/
def ReadCompatibility.check (proof : ReadCompatibility) : Parsed Unit :=
  let stored := proof.storedResource
  if stored.ref.catalog ≠ "structured" ∨
      stored.profile ∉ ResourceLayout.structuredProfiles.map Json.string then
    .error (.resource "read compatibility requires a structured data Resource")
  else
    match stored.requirements.find? fun requirement =>
        requirement.operationContract = "meridian.structured.put" with
    | none => .error (.resource "read compatibility requires stored structured.put 1.0.0")
    | some put =>
        if put.operationVersion ≠ "1.0.0" then
          .error (.resource "read compatibility requires stored structured.put 1.0.0")
        else if core.fingerprint { stored with requirements := nextPut stored.requirements } ≠
            core.fingerprint proof.readerResource then
          .error (.resource "read compatibility permits only structured.put 1.0.0 to 2.0.0")
        else .ok ()

/-- `ReadCompatibility.from_mapping` -/
def ReadCompatibility.fromJson (value : Json) : Parsed ReadCompatibility := do
  let item ← closed ["storedResource", "readerResource"] [] value
  let stored ← under ".storedResource" (resourceDefinition core (member item "storedResource"))
  let reader ← under ".readerResource" (resourceDefinition core (member item "readerResource"))
  ReadCompatibility.check core ⟨stored, reader⟩
  .ok ⟨stored, reader⟩

abbrev Compatibilities := List (String × ReadCompatibility)

/-- The proofs by their reader's Resource. -/
def collectProofs : List Json → Compatibilities → Parsed Compatibilities
  | [], proofs => .ok proofs
  | entry :: rest, proofs => do
      let proof ← under "readCompatibility.resources[]" (ReadCompatibility.fromJson core entry)
      let ref := proof.readerResource.ref.canonical
      if ref ∈ proofs.map Prod.fst then
        .error (.resource "read compatibility Resources must be unique")
      else collectProofs rest (proofs ++ [(ref, proof)])

/-- A reader that is not the one a layout pins, or reads outside the scope. -/
def differs (scopeKeys : List Identifier) (proofs : Compatibilities) (layout : ResourceLayout) :
    Bool :=
  match proofs.lookup layout.ref.canonical with
  | none => true
  | some proof =>
      let reader := proof.readerResource
      core.fingerprint reader ≠ layout.resourceFingerprint ||
        reader.profile ≠ .string layout.profile ||
        !reader.requiredScope.all fun key => key ∈ scopeKeys.map fun scope => .string scope.text

/-! ## Bindings -/

/-- What is read of a Binding. -/
structure Binding where
  engineProfile : String
  physicalNamespace : Json
  tlsMode : String
  requiredPhysicalFingerprint : Json
  settings : Json

/-- `PostgreSQLSettings`, with what the compilers read of it apart. -/
structure BoundSettings where
  engineProfile : String
  settings : PostgreSQLSettings
  applicationName : String
  expectedStandbys : Int
  requireTls : Bool
  readCompatibility : Compatibilities

def localProfile : String := "postgresql-postgis-local-single-primary"
def clusterProfile : String := "postgresql-postgis-cluster"

/-- The scope keys, sorted. -/
def scopeKeys (value : Json) : Parsed (List Identifier) := do
  let entries ← under "binding.settings.scopeKeys" (sequence value)
  let keys ← entries.mapM fun entry => under "binding.settings.scopeKeys[]" (identifier entry)
  let sorted := sortedBy Identifier.text keys
  if ¬ sorted.Nodup then .error (.value "scope keys must be unique") else .ok sorted

/-- The layouts, as they are listed. -/
def layouts (value : Json) : Parsed (List ResourceLayout) := do
  let entries ← under "binding.settings.resources" (sequence value)
  let layouts ← entries.zipIdx.mapM fun entry =>
    under s!"binding.settings.resources[{entry.2}]" (ResourceLayout.fromJson core entry.1)
  if layouts = [] ∨ ¬ (layouts.map fun layout => layout.ref.canonical).Nodup then
    .error (.value "resource layouts must be non-empty and unique")
  else if ¬ (layouts.map ResourceLayout.table).Nodup then
    .error (.value "resource layouts must use unique physical tables")
  else .ok layouts

def proofEntries (selected : Json.Object) : Parsed (List Json) :=
  if member selected "formatVersion" ≠ .string "meridian.postgresql.read-compatibility.v1" then
    .error (.value "readCompatibility.formatVersion is unsupported")
  else under "readCompatibility.resources" (sequence (member selected "resources"))

/-- The proofs of a read-only Binding, one for every layout. -/
def compatibility (binding : Binding) (value : Option Json) (scopeKeys : List Identifier)
    (layouts : List ResourceLayout) : Parsed Compatibilities :=
  match value with
  | none => .ok []
  | some value => do
      let _ ← under "binding.requiredPhysicalFingerprint"
        (fingerprint binding.requiredPhysicalFingerprint)
      let selected ← under "binding.settings.readCompatibility"
        (closed ["formatVersion", "resources"] [] value)
      let entries ← proofEntries selected
      let proofs ← collectProofs core entries []
      let refs := layouts.map fun layout => layout.ref.canonical
      if ¬ (proofs.map Prod.fst ⊆ refs ∧ refs ⊆ proofs.map Prod.fst) then
        .error (.value "read compatibility must cover exactly every Binding Resource")
      else if ∃ layout ∈ layouts, differs core scopeKeys proofs layout = true then
        .error (.value "read compatibility differs from the pinned layout or scope")
      else .ok proofs

/-- The standbys that the topology expects of an Engine profile. -/
def expectedStandbys (engineProfile : String) (value : Json) : Parsed Int := do
  let topology ← under "binding.settings.topology" (closed ["expectedStandbys"] [] value)
  match member topology "expectedStandbys" with
  | .int expected =>
      if expected < 0 then throw (.type "expectedStandbys must be a non-negative integer")
      else if engineProfile.endsWith "local-single-primary" ∧ expected ≠ 0 then
        throw (.value "local single-primary profile cannot expect standbys")
      else if engineProfile.endsWith "cluster" ∧ expected < 2 then
        throw (.value "cluster profile requires at least two expected standbys")
      else .ok expected
  | _ => .error (.type "expectedStandbys must be a non-negative integer")

def applicationName : Option Json → Parsed String
  | none => .ok "meridian-storage-postgresql"
  | some (.string text) =>
      if text = "" ∨ 63 < text.length then
        .error (.value "applicationName must be a bounded non-empty string")
      else .ok text
  | some _ => .error (.value "applicationName must be a bounded non-empty string")

def checkProfile (engineProfile : String) : Parsed Unit :=
  if engineProfile ∉ [localProfile, clusterProfile] then
    .error (.value ("unsupported PostgreSQL Engine profile: '" ++ engineProfile ++ "'"))
  else .ok ()

def checkFormat (format : Json) : Parsed Unit :=
  if format ≠ .string "meridian.postgresql.settings.v1" then
    .error (.value "binding.settings.formatVersion is unsupported")
  else .ok ()

/-- `PostgreSQLSettings.from_binding` -/
def fromBinding (binding : Binding) : Parsed BoundSettings := do
  checkProfile binding.engineProfile
  let raw ← under "binding.settings" (closed ["formatVersion", "scopeKeys", "resources",
    "topology"] ["applicationName", "readCompatibility"] binding.settings)
  checkFormat (member raw "formatVersion")
  let keys ← scopeKeys (member raw "scopeKeys")
  let listed ← layouts core (member raw "resources")
  let proofs ← compatibility core binding (Json.get raw "readCompatibility") keys listed
  let standbys ← expectedStandbys binding.engineProfile (member raw "topology")
  let application ← applicationName (Json.get raw "applicationName")
  let schema ← under "binding.physicalNamespace" (identifier binding.physicalNamespace)
  .ok ⟨binding.engineProfile,
    ⟨schema, keys, sortedBy (fun layout => layout.ref.canonical) listed, !proofs.isEmpty⟩,
    application, standbys, binding.tlsMode ≠ "disabled", proofs⟩

end MeridianPostgreSQL.Bindings
