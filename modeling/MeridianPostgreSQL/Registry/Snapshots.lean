import Mathlib.Data.Prod.Lex
import MeridianPostgreSQL.Json

/-! # Registry snapshots and their rows

The row of a tenant and scope stores a whole snapshot with checksums. A row
that decodes at all decodes to the snapshot that was stored. -/

namespace MeridianPostgreSQL.Registry

/-! ## Schemas -/

/-- A reference with an exact version. -/
structure SchemaReference where
  catalog : String
  namespaceName : String
  name : String
  version : String
deriving DecidableEq

inductive SchemaStatus where
  | published
  | deprecated
deriving DecidableEq

structure PublishedSchema (Document : Type) where
  document : Document
  status : SchemaStatus
  publishedAt : String
  deprecatedAt : Option String

structure RegistrySnapshot (Document : Type) where
  revision : Int
  fingerprint : String
  schemas : List (PublishedSchema Document)

/-- What the registry takes from the released semantics, from the clock's text
form and from the `jsonb` column. A snapshot's dictionary shows its
fingerprint, and a publication is determined by its dictionary and address. -/
structure Semantics (Document Report Version : Type) where
  reference : Document → SchemaReference
  fingerprint : Document → String
  validate : Document → Bool
  fromDefinition : SchemaReference → Json → Option Document
  parseReference : Json → Option SchemaReference
  referenceDict : SchemaReference → Json
  publicationDict : PublishedSchema Document → Json
  snapshotDict : RegistrySnapshot Document → Json.Object
  parseStatus : Json → Option SchemaStatus
  parseVersion : String → Version
  classifyCompatibility : Document → Document → Report
  breaking : Report → Bool
  sha256Fingerprint : Json → String
  offsetAware : String → Bool
  stamp : Int → String
  column : Json.Column
  collisionFree : ∀ left right, sha256Fingerprint left = sha256Fingerprint right →
    left.canonical = right.canonical
  dict_fingerprint : ∀ snapshot,
    Json.get (snapshotDict snapshot) "fingerprint" = some (.string snapshot.fingerprint)
  dict_names : ∀ snapshot, (Json.names (snapshotDict snapshot)).Nodup ∧
    "references" ∉ Json.names (snapshotDict snapshot)
  dict_faithful : ∀ left right,
    (publicationDict left).canonical = (publicationDict right).canonical →
    (referenceDict (reference left.document)).python =
      (referenceDict (reference right.document)).python → left = right

section Codec

variable {Document Report Version : Type} [LinearOrder Version]
  (semantics : Semantics Document Report Version)

def PublishedSchema.ref (item : PublishedSchema Document) : SchemaReference :=
  semantics.reference item.document

def PublishedSchema.version (item : PublishedSchema Document) : Version :=
  semantics.parseVersion (item.ref semantics).version

/-! ## Snapshots -/

/-- Publications are sorted by catalog, namespace, name and version. -/
def sortKey (item : PublishedSchema Document) :
    String ×ₗ String ×ₗ String ×ₗ Version :=
  toLex ((item.ref semantics).catalog, toLex ((item.ref semantics).namespaceName,
    toLex ((item.ref semantics).name, item.version semantics)))

def precedes (left right : PublishedSchema Document) : Bool :=
  sortKey semantics left ≤ sortKey semantics right

/-- The dictionary a snapshot's fingerprint is taken of. -/
def fingerprinted (revision : Int) (ordered : List (PublishedSchema Document)) :
    Json.Object :=
  [("revision", .int revision),
    ("schemas", .array (ordered.map semantics.publicationDict)),
    ("resources", .array [])]

/-- `_snapshot` -/
def snapshotOf (revision : Int) (schemas : List (PublishedSchema Document)) :
    RegistrySnapshot Document :=
  let ordered := schemas.mergeSort (precedes semantics)
  ⟨revision, semantics.sha256Fingerprint (.object (fingerprinted semantics revision ordered)),
    ordered⟩

/-- `_payload` -/
def payload (snapshot : RegistrySnapshot Document) : Json.Object :=
  semantics.snapshotDict snapshot ++ [("references",
    .array (snapshot.schemas.map fun item =>
      semantics.referenceDict (item.ref semantics)))]

/-! ## Rows -/

structure RegistryRow where
  revision : Int
  fingerprint : String
  payload : Json

/-- The row `_write` stores. -/
def storedRow (snapshot : RegistrySnapshot Document) : RegistryRow where
  revision := snapshot.revision
  fingerprint := semantics.sha256Fingerprint (.object (payload semantics snapshot))
  payload := .object (payload semantics snapshot)

/-- A timestamp of an entry: null, or text with an offset. -/
def readTimestamp (members : Json.Object) (name : String) : Option (Option String) :=
  match Json.get members name with
  | some .null => some none
  | some (.string text) => if semantics.offsetAware text then some (some text) else none
  | _ => none

/-- One entry of the payload with its address. -/
def readPublication (catalogs : List String) (entry address : Json) :
    Option (PublishedSchema Document) :=
  match entry with
  | .object members => do
      let definition ← Json.get members "schema"
      let reference ← semantics.parseReference address
      let parsed ← semantics.fromDefinition reference definition
      if (semantics.reference parsed).catalog ∉ catalogs then none
      else if semantics.validate parsed = false then none
      else
        let status ← (Json.get members "status").bind semantics.parseStatus
        let publishedAt ← readTimestamp semantics members "publishedAt"
        let deprecatedAt ← readTimestamp semantics members "deprecatedAt"
        match publishedAt with
        | none => none
        | some published =>
            let publication : PublishedSchema Document :=
              ⟨parsed, status, published, deprecatedAt⟩
            if published = "" then none
            else if decide (status = .deprecated) ≠ deprecatedAt.isSome then none
            else if Json.equals (semantics.publicationDict publication) entry = false ∨
                Json.equals (semantics.referenceDict reference) address = false then none
            else some publication
  | _ => none

def payloadFields : List String :=
  ["revision", "fingerprint", "schemas", "resources", "references"]

/-- The row a reader accepts, as `_read` decodes it. -/
def decodeRow (catalogs : List String) (row : RegistryRow) :
    Option (RegistrySnapshot Document) :=
  match semantics.column.load row.payload with
  | .object members =>
      if row.revision < 0 then none
      else if ¬ (Json.names members).Perm payloadFields then none
      else
        match Json.get members "schemas", Json.get members "references" with
        | some (.array entries), some (.array addresses) =>
            if entries.length ≠ addresses.length then none
            else do
              let publications ← (entries.zip addresses).mapM fun pair =>
                readPublication semantics catalogs pair.1 pair.2
              let snapshot := snapshotOf semantics row.revision publications
              if (publications.map (PublishedSchema.ref semantics)).Nodup ∧
                  Json.equals (.object (payload semantics snapshot))
                    (.object members) = true ∧
                  semantics.sha256Fingerprint (.object members) = row.fingerprint then
                some snapshot
              else none
        | _, _ => none
  | _ => none

/-! ## Round trips -/

variable {semantics} {catalogs : List String} {row : RegistryRow}
  {snapshot : RegistrySnapshot Document}

/-- What an accepted row passed. -/
structure Decoded (semantics : Semantics Document Report Version) (row : RegistryRow)
    (snapshot : RegistrySnapshot Document) : Prop where
  ordered : ∃ publications, snapshot = snapshotOf semantics row.revision publications
  nonnegative : 0 ≤ row.revision
  distinct : (snapshot.schemas.map (PublishedSchema.ref semantics)).Nodup
  matched : (Json.object (payload semantics snapshot)).python = row.payload.python

theorem column_python (column : Json.Column) (value : Json) :
    (column.load value).python = value.python := by
  rw [Json.python, column.load_jsonb, Json.python]

theorem decodeRow_decoded (decodes : decodeRow semantics catalogs row = some snapshot) :
    Decoded semantics row snapshot := by
  unfold decodeRow at decodes
  split at decodes
  · rename_i members loaded
    split at decodes
    · exact nomatch decodes
    · rename_i nonnegative
      split at decodes
      · exact nomatch decodes
      · split at decodes
        · rename_i entries addresses _ _
          split at decodes
          · exact nomatch decodes
          · rcases Option.bind_eq_some_iff.mp decodes with ⟨publications, _, accepted⟩
            dsimp only at accepted
            split at accepted
            · rename_i checks
              rcases checks with ⟨distinct, equal, _⟩
              cases accepted
              refine ⟨⟨publications, rfl⟩, by omega, ?_, ?_⟩
              · exact ((List.mergeSort_perm publications _).map _).nodup_iff.mpr distinct
              · have same := of_decide_eq_true equal
                rw [same, ← loaded, column_python]
            · exact nomatch accepted
        · exact nomatch decodes
  · exact nomatch decodes

omit [LinearOrder Version] in
theorem payload_names (snapshot : RegistrySnapshot Document) :
    (Json.names (payload semantics snapshot)).Nodup := by
  rcases semantics.dict_names snapshot with ⟨distinct, absent⟩
  rw [payload, Json.names, List.map_append]
  apply distinct.append (List.nodup_singleton _)
  intro name member single
  cases List.mem_singleton.mp single
  exact absent member

omit [LinearOrder Version] in
theorem payload_fingerprint (snapshot : RegistrySnapshot Document) :
    Json.get (payload semantics snapshot) "fingerprint" =
      some (.string snapshot.fingerprint) := by
  rw [payload, Json.get, List.lookup_append]
  have shown := semantics.dict_fingerprint snapshot
  rw [Json.get] at shown
  rw [shown, Option.some_or]

omit [LinearOrder Version] in
theorem payload_references (snapshot : RegistrySnapshot Document) :
    Json.get (payload semantics snapshot) "references" =
      some (.array (snapshot.schemas.map fun item =>
        semantics.referenceDict (item.ref semantics))) := by
  rw [Json.get_eq_some_iff (payload_names snapshot), payload]
  simp

omit [LinearOrder Version] in
/-- The dictionaries that a fingerprint and the payload show determine the
publications. -/
theorem publications_eq {left right : List (PublishedSchema Document)}
    (dicts : (left.map semantics.publicationDict).map Json.canonical =
      (right.map semantics.publicationDict).map Json.canonical)
    (addresses : (left.map fun item =>
        (semantics.referenceDict (item.ref semantics)).python) =
      right.map fun item => (semantics.referenceDict (item.ref semantics)).python) :
    left = right := by
  induction left generalizing right with
  | nil =>
      cases right with
      | nil => rfl
      | cons item rest => simp at dicts
  | cons item rest induction =>
      cases right with
      | nil => simp at dicts
      | cons other others =>
          simp only [List.map_cons, List.cons.injEq] at dicts addresses
          rw [semantics.dict_faithful item other dicts.1 addresses.1,
            induction dicts.2 addresses.2]

omit [LinearOrder Version] in
theorem fingerprinted_names (revision : Int) (ordered : List (PublishedSchema Document)) :
    (Json.names (fingerprinted semantics revision ordered)).Nodup := by
  simp [fingerprinted, Json.names]

omit [LinearOrder Version] in
/-- Equal fingerprints come of equal revisions and publication dictionaries. -/
theorem fingerprinted_eq {first second : Int}
    {left right : List (PublishedSchema Document)}
    (equal : semantics.sha256Fingerprint (.object (fingerprinted semantics first left)) =
      semantics.sha256Fingerprint (.object (fingerprinted semantics second right))) :
    first = second ∧ (left.map semantics.publicationDict).map Json.canonical =
      (right.map semantics.publicationDict).map Json.canonical := by
  have same := semantics.collisionFree _ _ equal
  have members := Json.get_of_normalize id same (fingerprinted_names first left)
    (fingerprinted_names second right)
  have revisions : some (Json.int first) = some (Json.int second) := members "revision"
  have schemas := members "schemas"
  have shown : ∀ revision (ordered : List (PublishedSchema Document)),
      Json.get (fingerprinted semantics revision ordered) "schemas" =
        some (.array (ordered.map semantics.publicationDict)) := fun _ _ => rfl
  rw [shown, shown] at schemas
  simp only [Option.map_some, Option.some.injEq, Json.normalize, Json.array.injEq,
    Json.normalizeItems_eq] at schemas
  simp only [Option.some.injEq, Json.int.injEq] at revisions
  exact ⟨revisions, schemas⟩

/-- Snapshots whose payloads Python cannot tell apart are the same. -/
theorem snapshotOf_eq {first second : Int}
    {left right : List (PublishedSchema Document)}
    (equal : (Json.object (payload semantics (snapshotOf semantics first left))).python =
      (Json.object (payload semantics (snapshotOf semantics second right))).python) :
    snapshotOf semantics first left = snapshotOf semantics second right := by
  have members := Json.get_of_python equal (payload_names _) (payload_names _)
  have fingerprints := members "fingerprint"
  have references := members "references"
  rw [payload_fingerprint, payload_fingerprint] at fingerprints
  rw [payload_references, payload_references] at references
  simp only [Option.map_some, Option.some.injEq, Json.python_string,
    Json.string.injEq] at fingerprints
  simp only [Option.map_some, Option.some.injEq, Json.python_array, Json.array.injEq,
    List.map_map] at references
  rcases fingerprinted_eq fingerprints with ⟨revisions, dicts⟩
  have schemas := publications_eq dicts references
  subst revisions
  simp only [snapshotOf] at schemas ⊢
  rw [schemas]

/-- A stored row decodes to the snapshot it stores, or not at all. -/
theorem decodeRow_storedRow {revision : Int}
    {publications : List (PublishedSchema Document)}
    (decodes : decodeRow semantics catalogs
      (storedRow semantics (snapshotOf semantics revision publications)) = some snapshot) :
    snapshot = snapshotOf semantics revision publications := by
  have decoded := decodeRow_decoded decodes
  rcases decoded.ordered with ⟨others, rfl⟩
  exact snapshotOf_eq decoded.matched

end Codec

end MeridianPostgreSQL.Registry
