import MeridianPostgreSQL.Query.Dml
import MeridianPostgreSQL.Schema.Compiler
import MeridianPostgreSQL.Settings.AcceptedBindings

/-! # Declaration order

The order in which a Binding lists its scope keys, its Resources and the endpoint
collections of its relations does not reach its settings. -/

namespace MeridianPostgreSQL.Bindings

open Settings

/-! ## Reordered settings -/

/-- The same items, in any order. -/
def Permuted (left right : Json) : Prop :=
  left = right ∨ ∃ first second, left = .array first ∧ right = .array second ∧ first.Perm second

/-- The same names in the same order, with related values. -/
abbrev RelatedMembers (related : String → Json → Json → Prop) : Json.Object → Json.Object → Prop :=
  List.Forall₂ fun first second => first.1 = second.1 ∧ related first.1 first.2 second.2

def RelatedObjects (related : String → Json → Json → Prop) (left right : Json) : Prop :=
  left = right ∨ ∃ first second, left = .object first ∧ right = .object second ∧
    RelatedMembers related first second

def relationMember (name : String) : Json → Json → Prop :=
  if name = "sourceCollections" ∨ name = "targetCollections" then Permuted else Eq

def layoutMember (name : String) : Json → Json → Prop :=
  if name = "relation" then RelatedObjects relationMember else Eq

/-- The same layouts in any order, with the collections of each in any order. -/
def ReorderedLayouts (left right : Json) : Prop :=
  left = right ∨ ∃ first middle second, left = .array first ∧ right = .array second ∧
    first.Perm middle ∧ List.Forall₂ (RelatedObjects layoutMember) middle second

def settingsMember (name : String) : Json → Json → Prop :=
  if name = "scopeKeys" then Permuted
  else if name = "resources" then ReorderedLayouts
  else Eq

/-- Bindings that differ in the order of declarations only. -/
structure Binding.Reordered (left right : Binding) : Prop where
  engineProfile : left.engineProfile = right.engineProfile
  physicalNamespace : left.physicalNamespace = right.physicalNamespace
  tlsMode : left.tlsMode = right.tlsMode
  fingerprint : left.requiredPhysicalFingerprint = right.requiredPhysicalFingerprint
  settings : RelatedObjects settingsMember left.settings right.settings

/-! ## Members -/

section Members

variable {related : String → Json → Json → Prop} {first second : Json.Object}

theorem relationMember_refl (name : String) (value : Json) : relationMember name value value := by
  unfold relationMember
  split
  · exact .inl rfl
  · rfl

theorem layoutMember_refl (name : String) (value : Json) : layoutMember name value value := by
  unfold layoutMember
  split
  · exact .inl rfl
  · rfl

theorem settingsMember_refl (name : String) (value : Json) : settingsMember name value value := by
  unfold settingsMember
  split
  · exact .inl rfl
  · split
    · exact .inl rfl
    · rfl

theorem names_related (members : RelatedMembers related first second) :
    Json.names first = Json.names second := by
  induction members with
  | nil => rfl
  | cons holds _ induction => exact congrArg₂ List.cons holds.1 induction

/-- The values of a name are related, if there are any. -/
theorem get_related (members : RelatedMembers related first second) (name : String) :
    Json.get first name = none ∧ Json.get second name = none ∨
      ∃ left right, Json.get first name = some left ∧ Json.get second name = some right ∧
        related name left right := by
  induction members with
  | nil => exact .inl ⟨rfl, rfl⟩
  | @cons one other firsts seconds holds _ induction =>
      rcases one with ⟨key, left⟩
      rcases other with ⟨_, right⟩
      obtain ⟨same, holds⟩ := holds
      dsimp only at same holds
      subst same
      unfold Json.get at induction ⊢
      rw [List.lookup_cons, List.lookup_cons]
      by_cases found : name = key
      · subst found
        exact .inr ⟨left, right, by simp, by simp, holds⟩
      · have other : (name == key) = false := by simpa using found
        rw [other]
        exact induction

theorem member_related (members : RelatedMembers related first second)
    (refl : ∀ name value, related name value value) (name : String) :
    related name (member first name) (member second name) := by
  unfold member
  rcases get_related members name with ⟨left, right⟩ | ⟨_, _, left, right, holds⟩
  · rw [left, right]
    exact refl name .null
  · rw [left, right]
    exact holds

/-- Objects of related members are closed alike. -/
theorem closed_related {left right : Json} (objects : RelatedObjects related left right)
    (refl : ∀ name value, related name value value) (required optional : List String) :
    Alike (RelatedMembers related) (closed required optional left)
      (closed required optional right) := by
  rcases objects with rfl | ⟨first, second, rfl, rfl, members⟩
  · refine (Alike.refl _).mono ?_
    rintro members _ rfl
    exact List.forall₂_same.mpr fun entry _ => ⟨rfl, refl entry.1 entry.2⟩
  · have same := names_related members
    change Alike _ (if _ then _ else _) (if _ then _ else _)
    rw [same]
    exact Alike.ite Iff.rfl (.error _ _) (.ok _ _ members)

end Members

/-! ## Layouts -/

section Layouts

variable {core : Core} {left right : Json}

theorem under_alike {α β : Type} {related : α → β → Prop} {first : Parsed α} {second : Parsed β}
    (alike : Alike related first second) (path other : String) :
    Alike related (under path first) (under other second) :=
  alike.mapError _ _

/-- What is read of every item, sorted by an injective key. -/
theorem sorted_alike {α : Type} {key : α → String} (injective : Function.Injective key)
    {parse : Json → Parsed α} {first second : List Json} (permuted : first.Perm second) :
    Alike Eq (first.mapM parse >>= fun items => .ok (sortedBy key items) : Parsed (List α))
      (second.mapM parse >>= fun items => .ok (sortedBy key items)) := by
  refine (Alike.mapM_perm permuted).bind fun items others same => ?_
  exact .ok _ _ (sortedBy_eq_of_injective injective same)

theorem collections_alike (permuted : Permuted left right) :
    Alike Eq (collections left) (collections right) := by
  rcases permuted with rfl | ⟨first, second, rfl, rfl, permuted⟩
  · exact .refl _
  · exact sorted_alike Function.injective_id permuted

theorem relation_alike (reordered : RelatedObjects relationMember left right) :
    Alike Eq (RelationLayout.fromJson core left) (RelationLayout.fromJson core right) := by
  unfold RelationLayout.fromJson
  refine (closed_related reordered relationMember_refl _ _).bind fun first second members => ?_
  have values := member_related members relationMember_refl
  have source : member first "sourceField" = member second "sourceField" := values "sourceField"
  have target : member first "targetField" = member second "targetField" := values "targetField"
  have directed : member first "directed" = member second "directed" := values "directed"
  have sources : Permuted (member first "sourceCollections") (member second "sourceCollections") :=
    values "sourceCollections"
  have targets : Permuted (member first "targetCollections") (member second "targetCollections") :=
    values "targetCollections"
  rw [source, target, directed]
  refine Alike.bind_eq (.refl _) fun fields => ?_
  refine Alike.bind_eq (.refl _) fun directed => ?_
  refine Alike.bind_eq (under_alike (collections_alike sources) _ _) fun sources => ?_
  refine Alike.bind_eq (under_alike (collections_alike targets) _ _) fun targets => ?_
  exact .refl _

theorem optionalRelation_alike (reordered : RelatedObjects relationMember left right) :
    Alike Eq (optionalRelation core left) (optionalRelation core right) := by
  have alike := under_alike (@relation_alike core left right reordered) ".relation" ".relation"
  rcases reordered with rfl | ⟨first, second, rfl, rfl, _⟩
  · exact .refl _
  · exact alike.bind_eq fun relation => .ok _ _ rfl

theorem layout_alike (reordered : RelatedObjects layoutMember left right) :
    Alike Eq (ResourceLayout.fromJson core left) (ResourceLayout.fromJson core right) := by
  unfold ResourceLayout.fromJson
  refine (closed_related reordered layoutMember_refl _ _).bind fun first second members => ?_
  have values := member_related members layoutMember_refl
  have same : ∀ name, name ≠ "relation" → member first name = member second name := by
    intro name other
    have holds := values name
    rwa [layoutMember, if_neg other] at holds
  have relation : RelatedObjects relationMember (member first "relation")
      (member second "relation") := values "relation"
  rw [same "fields" (by decide), same "indexes" (by decide), same "identity" (by decide),
    same "ref" (by decide), same "table" (by decide), same "profile" (by decide),
    same "schemaFingerprint" (by decide), same "resourceFingerprint" (by decide)]
  refine Alike.bind_eq (.refl _) fun fieldEntries => ?_
  refine Alike.bind_eq (.refl _) fun fields => ?_
  refine Alike.bind_eq (.refl _) fun indexEntries => ?_
  refine Alike.bind_eq (.refl _) fun indexes => ?_
  refine Alike.bind_eq (.refl _) fun identityEntries => ?_
  refine Alike.bind_eq (.refl _) fun identity => ?_
  refine Alike.bind_eq (.refl _) fun ref => ?_
  refine Alike.bind_eq (.refl _) fun table => ?_
  refine Alike.bind_eq (.refl _) fun profile => ?_
  refine Alike.bind_eq (.refl _) fun schema => ?_
  refine Alike.bind_eq (.refl _) fun resource => ?_
  exact (optionalRelation_alike relation).bind_eq fun relation => .refl _

theorem located_alike (items : List Json) :
    Alike Eq
      (items.zipIdx.mapM fun entry => under s!"binding.settings.resources[{entry.2}]"
        (ResourceLayout.fromJson core entry.1))
      (items.mapM (ResourceLayout.fromJson core)) := by
  refine Alike.mapM_zipIdx (fun entry => ?_) items
  cases ResourceLayout.fromJson core entry.1 with
  | error error => exact .error _ error
  | ok layout => exact .ok layout layout rfl

/-- The entries are accepted together, and give the layouts in their order. -/
theorem entries_alike {first middle second : List Json} (permuted : first.Perm middle)
    (entries : List.Forall₂ (RelatedObjects layoutMember) middle second) :
    Alike List.Perm
      (first.zipIdx.mapM fun entry => under s!"binding.settings.resources[{entry.2}]"
        (ResourceLayout.fromJson core entry.1))
      (second.zipIdx.mapM fun entry => under s!"binding.settings.resources[{entry.2}]"
        (ResourceLayout.fromJson core entry.1)) := by
  have moved : Alike List.Perm (first.mapM (ResourceLayout.fromJson core))
      (middle.mapM (ResourceLayout.fromJson core)) := Alike.mapM_perm permuted
  have inner : Alike Eq (middle.mapM (ResourceLayout.fromJson core))
      (second.mapM (ResourceLayout.fromJson core)) :=
    Alike.mapM_eq entries fun _ _ reordered => layout_alike reordered
  have there := ((located_alike first).trans moved).trans (inner.trans (located_alike second).symm)
  refine there.mono ?_
  rintro layouts others ⟨_, ⟨_, rfl, before⟩, _, rfl, rfl⟩
  exact before

/-- The listed layouts are accepted together. -/
theorem layouts_alike (reordered : ReorderedLayouts left right) :
    Alike List.Perm (layouts core left) (layouts core right) := by
  rcases reordered with rfl | ⟨first, middle, second, rfl, rfl, permuted, entries⟩
  · refine (Alike.refl _).mono ?_
    rintro layouts _ rfl
    exact .refl layouts
  · refine (entries_alike permuted entries).bind fun found others same => ?_
    have refs := same.map fun layout => layout.ref.canonical
    have tables := same.map ResourceLayout.table
    refine Alike.ite ?_ (.error _ _) (Alike.ite ?_ (.error _ _) (.ok _ _ same))
    · rw [refs.nodup_iff, ← List.length_eq_zero_iff, ← List.length_eq_zero_iff, same.length_eq]
    · rw [tables.nodup_iff]

theorem scopeKeys_alike (permuted : Permuted left right) :
    Alike Eq (scopeKeys left) (scopeKeys right) := by
  rcases permuted with rfl | ⟨first, second, rfl, rfl, permuted⟩
  · exact .refl _
  · refine (Alike.mapM_perm permuted).bind fun keys others same => ?_
    have equal : sortedBy Identifier.text keys = sortedBy Identifier.text others :=
      sortedBy_eq_of_injective (fun _ _ => Identifier.ext) same
    dsimp only
    rw [equal]
    exact .refl _

theorem compatibility_alike (value : Option Json) (keys : List Identifier) {binding other : Binding}
    (fingerprints : binding.requiredPhysicalFingerprint = other.requiredPhysicalFingerprint)
    {found others : List ResourceLayout} (same : found.Perm others) :
    Alike Eq (compatibility core binding value keys found)
      (compatibility core other value keys others) := by
  cases value with
  | none => exact .refl _
  | some value =>
      unfold compatibility
      dsimp only
      rw [fingerprints]
      refine Alike.bind_eq (.refl _) fun _ => ?_
      refine Alike.bind_eq (.refl _) fun selected => ?_
      refine Alike.bind_eq (.refl _) fun entries => ?_
      refine Alike.bind_eq (.refl _) fun proofs => ?_
      have refs := same.map fun layout => layout.ref.canonical
      refine Alike.ite ?_ (.error _ _) (Alike.ite ?_ (.error _ _) (.refl _))
      · simp only [List.subset_def, refs.mem_iff]
      · simp only [same.mem_iff]

theorem get_same {first second : Json.Object} (members : RelatedMembers settingsMember first second)
    {name : String} (other : settingsMember name = Eq) :
    Json.get first name = Json.get second name := by
  rcases get_related members name with ⟨left, right⟩ | ⟨_, _, left, right, holds⟩
  · rw [left, right]
  · rw [other] at holds
    rw [left, right, holds]

/-- The parser makes the same settings of reordered Bindings, or refuses both. -/
theorem fromBinding_alike {binding other : Binding} (reordered : binding.Reordered other) :
    Alike Eq (fromBinding core binding) (fromBinding core other) := by
  unfold fromBinding
  rw [reordered.engineProfile, reordered.physicalNamespace, reordered.tlsMode]
  refine Alike.bind_eq (.refl _) fun _ => ?_
  refine (under_alike (closed_related reordered.settings settingsMember_refl _ _) _ _).bind
    fun first second members => ?_
  have values := member_related members settingsMember_refl
  have format : member first "formatVersion" = member second "formatVersion" :=
    values "formatVersion"
  have topology : member first "topology" = member second "topology" := values "topology"
  have keys : Permuted (member first "scopeKeys") (member second "scopeKeys") :=
    values "scopeKeys"
  have resources : ReorderedLayouts (member first "resources") (member second "resources") :=
    values "resources"
  have proofs : Json.get first "readCompatibility" = Json.get second "readCompatibility" :=
    get_same members rfl
  have application : Json.get first "applicationName" = Json.get second "applicationName" :=
    get_same members rfl
  rw [format, topology, proofs, application]
  refine Alike.bind_eq (.refl _) fun _ => ?_
  refine Alike.bind_eq (scopeKeys_alike keys) fun keys => ?_
  refine ((layouts_alike resources).knowing fun _ accepted => (layouts_accepted accepted).refs).bind ?_
  rintro found others ⟨same, unique⟩
  have sorted : sortedBy (fun layout => layout.ref.canonical) found =
      sortedBy (fun layout => layout.ref.canonical) others := sortedBy_eq_of_nodup same unique
  rw [sorted]
  refine Alike.bind_eq (compatibility_alike _ keys reordered.fingerprint same) fun proofs => ?_
  exact .refl _

end Layouts

/-! ## Plans and scopes -/

/-- Reordered Bindings are accepted together, with the same settings. -/
theorem fromBinding_reordered (core : Core) {binding other : Binding}
    (reordered : binding.Reordered other) (bound : BoundSettings) :
    fromBinding core binding = .ok bound ↔ fromBinding core other = .ok bound :=
  (fromBinding_alike reordered).ok_iff bound

/-- Reordered Bindings are accepted together. They have the same plan, the same scope
columns with the same values, and the same commands. -/
theorem declaration_order (core : Core) {binding other : Binding}
    (reordered : binding.Reordered other) :
    ((∃ bound, fromBinding core binding = .ok bound) ↔
      ∃ bound, fromBinding core other = .ok bound) ∧
    ∀ first second, fromBinding core binding = .ok first → fromBinding core other = .ok second →
      (∀ digests, Schema.compile digests first.settings =
        Schema.compile digests second.settings) ∧
      ∀ parseFilter collectionRef,
        (∀ context, Query.DMLCompiler.scopeValues ⟨first.settings, parseFilter, collectionRef⟩
            context =
          Query.DMLCompiler.scopeValues ⟨second.settings, parseFilter, collectionRef⟩ context) ∧
        (∀ layout, Query.DMLCompiler.keyColumns ⟨first.settings, parseFilter, collectionRef⟩
            layout =
          Query.DMLCompiler.keyColumns ⟨second.settings, parseFilter, collectionRef⟩ layout) ∧
        ∀ method canonical input context,
          Query.DMLCompiler.compile ⟨first.settings, parseFilter, collectionRef⟩ method canonical
              input context =
            Query.DMLCompiler.compile ⟨second.settings, parseFilter, collectionRef⟩ method
              canonical input context := by
  have same := fromBinding_reordered core reordered
  refine ⟨exists_congr same, ?_⟩
  intro first second accepted others
  have equal : first = second := Except.ok.inj (((same first).mp accepted).symm.trans others)
  subst equal
  exact ⟨fun _ => rfl, fun _ _ => ⟨fun _ => rfl, fun _ => rfl, fun _ _ _ _ => rfl⟩⟩

/-! ## A sample Binding -/

def sampleRefs : List ResourceRef :=
  [⟨"structured", "example", "people"⟩, ⟨"structured", "example", "places"⟩,
    ⟨"structured", "example", "follows"⟩]

def sampleRef (text : String) : Option ResourceRef :=
  sampleRefs.find? fun ref => ref.canonical = text

/-- Core, for what the sample uses of it. -/
def sampleCore : Core where
  resourceRef value := match value with
    | .string text => sampleRef text
    | _ => none
  resourceRefIn catalog text := (sampleRef text).filter fun ref => ref.catalog = catalog
  schemaRef _ := none
  requirement _ := none
  definition _ := none
  toDict _ := .null
  fingerprint _ := ""

def sampleField (name logicalType : String) : Json :=
  .object [("name", .string name), ("column", .string name), ("logicalType", .string logicalType),
    ("nullable", .bool false), ("mutable", .bool false)]

def sampleFingerprint : Json :=
  .string "sha256:0000000000000000000000000000000000000000000000000000000000000000"

/-- The members of a layout before its relation. -/
def sampleMembers (name profile : String) (fields : List Json) : Json.Object :=
  [("ref", .string ("structured:example." ++ name)), ("table", .string name),
    ("profile", .string profile), ("schemaFingerprint", sampleFingerprint),
    ("resourceFingerprint", sampleFingerprint),
    ("fields", .array (sampleField "id" "string" :: fields)),
    ("identity", .array [.string "id"]), ("indexes", .array [])]

def people : Json :=
  .object (sampleMembers "people" "key-value" [] ++ [("relation", .null)])

def endpoints (collections : List String) : Json :=
  .object [("sourceField", .string "source"), ("targetField", .string "target"),
    ("directed", .bool true), ("sourceCollections", .array (collections.map Json.string)),
    ("targetCollections", .array [.string "structured:example.people"])]

def follows (collections : List String) : Json :=
  .object (sampleMembers "follows" "relation"
    [sampleField "source" "recordRef", sampleField "target" "recordRef"] ++
    [("relation", endpoints collections)])

def sampleBinding (scope : List String) (resources : List Json) : Binding where
  engineProfile := localProfile
  physicalNamespace := .string "meridian_test"
  tlsMode := "disabled"
  requiredPhysicalFingerprint := .null
  settings := .object [("formatVersion", .string "meridian.postgresql.settings.v1"),
    ("scopeKeys", .array (scope.map Json.string)), ("resources", .array resources),
    ("topology", .object [("expectedStandbys", .int 0)])]

def peopleFirst : Json := follows ["structured:example.people", "structured:example.places"]
def placesFirst : Json := follows ["structured:example.places", "structured:example.people"]

theorem follows_reordered : RelatedObjects layoutMember peopleFirst placesFirst := by
  have collections : Permuted
      (.array [.string "structured:example.people", .string "structured:example.places"])
      (.array [.string "structured:example.places", .string "structured:example.people"]) :=
    .inr ⟨_, _, rfl, rfl, .swap _ _ _⟩
  have relation : RelatedObjects relationMember
      (endpoints ["structured:example.people", "structured:example.places"])
      (endpoints ["structured:example.places", "structured:example.people"]) := by
    refine .inr ⟨_, _, rfl, rfl, ?_⟩
    exact .cons ⟨rfl, rfl⟩ (.cons ⟨rfl, rfl⟩ (.cons ⟨rfl, rfl⟩
      (.cons ⟨rfl, collections⟩ (.cons ⟨rfl, .inl rfl⟩ .nil))))
  refine .inr ⟨_, _, rfl, rfl, List.rel_append ?_ (.cons ⟨rfl, relation⟩ .nil)⟩
  exact List.forall₂_same.mpr fun entry _ => ⟨rfl, layoutMember_refl entry.1 entry.2⟩

theorem sample_reordered :
    (sampleBinding ["workspace", "region"] [people, peopleFirst]).Reordered
      (sampleBinding ["region", "workspace"] [placesFirst, people]) where
  engineProfile := rfl
  physicalNamespace := rfl
  tlsMode := rfl
  fingerprint := rfl
  settings := by
    have keys : Permuted (.array [.string "workspace", .string "region"])
        (.array [.string "region", .string "workspace"]) := .inr ⟨_, _, rfl, rfl, .swap _ _ _⟩
    have resources : ReorderedLayouts (.array [people, peopleFirst])
        (.array [placesFirst, people]) :=
      .inr ⟨_, [peopleFirst, people], _, rfl, rfl, .swap _ _ _,
        .cons follows_reordered (.cons (.inl rfl) .nil)⟩
    refine .inr ⟨_, _, rfl, rfl, ?_⟩
    exact .cons ⟨rfl, rfl⟩ (.cons ⟨rfl, keys⟩ (.cons ⟨rfl, resources⟩ (.cons ⟨rfl, rfl⟩ .nil)))

def sampleCompiler (settings : PostgreSQLSettings) : Query.DMLCompiler :=
  ⟨settings, fun _ => .ok none, fun _ => .ok "structured:example.people"⟩

/-- Both sample Bindings are accepted. -/
theorem sample_order :
    (fromBinding sampleCore
      (sampleBinding ["workspace", "region"] [people, peopleFirst])).isOk = true ∧
    ∀ first second,
      fromBinding sampleCore (sampleBinding ["workspace", "region"] [people, peopleFirst]) =
        .ok first →
      fromBinding sampleCore (sampleBinding ["region", "workspace"] [placesFirst, people]) =
        .ok second →
      (∀ digests, Schema.compile digests first.settings =
        Schema.compile digests second.settings) ∧
      ∀ context, (sampleCompiler first.settings).scopeValues context =
        (sampleCompiler second.settings).scopeValues context := by
  have same := declaration_order sampleCore sample_reordered
  refine ⟨by decide +kernel, fun first second accepted others => ?_⟩
  obtain ⟨plans, commands⟩ := same.2 first second accepted others
  exact ⟨plans, (commands _ _).1⟩

end MeridianPostgreSQL.Bindings
