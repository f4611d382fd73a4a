import MeridianPostgreSQL.Query.CursorValues
import MeridianPostgreSQL.Query.Dml

/-! # Returned values

What a record shows of its columns, and what the server stores when that is
written back. -/

namespace MeridianPostgreSQL.Query

open Settings

/-! ## Order of members -/

section Canonical

variable (leaf : Json → Json)

theorem normalizeMembers_eq (members : Json.Object) : Json.normalizeMembers leaf members =
    members.map fun entry => (entry.1, entry.2.normalize leaf) := by
  induction members with
  | nil => simp [Json.normalizeMembers]
  | cons entry rest induction =>
      rcases entry with ⟨name, value⟩
      simp [Json.normalizeMembers, induction]

/-- Members are sorted by their names, whatever their values. -/
theorem normalizeMembers_sortMembers (members : Json.Object) :
    Json.normalizeMembers leaf (Json.sortMembers members) =
      Json.sortMembers (Json.normalizeMembers leaf members) := by
  rw [normalizeMembers_eq, normalizeMembers_eq, Json.sortMembers, Json.sortMembers]
  exact List.map_mergeSort fun _ _ _ _ => rfl

theorem sortMembers_sortMembers (members : Json.Object) :
    Json.sortMembers (Json.sortMembers members) = Json.sortMembers members := by
  apply List.mergeSort_of_pairwise
  apply List.pairwise_mergeSort
  · intro first second third lower upper
    simp only [decide_eq_true_eq] at lower upper ⊢
    exact le_trans lower upper
  · intro first second
    simpa using le_total first.1 second.1

mutual

/-- A normal form does not depend on the order of members. -/
theorem normalize_canonical : ∀ value : Json, value.canonical.normalize leaf = value.normalize leaf
  | .null => rfl
  | .bool _ => rfl
  | .int _ => rfl
  | .float _ => rfl
  | .string _ => rfl
  | .array items => by
      simp only [Json.canonical, Json.normalize]
      rw [normalizeItems_canonical items]
  | .object members => by
      simp only [Json.canonical, Json.normalize]
      rw [normalizeMembers_sortMembers, sortMembers_sortMembers, normalizeMembers_canonical members]

theorem normalizeItems_canonical : ∀ items : List Json,
    Json.normalizeItems leaf (Json.normalizeItems id items) = Json.normalizeItems leaf items
  | [] => rfl
  | item :: rest => by
      simp only [Json.normalizeItems]
      rw [normalizeItems_canonical rest]
      exact congrArg (· :: _) (normalize_canonical item)

theorem normalizeMembers_canonical : ∀ members : List (String × Json),
    Json.normalizeMembers leaf (Json.normalizeMembers id members) =
      Json.normalizeMembers leaf members
  | [] => rfl
  | (name, value) :: rest => by
      simp only [Json.normalizeMembers]
      rw [normalizeMembers_canonical rest]
      exact congrArg (fun normal => (name, normal) :: _) (normalize_canonical value)

end

end Canonical

/-! ## Bytes -/

theorem sextet_character : ∀ value < 64,
    sextet (sextetCharacter value) = some value ∧ sextetCharacter value ≠ '=' := by
  decide

/-- What bytes are written as is read as the bytes. -/
theorem base64url_sextets : ∀ {bytes : List Nat}, (∀ byte ∈ bytes, byte < 256) →
    ∃ sextets, (base64url bytes).mapM sextet = some sextets ∧ bytesOf sextets = bytes ∧
      (base64url bytes).length % 4 ≠ 1 ∧ '=' ∉ base64url bytes
  | [], _ => ⟨[], rfl, rfl, by decide, List.not_mem_nil⟩
  | [first], small => by
      have bound := small first (by simp)
      have high := sextet_character (first / 4) (by omega)
      have low := sextet_character (first % 4 * 16) (by omega)
      refine ⟨[first / 4, first % 4 * 16], ?_, ?_, by simp [base64url], ?_⟩
      · simp [base64url, high.1, low.1]
      · simp only [bytesOf, List.cons.injEq, and_true]
        omega
      · simp [base64url, high.2.symm, low.2.symm]
  | [first, second], small => by
      have bound := small first (by simp)
      have next := small second (by simp)
      have high := sextet_character (first / 4) (by omega)
      have middle := sextet_character (first % 4 * 16 + second / 16) (by omega)
      have low := sextet_character (second % 16 * 4) (by omega)
      refine ⟨[first / 4, first % 4 * 16 + second / 16, second % 16 * 4], ?_, ?_,
        by simp [base64url], ?_⟩
      · simp [base64url, high.1, middle.1, low.1]
      · simp only [bytesOf, List.cons.injEq, and_true]
        omega
      · simp [base64url, high.2.symm, middle.2.symm, low.2.symm]
  | first :: second :: third :: rest, small => by
      have bound := small first (by simp)
      have next := small second (by simp)
      have last := small third (by simp)
      obtain ⟨sextets, read, bytes, length, unpadded⟩ := @base64url_sextets rest
        fun byte listed => small byte (by simp [listed])
      have high := sextet_character (first / 4) (by omega)
      have middle := sextet_character (first % 4 * 16 + second / 16) (by omega)
      have low := sextet_character (second % 16 * 4 + third / 64) (by omega)
      have lowest := sextet_character (third % 64) (by omega)
      refine ⟨first / 4 :: (first % 4 * 16 + second / 16) :: (second % 16 * 4 + third / 64) ::
        third % 64 :: sextets, ?_, ?_, ?_, ?_⟩
      · simp [base64url, high.1, middle.1, low.1, lowest.1, read]
      · simp only [bytesOf, bytes, List.cons.injEq, and_true]
        omega
      · simp only [base64url, List.length_cons]
        omega
      · simp [base64url, high.2.symm, middle.2.symm, low.2.symm, lowest.2.symm, unpadded]

theorem decodeBase64url_text {bytes : List Nat} (small : ∀ byte ∈ bytes, byte < 256)
    (name : String) :
    decodeBase64url (.string (.ofList (base64url bytes))) name = .ok bytes := by
  obtain ⟨sextets, read, decoded, length, unpadded⟩ := base64url_sextets small
  have padding : ((base64url bytes).reverse.takeWhile (· = '=')).length = 0 := by
    cases reversed : (base64url bytes).reverse with
    | nil => rfl
    | cons last rest =>
        have listed : last ∈ base64url bytes := by
          rw [← List.mem_reverse, reversed]
          exact List.mem_cons_self
        have different : last ≠ '=' := fun same => unpadded (same ▸ listed)
        rw [List.takeWhile_cons_of_neg (by simp [different])]
        rfl
  simp only [decodeBase64url, String.toList_ofList, padding, String.length_ofList, Nat.sub_zero,
    List.take_length, read]
  rw [if_pos ⟨Nat.zero_le _, length⟩, decoded]

/-! ## Results -/

/-- A number of the server in JSON, as Python loads it. -/
def loadedNumber (number : Rat) : Json :=
  if number.den = 1 then .int number.num else .float number

theorem loadedNumber_number (number : Rat) : (loadedNumber number).number = some number := by
  unfold loadedNumber
  split
  · rename_i whole
    simp only [Json.number, Option.some.injEq]
    exact Rat.ext rfl whole.symm
  · rfl

/-- What PostGIS makes of points, which it writes and reads as texts. -/
structure Geography where
  longitude : String → Rat
  latitude : String → Rat
  makePoint : Rat → Rat → String

/-- `jsonb_build_object('longitude', ST_X(..), 'latitude', ST_Y(..))` -/
def Geography.shown (geography : Geography) : Option String → Json
  | none => .object [("latitude", .null), ("longitude", .null)]
  | some text => .object [("latitude", loadedNumber (geography.latitude text)),
      ("longitude", loadedNumber (geography.longitude text))]

/-- What a record shows of the column of a field, where the driver can load
it. -/
def returned (session : Session) (geography : Geography) (field : FieldLayout) :
    Option StoredValue → Option Json
  | none => some (if field.isPoint then geography.shown none else .null)
  | some (.point text) =>
      some (if field.isPoint then geography.shown (some text) else .string text)
  | some value => (session.load value).map (jsonable session)

/-- What the server stores in the column of a field for a fragment, if the
driver passes the parameters and the server accepts them: a parameter of the
column's own type, or a text that the type reads. -/
def assigned (session : Session) (geography : Geography) (field : FieldLayout)
    (fragment : DMLStatement) : Option (Option StoredValue) :=
  match fragment.parameters.map Parameter.value with
  | [.plain .null] => some none
  | [value] => do
      let parameter ← passed value
      let stored ← session.read (columnType field) parameter
      some (some stored)
  | [.plain (.float longitude), .plain (.float latitude)] =>
      some (some (.point (geography.makePoint longitude latitude)))
  | _ => none

/-! ## Writing results back -/

deriving instance DecidableEq for Numeric, CalendarDate, Uuid, Interval, StoredValue

/-- One value for all that are equal to the server. The numbers of a column have
one scale. -/
def StoredValue.normal : StoredValue → StoredValue
  | .duration interval => .duration ⟨0, 0, interval.total⟩
  | .json value => .json value.jsonb
  | value => value

/-- The columns are both null or hold values that are equal to the server. -/
def ColumnAlike (left right : Option StoredValue) : Prop :=
  left.map StoredValue.normal = right.map StoredValue.normal

/-- A column of the type of a field holds the value, and its bytes are bytes. -/
def Holds (field : FieldLayout) : Option StoredValue → Prop
  | none => True
  | some value => columnType field = value.columnType ∧
      ∀ data, value = .bytes data → ∀ byte ∈ data, byte < 256

/-- What the server stores when a value of a record is written as the value of
its field. -/
def restored (session : Session) (geography : Geography) (field : FieldLayout)
    (shown : Json) : Option (Option StoredValue) :=
  (fieldValue field shown).toOption.bind (assigned session geography field)

/-- The columns that writing back what a record shows restores: no null of a
point or of a field that is not nullable, no moment whose offset from UTC is a
positive part of a minute, no duration that its text or its years change, no
JSON null, and no point that its coordinates do not give again. -/
def Restores (session : Session) (geography : Geography) (field : FieldLayout) :
    Option StoredValue → Prop
  | none => field.nullable = true ∧ field.isPoint = false
  | some (.timestamp moment) => ∀ time, session.localTime moment = some time →
      ¬(0 < time.offset ∧ time.offset < 60)
  | some (.duration interval) => session.written interval.loaded = interval.total
  | some (.json value) => value ≠ .null
  | some (.point text) =>
      (-180 ≤ geography.longitude text ∧ geography.longitude text ≤ 180) ∧
        (-90 ≤ geography.latitude text ∧ geography.latitude text ≤ 90) ∧
        geography.makePoint (geography.longitude text) (geography.latitude text) = text
  | some _ => True

section Restored

variable {field : FieldLayout}

theorem unwrapped_columnType (other : columnType field ≠ .jsonb) : field.isJson = false := by
  rw [← Bool.not_eq_true]
  intro wrapped
  exact other (by rw [columnType, if_pos wrapped])

theorem unlocated_columnType (other : columnType field ≠ .geography) :
    field.isJson = true ∨ field.logicalType ≠ .wgs84Point := by
  rw [or_iff_not_imp_left]
  intro unwrapped located
  exact other (by rw [columnType, if_neg unwrapped, located])

theorem adaptDriverValue_columnType (json : columnType field ≠ .jsonb)
    (bytes : columnType field ≠ .bytea) (value : Json) :
    adaptDriverValue field value = .ok (.plain value) := by
  have unwrapped := unwrapped_columnType json
  have undecoded : field.logicalType ≠ .bytes := by
    intro decoded
    exact bytes (by simp [columnType, unwrapped, decoded])
  simp [adaptDriverValue, unwrapped, undecoded]

theorem fieldValue_adapted {value : Json} (present : value ≠ .null)
    (unlocated : field.isJson = true ∨ field.logicalType ≠ .wgs84Point) :
    fieldValue field value = (adaptDriverValue field value).map fun adapted =>
      ⟨[.slot (.value field.name)], [⟨.value field.name, adapted⟩]⟩ := by
  rw [fieldValue, if_neg present]
  by_cases wrapped : field.isJson = true
  · simp [adaptDriverValue, wrapped, Except.map]
  · have other := unlocated.resolve_left wrapped
    rw [if_neg wrapped, if_neg other]
    cases adaptDriverValue field value <;> rfl

theorem adapted_present {value : Json} {adapted : DriverValue} (present : value ≠ .null)
    (adapts : adaptDriverValue field value = .ok adapted) : adapted ≠ .plain .null := by
  rintro rfl
  unfold adaptDriverValue at adapts
  split at adapts
  · cases adapts
  · split at adapts
    · obtain ⟨_, _, same⟩ := map_eq_ok adapts
      cases same
    · cases adapts
      exact present rfl

variable (session : Session) (geography : Geography)

/-- One parameter is passed and read as a value of the column. -/
theorem restored_adapted {value : Json} {adapted : DriverValue} (present : value ≠ .null)
    (unlocated : field.isJson = true ∨ field.logicalType ≠ .wgs84Point)
    (adapts : adaptDriverValue field value = .ok adapted) :
    restored session geography field value =
      ((passed adapted).bind (session.read (columnType field))).map some := by
  have other := adapted_present present adapts
  rw [restored, fieldValue_adapted present unlocated, adapts]
  simp only [Except.map, Except.toOption, Option.bind_some, assigned, List.map_cons, List.map_nil]
  cases passed adapted with
  | none => rfl
  | some parameter => cases read : session.read (columnType field) parameter <;> simp [read]

/-- A value that is passed as it is. -/
theorem restored_plain {value : Json} (present : value ≠ .null)
    (json : columnType field ≠ .jsonb) (bytes : columnType field ≠ .bytea)
    (point : columnType field ≠ .geography) :
    restored session geography field value =
      ((passed (.plain value)).bind (session.read (columnType field))).map some :=
  restored_adapted session geography present (unlocated_columnType point)
    (adaptDriverValue_columnType json bytes _)

theorem restored_null : restored session geography field .null =
    if field.nullable = true then some none else none := by
  rw [restored, fieldValue, if_pos rfl]
  split <;> rfl

/-- A value of a scalar type is read from the parameter as it was. -/
theorem restores_scalar {stored : StoredValue} {value : Json} (present : value ≠ .null)
    (scalar : columnType field ∉ [.jsonb, .bytea, .geography])
    (read : (passed (.plain value)).bind (session.read (columnType field)) = some stored) :
    ∃ other, restored session geography field value = some other ∧
      ColumnAlike other (some stored) := by
  simp only [List.mem_cons, List.not_mem_nil, or_false, not_or] at scalar
  refine ⟨some stored, ?_, rfl⟩
  rw [restored_plain session geography present scalar.1 scalar.2.1 scalar.2.2, read,
    Option.map_some]

/-- A text that the type of the column reads as the value. -/
theorem restores_text {stored : StoredValue} {text : List Char}
    (scalar : columnType field ∉ [.jsonb, .bytea, .geography])
    (read : session.read (columnType field) (.untyped (.ofList text)) = some stored) :
    ∃ other, restored session geography field (.string (.ofList text)) = some other ∧
      ColumnAlike other (some stored) :=
  restores_scalar session geography (by simp) scalar (by simpa [passed] using read)

theorem wrapped_columnType (stores : columnType field = .jsonb) : field.isJson = true := by
  by_contra unwrapped
  have plain := Bool.eq_false_of_not_eq_true unwrapped
  rw [columnType, if_neg unwrapped] at stores
  cases logical : field.logicalType <;> simp_all [FieldLayout.isJson]

theorem restores_json {value : Json} (stores : columnType field = .jsonb) :
    (∃ other, restored session geography field value.canonical = some other ∧
        ColumnAlike other (some (.json value))) ↔ value ≠ .null := by
  by_cases null : value = .null
  · subst null
    rw [show Json.canonical .null = .null from rfl, restored_null]
    split <;> simp [ColumnAlike]
  · have present : value.canonical ≠ .null := by
      cases value <;> simp_all [Json.canonical, Json.normalize]
    have wrapped := wrapped_columnType stores
    have adapts : adaptDriverValue field value.canonical = .ok (.jsonb value.canonical) := by
      simp [adaptDriverValue, wrapped]
    have written := restored_adapted session geography present (.inl wrapped) adapts
    rw [stores] at written
    refine iff_of_true ⟨some (.json value.canonical), written, ?_⟩ null
    have same : value.canonical.jsonb = value.jsonb := normalize_canonical Json.asNumber value
    simp [ColumnAlike, StoredValue.normal, same]

theorem restores_bytes {data : List Nat} (stores : columnType field = .bytea)
    (small : ∀ byte ∈ data, byte < 256) :
    ∃ other, restored session geography field (.string (.ofList (base64url data))) = some other ∧
      ColumnAlike other (some (.bytes data)) := by
  have unwrapped : field.isJson = false := unwrapped_columnType (by rw [stores]; decide)
  have decoded : field.logicalType = .bytes := by
    rw [columnType, if_neg (by simp [unwrapped])] at stores
    cases logical : field.logicalType <;> simp_all
  have adapts : adaptDriverValue field (.string (.ofList (base64url data))) =
      .ok (.bytes data) := by
    rw [adaptDriverValue, if_neg (by simp [unwrapped]), if_pos decoded,
      decodeBase64url_text small]
    rfl
  have written := restored_adapted session geography (by simp) (.inr (by simp [decoded])) adapts
  rw [stores] at written
  exact ⟨some (.bytes data), written, rfl⟩

theorem restores_timestamp {moment : Int} {time : DateTime}
    (stores : columnType field = .timestamp) (loads : session.localTime moment = some time) :
    (∃ other, restored session geography field (.string (.ofList time.wireText)) = some other ∧
        ColumnAlike other (some (.timestamp moment))) ↔
      ¬(0 < time.offset ∧ time.offset < 60) := by
  have written : restored session geography field (.string (.ofList time.wireText)) =
      ((passed (.plain (.string (.ofList time.wireText)))).bind
        (session.read (columnType field))).map some := by
    apply restored_plain <;> simp [stores]
  have read : (passed (.plain (.string (.ofList time.wireText)))).bind
      (session.read (columnType field)) =
        if 0 < time.offset ∧ time.offset < 60 then none else some (.timestamp moment) := by
    rw [passed, Option.bind_some, stores, Session.read, String.toList_ofList,
      readTimestamp_text, session.localTime_moment loads]
    split <;> rfl
  rw [written, read]
  split
  · rename_i unread
    simp [unread]
  · rename_i read
    exact iff_of_true ⟨_, rfl, rfl⟩ read

theorem restores_duration {interval : Interval} (stores : columnType field = .interval) :
    (∃ other, restored session geography field
          (jsonable session (.timedelta interval.loaded)) = some other ∧
        ColumnAlike other (some (.duration interval))) ↔
      session.written interval.loaded = interval.total := by
  have written : restored session geography field (jsonable session (.timedelta interval.loaded)) =
      ((passed (.plain (jsonable session (.timedelta interval.loaded)))).bind
        (session.read (columnType field))).map some := by
    apply restored_plain <;> simp [stores, jsonable]
  have literal : session.readInterval ('P' :: 'T' :: (session.general interval.loaded ++ ['S'])) =
      some ⟨0, 0, session.written interval.loaded⟩ := by
    simp [Session.readInterval, session.readSeconds_general]
  rw [written, jsonable, passed, Option.bind_some, stores, Session.read, String.toList_ofList,
    literal]
  simp [ColumnAlike, StoredValue.normal, Interval.total]

theorem located_columnType (stores : columnType field = .geography) :
    field.isJson = false ∧ field.logicalType = .wgs84Point ∧ field.isPoint = true := by
  have unwrapped : field.isJson = false := unwrapped_columnType (by rw [stores]; decide)
  have located : field.logicalType = .wgs84Point := by
    rw [columnType, if_neg (by simp [unwrapped])] at stores
    cases logical : field.logicalType <;> simp_all
  have single : field.cardinality = .one := by
    cases cardinality : field.cardinality with
    | one => rfl
    | many => simp [FieldLayout.isJson, cardinality] at unwrapped
  exact ⟨unwrapped, located, by simp [FieldLayout.isPoint, located, single]⟩

theorem loadedNumber_canonical (number : Rat) :
    (loadedNumber number).canonical = loadedNumber number := by
  unfold loadedNumber
  split <;> rfl

theorem coordinates_canonical (latitude longitude : Rat) :
    Json.canonical (.object [("latitude", loadedNumber latitude),
      ("longitude", loadedNumber longitude)]) =
    .object [("latitude", loadedNumber latitude), ("longitude", loadedNumber longitude)] := by
  have sorted : Json.sortMembers [("latitude", loadedNumber latitude),
      ("longitude", loadedNumber longitude)] =
        [("latitude", loadedNumber latitude), ("longitude", loadedNumber longitude)] := by
    have order : "latitude" ≤ "longitude" := by decide
    exact List.mergeSort_of_pairwise (by simp [order])
  have first := loadedNumber_canonical latitude
  have second := loadedNumber_canonical longitude
  rw [Json.canonical] at first second
  rw [Json.canonical, Json.normalize, Json.normalizeMembers, Json.normalizeMembers,
    Json.normalizeMembers, first, second, sorted]

theorem wgs84Coordinates_shown (latitude longitude : Rat) (name : String) :
    wgs84Coordinates (.object [("latitude", loadedNumber latitude),
      ("longitude", loadedNumber longitude)]) name =
    if -180 ≤ longitude ∧ longitude ≤ 180 ∧ -90 ≤ latitude ∧ latitude ≤ 90 then
      .ok (longitude, latitude)
    else .error (.value s!"field '{name}' WGS84 coordinates are out of range") := by
  have named : (Json.names [("latitude", loadedNumber latitude),
      ("longitude", loadedNumber longitude)]).Perm ["longitude", "latitude"] :=
    List.Perm.swap _ _ _
  have east : coordinate (Json.get [("latitude", loadedNumber latitude),
      ("longitude", loadedNumber longitude)] "longitude") name = .ok longitude := by
    simp [Json.get, List.lookup_cons, coordinate, loadedNumber_number]
  have north : coordinate (Json.get [("latitude", loadedNumber latitude),
      ("longitude", loadedNumber longitude)] "latitude") name = .ok latitude := by
    simp [Json.get, coordinate, loadedNumber_number]
  rw [wgs84Coordinates, if_pos named, east, north]
  rfl

theorem restores_point {text : String} (stores : columnType field = .geography) :
    (∃ other, restored session geography field (geography.shown (some text)).canonical =
          some other ∧ ColumnAlike other (some (.point text))) ↔
      Restores session geography field (some (.point text)) := by
  obtain ⟨unwrapped, located, _⟩ := located_columnType stores
  rw [Geography.shown, coordinates_canonical, restored, fieldValue, if_neg (by simp),
    if_neg (by simp [unwrapped]), if_pos located, wgs84Coordinates_shown]
  split
  · rename_i inside
    have stored : ((do
        let coordinates ← (.ok (geography.longitude text, geography.latitude text) :
          Compiled (Rat × Rat))
        .ok (⟨[.text "ST_SetSRID(ST_MakePoint(", .slot (.longitude field.name), .text ", ",
            .slot (.latitude field.name), .text "), 4326)::geography"],
          [⟨.longitude field.name, .plain (.float coordinates.1)⟩,
            ⟨.latitude field.name, .plain (.float coordinates.2)⟩]⟩ : DMLStatement)) :
          Compiled DMLStatement).toOption.bind (assigned session geography field) =
        some (some (.point (geography.makePoint (geography.longitude text)
          (geography.latitude text)))) := rfl
    rw [stored]
    simp only [Restores, ColumnAlike, Option.some.injEq, exists_eq_left', Option.map_some,
      StoredValue.normal, StoredValue.point.injEq]
    tauto
  · rename_i outside
    simp only [Restores]
    refine iff_of_false ?_ (by tauto)
    rintro ⟨other, restored, _⟩
    cases restored

theorem restores_null {shown : Json}
    (shows : returned session geography field none = some shown) :
    (∃ other, restored session geography field shown.canonical = some other ∧
        ColumnAlike other none) ↔ Restores session geography field none := by
  rw [returned, Option.some.injEq] at shows
  subst shows
  simp only [Restores]
  split
  · rename_i point
    have canonical : (geography.shown none).canonical = geography.shown none := by
      have sorted : Json.sortMembers [("latitude", .null), ("longitude", .null)] =
          [("latitude", .null), ("longitude", .null)] := by
        have order : "latitude" ≤ "longitude" := by decide
        exact List.mergeSort_of_pairwise (by simp [order])
      simp [Geography.shown, Json.canonical, Json.normalize, Json.normalizeMembers, sorted]
    have single : field.logicalType = .wgs84Point ∧ field.cardinality = .one := by
      simpa [FieldLayout.isPoint] using point
    have unwrapped : field.isJson = false := by
      simp [FieldLayout.isJson, single]
    have rejected : restored session geography field (geography.shown none) = none := by
      rw [restored, fieldValue, if_neg (by simp [Geography.shown]), if_neg (by simp [unwrapped]),
        if_pos single.1]
      rfl
    simp [canonical, rejected, point]
  · rename_i other
    have canonical : Json.canonical .null = .null := rfl
    rw [canonical, restored_null]
    split
    · rename_i nullable
      simp [nullable, other, ColumnAlike]
    · rename_i required
      simp [required]

/-- Writing back what a record shows of a column stores the same value exactly
for these columns. -/
theorem restored_iff {column : Option StoredValue} {shown : Json} (holds : Holds field column)
    (shows : returned session geography field column = some shown) :
    (∃ kept, restored session geography field shown.canonical = some kept ∧
        ColumnAlike kept column) ↔
      Restores session geography field column := by
  cases column with
  | none => exact restores_null session geography shows
  | some stored =>
      obtain ⟨stores, small⟩ := holds
      cases stored with
      | boolean value =>
          have stores : columnType field = .boolean := stores
          cases shows
          exact iff_of_true (restores_scalar session geography (by rintro ⟨⟩) (by simp [stores])
            (by rw [stores]; rfl)) trivial
      | integer value =>
          have stores : columnType field = .integer := stores
          cases shows
          exact iff_of_true (restores_scalar session geography (by rintro ⟨⟩) (by simp [stores])
            (by rw [stores]; rfl)) trivial
      | float value =>
          have stores : columnType field = .float := stores
          cases shows
          exact iff_of_true (restores_scalar session geography (by rintro ⟨⟩) (by simp [stores])
            (by rw [stores]; rfl)) trivial
      | text value =>
          have stores : columnType field = .text := stores
          cases shows
          exact iff_of_true (restores_scalar session geography (by rintro ⟨⟩) (by simp [stores])
            (by rw [stores]; rfl)) trivial
      | decimal value =>
          have stores : columnType field = .numeric := stores
          cases shows
          refine iff_of_true (restores_text session geography (by simp [stores]) ?_) trivial
          rw [stores, Session.read, String.toList_ofList, readNumeric_text, Option.map_some]
      | bytes data =>
          cases shows
          exact iff_of_true (restores_bytes session geography stores (small data rfl)) trivial
      | uuid identifier =>
          have stores : columnType field = .uuid := stores
          cases shows
          refine iff_of_true (restores_text session geography (by simp [stores]) ?_) trivial
          rw [stores, Session.read, String.toList_ofList, readUuid_text, Option.map_some]
      | timestamp moment =>
          obtain ⟨loaded, found, rfl⟩ := Option.map_eq_some_iff.mp shows
          obtain ⟨time, zoned, rfl⟩ := Option.map_eq_some_iff.mp found
          have kept : Restores session geography field (some (.timestamp moment)) ↔
              ¬(0 < time.offset ∧ time.offset < 60) := by
            simp [Restores, zoned]
          exact (restores_timestamp session geography stores zoned).trans kept.symm
      | date day =>
          have stores : columnType field = .date := stores
          cases shows
          refine iff_of_true (restores_text session geography (by simp [stores]) ?_) trivial
          rw [stores, Session.read, String.toList_ofList, readDate_text, Option.map_some]
      | duration interval =>
          cases shows
          exact restores_duration session geography stores
      | json value =>
          cases shows
          exact restores_json session geography stores
      | point value =>
          obtain ⟨_, _, point⟩ := located_columnType stores
          have equal : shown = geography.shown (some value) := by
            simpa [returned, point] using shows.symm
          rw [equal]
          exact restores_point session geography stores

end Restored

end MeridianPostgreSQL.Query
