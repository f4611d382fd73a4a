import MeridianPostgreSQL.Query.ColumnValues
import MeridianPostgreSQL.Query.CursorBinding
import MeridianPostgreSQL.Query.LiteralTypes
import MeridianPostgreSQL.Query.Markers

/-! # Values of cursors

What becomes of the keys of the last row of a page: the driver loads them, the
results hold them as JSON, a cursor carries them to the next request, and the
server compares the columns with what it reads the parameters as. -/

namespace MeridianPostgreSQL.Query

open Settings

/-! ## Durations -/

/-- An `interval`: its months, days and microseconds. -/
structure Interval where
  months : Int
  days : Int
  microseconds : Int

namespace Interval

/-- The length by which intervals are compared: a month has 30 days. -/
def total (interval : Interval) : Int :=
  (interval.months * 30 + interval.days) * 86400000000 + interval.microseconds

/-- The length that the driver loads: a year has 365 days, and a month has 30. -/
def loaded (interval : Interval) : Int :=
  (interval.months.tdiv 12 * 365 + interval.months.tmod 12 * 30 + interval.days) * 86400000000 +
    interval.microseconds

theorem loaded_eq {interval : Interval} (short : interval.months.natAbs < 12) :
    interval.loaded = interval.total := by
  have years : interval.months.tdiv 12 = 0 := by
    rw [← Int.natAbs_eq_zero, Int.natAbs_tdiv]
    exact Nat.div_eq_of_lt short
  have months : interval.months.tmod 12 = interval.months := by
    have parts := Int.mul_tdiv_add_tmod interval.months 12
    rwa [years, Int.mul_zero, Int.zero_add] at parts
  rw [loaded, total, years, months, Int.zero_mul, Int.zero_add]

end Interval

/-- At most six significant decimal digits. -/
def SixDigits (number : Int) : Prop :=
  ∃ (digits : Int) (exponent : Nat), digits.natAbs < 1000000 ∧ number = digits * 10 ^ exponent

/-! ## Values -/

/-- A value that a column holds. Doubles are finite, and points are given by the
text in which the server writes and reads them. -/
inductive StoredValue where
  | boolean (value : Bool)
  | integer (value : Int)
  | float (value : Rat)
  | text (value : String)
  | decimal (value : Numeric)
  | bytes (data : List Nat)
  | uuid (identifier : Uuid)
  | timestamp (moment : Int)
  | date (day : CalendarDate)
  | duration (interval : Interval)
  | json (value : Json)
  | point (value : String)

namespace StoredValue

/-- The values are equal to the server. -/
def Same : StoredValue → StoredValue → Prop
  | .duration left, .duration right => left.total = right.total
  | left, right => left = right

end StoredValue

/-- The kinds of columns that `_sql_type` makes. -/
inductive ColumnType where
  | boolean
  | integer
  | float
  | text
  | numeric
  | bytea
  | uuid
  | timestamp
  | date
  | interval
  | jsonb
  | geography
deriving DecidableEq

def columnType (field : FieldLayout) : ColumnType :=
  if field.isJson then .jsonb
  else
    match field.logicalType with
    | .boolean => .boolean
    | .int8 | .int16 | .int32 | .int64 => .integer
    | .float64 => .float
    | .string | .enum => .text
    | .decimal => .numeric
    | .bytes => .bytea
    | .uuid => .uuid
    | .utcTimestamp => .timestamp
    | .date => .date
    | .duration => .interval
    | .json | .recordRef | .objectRef => .jsonb
    | .wgs84Point => .geography

def StoredValue.columnType : StoredValue → ColumnType
  | .boolean _ => .boolean
  | .integer _ => .integer
  | .float _ => .float
  | .text _ => .text
  | .decimal _ => .numeric
  | .bytes _ => .bytea
  | .uuid _ => .uuid
  | .timestamp _ => .timestamp
  | .date _ => .date
  | .duration _ => .interval
  | .json _ => .jsonb
  | .point _ => .geography

/-! ## Results -/

/-- What the driver and the server make of values: the local time of a moment,
Python's format `g` of microseconds in seconds, the microseconds that the
server reads it as, and what it reads the text of a JSON value as. The server
reads no text of 2^63 microseconds, some 292,000 years, or more; the lengths
here are shorter. -/
structure Session where
  localTime : Int → Option DateTime
  localTime_moment : ∀ {moment time}, localTime moment = some time → time.moment = moment
  general : Int → List Char
  written : Int → Int
  readSeconds : List Char → Option Int
  readSeconds_general : ∀ length, readSeconds (general length) = some (written length)
  written_digits : ∀ length, SixDigits (written length)
  written_exact : ∀ {length}, SixDigits length → written length = length
  parseJson : String → Option Json
  parseJson_string : ∀ {text value}, parseJson text = some (.string value) →
    value.length < text.length
  parseJson_braces : parseJson "{}" = some (.object [])

/-- A value as the driver loads it. -/
inductive LoadedValue where
  | plain (value : Json)
  | decimal (value : Numeric)
  | bytes (data : List Nat)
  | uuid (identifier : Uuid)
  | datetime (time : DateTime)
  | date (day : CalendarDate)
  | timedelta (length : Int)

/-- The value that the driver makes of a stored one. A number inside JSON is one
that Python keeps without rounding. -/
def Session.load (session : Session) : StoredValue → Option LoadedValue
  | .boolean value => some (.plain (.bool value))
  | .integer value => some (.plain (.int value))
  | .float value => some (.plain (.float value))
  | .text value => some (.plain (.string value))
  | .decimal value => some (.decimal value)
  | .bytes data => some (.bytes data)
  | .uuid identifier => some (.uuid identifier)
  | .timestamp moment => (session.localTime moment).map .datetime
  | .date day => some (.date day)
  | .duration interval => some (.timedelta interval.loaded)
  | .json value => some (.plain value)
  | .point value => some (.plain (.string value))

/-- `jsonable` -/
def jsonable (session : Session) : LoadedValue → Json
  | .plain value => value
  | .decimal value => .string (.ofList value.text)
  | .bytes data => .string (.ofList (base64url data))
  | .uuid identifier => .string (.ofList identifier.text)
  | .datetime time => .string (.ofList time.wireText)
  | .date day => .string (.ofList day.text)
  | .timedelta length => .string (.ofList ('P' :: 'T' :: (session.general length ++ ['S'])))

/-! ## Comparisons -/

/-- A parameter that is compared with a column. A text has no type of its own. -/
inductive ComparedValue where
  | null
  | boolean (value : Bool)
  | integer (value : Int)
  | float (value : Rat)
  | untyped (text : String)
  | list (items : List Json)
  | jsonb (value : Json)
  | bytea (data : List Nat)

/-- What the driver passes of a value. It passes no mapping, and an empty list
as a text. -/
def passed : DriverValue → Option ComparedValue
  | .plain .null => some .null
  | .plain (.bool value) => some (.boolean value)
  | .plain (.int value) => some (.integer value)
  | .plain (.float value) => some (.float value)
  | .plain (.string text) => some (.untyped text)
  | .plain (.array []) => some (.untyped "{}")
  | .plain (.array items) => some (.list items)
  | .plain (.object _) => none
  | .jsonb value => some (.jsonb value)
  | .bytes data => some (.bytea data)

/-- A literal of type `interval`, of the texts that begin with `PT`. -/
def Session.readInterval (session : Session) : List Char → Option Interval
  | 'P' :: 'T' :: text =>
      if text.getLast? = some 'S' then
        (session.readSeconds text.dropLast).map fun length => ⟨0, 0, length⟩
      else none
  | _ => none

/-- The value that a column is compared with, where the server has a comparison
with such a parameter. -/
def Session.read (session : Session) : ColumnType → ComparedValue → Option StoredValue
  | .boolean, .boolean value => some (.boolean value)
  | .integer, .integer value => some (.integer value)
  | .float, .float value => some (.float value)
  | .text, .untyped text => some (.text text)
  | .numeric, .untyped text => (readNumeric text.toList).map .decimal
  | .bytea, .untyped text => (readBytea text.toList).map .bytes
  | .bytea, .bytea data => some (.bytes data)
  | .uuid, .untyped text => (readUuid text.toList).map .uuid
  | .timestamp, .untyped text => (readTimestamp text.toList).map .timestamp
  | .date, .untyped text => (readDate text.toList).map .date
  | .interval, .untyped text => (session.readInterval text.toList).map .duration
  | .jsonb, .untyped text => (session.parseJson text).map .json
  | .jsonb, .jsonb value => some (.json value)
  | .geography, .untyped text => some (.point text)
  | _, _ => none

/-- The value that a request compares the column of a field with when its
cursor holds a value. -/
def Session.compared (session : Session) (context : OperationContext) (field : FieldLayout)
    (held : Json) : Option StoredValue := do
  let value ← (executionValue context held).toOption
  let parameter ← passed value
  session.read (columnType field) parameter

/-- The value that a cursor holds of a key is read as the key. -/
def Session.Survives (session : Session) (context : OperationContext) (field : FieldLayout)
    (stored : StoredValue) (held : Json) : Prop :=
  ∃ value, session.compared context field held = some value ∧ value.Same stored

/-- The keys that survive: no bytes, no duration of more than six digits, no JSON
value but the marker of a scope that is written as that marker, and no moment
whose offset from UTC is a positive part of a minute. -/
def Session.Keeps (session : Session) (context : OperationContext) : StoredValue → Prop
  | .bytes data => data = []
  | .timestamp moment => ∀ time, session.localTime moment = some time →
      ¬(0 < time.offset ∧ time.offset < 60)
  | .duration interval =>
      if interval.months.natAbs < 12 then SixDigits interval.total
      else session.written interval.loaded = interval.total
  | .json value => ∃ column text, value = .object [("$scope", .string column)] ∧
      scopeParameter context column = .ok text ∧ session.parseJson text = some value
  | _ => True

section Survival

variable {session : Session} {context : OperationContext} {field : FieldLayout}

theorem compared_string (text : String) : session.compared context field (.string text) =
    session.read (columnType field) (.untyped text) := rfl

theorem survives_string {stored : StoredValue} {text : String}
    (read : session.read (columnType field) (.untyped text) = some stored) :
    session.Survives context field stored (.string text) := by
  refine ⟨stored, read, ?_⟩
  cases stored <;> rfl

theorem survives_duration {interval : Interval} (stores : columnType field = .interval) :
    session.Survives context field (.duration interval)
        (jsonable session (.timedelta interval.loaded)) ↔
      session.Keeps context (.duration interval) := by
  have read : session.compared context field (jsonable session (.timedelta interval.loaded)) =
      some (.duration ⟨0, 0, session.written interval.loaded⟩) := by
    have literal : session.readInterval ('P' :: 'T' :: (session.general interval.loaded ++ ['S'])) =
        some ⟨0, 0, session.written interval.loaded⟩ := by
      simp [Session.readInterval, session.readSeconds_general]
    rw [jsonable, compared_string, stores, Session.read, String.toList_ofList, literal]
    rfl
  have survives : session.Survives context field (.duration interval)
      (jsonable session (.timedelta interval.loaded)) ↔
        session.written interval.loaded = interval.total := by
    unfold Session.Survives
    rw [read]
    simp [StoredValue.Same, Interval.total]
  rw [survives, Session.Keeps]
  split
  · rename_i short
    rw [Interval.loaded_eq short]
    constructor
    · intro same
      rw [← same]
      exact session.written_digits _
    · exact session.written_exact
  · exact Iff.rfl

theorem survives_timestamp {moment : Int} {time : DateTime}
    (stores : columnType field = .timestamp) (loads : session.localTime moment = some time) :
    session.Survives context field (.timestamp moment) (jsonable session (.datetime time)) ↔
      session.Keeps context (.timestamp moment) := by
  have keeps : session.Keeps context (.timestamp moment) ↔
      ¬(0 < time.offset ∧ time.offset < 60) := by
    simp [Session.Keeps, loads]
  have read : session.compared context field (jsonable session (.datetime time)) =
      if 0 < time.offset ∧ time.offset < 60 then none else some (.timestamp moment) := by
    rw [jsonable, compared_string, stores, Session.read, String.toList_ofList,
      readTimestamp_text, session.localTime_moment loads]
    split <;> rfl
  rw [keeps, Session.Survives, read]
  split
  · rename_i unread
    simp [unread]
  · rename_i read
    simp [read, StoredValue.Same]

theorem survives_bytes {data : List Nat} (stores : columnType field = .bytea) :
    session.Survives context field (.bytes data) (jsonable session (.bytes data)) ↔
      session.Keeps context (.bytes data) := by
  unfold Session.Survives
  rw [jsonable, compared_string, stores, Session.read, String.toList_ofList, Session.Keeps,
    ← readBytea_iff]
  cases readBytea (base64url data) <;> simp [StoredValue.Same]

theorem ok_of_toOption {α : Type} {result : Compiled α} {value : α}
    (found : result.toOption = some value) : result = .ok value := by
  cases result with
  | error error => exact nomatch found
  | ok other =>
      cases found
      rfl

/-- A value that is not decoded is passed as it is. -/
theorem decodeQueryValue_undecoded {value other : Json}
    (decoded : decodeQueryValue value = .ok (.plain other)) : other = value := by
  cases marked : isMarker value with
  | false =>
      rw [decodeQueryValue_plain marked] at decoded
      cases decoded
      rfl
  | true =>
      obtain ⟨held, rfl | rfl⟩ := (isMarker_iff value).mp marked
      · cases decoded
        rfl
      · simp only [decodeQueryValue] at decoded
        split at decoded
        · split at decoded
          · split at decoded
            · cases decoded
            · split at decoded
              · cases decoded
              · split at decoded
                · obtain ⟨data, _, same⟩ := map_eq_ok decoded
                  cases same
                · cases decoded
          · cases decoded
        · cases decoded

/-- No JSON value is read from itself when the driver passes it. -/
theorem read_plain_json {value : Json} {parameter : ComparedValue}
    (passes : passed (.plain value) = some parameter) :
    session.read .jsonb parameter ≠ some (.json value) := by
  intro read
  cases value with
  | null => cases passes; exact nomatch read
  | bool _ => cases passes; exact nomatch read
  | int _ => cases passes; exact nomatch read
  | float _ => cases passes; exact nomatch read
  | string text =>
      cases passes
      obtain ⟨parsed, found, same⟩ := Option.map_eq_some_iff.mp read
      cases same
      exact Nat.lt_irrefl _ (session.parseJson_string found)
  | array items =>
      cases items with
      | nil =>
          cases passes
          obtain ⟨parsed, found, same⟩ := Option.map_eq_some_iff.mp read
          cases same
          exact nomatch session.parseJson_braces.symm.trans found
      | cons => cases passes; exact nomatch read
  | object _ => exact nomatch passes

theorem unscoped_not_read {value : Json} {driver : DriverValue} {parameter : ComparedValue}
    (decoded : decodeQueryValue value = .ok driver) (passes : passed driver = some parameter) :
    session.read .jsonb parameter ≠ some (.json value) := by
  cases driver with
  | plain other =>
      cases decodeQueryValue_undecoded decoded
      exact read_plain_json passes
  | jsonb inner =>
      cases passes
      intro read
      cases read
      exact Nat.lt_irrefl _ (sizeOf_decoded decoded)
  | bytes data =>
      cases passes
      exact nofun

/-- A JSON value is bound as no JSON value, unless it is a marker. -/
theorem survives_json {value : Json} (stores : columnType field = .jsonb) :
    session.Survives context field (.json value) value ↔ session.Keeps context (.json value) := by
  have survives : session.Survives context field (.json value) value ↔
      session.compared context field value = some (.json value) := by
    unfold Session.Survives
    cases session.compared context field value with
    | none => simp
    | some other => cases other <;> simp [StoredValue.Same]
  rw [survives, Session.compared, stores]
  constructor
  · intro read
    obtain ⟨driver, executed, read⟩ := Option.bind_eq_some_iff.mp read
    obtain ⟨parameter, passes, read⟩ := Option.bind_eq_some_iff.mp read
    have bound := ok_of_toOption executed
    by_cases marked : ∃ held, value = .object [("$scope", held)]
    · obtain ⟨held, rfl⟩ := marked
      unfold executionValue at bound
      split at bound
      · rename_i column same
        cases same
        obtain ⟨text, scope, rfl⟩ := map_eq_ok bound
        cases passes
        obtain ⟨parsed, found, same⟩ := Option.map_eq_some_iff.mp read
        cases same
        exact ⟨column, text, rfl, scope, found⟩
      · exact nomatch bound
      · rename_i unscoped
        exact absurd rfl (unscoped held)
    · have unscoped : ∀ held, value ≠ .object [("$scope", held)] :=
        fun held same => marked ⟨held, same⟩
      rw [executionValue_unscoped unscoped] at bound
      exact absurd read (unscoped_not_read bound passes)
  · rintro ⟨column, text, rfl, held, parsed⟩
    have executed : executionValue context (.object [("$scope", .string column)]) =
        .ok (.plain (.string text)) := by
      rw [executionValue, held]
      rfl
    rw [executed]
    simp [passed, Session.read, parsed, Except.toOption]

/-- The key of a row survives in the cursor exactly when it is kept. -/
theorem survives_iff {stored : StoredValue} {loaded : LoadedValue}
    (stores : columnType field = stored.columnType) (loads : session.load stored = some loaded) :
    session.Survives context field stored (jsonable session loaded) ↔
      session.Keeps context stored := by
  cases stored with
  | boolean value =>
      cases loads
      exact iff_of_true ⟨.boolean value, by rw [Session.compared, stores]; rfl, rfl⟩ trivial
  | integer value =>
      cases loads
      exact iff_of_true ⟨.integer value, by rw [Session.compared, stores]; rfl, rfl⟩ trivial
  | float value =>
      cases loads
      exact iff_of_true ⟨.float value, by rw [Session.compared, stores]; rfl, rfl⟩ trivial
  | text value =>
      cases loads
      exact iff_of_true (survives_string (by rw [stores]; rfl)) trivial
  | decimal value =>
      cases loads
      have read : session.read (columnType field) (.untyped (.ofList value.text)) =
          some (.decimal value) := by
        rw [stores, StoredValue.columnType, Session.read, String.toList_ofList, readNumeric_text]
        rfl
      exact iff_of_true (survives_string read) trivial
  | bytes data =>
      cases loads
      exact survives_bytes stores
  | uuid identifier =>
      cases loads
      have read : session.read (columnType field) (.untyped (.ofList identifier.text)) =
          some (.uuid identifier) := by
        rw [stores, StoredValue.columnType, Session.read, String.toList_ofList, readUuid_text]
        rfl
      exact iff_of_true (survives_string read) trivial
  | timestamp moment =>
      obtain ⟨time, found, rfl⟩ := Option.map_eq_some_iff.mp loads
      exact survives_timestamp stores found
  | date day =>
      cases loads
      have read : session.read (columnType field) (.untyped (.ofList day.text)) =
          some (.date day) := by
        rw [stores, StoredValue.columnType, Session.read, String.toList_ofList, readDate_text]
        rfl
      exact iff_of_true (survives_string read) trivial
  | duration interval =>
      cases loads
      exact survives_duration stores
  | json value =>
      cases loads
      exact survives_json stores
  | point value =>
      cases loads
      exact iff_of_true (survives_string (by rw [stores]; rfl)) trivial

end Survival

/-! ## Pages -/

namespace PostgreSQLQueryTranslator

/-- The value that a field has in the last row of a page, where it is the key of
the order at an index. -/
structure LastKey (translator : PostgreSQLQueryTranslator) (session : Session)
    (operation : QueryOperation) (context : TranslationContext) (compiled : CompiledQuery)
    (raw : List Row) (index : Nat) (field : FieldLayout) (stored : StoredValue) : Prop where
  accepted : translator.compileSelect operation context = .ok compiled
  sorts : ∃ targets base layout keys key tableAlias, translator.targets operation = .ok targets ∧
    baseTarget operation = .ok base ∧ lookupKey targets.layouts base = .ok layout ∧
    order operation layout targets = .ok keys ∧ keys[index]? = some key ∧
    key.statement = ⟨ident [tableAlias, field.column.text], []⟩
  stores : columnType field = stored.columnType
  holds : ∃ last name loaded, (raw.take compiled.pageSize).getLast? = some last ∧
    compiled.cursorFields[index]? = some name ∧ session.load stored = some loaded ∧
    last.lookup name = some (jsonable session loaded)

/-- The cursor parameters of a continued query have the value that its cursor
holds at their index. -/
def Binds (signer : CursorSigner) (cursor : String) (next : CompiledQuery) (index : Nat)
    (held : Json) : Prop :=
  (∃ payload, signer.verify cursor = .ok payload ∧ payload.sortTuple[index]? = some held) ∧
    ∀ parameter ∈ next.statement.parameters, parameter.origin = .cursor index →
      parameter.value = held

variable {translator : PostgreSQLQueryTranslator} {compiled : CompiledQuery}

theorem nextCursor_tuple {hasMore : Bool} {rows : List Row} {cursor : String}
    {signer : CursorSigner} (signed : translator.cursorSigner = some signer)
    (issued : translator.nextCursor compiled hasMore rows = .ok (some cursor)) :
    ∃ last payload, rows.getLast? = some last ∧ cursor = signer.issue payload ∧
      compiled.cursorFields.mapM (column last) = .ok payload.sortTuple := by
  unfold nextCursor at issued
  split at issued
  · rename_i last first rest found fields
    rw [signed] at issued
    split at issued
    · rename_i unsigned
      exact nomatch unsigned
    · exact nomatch issued
    · rename_i pins same pinned
      cases same
      cases tuple : (first :: rest).mapM (column last) with
      | error error => simp [tuple, bind, Except.bind] at issued
      | ok sortTuple =>
          rw [tuple] at issued
          cases issued
          exact ⟨last, _, found, rfl, fields ▸ tuple⟩
  · exact nomatch issued

theorem mapM_column {last : Row} {names : List String} {values : List Json}
    (mapped : names.mapM (column last) = .ok values) {index : Nat} {name : String}
    (named : names[index]? = some name) {value : Json} (found : last.lookup name = some value) :
    values[index]? = some value := by
  induction names generalizing values index with
  | nil => exact nomatch named
  | cons first rest induction =>
      rw [List.mapM_cons] at mapped
      cases held : column last first with
      | error error => simp [held, bind, Except.bind] at mapped
      | ok item =>
          cases others : rest.mapM (column last) with
          | error error => simp [held, others, bind, Except.bind] at mapped
          | ok items =>
              simp only [held, others, bind, Except.bind, pure, Except.pure,
                Except.ok.injEq] at mapped
              subst mapped
              cases index with
              | zero =>
                  cases named
                  rw [column, found] at held
                  cases held
                  rfl
              | succ index => exact induction others named

section Continued

variable {session : Session} {operation : QueryOperation} {context : TranslationContext}
  {raw : List Row} {result : NormalizedQueryResult} {cursor : String} {index : Nat}
  {field : FieldLayout} {stored : StoredValue} {signer : CursorSigner} {plan : Plan}
  {nextContext : TranslationContext} {next : CompiledQuery}

/-- The next request is given what the results hold of the key. -/
theorem cursor_bound (signed : translator.cursorSigner = some signer)
    (verifies : ∀ payload, signer.verify (signer.issue payload) = .ok payload)
    (key : translator.LastKey session operation context compiled raw index field stored)
    (normal : translator.normalizeResult compiled raw = .ok result)
    (issued : result.cursor = some cursor)
    (given : plan.operation.page.cursor = some cursor)
    (continued : translator.compile plan nextContext = .ok next) :
    ∃ loaded, session.load stored = some loaded ∧
      Binds signer cursor next index (jsonable session loaded) := by
  obtain ⟨last, name, loaded, found, named, loads, holds⟩ := key.holds
  have full : compiled.empty = false := by
    cases empty : compiled.empty with
    | false => rfl
    | true =>
        rw [normalizeResult, if_pos empty] at normal
        cases normal
        cases issued
  rw [normalizeResult_eq full] at normal
  cases ended : translator.nextCursor compiled (compiled.pageSize < raw.length)
      (raw.take compiled.pageSize) with
  | error error => simp [ended, Except.map] at normal
  | ok issuedCursor =>
      rw [ended] at normal
      cases normal
      cases issued
      obtain ⟨other, payload, otherFound, rfl, tuple⟩ := nextCursor_tuple signed ended
      cases found.symm.trans otherFound
      have held := mapM_column tuple named holds
      refine ⟨loaded, loads, ⟨payload, verifies payload, held⟩, ?_⟩
      rintro ⟨origin, value⟩ listed rfl
      have supplied : Supplies translator plan.operation (.cursor index) value :=
        (compile_plan_supplied continued).values ⟨_, value⟩ listed
      cases supplied with
      | cursor signs carried verified carries =>
          cases signed.symm.trans signs
          cases given.symm.trans carried
          cases (verifies payload).symm.trans verified
          exact Option.some.inj (carries.symm.trans held)

/-- The key of the last row is what the next request compares its column with
exactly when it is kept. -/
theorem cursor_value_iff (signed : translator.cursorSigner = some signer)
    (verifies : ∀ payload, signer.verify (signer.issue payload) = .ok payload)
    (key : translator.LastKey session operation context compiled raw index field stored)
    (normal : translator.normalizeResult compiled raw = .ok result)
    (issued : result.cursor = some cursor)
    (given : plan.operation.page.cursor = some cursor)
    (continued : translator.compile plan nextContext = .ok next)
    (execution : OperationContext) :
    ∃ held, Binds signer cursor next index held ∧
      (session.Survives execution field stored held ↔ session.Keeps execution stored) := by
  obtain ⟨loaded, loads, bound⟩ := cursor_bound signed verifies key normal issued given continued
  exact ⟨_, bound, survives_iff key.stores loads⟩

end Continued

/-! ## Keys of the work queue -/

/-- The number with all but its first six digits replaced by zeros. -/
def firstDigits (number : Nat) : Nat :=
  if number < 1000000 then number else firstDigits (number / 10) * 10
termination_by number

theorem firstDigits_six (number : Nat) : ∃ digits exponent,
    digits < 1000000 ∧ firstDigits number = digits * 10 ^ exponent := by
  induction number using firstDigits.induct with
  | case1 number small => exact ⟨number, 0, small, by rw [firstDigits, if_pos small]; simp⟩
  | case2 number large induction =>
      obtain ⟨digits, exponent, small, same⟩ := induction
      refine ⟨digits, exponent + 1, small, ?_⟩
      rw [firstDigits, if_neg large, same, Nat.pow_succ, Nat.mul_assoc]

theorem firstDigits_exact {digits : Nat} (small : digits < 1000000) (exponent : Nat) :
    firstDigits (digits * 10 ^ exponent) = digits * 10 ^ exponent := by
  induction exponent with
  | zero => rw [firstDigits, if_pos (by simpa using small)]
  | succ exponent induction =>
      rw [firstDigits]
      split
      · rfl
      · have tenth : digits * 10 ^ (exponent + 1) / 10 = digits * 10 ^ exponent := by
          rw [Nat.pow_succ, ← Nat.mul_assoc, Nat.mul_div_cancel _ (by decide)]
        rw [tenth, induction, Nat.pow_succ, Nat.mul_assoc]

def signed (negative : Bool) (number : Nat) : Int := if negative then -number else number

theorem signed_digits (length : Int) :
    SixDigits (signed (length < 0) (firstDigits length.natAbs)) := by
  obtain ⟨digits, exponent, small, same⟩ := firstDigits_six length.natAbs
  rw [same]
  by_cases negative : length < 0
  · exact ⟨-digits, exponent, by omega, by simp [signed, negative]⟩
  · exact ⟨digits, exponent, by omega, by simp [signed, negative]⟩

theorem signed_exact {length : Int} (six : SixDigits length) :
    signed (length < 0) (firstDigits length.natAbs) = length := by
  obtain ⟨digits, exponent, small, rfl⟩ := six
  have magnitude : (digits * 10 ^ exponent).natAbs = digits.natAbs * 10 ^ exponent := by
    simp [Int.natAbs_mul, Int.natAbs_pow]
  rw [magnitude, firstDigits_exact small, ← magnitude]
  by_cases negative : digits * 10 ^ exponent < 0
  · rw [signed, decide_eq_true negative, if_pos rfl]
    omega
  · rw [signed, decide_eq_false negative, if_neg (by decide)]
    omega

theorem braces_unquoted {text value : String}
    (parsed : (if text = "{}" then some (Json.object []) else none) = some (.string value)) :
    value.length < text.length := by
  split at parsed
  · cases parsed
  · cases parsed

/-- Durations are cut to six digits and written in strokes, and no text is a
JSON value but the empty mapping. -/
def roundingSession : Session where
  localTime := fun _ => none
  localTime_moment := nofun
  general := fun length =>
    (if length < 0 then ['-'] else []) ++ List.replicate (firstDigits length.natAbs) '1'
  written := fun length => signed (length < 0) (firstDigits length.natAbs)
  readSeconds := fun text =>
    match text with
    | '-' :: strokes => some (signed true strokes.length)
    | strokes => some (signed false strokes.length)
  readSeconds_general := fun length => by
    by_cases negative : length < 0
    · simp [negative]
    · cases strokes : firstDigits length.natAbs <;> simp [negative, List.replicate_succ]
  written_digits := signed_digits
  written_exact := signed_exact
  parseJson := fun text => if text = "{}" then some (.object []) else none
  parseJson_string := braces_unquoted
  parseJson_braces := rfl

/-- A page of a translator with a text signer is continued. -/
theorem page_resumed {signing : PostgreSQLQueryTranslator} {operation : QueryOperation}
    {context : TranslationContext} {raw : List Row} {result : NormalizedQueryResult}
    {cursor : String} (signed : signing.cursorSigner = some textSigner)
    (pages : operation.kind = .scan)
    (accepted : signing.compile operation.plan context = .ok compiled)
    (normal : signing.normalizeResult compiled raw = .ok result)
    (issued : result.cursor = some cursor) : ∃ next,
    signing.compile (operation.resumed cursor 30000).plan (context.withPlan "plan") =
      .ok next := by
  have selected := ((compile_plan_iff (.inl pages)).mp accepted).2
  obtain ⟨order, cursored⟩ := compileSelect_cursored (by simp [pages]) selected
  obtain ⟨signer, payload, other, rfl, pinned, tuple⟩ :=
    normalizeResult_issued cursored normal issued
  cases signed.symm.trans other
  exact resumed_accepted (.inl pages) signed (textSigner_verifies payload) accepted cursored
    pinned tuple 30000 "plan"

/-- The identities of two items. -/
def itemUuid (number : Nat) (small : number < 256) : Uuid where
  bytes := List.replicate 15 0 ++ [number]
  length := by simp
  small := by simp [small]

def itemRow (number : Nat) (small : number < 256) : Row :=
  let identity := Json.string (.ofList (itemUuid number small).text)
  [("id", identity), ("__cursor_0", identity)]

def itemRows : List Row := [itemRow 1 (by decide), itemRow 2 (by decide)]

def identityField (logicalType : LogicalType) : FieldLayout :=
  ⟨"id", ⟨"id", isIdentifier_id⟩, logicalType, false, false, .one, none, none⟩

theorem workPage_key : ∃ compiled result cursor next held,
    signingTranslator.compile workPage.plan workContext = .ok compiled ∧
      signingTranslator.normalizeResult compiled itemRows = .ok result ∧
      result.cursor = some cursor ∧
      signingTranslator.compile (workPage.resumed cursor 30000).plan
        (workContext.withPlan "plan") = .ok next ∧
      Binds textSigner cursor next 0 held ∧
      (roundingSession.Survives ⟨some "tenant", []⟩ (identityField .uuid)
          (.uuid (itemUuid 1 (by decide))) held ↔
        roundingSession.Keeps ⟨some "tenant", []⟩ (.uuid (itemUuid 1 (by decide)))) := by
  obtain ⟨compiled, result, cursor, accepted, normal, issued, key⟩ :
      ∃ compiled result cursor,
        signingTranslator.compile workPage.plan workContext = .ok compiled ∧
          signingTranslator.normalizeResult compiled itemRows = .ok result ∧
          result.cursor = some cursor ∧
          signingTranslator.LastKey roundingSession workPage workContext compiled itemRows 0
            (identityField .uuid) (.uuid (itemUuid 1 (by decide))) :=
    ⟨_, _, _, rfl, rfl, rfl,
      rfl, ⟨_, _, _, _, _, _, rfl, rfl, rfl, rfl, rfl, rfl⟩, rfl, _, _, _, rfl, rfl, rfl, rfl⟩
  obtain ⟨next, continued⟩ := page_resumed rfl rfl accepted normal issued
  obtain ⟨held, bound, same⟩ :=
    cursor_value_iff rfl textSigner_verifies key normal issued rfl continued ⟨some "tenant", []⟩
  exact ⟨compiled, result, cursor, next, held, accepted, normal, issued, continued, bound, same⟩

/-- A queue whose items are identified by bytes. -/
def blobLayout : ResourceLayout :=
  { workLayout with fields := identityField .bytes :: workLayout.fields.tail }

noncomputable def blobTranslator : PostgreSQLQueryTranslator :=
  { signingTranslator with settings := { workSettings with resources := [blobLayout] } }

def blobRows : List Row :=
  [[("id", .string "aGk"), ("__cursor_0", .string "aGk")],
    [("id", .string "aGo"), ("__cursor_0", .string "aGo")]]

/-- The bytes of `hi` are compared as those of their base64 text. -/
theorem blobPage_lost : ∃ compiled result cursor next held,
    blobTranslator.compile workPage.plan workContext = .ok compiled ∧
      blobTranslator.normalizeResult compiled blobRows = .ok result ∧
      result.cursor = some cursor ∧
      blobTranslator.LastKey roundingSession workPage workContext compiled blobRows 0
        (identityField .bytes) (.bytes [104, 105]) ∧
      blobTranslator.compile (workPage.resumed cursor 30000).plan
        (workContext.withPlan "plan") = .ok next ∧
      Binds textSigner cursor next 0 held ∧
      ¬roundingSession.Survives ⟨some "tenant", []⟩ (identityField .bytes) (.bytes [104, 105])
        held := by
  obtain ⟨compiled, result, cursor, accepted, normal, issued, key⟩ :
      ∃ compiled result cursor,
        blobTranslator.compile workPage.plan workContext = .ok compiled ∧
          blobTranslator.normalizeResult compiled blobRows = .ok result ∧
          result.cursor = some cursor ∧
          blobTranslator.LastKey roundingSession workPage workContext compiled blobRows 0
            (identityField .bytes) (.bytes [104, 105]) :=
    ⟨_, _, _, rfl, rfl, rfl,
      rfl, ⟨_, _, _, _, _, _, rfl, rfl, rfl, rfl, rfl, rfl⟩, rfl, _, _, _, rfl, rfl, rfl, rfl⟩
  obtain ⟨next, continued⟩ := page_resumed rfl rfl accepted normal issued
  obtain ⟨loaded, loads, bound⟩ :=
    cursor_bound rfl textSigner_verifies key normal issued rfl continued
  cases loads
  refine ⟨compiled, result, cursor, next, _, accepted, normal, issued, key, continued, bound, ?_⟩
  rintro ⟨value, read, same⟩
  have other : roundingSession.compared ⟨some "tenant", []⟩ (identityField .bytes)
      (jsonable roundingSession (.bytes [104, 105])) = some (.bytes [97, 71, 107]) := rfl
  cases other.symm.trans read
  cases same

end PostgreSQLQueryTranslator

end MeridianPostgreSQL.Query
