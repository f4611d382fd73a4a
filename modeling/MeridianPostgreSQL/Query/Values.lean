import MeridianPostgreSQL.Json
import MeridianPostgreSQL.Settings.Layouts

/-! # Driver values

How values of a field become parameters of a query or of a mutation. -/

namespace MeridianPostgreSQL.Query

open Settings

/-- What a compiler raises. -/
inductive CompileError where
  | type (message : String)
  | value (message : String)
  | key (name : String)
deriving DecidableEq

/-! ## Base64url -/

def sextet (character : Char) : Option Nat :=
  if 'A' ≤ character ∧ character ≤ 'Z' then some (character.toNat - 65)
  else if 'a' ≤ character ∧ character ≤ 'z' then some (character.toNat - 71)
  else if '0' ≤ character ∧ character ≤ '9' then some (character.toNat + 4)
  else if character = '-' then some 62
  else if character = '_' then some 63
  else none

def bytesOf : List Nat → List Nat
  | first :: second :: third :: fourth :: rest =>
      (first * 4 + second / 16) :: (second % 16 * 16 + third / 4) ::
        (third % 4 * 64 + fourth) :: bytesOf rest
  | [first, second, third] => [first * 4 + second / 16, second % 16 * 16 + third / 4]
  | [first, second] => [first * 4 + second / 16]
  | _ => []

/-- `decode_base64url` of a field's value. -/
def decodeBase64url (value : Json) (fieldName : String) : Except CompileError (List Nat) :=
  match value with
  | .string text =>
      let padding := (text.toList.reverse.takeWhile (· = '=')).length
      let unpadded := text.toList.take (text.length - padding)
      match unpadded.mapM sextet with
      | some sextets =>
          if padding ≤ 2 ∧ unpadded.length % 4 ≠ 1 then .ok (bytesOf sextets)
          else .error (.value s!"field '{fieldName}' contains invalid base64url text")
      | none => .error (.value s!"field '{fieldName}' contains invalid base64url text")
  | _ => .error (.type s!"field '{fieldName}' requires base64url text")

example : decodeBase64url (.string "aGk") "f" = .ok [104, 105] := by rfl

/-! ## Coordinates -/

def coordinate (value : Option Json) (fieldName : String) : Except CompileError Rat :=
  match value with
  | some value =>
      match value.number with
      | some number => .ok number
      | none => .error (.type s!"field '{fieldName}' WGS84 coordinates must be numeric")
  | none => .error (.value s!"field '{fieldName}' requires longitude and latitude")

/-- `wgs84_coordinates` -/
def wgs84Coordinates (value : Json) (fieldName : String) :
    Except CompileError (Rat × Rat) :=
  match value with
  | .object members =>
      if (Json.names members).Perm ["longitude", "latitude"] then do
        let longitude ← coordinate (Json.get members "longitude") fieldName
        let latitude ← coordinate (Json.get members "latitude") fieldName
        if -180 ≤ longitude ∧ longitude ≤ 180 ∧ -90 ≤ latitude ∧ latitude ≤ 90 then
          .ok (longitude, latitude)
        else .error (.value s!"field '{fieldName}' WGS84 coordinates are out of range")
      else .error (.value s!"field '{fieldName}' requires longitude and latitude")
  | _ => .error (.value s!"field '{fieldName}' requires longitude and latitude")

/-! ## Parameters -/

/-- What the driver is given. -/
inductive DriverValue where
  | plain (value : Json)
  | jsonb (value : Json)
  | bytes (data : List Nat)

/-- `adapt_driver_value` -/
def adaptDriverValue (field : FieldLayout) (value : Json) : Except CompileError DriverValue :=
  if field.isJson then .ok (.jsonb value)
  else if field.logicalType = .bytes then
    (decodeBase64url value field.name).map .bytes
  else .ok (.plain value)

def marker (encoding : String) (value : Json) : Json :=
  .object [("$postgresql", .object [("encoding", .string encoding), ("value", value)])]

/-- `encode_query_value` -/
def encodeQueryValue (field : FieldLayout) (value : Json) : Except CompileError Json :=
  if field.isJson then .ok (marker "jsonb" value)
  else if field.logicalType = .bytes then
    (decodeBase64url value field.name).map fun _ => marker "base64url" value
  else .ok value

/-- `decode_query_value` -/
def decodeQueryValue (value : Json) : Except CompileError DriverValue :=
  match value with
  | .object [("$postgresql", specification)] =>
      match specification with
      | .object members =>
          match Json.get members "encoding", Json.get members "value" with
          | some encoding, some encoded =>
              if members.length ≠ 2 then
                .error (.value "compiled PostgreSQL parameter marker is invalid")
              else if encoding = .string "jsonb" then .ok (.jsonb encoded)
              else if encoding = .string "base64url" then
                (decodeBase64url encoded "query parameter").map .bytes
              else .error (.value "compiled PostgreSQL parameter encoding is unsupported")
          | _, _ => .error (.value "compiled PostgreSQL parameter marker is invalid")
      | _ => .error (.value "compiled PostgreSQL parameter marker is invalid")
  | value => .ok (.plain value)

/-! ## JSON text -/

def hexDigit (value : Nat) : Char := Char.ofNat (if value < 10 then 48 + value else 87 + value)

def escapeUnit (unit : Nat) : List Char :=
  ['\\', 'u', hexDigit (unit / 4096), hexDigit (unit / 256 % 16), hexDigit (unit / 16 % 16),
    hexDigit (unit % 16)]

def escapeCharacter (character : Char) : List Char :=
  if character = '"' then ['\\', '"']
  else if character = '\\' then ['\\', '\\']
  else if character = '\n' then ['\\', 'n']
  else if character = '\r' then ['\\', 'r']
  else if character = '\t' then ['\\', 't']
  else if character.toNat = 8 then ['\\', 'b']
  else if character.toNat = 12 then ['\\', 'f']
  else if ' ' ≤ character ∧ character ≤ '~' then [character]
  else if character.toNat < 65536 then escapeUnit character.toNat
  else
    let rest := character.toNat - 65536
    escapeUnit (55296 + rest / 1024) ++ escapeUnit (56320 + rest % 1024)

def dumpString (text : String) : List Char :=
  '"' :: (text.toList.flatMap escapeCharacter ++ ['"'])

section Dump

variable (spell : Rat → List Char)

mutual

def dumpText : Json → List Char
  | .null => "null".toList
  | .bool true => "true".toList
  | .bool false => "false".toList
  | .int value => (toString value).toList
  | .float value => spell value
  | .string text => dumpString text
  | .array items => '[' :: (dumpItems items ++ [']'])
  | .object members => '{' :: (dumpMembers members ++ ['}'])

def dumpItems : List Json → List Char
  | [] => []
  | [item] => dumpText item
  | item :: rest => dumpText item ++ ',' :: dumpItems rest

def dumpMembers : List (String × Json) → List Char
  | [] => []
  | [(name, value)] => dumpString name ++ ':' :: dumpText value
  | (name, value) :: rest => dumpString name ++ ':' :: dumpText value ++ ',' :: dumpMembers rest

end

/-- `json.dumps` with sorted keys and no blanks. Python spells the floats. -/
def dumps (value : Json) : String := String.ofList (dumpText spell value.canonical)

end Dump

end MeridianPostgreSQL.Query
