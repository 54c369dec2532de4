/-
  Primitive types and the kinds of values that stand for them in a schema; and values as far as the
  analysis knows them: a literal, a name whose value is not known, or nothing.
-/

namespace RouteDoc

/-- Types with a direct counterpart in a schema. -/
inductive Primitive where
  | string
  | i8
  | i16
  | i32
  | i64
  | i128
  | u8
  | u16
  | u32
  | u64
  | u128
  | f32
  | f64
  | bool
  | char
  | binary
  | uuid
  | dateTime
  | date
deriving Repr, DecidableEq, Inhabited

namespace Primitive

/-- The primitive type of a name: as it is written in code, or in prose. -/
def ofName? : String → Option Primitive
  | "String" | "str" | "Str" | "string" => some string
  | "i8" => some i8
  | "i16" => some i16
  | "i32" | "Int" | "Integer" | "integer" => some i32
  | "i64" | "Long" | "isize" => some i64
  | "i128" => some i128
  | "u8" => some u8
  | "u16" => some u16
  | "u32" => some u32
  | "u64" | "usize" => some u64
  | "u128" => some u128
  | "f32" | "Float" => some f32
  | "f64" | "Double" | "Number" | "number" => some f64
  | "bool" | "Boolean" | "boolean" => some bool
  | "char" => some char
  | "Bytes" | "ByteArray" | "Binary" => some binary
  | "Uuid" | "UUID" => some uuid
  | "DateTime" | "OffsetDateTime" | "NaiveDateTime" | "Instant" => some dateTime
  | "NaiveDate" | "Date" | "LocalDate" => some date
  | _ => none

/-- The name of the type in messages. -/
def name : Primitive → String
  | string => "String"
  | i8 => "I8"
  | i16 => "I16"
  | i32 => "I32"
  | i64 => "I64"
  | i128 => "I128"
  | u8 => "U8"
  | u16 => "U16"
  | u32 => "U32"
  | u64 => "U64"
  | u128 => "U128"
  | f32 => "F32"
  | f64 => "F64"
  | bool => "Bool"
  | char => "Char"
  | binary => "Bytes"
  | uuid => "Uuid"
  | dateTime => "DateTime"
  | date => "Date"

/-- The kind of value in a schema, and its format. -/
def kind : Primitive → String × Option String
  | string | char => ("string", none)
  | i8 | i16 | i32 | u8 | u16 | u32 => ("integer", some "int32")
  | i64 | i128 | u64 | u128 => ("integer", some "int64")
  | f32 => ("number", some "float")
  | f64 => ("number", some "double")
  | bool => ("boolean", none)
  | binary => ("string", some "binary")
  | uuid => ("string", some "uuid")
  | dateTime => ("string", some "date-time")
  | date => ("string", some "date")

end Primitive

/-! ## Values -/

/-- A value that is known as a literal, or only by the expression that names it. -/
inductive Term where
  | text (value : String)
  | int (value : Int)
  /-- a name or expression whose value is not known -/
  | symbol (written : String)
  | unknown
deriving Repr, DecidableEq, Inhabited

namespace Term

/-- The term as it appears in messages. -/
def render : Term → String
  | text value => value
  | int value => toString value
  | symbol written => written
  | unknown => "<unknown>"

/-- The text of a literal text. -/
def text? : Term → Option String
  | text value => some value
  | _ => none

end Term

end RouteDoc
