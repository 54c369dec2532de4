/-
  Status codes, and the keys under which responses are listed.

  1. `constantCase`: names in any style of capitals become the names of the table;
  2. `Status`: the known codes with their constants and reason phrases;
  3. `StatusKey`: a code, or `default` for a status that is not known. Codes ascend, `default` is last.
-/
import RouteDoc.Text.Basic
import RouteDoc.Text.Case
import RouteDoc.Types.Primitive

namespace RouteDoc

/-! ## Names of constants -/

/-- A name as a constant: a word begins at a capital behind a small letter or digit. `afterSmall` says
    whether such a one stands before the text. -/
def constantChars : Bool → List Char → List Char
  | _, [] => []
  | afterSmall, c :: cs =>
    if c = '_' then '_' :: constantChars false cs
    else
      let image := Text.upperChar c ++ constantChars (Text.isLower c || c.isDigit) cs
      if Text.isUpper c && afterSmall then '_' :: image else image

/-- `NotFound`, `notFound` and `NOT_FOUND` all become `NOT_FOUND`. -/
def constantCase (name : String) : String :=
  String.ofList (constantChars false name.toList)

/-! ## Codes -/

/-- A known status code. -/
structure Status where
  constant : String
  code : Nat
  reason : String
deriving Repr, DecidableEq

namespace Status

/-- The known status codes. -/
def known : List Status :=
  [⟨"CONTINUE", 100, "Continue"⟩, ⟨"SWITCHING_PROTOCOLS", 101, "Switching Protocols"⟩,
    ⟨"OK", 200, "OK"⟩, ⟨"CREATED", 201, "Created"⟩, ⟨"ACCEPTED", 202, "Accepted"⟩,
    ⟨"NON_AUTHORITATIVE_INFORMATION", 203, "Non-Authoritative Information"⟩,
    ⟨"NO_CONTENT", 204, "No Content"⟩, ⟨"RESET_CONTENT", 205, "Reset Content"⟩,
    ⟨"PARTIAL_CONTENT", 206, "Partial Content"⟩, ⟨"MULTIPLE_CHOICES", 300, "Multiple Choices"⟩,
    ⟨"MOVED_PERMANENTLY", 301, "Moved Permanently"⟩, ⟨"FOUND", 302, "Found"⟩,
    ⟨"SEE_OTHER", 303, "See Other"⟩, ⟨"NOT_MODIFIED", 304, "Not Modified"⟩,
    ⟨"TEMPORARY_REDIRECT", 307, "Temporary Redirect"⟩,
    ⟨"PERMANENT_REDIRECT", 308, "Permanent Redirect"⟩, ⟨"BAD_REQUEST", 400, "Bad Request"⟩,
    ⟨"UNAUTHORIZED", 401, "Unauthorized"⟩, ⟨"PAYMENT_REQUIRED", 402, "Payment Required"⟩,
    ⟨"FORBIDDEN", 403, "Forbidden"⟩, ⟨"NOT_FOUND", 404, "Not Found"⟩,
    ⟨"METHOD_NOT_ALLOWED", 405, "Method Not Allowed"⟩, ⟨"NOT_ACCEPTABLE", 406, "Not Acceptable"⟩,
    ⟨"REQUEST_TIMEOUT", 408, "Request Timeout"⟩, ⟨"CONFLICT", 409, "Conflict"⟩,
    ⟨"GONE", 410, "Gone"⟩, ⟨"LENGTH_REQUIRED", 411, "Length Required"⟩,
    ⟨"PRECONDITION_FAILED", 412, "Precondition Failed"⟩,
    ⟨"PAYLOAD_TOO_LARGE", 413, "Payload Too Large"⟩,
    ⟨"UNSUPPORTED_MEDIA_TYPE", 415, "Unsupported Media Type"⟩,
    ⟨"UNPROCESSABLE_ENTITY", 422, "Unprocessable Entity"⟩,
    ⟨"TOO_MANY_REQUESTS", 429, "Too Many Requests"⟩,
    ⟨"INTERNAL_SERVER_ERROR", 500, "Internal Server Error"⟩,
    ⟨"NOT_IMPLEMENTED", 501, "Not Implemented"⟩, ⟨"BAD_GATEWAY", 502, "Bad Gateway"⟩,
    ⟨"SERVICE_UNAVAILABLE", 503, "Service Unavailable"⟩,
    ⟨"GATEWAY_TIMEOUT", 504, "Gateway Timeout"⟩]

/-- The code of a constant, given by its name or by a path that ends in it. -/
def codeOfName? (name : String) : Option Nat :=
  let key := constantCase (Text.trim (Text.lastSegment name))
  (known.find? fun s => s.constant == key).map (·.code)

/-- The reason phrase of a known code. -/
def reason? (code : Nat) : Option String :=
  (known.find? fun s => s.code == code).map (·.reason)

/-- Codes that a response can have. -/
def inRange (code : Int) : Bool :=
  100 ≤ code && code ≤ 599

end Status

/-! ## Keys of responses -/

/-- Under which key a response is listed. -/
inductive StatusKey where
  | code (value : Nat)
  | default
deriving Repr, DecidableEq, Inhabited

namespace StatusKey

/-- Codes ascend, `default` comes last. -/
def compareKeys : StatusKey → StatusKey → Ordering
  | code a, code b => compare a b
  | code _, default => .lt
  | default, code _ => .gt
  | default, default => .eq

instance : Ord StatusKey := ⟨compareKeys⟩

instance : Std.LawfulEqOrd StatusKey where
  compare_self := by
    intro a
    cases a with
    | code n => exact Std.ReflOrd.compare_self (α := Nat)
    | default => rfl
  eq_of_compare := by
    intro a b h
    cases a with
    | code n =>
      cases b with
      | code m => exact congrArg StatusKey.code (Std.LawfulEqOrd.eq_of_compare h)
      | default => exact nomatch h
    | default =>
      cases b with
      | code m => exact nomatch h
      | default => rfl

instance : Std.TransOrd StatusKey where
  eq_swap := by
    intro a b
    cases a with
    | code n =>
      cases b with
      | code m => exact Std.OrientedOrd.eq_swap (α := Nat)
      | default => rfl
    | default =>
      cases b with
      | code m => rfl
      | default => rfl
  isLE_trans := by
    intro a b c hab hbc
    cases c with
    | default => cases a <;> rfl
    | code k =>
      cases b with
      | default => exact nomatch hbc
      | code m =>
        cases a with
        | default => exact nomatch hab
        | code n => exact Std.TransOrd.isLE_trans (α := Nat) hab hbc

/-- The key of a constant's name. -/
def ofName (name : String) : StatusKey :=
  match Status.codeOfName? name with
  | some value => code value
  | none => default

/-- The key of a status; one that is not known is listed under `default`. -/
def ofTerm : Term → StatusKey
  | .int n => if Status.inRange n then code n.toNat else default
  | .text s =>
    match (Text.naturalUpTo? 65535 (Text.trim s)).filter fun (n : Nat) => Status.inRange n with
    | some value => code value
    | none => ofName s
  | .symbol written => ofName written
  | .unknown => default

/-- The key as text. -/
def text : StatusKey → String
  | code value => toString value
  | default => "default"

/-- The description of a response that has none. -/
def description : StatusKey → String
  | code value => (Status.reason? value).getD ("Status " ++ toString value)
  | default => "Other responses"

end StatusKey

end RouteDoc
