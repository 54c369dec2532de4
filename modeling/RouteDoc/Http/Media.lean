/-
  Media types and the constants that stand for them.
-/
import RouteDoc.Http.Status

namespace RouteDoc.Media

/-- Constants and their media types. -/
def known : List (String × String) :=
  [("APPLICATION_JSON", "application/json"), ("APPLICATION_XML", "application/xml"),
    ("APPLICATION_OCTET_STREAM", "application/octet-stream"),
    ("APPLICATION_WWW_FORM_URLENCODED", "application/x-www-form-urlencoded"),
    ("APPLICATION_PDF", "application/pdf"), ("MULTIPART_FORM_DATA", "multipart/form-data"),
    ("TEXT_PLAIN", "text/plain"), ("TEXT_PLAIN_UTF_8", "text/plain"), ("TEXT_HTML", "text/html"),
    ("TEXT_HTML_UTF_8", "text/html"), ("TEXT_CSV", "text/csv"),
    ("TEXT_EVENT_STREAM", "text/event-stream"), ("IMAGE_PNG", "image/png"),
    ("IMAGE_JPEG", "image/jpeg")]

/-- The media type of a constant. -/
def ofConstant? (constant : String) : Option String :=
  (known.find? fun entry => entry.1 == constant).map (·.2)

/-- The media type that a path stands for: its last name is the constant (`mime::TEXT_HTML`), or its last
    two names are (`ContentType::Text::Html`). -/
def ofName? (name : String) : Option String :=
  match ((Text.segments name).map Text.trim).reverse with
  | [] => none
  | [last] => ofConstant? (constantCase last)
  | last :: before :: _ =>
    (ofConstant? (constantCase last)).or
      (ofConstant? (constantCase before ++ "_" ++ constantCase last))

/-- The media type of a term. -/
def ofTerm? : Term → Option String
  | .text s => if s.toList.contains '/' then some s else none
  | .symbol written => ofName? written
  | _ => none

end RouteDoc.Media
