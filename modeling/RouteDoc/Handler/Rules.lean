/-
  Rules of inference: what a call says about its route.

  1. `response`: `respond…` sends a response. One argument may be its status; of the others the first is
     the body, and media types may follow.
  2. `receive`: `receive…` reads the request body.
  3. `header`: `request().header(name)` reads a header.
  4. `parameter`: `….get(name)` reads a parameter; the accessor before it tells from where.

  The first rule that applies and finds what it expects decides.
-/
import RouteDoc.Handler.Call
import RouteDoc.Http.Media
import RouteDoc.Route.Field

namespace RouteDoc.Handler

/-- A rule of inference. -/
structure Rule where
  name : String
  /-- whether the rule is about calls like this -/
  applies : Call → Bool
  /-- what the call says; `none` if it does not look as the rule expects -/
  extract : Call → Option (List Field)

/-- Whether a text begins with another. -/
def beginsWith (front s : String) : Bool :=
  front.toList.isPrefixOf s.toList

/-- Whether a text ends in another. -/
def endsWith (back s : String) : Bool :=
  back.toList.reverse.isPrefixOf s.toList.reverse

/-! ## Statuses and media types -/

/-- Types of statuses. -/
def statusTypes : List String := ["StatusCode", "HttpStatusCode"]

/-- Whether a name has more than one part. -/
def isQualified (name : String) : Bool :=
  1 < (Text.segments name).length

/-- Whether the first part of a name is a type of statuses. -/
def isOfStatusType (name : String) : Bool :=
  statusTypes.contains ((Text.segments name).headD "")

/-- The status that an argument gives. -/
def statusOf? : Arg → Option Term
  | .int n => if Status.inRange n then some (.int n) else none
  | .path name =>
    if isOfStatusType name || (isQualified name && (Status.codeOfName? name).isSome) then
      some (.symbol name)
    else none
  | .call function [.int n] => if isOfStatusType function then some (.int n) else none
  | _ => none

/-- Whether a text looks like a media type. -/
def looksLikeMedia (s : String) : Bool :=
  let cs := s.toList
  let kind := cs.takeWhile (· ≠ '/')
  let sub := (cs.dropWhile (· ≠ '/')).drop 1
  !kind.isEmpty && !sub.isEmpty && !cs.any Text.isBlank
    && kind.all fun c => c.isAlphanum || c == '-'

/-- The media type that an argument gives. A text counts only behind the body: before, it may be the
    body itself. -/
def mediaOf? (behindBody : Bool) : Arg → Option Term
  | .path name => if (Media.ofName? name).isSome then some (.symbol name) else none
  | .call function [.text s] =>
    if endsWith "parse" function && looksLikeMedia s then some (.text s) else none
  | .text s => if behindBody && looksLikeMedia s then some (.text s) else none
  | _ => none

/-! ## Responses -/

/-- A first argument that is a local name is the status, if something else follows that can be the
    body. -/
def unresolvedStatus? : List Arg → Option Term
  | .path name :: rest =>
    if !isQualified name && rest.any fun a => (mediaOf? true a).isNone then some (.symbol name)
    else none
  | _ => none

/-- The status among some arguments, and the other arguments. -/
def splitStatus? : List Arg → Option (Term × List Arg)
  | [] => none
  | a :: as =>
    match statusOf? a with
    | some status => some (status, as)
    | none => (splitStatus? as).map fun (status, rest) => (status, a :: rest)

/-- Body and media type among some arguments. -/
structure Content where
  body : Option Arg
  media : Option Term

/-- One more argument: a media type, or else the body. The first of each counts. -/
def Content.add (c : Content) (a : Arg) : Content :=
  match mediaOf? c.body.isSome a with
  | some media => { c with media := c.media.or (some media) }
  | none => { c with body := c.body.or (some a) }

/-- Whether a type argument is the type of a status. -/
def TypeArg.isStatus (t : TypeArg) : Bool :=
  statusTypes.contains (Text.lastSegment t.name)

/-- The method of a redirect. -/
def redirectMethod : String := "respond_redirect"

/-- Media type and type that a method or body implies. -/
def impliedContent (method : String) (body : Option Arg) (explicit : Option TypeRef) :
    Option String × Option TypeRef :=
  match method with
  | "respond_text" => (some "text/plain", some .string)
  | "respond_html" => (some "text/html", some .string)
  | "respond_bytes" => (some "application/octet-stream", some (.ofPrimitive .binary))
  | _ =>
    match body with
    | some (.text _) => (some "text/plain", none)
    | some _ => (some "application/json", none)
    | none => (if explicit.isSome then some "application/json" else none, none)

/-- Whether the second of some arguments is `true`. -/
def isPermanent : List Arg → Bool
  | _ :: .bool true :: _ => true
  | _ => false

/-- The response that a call sends. -/
def extractResponse (c : Call) : Option (List Field) :=
  if c.method = redirectMethod then
    let status := match splitStatus? c.args with
      | some (status, _) => status
      | none => .int (if isPermanent c.args then 301 else 302)
    some [.response (.bare status)]
  else
    let (status, args) := match splitStatus? c.args with
      | some split => split
      | none =>
        match unresolvedStatus? c.args with
        | some status => (status, c.args.drop 1)
        | none => (.int 200, c.args)
    let content := args.foldl Content.add ⟨none, none⟩
    let explicit := (c.typeArgs.filter (!·.isStatus)).findSome? (·.type)
    let (media, type) := impliedContent c.method content.body explicit
    some [.response
      ⟨status, content.media.or (media.map .text),
        (explicit.or type).or (content.body.bind Arg.type?), none⟩]

/-! ## Request bodies -/

/-- The request body that a method reads. -/
def receivedBody? (method : String) (typeArg : Option TypeArg) : Option Body :=
  let declared := typeArg.bind (·.type)
  match method with
  | "receive" | "receive_json" => some ⟨declared, none, none⟩
  | "receive_text" => some ⟨some .string, some (.text "text/plain"), none⟩
  | "receive_bytes" =>
    some ⟨some (.ofPrimitive .binary), some (.text "application/octet-stream"), none⟩
  | "receive_form" => some ⟨declared, some (.text "application/x-www-form-urlencoded"), none⟩
  | "receive_multipart" => some ⟨none, some (.text "multipart/form-data"), none⟩
  | _ => none

/-- The request body that a call reads; its type may be given by what the result is bound to. -/
def extractReceive (c : Call) : Option (List Field) :=
  (receivedBody? c.method c.typeArgs.head?).map fun b =>
    [.body { b with type := b.type.or c.expected }]

/-! ## Parameters -/

/-- The place that an accessor reads parameters from. -/
def placeOf : Option String → Place
  | some "headers" => .header
  | some "path_parameters" | some "path_params" => .path
  | some "query_parameters" | some "query_params" => .query
  | some "cookies" => .cookie
  | _ => .unknown

/-- The parameter that a call with one argument reads. -/
def extractParameter (place : Place) (c : Call) : Option (List Field) :=
  match c.args with
  | [arg] => arg.key?.map fun name => [.parameter (.bare place name)]
  | _ => none

/-! ## The rules -/

/-- The rules in order. -/
def rules : List Rule :=
  [⟨"response", fun c => c.onCall && beginsWith "respond" c.method, extractResponse⟩,
    ⟨"receive", fun c => c.onCall && beginsWith "receive" c.method, extractReceive⟩,
    ⟨"header",
      fun c => c.onCall && c.method == "header" && c.accessors.getLast? == some "request",
      extractParameter .header⟩,
    ⟨"parameter", fun c => c.onCall && c.method == "get" && !c.accessors.isEmpty,
      fun c => extractParameter (placeOf c.accessors.getLast?) c⟩]

/-- What a rule says about a call. -/
def Rule.fields? (r : Rule) (c : Call) : Option (List Field) :=
  if r.applies c then r.extract c else none

/-- What a call says about its route, and a report if it is on the call object and no rule covers it. -/
def infer (c : Call) : List Field × List Finding :=
  match rules.findSome? (·.fields? c) with
  | some fields => (fields, [])
  | none => ([], if c.onCall then [⟨.noRule c.method, some c.location⟩] else [])

end RouteDoc.Handler
