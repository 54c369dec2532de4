/-
  What a reply says, wherever its status stands.

  1. **The status** — the one argument that gives a status is taken out, and what is left does not tell
     where it stood (`splitStatus?_of_inserted`).
  2. **Body and media type** — `bodyAmong`, `mediaAmong`: the body is the first argument that is no media
     type by itself. The media type is the first one in front of the body, or else the first one behind
     it, where a text may be one too. Going through the arguments one by one finds these (`foldl_add_eq`).
  3. **The response** — `reply`: a response as a function of method, type arguments, status and the other
     arguments. This is what is inferred (`infer_of_inserted`), so the place of the status plays no part.
-/
import RouteDoc.Handler.Rules

namespace RouteDoc.Handler

/-! ## The status -/

/-- An argument is put somewhere among others, which keep their order. -/
def Inserted (a : Arg) (others args : List Arg) : Prop :=
  ∃ before after, others = before ++ after ∧ args = before ++ a :: after

/-- **The status is found wherever it stands**, and the others are left in their order. -/
theorem splitStatus?_of_inserted {a : Arg} {s : Term} (hstatus : statusOf? a = some s)
    {others args : List Arg} (hothers : ∀ b ∈ others, statusOf? b = none) (h : Inserted a others args) :
    splitStatus? args = some (s, others) := by
  obtain ⟨before, after, rfl, rfl⟩ := h
  induction before with
  | nil =>
    show splitStatus? (a :: after) = some (s, after)
    rw [splitStatus?, hstatus]
  | cons b before ih =>
    rw [List.cons_append, List.forall_mem_cons] at hothers
    show splitStatus? (b :: (before ++ a :: after)) = _
    rw [splitStatus?, hothers.1, ih hothers.2]
    rfl

/-! ## Body and media type -/

/-- Whether an argument is a media type wherever it stands. -/
def isMedia (a : Arg) : Bool :=
  (mediaOf? false a).isSome

/-- The body: the first argument that is no media type by itself. -/
def bodyAmong (args : List Arg) : Option Arg :=
  args.find? (!isMedia ·)

/-- The media type: the first one in front of the body, or the first one behind it. -/
def mediaAmong (args : List Arg) : Option Term :=
  ((args.takeWhile isMedia).findSome? (mediaOf? false)).or
    (((args.dropWhile isMedia).drop 1).findSome? (mediaOf? true))

/-- Behind the body only a media type is looked for. -/
theorem foldl_add_of_body : ∀ (args : List Arg) (body : Arg) (media : Option Term),
    args.foldl Content.add ⟨some body, media⟩ = ⟨some body, media.or (args.findSome? (mediaOf? true))⟩
  | [], body, media => by rw [List.foldl_nil, List.findSome?_nil, Option.or_none]
  | a :: args, body, media => by
    rw [List.foldl_cons, List.findSome?_cons]
    cases ha : mediaOf? true a with
    | some m =>
      have hadd : Content.add ⟨some body, media⟩ a = ⟨some body, media.or (some m)⟩ := by
        rw [Content.add, Option.isSome_some, ha]
      rw [hadd, foldl_add_of_body args, Option.or_assoc, Option.some_or]
    | none =>
      have hadd : Content.add ⟨some body, media⟩ a = ⟨some body, media⟩ := by
        rw [Content.add, Option.isSome_some, ha, Option.some_or]
      rw [hadd, foldl_add_of_body args]

/-- **Going through the arguments** finds the body and the media type. -/
theorem foldl_add_eq : ∀ (args : List Arg) (media : Option Term),
    args.foldl Content.add ⟨none, media⟩ = ⟨bodyAmong args, media.or (mediaAmong args)⟩
  | [], media => (congrArg (Content.mk none) Option.or_none).symm
  | a :: args, media => by
    rw [List.foldl_cons]
    cases ha : mediaOf? false a with
    | some m =>
      have hmedia : isMedia a = true := by rw [isMedia, ha, Option.isSome_some]
      have hadd : Content.add ⟨none, media⟩ a = ⟨none, media.or (some m)⟩ := by
        rw [Content.add, Option.isSome_none, ha]
      have hbody : bodyAmong (a :: args) = bodyAmong args := List.find?_cons_of_neg (by simp [hmedia])
      have hfirst : mediaAmong (a :: args) = some m := by
        rw [mediaAmong, List.takeWhile_cons_of_pos hmedia, List.findSome?_cons, ha, Option.some_or]
      rw [hadd, foldl_add_eq args, hbody, hfirst, Option.or_assoc, Option.some_or]
    | none =>
      have hmedia : ¬ isMedia a = true := by rw [isMedia, ha]; simp
      have hadd : Content.add ⟨none, media⟩ a = ⟨some a, media⟩ := by
        rw [Content.add, Option.isSome_none, ha, Option.none_or]
      have hbody : bodyAmong (a :: args) = some a := List.find?_cons_of_pos (by simp [hmedia])
      have hbehind : mediaAmong (a :: args) = args.findSome? (mediaOf? true) := by
        rw [mediaAmong, List.takeWhile_cons_of_neg hmedia, List.dropWhile_cons_of_neg hmedia,
          List.findSome?_nil, Option.none_or]
        rfl
      rw [hadd, foldl_add_of_body, hbody, hbehind]

/-! ## The response -/

/-- The type that type arguments give. -/
def explicitType (typeArgs : List TypeArg) : Option TypeRef :=
  (typeArgs.filter (!·.isStatus)).findSome? (·.type)

/-- The response that a method sends with a status and some other arguments. A redirect has nothing but
    its status. -/
def reply (method : String) (typeArgs : List TypeArg) (status : Term) (others : List Arg) : Response :=
  let explicit := explicitType typeArgs
  let implied := impliedContent method (bodyAmong others) explicit
  if method = redirectMethod then .bare status
  else
    ⟨status, (mediaAmong others).or (implied.1.map .text),
      (explicit.or implied.2).or ((bodyAmong others).bind Arg.type?), none⟩

theorem reply_withStatus (method : String) (typeArgs : List TypeArg) (s s' : Term) (others : List Arg) :
    reply method typeArgs s' others = { reply method typeArgs s others with status := s' } := by
  rw [reply, reply]
  dsimp only
  split
  · rfl
  · rfl

theorem status_reply (method : String) (typeArgs : List TypeArg) (s : Term) (others : List Arg) :
    (reply method typeArgs s others).status = s := by
  rw [reply_withStatus method typeArgs s s others]

/-- **What a call with a status says** is the reply with the other arguments, and nothing is reported. -/
theorem infer_of_inserted {c : Call} (hcall : c.onCall = true)
    (hmethod : beginsWith "respond" c.method = true) {a : Arg} {s : Term} {others : List Arg}
    (hargs : Inserted a others c.args) (hstatus : statusOf? a = some s)
    (hothers : ∀ b ∈ others, statusOf? b = none) :
    infer c = ([.response (reply c.method c.typeArgs s others)], []) := by
  have hsplit := splitStatus?_of_inserted hstatus hothers hargs
  have hextract : extractResponse c = some [.response (reply c.method c.typeArgs s others)] := by
    rw [extractResponse, reply]
    dsimp only
    rw [hsplit]
    split
    · rfl
    · rw [foldl_add_eq, Option.none_or]
      rfl
  have hrule : Rule.fields? ⟨"response", fun c => c.onCall && beginsWith "respond" c.method,
    extractResponse⟩ c
      = some [.response (reply c.method c.typeArgs s others)] := by
    have happlies : (c.onCall && beginsWith "respond" c.method) = true := by
      rw [hcall, hmethod, Bool.and_self]
    rw [Rule.fields?, if_pos happlies]
    exact hextract
  have hfound : rules.findSome? (·.fields? c)
      = some [.response (reply c.method c.typeArgs s others)] := by
    rw [rules, List.findSome?_cons, hrule]
  rw [infer, hfound]

/-- **The place of the status does not matter.** Take any call on the call object whose method begins with
    `respond` and of whose arguments exactly one gives a status. It says one response: the reply with this
    status and the other arguments. This is so wherever the argument is put among the others. Apart from
    the status, the response is the same for every call of the method with the same type arguments and the
    same other arguments in their order, whatever and wherever its status is. -/
theorem status_position_irrelevant {c : Call} (hcall : c.onCall = true)
    (hmethod : beginsWith "respond" c.method = true) {a : Arg} {s : Term} {others : List Arg}
    (hargs : Inserted a others c.args) (hstatus : statusOf? a = some s)
    (hothers : ∀ b ∈ others, statusOf? b = none) :
    let r := reply c.method c.typeArgs s others
    infer c = ([.response r], []) ∧ r.status = s
    ∧ (∀ args, Inserted a others args → infer { c with args := args } = infer c)
    ∧ ∀ (c' : Call) (a' : Arg) (s' : Term), c'.onCall = true → c'.method = c.method →
    c'.typeArgs = c.typeArgs →
        Inserted a' others c'.args → statusOf? a' = some s' → infer c'
          = ([.response { r with status := s' }], []) := by
  intro r
  have hinfer : infer c = ([.response r], []) := infer_of_inserted hcall hmethod hargs hstatus hothers
  refine ⟨hinfer, status_reply c.method c.typeArgs s others, ?_, ?_⟩
  · intro args hmoved
    rw [hinfer]
    exact infer_of_inserted (c := { c with args := args }) hcall hmethod hmoved hstatus hothers
  · intro c' a' s' hcall' hsame htypes hargs' hstatus'
    rw [← hsame] at hmethod
    rw [infer_of_inserted hcall' hmethod hargs' hstatus' hothers, hsame, htypes,
      reply_withStatus c.method c.typeArgs s s' others]

/-- The call `call.respond("<h1>", StatusCode::CREATED, "text/html")`. -/
def headline : Call where
  onCall := true
  accessors := []
  method := "respond"
  typeArgs := []
  args := [.text "<h1>", .path "StatusCode::CREATED", .text "text/html"]
  expected := none
  location := ⟨"crate", 1, 0⟩

/-- The status may stand in front of the body and its media type, between them or behind them. -/
theorem headline_status_anywhere :
    let status : Arg := .path "StatusCode::CREATED"
    let others : List Arg := [.text "<h1>", .text "text/html"]
    let r : Response := ⟨.symbol "StatusCode::CREATED", some (.text "text/html"), some .string, none⟩
    Inserted status others headline.args ∧ statusOf? status = some (.symbol "StatusCode::CREATED")
    ∧ infer headline = ([.response r], [])
    ∧ infer { headline with args := status :: others } = infer headline
    ∧ infer { headline with args := others ++ [status] } = infer headline := by
  intro status others r
  have hargs : Inserted status others headline.args := ⟨[.text "<h1>"], [.text "text/html"], rfl, rfl⟩
  have hstatus : statusOf? status = some (.symbol "StatusCode::CREATED") := by decide
  have hothers : ∀ b ∈ others, statusOf? b = none := by
    intro b hb
    simp only [others, List.mem_cons, List.not_mem_nil, or_false] at hb
    rcases hb with rfl | rfl <;> rfl
  have hreply : reply "respond" [] (.symbol "StatusCode::CREATED") others = r := by decide
  obtain ⟨hinfer, -, hmoved, -⟩ :=
    status_position_irrelevant (c := headline) rfl rfl hargs hstatus hothers
  refine ⟨hargs, hstatus, ?_, hmoved _ ⟨[], others, rfl, rfl⟩, hmoved _ ⟨others, [], rfl, rfl⟩⟩
  rw [← hreply]
  exact hinfer

end RouteDoc.Handler
