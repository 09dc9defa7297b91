/-
The service: a function from requests to replies over fixed settings
and files. Every reply carries the trace identifier of its request,
except where the service itself failed.
-/
import ApiScaffold.Api.Transform
import ApiScaffold.Diagram.Export
import ApiScaffold.Log.Record
import ApiScaffold.Service.Request
import ApiScaffold.Service.Target

namespace ApiScaffold

-- ============================================================= messages

/-- A request. -/
structure Request where
  method : String
  target : String
  /-- Parameters that replace those of the target. -/
  query : Option (List (String × String)) := none
  headers : List (String × String) := []
  body : Option String := none
deriving Inhabited, Repr, DecidableEq

/-- The body of a reply. -/
inductive Body where
  | json (value : Json)
  | text (content : String)
deriving Inhabited, Repr

/-- The trace identifier of a reply. -/
inductive Trace where
  | given (id : String)
  /-- A new identifier, made by whoever sends the reply. -/
  | fresh
deriving Inhabited, Repr, DecidableEq

/-- A reply. -/
structure Reply where
  status : Int
  trace : Option Trace
  body : Body
deriving Inhabited, Repr

/-- The header that carries trace identifiers. -/
def traceField : String := "x-trace-id"

/-- The first header of a name, without regard to case. -/
def Request.header? (r : Request) (name : String) : Option String :=
  (r.headers.find? fun (other, _) => lowerText other == name).map Prod.snd

/-- The trace identifier of a request. -/
def Request.trace (r : Request) : Trace :=
  match r.header? traceField with
  | some id => if id.isEmpty then .fresh else .given id
  | none => .fresh

/-- Whether a type of content is JSON: its main type is `application`,
and its subtype is or ends like that of JSON. -/
def isJsonType (type : String) : Bool :=
  let name := lower (trim (type.toList.takeWhile (· ≠ ';')))
  match pieces '/' name with
  | [main, subtype] =>
    String.ofList main == "application"
      && (String.ofList subtype == "json"
        || "+json".toList.reverse.isPrefixOf subtype.reverse)
  | _ => false

/-- Whether the body of a request is JSON, which it is unless the request
says something else. -/
def Request.isJson (r : Request) : Bool :=
  match r.header? "content-type" with
  | some type => type.isEmpty || isJsonType type
  | none => true

-- =============================================================== routes

/-- What the service offers. -/
inductive Route where
  /-- What the service offers, for programs or on a page; whoever runs the
  service supplies the content. -/
  | overview
  | health
  | parse
  | transform
  | samples
  | sample (id : String)
  | transformSample (id : String)
deriving Inhabited, Repr, DecidableEq

namespace Route

/-- The methods of a route. -/
def methods : Route → List String
  | overview => ["GET", "HEAD"]
  | health | samples | sample _ => ["GET"]
  | parse | transform | transformSample _ => ["POST"]

/-- A last segment as it is compared: one line break at its end does not
count. -/
def lastSegment (segment : List Char) : String :=
  match segment.reverse with
  | '\n' :: rest => String.ofList rest.reverse
  | _ => String.ofList segment

/-- The route of the segments of a path. -/
def ofSegments? : List (List Char) → Option Route
  | [[], last] =>
    if ["openapi.json", "docs", "redoc"].contains (lastSegment last) then some .overview
    else none
  | [[], ['d', 'o', 'c', 's'], last] =>
    if lastSegment last == "oauth2-redirect" then some .overview else none
  | [[], ['a', 'p', 'i'], last] =>
    if lastSegment last == "health" then some .health
    else if lastSegment last == "parse" then some .parse
    else if lastSegment last == "transform" then some .transform
    else if lastSegment last == "fixtures" then some .samples
    else none
  | [[], ['a', 'p', 'i'], folder, id] =>
    if String.ofList folder == "fixtures" && !id.isEmpty then some (.sample (String.ofList id))
    else none
  | [[], ['a', 'p', 'i'], folder, id, last] =>
    if String.ofList folder == "fixtures" && !id.isEmpty
        && lastSegment last == "transform" then
      some (.transformSample (String.ofList id))
    else none
  | _ => none

/-- The route of a path. -/
def ofPath? (path : List Char) : Option Route := ofSegments? (pieces '/' path)

end Route

/-- A path without the slashes at its end. -/
def withoutFinalSlashes (path : List Char) : List Char :=
  (path.reverse.dropWhile (· == '/')).reverse

-- ============================================================== service

/-- A running service. -/
structure Service where
  settings : Settings
  files : FileTree
  /-- The seconds since the start. -/
  uptime : Binary64
deriving Inhabited

/-- The version of the service. -/
def serviceVersion : String := "1.0.0"

/-- What goes wrong with a request. -/
inductive RequestFault where
  | failure (f : Failure)
  /-- A part of the request does not read. -/
  | problems (ps : List Problem)
  | status (code : Int) (detail : String)
  /-- The reply would hold a number that JSON has no form for. -/
  | noJsonForm
deriving Repr

/-- A result or a fault. -/
abbrev Served (α : Type) := Except RequestFault α

/-- An outcome as a result. -/
def Served.ofOutcome {α : Type} : Outcome α → Served α
  | .ok a => .ok a
  | .error f => .error (.failure f)

/-- The deepest nesting of arrays and objects that a body may have. -/
def nestingLimit : Nat := 950

/-- A body that cannot be read at all. -/
def unreadableBody : RequestFault := .status 400 "There was an error parsing the body"

/-- The JSON value that a text is. -/
def jsonValue (text : List Char) : Served Json :=
  let result := Json.read text
  let reached := match result with
    | .error e => text.take (e.offset text + 1)
    | .ok _ => text
  if nestingLimit < Json.nesting reached then .error unreadableBody
  else match result with
    | .ok j => .ok j
    | .error (.numberTooLong _) => .error unreadableBody
    | .error e =>
      .error (.problems [⟨[.key "body", .index (e.offset text)], .malformed⟩])

/-- The value in the body of a request; nothing for an absent body. A body
that is no JSON counts as a text. -/
def bodyValue (r : Request) : Served (Option Json) :=
  let body := r.body.getD ""
  if body.isEmpty then .ok none
  else if !r.isJson then .ok (some (.str body))
  else (jsonValue (match body.toList with
    | '\uFEFF' :: rest => rest
    | text => text)).map some

/-- The part of a value that a path leads to. -/
def Json.part : Json → List PathStep → Json
  | j, [] => j
  | j, .key name :: rest => ((j.field? name).getD .null).part rest
  | .arr items, .index i :: rest => (items.getD i .null).part rest
  | _, .index _ :: _ => .null

/-- The part of a value that a problem tells of. A missing field is told
of by the object that lacks it. -/
def Problem.told (p : Problem) (j : Json) : Json :=
  j.part (match p.fault with
    | .missing => p.path.dropLast
    | _ => p.path)

/-- Read the body of a request. The reply to problems repeats what they
tell of. -/
def readBody {α : Type} (reader : Reader α) (r : Request) : Served α := do
  match ← bodyValue r with
  | none | some .null => throw (.problems [⟨[.key "body"], .missing⟩])
  | some j => match reader j with
    | .ok a => return a
    | .error ps =>
      if ps.any fun p => (p.told j).finite != p.told j then throw .noJsonForm
      else throw (.problems (ps.map fun p => { p with path := .key "body" :: p.path }))

/-- The format that the parameters of a request ask for. -/
def readFormat (query : List (String × String)) : Served (Option String) :=
  match query.reverse.lookup "format" with
  | none => .ok none
  | some name => match ((readAlternative OutputFormat.names (.str name)).under
      (.key "format")).under (.key "query") with
    | .ok name => .ok (some name)
    | .error ps => .error (.problems ps)

namespace Service

/-- The folder of the samples. -/
def samplesFolder (s : Service) : FilePath := .ofText s.settings.samplesFolder

/-- The health of the service. -/
def health (s : Service) : Outcome Health := do
  let found ← s.files.hasLibrary s.samplesFolder
  return {
    status := if found then "healthy" else "degraded"
    serviceName
    version := serviceVersion
    samples := if found then "available" else "missing"
    uptime := s.uptime
    details := .ofList [("fixtures_dir", .str s.samplesFolder.text)] }

/-- Serve a route. -/
def serve (s : Service) (query : List (String × String)) (request : Request) :
    Route → Served Json
  | .overview => .ok .null
  | .health => (Served.ofOutcome s.health).map Health.toJson
  | .parse => do
    let r ← readBody ReadingRequest.read request
    Served.ofOutcome (s.settings.allow r.diagram)
    let d ← Served.ofOutcome (NumeralTooLong.outcome (Diagram.parse r.diagram))
    return d.toJson
  | .transform => do
    let r ← readBody TransformationRequest.read request
    Served.ofOutcome (s.settings.allow r.diagram)
    let t ← Served.ofOutcome
      (ApiScaffold.transform s.settings.info r.diagram r.format r.validateOutput)
    return t.toJson
  | .samples => do
    let samples ← Served.ofOutcome (s.files.samples s.samplesFolder)
    return .arr (samples.map Sample.toJson)
  | .sample id => do
    let sample ← Served.ofOutcome (s.files.sample s.samplesFolder id)
    return sample.toJson
  | .transformSample id => do
    let format ← readFormat query
    let sample ← Served.ofOutcome (s.files.sample s.samplesFolder id)
    let t ← Served.ofOutcome
      (ApiScaffold.transform s.settings.info sample.content format false)
    return t.toJson

/-- A body that tells what went wrong. -/
def detailBody (detail : Json) : Body := .json (.obj [("detail", detail)])

/-- The reply to a fault. -/
def faultReply (trace : Trace) : RequestFault → Reply
  | .failure (.service e) => ⟨e.status, some trace, detailBody (.str e.detail)⟩
  | .failure _ => ⟨500, none, .text "Internal Server Error"⟩
  | .problems ps => ⟨422, some trace, detailBody (.arr (ps.map Problem.toJson))⟩
  | .status code detail => ⟨code, some trace, detailBody (.str detail)⟩
  | .noJsonForm => ⟨500, none, .text "Internal Server Error"⟩

/-- The reply to a request; a reply to HEAD has no body. -/
def answer (s : Service) (r : Request) : Reply :=
  let target := Target.ofText r.target
  let method := upperText r.method
  let reply := match Route.ofPath? target.path with
    | some route =>
      if !route.methods.contains method then
        faultReply r.trace (.status 405 "Method Not Allowed")
      else match s.serve (r.query.getD target.query) r route with
        | .ok j => ⟨200, some r.trace, .json j⟩
        | .error fault => faultReply r.trace fault
    | none =>
      let path := withoutFinalSlashes target.path
      if path ≠ target.path && (Route.ofPath? path).isSome then
        ⟨307, some r.trace, .text ""⟩
      else faultReply r.trace (.status 404 "Not Found")
  if method == "HEAD" then { reply with body := .text "" } else reply

/-- Start the service with settings from the environment. -/
def start (environment : List (String × String)) (files : FileTree)
    (uptime : Binary64) : Outcome Service := do
  let settings ← (Settings.read { environment }).outcome
  let _ ← threshold settings.logLevel
  return { settings, files, uptime }

end Service

end ApiScaffold
