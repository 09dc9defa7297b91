/-
What the service is asked and what it tells about itself: the records of
its requests and its health.
-/
import ApiScaffold.Api.Rendering
import ApiScaffold.Record.Scalar
import ApiScaffold.Sample.Library
import ApiScaffold.Settings

namespace ApiScaffold

-- ============================================================= requests

/-- A request to read a diagram. -/
structure ReadingRequest where
  diagram : String
deriving Inhabited, Repr, DecidableEq

namespace ReadingRequest

/-- Read a request. -/
def read : Reader ReadingRequest := fun j =>
  (attributeFields j).bind fun fs =>
  (field fs "diagram" readText).map ReadingRequest.mk

/-- The JSON form of a request. -/
def toJson (r : ReadingRequest) : Json := .obj [("diagram", .str r.diagram)]

end ReadingRequest

/-- A request to transform a diagram. -/
structure TransformationRequest where
  diagram : String
  format : Option String := none
  validateOutput : Bool := false
deriving Inhabited, Repr, DecidableEq

namespace TransformationRequest

/-- Read a request. -/
def read : Reader TransformationRequest := fun j =>
  (attributeFields j).bind fun fs =>
  (((field fs "diagram" readText).map TransformationRequest.mk
    |>.app (fieldOr fs "format" none (readNullable (readLiteral OutputFormat.names))))
    |>.app (fieldOr fs "validate_output" false readBoolean))

/-- The JSON form of a request. -/
def toJson (r : TransformationRequest) : Json :=
  .obj [("diagram", .str r.diagram), ("format", Json.orNull .str r.format),
    ("validate_output", .bool r.validateOutput)]

end TransformationRequest

-- =============================================================== health

/-- What the service tells about itself. -/
structure Health where
  status : String := "healthy"
  serviceName : String
  version : String
  samples : String := "available"
  /-- The seconds since the service started. -/
  uptime : Binary64
  details : OrderedMap Json := .empty
deriving Inhabited

namespace Health

/-- Read a health record. -/
def read : Reader Health := fun j =>
  (attributeFields j).bind fun fs =>
  ((((((fieldOr fs "status" "healthy"
        (readAlternative ["healthy", "degraded", "unhealthy"])).map Health.mk
    |>.app (field fs "service_name" readText))
    |>.app (field fs "version" readText))
    |>.app (fieldOr fs "fixtures" "available" (readAlternative ["available", "missing"])))
    |>.app (field fs "uptime_seconds" readNumber))
    |>.app (fieldOr fs "details" .empty readObject))

/-- The JSON form of a health record. -/
def toJson (h : Health) : Json :=
  .obj [("status", .str h.status), ("service_name", .str h.serviceName),
    ("version", .str h.version), ("fixtures", .str h.samples),
    ("uptime_seconds", .float h.uptime), ("details", .obj h.details.entries)]

end Health

end ApiScaffold
