/-
Log records: one JSON object to a line. The time of a record is its first
field and is supplied by whoever writes it out.
-/
import ApiScaffold.Failure
import ApiScaffold.Json.Printer
import ApiScaffold.Log.Notice
import ApiScaffold.Text.Case

namespace ApiScaffold

/-- A log record without its time. -/
structure LogRecord where
  level : String
  service : String
  logger : String
  traceId : String := ""
  message : String
  exception : Option String := none
deriving Inhabited, Repr, DecidableEq

namespace LogRecord

/-- The fields of a record after its time. -/
def fields (r : LogRecord) : List (String × Json) :=
  [("level", .str r.level), ("service_name", .str r.service),
   ("logger", .str r.logger), ("trace_id", .str r.traceId),
   ("message", .str r.message)]
    ++ (r.exception.map fun text => ("exception", Json.str text)).toList

/-- The record as a line of JSON, with its time. -/
def line (time : String) (r : LogRecord) : String :=
  (Json.obj (("timestamp", .str time) :: r.fields)).compact

/-- The record of a notice. -/
def ofNotice (service : String) (n : Notice) : LogRecord where
  level := n.level.name
  service := service
  logger := n.logger
  message := n.message

end LogRecord

-- ================================================================ levels

/-- The name of the service where none is given. -/
def serviceName : String := "uml-openapi"

/-- The ranks of the words that name a level; the lowest level leaves the
choice to the root, which tells warnings. -/
def levelRanks : List (String × Nat) :=
  [("DEBUG", 10), ("INFO", 20), ("WARNING", 30), ("WARN", 30), ("ERROR", 40),
   ("CRITICAL", 50), ("FATAL", 50), ("NOTSET", 30)]

/-- The rank from which notices are told, for the name of a level in any
letter case. Unknown words mean `info`; two words name settings of
logging that are no levels. -/
def threshold (level : String) : Outcome Nat :=
  let word := upperText level
  match levelRanks.lookup word with
  | some rank => .ok rank
  | none =>
    if word == "BASIC_FORMAT" then
      .error (.unknownLevel "%(levelname)s:%(name)s:%(message)s")
    else if word == "_STYLES" then .error .levelNotAWord
    else .ok LogLevel.info.rank

/-- The records of the notices that reach a rank. -/
def recordsFrom (rank : Nat) (service : String) (notices : List Notice) :
    List LogRecord :=
  (notices.filter fun n => rank ≤ n.level.rank).map (LogRecord.ofNotice service)

end ApiScaffold
