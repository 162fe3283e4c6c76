import PhraseSql.Http.Response
import PhraseSql.Log.Event
import PhraseSql.Payload

namespace PhraseSql.Service

structure Reply where
  response : Http.Response
  events : List Log.Event
  deriving DecidableEq

structure ValidationError where
  message : String
  deriving DecidableEq

namespace ValidationError

def event (e : ValidationError) : Log.Event :=
  ⟨.debug, "nl2sql_service::error", "Request validation failed: " ++ e.message⟩

def reply (e : ValidationError) : Reply :=
  ⟨.json 422 (Refusal.encode ⟨"VALIDATION_ERROR", e.message⟩), [e.event]⟩

def report (e : ValidationError) : String :=
  "ValidationError(" ++ Text.quoted e.message ++ ")"

end ValidationError

end PhraseSql.Service
