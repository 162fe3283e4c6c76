import PhraseSql.Service.ContentType
import PhraseSql.Service.Reply

namespace PhraseSql.Service

open Http

def answer (query : String) : Answer where
  sql := "SELECT * FROM table WHERE description LIKE '%" ++ query ++ "%'"
  explanation := "This is a placeholder NL2SQL service. Replace with your actual implementation."
  confidence := .half

def handlerEvent (message : String) : Log.Event :=
  ⟨.debug, "nl2sql_service::handlers", message⟩

def healthReply : Reply :=
  ⟨.json 200 Health.ok.encode, [handlerEvent "Health check endpoint called"]⟩

def question (r : Request) : Except ValidationError Question :=
  if acceptsBody r then
    (Question.decode r.body).mapError fun f => ⟨f.message r.body⟩
  else .error ⟨"Expected request with `Content-Type: application/json`"⟩

def answerReply (q : Question) : Reply :=
  ⟨.json 200 (answer q.query).encode, [handlerEvent ("Query endpoint called with query: " ++ q.query)]⟩

def queryReply (r : Request) : Reply :=
  match question r with
  | .ok q => answerReply q
  | .error e => e.reply

def mostBodyBytes : Nat := 2097152

def tooLongReply : Reply :=
  ⟨.ofType "text/plain; charset=utf-8" 413
    "Failed to buffer the request body: length limit exceeded", []⟩

inductive Endpoint where
  | health
  | query
  deriving DecidableEq

namespace Endpoint

def ofPath? (path : List UInt8) : Option Endpoint :=
  if path = Text.octets "/health" then some .health
  else if path = Text.octets "/query" then some .query
  else none

def allowed : Endpoint → String
  | .health => "GET,HEAD"
  | .query => "POST"

def reply? (endpoint : Endpoint) (r : Request) : Option Reply :=
  match endpoint, r.method with
  | .health, .get => some { healthReply with response := healthReply.response.withLength }
  | .health, .head => some { healthReply with response := healthReply.response.withLength.withoutBody }
  | .query, .post =>
    let reply := if mostBodyBytes < r.body.length then tooLongReply else queryReply r
    some { reply with response := reply.response.withLength }
  | _, _ => none

end Endpoint

end PhraseSql.Service
