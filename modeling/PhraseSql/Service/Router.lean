import PhraseSql.Service.Endpoint

namespace PhraseSql.Service

open Http

def startEvent : Log.Event :=
  ⟨.info, "nl2sql_service::app", "Initializing application router"⟩

/-- Where there is nothing. Only a path below the root gets a response that leaves its length
open. -/
def notFoundResponse (path : List UInt8) : Response :=
  if path.head? = some slash then .empty 404 else (Response.empty 404).withLength

def fallback (r : Request) : Response :=
  match Endpoint.ofPath? r.path with
  | some endpoint => (Response.empty 405).withLength.withHeader "allow" endpoint.allowed
  | none => notFoundResponse r.path

def route (r : Request) : Reply :=
  match Endpoint.ofPath? r.path >>= (·.reply? r) with
  | some reply => reply
  | none => ⟨fallback r, []⟩

def preflight (r : Request) : Response :=
  ({ fallback r with status := 200 }.withHeader "access-control-allow-headers" "*").withHeader
    "access-control-allow-methods" "*"

def openToAll (r : Response) : Response :=
  (r.withHeader "access-control-allow-origin" "*").withHeader
    "vary" "origin, access-control-request-method, access-control-request-headers"

def serve (r : Request) : Reply :=
  if r.method = .options then ⟨openToAll (preflight r), []⟩
  else
    let reply := route r
    { reply with response := openToAll (reply.response.withHeader "access-control-expose-headers" "*") }

end PhraseSql.Service
