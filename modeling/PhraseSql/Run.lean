import PhraseSql.Log.Filter
import PhraseSql.Service.Router
import PhraseSql.Settings.Config

namespace PhraseSql

open Settings

inductive Signal where
  | terminate
  | interrupt
  deriving DecidableEq

structure World where
  binding : Except String Unit
  signal : Signal

structure Ending where
  exit : UInt32
  log : List String
  deriving DecidableEq

namespace Run

def event (level : Log.Level) (message : String) : Log.Event :=
  ⟨level, "nl2sql_service", message⟩

def opening (c : Config) : List Log.Event :=
  [event .info "Starting NL2SQL Service v1.0.0...",
   event .info ("Configuration loaded: " ++ c.report),
   Service.startEvent]

def serving (c : Config) : List Log.Event :=
  [event .info ("Server running on " ++ c.url),
   event .info "Health check: GET /health",
   event .info "Query endpoint: POST /query",
   event .info "Server starting...",
   ⟨.info, "nl2sql_service::app", "Shutdown signal received"⟩,
   event .info "Server shutdown gracefully"]

def script (c : Config) (world : World) : List Log.Event :=
  opening c ++ match world.binding with
    | .ok () => serving c
    | .error reason => [event .error ("Failed to bind to " ++ c.address ++ ": " ++ reason)]

def refusal (e : PortError) : Log.Event :=
  event .error ("Invalid configuration: " ++ e.chain)

def defaultFilter : Log.Filter :=
  (Log.Filter.parse defaultLogFilter).toOption.getD ⟨[]⟩

/-- The filter that a text asks for, or the default one if it is none. A text with a part that begins
or ends inside a character breaks the run off. -/
def filterOf? (text : String) : Option Log.Filter :=
  match Log.Filter.parse text with
  | .ok filter => some filter
  | .error .malformed => some defaultFilter
  | .error .insideCharacter => none

def printed (filter : Log.Filter) (events : List Log.Event) : List String :=
  (events.filter filter.admits).map Log.Event.line

end Run

def Ending.brokenOff : Ending := ⟨101, []⟩

def run (env : Environment) (world : World) : Ending :=
  match Config.ofEnvironment env with
  | .error e => ⟨1, Run.printed Run.defaultFilter [Run.refusal e]⟩
  | .ok c =>
    match Run.filterOf? c.logFilter with
    | none => .brokenOff
    | some filter =>
      ⟨match world.binding with | .ok () => 0 | .error _ => 1,
       Run.printed filter (Run.script c world)⟩

end PhraseSql
