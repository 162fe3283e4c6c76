import PhraseSql.Settings.Port
import PhraseSql.Text.Utf8

namespace PhraseSql.Settings

def defaultHost : String := "0.0.0.0"

def defaultLogFilter : String := "nl2sql_service=info,tower_http=debug,axum::rejection=trace"

structure Config where
  host : String := defaultHost
  port : UInt16 := defaultPort
  logFilter : String := defaultLogFilter
  deriving DecidableEq

structure Environment where
  host : Option (List UInt8)
  port : Option (List UInt8)
  logFilter : Option (List UInt8)

/-- A variable that is no text counts as not set. -/
def Environment.text? (value? : Option (List UInt8)) : Option String :=
  value? >>= Text.ofOctets?

namespace Config

def ofEnvironment (env : Environment) : Except PortError Config := do
  let port ← portSetting (Environment.text? env.port)
  .ok {
    host := (Environment.text? env.host).getD defaultHost
    port := port
    logFilter := (Environment.text? env.logFilter).getD defaultLogFilter }

def address (c : Config) : String :=
  c.host ++ ":" ++ c.port.toNat.repr

def url (c : Config) : String :=
  "http://" ++ c.host ++ ":" ++ c.port.toNat.repr

theorem url_eq (c : Config) : c.url = "http://" ++ c.address := by
  simp only [url, address, String.append_assoc]

def report (c : Config) : String :=
  "Config \x7b host: " ++ Text.quoted c.host ++ ", port: " ++ c.port.toNat.repr ++
    ", log_level: " ++ Text.quoted c.logFilter ++ " \x7d"

end Config

end PhraseSql.Settings
