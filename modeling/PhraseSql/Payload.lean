import PhraseSql.Json.Record.Reader
import PhraseSql.Json.Record.Writer

namespace PhraseSql

open Json

structure Question where
  query : String
  deriving DecidableEq

namespace Question

def shape : Shape := ⟨"QueryRequest", [⟨"query", .text⟩]⟩

def toRow (r : Question) : Row shape.fields := (r.query, ())

def ofRow : Row shape.fields → Question
  | (query, ()) => ⟨query⟩

def decode (document : List UInt8) : Except Failure Question :=
  ofRow <$> shape.decode document

def encode (r : Question) : String := shape.write r.toRow
def report (r : Question) : String := shape.report r.toRow

end Question

structure Answer where
  sql : String
  explanation : String
  confidence : Binary64

namespace Answer

def shape : Shape :=
  ⟨"QueryResponse", [⟨"sql", .text⟩, ⟨"explanation", .text⟩, ⟨"confidence", .number⟩]⟩

def toRow (r : Answer) : Row shape.fields := (r.sql, r.explanation, r.confidence, ())

def ofRow : Row shape.fields → Answer
  | (sql, explanation, confidence, ()) => ⟨sql, explanation, confidence⟩

def decode (document : List UInt8) : Except Failure Answer :=
  ofRow <$> shape.decode document

def encode (r : Answer) : String := shape.write r.toRow
def report (r : Answer) : String := shape.report r.toRow

def same (r s : Answer) : Bool :=
  r.sql = s.sql && r.explanation = s.explanation && r.confidence.sameValue s.confidence

end Answer

structure Health where
  status : String
  service : String
  deriving DecidableEq

namespace Health

def shape : Shape := ⟨"HealthResponse", [⟨"status", .text⟩, ⟨"service", .text⟩]⟩

def toRow (r : Health) : Row shape.fields := (r.status, r.service, ())

def ofRow : Row shape.fields → Health
  | (status, service, ()) => ⟨status, service⟩

def decode (document : List UInt8) : Except Failure Health :=
  ofRow <$> shape.decode document

def encode (r : Health) : String := shape.write r.toRow
def report (r : Health) : String := shape.report r.toRow

def ok : Health := ⟨"ok", "nl2sql-service"⟩

end Health

structure Refusal where
  error : String
  message : String
  deriving DecidableEq

namespace Refusal

def shape : Shape := ⟨"Refusal", [⟨"error", .text⟩, ⟨"message", .text⟩]⟩

def toRow (r : Refusal) : Row shape.fields := (r.error, r.message, ())

def encode (r : Refusal) : String := shape.write r.toRow

end Refusal

end PhraseSql
