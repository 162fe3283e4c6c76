import PhraseSql.Log.Directive

namespace PhraseSql.Log

structure Filter where
  directives : List Directive

namespace Directive

/-- Whether a directive has a say about events that stand in no span. One that asks for a span or for
the value of a field has none. -/
def isLasting (d : Directive) : Bool :=
  d.span.isNone && !(d.field.any FieldMatch.hasValue)

def eventField : List Char := "message".toList

def concerns (d : Directive) (e : Event) : Bool :=
  d.isLasting && d.target.all (·.isPrefixOf e.target.toList) && d.field.all (·.name = eventField)

def exactness (d : Directive) : Nat :=
  2 * (d.target.elim 0 fun target => target.length + 1) + (if d.field.isSome then 1 else 0)

end Directive

namespace Filter

/-- The most exact directive that concerns an event; of equally exact ones, the last. -/
def governing? (f : Filter) (e : Event) : Option Directive :=
  (f.directives.filter (·.concerns e)).foldl
    (fun best d => if best.any (d.exactness < Directive.exactness ·) then best else some d) none

def admits (f : Filter) (e : Event) : Bool :=
  (f.governing? e).any (·.threshold.admits e.level)

def ofDirectives (directives : List Directive) : Filter :=
  ⟨if directives = [] then [⟨none, none, none, some .error⟩] else directives⟩

def parse (text : String) : Except FilterFault Filter :=
  let items := (text.toList.splitOn ',').filter (· ≠ [])
  ofDirectives <$> items.mapM Directive.parse

end Filter

end PhraseSql.Log
