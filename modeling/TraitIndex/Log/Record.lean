import TraitIndex.Log.Level

/-!
# Log records

A record names an event, the component that reports it and whether it went well, followed by fields
with values.  Descriptors never appear in it.
-/

namespace TraitIndex.Log

inductive Status where
  | ok
  | partly
  | error
  deriving DecidableEq, Repr

def Status.name : Status → String
  | ok => "ok"
  | partly => "partial"
  | error => "error"

structure Record where
  level : Level
  event : String
  component : String
  status : Status
  fields : List (String × String)
  deriving DecidableEq, Repr

namespace Record

def message (record : Record) : String :=
  let fields := record.fields.map fun field => s!" {field.1}={field.2}"
  s!"event={record.event} module={record.component} status={record.status.name}" ++
    String.join fields

def text (record : Record) : String :=
  record.level.label ++ " " ++ record.message

end Record

end TraitIndex.Log
