import TraitIndex.Logging.Logger

/-!
# Panics in the log

Once logging was started, a panic leaves a record with its payload.  A payload may hold markup, so
it is brought onto one line and cut to a limited number of characters; three dots show the cut.
-/

namespace TraitIndex.Logging

/-- What a panic carries. -/
inductive Payload where
  | text (content : String)
  | other
  deriving DecidableEq, Repr

/-- Turns a line break into a blank. -/
def flatten (character : Char) : Char :=
  if character = '\n' ∨ character = '\r' then ' ' else character

/-- Brings a text onto one line of at most `limit` characters, before the dots that show a cut. -/
def sanitize (limit : Nat) (text : String) : String :=
  let characters := text.toList.map flatten
  if limit < characters.length then String.ofList (characters.take limit ++ ['.', '.', '.'])
  else String.ofList characters

def payloadLimit : Nat :=
  160

def Payload.summary : Payload → String
  | text content => sanitize payloadLimit content
  | other => sanitize payloadLimit "non-string panic payload"

def panicked (location : String) (payload : Payload) : Log.Record :=
  ⟨.error, "panic_captured", "core", .error,
    [("location", location), ("payload", payload.summary)]⟩

end TraitIndex.Logging
