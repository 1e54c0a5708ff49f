import TraitIndex.FileSystem.Basic
import TraitIndex.Log.Record

/-!
# Logging settings

A setting is a level and a target.  What a host asks for is given as texts: the level by any form of
its name, a directory by a path with blanks around it, which must be absolute.  Two settings agree
when they have the same level and the same target, directories being compared by components.
-/

namespace TraitIndex.Logging

/-- Where log records go. -/
inductive Target where
  | stderr
  | directory (path : Path)
  deriving DecidableEq, Repr

def Target.label : Target → String
  | stderr => "stderr"
  | directory path => path.display

/-- Holds of targets that are the same place by their components. -/
def Target.Same : Target → Target → Prop
  | stderr, stderr => True
  | directory left, directory right => left.Same right
  | _, _ => False

instance : (left right : Target) → Decidable (left.Same right)
  | .stderr, .stderr => isTrue trivial
  | .directory left, .directory right => inferInstanceAs (Decidable (left.Same right))
  | .stderr, .directory _ => isFalse id
  | .directory _, .stderr => isFalse id

/-- What a host asks for. -/
structure Config where
  level : String
  target : Target
  deriving DecidableEq, Repr

/-- What logging was started with. -/
structure Setting where
  level : Log.Level
  target : Target
  deriving DecidableEq, Repr

/-- Why logging is not started, or not with the given configuration. -/
inductive Refusal where
  | unknownLevel (given : String)
  | emptyDirectory
  | relativeDirectory (given : String)
  | directoryNotCreated (path : Path) (fault : FileSystem.Fault)
  | backendTaken
  | otherTarget (active given : Target)
  | otherLevel (active given : Log.Level)
  deriving DecidableEq, Repr

def Refusal.message : Refusal → String
  | unknownLevel given =>
      s!"unsupported log level `{given}`; expected trace|debug|info|warn|error"
  | emptyDirectory => "log directory cannot be empty"
  | relativeDirectory given => s!"log directory must be an absolute path, got `{given}`"
  | directoryNotCreated path fault =>
      s!"failed to create log directory `{path.display}`: {fault.message}"
  | backendTaken => "failed to start logger: Logger initialization failed"
  | otherTarget active given =>
      s!"logging already initialized for `{active.label}`; refusing to switch to `{given.label}`"
  | otherLevel active given =>
      s!"logging already initialized with level `{active.name}`; refusing to switch to " ++
        s!"`{given.name}`"

def normaliseLevel (given : String) : Except Refusal Log.Level :=
  match Log.Level.ofName given with
  | .ok level => .ok level
  | .error name => .error (.unknownLevel name)

/-- A directory is taken as text, with replacement characters where it is not UTF-8, and trimmed. -/
def normaliseTarget : Target → Except Refusal Target
  | .stderr => .ok .stderr
  | .directory path =>
      let given := Text.trim path.display
      if given = "" then .error .emptyDirectory
      else if (Path.ofString given).isAbsolute then .ok (.directory (Path.ofString given))
      else .error (.relativeDirectory given)

/-- The level is looked at before the target. -/
def Config.normalise (config : Config) : Except Refusal Setting :=
  match normaliseLevel config.level with
  | .error refusal => .error refusal
  | .ok level =>
      match normaliseTarget config.target with
      | .error refusal => .error refusal
      | .ok target => .ok ⟨level, target⟩

end TraitIndex.Logging
