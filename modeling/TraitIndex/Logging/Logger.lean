import TraitIndex.Logging.Setting

/-!
# The logger of a process

Logging is started once.  A later request is accepted when it agrees with the setting in force and
refused otherwise, the target being compared before the level; it never changes anything.  A refused
request leaves the logger as it was, so that a later one can still start it; directories that were
created for it stay.
-/

namespace TraitIndex.Logging

/-- The setting in force, if logging was started, and the records written since. -/
structure Logger where
  setting : Option Setting
  written : List Log.Record
  deriving DecidableEq, Repr, Inhabited

/-- What starting a logger needs of the process: its files, and that no other logger is in place. -/
structure Host where
  files : FileSystem
  backendFree : Bool

/-- What opening a target leaves of the host, and what keeps logging from starting there, if
anything does. -/
abbrev Opening :=
  Host → Target → Host × Option Refusal

/-- What a request leaves: its refusal, unless it is accepted, the logger and the host. -/
structure Attempt where
  refusal : Option Refusal
  logger : Logger
  host : Host

namespace Logger

def idle : Logger :=
  ⟨none, []⟩

/-- Writes the records that the level in force admits; nothing before logging was started. -/
def write (logger : Logger) (records : List Log.Record) : Logger :=
  match logger.setting with
  | none => logger
  | some setting =>
      let admitted := records.filter fun record => setting.level.admits record.level
      { logger with written := logger.written ++ admitted }

def version : String :=
  "0.1.0"

def started (setting : Setting) : Log.Record :=
  ⟨.info, "logging_init", "core", .ok,
    [("level", setting.level.name), ("target", setting.target.label), ("version", version)]⟩

/-- Prepares the target; a directory is created before the backend is asked for. -/
def prepare (host : Host) (target : Target) : Host × Option Refusal :=
  let taken := if host.backendFree then none else some Refusal.backendTaken
  match target with
  | .stderr => (host, taken)
  | .directory path =>
      match host.files.createDirectories path with
      | (files, some fault) =>
          ({ host with files := files }, some (.directoryNotCreated path fault))
      | (files, none) => ({ host with files := files }, taken)

/-- The refusal of a request that does not agree with the setting in force. -/
def conflict? (active given : Setting) : Option Refusal :=
  if ¬ active.target.Same given.target then some (.otherTarget active.target given.target)
  else if active.level ≠ given.level then some (.otherLevel active.level given.level)
  else none

/-- Starts logging, or checks that it was started with an agreeing setting.  A target is opened only
if logging was not started. -/
def initBy (opening : Opening) (logger : Logger) (host : Host) (config : Config) : Attempt :=
  match config.normalise with
  | .error refusal => ⟨some refusal, logger, host⟩
  | .ok setting =>
      match logger.setting with
      | some active => ⟨conflict? active setting, logger, host⟩
      | none =>
          match opening host setting.target with
          | (host, some refusal) => ⟨some refusal, logger, host⟩
          | (host, none) =>
              ⟨none, { logger with setting := some setting }.write [started setting], host⟩

def init (logger : Logger) (host : Host) (config : Config) : Attempt :=
  logger.initBy prepare host config

/-- The level and the target in force. -/
def status (logger : Logger) : Option (Log.Level × Target) :=
  logger.setting.map fun setting => (setting.level, setting.target)

end Logger

end TraitIndex.Logging
