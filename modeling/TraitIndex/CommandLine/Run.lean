import TraitIndex.CommandLine.Help
import TraitIndex.Consumer.Shelf
import TraitIndex.Index.Render
import TraitIndex.Loading.Pass
import TraitIndex.Logging.Output
import TraitIndex.Registry.Shared

/-!
# A run of the program

Logging is started, the scripts below the root are found, loaded and submitted to the registry of
the process, and the index that is attached to it, before or after loading, is printed.  Without
logging or without a root nothing is printed, and the run ends with a complaint.  Questions about
the program are answered without any of this.
-/

namespace TraitIndex.CommandLine

/-- What the program finds when it starts. -/
structure Environment where
  files : FileSystem
  /-- The number of workers that load scripts. -/
  cores : Nat

/-- What the program leaves. -/
structure Report where
  code : Nat
  output : String
  logger : Logging.Logger
  complaint : Option String
  files : FileSystem

/-- The name of the one index of a run. -/
def indexName : String :=
  "index"

def complain (message : String) : String :=
  programName ++ ": " ++ message

def scriptsDiscovered (root : Path) (count : Nat) : Log.Record :=
  ⟨.info, "scripts_discovered", "cli", .ok, [("root", root.display), ("count", Nat.repr count)]⟩

def indexAttached (flushed : Nat) : Log.Record :=
  ⟨.info, "index_attached", "cli", .ok, [("flushed", Nat.repr flushed)]⟩

def logConfig (arguments : Arguments) : Logging.Config :=
  ⟨arguments.logLevel.getD Log.Level.standard.name,
    match arguments.logDirectory with
    | some path => .directory path
    | none => .stderr⟩

/-- The registry of the process, the index and the records so far. -/
structure Progress where
  shared : Registry.Shared ShelfConsumer
  shelf : Shelf
  records : List Log.Record

def Progress.attach (progress : Progress) : Registry.Outcome × Progress :=
  let first := progress.shared.use
  let turn := first.1.attach progress.shelf (.index indexName)
  (turn.outcome,
    ⟨some turn.registry, turn.world,
      progress.records ++ (first.2 ++ turn.notices).map Registry.Notice.record⟩)

/-- Attaches the index before anything is loaded. -/
def Progress.attachEarly (arguments : Arguments) (progress : Progress) :
    Except String Progress :=
  if arguments.attachFirst then
    match progress.attach with
    | (.refused refusal, _) => .error refusal.message
    | (_, progress) => .ok progress
  else .ok progress

/-- Attaches the index after everything was loaded. -/
def Progress.attachLate (arguments : Arguments) (progress : Progress) :
    Except String Progress :=
  if arguments.attachFirst then .ok progress
  else
    match progress.attach with
    | (.refused refusal, _) => .error refusal.message
    | (.attached flushed, progress) =>
        .ok { progress with records := progress.records ++ [indexAttached flushed] }
    | (_, progress) => .ok progress

/-- Loads the scripts into the registry of the process. -/
def Progress.load (scheduler : Loading.Scheduler) (environment : Environment)
    (arguments : Arguments) (scripts : List Path) (progress : Progress) :
    Loading.Summary × Progress :=
  let first := progress.shared.use
  let result := Loading.loadBy scheduler (Script.load environment.files arguments.root)
    environment.cores scripts first.1 progress.shelf
  (result.summary,
    ⟨some result.registry, result.world,
      progress.records ++ first.2.map Registry.Notice.record ++ result.records⟩)

def printed (arguments : Arguments) (index : Index) : String :=
  if arguments.json then index.toJson.pretty ++ "\n" else index.render

def failureNote (summary : Loading.Summary) : Option String :=
  if summary.failed = 0 then none
  else
    some (complain
      s!"{summary.failed} of {summary.failed + summary.submitted} scripts failed to load")

/-- The part of a run behind the start of logging: what is printed and the summary, or a complaint;
and the records in either case. -/
def process (scheduler : Loading.Scheduler) (environment : Environment) (arguments : Arguments) :
    List Log.Record × Except String (String × Loading.Summary) :=
  let fresh : Progress := ⟨none, Shelf.empty.openIndex indexName arguments.merge, []⟩
  match fresh.attachEarly arguments with
  | .error message => (fresh.records, .error message)
  | .ok attached =>
      match Script.discover environment.files arguments.root with
      | .error error => (attached.records, .error error.message)
      | .ok scripts =>
          let found :=
            { attached with
              records := attached.records ++ [scriptsDiscovered arguments.root scripts.length] }
          let loaded := found.load scheduler environment arguments scripts
          match loaded.2.attachLate arguments with
          | .error message => (loaded.2.records, .error message)
          | .ok finished =>
              let index := (finished.shelf.index? indexName).getD (Index.empty arguments.merge)
              (finished.records, .ok (printed arguments index, loaded.1))

/-- The attempt to start logging in a fresh process. -/
def startLogging (environment : Environment) (arguments : Arguments) : Logging.Attempt :=
  Logging.Logger.idle.init ⟨environment.files, true⟩ (logConfig arguments)

/-- The run of the program with arguments that were understood, while the workers that load scripts
take turns as the scheduler chooses.  The log file is opened before scripts are looked for, if there
is a record by then; what is held back at the end is lost. -/
def runBy (scheduler : Loading.Scheduler) (environment : Environment) (arguments : Arguments) :
    Report :=
  match startLogging environment arguments with
  | ⟨some refusal, logger, host⟩ => ⟨2, "", logger, some (complain refusal.message), host.files⟩
  | ⟨none, logger, host⟩ =>
      let files := logger.saveRecords [] host.files
      match process scheduler { environment with files := files } arguments with
      | (records, .error message) =>
          let logger := logger.write records
          ⟨2, "", logger, some (complain message), logger.savePassed files⟩
      | (records, .ok (output, summary)) =>
          let logger := logger.write records
          ⟨if summary.failed = 0 then 0 else 1, output, logger, failureNote summary,
            logger.savePassed files⟩

/-- The run in which each worker finishes before the next one starts. -/
def run (environment : Environment) (arguments : Arguments) : Report :=
  runBy Loading.oneByOne environment arguments

/-- Answers a question about the program; nothing else happens. -/
def tell (environment : Environment) (text : String) : Report :=
  ⟨0, text, Logging.Logger.idle, none, environment.files⟩

/-- What the program does about a request. -/
def respond (environment : Environment) : Request → Report
  | .assemble arguments => run environment arguments
  | .showVersion => tell environment versionText
  | .showHelp => tell environment helpText

/-- Everything that a run writes to standard error. -/
def Report.errorText (report : Report) : String :=
  match report.complaint with
  | none => report.logger.errorText
  | some complaint => report.logger.errorText ++ complaint ++ "\n"

end TraitIndex.CommandLine
