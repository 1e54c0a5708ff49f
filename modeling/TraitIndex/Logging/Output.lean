import TraitIndex.Logging.Buffer
import TraitIndex.Logging.Files
import TraitIndex.Logging.Logger

/-!
# Where records end up

Every record is a line of its own.  The lines go to standard error or are appended to one file in
the log directory; that file is opened for the first record, unless it cannot be opened.  Records
for the file are held back until there are many of them.
-/

namespace TraitIndex.Logging

/-- Records as lines. -/
def lines (records : List Log.Record) : String :=
  String.join (records.map fun record => record.text ++ "\n")

namespace Logger

/-- What was written to standard error. -/
def errorText (logger : Logger) : String :=
  match logger.setting with
  | some ⟨_, .stderr⟩ => lines logger.written
  | _ => ""

/-- The place of the log file, if there is one by now. -/
def logFile? (logger : Logger) (files : FileSystem) : Option (List Name) :=
  match logger.setting with
  | some ⟨_, .directory path⟩ =>
      if logger.written.isEmpty then none
      else (files.filePlace (path.join logFileName)).toOption
  | _ => none

/-- The files with some records in the log file. -/
def saveRecords (logger : Logger) (records : List Log.Record) (files : FileSystem) : FileSystem :=
  match logger.logFile? files with
  | none => files
  | some place => (openLogFile files place).append place (Text.Utf8.encode (lines records).toList)

/-- The files with all records in the log file. -/
def save (logger : Logger) (files : FileSystem) : FileSystem :=
  logger.saveRecords logger.written files

/-- The files with the records in the log file that are not held back. -/
def savePassed (logger : Logger) (files : FileSystem) : FileSystem :=
  logger.saveRecords (Buffer.ofRecords logger.written).passed files

end Logger

end TraitIndex.Logging
