import TraitIndex.CommandLine.Arguments
import TraitIndex.Logging.Logger

/-!
# Answers about the program

The version is one line.  The help lists the arguments and the options, each list with its meanings
in one column.
-/

namespace TraitIndex.CommandLine

def programName : String :=
  "implindex"

def versionText : String :=
  programName ++ " " ++ Logging.Logger.version ++ "\n"

/-- How an argument is written and what it means. -/
structure HelpRow where
  form : String
  meaning : String

def HelpRow.render (width : Nat) (row : HelpRow) : String :=
  let gap := String.ofList (List.replicate (width - row.form.length) ' ')
  "  " ++ row.form ++ gap ++ "  " ++ row.meaning ++ "\n"

/-- A list under its title; the longest form sets the column of the meanings. -/
def helpList (title : String) (rows : List HelpRow) : String :=
  let width := rows.foldr (fun row width => max row.form.length width) 0
  title ++ ":\n" ++ String.join (rows.map (HelpRow.render width))

def argumentRows : List HelpRow :=
  [⟨"<ROOT>", "Directory holding `trait.*.js` implementor scripts"⟩]

def optionRows : List HelpRow :=
  [⟨"    --merge <MERGE>",
      "How descriptor lists for the same symbol are combined [default: append]"⟩,
    ⟨"    --attach-first", "Attach the consumer before loading instead of after"⟩,
    ⟨"    --json", "Print the merged index as JSON"⟩,
    ⟨"    --log-level <LOG_LEVEL>", "trace|debug|info|warn|error; defaults by build mode"⟩,
    ⟨"    --log-dir <LOG_DIR>", "Absolute directory for rolling log files; stderr when omitted"⟩,
    ⟨"-h, --help", "Print help"⟩,
    ⟨"-V, --version", "Print version"⟩]

def usageLine : String :=
  "Usage: " ++ programName ++ " [OPTIONS] <ROOT>\n"

def helpText : String :=
  "Assemble a rustdoc implementor index\n\n" ++ usageLine ++ "\n" ++
    helpList "Arguments" argumentRows ++ "\n" ++ helpList "Options" optionRows

end TraitIndex.CommandLine
