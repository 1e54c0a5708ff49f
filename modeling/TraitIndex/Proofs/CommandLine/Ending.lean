import TraitIndex.Proofs.CommandLine.Process
import TraitIndex.Proofs.FileSystem.Walk
import TraitIndex.Proofs.Index.Export

/-!
# How a run of the program ends

A run is given up when logging is not started or the root cannot be walked.  Otherwise it prints the
index of everything that can be loaded, and its exit code tells whether that was all.  This holds
in whatever order the workers take turns, if only each of them gets enough turns to finish.
-/

namespace TraitIndex.CommandLine

open Loading

/-- What a run that found the given scripts leaves. -/
structure Assembled (scheduler : Scheduler) (environment : Environment) (arguments : Arguments)
    (scripts : List Path) (report : Report) : Prop where
  /-- Each script is taken once. -/
  taken : (order scheduler environment.cores scripts).Perm scripts
  /-- What can be loaded is submitted in the order in which the scripts are taken: if nothing is
  attached, it waits in that order. -/
  submitted :
    (loadBy scheduler (scriptLoader environment arguments) environment.cores scripts
      (Registry.empty : Registry ShelfConsumer) Shelf.empty).registry =
        .unattached (submissions scheduler environment arguments scripts)
  text : arguments.json = false →
    report.output =
      (merged arguments (submissions scheduler environment arguments scripts)).render
  json : arguments.json = true →
    report.output =
      (merged arguments (submissions scheduler environment arguments scripts)).toJson.pretty ++ "\n"
  /-- As JSON, the index is printed with its policy and its count in front of its symbols. -/
  layout : arguments.json = true →
    let index := merged arguments (submissions scheduler environment arguments scripts)
    report.output.toList =
      index.printedBefore ++ (Json.writePretty 1 index.symbolsJson ++ ['\n', '\x7d', '\n'])
  /-- The output is the one without a given script, if that cannot be loaded. -/
  unharmed : ∀ broken, ¬ (scriptLoader environment arguments).Loads broken →
    report.output =
      printed arguments (merged arguments ((scriptLoader environment arguments).loaded
        ((order scheduler environment.cores scripts).filter fun path => path ≠ broken)))
  code_eq_zero : (∀ path ∈ scripts, (scriptLoader environment arguments).Loads path) →
    report.code = 0
  code_eq_one : (∃ path ∈ scripts, ¬ (scriptLoader environment arguments).Loads path) →
    report.code = 1

/-- The ways in which a run ends. -/
inductive Ending (scheduler : Scheduler) (environment : Environment) (arguments : Arguments)
    (report : Report) : Prop where
  | unlogged {refusal : Logging.Refusal}
      (refused : (startLogging environment arguments).refusal = some refusal)
      (code : report.code = 2) (silent : report.output = "")
  | unwalked {error : Script.LoadError}
      (started : (startLogging environment arguments).refusal = none)
      (nowhere : Script.discover (logged environment arguments).files arguments.root =
        .error error)
      (code : report.code = 2) (silent : report.output = "")
  | assembled {scripts : List Path}
      (started : (startLogging environment arguments).refusal = none)
      (discovered : Script.discover (logged environment arguments).files arguments.root =
        .ok scripts)
      (result : Assembled scheduler (logged environment arguments) arguments scripts report)

section Submissions

variable (scheduler : Scheduler) (environment : Environment) (arguments : Arguments)
  (scripts : List Path)

theorem length_submissions_le :
    (submissions scheduler environment arguments scripts).length ≤
      (order scheduler environment.cores scripts).length :=
  List.length_filterMap_le _ _

variable {scheduler}

/-- Nothing is missing among the submissions when all scripts can be loaded, and only then. -/
theorem length_submissions_eq_iff (complete : scheduler.Complete) :
    (submissions scheduler environment arguments scripts).length = scripts.length ↔
      ∀ path ∈ scripts, (scriptLoader environment arguments).Loads path := by
  have taken := order_perm complete environment.cores scripts
  rw [submissions, ← taken.length_eq, Loader.length_loaded_eq_iff]
  simp only [taken.mem_iff]

end Submissions

theorem assembled_of_discovered {scheduler : Scheduler} (complete : scheduler.Complete)
    {environment : Environment} {arguments : Arguments}
    (started : (startLogging environment arguments).refusal = none) {scripts : List Path}
    (discovered : Script.discover (logged environment arguments).files arguments.root =
      .ok scripts) :
    Assembled scheduler (logged environment arguments) arguments scripts
      (runBy scheduler environment arguments) := by
  rcases runBy_of_discovered scheduler started discovered with ⟨code, output⟩
  have taken := order_perm complete (logged environment arguments).cores scripts
  have all := length_submissions_eq_iff (logged environment arguments) arguments scripts complete
  have atMost := length_submissions_le scheduler (logged environment arguments) arguments scripts
  rw [taken.length_eq] at atMost
  exact
    { taken := taken
      submitted :=
        (loadBy_unattached scheduler (sound_scriptLoader _ _) _ scripts Shelf.empty).1
      text := by
        intro plain
        simpa only [printed, plain, Bool.false_eq_true, if_false] using output
      json := by
        intro encoded
        simpa only [printed, encoded, if_true] using output
      layout := by
        intro encoded
        simp [output, printed, encoded, Index.toList_pretty_toJson]
      unharmed := by
        intro broken fails
        rw [Loader.loaded_filter_ne _ fails]
        exact output
      code_eq_zero := by
        intro loads
        rw [code, all.mpr loads, Nat.sub_self, if_pos rfl]
      code_eq_one := by
        rintro ⟨broken, listed, fails⟩
        have missing :
            (submissions scheduler (logged environment arguments) arguments scripts).length ≠
              scripts.length := by
          intro same
          exact fails (all.mp same broken listed)
        rw [code, if_neg]
        omega }

/-- In every environment and with all arguments a run ends with a complaint, or with the index of
those scripts that can be loaded. -/
theorem ending_runBy {scheduler : Scheduler} (complete : scheduler.Complete)
    (environment : Environment) (arguments : Arguments) :
    Ending scheduler environment arguments (runBy scheduler environment arguments) := by
  cases started : (startLogging environment arguments).refusal with
  | some refusal =>
      rcases runBy_of_refused scheduler started with ⟨code, silent⟩
      exact .unlogged started code silent
  | none =>
      cases found : Script.discover (logged environment arguments).files arguments.root with
      | error error =>
          rcases runBy_of_not_discovered scheduler started found with ⟨code, silent⟩
          exact .unwalked started found code silent
      | ok scripts =>
          exact .assembled started found (assembled_of_discovered complete started found)

def bytes (text : String) : List UInt8 :=
  Text.Utf8.encode text.toList

/-- A directory with three scripts, the second of which breaks off. -/
def threeScripts : List (Name × Node) :=
  [("trait.A.js", "var implementors = \x7b\"s\":[\"x\"]\x7d;"),
    ("trait.B.js", "var implementors = \x7b"),
    ("trait.C.js", "var implementors = \x7b\"s\":[\"y\"]\x7d;")].map fun script =>
      (bytes script.1, .file (bytes script.2))

def twoCores : Environment :=
  ⟨⟨.directory [(bytes "docs", .directory threeScripts)], []⟩, 2⟩

def plainText : Arguments :=
  ⟨⟨bytes "docs"⟩, .append, false, false, none, none⟩

def threePaths : List Path :=
  ["docs/trait.A.js", "docs/trait.B.js", "docs/trait.C.js"].map fun path => ⟨bytes path⟩

/-- Lets each worker finish before those in front of it start. -/
def backwards : Scheduler :=
  fun chunks => (oneByOne chunks).reverse

theorem complete_backwards : backwards.Complete := by
  intro chunks position
  rw [backwards, List.count_reverse]
  exact complete_oneByOne chunks position

theorem discover_threeScripts : Script.discover twoCores.files plainText.root = .ok threePaths := by
  have found : twoCores.files.node plainText.root = .ok (.directory threeScripts) := by
    with_unfolding_all rfl
  have sorted : Node.sortEntries threeScripts = threeScripts := by
    apply List.mergeSort_of_pairwise
    decide +kernel
  have walked : (Node.directory threeScripts).walk plainText.root = threePaths := by
    rw [Node.walk_directory, sorted]
    simp only [threeScripts, List.map_cons, List.map_nil, List.flatMap_cons, Node.walk_file]
    decide +kernel
  have entered : (Node.directory threeScripts).directories plainText.root = [plainText.root] := by
    rw [Node.directories_directory, sorted]
    simp [threeScripts]
  simp only [Script.discover, FileSystem.walk, found, walked, entered]
  with_unfolding_all rfl

theorem logged_twoCores : logged twoCores plainText = twoCores := by
  with_unfolding_all rfl

/-- The same run when it is asked for JSON. -/
def encoded : Arguments :=
  { plainText with json := true }

/-- A run on the three scripts gets as far as printing, as text or as JSON. -/
theorem Ending.assembled_twoCores {scheduler : Scheduler} {json : Bool} {report : Report}
    (ending : Ending scheduler twoCores { plainText with json := json } report) :
    Assembled scheduler twoCores { plainText with json := json } threePaths report := by
  have started : (startLogging twoCores plainText).refusal = none := by decide +kernel
  cases ending with
  | unlogged refused =>
      rw [startLogging_json, started] at refused
      cases refused
  | unwalked _ nowhere =>
      rw [logged_json, logged_twoCores, discover_threeScripts] at nowhere
      cases nowhere
  | assembled _ discovered result =>
      rw [logged_json, logged_twoCores, discover_threeScripts] at discovered
      cases discovered
      rwa [logged_json, logged_twoCores] at result

/-- What is submitted of the three scripts when the workers finish backwards. -/
theorem submissions_threePaths :
    submissions backwards twoCores plainText threePaths =
      [⟨some "C", [⟨"s", [⟨"y"⟩]⟩]⟩, ⟨some "A", [⟨"s", [⟨"x"⟩]⟩]⟩] := by
  decide +kernel

theorem ending_runBy_backwards :
    backwards.Complete ∧
      Ending backwards twoCores plainText (runBy backwards twoCores plainText) ∧
      (runBy backwards twoCores plainText).code = 1 ∧
      (runBy backwards twoCores plainText).output = "s\n  y\n  x\n" ∧
      Ending backwards twoCores encoded (runBy backwards twoCores encoded) ∧
      (runBy backwards twoCores encoded).code = 1 ∧
      (runBy backwards twoCores encoded).output =
        "\x7b\n  \"policy\": \"append\",\n  \"fragment_count\": 2,\n  \"symbols\": \x7b\n" ++
          "    \"s\": [\n      \"y\",\n      \"x\"\n    ]\n  \x7d\n\x7d\n" := by
  have ending := ending_runBy complete_backwards twoCores plainText
  have endingEncoded := ending_runBy complete_backwards twoCores encoded
  have plain : Assembled backwards twoCores plainText threePaths _ := ending.assembled_twoCores
  have json : Assembled backwards twoCores encoded threePaths _ := endingEncoded.assembled_twoCores
  have broken : ∃ path ∈ threePaths, ¬ (scriptLoader twoCores plainText).Loads path := by
    refine ⟨⟨bytes "docs/trait.B.js"⟩, by simp [threePaths], ?_⟩
    rw [← Loader.isSome_iff_loads]
    decide +kernel
  refine ⟨complete_backwards, ending, plain.code_eq_one broken, ?_, endingEncoded,
    json.code_eq_one broken, ?_⟩
  · rw [plain.text rfl, submissions_threePaths]
    decide +kernel
  · have same : submissions backwards twoCores encoded threePaths =
        submissions backwards twoCores plainText threePaths := rfl
    rw [json.json rfl, same, submissions_threePaths]
    decide +kernel

end TraitIndex.CommandLine
