import FeatureAlignment.Alignment.Validation
import FeatureAlignment.Command.Arguments
import FeatureAlignment.Command.Files
import FeatureAlignment.Command.Usage
import FeatureAlignment.Compilation.Run
import FeatureAlignment.Document.Render
import FeatureAlignment.JsonSchema.Documents
import FeatureAlignment.Rule.Draft
import FeatureAlignment.Template.Render

/-!
# Commands

A command reads files, prints, and succeeds or fails. It works with any access
to files.

* `Console` is what has been printed, `Command` a computation that prints and may
  fail.
* `Command.run` carries out a command line; `Outcome` is what it comes to.
-/

namespace FeatureAlignment

/-- **What has been printed** on the two output streams. -/
structure Console where
  out : String
  err : String
  deriving DecidableEq, Repr

/-- **A computation that prints and may fail.** -/
abbrev Command (m : Type → Type) (α : Type) : Type := ExceptT Failure (StateT Console m) α

/-- **What a command line comes to.** -/
structure Outcome where
  exit : UInt8
  console : Console
  deriving DecidableEq, Repr

namespace Command

variable {m : Type → Type} [Monad m]

/-- Print a line. -/
def printLine (s : String) : Command m Unit := modify (fun c => { c with out := c.out ++ s ++ "\n" })

/-- Print a line on the error stream. -/
def printError (s : String) : Command m Unit := modify (fun c => { c with err := c.err ++ s ++ "\n" })

/-- Read a file. -/
def readFile (files : FileAccess m) (path : String) : Command m String := do
  match ← (files.read path : m _) with
  | .ok content => return content
  | .error fault => throw (.file fault)

/-- **Put out a text**, into a file if one is named. -/
def putOut (files : FileAccess m) (path : Option String) (text : String) : Command m Unit := do
  match path with
  | none => printLine text
  | some path =>
    match ← (files.write path text : m _) with
    | .ok () => printError ("Written to: " ++ path)
    | .error fault => throw (.file fault)

/-- The alignment in a file. -/
def alignment (files : FileAccess m) (path : String) : Command m Alignment := do
  let text ← readFile files path
  if FilePath.isJson path then Alignment.ofJson text else Alignment.ofYaml text

/-- The schema in a file. -/
def schema (files : FileAccess m) (path : String) : Command m Schema := do
  let text ← readFile files path
  if FilePath.isJson path then Schema.ofJson text else Schema.ofYaml text

/-- The configuration: the file that is named, or the default. -/
def config (files : FileAccess m) (arguments : List String) : Command m Config := do
  match Arguments.value? "--config" arguments with
  | none => return .standard
  | some path => Config.ofYaml (← readFile files path)

/-- **What is compiled**: configuration, alignment and schemas, read in this order. -/
structure Input where
  config : Config
  alignment : Alignment
  source : SchemaIndex
  target : SchemaIndex

/-- Read what is compiled. -/
def input (files : FileAccess m) (arguments : List String) (usage : String) : Command m Input := do
  match Arguments.positional arguments with
  | first :: second :: third :: _ =>
    let config ← config files arguments
    let alignment ← alignment files first
    let source ← schema files second
    let target ← schema files third
    return ⟨config, alignment, .ofSchema source, .ofSchema target⟩
  | _ => throw (.other usage)

/-- Compile, type cells first unless the order of the file is asked for. -/
def Input.compile (i : Input) (arguments : List String) : Compilation :=
  if arguments.contains "--in-order" then i.alignment.compileInOrder i.source i.target i.config
  else i.alignment.compile i.source i.target i.config

/-- The template in a directory, if there is one. -/
def template? (files : FileAccess m) (directory : String) : Command m (Option String) := do
  match ← (files.read (FilePath.inside directory "documents/app_schema.jinja") : m _) with
  | .ok content => return some content
  | .error .isDirectory => throw (.file .isDirectory)
  | .error _ => return none

/-- The text of a document; a template only matters for XML. -/
def documentText (files : FileAccess m) (arguments : List String) (format : OutputFormat)
    (d : MappingDocument) : Command m String := do
  match format, Arguments.value? "--template-dir" arguments with
  | .xml, some directory =>
    match ← template? files directory with
    | some template => d.renderWith template
    | none => return d.toXml
  | _, _ => return d.render format

/-- The format asked for, or else the configured one. -/
def format (arguments : List String) (c : Config) : Except Failure OutputFormat :=
  match Arguments.value? "--format" arguments with
  | some name => OutputFormat.ofName name
  | none => .ok c.format

/-- **Compile** to a mapping document. -/
def compile (files : FileAccess m) (arguments : List String) : Command m Unit := do
  let input ← input files arguments Usage.compile
  let format ← format arguments input.config
  let result := input.compile arguments
  let text ← documentText files arguments format result.document
  putOut files (Arguments.output? arguments) text
  if arguments.contains "--report" then printError result.report.render
  if !result.report.success then
    throw (.other (Text.natural result.report.failures.length ++ " cell(s) failed to compile"))

/-- **Check**: compile and print the report, made at a time in seconds. -/
def check (files : FileAccess m) (time : Int) (arguments : List String) : Command m Unit := do
  let input ← input files arguments Usage.check
  let report := (input.compile arguments).report
  if arguments.contains "--json" then printLine (Json.pretty (report.toData time))
  else printLine report.render
  if !report.success then throw (.other "Compilation failed")

/-- **Write an alignment as rules.** -/
def rif (files : FileAccess m) (arguments : List String) : Command m Unit := do
  match Arguments.positional arguments with
  | [] => throw (.other Usage.rif)
  | path :: _ =>
    let config ← config files arguments
    let alignment ← alignment files path
    putOut files (Arguments.output? arguments) (alignment.toRules config).render

/-- An issue on a line. -/
def issueLine (i : Issue) : String :=
  "  [" ++ i.code ++ "] " ++ i.severity.word ++
    (match i.cell with
    | some cell => " " ++ cell
    | none => "") ++ ": " ++ i.message

/-- The lines about issues with an alignment. -/
def issueLines (path : String) (issues : List Issue) : List String :=
  let errors := (issues.filter (fun i => i.severity == .error)).length
  ("Validating " ++ path) ::
    (if issues.isEmpty then ["  OK - no issues found"]
    else
      ("  " ++ Text.natural errors ++ " error(s), " ++ Text.natural (issues.length - errors) ++
        " warning(s)") :: issues.map issueLine)

/-- **Validate** an alignment. -/
def validate (files : FileAccess m) (arguments : List String) : Command m Unit := do
  match Arguments.positional arguments with
  | [] => throw (.other Usage.validate)
  | path :: _ =>
    let alignment ← alignment files path
    let issues := alignment.validate
    if arguments.contains "--json" then printLine (Json.pretty (.list (issues.map Issue.toData)))
    else printLine (Text.join "\n" (issueLines path issues))
    if issues.any (fun i => i.severity == .error) then throw (.other "Validation failed")

/-- The names of the schemas that are printed. -/
def schemaNames : List String := ["alignment", "schema", "config", "document", "report"]

/-- **Print a schema**, or the names of the schemas. -/
def printSchema (arguments : List String) : Command m Unit :=
  let name := arguments.head?.getD "list"
  if name = "list" then printLine ("Available schemas: " ++ Text.join ", " schemaNames)
  else
    match (if schemaNames.contains name then JsonSchema.named? name else none) with
    | some schema => printLine (Json.pretty schema)
    | none => throw (.other ("Unknown schema: " ++ name))

/-- Carry out a command by its name. -/
def byName (files : FileAccess m) (time : Int) (name : String) (arguments : List String) :
    Command m Unit :=
  if name = "compile" then compile files arguments
  else if name = "check" then check files time arguments
  else if name = "rif" then rif files arguments
  else if name = "validate" then validate files arguments
  else if name = "schema" then printSchema arguments
  else if ["version", "--version", "-v"].contains name then printLine Usage.version
  else if ["help", "--help", "-h"].contains name then printLine Usage.overview
  else do
    printError ("Unknown command: " ++ name)
    printLine Usage.overview
    throw (.other "Unknown command")

/-- What a computation comes to: a failure is printed. -/
def outcome (c : Command m Unit) : m Outcome := do
  match ← (ExceptT.run c).run ⟨"", ""⟩ with
  | (.ok (), console) => return ⟨0, console⟩
  | (.error failure, console) =>
    return ⟨1, { console with err := console.err ++ "Error: " ++ failure.message ++ "\n" }⟩

/-- **Carrying out a command line**, at a time in seconds. Without a command the usage
is printed, and that counts as a failure. -/
def run (files : FileAccess m) (time : Int) : List String → m Outcome
  | [] => return ⟨1, ⟨Usage.overview ++ "\n", ""⟩⟩
  | name :: arguments => outcome (byName files time name arguments)

end Command

end FeatureAlignment
