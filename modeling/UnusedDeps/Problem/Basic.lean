import UnusedDeps.Json.Reader
import UnusedDeps.Package.Metadata
import UnusedDeps.Path.Basic
import UnusedDeps.Problem.Detail
import UnusedDeps.Schema.Fault
import UnusedDeps.Toml.Scalar

/-!
# Problems and faults

A `Problem` is a failure that the program explains: which argument is missing,
which file cannot be read, which command failed. Its record and its wording are
computed from it in one place. A `Fault` is any way a step can end without an
answer: a problem, or a failure that no step explains and that ends the run.
-/

namespace UnusedDeps

/-- Why a file could not be read, written or run. -/
inductive FileFault where
  | missing
  | badFormat
  | notPermitted
  | notDirectory
  | isDirectory
  | nameTooLong
  /-- The arguments and variables of a process take too much room. -/
  | argumentsTooLong
  /-- A program is a script for a script, and so on. -/
  | tooManyLinks
  deriving DecidableEq, Repr

def FileFault.message (f : FileFault) (p : Path) : String :=
  let what := match f with
    | .missing => "[Errno 2] No such file or directory: "
    | .badFormat => "[Errno 8] Exec format error: "
    | .notPermitted => "[Errno 13] Permission denied: "
    | .notDirectory => "[Errno 20] Not a directory: "
    | .isDirectory => "[Errno 21] Is a directory: "
    | .nameTooLong => "[Errno 36] File name too long: "
    | .argumentsTooLong => "[Errno 7] Argument list too long: "
    | .tooManyLinks => "[Errno 40] Too many levels of symbolic links: "
  what ++ Text.quoted p.text

/-- What the reader of a file or of a document has to say. -/
inductive Complaint where
  | file (fault : FileFault) (path : Path)
  | notJson
  | notToml
  | schema (faults : List SchemaFault)
  | missingKey (name : String)
  | wrongType
  | badValue

/-- The wording of a complaint; the explanations of document readers are not repeated. -/
def Complaint.message : Complaint → String
  | .file f p => f.message p
  | .notJson => "<JSONDecodeError>"
  | .notToml => "<TOMLDecodeError>"
  | .schema _ => "<ValidationError>"
  | .missingKey name => "KeyError(" ++ Text.quoted name ++ ")"
  | .wrongType => "<TypeError>"
  | .badValue => "<ValueError>"

/-- A compiler argument that a record cannot do without. -/
inductive RequiredArgument where
  | crateName
  | extraFilename
  | outDir
  /-- Any other argument, by its name. -/
  | other (name : Value)
  deriving DecidableEq, Repr

def RequiredArgument.name : RequiredArgument → Value
  | .crateName => .text "crate name"
  | .extraFilename => .text "extra-filename"
  | .outDir => .text "outdir"
  | .other name => name

/-- The commands of the toolchain that a run gives. -/
inductive CargoStage where
  | resolution
  | cleaning
  | checking
  deriving DecidableEq, Repr

def CargoStage.failureTitle : CargoStage → String
  | .resolution => "Dependency resolution failed"
  | .cleaning => "Could not clean local packages"
  | .checking => "Build failed"

/-- The answer of an external tool. -/
structure ToolResult where
  tool : String
  args : List String
  code : Int
  stdout : String
  stderr : String
  deriving DecidableEq, Repr

/-- A failure that the program explains. -/
inductive Problem where
  | missingArgument (argument : RequiredArgument) (package : Option String)
  | emptyExtern (value : String)
  | malformedRecord (complaint : Complaint)
  | unreadableLog (path : Path) (complaint : Complaint)
  | malformedLog (path : Path) (line : Nat) (complaint : Complaint)
  | invalidMetadata (manifest : Option Path) (faults : List SchemaFault)
  | unreadableManifest (path : Path) (complaint : Complaint)
  | unresolvedGraph
  | incompletePackage (field : String) (package : Value)
  | unknownPackage (id : Value)
  | unknownKind (kind : Value) (package : String)
  | unreadableGraph (path : Path) (complaint : Complaint)
  | unreadableArtifact (crate : String) (path : Path) (package : String) (complaint : Complaint)
  | noArtifact (crate : String)
  | failedCommand (stage : CargoStage) (result : ToolResult)
  | abortedCommand (result : ToolResult)
  | missingTool (tool configured : String)
  | missingWrapper (name : String)
  | invalidOption (reasons : List String)

namespace Problem

/-- The wording of a tool that cannot be found. -/
def missingToolText (tool configured : String) : String :=
  "Tool " ++ tool ++ " not found (configured as " ++ Text.quoted configured ++ ")"

/-- Arguments as a message shows them: quoted, between parentheses, with a comma after a single
one. -/
def argumentsText (args : List String) : String :=
  match args with
  | [a] => "(" ++ Text.quoted a ++ ",)"
  | args => "(" ++ String.intercalate ", " (args.map Text.quoted) ++ ")"

/-- The wording of a tool that was stopped. -/
def abortedToolText (result : ToolResult) : String :=
  "Tool " ++ result.tool ++ " failed (code=" ++ toString result.code ++ ")\nArgs: "
    ++ argumentsText result.args ++ "\nstderr: " ++ Text.strip result.stderr

/-- A command as messages show it. -/
def commandText (result : ToolResult) : String :=
  "`cargo " ++ String.intercalate " " result.args ++ "`"

def message : Problem → String
  | .missingArgument argument package =>
    argument.name.plainText ++ " needed" ++ (package.map fun p => " (package " ++ p ++ ")").getD ""
  | .emptyExtern value => "invalid format for --extern arg: " ++ value
  | .malformedRecord c => "could not decode invocation record: " ++ c.message
  | .unreadableLog path c => "could not read " ++ path.text ++ ": " ++ c.message
  | .malformedLog path line c =>
    path.text ++ ":" ++ toString line ++ ": could not decode invocation: " ++ c.message
  | .invalidMetadata manifest faults =>
    "could not parse `package.metadata.cargo-udeps`"
      ++ (manifest.map fun p => " in " ++ p.text).getD "" ++ ": "
      ++ (Complaint.schema faults).message
  | .unreadableManifest path c => "could not read " ++ path.text ++ ": " ++ c.message
  | .unresolvedGraph => "metadata has no `resolve` section (was --no-deps used?)"
  | .incompletePackage field _ => "package entry missing field " ++ Text.quoted field
  | .unknownPackage id => "could not find `" ++ id.plainText ++ "`"
  | .unknownKind kind _ => "Unknown dependency kind " ++ kind.quotedText
  | .unreadableGraph path c => "could not load metadata from " ++ path.text ++ ": " ++ c.message
  | .unreadableArtifact crate path _ c =>
    "could not load save analysis for `" ++ crate ++ "` from " ++ path.text ++ ": " ++ c.message
  | .noArtifact crate => "no artifact for " ++ crate
  | .failedCommand _ result =>
    commandText result ++ " exited with " ++ toString result.code ++ "\n"
      ++ Text.strip result.stderr
  | .abortedCommand result =>
    commandText result ++ " did not complete: " ++ Text.strip result.stderr
  | .missingTool tool configured => missingToolText tool configured
  | .missingWrapper name => "`" ++ name ++ "` is not on PATH; reinstall udeps"
  | .invalidOption reasons => String.intercalate "; " reasons

def code : Problem → String
  | .missingArgument _ _ => "invocation.missing_argument"
  | .emptyExtern _ => "invocation.invalid_argument"
  | .malformedRecord _ => "invocation.invalid_record"
  | .unreadableLog _ _ => "invocation.invalid_record"
  | .malformedLog _ _ _ => "invocation.invalid_record"
  | .invalidMetadata _ _ => "config.invalid_metadata"
  | .unreadableManifest _ _ => "config.invalid_metadata"
  | .unresolvedGraph => "graph.invalid"
  | .incompletePackage _ _ => "graph.invalid"
  | .unknownPackage _ => "graph.invalid"
  | .unknownKind _ _ => "graph.invalid"
  | .unreadableGraph _ _ => "graph.invalid"
  | .unreadableArtifact _ _ _ _ => "artifact.unreadable"
  | .noArtifact _ => "artifact.unreadable"
  | .failedCommand _ _ => "build.failed"
  | .abortedCommand _ => "build.aborted"
  | .missingTool _ _ => "build.tool_missing"
  | .missingWrapper _ => "build.tool_missing"
  | .invalidOption _ => "cli.invalid_option"

def title : Problem → String
  | .missingArgument _ _ => "Missing required compiler argument"
  | .emptyExtern _ => "Malformed compiler argument"
  | .malformedRecord _ => "Malformed invocation record"
  | .unreadableLog _ _ => "Unreadable invocation log"
  | .malformedLog _ _ _ => "Malformed invocation log"
  | .invalidMetadata _ _ => "Invalid package metadata"
  | .unreadableManifest _ _ => "Unreadable manifest"
  | .unresolvedGraph => "Malformed resolved graph"
  | .incompletePackage _ _ => "Malformed resolved graph"
  | .unknownPackage _ => "Malformed resolved graph"
  | .unknownKind _ _ => "Malformed resolved graph"
  | .unreadableGraph _ _ => "Malformed resolved graph"
  | .unreadableArtifact _ _ _ _ => "Usage artifact unavailable"
  | .noArtifact _ => "Usage artifact unavailable"
  | .failedCommand stage _ => stage.failureTitle
  | .abortedCommand _ => "Cargo invocation aborted"
  | .missingTool _ _ => "Toolchain executable not found"
  | .missingWrapper _ => "Compiler wrapper not found"
  | .invalidOption _ => "Invalid option"

def extras : Problem → Fields
  | .missingArgument argument _ => [("argument", argument.name)]
  | .emptyExtern value => [("flag", .text "--extern"), ("value", .text value)]
  | .invalidMetadata manifest _ =>
    [("manifest_path", (manifest.map fun p => .text p.text).getD .null)]
  | .unreadableManifest path _ => [("manifest_path", .text path.text)]
  | .incompletePackage _ package => [("package", package)]
  | .unknownPackage id => [("package", id)]
  | .unknownKind _ package => [("package", .text package)]
  | .unreadableArtifact _ path package _ =>
    [("path", .text path.text), ("package", .text package)]
  | .failedCommand _ result => [("returncode", .int result.code)]
  | .abortedCommand result => [("returncode", .int result.code)]
  | _ => []

def toDetail (p : Problem) : ProblemDetail :=
  .ofCode (.text p.code) (.text p.title) (.text p.message) (.table p.extras) .null .null

end Problem

/-- Any way a step can end without an answer. -/
inductive Fault where
  | problem (p : Problem)
  /-- A document does not have the types of its schema. -/
  | schema (faults : List SchemaFault)
  | unknownKind (kind : Value)
  | unknownTool (name : Value)
  | missingTool (tool configured : String)
  | abortedTool (result : ToolResult)
  /-- A value has a type that the step cannot use. -/
  | wrongType
  /-- A value has the right type and cannot be used. -/
  | badValue
  /-- A list has fewer elements than the step reads. -/
  | tooShort
  /-- A number is too large to be counted to. -/
  | tooLarge
  /-- A document is nested too deeply. -/
  | tooDeep
  /-- A text has no bytes that the host knows. -/
  | noBytes
  | missingKey (name : String)
  | noHome
  | notJson
  | notUtf8
  | file (fault : FileFault) (path : Path)

namespace Fault

/-- The fault of a name that the host cannot use. -/
def ofName : Path.NameFault → Fault
  | .zero => .badValue
  | .noBytes => .noBytes

/-- The fault of a text that is no JSON value; `refusal` is that of one that is no JSON at all. -/
def ofJson (refusal : Fault) : Json.ReadFault → Fault
  | .notJson => refusal
  | .hugeInteger => .badValue
  | .tooDeep => .tooDeep

/-- The fault of a configuration that gives no table. -/
def ofToml (refusal : Fault) : Toml.ReadFault → Fault
  | .notToml => refusal
  | .hugeInteger => .badValue
  | .tooDeep => .tooDeep

def ofTable : TableFault → Fault
  | .wrongType => .wrongType
  | .notPair => .badValue

end Fault

/-- The value of an option; without one, a value has the wrong type. -/
def orWrongType {α : Type} : Option α → Except Fault α
  | some a => .ok a
  | none => .error .wrongType

theorem eq_some_of_orWrongType {α : Type} {x : Option α} {a : α} (h : orWrongType x = .ok a) :
    x = some a := by
  cases x <;> simp_all [orWrongType]

end UnusedDeps
