import UnusedDeps.Invocation.Record

/-!
# Compiler arguments

An argument list is scanned from left to right. Each of six flags takes the
argument after it as its value, whatever that looks like; a codegen option may
also stand in one argument with its flag. The last value of a flag counts,
except that every alias is kept and that silencing lints once is enough. Where a
list holds other values than texts, null is no value of a flag, and a value that
has to be taken apart must be a text.
-/

namespace UnusedDeps

/-- The flags whose values are read. -/
inductive CompilerFlag where
  | externCrate
  | crateName
  | crateType
  | capLints
  | outDir
  | codegen
  deriving DecidableEq, Repr

namespace CompilerFlag

def ofArgument? (arg : String) : Option CompilerFlag :=
  if arg = "--extern" then some .externCrate
  else if arg = "--crate-name" then some .crateName
  else if arg = "--crate-type" then some .crateType
  else if arg = "--cap-lints" then some .capLints
  else if arg = "--out-dir" then some .outDir
  else if arg = "-C" then some .codegen
  else none

/-- The codegen option that stands in one argument with its flag. -/
def attached? (arg : String) : Option (CompilerFlag × Value) :=
  match arg.toList with
  | '-' :: 'C' :: c :: rest => some (.codegen, .text (String.ofList (c :: rest)))
  | _ => none

/-- The flags of an argument list with their values; a flag at the end has none. An argument that
is no text, where a flag could stand, is `none`. -/
def scan : List Value → List (Option (CompilerFlag × Value))
  | [] => []
  | [.text arg] => if (ofArgument? arg).isSome then [] else ((attached? arg).map some).toList
  | .text arg :: value :: rest =>
    match ofArgument? arg with
    | some f => if value = .null then scan rest else some (f, value) :: scan rest
    | none => ((attached? arg).map some).toList ++ scan (value :: rest)
  | _ :: rest => none :: scan rest

end CompilerFlag

/-- A text cut at its first equals sign; what follows is empty when there is none. -/
def cutAtEquals (s : String) : String × String :=
  let (name, value) := Text.cut '=' s.toList
  (String.ofList name, String.ofList (value.getD []))

/-- An alias with its file. -/
def parseExtern (value : String) : Except Problem (String × String) :=
  let (name, file) := cutAtEquals value
  if name.isEmpty then .error (.emptyExtern value) else .ok (name, file)

/-- The value of the codegen option that sets the extra filename. -/
def extraFilenameOf? (option : String) : Option String :=
  let (name, value) := cutAtEquals option
  if name = "extra-filename" then some value else none

/-- What the flags of an argument list have said so far. -/
structure CompilerArguments where
  externs : List (String × String) := []
  crateName : Option Value := none
  crateType : Option Value := none
  capLintsAllow : Bool := false
  outDir : Option Value := none
  extraFilename : Option String := none
  deriving DecidableEq, Repr

namespace CompilerArguments

/-- A value that is taken apart. -/
def textValue : Value → Except Fault String
  | .text s => .ok s
  | _ => .error .wrongType

def add (a : CompilerArguments) (f : CompilerFlag) (v : Value) : Except Fault CompilerArguments :=
  match f with
  | .externCrate => do
    let e ← (parseExtern (← textValue v)).mapError .problem
    return { a with externs := a.externs ++ [e] }
  | .crateName => .ok { a with crateName := some v }
  | .crateType => .ok { a with crateType := some v }
  | .capLints => .ok { a with capLintsAllow := a.capLintsAllow || v = .text "allow" }
  | .outDir => .ok { a with outDir := some v }
  | .codegen => do
    return { a with extraFilename := (extraFilenameOf? (← textValue v)).orElse fun _ =>
      a.extraFilename }

/-- The arguments with one more finding of a scan. -/
def addFound (a : CompilerArguments) :
    Option (CompilerFlag × Value) → Except Fault CompilerArguments
  | some (f, v) => a.add f v
  | none => .error .wrongType

/-- What the flags of an argument list say. -/
def ofList (args : List Value) : Except Fault CompilerArguments :=
  (CompilerFlag.scan args).foldlM addFound {}

end CompilerArguments

namespace InvocationRecord

/-- The crate type of a unit that names none. -/
def defaultCrateType : Value := .text "bin"

/-- A value that the arguments must have given. -/
def requireArgument {α : Type} (package : PackageId) (argument : RequiredArgument) :
    Option α → Except Fault α
  | some a => .ok a
  | none => .error (.problem (.missingArgument argument (some package.text)))

/-- The record of a unit of a package that is compiled with the given arguments. -/
def ofArguments (package : PackageId) (args : List Value) (customBuild : Value) :
    Except Fault InvocationRecord := do
  let a ← CompilerArguments.ofList args
  let crateName ← requireArgument package .crateName a.crateName
  let extraFilename ← requireArgument package .extraFilename a.extraFilename
  let outDir ← requireArgument package .outDir a.outDir
  return {
    package := package
    customBuild := customBuild
    crateName := crateName
    crateType := (a.crateType.filter (·.isTruthy)).getD defaultCrateType
    extraFilename := extraFilename
    capLintsAllow := a.capLintsAllow
    outDir := Path.ofText (← CompilerArguments.textValue outDir)
    externs := a.externs }

end InvocationRecord

end UnusedDeps
