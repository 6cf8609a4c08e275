import UnusedDeps.Order
import UnusedDeps.Shell.Arithmetic
import UnusedDeps.Shell.Pattern

/-!
# Expanding words

The pieces of a word are expanded to fragments: text, which may be quoted, and
values that are split. Splitting makes fields of fragments, and a field that is a
pattern becomes the files whose names have it. How the output of a command is
obtained is a parameter.
-/

namespace UnusedDeps.Shell

variable [Whereabouts]

/-- A part of an expanded word. -/
inductive Fragment where
  /-- A text that is not split; a quoted one makes a field also when it is empty. -/
  | text (s : String) (quoted : Bool)
  /-- A text that is split at separators. -/
  | split (s : String)
  /-- The end of an argument that is a field of its own. -/
  | boundary
  deriving DecidableEq, Repr

/-- How a word is expanded. -/
structure Expanding where
  /-- Whether the word becomes fields. -/
  fields : Bool := false
  /-- Whether text outside quotes is split, too. -/
  splitsText : Bool := false

namespace Fragment

def glyphs (fs : List Fragment) : List Glyph :=
  fs.flatMap fun
    | .text s quoted => s.toList.map fun c => ⟨c, quoted⟩
    | .split s => s.toList.map fun c => ⟨c, false⟩
    | .boundary => []

def plainText : Fragment → String
  | .text s _ => s
  | .split s => s
  | .boundary => ""

def plain (fs : List Fragment) : String :=
  match fs with
  | [f] => f.plainText
  | fs => String.join (fs.map plainText)

end Fragment

/-! ### Splitting -/

/-- Whether a separator is a blank, several of which separate like one. -/
def isBlankSeparator (c : Char) : Bool := c = ' ' || c = '\t' || c = '\n' || c = Pattern.argumentEnd

/-- The fields of fragments that have been read, the last one first. -/
structure FieldBuilder where
  complete : List (List Glyph)
  /-- The field that is being read, the last character first. -/
  current : Option (List Glyph)
  /-- Whether the last field ended at a blank, which a separator may follow. -/
  afterBlank : Bool

namespace FieldBuilder

/-- The builder before the first fragment. -/
def initial : FieldBuilder := ⟨[], none, false⟩

/-- The fields with the current one complete. -/
def close (f : FieldBuilder) (afterBlank : Bool) : FieldBuilder :=
  ⟨(f.current.getD []).reverse :: f.complete, none, afterBlank⟩

/-- The fields with a character added. -/
def add (f : FieldBuilder) (g : Glyph) : FieldBuilder :=
  { f with current := some (g :: f.current.getD []), afterBlank := false }

/-- The fields with a character added that may be a separator. -/
def addSplit (separators : List Char) (f : FieldBuilder) (c : Char) : FieldBuilder :=
  if c ≠ Pattern.argumentEnd && !separators.contains c then f.add ⟨c, false⟩
  else if isBlankSeparator c then if f.current.isSome then f.close true else f
  else if f.current.isNone && f.afterBlank then { f with afterBlank := false }
  else f.close false

def addFragment (separators : List Char) (f : FieldBuilder) : Fragment → FieldBuilder
  | .text s quoted =>
    let f := if quoted then { f with current := some (f.current.getD []) } else f
    s.foldl (fun f c => f.add ⟨c, quoted⟩) f
  | .split s => s.foldl (addSplit separators) { f with afterBlank := false }
  | .boundary => f.close false

/-- The fields that have been read. -/
def finish (f : FieldBuilder) : List (List Glyph) :=
  ((if f.current.isSome then f.close false else f).complete).reverse

end FieldBuilder

def splitFields (separators : List Char) (fs : List Fragment) : List (List Glyph) :=
  (fs.foldl (FieldBuilder.addFragment separators) .initial).finish

/-! ### Names of files -/

/-- The parts of a pattern for paths, each with the slashes behind it. -/
def pathParts : List Glyph → List (List Glyph × List Char)
  | [] => []
  | g :: r =>
    match pathParts r with
    | [] => if g.char = '/' then [([], ['/'])] else [([g], [])]
    | (part, slashes) :: rest =>
      if g.char ≠ '/' then (g :: part, slashes) :: rest
      else if part.isEmpty then ([], '/' :: slashes) :: rest
      else ([], ['/']) :: (part, slashes) :: rest

/-- The paths that start with a text and have the parts of a pattern behind it. -/
def pathsOf (s : Session) : String → List (List Glyph × List Char) → List String
  | start, [] =>
    match s.nodeAt start with
    | .ok _ => [start]
    | .error _ => []
  | start, (part, slashes) :: rest =>
    let behind := String.ofList slashes
    if Pattern.isPattern part then
      let directory := if start.isEmpty then "." else start
      let names : List String := match s.nodeAt directory with
        | .ok .directory => (s.machine.files.children (s.path directory)).map Text.bytewise
        | _ => []
      let pattern := Pattern.ofGlyphs part
      let startsWithDot := part.head?.any fun g => g.char = '.'
      let names := (if startsWithDot then "." :: ".." :: names else names).filter fun n =>
        (startsWithDot || n.toList.head? ≠ some '.') && Pattern.accepts pattern n.toList
      if slashes.isEmpty && rest.isEmpty then names.map fun n => start ++ n
      else names.flatMap fun n => pathsOf s (start ++ n ++ behind) rest
    else pathsOf s (start ++ String.ofList (part.map Glyph.char) ++ behind) rest

/-- The files that a field stands for when it is a pattern that some of them have, else its
text. -/
def filesOrText (s : Session) (gs : List Glyph) : List String :=
  let text := String.ofList (gs.map Glyph.char)
  if s.isOn 'f' || !Pattern.isPattern gs then [text]
  else
    match sortUnique (pathsOf s "" (pathParts gs)) with
    | [] => [text]
    | paths => paths

/-! ### Home directories -/

/-- The fragments of a text outside quotes that may start with the name of a home directory, which
ends at one of the given characters or where the word ends. -/
def homeFragments (s : Session) (ends : List Char) (text : String) (isLast : Bool) :
    List Fragment :=
  if !text.startsWith "~" then [.text text false]
  else
    let behind := text.toList.tail
    let name := behind.takeWhile fun c => !ends.contains c
    let rest := behind.drop name.length
    let home :=
      if name.isEmpty then s.value? "HOME" else Whereabouts.accounts.lookup (String.ofList name)
    match home with
    | some h =>
      if rest.isEmpty && !isLast then [.text text false]
      else [.text h (!h.isEmpty), .text (String.ofList rest) false]
    | none => [.text text false]

/-- The fragments of a text outside quotes in which names of home directories may follow colons, and
may be its start when an assignment starts there. -/
def homeFragmentsBetween (s : Session) (atStart : Bool) (text : String) (isLast : Bool) :
    List Fragment :=
  if !text.contains '~' then [.text text false]
  else
    let parts := Text.splitOnChar ':' text
    let last := parts.length - 1
    let expanded (p : String) (i : Nat) : List Fragment :=
      let colon : List Fragment := if i = last then [] else [.text ":" false]
      if i = 0 && !atStart then .text p false :: colon
      else homeFragments s ['/'] p (i ≠ last || isLast) ++ colon
    (parts.zipIdx.map fun p => expanded p.1 p.2).flatten

/-! ### Parameters -/

namespace Session

/-- The letters of all options, in the order in which they are shown. -/
def optionLetters : List Char := "pubaCEVvxsnmiIfe".toList

/-- What stands between arguments that become one text. -/
def joint (s : Session) : String := String.ofList (s.separators.take 1)

/-- The value of a parameter; arguments are joined. -/
def parameter? (s : Session) : Parameter → Option String
  | .variable name => s.value? name
  | .positional 0 => some s.name
  | .positional (n + 1) => s.args[n]?
  | .arguments _ => some (String.intercalate s.joint s.args)
  | .count => some (toString s.args.length)
  | .status => some (toString s.status)
  | .process => some (toString s.root)
  | .background => s.background.map toString
  | .options => some (String.ofList (optionLetters.filter s.isOn))

end Session

def Parameter.text : Parameter → String
  | .variable name => name
  | .positional n => toString n
  | .arguments separate => if separate then "@" else "*"
  | .count => "#"
  | .status => "?"
  | .process => "$"
  | .background => "!"
  | .options => "-"

namespace Act

def valueFragment (value : String) (quoted : Bool) : Fragment :=
  if quoted then .text value true else .split value

/-- The fragments of texts in quotes that are fields of their own. -/
def separateFragments (texts : List String) : List Fragment :=
  ((texts.map fun t => [Fragment.text t true]).intersperse [.boundary]).flatten

/-- What stands between arguments that are one text. -/
def argumentJoint : String := String.singleton Pattern.argumentEnd

def parameterFragments (s : Session) (p : Parameter) (e : Expanding) (quoted : Bool) :
    List Fragment :=
  match p, e.fields, quoted with
  | .arguments _, true, false =>
    [.split (String.intercalate argumentJoint s.args)]
  | .arguments true, true, true => separateFragments s.args
  | p, _, quoted => [valueFragment ((s.parameter? p).getD "") quoted]

/-- The fragments of a parameter whose value is trimmed; several arguments are trimmed like one
text. -/
def trimmedFragments (s : Session) (p : Parameter) (e : Expanding) (quoted atEnd longest : Bool)
    (pattern : List Glyph) : List Fragment :=
  let es := Pattern.ofGlyphs pattern
  let trim (t : String) : String :=
    String.ofList ((if atEnd then Pattern.trimEnd else Pattern.trimStart) es longest t.toList)
  match p, e.fields, quoted with
  | .arguments _, true, false =>
    let joint := if (s.value? "IFS").isNone then " " else argumentJoint
    [.split (trim (String.intercalate joint s.args))]
  | .arguments true, true, true =>
    let together := Pattern.trimTogether pattern atEnd longest (s.args.map String.toList)
    separateFragments (Text.splitOnChar Pattern.argumentEnd (String.ofList together))
  | p, _, quoted => [valueFragment (trim ((s.parameter? p).getD "")) quoted]

/-- The complaint about a parameter without value. -/
def demandText (p : Parameter) (orEmpty : Bool) (text : Option String) : String :=
  p.text ++ ": "
    ++ text.getD (if orEmpty then "parameter not set or null" else "parameter not set")

/-- The value of a parameter, which must have one when the shell insists on that. -/
def demandSet (p : Parameter) : Act Unit := do
  let s ← get
  if s.isOn 'u' && (s.parameter? p).isNone then fail (demandText p false none)

/-- Sets a parameter, which must be a variable. -/
def assignParameter (p : Parameter) (value : String) : Act Unit :=
  match p with
  | .variable name => assign name value
  | p => fail (p.text ++ ": bad variable name")

/-- The fragment of a text, which is split outside quotes where that is asked for. -/
def unquotedIn (e : Expanding) : Fragment → Fragment
  | .text t false => if e.splitsText then .split t else .text t false
  | f => f

variable (output : Command → Act (List UInt8))

mutual

def pieceFragments (e : Expanding) : Piece → Act (List Fragment)
  | .text t quoted => return [unquotedIn e (.text t quoted)]
  | .parameter p use quoted => useFragments e p quoted use
  | .output c quoted => do
    let bytes ← output c
    let kept := ((bytes.filter (· ≠ 0)).reverse.dropWhile (· = 10)).reverse
    return [valueFragment (Text.ofBytes kept) quoted]
  | .arithmetic expression quoted => do
    let n ← Arithmetic.compute (Fragment.plain (← pieceListFragments {} false expression))
    return [valueFragment (toString n) quoted]

/-- The fragments of pieces, the first of which may start with the name of a home directory. -/
def pieceListFragments (e : Expanding) (atStart : Bool) : List Piece → Act (List Fragment)
  | [] => return []
  | p :: rest => do
    let first ← pieceFragments e p
    let first ← match atStart, p with
      | true, .text t false => do
        pure ((homeFragments (← get) ['/'] t rest.isEmpty).map (unquotedIn e))
      | _, _ => pure first
    if p.isLast then return first else return first ++ (← pieceListFragments e false rest)

def useFragments (e : Expanding) (p : Parameter) (quoted : Bool) : Use → Act (List Fragment)
  | .value => do
    demandSet p
    return parameterFragments (← get) p e quoted
  | .last pieces => do
    demandSet p
    let value := parameterFragments (← get) p e quoted
    return value ++ (← pieceListFragments e false pieces)
  | .length => do
    demandSet p
    return [valueFragment (toString (((← get).parameter? p).getD "").length) quoted]
  | .word choice orEmpty pieces => do
    let s ← get
    let isSet : Bool := match s.parameter? p with
      | some v => !orEmpty || !v.isEmpty
      | none => false
    let asText : Act String := do return Fragment.plain (← pieceListFragments {} true pieces)
    match choice, isSet with
    | .alternative, true => pieceListFragments { e with splitsText := !quoted } true pieces
    | .alternative, false => return []
    | _, true => return parameterFragments s p e quoted
    | .default, false => pieceListFragments { e with splitsText := !quoted } true pieces
    | .assign, false =>
      assignParameter p (← asText)
      return parameterFragments (← get) p e quoted
    | .demand, false =>
      let text ← asText
      fail (demandText p orEmpty (if pieces.isEmpty then none else some text))
  | .trim atEnd longest pattern => do
    demandSet p
    if ((← get).parameter? p).isNone then return [valueFragment "" quoted]
    let gs := Fragment.glyphs (← pieceListFragments {} true pattern)
    return trimmedFragments (← get) p e quoted atEnd longest gs
  | .invalid => fail "Bad substitution"

end

/-! ### Words -/

/-- Whether a text outside quotes stands for itself, as a word that is given. A bracket alone does. -/
def isPlainText (t : String) : Bool := t = "[" || !(t.startsWith "~" || t.any Pattern.isWild)

/-- Whether a value outside quotes is one field that stands for itself. -/
def isPlainValue (s : Session) (v : String) : Bool :=
  let separators := s.separators
  !(v.isEmpty || v.any fun c =>
    Pattern.isWild c || c = Pattern.argumentEnd || separators.contains c)

/-- The value of a parameter that is the only piece of a word, unless it is all arguments or has
none. -/
def ownValue? (s : Session) : Parameter → Option String
  | .arguments _ => none
  | p => s.parameter? p

/-- The only field of a word that is a plain text or the plain value of a parameter; `none` for other
words. -/
def plainField? (s : Session) : Word → Option String
  | [.text t quoted] => if quoted || isPlainText t then some t else none
  | [.parameter p .value quoted] =>
    (ownValue? s p).filter fun v => quoted || isPlainValue s v
  | _ => none

/-- The text of a word that is a plain text or the value of a parameter; `none` for other words. -/
def plainText? (s : Session) : Word → Option String
  | [] => some ""
  | [.text t quoted] => if quoted || !t.startsWith "~" then some t else none
  | [.parameter p .value _] => ownValue? s p
  | _ => none

def fields (w : Word) : Act (List String) := do
  let s ← get
  match plainField? s w with
  | some f => return [f]
  | none =>
    let fs ← pieceListFragments output { fields := true } true w
    let s ← get
    return (splitFields s.separators fs).flatMap (filesOrText s)

def text (w : Word) : Act String := do
  match plainText? (← get) w with
  | some t => return t
  | none => return Fragment.plain (← pieceListFragments output {} true w)

def pattern (w : Word) : Act (List Pattern.Element) := do
  return Pattern.ofGlyphs (Fragment.glyphs (← pieceListFragments output {} true w))

def documentText (w : Word) : Act String := do
  return Fragment.plain (← pieceListFragments output {} false w)

/-- The value that a variable is set to by a word. -/
def assignedText (w : Word) : Act String := do
  let s ← get
  let isPlain : Bool := match w with
    | [.text t _] => !t.contains '~'
    | _ => true
  match if isPlain then plainText? s w else none, w with
  | some t, _ => return t
  | none, [.arithmetic e q] => return Fragment.plain (← pieceFragments output {} (.arithmetic e q))
  | none, _ =>
    let before := w.takeWhile fun p => !p.isLast
    let w := before ++ (w.drop before.length).take 1
    let fs ← w.zipIdx.mapM fun p => do
      match p.1 with
      | .text t false =>
        return homeFragmentsBetween (← get) (p.2 = 0) t (p.2 + 1 = w.length)
      | p => pieceListFragments output {} false [p]
    return Fragment.plain fs.flatten

end Act

end UnusedDeps.Shell
