import UnusedDeps.Shell.Options

/-!
# The working directory

`cd` goes to a directory and remembers the one before it; a relative one may be
looked for below the directories of `CDPATH`. The shell calls its directory by the
path it was told, in which `..` takes back the part before it, unless it is asked
to look at the tree itself.
-/

namespace UnusedDeps.Shell

variable [Whereabouts]

/-- What a directory is called that a text means in another one. -/
def directoryNameIn (current target : String) : String :=
  ((Path.ofText current).child target).direct.text

/-- Whether a path is looked for below the directories of `CDPATH`: one that does not say itself
where it starts. -/
def isSearchedFor (target : String) : Bool :=
  !((Path.ofText target).anchor ≠ .relative
    || [".", ".."].contains (String.ofList (target.toList.takeWhile (· ≠ '/'))))

namespace Act

/-- Goes to a directory, by its name or as the tree has it, and remembers the one before it. -/
def goTo (asInTree : Bool) (target : String) : Act Bool := do
  let s ← get
  let name := directoryNameIn s.directoryName target
  let path := if asInTree then s.path target else (Path.ofText (Text.hostText name)).resolve.nearby
  match s.machine.files.lookup path with
  | .ok .directory =>
    let directory := path.resolve.nearby
    let name := if asInTree then Text.bytewise directory.resolve.text else name
    let outdated (e : String × Tracked) : String × Tracked := (e.1, { e.2 with stale := true })
    set { s with directory, found := s.found.map outdated }
    assign "OLDPWD" s.directoryName
    mark "OLDPWD" fun v => { v with exported := true }
    modify fun s => { s with directoryName := name }
    assign "PWD" name
    mark "PWD" fun v => { v with exported := true }
    return true
  | _ => return false

/-- Whether the last of the options asks for the tree itself. -/
def asInTree (options : List Char) : Bool := options.getLast? = some 'P'

/-- The command `cd`. -/
def runChange (args : List String) : Act Unit := do
  let (options, args) ← letters ['L', 'P'] args
  let s ← get
  let (target, shows) : String × Bool := match args with
    | [] => ((s.value? "HOME").getD "", false)
    | "-" :: _ => ((s.value? "OLDPWD").getD "", true)
    | a :: _ => (a, false)
  let isDirectory (file : String) : Bool :=
    match s.nodeAt file with
    | .ok .directory => true
    | _ => false
  let searched : List String := match s.value? "CDPATH" with
    | some p => if isSearchedFor target then Text.splitOnChar ':' p else []
    | none => []
  let target := if target.isEmpty then "." else target
  let file (d : String) : String := if d.isEmpty then target else d ++ "/" ++ target
  let chosen := searched.find? fun d => isDirectory (file d)
  if ← goTo (asInTree options) ((chosen.map file).getD target) then
    let name := (← get).directoryName
    let shows := shows || chosen.any fun d => !d.isEmpty
    print (if shows then Text.toBytes (name ++ "\n") else []) 0
  else fail ("can't cd to " ++ target)

/-- The command `pwd`. -/
def runDirectory (args : List String) : Act Unit := do
  let (options, _) ← letters ['L', 'P'] args
  let s ← get
  let name := if asInTree options then Text.bytewise s.directory.resolve.text else s.directoryName
  print (Text.toBytes (name ++ "\n")) 0

end Act

end UnusedDeps.Shell
