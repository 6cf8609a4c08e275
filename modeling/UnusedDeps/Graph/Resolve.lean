import UnusedDeps.Graph.Basic
import UnusedDeps.Graph.Document
import UnusedDeps.Logged

/-!
# The graph of a resolver document

Packages are taken up in document order, then the nodes with their dependency
entries, then the members. Each dependency entry gives one edge for each of its
kinds, under the key that the manifest of the depending package uses.
-/

namespace UnusedDeps

variable [Whereabouts]

/-- What the package entries of a document say so far. -/
structure PackageTable where
  graph : Graph
  /-- The identity that each raw identifier stands for, the latest first. -/
  byRawId : List (Key × PackageId)
  /-- The declarations of each package, the latest first. -/
  declared : List (PackageId × List (Option Declaration))

namespace PackageTable

def empty : PackageTable := ⟨⟨[], [], []⟩, [], []⟩

end PackageTable

/-! ### Packages -/

def libraryKinds : List String := ["lib", "rlib", "dylib", "staticlib", "cdylib", "proc-macro"]

/-- Whether one of a target's kinds is a library kind. -/
def TargetEntry.isLibrary (t : TargetEntry) : Except Fault Bool :=
  match t.kinds with
  | .absent => .ok false
  | .malformed => .error .wrongType
  | .given kinds => do
    let keys ← orWrongType (keysOf? kinds)
    return libraryKinds.any fun k => keys.contains (.text k)

def libraryName : List (Option TargetEntry) → Except Fault (Option Value)
  | [] => .ok none
  | none :: _ => .error .wrongType
  | some t :: rest => do if ← t.isLibrary then return t.name else libraryName rest

/-- The elements of a list field that may be left out. -/
def Field.listOrEmpty {α : Type} : Field (List α) → Except Fault (List α)
  | .absent => .ok []
  | .malformed => .error .wrongType
  | .given items => .ok items

/-- The value of a field that is there; a field of the wrong type is a fault. -/
def Field.get {α : Type} : Field α → Except Fault α
  | .given a => .ok a
  | _ => .error .wrongType

/-- The problem of a package entry without a field. -/
def PackageEntry.lacks (p : PackageEntry) (name : String) : Fault :=
  .problem (.incompletePackage name (p.rawId.getD .null))

/-- A field that a package entry must have. -/
def PackageEntry.require {α : Type} (p : PackageEntry) (name : String) :
    Option α → Except Fault α
  | some a => .ok a
  | none => .error (p.lacks name)

def PackageEntry.manifest (p : PackageEntry) : Except Fault Path :=
  match p.manifestPath with
  | .given s => .ok (Path.ofText s)
  | .malformed => .error .wrongType
  | .absent => .error (p.lacks "manifest_path")

/-- The identity and the manifest of a package entry. Without a source the package is identified by
the directory of its manifest. -/
def PackageEntry.identity (p : PackageEntry) : Except Fault (PackageId × Path) := do
  let name ← p.require "name" p.name
  let version ← p.require "version" p.version
  let manifest ← p.manifest
  match p.source with
  | some source => return (⟨name, version, source⟩, manifest)
  | none =>
    return (← (PackageId.ofDirectory name version manifest.parent).mapError .ofName, manifest)

/-- The table with one more package entry; without a raw identifier, the text of the identity is
one. -/
def PackageTable.addEntry (t : PackageTable) (p : PackageEntry) : Except Fault PackageTable := do
  let (id, manifest) ← p.identity
  let key ← orWrongType (p.rawId.getD (.text id.text)).key?
  let declared ← p.dependencies.listOrEmpty
  let _ ← orWrongType id.keys?
  let libName ← libraryName (← p.targets.listOrEmpty)
  let metadata ← p.metadata.mapError .ofTable
  return {
    graph := t.graph.addPackage ⟨id, manifest, libName, metadata⟩
    byRawId := (key, id) :: t.byRawId
    declared := (id, declared) :: t.declared }

def PackageTable.ofEntries (t : PackageTable) :
    List (Option PackageEntry) → Except Fault PackageTable
  | [] => .ok t
  | none :: _ => .error .wrongType
  | some p :: rest => do (← t.addEntry p).ofEntries rest

/-- The identity that a raw identifier stands for. -/
def PackageTable.lookup (t : PackageTable) (raw : Value) : Except Fault PackageId := do
  match t.byRawId.lookup (← orWrongType raw.key?) with
  | some id => return id
  | none => throw (.problem (.unknownPackage raw))

def PackageTable.declarationsOf (t : PackageTable) (id : PackageId) : List (Option Declaration) :=
  ((t.declared.find? (·.1.same id)).map (·.2)).getD []

/-! ### Manifest keys -/

def declaredKind (v : Value) : Except Fault DependencyKind :=
  match DependencyKind.ofValue v with
  | .ok k => .ok k
  | .error .wrongType => .error .wrongType
  | .error (.unknown v) => .error (.unknownKind v)

def candidates (name : String) (kind : DependencyKind) :
    List (Option Declaration) → Except Fault (List Declaration)
  | [] => .ok []
  | none :: _ => .error .wrongType
  | some d :: rest =>
    if d.name = some name then do
      let k ← declaredKind d.kind
      let ds ← candidates name kind rest
      return if k = kind then d :: ds else ds
    else candidates name kind rest

/-- The first rename that the compiler shows as the alias. -/
def renamedTo? (externName : Value) : List Declaration → Except Fault (Option String)
  | [] => .ok none
  | d :: rest =>
    match d.rename with
    | .absent => renamedTo? externName rest
    | .malformed => .error .wrongType
    | .given r =>
      if externName = .text (Text.underscored r) then .ok (some r) else renamedTo? externName rest

/-- The manifest key among declarations of one package and kind: the rename that gives the alias,
else the package name when one declaration has no rename or there is none at all, else the rename
of the first one. -/
def manifestKey (name : String) (externName : Value) (ds : List Declaration) :
    Except Fault String := do
  match ← renamedTo? externName ds with
  | some r => return r
  | none =>
    if ds.any fun d => d.rename matches .absent then return name
    else
      match ds with
      | ⟨_, _, .given r⟩ :: _ => return r
      | _ => return name

/-- The key under which a manifest declares a resolved dependency. -/
def nameInManifest (declared : List (Option Declaration)) (target : String)
    (kind : DependencyKind) (externName : Value) : Except Fault String := do
  manifestKey target externName (← candidates target kind declared)

/-! ### Edges -/

/-- The kinds of a dependency entry; one without any is a normal dependency. -/
def DependencyEntry.kindList (d : DependencyEntry) : Except Fault (List (Option Value)) :=
  match d.kinds with
  | .absent => .ok [some .null]
  | .malformed => .error .wrongType
  | .given ks => .ok ks

/-- A kind named by a dependency entry of a package. -/
def resolvedKind (source : PackageId) : Option Value → Except Fault DependencyKind
  | none => .error .wrongType
  | some v =>
    match DependencyKind.ofValue v with
    | .ok k => .ok k
    | .error .wrongType => .error .wrongType
    | .error (.unknown v) => .error (.problem (.unknownKind v source.text))

/-- A dependency entry with what its edges have in common. -/
structure ResolvedDependency where
  source : PackageId
  target : PackageId
  name : String
  externName : Value
  targetLib : Option Value
  declared : List (Option Declaration)

def ResolvedDependency.edge (d : ResolvedDependency) (kind : Option Value) : Except Fault Edge := do
  let kind ← resolvedKind d.source kind
  let name ← nameInManifest d.declared d.name kind d.externName
  return {
    source := d.source
    target := d.target
    kind := kind
    name := name
    externName := d.externName
    targetLib := d.targetLib }

/-- The dependency that an entry of a package gives; the name of its target must be a text, which
with underscores is the alias of an entry without one. -/
def PackageTable.resolve (t : PackageTable) (source : PackageId) (d : DependencyEntry) :
    Except Fault ResolvedDependency := do
  let target ← t.lookup d.package
  match target.name with
  | .text name =>
    return {
      source := source
      target := target
      name := name
      externName := d.name.getD (.text (Text.underscored name))
      targetLib := (t.graph.package? target).bind (·.libName)
      declared := t.declarationsOf source }
  | _ => throw .wrongType

def PackageTable.edgesOf (t : PackageTable) (source : PackageId) (d : DependencyEntry) :
    Except Fault (List Edge) := do
  let resolved ← t.resolve source d
  (← d.kindList).mapM resolved.edge

def PackageTable.edgesOfEntries (t : PackageTable) (source : PackageId) :
    List (Option DependencyEntry) → Except Fault (List Edge)
  | [] => .ok []
  | none :: _ => .error .wrongType
  | some d :: rest => do return (← t.edgesOf source d) ++ (← t.edgesOfEntries source rest)

def PackageTable.edgesOfNodes (t : PackageTable) :
    List (Option NodeEntry) → Except Fault (List Edge)
  | [] => .ok []
  | none :: _ => .error .wrongType
  | some n :: rest => do
    let source ← t.lookup n.rawId
    let edges ← t.edgesOfEntries source (← n.deps.listOrEmpty)
    return edges ++ (← t.edgesOfNodes rest)

/-! ### The graph -/

def Graph.ofDocument (doc : ResolverDocument) : Except Fault Graph := do
  let table ← PackageTable.empty.ofEntries (← doc.packages.listOrEmpty)
  match doc.nodes with
  | .absent => throw (.problem .unresolvedGraph)
  | .malformed => throw .wrongType
  | .given nodes =>
    let edges ← table.edgesOfNodes (← nodes.listOrEmpty)
    let members ← (← doc.members.listOrEmpty).mapM table.lookup
    return members.foldl Graph.addMember (edges.foldl Graph.addEdge table.graph)

def graphLogger : String := "udeps.graphs.resolved_graph"

/-- The line that tells the size of a graph. -/
def Graph.summary (g : Graph) : String :=
  "Resolved graph: " ++ toString g.packages.length ++ " packages, " ++ toString g.edges.length
    ++ " edges, " ++ toString g.members.length ++ " members"

/-- The graph of a value that should be a resolver document. -/
def Graph.ofValue (v : Value) : Logged Graph :=
  match ResolverDocument.ofValue? v with
  | none => .fail .wrongType
  | some doc => do
    let g ← .ofExcept (Graph.ofDocument doc)
    .log .debug graphLogger g.summary
    return g

end UnusedDeps
