import UnusedDeps.Graph.Basic
import UnusedDeps.Outcome.Basic

/-!
# Declared, used and ignored

Every declared dependency falls into one of three classes: seen in use, put on
the ignore table, or listed as unused. The ignore table of a package is asked for
once, when the package declares any dependency. Names on it are logged.
-/

namespace UnusedDeps

/-- A way to get the ignore table of a package. -/
abbrev IgnoreLoader := PackageInfo → Logged (Option IgnoreTable)

namespace IgnoreLoader

/-- The loader that answers from a mapping by package name. -/
def ofTable (tables : Mapping String IgnoreTable) : IgnoreLoader := fun p => do
  match ← .ofExcept (orWrongType p.id.name.key?) with
  | .text name => return Mapping.get? tables name
  | _ => return none

end IgnoreLoader

namespace Outcome

/-! ### The classes -/

/-- The declared names of a kind that were not seen in use. -/
def unmarked (id : PackageId) (names : DependencyNames) (used : UsedDependencies)
    (kind : DependencyKind) : List Value :=
  (names.table kind).declared.filter fun n => !used.contains kind ⟨id, n⟩

/-- Whether a name is on the ignore table, if there is one. -/
def isIgnored (ignore : Option IgnoreTable) (kind : DependencyKind) (name : Value) : Bool :=
  match ignore with
  | some t => t.contains kind name
  | none => false

/-- The names of a kind that are neither used nor ignored. -/
def listed (id : PackageId) (names : DependencyNames) (used : UsedDependencies)
    (ignore : Option IgnoreTable) (kind : DependencyKind) : List Value :=
  (unmarked id names used kind).filter fun n => !isIgnored ignore kind n

def ignored (id : PackageId) (names : DependencyNames) (used : UsedDependencies)
    (ignore : Option IgnoreTable) (kind : DependencyKind) : List Value :=
  (unmarked id names used kind).filter fun n => isIgnored ignore kind n

theorem mem_unmarked (id : PackageId) (names : DependencyNames) (used : UsedDependencies)
    (kind : DependencyKind) (n : Value) :
    n ∈ unmarked id names used kind ↔
      n ∈ (names.table kind).declared ∧ used.contains kind ⟨id, n⟩ = false := by
  simp [unmarked]

theorem mem_listed (id : PackageId) (names : DependencyNames) (used : UsedDependencies)
    (ignore : Option IgnoreTable) (kind : DependencyKind) (n : Value) :
    n ∈ listed id names used ignore kind ↔
      n ∈ unmarked id names used kind ∧ isIgnored ignore kind n = false := by
  simp [listed]

theorem mem_ignored (id : PackageId) (names : DependencyNames) (used : UsedDependencies)
    (ignore : Option IgnoreTable) (kind : DependencyKind) (n : Value) :
    n ∈ ignored id names used ignore kind ↔
      n ∈ unmarked id names used kind ∧ isIgnored ignore kind n = true := by
  simp [ignored]

/-! ### Entries -/

def logger : String := "udeps.analytics.outcome"

def ignoredLine (kind : DependencyKind) (name : Value) : LogLine :=
  ⟨.info, logger, "Ignoring `" ++ name.plainText ++ "` (" ++ kind.text ++ ")"⟩

/-- Names in increasing order. -/
def sortedNames (names : List Value) : Except Fault (List Value) := orWrongType (sortValues? names)

def ignoredLines (id : PackageId) (names : DependencyNames) (used : UsedDependencies)
    (ignore : Option IgnoreTable) : Except Fault (List LogLine) := do
  let lines ← DependencyKind.all.mapM fun kind => do
    return (← sortedNames (ignored id names used ignore kind)).map (ignoredLine kind)
  return lines.flatten

/-- The entry of a package, when one of its declared names was not seen in use. -/
def findings (package : PackageInfo) (id : PackageId) (names : DependencyNames)
    (used : UsedDependencies) (ignore : Option IgnoreTable) :
    Except Fault (Option (PackageId × UnusedEntry)) := do
  if DependencyKind.all.all fun kind => (unmarked id names used kind).isEmpty then return none
  let listedNames (kind : DependencyKind) := sortedNames (listed id names used ignore kind)
  return some (id, {
    manifestPath := .text package.manifestPath.text
    normal := ← listedNames .normal
    development := ← listedNames .development
    build := ← listedNames .build })

def packageEntry (g : Graph) (used : UsedDependencies) (load : IgnoreLoader)
    (names : DependencyNames) : Logged (Option (PackageId × UnusedEntry)) := do
  let id := names.package
  if names.declaresAny then
    let package ← .ofExcept (g.package id)
    let ignore ← load package
    Logged.logAll (← .ofExcept (ignoredLines id names used ignore))
    .ofExcept (findings package id names used ignore)
  else return none

def ofEntries (options : RunOptions) (names : NameTables) (unused : UnusedEntries) : Outcome :=
  let success := unused.all fun e => e.2.isEmpty
  ⟨.bool success, unused, if success then .null else .text (buildNote options names)⟩

/-- The outcome of the packages with the tables of their names and what was seen in use. -/
def aggregate (g : Graph) (names : NameTables) (used : UsedDependencies) (options : RunOptions)
    (load : IgnoreLoader) : Logged Outcome := do
  let entries ← Logged.forEach (packageEntry g used load) (← .ofExcept names.sorted)
  return ofEntries options names (entries.filterMap id)

end Outcome

end UnusedDeps
