import UnusedDeps.Options.Run

/-!
# The options of the command line

Each option has one or two names and says what it does with the field that it
belongs to. The order of the table is the order in which names are listed when
an abbreviation has several meanings.
-/

namespace UnusedDeps.CommandLine

/-- What an option does. -/
inductive Effect where
  /-- The field becomes true. -/
  | turnOn
  /-- The field grows by one. -/
  | count
  /-- The field becomes the value. -/
  | store
  /-- The value is added to the field. -/
  | collect
  | showHelp
  | showVersion
  deriving DecidableEq, Repr

/-- An option. -/
structure CliOption where
  names : List String
  field : String
  effect : Effect
  /-- The values that can be chosen, when not every value can. -/
  choices : Option (List String)
  help : String
  deriving DecidableEq, Repr

namespace CliOption

def takesValue (o : CliOption) : Bool := o.effect = .store || o.effect = .collect

def text (o : CliOption) : String := String.intercalate "/" o.names

/-- An option without choices. -/
def plain (names : List String) (field : String) (effect : Effect) (help : String) : CliOption :=
  ⟨names, field, effect, none, help⟩

def all : List CliOption :=
  [ plain ["-h", "--help"] "help" .showHelp "show this help message and exit",
    plain ["-q", "--quiet"] "quiet" .turnOn "[cargo] No output printed to stdout",
    plain ["-v", "--verbose"] "verbose" .count
      "[cargo] Use verbose output (-vv very verbose/build.rs output)",
    plain ["--version"] "version" .showVersion "show the version and exit",
    plain ["-p", "--package"] "packages" .collect "[cargo] Package(s) to check",
    plain ["--all"] "all" .turnOn "[cargo] Alias for --workspace (deprecated)",
    plain ["--workspace"] "workspace" .turnOn "[cargo] Check all packages in the workspace",
    plain ["--exclude"] "exclude" .collect "[cargo] Exclude packages from the check",
    plain ["-j", "--jobs"] "jobs" .store
      "[cargo] Number of parallel jobs, defaults to # of CPUs",
    plain ["--lib"] "lib" .turnOn "[cargo] Check only this package's library",
    plain ["--bin"] "bin" .collect "[cargo] Check only the specified binary",
    plain ["--bins"] "bins" .turnOn "[cargo] Check all bins",
    plain ["--example"] "example" .collect "[cargo] Check only the specified example",
    plain ["--examples"] "examples" .turnOn "[cargo] Check all examples",
    plain ["--test"] "test" .collect "[cargo] Check only the specified test target",
    plain ["--tests"] "tests" .turnOn "[cargo] Check all tests",
    plain ["--bench"] "bench" .collect "[cargo] Check only the specified bench target",
    plain ["--benches"] "benches" .turnOn "[cargo] Check all benches",
    plain ["--all-targets"] "all_targets" .turnOn "[cargo] Check all targets",
    plain ["--release"] "release" .turnOn
      "[cargo] Check artifacts in release mode, with optimizations",
    plain ["--profile"] "profile" .store "[cargo] Check artifacts with the specified profile",
    plain ["--features"] "features" .collect
      "[cargo] Space-separated list of features to activate",
    plain ["--all-features"] "all_features" .turnOn "[cargo] Activate all available features",
    plain ["--no-default-features"] "no_default_features" .turnOn
      "[cargo] Do not activate the `default` feature",
    plain ["--target"] "target" .store "[cargo] Check for the target triple",
    plain ["--target-dir"] "target_dir" .store "[cargo] Directory for all generated artifacts",
    plain ["--manifest-path"] "manifest_path" .store "[cargo] Path to Cargo.toml",
    plain ["--frozen"] "frozen" .turnOn "[cargo] Require Cargo.lock and cache are up to date",
    plain ["--locked"] "locked" .turnOn "[cargo] Require Cargo.lock is up to date",
    plain ["--offline"] "offline" .turnOn "[cargo] Run without accessing the network",
    ⟨["--output"], "output", .store, some (OutputKind.all.map OutputKind.text), "Output format"⟩,
    plain ["--metadata-file"] "metadata_file" .store
      "Load the resolved graph from a saved `cargo metadata` document instead of running cargo",
    plain ["--invocations"] "invocations" .store
      "Replay compiler invocations from a JSON-lines file instead of building" ]

def named : List (String × CliOption) := all.flatMap fun o => o.names.map fun n => (n, o)

def ofName? (name : String) : Option CliOption := named.lookup name

end CliOption

end UnusedDeps.CommandLine
