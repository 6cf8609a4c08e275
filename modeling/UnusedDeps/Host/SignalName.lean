import UnusedDeps.Shell.Signal

/-!
# Signals under their full names

The programs of the host, as against the shell, know a name for every signal, and some
signals under several names. A signal can also be given by its number, or by the
status that a process has which it ended.
-/

namespace UnusedDeps.Host

def namedSignals : List Nat := (List.range 65).filter fun n => 0 < n && n ≠ 32 && n ≠ 33

def signalName (n : Nat) : String :=
  match n with
  | 16 => "STKFLT"
  | 29 => "POLL"
  | n => Shell.Signal.name n

/-- Further names of signals. -/
def otherNames : List (String × Nat) := [("CLD", 17), ("IOT", 6), ("IO", 29)]

/-- The signals of which the machine has several alike, the first one and the last one. -/
def firstAlike : Nat := 34
@[inherit_doc firstAlike] def lastAlike : Nat := 64

/-- The signal that a word in upper case names, perhaps counted from the first or the last of those
that are alike. -/
def signalNamed? (word : String) : Option Nat :=
  let counted (start : String) (signal : Nat → Option Nat) : Option Nat :=
    let cs := word.toList
    if start.toList.isPrefixOf cs then (Shell.decimal? (String.ofList (cs.drop start.length))).bind signal
    else none
  let all := namedSignals.map (fun n => (signalName n, n)) ++ otherNames
  all.lookup word <|> Shell.decimal? word
    <|> counted "RTMIN+" (fun n => some (firstAlike + n))
    <|> counted "RTMAX-" (fun n => if n ≤ lastAlike then some (lastAlike - n) else none)

def signalOf? (text : String) : Option Nat :=
  let upper := text.toList.map Char.toUpper
  let found := match Shell.decimal? text with
    | some n => some (if n < 255 then n % 128 else n % 256)
    | none =>
      let short := if "SIG".toList.isPrefixOf upper then upper.drop 3 else upper
      signalNamed? (String.ofList short)
  found.filter namedSignals.contains

end UnusedDeps.Host
