import UnusedDeps.Path.Basic
import UnusedDeps.Text.Quoted

/-!
# Home directories

A relative path that starts with `~` starts in a home directory: that of the
variable `HOME`, or that of an account of the host when the name of one follows.
-/

namespace UnusedDeps

/-- Why a path that starts with `~` leads nowhere. -/
inductive HomeFault where
  | unknownHome
  /-- What follows the `~` can be no name, which the text explains. -/
  | badName (reason : String)
  deriving DecidableEq, Repr

/-- What is said of a name in which the code points from the first without a byte on stand for no
text. -/
def noBytesText (name : String) : String :=
  let ns := Text.codes name
  let start := (ns.takeWhile fun n => (Text.nameBytes? n).isSome).length
  let place := match (ns.drop start).takeWhile Text.isHalfPair with
    | [n] => "character " ++ Text.quoted (Text.ofCodes [n]) ++ " in position " ++ toString start
    | run => "characters in position " ++ toString start ++ "-"
      ++ toString (start + run.length - 1)
  "'utf-8' codec can't encode " ++ place ++ ": surrogates not allowed"

/-- What is said of a name that the host cannot use. -/
def nameFaultText (name : String) : Path.NameFault → String
  | .zero => "embedded null byte"
  | .noBytes => noBytesText name

variable [Whereabouts]

/-- The text of the home directory that the first part of a path names; `name` follows its `~`. -/
def homeText (home : Option String) (name : List Char) : Except HomeFault String :=
  if name.isEmpty then
    match home with
    | some h => .ok h
    | none => .error .unknownHome
  else
    let account := String.ofList name
    match Path.nameFault? account with
    | some f => .error (.badName (nameFaultText account f))
    | none =>
      match Whereabouts.accounts.lookup account with
      | some h => .ok h
      | none => .error .unknownHome

/-- The home directory with a text; slashes at its end do not count, and one that starts with `~`
itself is none. -/
def homeDirectory (text : String) : Except HomeFault Path :=
  let base := (text.toList.reverse.dropWhile (· == '/')).reverse
  if base.head? = some '~' then .error .unknownHome
  else .ok (Path.ofText (if base.isEmpty then "/" else String.ofList base))

/-- The path with a leading `~` replaced by the home directory. -/
def Path.expandHome (home : Option String) (p : Path) : Except HomeFault Path :=
  match p.anchor, p.parts with
  | .relative, first :: _ =>
    match first.toList with
    | '~' :: name => do
      let base ← homeDirectory (← homeText home name)
      return {
        anchor := base.anchor
        parts := base.parts ++ p.parts.tail
        parts_ok := fun x h => (List.mem_append.1 h).elim (base.parts_ok x)
          fun h => p.parts_ok x (List.mem_of_mem_tail h) }
    | _ => .ok p
  | _, _ => .ok p

end UnusedDeps
