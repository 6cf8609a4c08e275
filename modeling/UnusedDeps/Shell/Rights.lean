import UnusedDeps.Number.Places
import UnusedDeps.Shell.Options

/-!
# Rights and limits

`umask` takes rights from new files: the mask of the rights that are withheld is an
octal number, or is changed by clauses that set, add or remove the rights of groups
of users. `ulimit` limits what commands may use.
-/

namespace UnusedDeps.Shell

/-! ### Rights -/

namespace Rights

/-- The rights of the three groups of users, three bits each. -/
def all : Nat := 0o777

/-- The groups that a letter stands for, a bit in each of them. -/
def groups (c : Char) : Option Nat :=
  match c with
  | 'a' => some 0o111
  | 'u' => some 0o100
  | 'g' => some 0o010
  | 'o' => some 0o001
  | _ => none

/-- The rights in a group that a letter stands for, which may be those that a group has. -/
def letter? (rights : Nat) (c : Char) : Option Nat :=
  match c with
  | 'r' => some 4
  | 'w' => some 2
  | 'x' => some 1
  | 'u' => some (rights / 64 % 8)
  | 'g' => some (rights / 8 % 8)
  | 'o' => some (rights % 8)
  | 'X' => some (if Nat.land rights 0o111 = 0 then 0 else 1)
  | 's' => some 0
  | _ => none

def without (rights others : Nat) : Nat := Nat.land rights (all - others)

/-- The rights after an operation with those of groups. -/
def change (operation : Char) (places bits rights : Nat) : Nat :=
  match operation with
  | '-' => without rights (bits * places)
  | '+' => Nat.lor rights (bits * places)
  | _ => Nat.lor (without rights (7 * places)) (bits * places)

def isOperation (c : Char) : Bool := c = '=' || c = '+' || c = '-'

/-- The rights that result from clauses, given those before all of them and those so far; the groups
of a clause count for all its operations. `none` for a text that is no clauses. -/
def clauses? (before : Nat) : Nat → Nat → Nat → List Char → Option Nat
  | _, _, rights, [] => some rights
  | 0, _, _, _ => none
  | bound + 1, places, rights, cs =>
    let named := cs.takeWhile fun c => (groups c).isSome
    let places := (named.filterMap groups).foldl Nat.lor places
    let places := if places = 0 then 0o111 else places
    match cs.drop named.length with
    | [] => some rights
    | operation :: rest =>
      if !isOperation operation then none
      else
        let letters := rest.takeWhile fun c => (letter? before c).isSome
        let bits := (letters.filterMap (letter? before)).foldl Nat.lor 0
        let rights := change operation places bits rights
        match rest.drop letters.length with
        | ',' :: rest => clauses? before bound 0 rights rest
        | [] => some rights
        | c :: rest => if isOperation c then clauses? before bound places rights (c :: rest) else none

/-- The letters of the rights in a group. -/
def text (bits : Nat) : List Char :=
  (if bits / 4 % 2 = 1 then ['r'] else []) ++ (if bits / 2 % 2 = 1 then ['w'] else [])
    ++ (if bits % 2 = 1 then ['x'] else [])

def clauses (rights : Nat) : String :=
  let group (name : String) (bits : Nat) : String := name ++ "=" ++ String.ofList (text bits)
  String.intercalate "," [group "u" (rights / 64), group "g" (rights / 8), group "o" rights]

end Rights

namespace Act

/-- The command `umask`. -/
def runMask (args : List String) : Act Unit := do
  let (options, args) ← letters ['S'] args
  let mask := (← get).mask
  let withhold (mask : Nat) : Act Unit := modify fun s => { s with mask := mask, status := 0 }
  match args with
  | [] =>
    let shown := if options.contains 'S' then Rights.clauses (Rights.all - mask)
      else String.ofList (Places.digits 4 (number 10 (Nat.toDigits 8 mask)))
    print (Text.toBytes (shown ++ "\n")) 0
  | w :: _ =>
    let cs := w.toList
    if cs.head?.any isDigit then
      if cs.all isOctal then withhold (number 8 cs % 512) else fail ("Illegal number: " ++ w)
    else
      let rights := Rights.all - mask
      match Rights.clauses? rights (cs.length + 1) 0 rights cs with
      | some rights => withhold (Rights.all - rights)
      | none => fail ("Illegal mode: " ++ w)

/-! ### Limits -/

/-- The amount that an argument of `ulimit` is, in the unit of a resource. -/
def limitAmount (r : Resource) (w : String) : Act Nat :=
  if w = "unlimited" then return unlimited
  else if w.toList.all isDigit then return number 10 w.toList * r.unit % (unlimited + 1)
  else fail "bad number"

/-- The command `ulimit`. -/
def runLimit (args : List String) : Act Unit := do
  let (options, args) ← letters ('H' :: 'S' :: 'a' :: Resource.all.map Resource.letter) args
  let which := (options.filter fun c => c = 'H' || c = 'S').getLast?
  let resource := ((options.filter fun c => !(['H', 'S', 'a'].contains c)).getLast?.map
    Resource.ofLetter).getD .fileSize
  let limits := (← get).limits
  let amount (r : Resource) : String :=
    r.shown (if which = some 'H' then (limits.of r).hard else (limits.of r).soft)
  match args with
  | [] =>
    let title (r : Resource) : String :=
      r.title ++ String.ofList (List.replicate (20 - r.title.length) ' ') ++ " "
    let lines := if options.contains 'a' then Resource.all.map fun r => title r ++ amount r ++ "\n"
      else [amount resource ++ "\n"]
    print (Text.toBytes (String.join lines)) 0
  | w :: more =>
    if options.contains 'a' || !more.isEmpty then fail "too many arguments"
    let n ← limitAmount resource w
    let old := limits.of resource
    let new : Limit := ⟨if which = some 'H' then old.soft else n, if which = some 'S' then old.hard else n⟩
    if new.hard < new.soft then fail "error setting limit (Invalid argument)"
    if old.hard < new.hard then fail "error setting limit (Operation not permitted)"
    modify fun s => { s with limits := s.limits.change resource new, status := 0 }

end Act

end UnusedDeps.Shell
