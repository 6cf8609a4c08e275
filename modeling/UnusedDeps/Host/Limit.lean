import UnusedDeps.Mapping

/-!
# Limits of processes

What a process may use of a resource has two limits: the one that holds, and the
greatest that it can be set to, which can only be lowered. A process passes its
limits on to those that it starts.
-/

namespace UnusedDeps

/-- The limit that stands for none. -/
def unlimited : Nat := 0xffffffffffffffff

/-- The limits of a resource. -/
structure Limit where
  /-- The limit that holds. -/
  soft : Nat
  /-- The greatest one that can be set. -/
  hard : Nat
  deriving DecidableEq, Repr

/-- A resource of the machine. -/
structure Resource where
  letter : Char
  title : String
  /-- What its limits are counted in. -/
  unit : Nat
  /-- Its limits when nothing has changed them. -/
  usual : Limit

namespace Resource

def all : List Resource :=
  let free : Limit := ⟨unlimited, unlimited⟩
  let eightMegabytes : Nat := 8192 * 1024
  [⟨'t', "time(seconds)", 1, free⟩, ⟨'f', "file(blocks)", 512, free⟩,
    ⟨'d', "data(kbytes)", 1024, free⟩, ⟨'s', "stack(kbytes)", 1024, ⟨eightMegabytes, unlimited⟩⟩,
    ⟨'c', "coredump(blocks)", 512, ⟨0, unlimited⟩⟩, ⟨'m', "memory(kbytes)", 1024, free⟩,
    ⟨'l', "locked memory(kbytes)", 1024, ⟨eightMegabytes, eightMegabytes⟩⟩,
    ⟨'p', "process", 1, ⟨128604, 128604⟩⟩, ⟨'n', "nofiles", 1, ⟨20000, 20000⟩⟩,
    ⟨'v', "vmemory(kbytes)", 1024, free⟩, ⟨'w', "locks", 1, free⟩,
    ⟨'r', "rtprio", 1, ⟨0, 0⟩⟩]

/-- The size of files, which is meant when no other resource is named. -/
def fileSize : Resource := ⟨'f', "file(blocks)", 512, ⟨unlimited, unlimited⟩⟩

def ofLetter (c : Char) : Resource := (all.find? fun r => r.letter = c).getD fileSize

def shown (r : Resource) (amount : Nat) : String :=
  if amount = unlimited then "unlimited" else toString (amount / r.unit)

end Resource

/-- The limits that were changed, each under the letter of its resource. -/
abbrev Limits := Mapping Char Limit

namespace Limits

def of (l : Limits) (r : Resource) : Limit := (Mapping.get? l r.letter).getD r.usual

def change (l : Limits) (r : Resource) (limit : Limit) : Limits := Mapping.set r.letter limit l

theorem of_change (l : Limits) (r s : Resource) (limit : Limit) :
    (l.change r limit).of s = if r.letter = s.letter then limit else l.of s := by
  unfold of change
  rw [Mapping.get?_set]
  split <;> rfl

/-- How many bytes a file may have; `none` when it may have any number. -/
def fileBytes? (l : Limits) : Option Nat :=
  let n := (l.of .fileSize).soft
  if n = unlimited then none else some n

end Limits

end UnusedDeps
