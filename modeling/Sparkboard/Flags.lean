import Sparkboard.Table
/-!
# Flags on page elements

Elements of a page are known by an id and carry flags.  A board records which element carries which
flag; changes to it are data, so that whoever changes it can be asked what it did.
-/

namespace Sparkboard

def shownFlag : String := "show"

/-- Which flags the elements carry.  An element keeps its entry when its last flag goes. -/
structure FlagBoard where
  flags : Table String (List String)
  deriving DecidableEq, Repr

/-- A change to one flag of one element. -/
inductive FlagChange where
  | set (id flag : String)
  | clear (id flag : String)
  deriving DecidableEq, Repr

namespace FlagBoard

def empty : FlagBoard := ⟨.empty⟩

instance : Inhabited FlagBoard := ⟨empty⟩

def flagsOf (b : FlagBoard) (id : String) : List String :=
  (b.flags.get? id).getD []

/-- Does the element carry the flag? -/
def has (b : FlagBoard) (id flag : String) : Bool :=
  (b.flagsOf id).contains flag

def set (b : FlagBoard) (id flag : String) : FlagBoard :=
  ⟨b.flags.insert id ((b.flagsOf id).insert flag)⟩

/-- Takes a flag off an element; an element never flagged is left alone. -/
def clear (b : FlagBoard) (id flag : String) : FlagBoard :=
  match b.flags.get? id with
  | none => b
  | some carried => ⟨b.flags.insert id (carried.filter (· ≠ flag))⟩

/-- Flips a flag; the answer tells whether it is set afterwards. -/
def toggle (b : FlagBoard) (id flag : String) : Bool × FlagBoard :=
  if b.has id flag then (false, b.clear id flag) else (true, b.set id flag)

/-- The ids whose flags contain `flag`, sorted by their characters, when the store hands out its
entries in this order. -/
def listed (flag : String) (entries : List (String × List String)) : List String :=
  ((entries.filter fun e => e.2.contains flag).map Prod.fst).mergeSort

/-- The ids of the elements that carry a flag, in the order of their characters. -/
def flagged (b : FlagBoard) (flag : String) : List String :=
  listed flag b.flags.entries

def apply (b : FlagBoard) : FlagChange → FlagBoard
  | .set id flag => b.set id flag
  | .clear id flag => b.clear id flag

def applyAll (b : FlagBoard) (changes : List FlagChange) : FlagBoard :=
  changes.foldl apply b

end FlagBoard

end Sparkboard
