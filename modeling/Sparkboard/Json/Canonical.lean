import Sparkboard.Json.Node
/-!
# Values apart from their text

As a value, an object has each name once, the last member of a name counts, and the members have no
order of their own: they are taken in the order of their names.
-/

namespace Sparkboard.Json

/-- Puts a member among members in the order of their names, unless its name is there already. -/
def Members.insertAbsent (name : String) (value : Node) : Members → Members
  | .member (some other) v rest =>
    if name = other then .member (some other) v rest
    else if name < other then .member (some name) value (.member (some other) v rest)
    else .member (some other) v (insertAbsent name value rest)
  | rest => .member (some name) value rest

mutual

/-- The tree of the value that a tree spells. -/
def Node.canonical : Node → Node
  | .array items => .array items.canonical
  | .object members => .object members.canonical
  | node => node

def Items.canonical : Items → Items
  | .item value rest => .item value.canonical rest.canonical
  | rest => rest

def Members.canonical : Members → Members
  | .member (some name) value rest => rest.canonical.insertAbsent name value.canonical
  | rest => rest

end

def Members.find? (name : String) : Members → Option Node
  | .member (some other) value rest => if name = other then some value else find? name rest
  | .member none _ rest => find? name rest
  | _ => none

/-- The value under a name, if the node is an object that has the name. -/
def Node.field? (node : Node) (name : String) : Option Node :=
  match node with
  | .object members => members.find? name
  | _ => none

def Items.toList : Items → List Node
  | .item value rest => value :: rest.toList
  | _ => []

def Members.toList : Members → List (String × Node)
  | .member (some name) value rest => (name, value) :: rest.toList
  | .member none _ rest => rest.toList
  | _ => []

end Sparkboard.Json
