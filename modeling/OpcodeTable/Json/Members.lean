/-!
# Ordered members

The members of a JSON object in the order in which they are written.  `put` is how an object is
built up from its text: a name that occurs again keeps the position of its first occurrence and
takes the value of its last, so members that were put together have distinct names.
-/

set_option autoImplicit false

namespace OpcodeTable
namespace Json

/-- Named values in the order in which they are written. -/
abbrev Members (α : Type) := List (String × α)

namespace Members

variable {α : Type}

/-- The names in order. -/
def names (members : Members α) : List String :=
  members.map Prod.fst

/-- The value of the first member with this name. -/
def find? (members : Members α) (name : String) : Option α :=
  members.lookup name

/-- Gives the member with this name a new value where it stands, or adds it behind the others. -/
def put : Members α → String → α → Members α
  | [], name, value => [(name, value)]
  | (other, old) :: rest, name, value =>
    if other = name then (name, value) :: rest else (other, old) :: put rest name value

/-- The members with another name, in order. -/
def remove (members : Members α) (name : String) : Members α :=
  members.filter fun member => member.1 ≠ name

/-- Whether a member has this name. -/
def has (members : Members α) (name : String) : Bool :=
  (members.find? name).isSome

end Members

end Json
end OpcodeTable
