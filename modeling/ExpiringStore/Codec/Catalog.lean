import ExpiringStore.Codec.Payload
import ExpiringStore.Lifetime.Policy

/-!
# Sample types

An enumeration, three record types, and the targets that can be asked for by
name.  A generic target goes by the name of its outermost type.
-/

namespace ExpiringStore.Catalog

def colors : List Member := [⟨"Color", "RED", "red"⟩, ⟨"Color", "BLUE", "blue"⟩]

def color : Shape := .member "Color" colors

def user : Shape := .record .declared "User" [("id", .integer), ("name", .text)]

def profile : Shape := .record .declared "Profile" [("id", .integer), ("tags", .list .text)]

def point : Shape := .record .bare "Point" [("x", .integer), ("y", .integer)]

def targets : List (String × Target) := [
  ("int", ⟨"int", .integer⟩),
  ("float", ⟨"float", .double⟩),
  ("str", ⟨"str", .text⟩),
  ("bool", ⟨"bool", .truth⟩),
  ("list", ⟨"list", .anyList⟩),
  ("dict", ⟨"dict", .anyDict⟩),
  ("list[int]", ⟨"list", .list .integer⟩),
  ("list[str]", ⟨"List", .list .text⟩),
  ("dict[str,int]", ⟨"Dict", .dict .integer⟩),
  ("tuple[int,str]", ⟨"Tuple", .tuple [.integer, .text]⟩),
  ("set[int]", ⟨"Set", .set .integer⟩),
  ("Optional[int]", ⟨"Optional", .nullable .integer⟩),
  ("int|None", ⟨"int | None", .nullable .integer⟩),
  ("Union[int,str]", ⟨"Union", .union [.integer, .text]⟩),
  ("Literal[a,b]", ⟨"Literal", .words ["a", "b"]⟩),
  ("Color", ⟨"Color", color⟩),
  ("User", ⟨"User", user⟩),
  ("Profile", ⟨"Profile", profile⟩),
  ("Point", ⟨"Point", point⟩),
  ("list[User]", ⟨"list", .list user⟩),
  ("date", ⟨"date", .date⟩)]

def target? (name : String) : Option Target := targets.lookup name

end ExpiringStore.Catalog
