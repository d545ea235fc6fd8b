set_option autoImplicit false

/-!
# References to symbols

A symbol is referred to by the path of its module and its name with a hash sign
between them.  A reference is read back at its first hash sign, so a name may
hold further ones and a module path may not; a text that starts with the sign
names no module.
-/

namespace ApiDrift.Reference

/-- The reference of a name in a module. -/
def ofName (modulePath name : String) : String := modulePath ++ "#" ++ name

/-- The reference of a name in a module that may belong to a parent in it. -/
def ofMember (modulePath : String) (parent : Option String) (name : String) : String :=
  match parent.filter (· ≠ "") with
  | some parent => ofName modulePath (parent ++ "." ++ name)
  | none => ofName modulePath name

/-- The characters ahead of the first hash sign, if there are any, and those
behind it. -/
def splitChars? (cs : List Char) : Option (List Char × List Char) :=
  match cs.takeWhile (· ≠ '#'), cs.dropWhile (· ≠ '#') with
  | c :: path, _ :: name => some (c :: path, name)
  | _, _ => none

/-- The module path and the name that a reference stands for. -/
def split? (ref : String) : Option (String × String) :=
  (splitChars? ref.toList).map fun (path, name) => (String.ofList path, String.ofList name)

/-- What stands behind the last slash of a text. -/
def lastSegment (text : String) : String :=
  String.ofList (text.toList.reverse.takeWhile (· ≠ '/')).reverse

end ApiDrift.Reference
