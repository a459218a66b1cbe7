/-
# Names of stored resources

Namespaces and names become names of directories and files, so nothing else than a label of RFC 1123, or
for names labels with dots between them, is accepted.

Key definitions: `isLabel`, `isNamespace`, `isName`.
-/
import TraefikUpgrade.Text.Cut

namespace TraefikUpgrade.Store

def maxLabelLength : Nat := 63

def maxNameLength : Nat := 253

/-- Whether a character may begin or end a label. -/
def isLabelEnd (c : Char) : Bool := c.isLower || c.isDigit

/-- Whether characters make a label: 1 to 63 small letters, digits and hyphens, no hyphen at an end. -/
def isLabel (cs : List Char) : Bool :=
  cs.length ≤ maxLabelLength && cs.head?.any isLabelEnd && cs.getLast?.any isLabelEnd &&
    cs.all fun c => isLabelEnd c || c == '-'

/-- Whether a text can be the namespace of a stored resource. -/
def isNamespace (s : String) : Bool := isLabel s.toList

/-- Whether a text can be the name of a stored resource. -/
def isName (s : String) : Bool :=
  Text.utf8Length s.toList ≤ maxNameLength && (Text.splitAll '.' s.toList).all isLabel

end TraefikUpgrade.Store
