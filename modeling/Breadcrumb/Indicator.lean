/-!
# Indicator characters

The characters that structure a flow collection. Which bracket closes which is
not looked at.
-/

namespace Breadcrumb

/-- A bracket that opens a flow collection. -/
def opensFlow (c : Char) : Bool := c = '[' || c = '{'

/-- A bracket that closes a flow collection. -/
def closesFlow (c : Char) : Bool := c = ']' || c = '}'

/-- The characters that end a plain token wherever they stand. -/
def isFlowIndicator (c : Char) : Bool := c = ',' || opensFlow c || closesFlow c

end Breadcrumb
