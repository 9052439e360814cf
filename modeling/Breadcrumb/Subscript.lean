import Breadcrumb.Quoting

/-!
# Subscripts

The keys on the way to a line as one subscript after the other, each key in
brackets and quotation marks: `['a']['b']`. A backslash stands before every
backslash and every such mark inside a key.
-/

namespace Breadcrumb.Subscript

/-- A key between quotation marks. -/
def quoteChars (mark : QuoteMark) (key : List Char) : List Char :=
  key.flatMap fun c => if c = '\\' || c = mark.char then ['\\', c] else [c]

def bracketChars (mark : QuoteMark) (key : List Char) : List Char :=
  '[' :: mark.char :: (quoteChars mark key ++ [mark.char, ']'])

/-- The subscripts of keys, one after the other. -/
def ofKeys (mark : QuoteMark) (keys : List String) : String :=
  String.ofList (keys.flatMap fun key => bracketChars mark key.toList)

end Breadcrumb.Subscript
