import Installation.Fault

/-!
# Membership of texts

`Value.contains` tells whether a text occurs in a value: as a part of another text, as an
element of a list or tuple, or as a key of a dictionary.  Other values cannot be asked.
-/

namespace Installation

namespace Text

/-- Whether one text occurs in another. -/
def occurs (needle : List Char) : List Char → Bool
  | [] => needle.isEmpty
  | c :: cs => needle.isPrefixOf (c :: cs) || occurs needle cs

end Text

/-- Whether a value contains a text: as a part of a text, an element or a key. -/
def Value.contains (needle : String) : Value → Except Fault Bool
  | .text s => .ok (Text.occurs needle.toList s.toList)
  | .list vs => .ok (vs.any (· == .text needle))
  | .tuple vs => .ok (vs.any (· == .text needle))
  | .dict entries => .ok (entries.any (·.1 == .text needle))
  | v => .error (.notContainer v.typeName)

end Installation
