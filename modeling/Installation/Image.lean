import Installation.Value.Membership

/-!
# Image references

An image and its version as one reference.  A version is joined to the image with a colon,
and one that names a digest with an at sign.
-/

namespace Installation

/-- What the versions that name a digest contain. -/
def digestMark : String := "sha256:"

/-- The reference to an image in some version. -/
def imageReference (image version : Value) : Except Fault String :=
  match version.contains digestMark with
  | .error fault => .error fault
  | .ok pinned => .ok (image.toText ++ (if pinned then "@" else ":") ++ version.toText)

end Installation
