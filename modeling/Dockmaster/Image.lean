import Dockmaster.Text.Blank

/-!
# Image references

Whether an image reference names the registry that holds the image: it does when the first segment
of its path, of at least two, has a point or a colon in it. The digest and the tag do not count.
-/

namespace Dockmaster.Image

open Text

/-- The characters before the first at sign. -/
def withoutDigest (cs : List Char) : List Char :=
  cs.takeWhile (· ≠ '@')

/-- The characters before the last colon, unless a slash comes after that colon: such a colon stands
between the name and the number of a host, and not before a tag. -/
def withoutTag (cs : List Char) : List Char :=
  let tag := (cs.reverse.takeWhile (· ≠ ':')).reverse
  if ':' ∈ cs ∧ '/' ∉ tag then cs.take (cs.length - tag.length - 1) else cs

/-- Whether a path has a second segment and a registry in its first. -/
def namesRegistry (path : List Char) : Bool :=
  let host := path.takeWhile (· ≠ '/')
  decide ('/' ∈ path) && host.any fun c => c = '.' || c = ':'

/-- Whether an image reference names a registry. -/
def isRemote (reference : String) : Bool :=
  namesRegistry (withoutTag (withoutDigest (trimChars reference.toList)))

end Dockmaster.Image
