/-!
# Cutting a text at a separator

`segments` cuts a list of characters at every occurrence of one separator. There is always at least
one segment, and the separators themselves belong to none.
-/

namespace Dockmaster.Text

/-- The pieces between the occurrences of `sep`, from left to right. -/
def segments (sep : Char) : List Char → List (List Char)
  | [] => [[]]
  | c :: cs =>
    if c = sep then [] :: segments sep cs
    else
      match segments sep cs with
      | [] => [[c]]
      | first :: others => (c :: first) :: others

end Dockmaster.Text
