import Dockmaster.Text.Blank

/-!
# Environment files

A file of assignments that sets variables where they are not yet set. Values may be quoted: between
single quotes everything stands for itself; between double quotes, and outside quotes, a backslash
takes its special meaning from the next character and a dollar sign puts in the value of a variable.
What is quoted may go on over several lines. A number sign at the beginning of a line, or after a
blank, begins a comment.

The lines are read one after another; the first that cannot be read ends the reading, and what was
set before it stays.
-/

namespace Dockmaster.EnvFile

open Text

/-- The variables and their values. -/
abbrev Variables := String → Option String

/-- The variables with another value for one of them. -/
def Variables.set (env : Variables) (name value : String) : Variables :=
  fun other => if other = name then some value else env other

/-! ### Lines -/

/-- Where in a line the reader is. -/
inductive Place where
  /-- Outside quotes. -/
  | plain
  /-- Outside quotes, after a blank. -/
  | afterBlank
  /-- Outside quotes, after a backslash. -/
  | escape
  /-- Between double quotes. -/
  | weak
  /-- Between double quotes, after a backslash. -/
  | weakEscape
  /-- Between single quotes. -/
  | strong
  /-- Between single quotes, after a backslash. -/
  | strongEscape
  deriving DecidableEq, Repr

/-- The place after a character that opens something or stands for itself. -/
def opening (c : Char) (otherwise : Place) : Place :=
  if c = '\\' then .escape
  else if c = '"' then .weak
  else if c = '\'' then .strong
  else otherwise

/-- The place after one more character. -/
def Place.after (place : Place) (c : Char) : Place :=
  match place with
  | .afterBlank => opening c .plain
  | .plain =>
    if isBlank c && c ≠ '\n' && c ≠ '\r' then .afterBlank else opening c .plain
  | .escape => .plain
  | .weak => if c = '\\' then .weakEscape else if c = '"' then .plain else .weak
  | .weakEscape => .weak
  | .strong => if c = '\\' then .strongEscape else if c = '\'' then .plain else .strong
  | .strongEscape => .strong

/-- The characters before a comment, and the place at the end unless a comment begins. -/
def scan (place : Place) : List Char → List Char × Option Place
  | [] => ([], some place)
  | c :: rest =>
    if place = .afterBlank ∧ c = '#' then ([], none)
    else
      let (kept, last) := scan (place.after c) rest
      (c :: kept, last)

/-- The lines of a text, each with its end. -/
def physicalLines : List Char → List (List Char)
  | [] => []
  | c :: rest =>
    if c = '\n' then [c] :: physicalLines rest
    else
      match physicalLines rest with
      | [] => [[c]]
      | line :: others => (c :: line) :: others

/-- A line without its end. -/
def dropLineEnd (line : List Char) : List Char :=
  match line.reverse with
  | '\n' :: '\r' :: rest => rest.reverse
  | '\n' :: rest => rest.reverse
  | _ => line

/-- The lines that are read as one each, given the beginning of the first. Nothing stands for a line
that is not complete at the end of the file. -/
def logicalLines (place : Place) (begun : List Char) :
    List (List Char) → List (Option (List Char))
  | [] => if place = .plain then [] else [none]
  | line :: rest =>
    if (trimStart (begun ++ line)).head? = some '#' then some [] :: logicalLines .plain [] rest
    else
      match scan place line with
      | (kept, none) => some (begun ++ kept) :: logicalLines .plain [] rest
      | (_, some .plain) => some (dropLineEnd (begun ++ line)) :: logicalLines .plain [] rest
      | (_, some place) => logicalLines place (begun ++ line) rest

/-! ### Values -/

/-- What the reader of a value is at. -/
inductive Phase where
  /-- It takes characters. -/
  | text
  /-- A backslash came before. -/
  | escape
  /-- It is between single quotes. -/
  | strong
  /-- It reads the name of a variable after a dollar sign. -/
  | name (name : List Char)
  /-- It reads the name of a variable in braces. -/
  | braced (name : List Char)
  /-- The value is over. -/
  | over
  deriving DecidableEq, Repr

/-- The characters that a backslash may stand before, and what they mean then. -/
def escaped? (c : Char) : Option Char :=
  if ['\\', '\'', '"', '$', ' '].contains c then some c
  else if c = 'n' then some '\n'
  else none

/-- The value that is put in for a variable. -/
def valueOf (env : Variables) (name : List Char) : List Char :=
  ((env (String.ofList name)).getD "").toList

/-- Whether a character belongs to the name after a dollar sign: an ASCII letter or digit. -/
def isNameChar (c : Char) : Bool := c.isAlphanum

/-- Reads a value. `quoted` tells whether it is between double quotes. -/
def readValue (env : Variables) (quoted : Bool) (phase : Phase) :
    List Char → Option (List Char)
  | [] =>
    match phase with
    | .strong | .braced _ => none
    | .name name => if quoted then none else some (valueOf env name)
    | _ => if quoted then none else some []
  | c :: rest =>
    match phase with
    | .over =>
      if c = ' ' ∨ c = '\t' then readValue env quoted .over rest
      else if c = '#' then some []
      else none
    | .escape => do
      let meant ← escaped? c
      return meant :: (← readValue env quoted .text rest)
    | .strong =>
      if c = '\'' then readValue env quoted .text rest
      else (readValue env quoted .strong rest).map (c :: ·)
    | .name name =>
      if isNameChar c then readValue env quoted (.name (name ++ [c])) rest
      else if c = '\x7b' ∧ name = [] then readValue env quoted (.braced []) rest
      else
        let value := valueOf env name
        if c = '$' then (readValue env quoted (.name []) rest).map (value ++ ·)
        else (readValue env quoted .text rest).map fun others => value ++ c :: others
    | .braced name =>
      if c = '\x7d' then
        (readValue env quoted .text rest).map (valueOf env name ++ ·)
      else readValue env quoted (.braced (name ++ [c])) rest
    | .text =>
      if c = '$' then readValue env quoted (.name []) rest
      else if c = '\\' then readValue env quoted .escape rest
      else if c = '"' then readValue env (!quoted) .text rest
      else if quoted then (readValue env quoted .text rest).map (c :: ·)
      else if c = '\'' then readValue env quoted .strong rest
      else if c = ' ' ∨ c = '\t' then readValue env quoted .over rest
      else (readValue env quoted .text rest).map (c :: ·)

/-! ### Assignments -/

/-- Whether a character may begin the name of a variable. -/
def isKeyStart (c : Char) : Bool := c.isAlpha || c = '_'

/-- Whether a character may stand in the name of a variable. -/
def isKeyChar (c : Char) : Bool := c.isAlphanum || c = '_' || c = '.'

/-- The name at the beginning, and what comes after it and after blanks. -/
def readKey : List Char → Option (List Char × List Char)
  | [] => none
  | c :: rest =>
    if isKeyStart c then
      some (c :: rest.takeWhile isKeyChar, trimStart (rest.dropWhile isKeyChar))
    else none

/-- What comes after an equals sign and blanks. -/
def readEquals : List Char → Option (List Char)
  | '=' :: rest => some (trimStart rest)
  | _ => none

/-- The word that may stand before an assignment. -/
def exportWord : List Char := ['e', 'x', 'p', 'o', 'r', 't']

/-- The name that a line assigns to, and the rest of the line. -/
def readTarget (line : List Char) : Option (List Char × List Char) := do
  let (key, rest) ← readKey line
  match readEquals rest with
  | some value => return (key, value)
  | none =>
    if key = exportWord then
      let (key, rest) ← readKey rest
      return (key, ← readEquals rest)
    else none

/-- The variables after a line; nothing if the line cannot be read. A variable that is set keeps its
value. -/
def readLine (env : Variables) (line : List Char) : Option Variables :=
  match trimChars line with
  | [] => some env
  | '#' :: _ => some env
  | content => do
    let (key, rest) ← readTarget content
    let name := String.ofList key
    let value ← if rest.head? = some '#' then some [] else readValue env false .text rest
    return if (env name).isSome then env else env.set name (String.ofList value)

/-- The variables after some lines, up to the first that cannot be read. -/
def readLines (env : Variables) : List (Option (List Char)) → Variables
  | [] => env
  | none :: _ => env
  | some line :: rest =>
    match readLine env line with
    | some env => readLines env rest
    | none => env

/-- The variables after an environment file. A mark of the byte order at its beginning does not
count. -/
def load (env : Variables) (file : String) : Variables :=
  let text := match file.toList with
    | '\uFEFF' :: rest => rest
    | text => text
  readLines env (logicalLines .plain [] (physicalLines text))

end Dockmaster.EnvFile
