import CobolDialects.Json.Value

/-!
# Writing JSON

A value is written compactly, without any space, or over several lines, each level indented by two
more spaces. Both forms share the spelling of strings and numbers.
-/

namespace CobolDialects.Json

/-- One character of a string: quotes, backslashes and control characters are escaped. -/
def escape (c : Char) : List Char :=
  if c = '"' then ['\\', '"']
  else if c = '\\' then ['\\', '\\']
  else if c = '\x08' then ['\\', 'b']
  else if c = '\x0C' then ['\\', 'f']
  else if c = '\n' then ['\\', 'n']
  else if c = '\r' then ['\\', 'r']
  else if c = '\t' then ['\\', 't']
  else if c.toNat < 0x20 then
    ['\\', 'u', '0', '0', Nat.digitChar (c.toNat / 16), Nat.digitChar (c.toNat % 16)]
  else [c]

def writeString (s : String) : List Char := '"' :: s.toList.flatMap escape ++ ['"']

def writeInt (n : Int) : List Char :=
  if n < 0 then '-' :: Nat.toDigits 10 n.natAbs else Nat.toDigits 10 n.natAbs

def writeNumber : Number → List Char
  | .int n => writeInt n.value
  | .float x => x.write

mutual

/-- The compact form. -/
def compact : Json → List Char
  | .null => ['n', 'u', 'l', 'l']
  | .bool true => ['t', 'r', 'u', 'e']
  | .bool false => ['f', 'a', 'l', 's', 'e']
  | .num n => writeNumber n
  | .str s => writeString s
  | .arr [] => ['[', ']']
  | .arr (v :: rest) => '[' :: (v.compact ++ compactItems rest)
  | .obj [] => ['{', '}']
  | .obj ((name, v) :: rest) =>
    '{' :: (writeString name ++ ':' :: (v.compact ++ compactMembers rest))

/-- The items after the first one, and the closing bracket. -/
def compactItems : List Json → List Char
  | [] => [']']
  | v :: rest => ',' :: (v.compact ++ compactItems rest)

/-- The members after the first one, and the closing brace. -/
def compactMembers : Members → List Char
  | [] => ['}']
  | (name, v) :: rest => ',' :: (writeString name ++ ':' :: (v.compact ++ compactMembers rest))

end

/-- A line break and the indentation of a level. -/
def newline (level : Nat) : List Char := '\n' :: List.replicate (2 * level) ' '

mutual

/-- The form over several lines, as it stands at a level. -/
def pretty (level : Nat) : Json → List Char
  | .null => ['n', 'u', 'l', 'l']
  | .bool true => ['t', 'r', 'u', 'e']
  | .bool false => ['f', 'a', 'l', 's', 'e']
  | .num n => writeNumber n
  | .str s => writeString s
  | .arr [] => ['[', ']']
  | .arr (v :: rest) =>
    '[' :: (newline (level + 1) ++ (v.pretty (level + 1) ++ prettyItems level rest))
  | .obj [] => ['{', '}']
  | .obj ((name, v) :: rest) =>
    '{' :: (newline (level + 1) ++ (writeString name ++ ':' :: ' ' ::
      (v.pretty (level + 1) ++ prettyMembers level rest)))

/-- The items after the first one, and the closing bracket on a line of its own. -/
def prettyItems (level : Nat) : List Json → List Char
  | [] => newline level ++ [']']
  | v :: rest =>
    ',' :: (newline (level + 1) ++ (v.pretty (level + 1) ++ prettyItems level rest))

/-- The members after the first one, and the closing brace on a line of its own. -/
def prettyMembers (level : Nat) : Members → List Char
  | [] => newline level ++ ['}']
  | (name, v) :: rest =>
    ',' :: (newline (level + 1) ++ (writeString name ++ ':' :: ' ' ::
      (v.pretty (level + 1) ++ prettyMembers level rest)))

end

/-- The compact text of a value. -/
def toText (v : Json) : String := String.ofList v.compact

/-- The text of a value over several lines. -/
def toLines (v : Json) : String := String.ofList (v.pretty 0)

end CobolDialects.Json
