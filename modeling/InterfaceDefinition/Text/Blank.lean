/-!
# Blank characters

The characters of the Unicode property White_Space, and the removal of them at both ends of a text.
-/

namespace InterfaceDefinition.Text

/-- Whether a character is white space. -/
def isBlank (c : Char) : Bool :=
  let code := c.toNat
  (0x09 ≤ code && code ≤ 0x0D) || code == 0x20 || code == 0x85 || code == 0xA0 || code == 0x1680 ||
    (0x2000 ≤ code && code ≤ 0x200A) || code == 0x2028 || code == 0x2029 || code == 0x202F ||
    code == 0x205F || code == 0x3000

/-- A text without the white space at its two ends. -/
def trim (s : String) : String :=
  String.ofList ((s.toList.dropWhile isBlank).reverse.dropWhile isBlank).reverse

/-- The pieces of a list between the elements that satisfy `p`, which are dropped. -/
def pieces (p : Char → Bool) : List Char → List (List Char)
  | [] => [[]]
  | c :: rest =>
    match p c, pieces p rest with
    | true, found => [] :: found
    | false, [] => [[c]]
    | false, piece :: more => (c :: piece) :: more

/-- The pieces of a text between commas. -/
def commaSeparated (s : String) : List String :=
  (pieces (· == ',') s.toList).map String.ofList

end InterfaceDefinition.Text
