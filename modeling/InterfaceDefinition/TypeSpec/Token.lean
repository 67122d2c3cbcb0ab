/-!
# Tokens of type signatures

The lexical form of signatures: dotted names of ASCII identifiers, angle brackets, commas and square
brackets, with blanks between them. A token knows the byte it starts at.

`Token.scan` splits a text from left to right and takes the longest name it can, so a dot that no
identifier follows is not part of the name before it.
-/

namespace InterfaceDefinition

/-! ### Characters -/

namespace Signature

/-- Whether a character may stand between tokens. -/
def isSpace (c : Char) : Bool :=
  c == ' ' || c == '\t' || c == '\r' || c == '\n'

/-- Whether an identifier may begin with a character. -/
def isStart (c : Char) : Bool :=
  ('a' ≤ c && c ≤ 'z') || ('A' ≤ c && c ≤ 'Z') || c == '_'

/-- Whether an identifier may continue with a character. -/
def isPart (c : Char) : Bool :=
  isStart c || ('0' ≤ c && c ≤ '9')

/-- The number of bytes that characters take in UTF-8. -/
def byteLength (cs : List Char) : Nat :=
  (String.ofList cs).utf8ByteSize

/-! ### Tokens -/

/-- What a token is. -/
inductive TokenKind where
  | name (text : String)
  | langle
  | rangle
  | comma
  | lbracket
  | rbracket
  deriving DecidableEq, Repr

/-- A token and the byte offset of its beginning. -/
structure Token where
  kind : TokenKind
  offset : Nat
  deriving DecidableEq, Repr

/-- The token of a character that is one by itself. -/
def punctuation? : Char → Option TokenKind
  | '<' => some .langle
  | '>' => some .rangle
  | ',' => some .comma
  | '[' => some .lbracket
  | ']' => some .rbracket
  | _ => none

/-- The longest continuation of a dotted name, and what follows it. A dot continues the name only if
an identifier begins after it. -/
def nameRest : List Char → List Char × List Char
  | [] => ([], [])
  | '.' :: c :: rest =>
    if isStart c then
      let (more, after) := nameRest rest
      ('.' :: c :: more, after)
    else ([], '.' :: c :: rest)
  | c :: rest =>
    if isPart c then
      let (more, after) := nameRest rest
      (c :: more, after)
    else ([], c :: rest)

/-- Nothing is lost between a continuation and what follows it. -/
theorem nameRest_append (cs : List Char) : (nameRest cs).1 ++ (nameRest cs).2 = cs := by
  fun_induction nameRest cs <;> simp_all

/-- What follows a continuation is no longer than the whole. -/
theorem length_nameRest_le (cs : List Char) : (nameRest cs).2.length ≤ cs.length := by
  have h := congrArg List.length (nameRest_append cs)
  simp only [List.length_append] at h
  omega

/-- The character with which no token begins, and its byte offset. -/
structure BadCharacter where
  char : Char
  offset : Nat
  deriving DecidableEq, Repr

/-- The tokens of characters that start at a byte offset. -/
def scanFrom (offset : Nat) (cs : List Char) : Except BadCharacter (List Token) :=
  match cs with
  | [] => .ok []
  | c :: rest =>
    if isSpace c then scanFrom (offset + c.utf8Size) rest
    else if isStart c then
      let name := c :: (nameRest rest).1
      (scanFrom (offset + byteLength name) (nameRest rest).2).map
        (⟨.name (String.ofList name), offset⟩ :: ·)
    else
      match punctuation? c with
      | some kind => (scanFrom (offset + c.utf8Size) rest).map (⟨kind, offset⟩ :: ·)
      | none => .error ⟨c, offset⟩
termination_by cs.length
decreasing_by
  · simp
  · have := length_nameRest_le rest
    simp only [List.length_cons]
    omega
  · simp

/-- The tokens of a text. -/
def scan (text : String) : Except BadCharacter (List Token) :=
  scanFrom 0 text.toList

end Signature

end InterfaceDefinition
