import InterfaceDefinition.TypeSpec
import InterfaceDefinition.TypeSpec.Token

/-!
# Reading type signatures

A signature is a dotted name, optionally followed by type arguments in angle brackets and by the
array mark, as `TypeSpec.signature` prints it. Reading one gives an unresolved type all of whose
parts are located where the signature is, or says what was expected and at which byte.

Each reader returns, beside what it read, the tokens that are left, with the proof that they are
fewer; that is why reading ends.
-/

namespace InterfaceDefinition

/-! ### Errors -/

/-- What a signature lacks at some place. -/
inductive Expectation where
  | typeName
  | closingAngle
  | closingBracket
  deriving DecidableEq, Repr

/-- The words for what is lacking. -/
def Expectation.phrase : Expectation → String
  | typeName => "a type name"
  | closingAngle => "'>'"
  | closingBracket => "']'"

/-- Why a text is no signature; offsets count bytes. -/
inductive SignatureError where
  /-- No token begins with the character at the offset. -/
  | invalidToken (char : Char) (offset : Nat)
  /-- The token at the offset, or the end of the text there, is not what was expected. -/
  | expected (what : Expectation) (offset : Nat)
  /-- A signature is complete before the token at the offset. -/
  | trailingInput (offset : Nat)
  deriving DecidableEq, Repr

/-- The text of a signature error. -/
def SignatureError.message : SignatureError → String
  | invalidToken char offset =>
    "unexpected character '" ++ String.singleton char ++ "' at offset " ++ toString offset
  | expected what offset => "expected " ++ what.phrase ++ " at offset " ++ toString offset
  | trailingInput offset => "unexpected trailing input at offset " ++ toString offset

/-! ### Readers -/

namespace Signature

/-- The offset of the first token, or of the end of the text when no token is left. -/
def offsetOf (finish : Nat) : List Token → Nat
  | [] => finish
  | t :: _ => t.offset

/-- What was read, and the tokens left over, at most `bound` of them. -/
structure Parsed (α : Type) (bound : Nat) where
  value : α
  rest : List Token
  length_le : rest.length ≤ bound

/-- Reads the array mark if it is there. -/
def readArrayMark (finish : Nat) (ts : List Token) :
    Except SignatureError (Parsed Bool ts.length) :=
  match ts with
  | ⟨.lbracket, _⟩ :: ⟨.rbracket, _⟩ :: rest => .ok ⟨true, rest, by simp; omega⟩
  | ⟨.lbracket, _⟩ :: rest => .error (.expected .closingBracket (offsetOf finish rest))
  | ts => .ok ⟨false, ts, Nat.le_refl _⟩

mutual

/-- Reads a type: a name, its arguments and the array mark. -/
def readType (loc : Location) (finish : Nat) (ts : List Token) :
    Except SignatureError (Parsed TypeSpec (ts.length - 1)) :=
  match ts with
  | ⟨.name text, _⟩ :: rest => do
    let args ← readArguments loc finish rest
    let mark ← readArrayMark finish args.rest
    let type : TypeSpec :=
      { location := loc, base := ⟨text, none⟩, arguments := args.value, isArray := mark.value }
    return ⟨type, mark.rest, Nat.le_trans mark.length_le args.length_le⟩
  | ts => .error (.expected .typeName (offsetOf finish ts))
termination_by ts.length

/-- Reads type arguments in angle brackets if they are there. -/
def readArguments (loc : Location) (finish : Nat) (ts : List Token) :
    Except SignatureError (Parsed (List TypeSpec) ts.length) :=
  match ts with
  | ⟨.langle, _⟩ :: rest => do
    let first ← readType loc finish rest
    let more ← readMore loc finish first.rest
    match h : more.rest with
    | ⟨.rangle, _⟩ :: after =>
      return ⟨first.value :: more.value, after, by
        have h1 := first.length_le
        have h2 := more.length_le
        simp only [h, List.length_cons] at h2 ⊢
        omega⟩
    | left => .error (.expected .closingAngle (offsetOf finish left))
  | ts => .ok ⟨[], ts, Nat.le_refl _⟩
termination_by ts.length
decreasing_by
  · simp
  · have := first.length_le
    simp only [List.length_cons]
    omega

/-- Reads the types that follow a type, each after a comma. -/
def readMore (loc : Location) (finish : Nat) (ts : List Token) :
    Except SignatureError (Parsed (List TypeSpec) ts.length) :=
  match ts with
  | ⟨.comma, _⟩ :: rest => do
    let next ← readType loc finish rest
    let more ← readMore loc finish next.rest
    return ⟨next.value :: more.value, more.rest, by
      have h1 := next.length_le
      have h2 := more.length_le
      simp only [List.length_cons]
      omega⟩
  | ts => .ok ⟨[], ts, Nat.le_refl _⟩
termination_by ts.length
decreasing_by
  · simp
  · have := next.length_le
    simp only [List.length_cons]
    omega

end

/-- The type that tokens write, which must be used up. -/
def parseTokens (loc : Location) (finish : Nat) (ts : List Token) :
    Except SignatureError TypeSpec := do
  let type ← readType loc finish ts
  match type.rest with
  | [] => return type.value
  | t :: _ => .error (.trailingInput t.offset)

end Signature

/-- The unresolved type that a signature writes, all of its parts at the given place. -/
def TypeSpec.parse (loc : Location) (text : String) : Except SignatureError TypeSpec :=
  match Signature.scan text with
  | .error bad => .error (.invalidToken bad.char bad.offset)
  | .ok tokens => Signature.parseTokens loc text.utf8ByteSize tokens

end InterfaceDefinition
