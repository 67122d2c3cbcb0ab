/-!
# Quoted texts

A text between two quotes, as literals are written: the content is what stands between them.
-/

namespace InterfaceDefinition.Text

/-- What stands between a first and a last character that are both the quote; nothing when the text
is not quoted. A lone quote is not both. -/
def between? (quote : Char) (s : String) : Option String :=
  match s.toList with
  | [] => none
  | c :: rest =>
    if c = quote ∧ rest.getLast? = some quote then some (String.ofList rest.dropLast) else none

/-- A text in double quotes. -/
def doubleQuoted (s : String) : String :=
  "\"" ++ s ++ "\""

/-- The content of a text is what two quotes around it make the text. -/
theorem between?_eq_some_iff {quote : Char} {s content : String} :
    between? quote s = some content ↔ s.toList = quote :: (content.toList ++ [quote]) := by
  rw [between?]
  split
  · next h => simp [h]
  · next c rest h =>
    rw [h]
    constructor
    · intro hs
      split at hs
      · next hq =>
        obtain ⟨rfl, hlast⟩ := hq
        obtain rfl := Option.some.inj hs
        obtain ⟨inner, rfl⟩ := List.getLast?_eq_some_iff.mp hlast
        simp
      · simp at hs
    · intro hs
      obtain ⟨rfl, rfl⟩ := List.cons.inj hs
      simp

/-- A text put in double quotes is found between them. -/
@[simp] theorem between?_doubleQuoted (s : String) : between? '"' (doubleQuoted s) = some s := by
  simp [between?_eq_some_iff, doubleQuoted]

end InterfaceDefinition.Text
