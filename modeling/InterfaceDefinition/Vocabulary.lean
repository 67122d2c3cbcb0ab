/-!
# Vocabulary

The words with a fixed meaning: primitive and builtin type names, the types that constants may
have, the words and signatures that declarations may not use.
-/

namespace InterfaceDefinition.Vocabulary

/-! ### Type names -/

/-- The primitive types; `void` counts as one of them. -/
def primitives : List String :=
  ["void", "boolean", "byte", "char", "int", "long", "float", "double"]

/-- The builtin types that are not primitive. -/
def builtinClasses : List String :=
  ["String", "List", "Map", "IBinder", "FileDescriptor", "CharSequence", "ParcelFileDescriptor",
    "ParcelableHolder"]

/-- Whether a name is a primitive type. -/
def isPrimitive (name : String) : Bool :=
  primitives.contains name

/-- Whether a name is a builtin type, primitive or not. -/
def isBuiltin (name : String) : Bool :=
  isPrimitive name || builtinClasses.contains name

/-- No builtin name has a dot. -/
theorem dot_notMem_of_isBuiltin {name : String} (h : isBuiltin name = true) :
    '.' ∉ name.toList := by
  have hall : ∀ builtin ∈ primitives ++ builtinClasses, '.' ∉ builtin.toList := by
    decide +kernel
  have hmem : name ∈ primitives ++ builtinClasses := by
    simpa [isBuiltin, isPrimitive] using h
  exact hall name hmem

/-- The type that backs an enum which names none. -/
def defaultBacking : String := "byte"

/-- The builtin types that may be elements of a list. -/
def listElements : List String :=
  ["String", "IBinder", "ParcelFileDescriptor"]

/-- The types that a constant may be declared with. -/
def constantTypes : List String :=
  ["String", "byte", "int", "long"]

/-! ### Reserved words -/

/-- The words that may not name an argument. -/
def reservedWords : List String :=
  ["abstract", "assert", "boolean", "break", "byte", "case", "catch", "char", "class", "const",
    "continue", "default", "do", "double", "else", "enum", "extends", "final", "finally", "float",
    "for", "goto", "if", "implements", "import", "instanceof", "int", "interface", "long", "native",
    "new", "package", "private", "protected", "public", "return", "short", "static", "strictfp",
    "super", "switch", "synchronized", "this", "throw", "throws", "transient", "try", "void",
    "volatile", "while", "true", "false", "null"]

/-- Whether a name is a reserved word. -/
def isReservedWord (name : String) : Bool :=
  reservedWords.contains name

/-- The beginning of generated argument names. -/
def reservedBeginning : String := "_aidl"

/-- Whether a name begins like a generated one. -/
def beginsReserved (name : String) : Bool :=
  reservedBeginning.toList.isPrefixOf name.toList

/-- The signatures of the methods that every interface has by itself. -/
def reservedSignatures : List String :=
  ["asBinder()", "getInterfaceHash()", "getInterfaceVersion()", "getTransactionName(int)"]

/-- Whether a name begins with the letter that interface names should begin with. -/
def looksLikeInterface (name : String) : Bool :=
  name.toList.head? == some 'I'

end InterfaceDefinition.Vocabulary
