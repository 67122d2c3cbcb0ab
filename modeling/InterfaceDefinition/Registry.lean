import InterfaceDefinition.Document
import InterfaceDefinition.Vocabulary

/-!
# The registry

All documents of a run and an index of the types they declare, by canonical name and in the order of
registration. The first declaration of a name is the one that the index holds; a later one is
reported and stays out of it.

Look-up of a name written in a package tries the name below the package first and then the name by
itself, so that a type of the enclosing package wins.
-/

namespace InterfaceDefinition

/-- The documents of a run and the index of their declarations. -/
structure Registry where
  documents : List Document := []
  index : List (String × DeclRef) := []
  deriving Repr

namespace Registry

/-- A registry without documents. -/
def empty : Registry := {}

/-! ### Look-up -/

/-- The document of a number. -/
def document? (r : Registry) (number : Nat) : Option Document :=
  r.documents[number]?

/-- The declaration at a place. -/
def decl? (r : Registry) (id : DeclId) : Option Decl :=
  (r.document? id.document).bind fun doc => doc.decls[id.index]?

/-- What the index holds under a canonical name. -/
def indexed? (r : Registry) (canonicalName : String) : Option DeclRef :=
  r.index.lookup canonicalName

/-- The canonical name and the declaration that a name written in a package denotes. -/
def lookup? (r : Registry) (package name : String) : Option (String × DeclRef) :=
  let inPackage :=
    if package.isEmpty then none
    else
      let qualified := package ++ "." ++ name
      (r.indexed? qualified).map fun target => (qualified, target)
  inPackage.or ((r.indexed? name).map fun target => (name, target))

/-- What a name written in a package stands for, imports aside: a builtin type itself, any other
type by look-up. -/
def resolveIn (r : Registry) (package name : String) : Option Resolution :=
  if Vocabulary.isBuiltin name then some ⟨name, none⟩
  else (r.lookup? package name).map fun (canonicalName, target) => ⟨canonicalName, some target⟩

/-- What a name by itself stands for. -/
def resolve (r : Registry) (name : String) : Option Resolution :=
  r.resolveIn "" name

/-- The declaration that a name written in a package denotes. -/
def declIn? (r : Registry) (package name : String) : Option Decl :=
  (r.lookup? package name).bind fun (_, target) => r.decl? target.id

/-- The declarations that the index holds, in the order of registration. -/
def indexedDecls (r : Registry) : List Decl :=
  r.index.filterMap fun (_, target) => r.decl? target.id

/-- The declaration of a type, if the type is of a kind. -/
def declOfKind? (r : Registry) (t : TypeSpec) (kind : DeclKind) : Option Decl :=
  match t.base.target? with
  | some target =>
    if target.kind = kind then (r.decl? target.id).filter (·.kind == kind) else none
  | none => none

/-- The interface that a type is. -/
def interface? (r : Registry) (t : TypeSpec) : Option Decl :=
  r.declOfKind? t .interface

/-- The enum that a type is. -/
def enum? (r : Registry) (t : TypeSpec) : Option Decl :=
  r.declOfKind? t .enum

/-- Look-up depends on the index only. -/
theorem lookup?_congr {r r' : Registry} (h : r'.index = r.index) : r'.lookup? = r.lookup? := by
  have hindexed : r'.indexed? = r.indexed? := by
    funext name
    rw [indexed?, indexed?, h]
  funext package name
  rw [lookup?, lookup?, hindexed]

/-- What is looked up is found under the name below the package or under the name itself. -/
theorem lookup?_fst_cases {r : Registry} {package name : String} {found : String × DeclRef}
    (h : r.lookup? package name = some found) :
    found.1 = package ++ "." ++ name ∨ found.1 = name := by
  rw [lookup?] at h
  rcases Option.or_eq_some_iff.mp h with h | ⟨-, h⟩
  · split at h
    · simp at h
    · obtain ⟨target, -, rfl⟩ := Option.map_eq_some_iff.mp h
      exact .inl rfl
  · obtain ⟨target, -, rfl⟩ := Option.map_eq_some_iff.mp h
    exact .inr rfl

/-- Without a package a name is what the index holds under it. -/
theorem lookup?_empty (r : Registry) (name : String) :
    r.lookup? "" name = (r.indexed? name).map fun target => (name, target) := by
  rw [lookup?]
  exact Option.none_or

/-- In a package the name below it comes first, and then the name by itself. -/
theorem lookup?_of_package (r : Registry) {package : String} (hpackage : package ≠ "")
    (name : String) :
    r.lookup? package name =
      ((r.indexed? (package ++ "." ++ name)).map fun target =>
        (package ++ "." ++ name, target)).or (r.lookup? "" name) := by
  have hempty : package.isEmpty = false := by simpa using hpackage
  rw [lookup?_empty, lookup?, hempty]
  rfl

/-- What is looked up is held by the index under the canonical name that is found. -/
theorem indexed?_of_lookup? {r : Registry} {package name : String} {found : String × DeclRef}
    (h : r.lookup? package name = some found) : r.indexed? found.1 = some found.2 := by
  have hmap : ∀ {name : String}, (r.indexed? name).map (fun target => (name, target)) = some found →
      r.indexed? found.1 = some found.2 := by
    intro name h
    obtain ⟨target, htarget, rfl⟩ := Option.map_eq_some_iff.mp h
    exact htarget
  rw [lookup?] at h
  rcases Option.or_eq_some_iff.mp h with h | ⟨-, h⟩
  · split at h
    · simp at h
    · exact hmap h
  · exact hmap h

/-- A name that is looked up is found under no builtin name: those have no dot. -/
theorem isBuiltin_eq_false_of_lookup? {r : Registry} {package name : String}
    {found : String × DeclRef} (h : r.lookup? package name = some found)
    (hname : Vocabulary.isBuiltin name = false) : Vocabulary.isBuiltin found.1 = false := by
  rcases lookup?_fst_cases h with heq | heq
  · rw [Bool.eq_false_iff]
    intro hbuiltin
    have hdot := Vocabulary.dot_notMem_of_isBuiltin hbuiltin
    simp [heq] at hdot
  · rw [heq, hname]

theorem mem_index_of_lookup? {r : Registry} {package name : String} {found : String × DeclRef}
    (h : r.lookup? package name = some found) : found ∈ r.index := by
  have hlookup : r.index.lookup found.1 = some found.2 := indexed?_of_lookup? h
  obtain ⟨l₁, l₂, hl, -⟩ := List.lookup_eq_some_iff.mp hlookup
  simp [hl]

theorem mem_indexedDecls_of_declIn? {r : Registry} {package name : String} {d : Decl}
    (h : r.declIn? package name = some d) : d ∈ r.indexedDecls := by
  obtain ⟨⟨canonicalName, target⟩, hfound, hd⟩ := Option.bind_eq_some_iff.mp h
  exact List.mem_filterMap.mpr ⟨_, mem_index_of_lookup? hfound, hd⟩

theorem exists_mem_of_decl? {r : Registry} {id : DeclId} {d : Decl} (h : r.decl? id = some d) :
    ∃ doc ∈ r.documents, d ∈ doc.decls := by
  obtain ⟨doc, hdoc, hd⟩ := Option.bind_eq_some_iff.mp h
  exact ⟨doc, List.mem_of_getElem? hdoc, List.mem_of_getElem? hd⟩

/-! ### Registration -/

/-- The error that a canonical name is declared again, with the place of the first declaration; the
document that is being registered is not part of the registry yet, so a declaration of its own has
no known place. -/
def redefinition (r : Registry) (d : Decl) (first : DeclRef) : Diagnostic :=
  let previous :=
    match r.decl? first.id with
    | some earlier => earlier.location
    | none => ⟨"<unknown>", none⟩
  .duplicate d.location previous "E0502" ("redefinition of type '" ++ d.canonicalName ++ "'")

/-- Enters the declarations of document `number` from position `position` on into the index. -/
def indexDecls (r : Registry) (number position : Nat) : List Decl → Reporting Registry
  | [] => pure r
  | d :: rest =>
    match r.indexed? d.canonicalName with
    | some first => do
      .report (r.redefinition d first)
      r.indexDecls number (position + 1) rest
    | none =>
      let entry : String × DeclRef := (d.canonicalName, ⟨⟨number, position⟩, d.kind⟩)
      { r with index := r.index ++ [entry] }.indexDecls number (position + 1) rest

/-- Registers a document and every type it declares; the document gets the next number. -/
def addDocument (r : Registry) (doc : Document) : Reporting Registry := do
  let indexed ← r.indexDecls r.documents.length 0 doc.decls
  return { indexed with documents := r.documents ++ [doc] }

end Registry

end InterfaceDefinition
