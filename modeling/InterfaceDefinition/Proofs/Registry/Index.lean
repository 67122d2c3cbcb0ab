import InterfaceDefinition.Options
import InterfaceDefinition.Proofs.Resolution.Documents

/-!
# The index as a function of the declarations

The index holds one entry for each canonical name, that of the first declaration. `firstEntries`
says so for any list of entries: its keys are the first occurrences of the keys
(`map_fst_firstEntries`), and looking a name up in it is looking it up in the whole list
(`lookup_firstEntries`).

The entries of a registry come from the shells of its declarations alone, document by document
(`Registry.entries_eq`). Registration adds those of the new document behind the others
(`Registry.entries_addDocument`, `Registry.index_addDocument`), and a pass, which keeps the shells,
keeps the entries.
-/

namespace InterfaceDefinition

/-! ### First entries -/

section FirstEntries

variable {β : Type}

/-- Puts an entry behind the others, unless one has its key. -/
def noteEntry (index : List (String × β)) (entry : String × β) : List (String × β) :=
  match index.lookup entry.1 with
  | some _ => index
  | none => index ++ [entry]

/-- The first entry of every key, in order. -/
def firstEntries (entries : List (String × β)) : List (String × β) :=
  entries.foldl noteEntry []

/-- The index holds something under its keys. -/
theorem isSome_lookup_iff {index : List (String × β)} {key : String} :
    (index.lookup key).isSome ↔ key ∈ index.map (·.1) := by
  induction index with
  | nil => simp
  | cons entry index ih =>
    obtain ⟨k, b⟩ := entry
    rw [List.lookup_cons, List.map_cons, List.mem_cons, ← ih]
    cases h : key == k with
    | true => simp [beq_iff_eq.mp h]
    | false => simp [beq_eq_false_iff_ne.mp h]

theorem map_fst_noteEntry (index : List (String × β)) (entry : String × β) :
    (noteEntry index entry).map (·.1) = noteOccurrence (index.map (·.1)) entry.1 := by
  have hmem : (index.lookup entry.1).isSome ↔ entry.1 ∈ index.map (·.1) := isSome_lookup_iff
  unfold noteEntry noteOccurrence
  cases h : index.lookup entry.1 with
  | some _ => simp [hmem.mp (by simp [h])]
  | none => simp [mt hmem.mpr (by simp [h])]

theorem map_fst_foldl_noteEntry (entries index : List (String × β)) :
    (entries.foldl noteEntry index).map (·.1) =
      (entries.map (·.1)).foldl noteOccurrence (index.map (·.1)) := by
  induction entries generalizing index with
  | nil => rfl
  | cons entry entries ih =>
    rw [List.foldl_cons, ih, map_fst_noteEntry, List.map_cons, List.foldl_cons]

/-- The keys of the first entries are the names in the order in which they first occur. -/
theorem map_fst_firstEntries (entries : List (String × β)) :
    (firstEntries entries).map (·.1) = firstOccurrences (entries.map (·.1)) :=
  map_fst_foldl_noteEntry entries []

theorem lookup_foldl_noteEntry (entries index : List (String × β)) (key : String) :
    (entries.foldl noteEntry index).lookup key = (index.lookup key).or (entries.lookup key) := by
  induction entries generalizing index with
  | nil => simp
  | cons entry entries ih =>
    obtain ⟨k, b⟩ := entry
    rw [List.foldl_cons, ih]
    rw [noteEntry]
    -- the new entry counts for its own key only, and only where that is not taken
    cases hkey : key == k with
    | true =>
      obtain rfl := beq_iff_eq.mp hkey
      cases h : index.lookup key with
      | some _ => simp [h]
      | none => simp [h, List.lookup_append]
    | false =>
      cases h : index.lookup k with
      | some _ => simp [List.lookup_cons, hkey]
      | none => simp [List.lookup_cons, hkey, List.lookup_append]

/-- The first entry of a key is found also among all entries. -/
theorem lookup_firstEntries (entries : List (String × β)) (key : String) :
    (firstEntries entries).lookup key = entries.lookup key := by
  rw [firstEntries, lookup_foldl_noteEntry]
  rfl

/-- Only entries that are there are put behind each other. -/
theorem foldl_noteEntry_subset (entries index : List (String × β)) :
    entries.foldl noteEntry index ⊆ index ++ entries := by
  induction entries generalizing index with
  | nil => simp
  | cons entry entries ih =>
    have hnoted : noteEntry index entry ⊆ index ++ [entry] := by
      rw [noteEntry]
      split
      · exact List.subset_append_left _ _
      · exact List.Subset.refl _
    have happend : index ++ entry :: entries = (index ++ [entry]) ++ entries := by simp
    rw [List.foldl_cons, happend]
    exact List.Subset.trans (ih _) (List.append_subset.mpr
      ⟨List.subset_append_of_subset_left _ hnoted, List.subset_append_right _ _⟩)

theorem firstEntries_subset (entries : List (String × β)) : firstEntries entries ⊆ entries :=
  foldl_noteEntry_subset entries []

end FirstEntries

namespace Registry

/-! ### The declarations of a registry -/

/-- Every declaration with its place, document by document and in the order of the document. -/
def declarations (r : Registry) : List (DeclId × Decl) :=
  r.documents.zipIdx.flatMap fun (doc, number) =>
    doc.decls.zipIdx.map fun (d, position) => (⟨number, position⟩, d)

/-- The entry of a declaration at a place: its canonical name, with the place and its kind. -/
def entryOf (declaration : DeclId × Decl) : String × DeclRef :=
  (declaration.2.canonicalName, ⟨declaration.1, declaration.2.kind⟩)

/-- The entries of all declarations, those that stay out of the index included. -/
def entries (r : Registry) : List (String × DeclRef) :=
  r.declarations.map entryOf

/-- The declarations are listed with the places at which they are found. -/
theorem mem_declarations_iff {r : Registry} {id : DeclId} {d : Decl} :
    (id, d) ∈ r.declarations ↔ r.decl? id = some d := by
  obtain ⟨number, position⟩ := id
  simp only [declarations, decl?, document?, List.mem_flatMap, List.mem_map, Prod.exists,
    Prod.mk.injEq, DeclId.mk.injEq, List.mem_zipIdx_iff_getElem?, Option.bind_eq_some_iff]
  constructor
  · rintro ⟨doc, _, hdoc, _, _, hd, ⟨rfl, rfl⟩, rfl⟩
    exact ⟨doc, hdoc, hd⟩
  · rintro ⟨doc, hdoc, hd⟩
    exact ⟨doc, number, hdoc, d, position, hd, ⟨rfl, rfl⟩, rfl⟩

/-- A declaration belongs to a document that is there. -/
theorem document_lt_of_decl? {r : Registry} {id : DeclId} {d : Decl} (h : r.decl? id = some d) :
    id.document < r.documents.length := by
  obtain ⟨doc, hdoc, -⟩ := Option.bind_eq_some_iff.mp h
  exact (List.getElem?_eq_some_iff.mp hdoc).1

/-- Looking up an entry is finding the first declaration of the name. -/
theorem lookup_entries (r : Registry) (name : String) :
    r.entries.lookup name =
      (r.declarations.find? (·.2.canonicalName == name)).map fun (id, d) => ⟨id, d.kind⟩ := by
  rw [entries]
  induction r.declarations with
  | nil => rfl
  | cons declaration rest ih =>
    rw [List.map_cons, entryOf, List.lookup_cons, List.find?_cons, ih, BEq.comm]
    split <;> rfl

/-! ### Shells -/

/-- The shells of all declarations, by documents. -/
def shells (r : Registry) : List (List Decl.Shell) :=
  r.documents.map (·.decls.map Decl.shell)

/-- The entries depend on the shells alone. -/
theorem entries_eq (r : Registry) :
    r.entries = r.shells.zipIdx.flatMap fun (shells, number) =>
      shells.zipIdx.map fun (shell, position) =>
        (shell.header.canonicalName, ⟨⟨number, position⟩, shell.kind⟩) := by
  simp only [entries, declarations, shells, List.zipIdx_map, List.flatMap_map, List.map_flatMap,
    List.map_map, Function.comp_def, Prod.map]
  rfl

/-- A document put back with the same shells leaves all shells as they are. -/
theorem shells_withDecls {r : Registry} {number : Nat} {doc : Document} {decls : List Decl}
    (hdoc : r.document? number = some doc)
    (hshells : decls.map Decl.shell = doc.decls.map Decl.shell) :
    (r.withDecls number doc decls).shells = r.shells := by
  obtain ⟨hlt, hget⟩ := List.getElem?_eq_some_iff.mp hdoc
  have hlt' : number < (r.documents.map (·.decls.map Decl.shell)).length := by simpa using hlt
  have hself : (r.documents.map (·.decls.map Decl.shell))[number] = doc.decls.map Decl.shell := by
    simp [hget]
  unfold shells withDecls
  rw [List.map_set, hshells, ← hself, List.set_getElem_self]

/-! ### Registration -/

/-- Registration enters the first declaration of every name that is not taken. -/
theorem index_indexDecls (r : Registry) (number position : Nat) (decls : List Decl) :
    (r.indexDecls number position decls).value.index =
      ((decls.zipIdx position).map fun (d, position) => entryOf (⟨number, position⟩, d)).foldl
        noteEntry r.index := by
  induction decls generalizing r position with
  | nil => rfl
  | cons d decls ih =>
    rw [indexDecls, List.zipIdx_cons, List.map_cons, List.foldl_cons]
    rw [noteEntry]
    simp only [entryOf]
    split
    · next first hfirst =>
      have hfirst : r.index.lookup d.canonicalName = some first := hfirst
      rw [hfirst]
      exact ih ..
    · next hnone =>
      have hnone : r.index.lookup d.canonicalName = none := hnone
      rw [hnone]
      exact ih ..

theorem documents_addDocument (r : Registry) (doc : Document) :
    (r.addDocument doc).value.documents = r.documents ++ [doc] := rfl

/-- The declarations of a new document stand behind all others, at the places in it. -/
theorem declarations_addDocument (r : Registry) (doc : Document) :
    (r.addDocument doc).value.declarations = r.declarations ++
      doc.decls.zipIdx.map fun (d, position) => (⟨r.documents.length, position⟩, d) := by
  simp [declarations, documents_addDocument, List.zipIdx_append]

/-- The index is extended by the entries of a new document, one after the other; a name that it has
already keeps its entry. -/
theorem index_addDocument (r : Registry) (doc : Document) :
    (r.addDocument doc).value.index =
      ((doc.decls.zipIdx.map fun (d, position) => (⟨r.documents.length, position⟩, d)).map
        entryOf).foldl noteEntry r.index := by
  rw [List.map_map]
  exact r.index_indexDecls r.documents.length 0 doc.decls

end Registry

end InterfaceDefinition
