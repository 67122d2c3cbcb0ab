import InterfaceDefinition.Decl.MemberCheck
import InterfaceDefinition.Proofs.Registry.Reachable
import Mathlib.Data.List.Nodup

/-!
# Redefinitions

What registration reports. A declaration is a redefinition when its canonical name is taken, by a
declaration of an earlier document or by an earlier one of its own (`Registry.earlierNamed?`). Each
redefinition is reported, in the order of the document, and stays out of the index, which keeps all
that it holds (`Registry.Reachable.addDocument_redefinitions`).

The report cites the first declaration of the name where that is in an earlier document. A document
has no place in the registry before the end of its registration, so a name that is taken within the
document is cited from an unknown place (`Registry.citedLocation`).
-/

namespace InterfaceDefinition

namespace Registry

variable {r s : Registry} {earlier : List (DeclId × Decl)}

/-! ### Places -/

/-- Declarations at the places that they have in the document of a number, from a position on. -/
def placedFrom (number position : Nat) (decls : List Decl) : List (DeclId × Decl) :=
  (decls.zipIdx position).map fun (d, position) => (⟨number, position⟩, d)

/-- The declarations of a document at the places that they have once it is registered. -/
def placed (r : Registry) (doc : Document) : List (DeclId × Decl) :=
  placedFrom r.documents.length 0 doc.decls

/-- All declarations of a new document are placed behind the documents that there are. -/
theorem document_of_mem_placed {doc : Document} {x : DeclId × Decl} (h : x ∈ r.placed doc) :
    x.1.document = r.documents.length := by
  obtain ⟨_, -, rfl⟩ := List.mem_map.mp h
  rfl

/-- Declarations differ in their places. -/
theorem nodup_placed (r : Registry) (doc : Document) : ((r.placed doc).map (·.1)).Nodup := by
  have hids : (r.placed doc).map (·.1) =
      (doc.decls.zipIdx.map (·.2)).map (DeclId.mk r.documents.length) := by
    rw [placed, placedFrom, List.map_map, List.map_map]
    rfl
  rw [hids, List.zipIdx_map_snd]
  exact List.Pairwise.map _ (fun _ _ hne heq => hne (DeclId.mk.inj heq).2) List.nodup_range'

/-! ### Names that are taken -/

/-- The first of some declarations that has a canonical name. -/
def firstNamed? (declarations : List (DeclId × Decl)) (name : String) : Option (DeclId × Decl) :=
  declarations.find? (·.2.canonicalName == name)

/-- The first declaration of the name of a new one, which is given with those before it in its
document: it is in the registry, or one of these. -/
def earlierNamed? (r : Registry) (x : List (DeclId × Decl) × DeclId × Decl) :
    Option (DeclId × Decl) :=
  firstNamed? (r.declarations ++ x.1) x.2.2.canonicalName

/-- Where a redefinition is said to have the first declaration: only the documents that are
registered already are looked into. -/
def citedLocation (r : Registry) (first : DeclId × Decl) : Location :=
  if first.1.document < r.documents.length then first.2.location else ⟨"<unknown>", none⟩

/-- The error that the name of a declaration is taken. -/
def redefinitionOf (r : Registry) (d : Decl) (first : DeclId × Decl) : Diagnostic :=
  .duplicate d.location (r.citedLocation first) "E0502"
    ("redefinition of type '" ++ d.canonicalName ++ "'")

/-- The first declaration of a name stays the first when another comes behind it. -/
theorem firstNamed?_concat (declarations : List (DeclId × Decl)) (x : DeclId × Decl)
    (name : String) :
    firstNamed? (declarations ++ [x]) name =
      (firstNamed? declarations name).or (if x.2.canonicalName = name then some x else none) := by
  rw [firstNamed?, firstNamed?, List.find?_append, List.find?_cons]
  cases heq : x.2.canonicalName == name with
  | true => rw [if_pos (beq_iff_eq.mp heq)]
  | false => rw [if_neg (beq_eq_false_iff_ne.mp heq), List.find?_nil]

/-! ### Registration step by step -/

/-- Some declarations of the next document have been entered: the index leads to the first
declaration of every name, among them and those of the registry. -/
structure Entering (r : Registry) (earlier : List (DeclId × Decl)) (s : Registry) : Prop where
  documents : s.documents = r.documents
  number : ∀ x ∈ earlier, x.1.document = r.documents.length
  indexed?_eq : ∀ name, s.indexed? name =
    (firstNamed? (r.declarations ++ earlier) name).map fun (id, d) => ⟨id, d.kind⟩

namespace Entering

variable (h : r.Entering earlier s)
include h

/-- The declaration that is cited is looked up in the registry. -/
theorem redefinition_eq {first : DeclId × Decl} (hfirst : first ∈ r.declarations ++ earlier)
    (d : Decl) : s.redefinition d ⟨first.1, first.2.kind⟩ = r.redefinitionOf d first := by
  have hdecl : s.decl? first.1 = r.decl? first.1 := by
    rw [decl?, decl?, document?, document?, h.documents]
  rw [redefinition, redefinitionOf, citedLocation, hdecl]
  rcases List.mem_append.mp hfirst with hmem | hmem
  · have hfound : r.decl? first.1 = some first.2 := mem_declarations_iff.mp hmem
    rw [hfound, if_pos (document_lt_of_decl? hfound)]
  · have hnumber := h.number first hmem
    have hnone : r.decl? first.1 = none := by
      rw [decl?, document?, hnumber, List.getElem?_eq_none (Nat.le_refl _), Option.bind_none]
    rw [hnone, if_neg (by omega)]

/-- A name that is taken stays so, whatever declaration of it follows. -/
theorem skip {id : DeclId} {d : Decl} (hid : id.document = r.documents.length)
    (htaken : (r.earlierNamed? (earlier, id, d)).isSome) :
    r.Entering (earlier ++ [(id, d)]) s where
  documents := h.documents
  number := by simpa [or_imp, forall_and, hid] using fun a b => h.number (a, b)
  indexed?_eq name := by
    rw [h.indexed?_eq, ← List.append_assoc, firstNamed?_concat]
    dsimp only
    split
    · next heq =>
      obtain ⟨first, hfirst⟩ := Option.isSome_iff_exists.mp htaken
      rw [earlierNamed?, heq] at hfirst
      rw [hfirst, Option.some_or]
    · rw [Option.or_none]

/-- A declaration whose name is not taken is entered. -/
theorem enter {id : DeclId} {d : Decl} (hid : id.document = r.documents.length)
    (hfresh : r.earlierNamed? (earlier, id, d) = none) :
    r.Entering (earlier ++ [(id, d)]) { s with index := s.index ++ [entryOf (id, d)] } where
  documents := h.documents
  number := by simpa [or_imp, forall_and, hid] using fun a b => h.number (a, b)
  indexed?_eq name := by
    have hold := h.indexed?_eq name
    rw [indexed?] at hold ⊢
    rw [List.lookup_append, hold, ← List.append_assoc, firstNamed?_concat]
    by_cases heq : d.canonicalName = name
    · rw [earlierNamed?, heq] at hfresh
      simp [hfresh, entryOf, heq]
    · have hne : (name == d.canonicalName) = false := by simpa using Ne.symm heq
      simp [entryOf, List.lookup_cons, hne, heq]

/-- The declarations that follow are reported where their names are taken, and entered where they
are not. -/
theorem indexDecls (position : Nat) (decls : List Decl) :
    let next := withEarlierFrom earlier (placedFrom r.documents.length position decls)
    let entered := s.indexDecls r.documents.length position decls
    entered.diagnostics =
        next.filterMap (fun x => (r.earlierNamed? x).map (r.redefinitionOf x.2.2)) ∧
      entered.value.index =
        s.index ++ (next.filter fun x => (r.earlierNamed? x).isNone).map fun x => entryOf x.2 := by
  induction decls generalizing earlier s position with
  | nil => simp [placedFrom, withEarlierFrom, Registry.indexDecls]
  | cons d decls ih =>
    have hplaced : placedFrom r.documents.length position (d :: decls) =
        (⟨r.documents.length, position⟩, d) ::
          placedFrom r.documents.length (position + 1) decls := rfl
    have hindexed := h.indexed?_eq d.canonicalName
    rw [hplaced, withEarlierFrom, Registry.indexDecls]
    cases hfirst : r.earlierNamed? (earlier, ⟨r.documents.length, position⟩, d) with
    | some first =>
      have hmem : first ∈ r.declarations ++ earlier := List.mem_of_find?_eq_some hfirst
      have hrest := ih (h.skip rfl (by rw [hfirst]; rfl)) (position + 1)
      have htaken : s.indexed? d.canonicalName = some ⟨first.1, first.2.kind⟩ := by
        rw [earlierNamed?] at hfirst
        rw [hindexed, hfirst, Option.map_some]
      rw [htaken]
      dsimp only
      rw [List.filterMap_cons, List.filter_cons, hfirst]
      simp [Reporting.report, h.redefinition_eq hmem, hrest]
    | none =>
      have hrest := ih (h.enter rfl hfirst) (position + 1)
      have hfresh : s.indexed? d.canonicalName = none := by
        rw [earlierNamed?] at hfirst
        rw [hindexed, hfirst, Option.map_none]
      rw [hfresh]
      dsimp only [entryOf] at hrest ⊢
      rw [List.filterMap_cons, List.filter_cons, hfirst]
      simp [hrest]

end Entering

/-! ### Registration -/

/-- Before the first declaration of a document is entered, the registry is as it was. -/
theorem Indexed.entering (h : r.Indexed) : r.Entering [] r where
  documents := rfl
  number := by simp
  indexed?_eq name := by rw [List.append_nil, h.indexed?_eq, firstNamed?]

/-- What the index holds leads to a document that is there. -/
theorem Indexed.document_lt (h : r.Indexed) {entry : String × DeclRef} (hentry : entry ∈ r.index) :
    entry.2.id.document < r.documents.length := by
  rw [h] at hentry
  obtain ⟨⟨id, d⟩, hmem, rfl⟩ := List.mem_map.mp (firstEntries_subset r.entries hentry)
  exact document_lt_of_decl? (mem_declarations_iff.mp hmem)

/-- **Redefinitions**: when a document is added to a reachable registry, the reports are one error
for each declaration whose canonical name is taken by a declaration of the registry or by an earlier
one of the document, in the order of the document and no others. An error is located at the later
declaration, and it cites the first declaration of the name if that is in an earlier document; if
it is in the document itself, the error cites an unknown place. The index keeps all it held, in its
place, and behind it come the declarations whose names are not taken; no entry leads to one whose
name is. -/
theorem Reachable.addDocument_redefinitions {Admitted : Document → Prop}
    (hr : r.Reachable Admitted) (doc : Document) :
    let next := withEarlier (r.placed doc)
    let added := r.addDocument doc
    added.diagnostics =
        next.filterMap (fun x => (r.earlierNamed? x).map fun first =>
          .duplicate x.2.2.location
            (if first.1.document < r.documents.length then first.2.location
              else ⟨"<unknown>", none⟩)
            "E0502" ("redefinition of type '" ++ x.2.2.canonicalName ++ "'")) ∧
      added.value.documents = r.documents ++ [doc] ∧
      added.value.index =
        r.index ++ (next.filter fun x => (r.earlierNamed? x).isNone).map (fun x => entryOf x.2) ∧
      ∀ x ∈ next, (r.earlierNamed? x).isSome →
        ∀ entry ∈ added.value.index, entry.2.id ≠ x.2.1 := by
  intro next added
  obtain ⟨hreports, hindex⟩ := hr.indexed.entering.indexDecls 0 doc.decls
  have hadded : added.diagnostics =
      (r.indexDecls r.documents.length 0 doc.decls).diagnostics ++ [] := rfl
  have hindex : added.value.index = r.index ++
      (next.filter fun x => (r.earlierNamed? x).isNone).map fun x => entryOf x.2 := hindex
  refine ⟨hadded.trans (by rw [List.append_nil, hreports]; rfl), rfl, hindex, ?_⟩
  intro x hx htaken entry hentry hid
  rw [hindex] at hentry
  rcases List.mem_append.mp hentry with hold | hnew
  · have hlt := hr.indexed.document_lt hold
    rw [hid, document_of_mem_placed (mem_of_mem_withEarlier hx)] at hlt
    exact Nat.lt_irrefl _ hlt
  · obtain ⟨y, hy, rfl⟩ := List.mem_map.mp hnew
    obtain ⟨hy, hfresh⟩ := List.mem_filter.mp hy
    -- the places of the new declarations differ, so that the two are one
    have hids : (next.map fun x => x.2.1).Nodup := by
      have hplaced : next.map (·.2) = r.placed doc := map_snd_withEarlierFrom [] _
      have hmap := r.nodup_placed doc
      rwa [← hplaced, List.map_map] at hmap
    obtain rfl : y = x := List.inj_on_of_nodup_map hids hy hx hid
    rw [Option.isNone_iff_eq_none] at hfresh
    simp [hfresh] at htaken

/-- Parcelables without fields, of some names in one package, each at a line of its own. -/
def emptyParcelables (file : String) (names : List String) : Document :=
  ⟨[], names.zipIdx.map fun (name, line) =>
    let loc : Location := ⟨file, some ⟨⟨line, 1⟩, ⟨line, 9⟩⟩⟩
    ⟨⟨loc, "p", name, "", {}⟩, .structured none {}⟩⟩

/-- The name of an earlier document is cited from there, and a name that the document itself
repeats from nowhere. -/
theorem addDocument_redefinitions_emptyParcelables :
    let r := (empty.addDocument (emptyParcelables "Item.aidl" ["Item"])).value
    let added := r.addDocument (emptyParcelables "Nodes.aidl" ["Node", "Item", "Node"])
    r.Reachable Document.IsFresh ∧
      added.diagnostics.map (fun d => (d.text, d.related.map (·.location))) =
        [("ERROR: Nodes.aidl:1.1-9: redefinition of type 'p.Item'" ++
            "\n  Item.aidl:0.1-9: previously defined here",
          [⟨"Item.aidl", some ⟨⟨0, 1⟩, ⟨0, 9⟩⟩⟩]),
        ("ERROR: Nodes.aidl:2.1-9: redefinition of type 'p.Node'" ++
            "\n  <unknown>: previously defined here", [⟨"<unknown>", none⟩])] ∧
      added.value.index.map (·.1) = ["p.Item", "p.Node"] := by
  intro r added
  have hr : r.Reachable Document.IsFresh := .addDocument .empty (by decide +kernel)
  obtain ⟨hreports, -, hindex, -⟩ :=
    hr.addDocument_redefinitions (emptyParcelables "Nodes.aidl" ["Node", "Item", "Node"])
  refine ⟨hr, ?_, ?_⟩
  · rw [hreports]
    decide +kernel
  · rw [hindex]
    decide +kernel

end Registry

end InterfaceDefinition
