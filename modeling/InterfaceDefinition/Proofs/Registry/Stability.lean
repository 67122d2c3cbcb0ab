import InterfaceDefinition.Proofs.Registry.Imports
import InterfaceDefinition.Proofs.Registry.Redefinitions

/-!
# Names in a growing registry

What a name stands for in a package once another document is registered. The index keeps what it
holds and gets the first declarations of the names that are new
(`Registry.Indexed.indexed?_registered`), so a name that has a meaning never loses it. Since a
package is looked into before the name is taken by itself, the meaning can change in one way alone:
the document is the first to declare the name below the package (`Registry.Captures`), and the name
then means that declaration (`Registry.Reachable.addDocument_stable`). Meanings that are recorded
already are not looked up again, and none of them changes.
-/

namespace InterfaceDefinition

namespace Registry

variable {r : Registry} {doc : Document} {package name : String}

/-! ### The index of a registry with one more document -/

/-- The index holds nothing under a name that no declaration has. -/
theorem Indexed.indexed?_eq_none_iff (h : r.Indexed) :
    r.indexed? name = none ↔ ∀ x ∈ r.declarations, x.2.canonicalName ≠ name := by
  rw [h.indexed?_eq, Option.map_eq_none_iff, List.find?_eq_none]
  simp

/-- Once a document is registered, a name stands for what it did before, or else for the first
declaration of the name in the document. -/
theorem Indexed.indexed?_registered (h : r.Indexed) (doc : Document) (name : String) :
    (r.addDocument doc).value.indexed? name =
      (r.indexed? name).or
        ((firstNamed? (r.placed doc) name).map fun (id, d) => ⟨id, d.kind⟩) := by
  rw [(h.addDocument doc).indexed?_eq, h.indexed?_eq, declarations_addDocument,
    List.find?_append, Option.map_or]
  rfl

theorem firstNamed?_placed_eq_none_iff :
    firstNamed? (r.placed doc) name = none ↔ ∀ d ∈ doc.decls, d.canonicalName ≠ name := by
  have hdecls : (r.placed doc).map (·.2) = doc.decls := by
    rw [placed, placedFrom, List.map_map]
    exact List.zipIdx_map_fst 0 doc.decls
  rw [firstNamed?, List.find?_eq_none, ← hdecls, List.forall_mem_map]
  simp

/-- Registration keeps what a name stands for by itself. -/
theorem Indexed.lookup?_registered (h : r.Indexed) (doc : Document) {found : String × DeclRef}
    (hfound : r.lookup? "" name = some found) :
    (r.addDocument doc).value.lookup? "" name = some found := by
  rw [lookup?_empty] at hfound ⊢
  obtain ⟨target, htarget, rfl⟩ := Option.map_eq_some_iff.mp hfound
  rw [h.indexed?_registered, htarget, Option.some_or, Option.map_some]

/-! ### Captured names -/

/-- A document captures a name that is written in a package: the name is not builtin, there is a
package below which the document declares it, and no declaration of the registry has that name
yet. -/
def Captures (r : Registry) (doc : Document) (package name : String) : Prop :=
  package ≠ "" ∧ Vocabulary.isBuiltin name = false ∧
    (∃ d ∈ doc.decls, d.canonicalName = package ++ "." ++ name) ∧
      ∀ x ∈ r.declarations, x.2.canonicalName ≠ package ++ "." ++ name

instance (r : Registry) (doc : Document) (package name : String) :
    Decidable (r.Captures doc package name) :=
  inferInstanceAs (Decidable (_ ∧ _ ∧ _ ∧ _))

/-- A document that captures a name has a first declaration of it below the package, where the
index holds nothing yet. -/
theorem Indexed.captures_iff (h : r.Indexed) (hpackage : package ≠ "")
    (hbuiltin : Vocabulary.isBuiltin name = false) :
    r.Captures doc package name ↔
      r.indexed? (package ++ "." ++ name) = none ∧
        ∃ first, firstNamed? (r.placed doc) (package ++ "." ++ name) = some first := by
  have hdeclared : (∃ d ∈ doc.decls, d.canonicalName = package ++ "." ++ name) ↔
      ∃ first, firstNamed? (r.placed doc) (package ++ "." ++ name) = some first := by
    rw [← Option.ne_none_iff_exists', Ne, firstNamed?_placed_eq_none_iff]
    simp
  rw [Captures, hdeclared, ← h.indexed?_eq_none_iff]
  exact ⟨fun ⟨_, _, hfirst, hnone⟩ => ⟨hnone, hfirst⟩,
    fun ⟨hnone, hfirst⟩ => ⟨hpackage, hbuiltin, hfirst, hnone⟩⟩

/-- A name that is looked up in a package keeps its meaning unless the document captures it. -/
theorem Indexed.lookup?_of_not_captures (h : r.Indexed) {found : String × DeclRef}
    (hfound : r.lookup? package name = some found)
    (hbuiltin : Vocabulary.isBuiltin name = false) (hfree : ¬ r.Captures doc package name) :
    (r.addDocument doc).value.lookup? package name = some found := by
  by_cases hpackage : package = ""
  · subst hpackage
    exact h.lookup?_registered doc hfound
  rw [h.captures_iff hpackage hbuiltin] at hfree
  rw [lookup?_of_package _ hpackage] at hfound ⊢
  rw [h.indexed?_registered]
  cases hqualified : r.indexed? (package ++ "." ++ name) with
  | some target =>
    rw [hqualified] at hfound
    exact hfound
  | none =>
    rw [hqualified] at hfound
    have hfirst : firstNamed? (r.placed doc) (package ++ "." ++ name) = none := by
      rw [← Option.not_isSome_iff_eq_none, Option.isSome_iff_exists]
      exact fun hfirst => hfree ⟨hqualified, hfirst⟩
    rw [hfirst]
    exact h.lookup?_registered doc hfound

/-- A captured name means the first declaration of the document below the package. -/
theorem Indexed.resolveIn_of_captures (h : r.Indexed) (hcaptured : r.Captures doc package name) :
    ∃ first, firstNamed? (r.placed doc) (package ++ "." ++ name) = some first ∧
      (r.addDocument doc).value.resolveIn package name =
        some ⟨package ++ "." ++ name, some ⟨first.1, first.2.kind⟩⟩ := by
  obtain ⟨hpackage, hbuiltin, -⟩ := id hcaptured
  obtain ⟨hnone, first, hfirst⟩ := (h.captures_iff hpackage hbuiltin).mp hcaptured
  refine ⟨first, hfirst, ?_⟩
  rw [resolveIn, if_neg (by simp [hbuiltin]), lookup?_of_package _ hpackage,
    h.indexed?_registered, hnone, hfirst]
  rfl

/-- What is captured meant a type of another name before: the name below the package was free. -/
theorem Indexed.canonicalName_ne_of_captures (h : r.Indexed)
    (hcaptured : r.Captures doc package name) {resolution : Resolution}
    (hresolution : r.resolveIn package name = some resolution) :
    resolution.canonicalName ≠ package ++ "." ++ name := by
  obtain ⟨hpackage, hbuiltin, -⟩ := id hcaptured
  obtain ⟨hnone, -⟩ := (h.captures_iff hpackage hbuiltin).mp hcaptured
  rw [resolveIn, if_neg (by simp [hbuiltin]), lookup?_of_package _ hpackage, hnone,
    lookup?_empty] at hresolution
  obtain ⟨found, hfound, rfl⟩ := Option.map_eq_some_iff.mp hresolution
  obtain ⟨target, -, rfl⟩ := Option.map_eq_some_iff.mp (by simpa using hfound)
  exact Ne.symm (by simp)

/-! ### Meanings over time -/

/-- **Meanings are stable**: when a document is added to a reachable registry, every name that has a
meaning in a package still has one, and it is another one exactly if the document captures the name;
it then is the first declaration of the name below the package in the document. All documents stay
as they are with every meaning that is recorded in them, the new one included, and a recorded
meaning leads to the declaration that it led to before. -/
theorem Reachable.addDocument_stable {Admitted : Document → Prop} (hr : r.Reachable Admitted)
    (doc : Document) :
    let later := (r.addDocument doc).value
    (∀ package name resolution, r.resolveIn package name = some resolution →
      ∃ found, later.resolveIn package name = some found ∧
        (found ≠ resolution ↔ r.Captures doc package name) ∧
        (r.Captures doc package name →
          ∃ first, firstNamed? (r.placed doc) (package ++ "." ++ name) = some first ∧
            found = ⟨package ++ "." ++ name, some ⟨first.1, first.2.kind⟩⟩)) ∧
    (∀ number old, r.document? number = some old → later.document? number = some old) ∧
    later.document? r.documents.length = some doc ∧
    ∀ (n : TypeName) (d : Decl), r.named? n = some d → later.named? n = some d := by
  intro later
  have hold : ∀ number old, r.document? number = some old →
      later.document? number = some old := by
    intro number old hdoc
    rw [document?, documents_addDocument]
    exact List.getElem?_append_left (List.getElem?_eq_some_iff.mp hdoc).1 ▸ hdoc
  refine ⟨fun package name resolution hresolution => ?_, hold, ?_, fun n d hd => ?_⟩
  · by_cases hcaptured : r.Captures doc package name
    · obtain ⟨first, hfirst, hfound⟩ := hr.indexed.resolveIn_of_captures hcaptured
      have hne := hr.indexed.canonicalName_ne_of_captures hcaptured hresolution
      exact ⟨_, hfound, iff_of_true (fun heq => hne (heq ▸ rfl)) hcaptured,
        fun _ => ⟨first, hfirst, rfl⟩⟩
    · refine ⟨resolution, ?_, iff_of_false (fun hne => hne rfl) hcaptured,
        fun h => absurd h hcaptured⟩
      cases hbuiltin : Vocabulary.isBuiltin name with
      | true =>
        rw [resolveIn, if_pos hbuiltin] at hresolution ⊢
        exact hresolution
      | false =>
        rw [resolveIn, if_neg (by simp [hbuiltin])] at hresolution ⊢
        obtain ⟨found, hfound, rfl⟩ := Option.map_eq_some_iff.mp hresolution
        rw [hr.indexed.lookup?_of_not_captures hfound hbuiltin hcaptured, Option.map_some]
  · rw [document?, documents_addDocument, List.getElem?_concat_length]
  · obtain ⟨target, htarget, hdecl⟩ := Option.bind_eq_some_iff.mp hd
    obtain ⟨old, hdoc, hmem⟩ := Option.bind_eq_some_iff.mp hdecl
    rw [named?, htarget, Option.bind_some, decl?, hold _ old hdoc, Option.bind_some]
    exact hmem

/-- A nested package captures a full name in the package around it. What was read before keeps its
meaning, and so does the name in other packages. -/
theorem addDocument_stable_nestedItem :
    let neighbours := ((empty.addDocument (itemIn "q")).value.addDocument importing).value
    let r := (neighbours.resolveDocument 1).value.1
    let later := (r.addDocument (itemIn "p.q")).value
    let item : Resolution := ⟨"q.Item", some ⟨⟨0, 0⟩, .structured⟩⟩
    r.Reachable Document.IsFresh ∧ r.resolveIn "p" "q.Item" = some item ∧
      later.resolveIn "p" "q.Item" = some ⟨"p.q.Item", some ⟨⟨2, 0⟩, .structured⟩⟩ ∧
      later.resolveIn "q" "Item" = some item ∧
      (later.document? 1).map (fun doc => doc.nodes.map (·.base)) =
        some [⟨"Item", some item⟩] := by
  intro neighbours r later item
  have hr : r.Reachable Document.IsFresh :=
    .resolveDocument 1 (.addDocument (.addDocument .empty (by decide +kernel)) (by decide +kernel))
  obtain ⟨hnames, hold, -, -⟩ := hr.addDocument_stable (itemIn "p.q")
  have hbefore : r.resolveIn "p" "q.Item" = some item := by decide +kernel
  refine ⟨hr, hbefore, ?_, ?_, ?_⟩
  · obtain ⟨found, hfound, -, hcaptured⟩ := hnames "p" "q.Item" item hbefore
    obtain ⟨first, hfirst, rfl⟩ := hcaptured (by decide +kernel)
    have hplace : (firstNamed? (r.placed (itemIn "p.q")) "p.q.Item").map
        (fun x => DeclRef.mk x.1 x.2.kind) = some ⟨⟨2, 0⟩, .structured⟩ := by decide +kernel
    have hname : "p" ++ "." ++ "q.Item" = "p.q.Item" := by decide +kernel
    rw [hname] at hfirst hfound
    rw [hfirst] at hplace
    have hplace : DeclRef.mk first.1 first.2.kind = _ := Option.some.inj hplace
    rw [hfound, hplace]
  · obtain ⟨found, hfound, hchanged, -⟩ := hnames "q" "Item" item (by decide +kernel)
    have hfree : ¬ r.Captures (itemIn "p.q") "q" "Item" := by decide +kernel
    rw [hfound, not_not.mp (mt hchanged.mp hfree)]
  · have hdoc : (r.document? 1).map (fun doc => doc.nodes.map (·.base)) =
        some [⟨"Item", some item⟩] := by decide +kernel
    obtain ⟨doc, hread, hnodes⟩ := Option.map_eq_some_iff.mp hdoc
    rw [hold 1 doc hread, Option.map_some, hnodes]

end Registry

end InterfaceDefinition
