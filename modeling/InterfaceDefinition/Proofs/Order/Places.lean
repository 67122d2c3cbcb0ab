import InterfaceDefinition.Proofs.Registry.Reachable
import InterfaceDefinition.Proofs.Relocation.Evaluation

/-!
# The places of a permuted document

A document whose declarations are in another order has the same declarations at other positions.
When their names are distinct, the index that it is registered in holds under every name the same
declaration at its other place, whichever of the two orders is registered
(`Registry.sameNames_addDocument`). The documents that were there before name only declarations of
their own, which stay where they are; so the registries are the same up to places once the
declarations of the new documents are (`Registry.Reachable.sameDecls_withDecls`).
-/

namespace InterfaceDefinition

/-! ### Lists in another order -/

/-- A list in another order has its elements at other positions. -/
theorem exists_position_of_perm {α : Type} {l l' : List α} (h : l.Perm l') :
    ∃ σ : Nat → Nat, ∀ i, l'[σ i]? = l[i]? := by
  induction h with
  | nil => exact ⟨id, fun _ => rfl⟩
  | cons a _ ih =>
    obtain ⟨σ, hσ⟩ := ih
    refine ⟨fun i => if i = 0 then 0 else σ (i - 1) + 1, fun i => ?_⟩
    cases i with
    | zero => rfl
    | succ i => simpa using hσ i
  | swap a b l =>
    refine ⟨fun i => if i = 0 then 1 else if i = 1 then 0 else i, fun i => ?_⟩
    rcases i with _ | _ | i <;> simp
  | trans _ _ ih ih' =>
    obtain ⟨σ, hσ⟩ := ih
    obtain ⟨σ', hσ'⟩ := ih'
    exact ⟨σ' ∘ σ, fun i => (hσ' (σ i)).trans (hσ i)⟩

/-- Among distinct keys, an entry is found under its key exactly when it is there. -/
theorem lookup_eq_some_iff_mem {β : Type} {entries : List (String × β)}
    (hnodup : (entries.map (·.1)).Nodup) {key : String} {b : β} :
    entries.lookup key = some b ↔ (key, b) ∈ entries := by
  induction entries with
  | nil => simp
  | cons entry entries ih =>
    obtain ⟨k, c⟩ := entry
    rw [List.map_cons, List.nodup_cons] at hnodup
    obtain ⟨hnew, hnodup⟩ := hnodup
    rw [List.lookup_cons, List.mem_cons, Prod.mk.injEq, ← ih hnodup]
    cases hkey : key == k with
    | false => simp [beq_eq_false_iff_ne.mp hkey]
    | true =>
      obtain rfl := beq_iff_eq.mp hkey
      -- the key is not found again in the rest
      have hrest : entries.lookup key = none := by
        rw [← Option.not_isSome_iff_eq_none, isSome_lookup_iff]
        exact hnew
      simp [hrest, eq_comm]

/-! ### Positions in one document -/

/-- The place, with the position changed if it is in a certain document. -/
def DeclId.moveIn (number : Nat) (σ : Nat → Nat) (id : DeclId) : DeclId :=
  if id.document = number then { id with index := σ id.index } else id

namespace Registry

variable {r : Registry} {σ : Nat → Nat}

/-- The entries of the declarations of a document. -/
def entriesIn (number : Nat) (decls : List Decl) : List (String × DeclRef) :=
  decls.zipIdx.map fun (d, position) => entryOf (⟨number, position⟩, d)

theorem mem_entriesIn_iff {number : Nat} {decls : List Decl} {name : String} {target : DeclRef} :
    (name, target) ∈ entriesIn number decls ↔
      ∃ i d, decls[i]? = some d ∧ d.canonicalName = name ∧ target = ⟨⟨number, i⟩, d.kind⟩ := by
  simp only [entriesIn, entryOf, List.mem_map, Prod.exists, List.mem_zipIdx_iff_getElem?,
    Prod.mk.injEq]
  constructor
  · rintro ⟨d, i, hd, rfl, rfl⟩
    exact ⟨i, d, hd, rfl, rfl⟩
  · rintro ⟨i, d, hd, rfl, rfl⟩
    exact ⟨d, i, hd, rfl, rfl⟩

theorem map_fst_entriesIn (number : Nat) (decls : List Decl) :
    (entriesIn number decls).map (·.1) = decls.map Decl.canonicalName := by
  have hfst : decls.zipIdx.map (·.1) = decls := List.zipIdx_map_fst 0 decls
  calc (entriesIn number decls).map (·.1)
    _ = (decls.zipIdx.map (·.1)).map Decl.canonicalName := by
      simp only [entriesIn, entryOf, List.map_map, Function.comp_def]
    _ = decls.map Decl.canonicalName := by rw [hfst]

/-- What a name stands for once a document is registered: what it did before, or else a declaration
of the document. -/
theorem indexed?_addDocument (r : Registry) (doc : Document) (name : String) :
    (r.addDocument doc).value.indexed? name =
      (r.indexed? name).or ((entriesIn r.documents.length doc.decls).lookup name) := by
  rw [indexed?, index_addDocument, lookup_foldl_noteEntry, List.map_map]
  rfl

/-- What the index holds stays where it is when positions in the next document change. -/
theorem Indexed.relocate_moveIn (h : r.Indexed) {name : String} {target : DeclRef}
    (htarget : r.indexed? name = some target) :
    target.relocate (.moveIn r.documents.length σ) = target := by
  obtain ⟨d, hd, -⟩ := h.exists_decl_of_indexed? htarget
  have hne : target.id.document ≠ r.documents.length :=
    Nat.ne_of_lt (document_lt_of_decl? hd)
  rw [DeclRef.relocate, DeclId.moveIn, if_neg hne]

/-- In an order of distinct names, the index holds the same up to the positions of the order. -/
theorem Indexed.sameNames_addDocument (h : r.Indexed) {doc : Document} {decls : List Decl}
    (hperm : doc.decls.Perm decls) (hnodup : (doc.decls.map Decl.canonicalName).Nodup)
    (hσ : ∀ i, decls[σ i]? = doc.decls[i]?) :
    SameNames (.moveIn r.documents.length σ) (r.addDocument doc).value
      (r.addDocument { doc with decls }).value where
  indexed?_eq name := by
    rw [indexed?_addDocument, indexed?_addDocument]
    cases hold : r.indexed? name with
    | some target => simp [h.relocate_moveIn hold]
    | none =>
      have hnodup' : (decls.map Decl.canonicalName).Nodup :=
        (hperm.map _).nodup_iff.mp hnodup
      rw [← map_fst_entriesIn r.documents.length] at hnodup hnodup'
      rw [Option.none_or, Option.none_or]
      cases hnew : (entriesIn r.documents.length doc.decls).lookup name with
      | some target =>
        rw [lookup_eq_some_iff_mem hnodup, mem_entriesIn_iff] at hnew
        obtain ⟨i, d, hd, rfl, rfl⟩ := hnew
        rw [Option.map_some, lookup_eq_some_iff_mem hnodup', mem_entriesIn_iff]
        refine ⟨σ i, d, (hσ i).trans hd, rfl, ?_⟩
        simp [DeclRef.relocate, DeclId.moveIn]
      | none =>
        -- a name of the one document is a name of the other
        have hkeys : name ∉ doc.decls.map Decl.canonicalName := by
          rw [← map_fst_entriesIn r.documents.length, ← isSome_lookup_iff, hnew]
          simp
        rw [Option.map_none, ← Option.not_isSome_iff_eq_none, isSome_lookup_iff, map_fst_entriesIn,
          ← (hperm.map _).mem_iff]
        exact hkeys

/-! ### The documents before -/

/-- What is faithful stays where it is when positions in the next document change. -/
theorem Indexed.relocate_base_moveIn (h : r.Indexed) {n : TypeName} {typeParams : List String}
    (hfaithful : n.Faithful r typeParams) :
    n.relocate (.moveIn r.documents.length σ) = n := by
  rcases n with ⟨written, _ | ⟨canonicalName, _ | target⟩⟩
  · rfl
  · rfl
  · have htarget : r.indexed? canonicalName = some target := hfaithful _ rfl
    simp [TypeName.relocate, Resolution.relocate, h.relocate_moveIn htarget]

/-- The declarations of a faithful registry name nothing in the next document. -/
theorem Faithful.relocate_decl_moveIn (h : r.Faithful) (hindexed : r.Indexed) {id : DeclId}
    {d : Decl} (hd : r.decl? id = some d) :
    d.relocate (.moveIn r.documents.length σ) = d := by
  obtain ⟨doc, hdoc, hmem⟩ := exists_mem_of_decl? hd
  have hall := h doc hdoc d hmem
  rw [Decl.forall_allNodes_iff] at hall
  refine Decl.relocate_eq_self _ (fun t ht => ?_) fun b hb t ht => ?_
  · exact hindexed.relocate_base_moveIn (hall.1 t ht)
  · exact hindexed.relocate_base_moveIn (hall.2 b hb t ht)

/-! ### The new document -/

theorem document?_addDocument_self (r : Registry) (doc : Document) :
    (r.addDocument doc).value.document? r.documents.length = some doc := by
  simp [document?, documents_addDocument]

/-- A declaration is one of the new document, put back with other declarations, or one that was
there before. -/
theorem decl?_withDecls_addDocument (r : Registry) (doc doc' : Document) (decls : List Decl)
    (id : DeclId) :
    ((r.addDocument doc).value.withDecls r.documents.length doc' decls).decl? id =
      if id.document = r.documents.length then decls[id.index]? else r.decl? id := by
  have hdocuments : ((r.addDocument doc).value.withDecls r.documents.length doc' decls).documents =
      r.documents ++ [{ doc' with decls }] := by
    simp [withDecls, documents_addDocument]
  rw [decl?, document?, hdocuments]
  split
  · next h => simp [h]
  · next h =>
    rw [decl?, document?]
    rcases Nat.lt_or_gt_of_ne h with hlt | hgt
    · rw [List.getElem?_append_left hlt]
    · rw [List.getElem?_eq_none (by simp; omega), List.getElem?_eq_none (Nat.le_of_lt hgt)]

/-- Two orders of one document lead to the same registry up to places, whatever the passes have made
of its declarations, as long as it is the same up to places. -/
theorem Faithful.sameDecls_withDecls (h : r.Faithful) (hindexed : r.Indexed) {doc : Document}
    {decls : List Decl} (hperm : doc.decls.Perm decls)
    (hnodup : (doc.decls.map Decl.canonicalName).Nodup)
    (hσ : ∀ i, decls[σ i]? = doc.decls[i]?) (f : Decl → Decl) :
    let n := r.documents.length
    SameDecls (.moveIn n σ) ((r.addDocument doc).value.withDecls n doc (doc.decls.map f))
      ((r.addDocument { doc with decls }).value.withDecls n doc
        (decls.map fun d => (f d).relocate (.moveIn n σ))) where
  indexed?_eq := (hindexed.sameNames_addDocument hperm hnodup hσ).indexed?_eq
  decl?_eq id := by
    rw [decl?_withDecls_addDocument, decl?_withDecls_addDocument]
    by_cases hnew : id.document = r.documents.length
    · simp [DeclId.moveIn, hnew, hσ, Function.comp_def]
    · rw [if_neg hnew, DeclId.moveIn, if_neg hnew, if_neg hnew]
      cases hd : r.decl? id with
      | none => rfl
      | some d => rw [Option.map_some, h.relocate_decl_moveIn hindexed hd]

end Registry

end InterfaceDefinition
