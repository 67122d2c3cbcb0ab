import InterfaceDefinition.Proofs.Abandonment.Checks
import InterfaceDefinition.Proofs.Registry.Reachable

/-!
# When a validation is abandoned

A validation of a registry that is reachable with documents as they are written is abandoned in
exactly three cases (`Registry.Reachable.validate_abandoned_iff`): there is no such document, a name
in one of the types of its members is resolved already, or resolution and completion succeed and the
check comes to an enum that has no enumerators and no other fault. No other internal error can come
out of it: resolution leaves every name known when it succeeds, completion neither adds nor changes
a node, and what was recorded in an earlier run still denotes a declaration.

Backing types of enums are not read by resolution, but made anew by every completion. So an enum may
be validated again although the name of its backing type has a meaning.
-/

namespace InterfaceDefinition

open Pass Fallible

namespace Registry

variable {r : Registry} {number : Nat} {doc : Document}

/-! ### The two passes -/

/-- Resolution is ended by the first name that is resolved already, and by nothing else. -/
theorem progress_resolveDocument (hdoc : r.document? number = some doc) :
    match doc.nodes.find? (·.base.isResolved) with
    | some t => (r.resolveDocument number).value.2 = .error (.alreadyResolved t.location t.name)
    | none => ∃ b, (r.resolveDocument number).value.2 = .ok b := by
  obtain ⟨decls, progress, ds, hrun, hsteps⟩ := r.resolveDocument_spec hdoc
  rw [hrun]
  exact hsteps.anyResolveSteps.progress_of_ok rfl

/-- Completion of a document that exists is never ended. -/
theorem progress_completeDocument (hdoc : r.document? number = some doc) :
    ∃ b, (r.completeDocument number).value.2 = .ok b := by
  obtain ⟨decls, progress, ds, hrun, hsteps⟩ := r.completeDocument_spec hdoc
  rw [hrun]
  exact hsteps.complete_progress_of_ok rfl

/-- A document that exists is there after resolution. -/
theorem exists_document?_resolveDocument (hdoc : r.document? number = some doc) :
    ∃ doc', (r.resolveDocument number).value.1.document? number = some doc' := by
  obtain ⟨decls, progress, ds, hrun, -⟩ := r.resolveDocument_spec hdoc
  rw [hrun]
  exact ⟨_, document?_withDecls hdoc decls⟩

/-- A faithful meaning is known. -/
theorem Faithful.known (hfaithful : r.Faithful) (hindexed : r.Indexed) {doc : Document}
    (hdoc : doc ∈ r.documents) {d : Decl} (hd : d ∈ doc.decls) {t : TypeSpec} (ht : t ∈ d.nodes)
    (hresolved : t.base.isResolved = true) : t.base.Known r := by
  obtain ⟨resolution, hresolution⟩ := Option.isSome_iff_exists.mp hresolved
  refine ⟨resolution, hresolution, fun target htarget => ?_⟩
  have hmeaning : resolution.Faithful r d.typeParams :=
    hfaithful doc hdoc d hd t (List.mem_append_left _ ht) resolution hresolution
  have htarget : resolution.target = some target := htarget
  rw [Resolution.Faithful, htarget] at hmeaning
  obtain ⟨declared, hdeclared, -⟩ := hindexed.exists_decl_of_indexed? hmeaning
  rw [hdeclared]
  rfl

/-- When both passes have succeeded, the document is there with the same shells, every name in it is
known, and every enum has a backing type. -/
theorem Reachable.known_of_passed (hr : r.Reachable Document.IsFresh)
    (hdoc : r.document? number = some doc)
    (hresolved : (r.resolveDocument number).value.2 = .ok true)
    (hcompleted :
      ((r.resolveDocument number).value.1.completeDocument number).value.2 = .ok true) :
    ∃ after decls,
      ((r.resolveDocument number).value.1.completeDocument number).value.1 = after ∧
      after.document? number = some { doc with decls } ∧
      decls.map Decl.shell = doc.decls.map Decl.shell ∧
      ∀ d ∈ decls, d.members.Known after ∧ (d.kind = .enum → d.backing?.isSome) := by
  have hafter := (hr.resolveDocument number).completeDocument number
  obtain ⟨decls₁, progress₁, ds₁, hrun₁, hsteps₁⟩ := r.resolveDocument_spec hdoc
  rw [hrun₁] at hresolved hcompleted hafter ⊢
  have hdoc₁ := document?_withDecls hdoc decls₁
  obtain ⟨decls₂, progress₂, ds₂, hrun₂, hsteps₂⟩ :=
    (r.withDecls number doc decls₁).completeDocument_spec hdoc₁
  dsimp only at hresolved hcompleted hafter ⊢
  rw [hrun₂] at hcompleted hafter ⊢
  have hdoc₂ := document?_withDecls hdoc₁ decls₂
  -- every node is resolved, and completion has kept the nodes
  have hnodes : decls₂.flatMap Decl.nodes = decls₁.flatMap Decl.nodes := by
    rw [List.flatMap_def, List.flatMap_def, hsteps₂.map_eq fun _ _ _ _ _ hstep => hstep.nodes_eq]
  have hall := (hsteps₁.anyResolveSteps.resolved_of_ok_true hresolved).2
  rw [← hnodes] at hall
  refine ⟨_, decls₂, rfl, hdoc₂, ?_, fun d hd => ⟨fun t ht => ?_, ?_⟩⟩
  · exact (hsteps₂.map_eq fun _ _ _ _ _ hstep => hstep.shell_eq).trans
      (hsteps₁.map_eq fun _ _ _ _ _ hstep => hstep.2.1)
  · have hfaithful := hafter.faithful fun _ hfresh => hfresh
    exact hfaithful.known hafter.indexed (List.mem_of_getElem? hdoc₂) hd ht
      (hall t (List.mem_flatMap.mpr ⟨d, hd, ht⟩))
  · exact (hsteps₂.backing_of_ok_true hcompleted).2 d hd

/-! ### The general check -/

/-- Why the check of hollow enums is abandoned depends on the shells alone. -/
theorem find?_isHollowEnum_of_shells {decls decls' : List Decl}
    (h : decls'.map Decl.shell = decls.map Decl.shell) :
    (decls'.find? Decl.isHollowEnum).map (fun d => InternalError.noEnumerators d.location d.name) =
      (decls.find? Decl.isHollowEnum).map
        fun d => InternalError.noEnumerators d.location d.name := by
  have hfind : ∀ decls : List Decl, (decls.find? Decl.isHollowEnum).map
      (fun d => InternalError.noEnumerators d.location d.name) =
        ((decls.map Decl.shell).find? fun s =>
          s.enumerators?.any (·.isEmpty) && s.hasNoMembers &&
            (s.header.checkAnnotations .enum).value).map
          fun s => InternalError.noEnumerators s.header.location s.header.name := by
    intro decls
    rw [List.find?_map, Option.map_map]
    rfl
  rw [hfind, hfind, h]

/-- When both passes have succeeded, the check of the document is abandoned at its first hollow
enum, and by nothing else. -/
theorem Reachable.checkDocument_eq_error_iff (hr : r.Reachable Document.IsFresh)
    (hdoc : r.document? number = some doc)
    (hresolved : (r.resolveDocument number).value.2 = .ok true)
    (hcompleted :
      ((r.resolveDocument number).value.1.completeDocument number).value.2 = .ok true)
    (e : InternalError) :
    (((r.resolveDocument number).value.1.completeDocument number).value.1.checkDocument
        number).value = .error e ↔
      ∃ d, doc.decls.find? Decl.isHollowEnum = some d ∧ e = .noEnumerators d.location d.name := by
  obtain ⟨after, decls, hafter, hdoc', hshells, hknown⟩ :=
    hr.known_of_passed hdoc hresolved hcompleted
  have hcheck : (after.checkDocument number).value =
      (Document.check after { doc with decls }).run.value := by
    rw [checkDocument, hdoc']
  rw [hafter, hcheck, ← cause?_eq_some_iff, Document.cause?_check hknown,
    find?_isHollowEnum_of_shells hshells, Option.map_eq_some_iff]
  simp only [eq_comm]

/-! ### Validation -/

/-- Only the part of a run that no backend takes part in can be abandoned. -/
theorem validate_eq_error_iff_progress {options : Options} {e : InternalError} :
    (r.validate number options).2 = .error e ↔ (r.checkGenerally number).value.2 = .error e := by
  have hmap : ∃ f : Bool → ValidationReport,
      (r.validate number options).2 = (r.checkGenerally number).value.2.map f := ⟨_, rfl⟩
  obtain ⟨f, hf⟩ := hmap
  rw [hf]
  cases (r.checkGenerally number).value.2 <;> simp [Except.map]

/-- An internal error of resolution is one of the general part. -/
theorem progress_checkGenerally_of_error {e : InternalError}
    (h : (r.resolveDocument number).value.2 = .error e) :
    (r.checkGenerally number).value.2 = .error e := by
  rcases r.checkGenerally_cases number with ⟨-, hrun⟩ | ⟨hok, -⟩ | ⟨hok, -⟩
  · rw [hrun, h]
  · simp [h] at hok
  · simp [h] at hok

/-- When resolution is not ended, the general part can only be abandoned by its check. -/
theorem progress_checkGenerally_eq_error_iff (hdoc : r.document? number = some doc) {b : Bool}
    (hresolve : (r.resolveDocument number).value.2 = .ok b) (e : InternalError) :
    (r.checkGenerally number).value.2 = .error e ↔
      (r.resolveDocument number).value.2 = .ok true ∧
        ((r.resolveDocument number).value.1.completeDocument number).value.2 = .ok true ∧
          (((r.resolveDocument number).value.1.completeDocument number).value.1.checkDocument
            number).value = .error e := by
  obtain ⟨doc', hdoc'⟩ := exists_document?_resolveDocument hdoc
  obtain ⟨b', hcomplete⟩ := progress_completeDocument hdoc'
  rcases r.checkGenerally_cases number with ⟨hne, hrun⟩ | ⟨hok, hne, hrun⟩ | ⟨hok, hok', hrun⟩
  · simp [hrun, hresolve] at hne ⊢
    simp [hne]
  · simp [hrun, hcomplete] at hne ⊢
    simp [hne]
  · simp [hrun, hok, hok']

/-- The internal errors of a validation, each with what it names. -/
theorem Reachable.validate_eq_error_iff (hr : r.Reachable Document.IsFresh) (number : Nat)
    (options : Options) (e : InternalError) :
    (r.validate number options).2 = .error e ↔
      (r.document? number = none ∧ e = .unknownDocument number) ∨
      ∃ doc, r.document? number = some doc ∧
        ((∃ t, doc.nodes.find? (·.base.isResolved) = some t ∧
            e = .alreadyResolved t.location t.name) ∨
          ((r.resolveDocument number).value.2 = .ok true ∧
            ((r.resolveDocument number).value.1.completeDocument number).value.2 = .ok true ∧
            ∃ d, doc.decls.find? Decl.isHollowEnum = some d ∧
              e = .noEnumerators d.location d.name)) := by
  rw [validate_eq_error_iff_progress]
  cases hdoc : r.document? number with
  | none =>
    have hresolve : (r.resolveDocument number).value.2 = .error (.unknownDocument number) := by
      rw [Registry.resolveDocument, runPass_of_none hdoc]
    rw [progress_checkGenerally_of_error hresolve]
    simp [eq_comm]
  | some doc =>
    have hresolve := progress_resolveDocument hdoc
    simp only [reduceCtorEq, false_and, false_or, Option.some.injEq, exists_eq_left']
    cases hfind : doc.nodes.find? (·.base.isResolved) with
    | some t =>
      rw [hfind] at hresolve
      rw [progress_checkGenerally_of_error hresolve, hresolve]
      simp [eq_comm]
    | none =>
      rw [hfind] at hresolve
      obtain ⟨b, hresolve⟩ := hresolve
      simp only [reduceCtorEq, false_and, exists_false, false_or]
      rw [progress_checkGenerally_eq_error_iff hdoc hresolve]
      refine and_congr_right fun hresolved => and_congr_right fun hcompleted => ?_
      exact hr.checkDocument_eq_error_iff hdoc hresolved hcompleted e

/-- **When a validation is abandoned**: where documents are registered as they are written, a
validation ends in an internal error exactly when there is no document of the number, or a name in
the types of the document's members is resolved already (the first such name is reported), or
resolution and completion both succeed and the document contains an enum without enumerators and
without other members whose annotations are valid (the first such enum is reported). So no name is
ever asked for a meaning it does not have, no element type for that of an array, and no backing
annotation for a type it does not name. -/
theorem Reachable.validate_abandoned_iff (hr : r.Reachable Document.IsFresh) (number : Nat)
    (options : Options) :
    (∀ e, (r.validate number options).2 = .error e ↔
      (r.document? number = none ∧ e = .unknownDocument number) ∨
      ∃ doc, r.document? number = some doc ∧
        ((∃ t, doc.nodes.find? (·.base.isResolved) = some t ∧
            e = .alreadyResolved t.location t.name) ∨
          ((r.resolveDocument number).value.2 = .ok true ∧
            ((r.resolveDocument number).value.1.completeDocument number).value.2 = .ok true ∧
            ∃ d, doc.decls.find? Decl.isHollowEnum = some d ∧
              e = .noEnumerators d.location d.name))) ∧
    ∀ e, (r.validate number options).2 = .error e → ∀ loc name,
      e ≠ .unresolved loc name ∧ e ≠ .unknownType loc name ∧ e ≠ .notAnArray loc name ∧
        e ≠ .backingWithoutType loc := by
  refine ⟨hr.validate_eq_error_iff number options, fun e he loc name => ?_⟩
  rcases (hr.validate_eq_error_iff number options e).mp he with
    ⟨-, rfl⟩ | ⟨doc, -, ⟨t, -, rfl⟩ | ⟨-, -, d, -, rfl⟩⟩
  · simp
  · simp
  · simp

/-- A document with an enum that has nothing but a name. -/
def hollowEnum : Document :=
  ⟨[], [⟨⟨⟨"E.aidl", none⟩, "p", "E", "", {}⟩, .enum [] none {}⟩]⟩

/-- A run that is abandoned at the checks: both passes go through, and then the enum is found to
have no enumerators. -/
theorem validate_hollowEnum :
    (empty.addDocument hollowEnum).value.Reachable Document.IsFresh ∧
      ((empty.addDocument hollowEnum).value.validate 0 {}).2 =
        .error (.noEnumerators ⟨"E.aidl", none⟩ "E") := by
  have hr : (empty.addDocument hollowEnum).value.Reachable Document.IsFresh :=
    .addDocument .empty (by decide +kernel)
  have hresolved : ((empty.addDocument hollowEnum).value.resolveDocument 0).value.2 = .ok true := by
    rfl
  have hcompleted :
      (((empty.addDocument hollowEnum).value.resolveDocument 0).value.1.completeDocument
        0).value.2 = .ok true := by
    rfl
  refine ⟨hr, ((hr.validate_abandoned_iff 0 {}).1 _).mpr (.inr ⟨hollowEnum, rfl, .inr ?_⟩)⟩
  exact ⟨hresolved, hcompleted, _, rfl, rfl⟩

/-- A document with an enum that has one enumerator. -/
def plainEnum : Document :=
  let loc : Location := ⟨"E.aidl", none⟩
  ⟨[], [⟨⟨loc, "p", "E", "", {}⟩, .enum [⟨loc, "A", none, ""⟩] none {}⟩]⟩

/-- The backing type of an enum does not end a second run, though the first has left it resolved:
completion makes it anew. So a document without any other type can be validated twice. -/
theorem validate_again_plainEnum :
    let r := ((empty.addDocument plainEnum).value.validate 0 {}).1
    r.Reachable Document.IsFresh ∧
      (∃ doc, r.document? 0 = some doc ∧
        ∃ d ∈ doc.decls, ∃ t ∈ d.allNodes, t.base.isResolved = true) ∧
      ∃ report, (r.validate 0 {}).2 = .ok report := by
  intro r
  have hr : r.Reachable Document.IsFresh :=
    .validate 0 {} (.addDocument .empty (by decide +kernel))
  refine ⟨hr, ?_, ?_⟩
  · have hdoc : (r.document? 0).any (fun doc => doc.decls.any fun d => d.allNodes.any fun t =>
        t.base.isResolved) = true := by decide +kernel
    simpa [Option.any_eq_true, and_left_comm] using hdoc
  · have hok : (r.validate 0 {}).2.toOption.isSome = true := by decide +kernel
    obtain ⟨report, hreport⟩ := Option.isSome_iff_exists.mp hok
    cases h : (r.validate 0 {}).2 with
    | error e => simp [h, Except.toOption] at hreport
    | ok report => exact ⟨report, rfl⟩

end Registry

end InterfaceDefinition
