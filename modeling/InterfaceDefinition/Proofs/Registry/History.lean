import InterfaceDefinition.Proofs.Independence.Passes

/-!
# Registries over time

What happens to a registry changes little of the declarations that it has. Each keeps its place, its
shell and its expressions, and one whose types are resolved is not changed at all any more, unless
it is an enum (`Decl.Becomes`): a second resolution ends at the first name. So a registry only grows
(`Registry.Grows`), whatever is registered, resolved, completed or validated, and with whatever
outcome.

A history of a registry is a way in which it came about, with the documents that were reported valid
on it (`Registry.History`). They were so at different times, in registries that held less. What a
positive validation shows of the declarations of its document, and growth keeps, is true in the end
of the declarations of all these documents (`Registry.History.everyDecl`).
-/

namespace InterfaceDefinition

open Pass

/-! ### Resolved types -/

namespace TypeSpec

mutual

/-- Nothing is resolved once the pass has ended. -/
theorem run_resolve_error (resolver : Resolver) (e : InternalError) :
    (t : TypeSpec) → (t.resolve resolver).run (.error e) = ⟨(t, .error e), []⟩
  | ⟨loc, base, arguments, isArray, annotations, comments⟩ => by
    rw [resolve, run_bind, run_bind]
    simp only [run_guarded_error, run_pure, run_resolveAll_error resolver e arguments,
      List.append_nil]

theorem run_resolveAll_error (resolver : Resolver) (e : InternalError) :
    (ts : List TypeSpec) → (resolveAll resolver ts).run (.error e) = ⟨(ts, .error e), []⟩
  | [] => by rw [resolveAll, run_pure]
  | t :: rest => by
    rw [resolveAll, run_bind, run_bind]
    simp only [run_pure, run_resolve_error resolver e t, run_resolveAll_error resolver e rest,
      List.append_nil]

end

/-- A type with a resolved name stays as it is: its name ends the pass before its arguments. -/
theorem keeping_resolve {t : TypeSpec} (h : t.base.isResolved = true) (resolver : Resolver) :
    Takes (Keeping id) t (t.resolve resolver) := by
  obtain ⟨loc, base, arguments, isArray, annotations, comments⟩ := t
  intro p
  cases p with
  | error e => rw [run_resolve_error, Keeping]
  | ok b =>
    rw [resolve, run_bind, run_bind, Keeping]
    simp only [run_guarded_ok, run_resolveName_of_resolved h, run_resolveAll_error, run_pure, id]

end TypeSpec

/-! ### Declarations over time -/

namespace Decl

theorem mapTypes_id (d : Decl) : d.mapTypes id = d := by
  have hmembers : ∀ ms : Members, ms.mapTypes id = ms :=
    fun _ => Members.mapTypes_eq_self _ fun _ _ => rfl
  obtain ⟨header, body⟩ := d
  cases body <;> simp only [mapTypes, hmembers]

/-- Completion changes nothing but enums. -/
theorem CompleteStep.eq_of_kind {r : Registry} {imports : List Import} {d d' : Decl}
    {p p' : Progress} {ds : List Diagnostic} (h : CompleteStep r imports d p d' p' ds)
    (hkind : d.kind ≠ .enum) : d' = d := by
  cases h with
  | ended => rfl
  | other => rfl
  | invalid => rfl
  | filled _ hbody => exact absurd (by rw [Decl.kind, hbody]) hkind

/-- A declaration that the passes have nothing to add to. -/
structure IsSettled (d : Decl) : Prop where
  kind : d.kind ≠ .enum
  isResolved : ∀ t ∈ d.typeSpecs, t.base.isResolved = true

/-- What a declaration may become: its shell stays, and so do its expressions, and all of it if it
is settled. -/
structure Becomes (d d' : Decl) : Prop where
  shell : d'.shell = d.shell
  exprs : d'.exprs = d.exprs
  settled : d.IsSettled → d' = d

variable {d d' d'' : Decl}

/-- A declaration that a pass leaves alone becomes itself. -/
theorem Becomes.refl (d : Decl) : d.Becomes d :=
  ⟨rfl, rfl, fun _ => rfl⟩

/-- What is recorded once stays, so two passes in turn take a declaration as far as both. -/
theorem Becomes.trans (h : d.Becomes d') (h' : d'.Becomes d'') : d.Becomes d'' := by
  refine ⟨h'.shell.trans h.shell, h'.exprs.trans h.exprs, fun hsettled => ?_⟩
  obtain rfl := h.settled hsettled
  exact h'.settled hsettled

/-- The expressions are no matter of what a pass writes. -/
theorem exprs_outline (pass : DocumentPass) (d : Decl) : (pass.outline d).exprs = d.exprs := by
  have hmembers : ∀ ms : Members, ((ms.mapTypes TypeSpec.unresolved).constants.map (·.value)) =
      ms.constants.map (·.value) := by
    intro ms
    simp [Members.mapTypes, Function.comp_def, Constant.mapType]
  obtain ⟨header, body⟩ := d
  cases pass with
  | resolution =>
    cases body with
    | parcelable => rfl
    | structured _ ms => exact congrArg (· ++ _) (hmembers ms)
    | union _ ms => exact congrArg (· ++ _) (hmembers ms)
    | enum _ _ ms => exact congrArg (· ++ _) (hmembers ms)
    | interface _ ms => exact congrArg (· ++ _) (hmembers ms)
  | completion => cases body <;> rfl

/-- What a step of resolution or completion makes of a declaration. -/
theorem becomes_step (pass : DocumentPass) (r : Registry) (imports : List Import) (d : Decl) :
    Takes (fun d _ d' _ _ => d.Becomes d') d (guarded d (pass.step r imports d)) := by
  have hexprs := pass.takes_step_outline r imports d
  refine fun p => ⟨pass.takes_step_shell r imports d p, ?_, fun hsettled => ?_⟩
  · rw [← exprs_outline pass, hexprs p, exprs_outline]
  cases pass with
  | resolution =>
    have htypes : ∀ t ∈ d.typeSpecs, Takes (Keeping id) t
        (t.resolve (r.resolver imports d.header.package d.typeParams)) :=
      fun t ht => TypeSpec.keeping_resolve (hsettled.isResolved t ht) _
    have hresolve : Takes (Keeping (mapTypes id)) d (d.resolve r imports) :=
      mapTypes_mapTypesM htypes
    have hkept := hresolve.guarded (fun _ => rfl) p
    rwa [Keeping, mapTypes_id, mapTypes_id] at hkept
  | completion => exact (d.takes_complete r imports p).eq_of_kind hsettled.kind

end Decl

/-! ### Registries over time -/

/-- What every step shows of its element and of what it makes of it is so at every position. -/
theorem Pass.Steps.rel_getElem? {α : Type} {R : StepRel α} {S : α → α → Prop}
    (hR : ∀ a p b p' ds, R a p b p' ds → S a b) {as bs : List α} {p p' : Progress}
    {ds : List Diagnostic} (h : Steps R as p bs p' ds) (position : Nat) :
    Option.Rel S as[position]? bs[position]? := by
  induction h generalizing position with
  | nil => exact .none
  | cons head _ ih =>
    cases position with
    | zero => exact .some (hR _ _ _ _ _ head)
    | succ position => exact ih position

namespace Registry

/-- A later registry: it has what each declaration has become, at the same place, and in the
documents that were there no others. -/
structure Grows (r r' : Registry) : Prop where
  length_le : r.documents.length ≤ r'.documents.length
  rel_decl? : ∀ id : DeclId, id.document < r.documents.length →
    Option.Rel Decl.Becomes (r.decl? id) (r'.decl? id)

section Grows

variable {r r' r'' : Registry} {id : DeclId} {d d' : Decl}

theorem Grows.refl (r : Registry) : r.Grows r where
  length_le := Nat.le_refl _
  rel_decl? id _ := by
    cases r.decl? id with
    | none => exact .none
    | some d => exact .some (.refl d)

/-- A registry that has grown twice has grown. -/
theorem Grows.trans (h : r.Grows r') (h' : r'.Grows r'') : r.Grows r'' where
  length_le := Nat.le_trans h.length_le h'.length_le
  rel_decl? id hid := by
    have hfirst := h.rel_decl? id hid
    have hsecond := h'.rel_decl? id (Nat.lt_of_lt_of_le hid h.length_le)
    revert hfirst hsecond
    generalize r.decl? id = o, r'.decl? id = o', r''.decl? id = o''
    rintro (hd | _) (hd' | _)
    · exact .some (hd.trans hd')
    · exact .none

/-- Every declaration has become one at its place. -/
theorem Grows.exists_later (h : r.Grows r') (hd : r.decl? id = some d) :
    ∃ d', r'.decl? id = some d' ∧ d.Becomes d' := by
  have hrel := h.rel_decl? id (document_lt_of_decl? hd)
  rw [hd] at hrel
  cases hlater : r'.decl? id with
  | none => simp [hlater] at hrel
  | some d' => exact ⟨d', rfl, by simpa [hlater] using hrel⟩

/-- Every declaration of a document that was there is what one at its place has become. -/
theorem Grows.exists_earlier (h : r.Grows r') (hid : id.document < r.documents.length)
    (hd' : r'.decl? id = some d') : ∃ d, r.decl? id = some d ∧ d.Becomes d' := by
  have hrel := h.rel_decl? id hid
  rw [hd'] at hrel
  cases hearlier : r.decl? id with
  | none => simp [hearlier] at hrel
  | some d => exact ⟨d, rfl, by simpa [hearlier] using hrel⟩

/-- A new document comes behind the others, and the index keeps its entries. -/
theorem grows_addDocument (r : Registry) (doc : Document) : r.Grows (r.addDocument doc).value where
  length_le := by simp [documents_addDocument]
  rel_decl? id hid := by
    have hdecl : (r.addDocument doc).value.decl? id = r.decl? id := by
      rw [decl?, decl?, document?, document?, documents_addDocument, List.getElem?_append_left hid]
    rw [hdecl]
    exact (Grows.refl r).rel_decl? id hid

/-- A pass over one document takes its declarations further and leaves the others alone. -/
theorem grows_withDecls {number : Nat} {doc : Document} {decls : List Decl}
    (hdoc : r.document? number = some doc)
    (hdecls : ∀ position : Nat, Option.Rel Decl.Becomes doc.decls[position]? decls[position]?) :
    r.Grows (r.withDecls number doc decls) where
  length_le := by simp [withDecls]
  rel_decl? id hid := by
    by_cases hnumber : id.document = number
    · rw [decl?, decl?, hnumber, document?_withDecls hdoc, hdoc]
      exact hdecls id.index
    · have hdecl : (r.withDecls number doc decls).decl? id = r.decl? id := by
        rw [decl?, decl?, (r.agreeBut_withDecls number doc decls).document?_eq _ hnumber]
      rw [hdecl]
      exact (Grows.refl r).rel_decl? id hid

/-- A run of a pass over a document, whatever its outcome, lets the registry grow. -/
theorem grows_run (pass : DocumentPass) (r : Registry) (number : Nat) :
    r.Grows (pass.run r number).value.1 := by
  rw [pass.run_eq_runPass]
  cases hdoc : r.document? number with
  | none =>
    rw [runPass_of_none hdoc]
    exact .refl r
  | some doc =>
    obtain ⟨decls, progress, ds, hrun, hsteps⟩ := runPass_spec
      (R := fun _ => fun d _ d' _ _ => d.Becomes d') (Decl.becomes_step pass r) hdoc
    rw [hrun]
    exact grows_withDecls hdoc (hsteps.rel_getElem? (S := Decl.Becomes) fun _ _ _ _ _ h => h)

/-- Whatever its result is, a validation only runs passes. -/
theorem grows_validate (r : Registry) (number : Nat) (options : Options) :
    r.Grows (r.validate number options).1 := by
  have hresolve : r.Grows (r.resolveDocument number).value.1 :=
    grows_run .resolution r number
  rcases r.validate_fst_cases number options with heq | heq
  · rw [heq]
    exact hresolve
  · rw [heq]
    exact hresolve.trans (grows_run .completion _ number)

end Grows

/-! ### Declarations of some documents -/

/-- A property holds of every declaration of some documents, all of which are there. -/
def EveryDecl (Q : Registry → Decl → Prop) (numbers : List Nat) (r : Registry) : Prop :=
  ∀ number ∈ numbers, ∃ doc, r.document? number = some doc ∧ ∀ d ∈ doc.decls, Q r d

section EveryDecl

variable {Q : Registry → Decl → Prop} {numbers : List Nat} {r r' : Registry}

theorem EveryDecl.of_decl? (h : r.EveryDecl Q numbers) {id : DeclId} {d : Decl}
    (hid : id.document ∈ numbers) (hd : r.decl? id = some d) : Q r d := by
  obtain ⟨doc, hdoc, hall⟩ := h id.document hid
  rw [decl?, hdoc] at hd
  exact hall d (List.mem_of_getElem? hd)

/-- What growth keeps of a declaration stays true of the documents. -/
theorem EveryDecl.grow
    (hgrow : ∀ {r r' : Registry} {d d' : Decl}, r.Grows r' → d.Becomes d' → Q r d → Q r' d')
    (h : r.EveryDecl Q numbers) (hr : r.Grows r') : r'.EveryDecl Q numbers := by
  intro number hnumber
  obtain ⟨doc, hdoc, hall⟩ := h number hnumber
  have hlt : number < r.documents.length := (List.getElem?_eq_some_iff.mp hdoc).1
  have hdoc' := List.getElem?_eq_getElem (Nat.lt_of_lt_of_le hlt hr.length_le)
  refine ⟨_, hdoc', fun d' hd' => ?_⟩
  -- the document has no declarations but those that were there
  obtain ⟨position, hposition⟩ := List.getElem?_of_mem hd'
  have hdecl : r'.decl? ⟨number, position⟩ = some d' := by
    rw [decl?, document?, hdoc']
    exact hposition
  obtain ⟨d, hd, hbecomes⟩ := hr.exists_earlier hlt hdecl
  rw [decl?, hdoc] at hd
  exact hgrow hr hbecomes (hall d (List.mem_of_getElem? hd))

end EveryDecl

/-! ### Histories -/

/-- A way in which a registry came about while only admitted documents were registered, with the
numbers of the documents that were reported valid. -/
inductive History (Admitted : Document → Prop) : Registry → List Nat → Prop
  | empty : History Admitted empty []
  | addDocument {r : Registry} {valid : List Nat} {doc : Document} (h : History Admitted r valid)
      (hdoc : Admitted doc) : History Admitted (r.addDocument doc).value valid
  | resolveDocument {r : Registry} {valid : List Nat} (number : Nat)
      (h : History Admitted r valid) :
      History Admitted (r.resolveDocument number).value.1 valid
  | completeDocument {r : Registry} {valid : List Nat} (number : Nat)
      (h : History Admitted r valid) :
      History Admitted (r.completeDocument number).value.1 valid
  /-- A validation of any outcome. -/
  | validate {r : Registry} {valid : List Nat} (number : Nat) (options : Options)
      (h : History Admitted r valid) : History Admitted (r.validate number options).1 valid
  /-- A validation that reports its document valid. -/
  | accept {r : Registry} {valid : List Nat} (number : Nat) (options : Options)
      (h : History Admitted r valid) {report : ValidationReport}
      (hreport : (r.validate number options).2 = .ok report) (hvalid : report.valid = true) :
      History Admitted (r.validate number options).1 (number :: valid)

namespace History

variable {Admitted : Document → Prop} {r : Registry} {valid : List Nat}

/-- A history in which some documents were found valid is a history of the registry. -/
theorem reachable (h : r.History Admitted valid) : r.Reachable Admitted := by
  induction h with
  | empty => exact .empty
  | addDocument _ hdoc ih => exact .addDocument ih hdoc
  | resolveDocument number _ ih => exact .resolveDocument number ih
  | completeDocument number _ ih => exact .completeDocument number ih
  | validate number options _ ih => exact .validate number options ih
  | accept number options _ _ _ ih => exact .validate number options ih

/-- A registry has a history exactly if it is reachable. -/
theorem exists_iff_reachable : (∃ valid, r.History Admitted valid) ↔ r.Reachable Admitted := by
  refine ⟨fun ⟨_, h⟩ => h.reachable, fun h => ⟨[], ?_⟩⟩
  induction h with
  | empty => exact .empty
  | addDocument _ hdoc ih => exact .addDocument ih hdoc
  | resolveDocument number _ ih => exact .resolveDocument number ih
  | completeDocument number _ ih => exact .completeDocument number ih
  | validate number options _ ih => exact .validate number options ih

/-- A document is accepted when the run on it gives a positive report. -/
theorem accept_of_toOption (h : r.History Admitted valid) (number : Nat) (options : Options)
    (hvalid : (r.validate number options).2.toOption.map (·.valid) = some true) :
    (r.validate number options).1.History Admitted (number :: valid) := by
  obtain ⟨report, hreport, hvalid⟩ := Option.map_eq_some_iff.mp hvalid
  exact h.accept number options (toOption_eq_some_iff.mp hreport) hvalid

/-- What a positive validation shows of every declaration of its document, and growth keeps, is true
of all declarations of the documents that were reported valid. -/
theorem everyDecl {Q : Registry → Decl → Prop} (h : r.History Admitted valid)
    (haccept : ∀ {r : Registry} {number : Nat} {options : Options} {report : ValidationReport},
      r.Reachable Admitted → (r.validate number options).2 = .ok report → report.valid = true →
        ∃ doc, (r.validate number options).1.document? number = some doc ∧
          ∀ d ∈ doc.decls, Q (r.validate number options).1 d)
    (hgrow : ∀ {r r' : Registry} {d d' : Decl}, r.Grows r' → d.Becomes d' → Q r d → Q r' d') :
    r.EveryDecl Q valid := by
  induction h with
  | empty => exact fun _ hnumber => absurd hnumber List.not_mem_nil
  | addDocument _ _ ih => exact ih.grow hgrow (grows_addDocument _ _)
  | resolveDocument number _ ih => exact ih.grow hgrow (grows_run .resolution _ number)
  | completeDocument number _ ih => exact ih.grow hgrow (grows_run .completion _ number)
  | validate number options _ ih => exact ih.grow hgrow (grows_validate _ number options)
  | accept number options h hreport hvalid ih =>
    have hothers := ih.grow hgrow (grows_validate _ number options)
    exact List.forall_mem_cons.mpr ⟨haccept h.reachable hreport hvalid, hothers⟩

end History

end Registry

end InterfaceDefinition
