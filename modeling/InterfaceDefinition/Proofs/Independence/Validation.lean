import InterfaceDefinition.Proofs.Independence.Passes
import InterfaceDefinition.Proofs.Relocation.Checks
import InterfaceDefinition.Proofs.Verdict.Validation

/-!
# Validations of different documents

A validation writes its own document, and there only what the two passes write
(`Registry.map_written_validate`). So the validations of two documents lead to the same registry in
both orders. Their results may differ, because the checks read other documents: the shells of
declarations, which no validation changes (`Registry.shells_validate`), and the constants that the
values written in a document make evaluation look up, whose types are only known after the
validation of *their* document. An enumerator that is looked up before its enum has a backing type
is not found at all, so a document can be invalid before another one is validated and valid after
that.

That is all that can differ (`Registry.validate_exchange`): a validation has the same result before
and after another one if what is looked up for its values is read the same. For a constant that is
no enumerator this is a matter of its type alone, since its value and scope are as they are written
(`Registry.constant?_rel_validate`).
-/

namespace InterfaceDefinition

/-- What is written of a declaration that is no enum holds what is written of its constants. -/
theorem Decl.constant?_written {d : Decl} (hkind : d.kind ≠ .enum) (name : String) :
    d.written.constant? name =
      (d.constant? name).map fun c => { c with type := c.type.unresolved } := by
  have hmembers : ∀ (ms : Members) (scope : String),
      ((ms.mapTypes TypeSpec.unresolved).constants.find? (·.name == name)).map
          (fun c => (⟨c.value, c.type, scope⟩ : NamedConstant)) =
        ((ms.constants.find? (·.name == name)).map
          (fun c => (⟨c.value, c.type, scope⟩ : NamedConstant))).map
            fun c => { c with type := c.type.unresolved } := by
    intro ms scope
    simp [Members.mapTypes, List.find?_map, Function.comp_def, Constant.mapType]
  obtain ⟨header, body⟩ := d
  cases body with
  | enum => exact absurd rfl hkind
  | parcelable => rfl
  | structured typeParams ms => exact hmembers ms header.canonicalName
  | union typeParams ms => exact hmembers ms header.canonicalName
  | interface isOneway ms => exact hmembers ms header.canonicalName

theorem Decl.kind_written (d : Decl) : d.written.kind = d.kind := by
  rcases d with ⟨header, _ | _ | _ | _ | _⟩ <;> rfl

theorem TypeSpec.isArray_unresolved (t : TypeSpec) : t.unresolved.isArray = t.isArray := by
  cases t
  rfl

namespace Registry

/-! ### What a validation leaves -/

section Leaves

variable (r : Registry) (number : Nat) (options : Options)

/-- A validation leaves everything but its document as it is. -/
theorem agreeBut_validate : r.AgreeBut number (r.validate number options).1 := by
  have hresolve := DocumentPass.resolution.agreeBut_run r number
  rcases r.validate_fst_cases number options with h | h
  · rw [h]
    exact hresolve
  · rw [h]
    exact hresolve.trans (DocumentPass.completion.agreeBut_run _ number)

/-- A validation leaves the shells of all declarations as they are. -/
theorem shells_validate : (r.validate number options).1.shells = r.shells := by
  have hresolve := DocumentPass.resolution.shells_run r number
  rcases r.validate_fst_cases number options with h | h
  · rw [h]
    exact hresolve
  · rw [h]
    exact (DocumentPass.completion.shells_run _ number).trans hresolve

/-- A validation leaves what is written in its document as it is. -/
theorem map_written_validate :
    ((r.validate number options).1.document? number).map (fun doc => doc.decls.map Decl.written) =
      (r.document? number).map fun doc => doc.decls.map Decl.written := by
  have hkept : ∀ (pass : DocumentPass) (r : Registry),
      ((pass.run r number).value.1.document? number).map (fun doc => doc.decls.map Decl.written) =
        (r.document? number).map fun doc => doc.decls.map Decl.written := by
    intro pass r
    have hviews := pass.map_view_run (pass.takes_step_written r) number
    simpa [Function.comp_def] using congrArg (Option.map Prod.snd) hviews
  rcases r.validate_fst_cases number options with h | h
  · rw [h]
    exact hkept .resolution r
  · rw [h]
    exact (hkept .completion _).trans (hkept .resolution r)

end Leaves

variable {r r' : Registry} {number : Nat}

/-- Registries with the same index and shells differ in meanings and backing types only. -/
theorem sameShells_of_shells (hindex : r'.index = r.index) (hshells : r'.shells = r.shells) :
    SameShells id r r' := by
  have hshell : ∀ (s : Registry) (id : DeclId), (s.decl? id).map Decl.shell =
      s.shells[id.document]?.bind (·[id.index]?) := by
    intro s id
    rw [shells, List.getElem?_map, decl?, document?]
    cases s.documents[id.document]? with
    | none => rfl
    | some doc => exact List.getElem?_map.symm
  refine ⟨⟨fun name => ?_⟩, fun id => ?_⟩
  · rw [indexed?, indexed?, hindex]
    exact Option.map_id'.symm
  · rw [hshell, hshell, hshells]
    rfl

/-- Two registries that are each changed in the same document to the same have the same constants
there, and elsewhere those they had. -/
theorem constant?_eq_or {s s' : Registry} (hindex : r'.index = r.index)
    (h : AgreeBut number r s) (h' : AgreeBut number r' s')
    (hdoc : s'.document? number = s.document? number) (scope name : String) :
    s'.constant? scope name = s.constant? scope name ∨
      (s.constant? scope name = r.constant? scope name ∧
        s'.constant? scope name = r'.constant? scope name) := by
  simp only [constant?_eq_bind_owner?, owner?_congr h.index_eq, owner?_congr h'.index_eq,
    owner?_congr hindex]
  cases r.owner? scope name with
  | none => exact .inl rfl
  | some id =>
    simp only [Option.bind_some, decl?]
    by_cases hid : id.document = number
    · rw [hid, hdoc]
      exact .inl rfl
    · rw [h.document?_eq _ hid, h'.document?_eq _ hid]
      exact .inr ⟨rfl, rfl⟩

/-! ### Constants after a validation -/

section Constants

variable (r) (number : Nat) (options : Options) {scope name : String}

/-- A validation leaves what is written of each declaration as it is. -/
theorem map_written_decl?_validate (id : DeclId) :
    ((r.validate number options).1.decl? id).map Decl.written = (r.decl? id).map Decl.written := by
  by_cases hid : id.document = number
  · have hwritten := congrArg (Option.bind · (·[id.index]?))
      (r.map_written_validate number options)
    simpa [decl?, hid, Option.bind_map, Option.map_bind, Function.comp_def] using hwritten
  · rw [decl?, decl?, (r.agreeBut_validate number options).document?_eq _ hid]

/-- A constant that is no enumerator is written after a validation as it was before. -/
theorem map_constant?_validate
    (hkind : ∀ d ∈ (r.owner? scope name).bind r.decl?, d.kind ≠ .enum) :
    ((r.validate number options).1.constant? scope name).map
        (fun c => { c with type := c.type.unresolved }) =
      (r.constant? scope name).map fun c => { c with type := c.type.unresolved } := by
  rw [constant?_eq_bind_owner?, constant?_eq_bind_owner?,
    owner?_congr (r.agreeBut_validate number options).index_eq]
  cases hid : r.owner? scope name with
  | none => rfl
  | some id =>
    have hdecl := r.map_written_decl?_validate number options id
    rw [hid, Option.bind_some] at hkind
    rw [Option.bind_some, Option.bind_some]
    cases hd : r.decl? id with
    | none =>
      rw [hd, Option.map_none, Option.map_eq_none_iff] at hdecl
      rw [hdecl]
    | some d =>
      rw [hd, Option.map_some] at hdecl
      obtain ⟨d', hd', hwritten⟩ := Option.map_eq_some_iff.mp hdecl
      have hplain := hkind d hd
      have hplain' : d'.kind ≠ .enum := by
        rwa [← d'.kind_written, hwritten, d.kind_written]
      rw [hd', Option.bind_some, Option.bind_some, ← Decl.constant?_written hplain,
        ← Decl.constant?_written hplain', hwritten]

variable {r number options}

/-- So it has the same value in the same scope, and it is read the same if the name of its type is,
which the validation may have given its meaning. -/
theorem constant?_rel_validate
    (hkind : ∀ d ∈ (r.owner? scope name).bind r.decl?, d.kind ≠ .enum)
    (hbase : ((r.validate number options).1.constant? scope name).map
        (fun c => (c.type.base.text, c.type.base.target?)) =
      (r.constant? scope name).map fun c => (c.type.base.text, c.type.base.target?)) :
    Option.Rel (NamedConstant.ReadsAs id) (r.constant? scope name)
      ((r.validate number options).1.constant? scope name) := by
  have hwritten := r.map_constant?_validate number options hkind
  cases hc : r.constant? scope name with
  | none =>
    rw [hc, Option.map_none, Option.map_eq_none_iff] at hwritten
    rw [hwritten]
    exact .none
  | some c =>
    rw [hc, Option.map_some] at hwritten
    obtain ⟨c', hc', heq⟩ := Option.map_eq_some_iff.mp hwritten
    obtain ⟨hvalue, htype, hscope⟩ := (NamedConstant.mk.injEq ..).mp heq
    rw [hc', hc, Option.map_some, Option.map_some, Option.some.injEq, Prod.mk.injEq] at hbase
    rw [hc']
    refine .some ⟨hvalue, hscope, ?_, ⟨hbase.1, ?_⟩⟩
    · rw [← TypeSpec.isArray_unresolved, htype, TypeSpec.isArray_unresolved]
    · rw [hbase.2]
      exact Option.map_id'.symm

end Constants

/-! ### What a validation reads -/

/-- The checks of a document are the same where the shells and all that its values look up are. -/
theorem SameShells.checkDocument_eq (h : SameShells id r r')
    (hdoc : r'.document? number = r.document? number)
    (hlookUp : ∀ scope name, r.DocumentLooksUp number scope name →
      Option.Rel (NamedConstant.ReadsAs id) (r.constant? scope name) (r'.constant? scope name)) :
    r'.checkDocument number = r.checkDocument number := by
  rw [checkDocument, checkDocument, hdoc]
  cases hold : r.document? number with
  | none => rfl
  | some doc =>
    refine congrArg ExceptT.run (checkEach_congr fun d hd => ?_)
    have hcheck := h.check_decl_eq d fun v hv => h.sameText_of_lookUps fun scope name hname =>
      hlookUp scope name ⟨doc, hold, d, hd, v, hv, hname⟩
    rwa [Decl.relocate_id] at hcheck

/-- The checks for a backend read shells only. -/
theorem SameShells.checkBackend_eq (h : SameShells id r r')
    (hdoc : r'.document? number = r.document? number) (b : Backend) :
    r'.checkBackend number b = r.checkBackend number b := by
  rw [checkBackend, checkBackend, hdoc]
  cases r.document? number with
  | none => rfl
  | some doc =>
    refine checkEach_congr fun d _ => ?_
    have hcheck := h.checkFor_decl_eq d b
    rwa [Decl.relocate_id] at hcheck

section General

variable (hindex : r'.index = r.index) (hdoc : r'.document? number = r.document? number)
include hindex hdoc

/-- The general part of a validation depends on the index, its own document, and the outcome of the
check. -/
theorem checkGenerally_congr :
    let general := r.checkGenerally number
    let general' := r'.checkGenerally number
    general'.value.1.document? number = general.value.1.document? number ∧
      (general'.value.1.checkDocument number = general.value.1.checkDocument number →
        general'.value.2 = general.value.2 ∧ general'.diagnostics = general.diagnostics) := by
  intro general general'
  obtain ⟨hdoc₁, hresult₁, hreports₁⟩ := DocumentPass.resolution.run_congr hindex hdoc
  have hindex₁ : (r'.resolveDocument number).value.1.index =
      (r.resolveDocument number).value.1.index :=
    (DocumentPass.resolution.agreeBut_run r' number).index_eq.trans <|
      hindex.trans (DocumentPass.resolution.agreeBut_run r number).index_eq.symm
  obtain ⟨hdoc₂, hresult₂, hreports₂⟩ := DocumentPass.completion.run_congr hindex₁ hdoc₁
  -- the passes by their own names
  simp only [DocumentPass.run] at hdoc₁ hresult₁ hreports₁ hdoc₂ hresult₂ hreports₂
  rcases r.checkGenerally_cases number with ⟨h₁, h⟩ | ⟨h₁, h₂, h⟩ | ⟨h₁, h₂, h⟩
  · rcases r'.checkGenerally_cases number with ⟨-, h'⟩ | ⟨h₁', -⟩ | ⟨h₁', -⟩
    · rw [show general = _ from h, show general' = _ from h']
      exact ⟨hdoc₁, fun _ => ⟨hresult₁, hreports₁⟩⟩
    · exact absurd (hresult₁.symm.trans h₁') h₁
    · exact absurd (hresult₁.symm.trans h₁') h₁
  · rcases r'.checkGenerally_cases number with ⟨h₁', -⟩ | ⟨-, -, h'⟩ | ⟨-, h₂', -⟩
    · exact absurd (hresult₁.trans h₁) h₁'
    · rw [show general = _ from h, show general' = _ from h']
      exact ⟨hdoc₂, fun _ => ⟨hresult₂, by rw [hreports₁, hreports₂]⟩⟩
    · exact absurd (hresult₂.symm.trans h₂') h₂
  · rcases r'.checkGenerally_cases number with ⟨h₁', -⟩ | ⟨-, h₂', -⟩ | ⟨-, -, h'⟩
    · exact absurd (hresult₁.trans h₁) h₁'
    · exact absurd (hresult₂.trans h₂) h₂'
    · rw [show general = _ from h, show general' = _ from h']
      refine ⟨hdoc₂, fun hcheck => ?_⟩
      dsimp only at hcheck ⊢
      rw [hreports₁, hreports₂, hcheck]
      exact ⟨rfl, rfl⟩

/-- A validation depends on the index, its own document, and the outcomes of the checks. -/
theorem validate_congr (options : Options)
    (hcheck : (r'.validate number options).1.checkDocument number =
      (r.validate number options).1.checkDocument number)
    (hbackends : ∀ b, (r'.validate number options).1.checkBackend number b =
      (r.validate number options).1.checkBackend number b) :
    (r'.validate number options).2 = (r.validate number options).2 := by
  obtain ⟨hresult, hreports⟩ := (checkGenerally_congr hindex hdoc).2 hcheck
  have hbackends : ∀ b, (r'.checkGenerally number).value.1.checkBackend number b =
      (r.checkGenerally number).value.1.checkBackend number b := hbackends
  have hshown : r'.shownGenerally number options = r.shownGenerally number options := by
    rw [shownGenerally, shownGenerally, hreports]
  have hshown' : r'.shownForBackends number options = r.shownForBackends number options := by
    simp only [shownForBackends, hbackends]
  have hverdicts : r'.backendVerdicts number options = r.backendVerdicts number options := by
    simp only [backendVerdicts, hbackends]
  rw [validate_eq, validate_eq, hresult, hshown, hshown', hverdicts]

end General

/-! ### Two validations -/

/-- A validation has the same result after another one if all that its values look up is read the
same after that. -/
theorem validate_after_eq {a b : Nat} (hab : a ≠ b) (options : Options)
    (hlookUp : ∀ scope name, (r.validate a options).1.DocumentLooksUp a scope name →
      Option.Rel (NamedConstant.ReadsAs id) (r.constant? scope name)
        ((r.validate b options).1.constant? scope name)) :
    ((r.validate b options).1.validate a options).2 = (r.validate a options).2 := by
  have ha := r.agreeBut_validate a options
  have hb := r.agreeBut_validate b options
  have hba := (r.validate b options).1.agreeBut_validate a options
  have hdoc := hb.document?_eq a hab
  have hdoc' := (checkGenerally_congr hb.index_eq hdoc).1
  have hshells : SameShells id (r.validate a options).1
      ((r.validate b options).1.validate a options).1 := by
    refine sameShells_of_shells ?_ ?_
    · rw [hba.index_eq, hb.index_eq, ha.index_eq]
    · rw [shells_validate, shells_validate, shells_validate]
  refine validate_congr hb.index_eq hdoc options ?_ (hshells.checkBackend_eq hdoc')
  refine hshells.checkDocument_eq hdoc' fun scope name hname => ?_
  rcases constant?_eq_or hb.index_eq ha hba hdoc' scope name with heq | ⟨heq, heq'⟩
  · -- the constant is one of the document itself
    rw [heq]
    cases (r.validate a options).1.constant? scope name with
    | none => exact .none
    | some c => exact .some (.refl c)
  · rw [heq, heq']
    exact hlookUp scope name hname

/-- **Exchange of validations**: two documents can be validated in both orders, and the registry is
the same in the end. The result of each validation is the same in both orders, provided that every
constant that is looked up for a value of its document is read the same after the other validation:
it is found or not found as before, with the same value in the same scope, and its type has the same
name and stands for the same declaration. -/
theorem validate_exchange (r : Registry) {a b : Nat} (hab : a ≠ b) (options : Options) :
    let ra := (r.validate a options).1
    let rb := (r.validate b options).1
    (ra.validate b options).1 = (rb.validate a options).1 ∧
    ((∀ scope name, ra.DocumentLooksUp a scope name →
        Option.Rel (NamedConstant.ReadsAs id) (r.constant? scope name) (rb.constant? scope name)) →
      (rb.validate a options).2 = (r.validate a options).2) ∧
    ((∀ scope name, rb.DocumentLooksUp b scope name →
        Option.Rel (NamedConstant.ReadsAs id) (r.constant? scope name) (ra.constant? scope name)) →
      (ra.validate b options).2 = (r.validate b options).2) := by
  intro ra rb
  have ha := r.agreeBut_validate a options
  have hb := r.agreeBut_validate b options
  refine ⟨?_, validate_after_eq hab options, validate_after_eq hab.symm options⟩
  exact ha.exchange hab hb (ra.agreeBut_validate b options) (rb.agreeBut_validate a options)
    (checkGenerally_congr hb.index_eq (hb.document?_eq a hab)).1
    (checkGenerally_congr ha.index_eq (ha.document?_eq b hab.symm)).1

/-- A parcelable with a constant that is a constant of another document. -/
def gauge : Document :=
  let loc : Location := ⟨"Gauge.aidl", none⟩
  let high : Expr := .reference loc "Bounds.HIGH"
  ⟨[], [⟨⟨loc, "p", "Gauge", "", {}⟩,
    .structured none { constants := [⟨loc, .named loc "int", "TOP", high⟩] }⟩]⟩

/-- The parcelable with that constant. -/
def highBound : Document :=
  let loc : Location := ⟨"Bounds.aidl", none⟩
  let seven : Expr := .literal loc .integral "7"
  ⟨[], [⟨⟨loc, "p", "Bounds", "", {}⟩,
    .structured none { constants := [⟨loc, .named loc "int", "HIGH", seven⟩] }⟩]⟩

/-- The gauge looks up the bound of the other document. Its type gets a meaning when that document
is validated, but a builtin type is called the same before and after, so both documents can be
validated in either order. -/
theorem validate_exchange_gauge_highBound :
    let r := ((empty.addDocument gauge).value.addDocument highBound).value
    r.Reachable Document.IsFresh ∧
      (r.validate 0 {}).1.references 0 = [("p.Gauge", "Bounds.HIGH")] ∧
      (r.constant? "p.Gauge" "Bounds.HIGH").isSome = true ∧
      ((r.validate 1 {}).1.validate 0 {}).2 = (r.validate 0 {}).2 ∧
      ((r.validate 0 {}).1.validate 1 {}).2 = (r.validate 1 {}).2 ∧
      (r.validate 0 {}).2.toOption.map (·.valid) = some true := by
  intro r
  have hr : r.Reachable Document.IsFresh :=
    .addDocument (.addDocument .empty (by decide +kernel)) (by decide +kernel)
  have hgauge : (r.validate 0 {}).1.references 0 = [("p.Gauge", "Bounds.HIGH")] := by
    decide +kernel
  have hbound : (r.validate 1 {}).1.references 1 = [] := by decide +kernel
  -- the bound is written as a literal, which refers to nothing
  have hclosed : ∀ c ∈ (r.validate 0 {}).1.constant? "p.Gauge" "Bounds.HIGH",
      c.value.references c.type.isArray = [] := by decide +kernel
  obtain ⟨-, hresult, hresult'⟩ := validate_exchange r (a := 0) (b := 1) (by decide) {}
  refine ⟨hr, hgauge, by decide +kernel, hresult fun scope name h => ?_,
    hresult' fun scope name h => ?_, by decide +kernel⟩
  · have hmem := mem_references_of_documentLooksUp h (by
      rw [hgauge]
      simpa using hclosed)
    rw [hgauge, List.mem_singleton] at hmem
    obtain ⟨rfl, rfl⟩ := Prod.mk.inj hmem
    exact constant?_rel_validate (by decide +kernel) (by decide +kernel)
  · have hmem := mem_references_of_documentLooksUp h (by simp [hbound])
    simp [hbound] at hmem

/-- A parcelable with a constant that is an enumerator of another document. -/
def limits : Document :=
  let loc : Location := ⟨"Limits.aidl", none⟩
  let low : Expr := .reference loc "Level.LOW"
  ⟨[], [⟨⟨loc, "p", "Limits", "", {}⟩,
    .structured none { constants := [⟨loc, .named loc "int", "LOWEST", low⟩] }⟩]⟩

/-- The order of validations counts when a value looks up an enumerator whose enum has no backing
type yet. -/
theorem validate_limits_order :
    let r := ((empty.addDocument limits).value.addDocument level).value
    r.Reachable Document.IsFresh ∧
      (r.validate 0 {}).2.toOption.map (·.valid) = some false ∧
      ((r.validate 1 {}).1.validate 0 {}).2.toOption.map (·.valid) = some true := by
  intro r
  have hr : r.Reachable Document.IsFresh :=
    .addDocument (.addDocument .empty (by decide +kernel)) (by decide +kernel)
  exact ⟨hr, by decide +kernel, by decide +kernel⟩

end Registry

end InterfaceDefinition
