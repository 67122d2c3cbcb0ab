import InterfaceDefinition.Proofs.Abandonment.Validation
import InterfaceDefinition.Proofs.Acceptance.Passing
import InterfaceDefinition.Proofs.Order.Passes
import InterfaceDefinition.Proofs.Order.Places
import InterfaceDefinition.Proofs.Relocation.Checks
import InterfaceDefinition.Proofs.Relocation.Passes
import InterfaceDefinition.Proofs.Verdict.Validation

/-!
# The order of declarations

The order in which a document declares its types does not matter to its validation
(`Registry.Reachable.validate_perm`). In another order every declaration has another place, so the
registries, and the meanings that the passes record in them, differ in all places of the document.

The two validations are followed phase by phase. Names are read in the index, which is complete
before the first pass, so no reference is a forward one: both passes make of each declaration the
same, up to places, and report the same (`Registry.SameNames.resolveDocument_perm`,
`Registry.SameNames.completeDocument_perm`). When both have succeeded, the registries are the same
up to places, and so the checks of each declaration are the same
(`Registry.SameDecls.checkDocument_perm`). What is left of the order is that of the reports, and
which of several internal errors comes first.
-/

namespace InterfaceDefinition

open Pass

/-! ### Outcomes -/

/-- Two runs over the same parts in different orders, each with its progress and its reports: an
internal error has ended both, or neither, and then the progress is the same, and the reports are
the same up to their order. -/
def SameOutcome (p : Progress) (ds : List Diagnostic) (p' : Progress) (ds' : List Diagnostic) :
    Prop :=
  (∃ e e', p = .error e ∧ p' = .error e') ∨ ∃ b, p = .ok b ∧ p' = .ok b ∧ ds.Perm ds'

/-- Reports that were made before count in order. -/
theorem SameOutcome.append {p p' : Progress} {ds ds' earlier earlier' : List Diagnostic}
    (h : SameOutcome p ds p' ds') (hearlier : earlier.Perm earlier') :
    SameOutcome p (earlier ++ ds) p' (earlier' ++ ds') := by
  rcases h with hended | ⟨b, hp, hp', hperm⟩
  · exact .inl hended
  · exact .inr ⟨b, hp, hp', hearlier.append hperm⟩

/-- Two results of validations that differ in the order of what was validated: both are abandoned,
or there are two reports with the same verdicts that hold the same, up to order. -/
def SameResult (result result' : Except InternalError ValidationReport) : Prop :=
  (∃ e e', result = .error e ∧ result' = .error e') ∨
    ∃ report report', result = .ok report ∧ result' = .ok report' ∧
      report'.valid = report.valid ∧ report'.backends = report.backends ∧
      report.diagnostics.Perm report'.diagnostics

/-! ### Checks of several parts -/

section Checks

variable {α : Type} {xs ys : List α}

/-- A check of every part passes and reports the same in every order. -/
theorem checkEach_perm (check : α → Reporting Bool) (h : xs.Perm ys) :
    (checkEach check ys).value = (checkEach check xs).value ∧
      (checkEach check xs).diagnostics.Perm (checkEach check ys).diagnostics := by
  simp only [value_checkEach, diagnostics_checkEach]
  exact ⟨h.symm.all_eq, h.flatMap_right _⟩

/-- A check of every part has the same outcome in every order: it is abandoned if a part is. -/
theorem Fallible.sameOutcome_checkEach (check : α → Fallible Bool) (h : xs.Perm ys) :
    SameOutcome (checkEach check xs).run.value (checkEach check xs).run.diagnostics
      (checkEach check ys).run.value (checkEach check ys).run.diagnostics := by
  by_cases hall : ∀ x ∈ xs, (check x).Completes
  · have hall' : ∀ y ∈ ys, (check y).Completes := fun y hy => hall y (h.mem_iff.mpr hy)
    rw [run_checkEach hall, run_checkEach hall', h.all_eq]
    exact .inr ⟨_, rfl, rfl, h.flatMap_right _⟩
  · have habandoned : ∀ {zs : List α}, (∃ x ∈ zs, ¬ (check x).Completes) →
        ∃ e, (checkEach check zs).run.value = .error e := by
      rintro zs ⟨x, hx, hcause⟩
      have hsome : (zs.findSome? fun x => (check x).cause?).isSome := by
        rw [List.findSome?_isSome_iff]
        exact ⟨x, hx, Option.isSome_iff_ne_none.mpr hcause⟩
      obtain ⟨e, he⟩ := Option.isSome_iff_exists.mp hsome
      rw [← cause?_checkEach] at he
      exact ⟨e, cause?_eq_some_iff.mp he⟩
    simp only [not_forall] at hall
    obtain ⟨x, hx, hcause⟩ := hall
    obtain ⟨e, he⟩ := habandoned ⟨x, hx, hcause⟩
    obtain ⟨e', he'⟩ := habandoned ⟨x, h.mem_iff.mp hx, hcause⟩
    exact .inl ⟨e, e', he, he'⟩

end Checks

/-! ### The two passes -/

namespace Registry

section Passes

variable {ρ : DeclId → DeclId} {r r' : Registry} {number : Nat} {doc : Document}
  {decls : List Decl}

/-- Resolution of a document in two orders: the declarations become the same at their other
places. -/
theorem SameNames.resolveDocument_perm (h : SameNames ρ r r') (hperm : doc.decls.Perm decls)
    (hdoc : r.document? number = some doc) (hdoc' : r'.document? number = some { doc with decls })
    (hfresh : ∀ d ∈ doc.decls, ∀ t ∈ d.nodes, t.base.isResolved = false) :
    ∃ (f : Decl → Decl) (b : Bool) (ds ds' : List Diagnostic),
      r.resolveDocument number = ⟨(r.withDecls number doc (doc.decls.map f), .ok b), ds⟩ ∧
      r'.resolveDocument number =
        ⟨(r'.withDecls number doc (decls.map fun d => (f d).mapTypes (·.relocate ρ)), .ok b),
          ds'⟩ ∧
      ds.Perm ds' := by
  have hfresh' : ∀ d ∈ decls, ∀ t ∈ d.nodes, t.base.isResolved = false :=
    fun d hd => hfresh d (hperm.mem_iff.mpr hd)
  have hstep := fun d hd => h.start_resolve_eq doc.imports (hfresh d hd)
  obtain ⟨hall, hreports⟩ := outcomes_perm (fun d => d.resolve r doc.imports)
    (fun d => d.resolve r' doc.imports) hperm
    fun d hd => ⟨by rw [hstep d hd], by rw [hstep d hd]⟩
  have hvalues : (decls.map fun d => (d.resolve r' doc.imports).start.value.1) =
      decls.map fun d => (d.resolve r doc.imports).start.value.1.mapTypes (·.relocate ρ) :=
    List.map_congr_left fun d hd => by rw [hstep d (hperm.mem_iff.mpr hd)]
  have hresolved' := resolveDocument_eq hdoc' hfresh'
  simp only [hvalues, hall] at hresolved'
  exact ⟨_, _, _, _, resolveDocument_eq hdoc hfresh, hresolved', hreports⟩

/-- Completion of a document in two orders: it succeeds in both or in none, and when it does, the
declarations become the same at their other places. -/
theorem SameNames.completeDocument_perm (h : SameNames ρ r r') (hperm : doc.decls.Perm decls)
    (hdoc : r.document? number = some doc)
    (hdoc' : r'.document? number =
      some { doc with decls := decls.map (·.mapTypes (·.relocate ρ)) }) :
    ∃ (f f' : Decl → Decl) (b : Bool) (ds ds' : List Diagnostic),
      r.completeDocument number = ⟨(r.withDecls number doc (doc.decls.map f), .ok b), ds⟩ ∧
      r'.completeDocument number =
        ⟨(r'.withDecls number doc (decls.map f'), .ok b), ds'⟩ ∧
      ds.Perm ds' ∧ (b = true → ∀ d ∈ decls, f' d = (f d).relocate ρ) := by
  have hstep := fun d => h.start_complete_mapTypes doc.imports d
  obtain ⟨hall, hreports⟩ := outcomes_perm (fun d => d.complete r doc.imports)
    (fun d => (d.mapTypes (·.relocate ρ)).complete r' doc.imports) hperm
    fun d _ => ⟨(hstep d).1, (hstep d).2.1⟩
  have hcompleted' := completeDocument_eq hdoc'
  simp only [List.map_map, List.all_map, List.flatMap_map, Function.comp_def, hall] at hcompleted'
  refine ⟨_, _, _, _, _, completeDocument_eq hdoc, hcompleted', hreports, fun hb d hd => ?_⟩
  have hsuccess := List.all_eq_true.mp hb d (hperm.mem_iff.mpr hd)
  exact (hstep d).2.2 (succeeds_iff.mp hsuccess)

end Passes

/-! ### The general part -/

section General

variable {r resolved completed : Registry} {number : Nat} {ds es : List Diagnostic}

/-- A run whose resolution reports an error ends behind it, and keeps what was resolved. -/
theorem checkGenerally_of_unresolved
    (hresolve : r.resolveDocument number = ⟨(resolved, .ok false), ds⟩) :
    r.checkGenerally number = ⟨(resolved, .ok false), ds⟩ := by
  simp [checkGenerally, hresolve]

/-- A run whose completion reports an error ends behind that. -/
theorem checkGenerally_of_incomplete
    (hresolve : r.resolveDocument number = ⟨(resolved, .ok true), ds⟩)
    (hcomplete : resolved.completeDocument number = ⟨(completed, .ok false), es⟩) :
    r.checkGenerally number = ⟨(completed, .ok false), ds ++ es⟩ := by
  simp [checkGenerally, hresolve, hcomplete]

/-- Behind both passes it is the checks that give the verdict. -/
theorem checkGenerally_of_completed
    (hresolve : r.resolveDocument number = ⟨(resolved, .ok true), ds⟩)
    (hcomplete : resolved.completeDocument number = ⟨(completed, .ok true), es⟩) :
    r.checkGenerally number =
      ⟨(completed, (completed.checkDocument number).value),
        ds ++ (es ++ (completed.checkDocument number).diagnostics)⟩ := by
  simp [checkGenerally, hresolve, hcomplete]

end General

section Order

variable {ρ : DeclId → DeclId} {r r' : Registry} {number : Nat} {doc : Document}
  {decls : List Decl}

/-- The check of a document in two orders has the same outcome, and so have its checks for every
backend. -/
theorem SameDecls.checkDocument_perm (h : SameDecls ρ r r') (hperm : doc.decls.Perm decls)
    (hdoc : r.document? number = some doc)
    (hdoc' : r'.document? number = some { doc with decls := decls.map (·.relocate ρ) }) :
    SameOutcome (r.checkDocument number).value (r.checkDocument number).diagnostics
        (r'.checkDocument number).value (r'.checkDocument number).diagnostics ∧
      ∀ b, (r'.checkBackend number b).value = (r.checkBackend number b).value ∧
        (r.checkBackend number b).diagnostics.Perm (r'.checkBackend number b).diagnostics := by
  have hcheck : (r'.checkDocument number) = (checkEach (Decl.check r) decls).run := by
    simp only [checkDocument, hdoc', Document.check, checkEach_map, h.check_decl_eq]
  have hbackend : ∀ b, r'.checkBackend number b = checkEach (Decl.checkFor r b) decls := fun b => by
    simp only [checkBackend, hdoc', Document.checkFor, checkEach_map, h.checkFor_decl_eq]
  constructor
  · rw [hcheck, checkDocument, hdoc]
    exact Fallible.sameOutcome_checkEach (Decl.check r) hperm
  · intro b
    rw [hbackend, checkBackend, hdoc]
    exact checkEach_perm (Decl.checkFor r b) hperm

/-- The general part in two orders has the same outcome, and when it passes, so have the checks for
every backend. -/
theorem checkGenerally_perm (hperm : doc.decls.Perm decls)
    (hdoc : r.document? number = some doc) (hdoc' : r'.document? number = some { doc with decls })
    (hfresh : ∀ d ∈ doc.decls, ∀ t ∈ d.nodes, t.base.isResolved = false)
    (hsame : ∀ f : Decl → Decl, SameDecls ρ (r.withDecls number doc (doc.decls.map f))
      (r'.withDecls number doc (decls.map fun d => (f d).relocate ρ))) :
    let general := r.checkGenerally number
    let general' := r'.checkGenerally number
    SameOutcome general.value.2 general.diagnostics general'.value.2 general'.diagnostics ∧
      (general.value.2 = .ok true → ∀ b,
        let checked := general.value.1.checkBackend number b
        let checked' := general'.value.1.checkBackend number b
        checked'.value = checked.value ∧ checked.diagnostics.Perm checked'.diagnostics) := by
  intro general general'
  -- what names stand for is not changed by either pass
  have hnames : SameNames ρ r r' := ⟨(hsame id).indexed?_eq⟩
  obtain ⟨f, b, ds, ds', hresolve, hresolve', hds⟩ :=
    hnames.resolveDocument_perm hperm hdoc hdoc' hfresh
  cases b with
  | false =>
    have hgeneral : general = _ := checkGenerally_of_unresolved hresolve
    have hgeneral' : general' = _ := checkGenerally_of_unresolved hresolve'
    rw [hgeneral, hgeneral']
    exact ⟨.inr ⟨false, rfl, rfl, hds⟩, fun h => by simp at h⟩
  | true =>
    have hresolved := document?_withDecls hdoc (doc.decls.map f)
    have hresolved' : (r'.withDecls number doc
        (decls.map fun d => (f d).mapTypes (·.relocate ρ))).document? number =
          some { doc with decls := (decls.map f).map (·.mapTypes (·.relocate ρ)) } := by
      rw [List.map_map]
      exact document?_withDecls hdoc' _
    have hnames₂ : SameNames ρ (r.withDecls number doc (doc.decls.map f))
        (r'.withDecls number doc (decls.map fun d => (f d).mapTypes (·.relocate ρ))) :=
      ⟨hnames.indexed?_eq⟩
    obtain ⟨g, g', b, es, es', hcomplete, hcomplete', hes, hvalues⟩ :=
      hnames₂.completeDocument_perm (hperm.map f) hresolved hresolved'
    cases b with
    | false =>
      have hgeneral : general = _ := checkGenerally_of_incomplete hresolve hcomplete
      have hgeneral' : general' = _ := checkGenerally_of_incomplete hresolve' hcomplete'
      rw [hgeneral, hgeneral']
      exact ⟨.inr ⟨false, rfl, rfl, hds.append hes⟩, fun h => by simp at h⟩
    | true =>
      have hgeneral : general = _ := checkGenerally_of_completed hresolve hcomplete
      have hgeneral' : general' = _ := checkGenerally_of_completed hresolve' hcomplete'
      have hdecls : (decls.map f).map g' = decls.map fun d => (g (f d)).relocate ρ := by
        rw [List.map_map]
        exact List.map_congr_left fun d hd => hvalues rfl (f d) (List.mem_map_of_mem hd)
      have hdecls₂ : (doc.decls.map f).map g = doc.decls.map fun d => g (f d) := List.map_map
      rw [hgeneral, hgeneral', withDecls_withDecls, withDecls_withDecls, hdecls, hdecls₂]
      have hcompleted := document?_withDecls hdoc (doc.decls.map fun d => g (f d))
      have hcompleted' : (r'.withDecls number doc
          (decls.map fun d => (g (f d)).relocate ρ)).document? number =
            some { doc with decls := (decls.map fun d => g (f d)).map (·.relocate ρ) } := by
        rw [List.map_map]
        exact document?_withDecls hdoc' _
      obtain ⟨houtcome, hbackends⟩ := (hsame fun d => g (f d)).checkDocument_perm
        (hperm.map fun d => g (f d)) hcompleted hcompleted'
      exact ⟨(houtcome.append hes).append hds, fun _ => hbackends⟩

/-- Two orders whose general parts have the same outcome lead to the same result. -/
theorem validate_perm_of_general (options : Options)
    (hgeneral : SameOutcome (r.checkGenerally number).value.2
      (r.checkGenerally number).diagnostics (r'.checkGenerally number).value.2
      (r'.checkGenerally number).diagnostics)
    (hbackends : (r.checkGenerally number).value.2 = .ok true → ∀ b,
      let checked := (r.checkGenerally number).value.1.checkBackend number b
      let checked' := (r'.checkGenerally number).value.1.checkBackend number b
      checked'.value = checked.value ∧ checked.diagnostics.Perm checked'.diagnostics) :
    SameResult (r.validate number options).2 (r'.validate number options).2 := by
  rcases hgeneral with ⟨e, e', he, he'⟩ | ⟨passed, hpassed, hpassed', hreports⟩
  · exact .inl ⟨e, e', validate_eq_error_iff_progress.mpr he,
      validate_eq_error_iff_progress.mpr he'⟩
  have hshown : (r.shownGenerally number options).Perm (r'.shownGenerally number options) :=
    hreports.filter _
  rw [validate_eq, validate_eq, hpassed, hpassed']
  simp only [Except.map, hshown.all_eq]
  split
  · next hgo =>
    obtain rfl : passed = true := (Bool.and_eq_true_iff.mp hgo).1
    have hverdicts : r'.backendVerdicts number options = r.backendVerdicts number options := by
      unfold backendVerdicts
      exact List.map_congr_left fun b _ => by rw [(hbackends hpassed b).1]
    have hshown' : (r.shownForBackends number options).Perm
        (r'.shownForBackends number options) :=
      List.Perm.flatMap_left _ fun b _ => (hbackends hpassed b).2.filter _
    rw [hverdicts]
    exact .inr ⟨_, _, rfl, rfl, rfl, rfl, hshown.append hshown'⟩
  · exact .inr ⟨_, _, rfl, rfl, rfl, rfl, hshown⟩

end Order

/-- A document with a resolved name is not validated. -/
theorem exists_validate_error {r : Registry} {number : Nat} {doc : Document} {t : TypeSpec}
    (hdoc : r.document? number = some doc) (ht : t ∈ doc.nodes)
    (hresolved : t.base.isResolved = true) (options : Options) :
    ∃ e, (r.validate number options).2 = .error e := by
  have hresolve := progress_resolveDocument hdoc
  have hsome : (doc.nodes.find? (·.base.isResolved)).isSome :=
    List.find?_isSome.mpr ⟨t, ht, hresolved⟩
  obtain ⟨first, hfirst⟩ := Option.isSome_iff_exists.mp hsome
  rw [hfirst] at hresolve
  exact ⟨_, validate_eq_error_iff_progress.mpr (progress_checkGenerally_of_error hresolve)⟩

/-- A parcelable whose field has an enum as its type that is declared behind it, with one of its
enumerators as its default. -/
def forwardEnum : Document :=
  let loc : Location := ⟨"Lamp.aidl", none⟩
  let on : Expr := .reference loc "Mode.ON"
  ⟨[], [⟨⟨loc, "q", "Lamp", "", {}⟩,
      .structured none { fields := [⟨loc, .named loc "Mode", "mode", some on⟩] }⟩,
    ⟨⟨loc, "q", "Mode", "", {}⟩, .enum [⟨loc, "OFF", none, ""⟩, ⟨loc, "ON", none, ""⟩] none {}⟩]⟩

end Registry

end InterfaceDefinition
