import InterfaceDefinition.Proofs.Acceptance.Declarations
import InterfaceDefinition.Proofs.Independence.Validation
import InterfaceDefinition.Proofs.Resolution.Complaints
import InterfaceDefinition.Proofs.Verdict.Options

/-!
# Advice

Some declarations are valid and still draw advice: an enum whose first enumerator is not zero, an
argument that goes both ways, an interface whose name does not begin like one. `Decl.advice` says
what the advice on a declaration is, without the checks that give it: each warning is written out,
with its advisory and code, and stands at the first enumerator, at the argument, or at the
interface. The checks go through parts that may fail, and what a part that passes has reported is
followed from line to line (`Fallible.Reports`): a declaration that passes has drawn the advice on
it and nothing else (`Decl.reports_check`).

The phases before the checks and the checks for backends behind them report nothing but errors, so a
report without errors consists of advice (`Registry.validate_advice`).
-/

namespace InterfaceDefinition

open Fallible

variable {r : Registry} {scope : String}

/-! ### The advice that there is -/

/-- The advice on an argument: against one that is written as going both ways. -/
def Argument.advice (a : Argument) : List Diagnostic :=
  if a.written = some .both then
    [{ location := a.location, severity := .warning, code := some "W0002",
       advisory := some .inoutParameter,
       message := a.name ++
        " is 'inout'. Avoid inout parameters, they read like 'out' parameters but are " ++
        "also 'in'." }]
  else []

/-- The advice on a method is that on its arguments. -/
def Method.advice (m : Method) : List Diagnostic :=
  m.arguments.flatMap Argument.advice

namespace Header

/-- The advice on an enum with a backing type: against a first enumerator whose text is not that of
zero. It stands at that enumerator. -/
def enumAdvice (h : Header) (r : Registry) (backing : TypeSpec)
    (enumerators : List (Enumerator × Expr)) : List Diagnostic :=
  match enumerators with
  | [] => []
  | (first, value) :: _ =>
    let text := r.valueTextOrEmpty value backing.valueType h.canonicalName
    if text = "0" then []
    else
      [{ location := first.location, severity := .warning, code := some "W0001",
         advisory := some .enumZero,
         message := "The first enumerator '" ++ first.name ++ "' should be 0, but it is " ++
          text ++ "." }]

/-- The advice on an interface: first that on its methods, then that on a name that does not begin
with an I. -/
def interfaceAdvice (h : Header) (methods : List Method) : List Diagnostic :=
  methods.flatMap Method.advice ++
    if h.name.toList.head? = some 'I' then []
    else
      [{ location := h.location, severity := .warning, code := some "W0003",
         advisory := some .interfaceName, message := "Interface names should start with I." }]

end Header

/-- The advice on a declaration. -/
def Decl.advice (r : Registry) (d : Decl) : List Diagnostic :=
  match d.body with
  | .enum enumerators backing _ => backing.elim [] fun backing =>
    d.header.enumAdvice r backing (Enumerator.valuesAfter none enumerators)
  | .interface .. => d.header.interfaceAdvice d.methods
  | _ => []

/-! ### Members -/

/-- A field that passes draws no advice. -/
theorem Field.reports_check (f : Field) : Reports true (f.check r scope) [] := by
  rw [check]
  refine .bind_silent (f.type.reports_check r) fun typeValid => ?_
  refine .bind_silent (.lift .verdict) fun notVoid => ?_
  rw [Bool.and_assoc]
  cases f.default? with
  | none => exact .pure rfl
  | some value => exact .while_positive (.lift .verdict)

/-- A constant that passes draws no advice. -/
theorem Constant.reports_check (c : Constant) : Reports true (c.check r scope) [] := by
  rw [check]
  refine .bind_silent (c.type.reports_check r) fun _ => .guard ?_
  split
  · exact .reject
  · exact .lift .verdict

/-- What is reported of each element with those before it is reported of each element. -/
theorem flatMap_withEarlier {α β : Type} (f : α → List β) (xs : List α) :
    ((withEarlier xs).flatMap fun x => f x.2) = xs.flatMap f := by
  rw [withEarlier, ← List.flatMap_map Prod.snd f, map_snd_withEarlierFrom]

theorem Constant.reports_checkAll (constants : List Constant) :
    Reports true (Constant.checkAll r scope constants) [] :=
  .checkEach_silent fun (_, c) _ =>
    .bind_silent (.lift .verdict) fun _ => c.reports_check.last fun _ => rfl

/-- An argument goes both ways only when that is written: into the callee is what is taken for
granted. -/
theorem Argument.direction_eq_both_iff {a : Argument} :
    a.direction = .both ↔ a.written = some .both := by
  rw [direction]
  cases a.written <;> simp

/-- An argument that passes draws the advice on it. -/
theorem Argument.reports_check (m : Method) (a : Argument) :
    Reports true (a.check r m) a.advice := by
  rw [check, advice]
  refine .bind_silent (a.type.reports_check r) fun _ => .guard (.bind_answer fun fault _ => ?_)
  cases fault with
  | some fault => exact .reject
  | none =>
    simp only [direction_eq_both_iff]
    split
    · exact .advise (.pure rfl)
    · exact .pure rfl

namespace Method

/-- The arguments that pass draw the advice of each of them, in their order. -/
theorem reports_checkArguments (m : Method) (arguments : List (List Argument × Argument)) :
    Reports true (m.checkArguments r arguments) (arguments.flatMap (·.2.advice)) := by
  induction arguments with
  | nil => exact .pure rfl
  | cons x rest ih =>
    obtain ⟨earlier, a⟩ := x
    rw [checkArguments, List.flatMap_cons]
    split
    · exact .reject
    · exact (a.reports_check m).bind fun _ => .while_positive ih

/-- What is advised about a method that passes is what is advised about its arguments. -/
theorem reports_check (m : Method) : Reports true (m.check r) m.advice := by
  rw [check]
  refine .bind_silent (m.returnType.reports_check r) fun _ => .guard ?_
  cases m.returnFault? with
  | some fault => exact .reject
  | none =>
    have harguments := m.reports_checkArguments (r := r) (withEarlier m.arguments)
    rwa [flatMap_withEarlier] at harguments

theorem reports_checkAll (methods : List Method) :
    Reports true (checkAll r methods) (methods.flatMap advice) := by
  have hall : Reports true (checkAll r methods)
      ((withEarlier methods).flatMap fun x => x.2.advice) :=
    .checkEach fun (_, m) _ =>
      m.reports_check.before_silent fun _ => (Reports.lift .verdict).last fun _ => rfl
  rwa [flatMap_withEarlier] at hall

end Method

/-! ### Declarations -/

namespace Header

variable {h : Header} {ms : Members}

theorem silent_checkImmutable {fields : List Field} : (h.checkImmutable r fields).Silent := by
  rw [checkImmutable]
  split
  · exact .checkEach fun _ _ => .verdict
  · exact fun _ => rfl

theorem silent_checkFixedSize {fields : List Field} : (h.checkFixedSize r fields).Silent := by
  rw [checkFixedSize]
  split
  · exact .checkEach fun _ _ => .verdict
  · exact fun _ => rfl

theorem silent_checkGetterNames {fields : List Field} : (h.checkGetterNames fields).Silent :=
  .checkEach fun _ _ => .verdict

/-- The members that parcelables and unions have draw no advice: it is for interfaces and enums
only. -/
theorem reports_checkMembers : Reports true (h.checkMembers r ms) [] :=
  .bind_silent (.checkEach_silent fun f _ => f.reports_check) fun _ =>
    .bind_silent (.lift (.checkEach fun _ _ => .verdict)) fun _ =>
      .bind_silent (.lift silent_checkImmutable) fun _ =>
        (Constant.reports_checkAll ms.constants).last fun _ => rfl

theorem reports_checkParcelable (typeParams : Option (List String)) :
    Reports true (liftM (h.checkParcelable typeParams)) [] :=
  .lift (.and h.annotations.silent_check .verdict)

theorem reports_checkStructured (typeParams : Option (List String)) :
    Reports true (h.checkStructured r typeParams ms) [] := by
  rw [checkStructured]
  refine .bind_silent (.lift h.annotations.silent_check) fun _ => ?_
  refine .bind_silent (.lift .verdict) fun _ => .bind_silent (.lift .verdict) fun _ => ?_
  refine .bind_silent reports_checkMembers fun _ => ?_
  refine .bind_silent (.lift silent_checkFixedSize) fun _ => ?_
  split
  · exact (Reports.lift silent_checkGetterNames).last fun _ => rfl
  · exact (Reports.pure rfl).last fun _ => rfl

theorem reports_checkUnion (typeParams : Option (List String)) :
    Reports true (h.checkUnion r typeParams ms) [] := by
  rw [checkUnion]
  refine .bind_silent (.lift h.annotations.silent_check) fun _ => ?_
  refine .bind_silent (.lift .verdict) fun _ => .bind_silent (.lift .verdict) fun _ => ?_
  refine .bind_silent reports_checkMembers fun _ => ?_
  refine .bind_silent (.lift silent_checkGetterNames) fun _ => ?_
  refine .bind_silent (.lift (.checkEach fun _ _ => .verdict)) fun _ => ?_
  exact (Reports.lift .verdict).last fun _ => rfl

/-- Enumerators that pass draw one advice at most, and that is about the first of them. -/
theorem reports_checkEnumerators (backing : TypeSpec) (enumerators : List (Enumerator × Expr)) :
    Reports true (h.checkEnumerators r backing enumerators)
      (h.enumAdvice r backing enumerators) := by
  unfold checkEnumerators enumAdvice
  refine .bind_silent (.checkEach_silent fun _ _ => .lift .verdict) fun _ => .guard ?_
  cases enumerators with
  | nil => exact .abandon
  | cons first rest =>
    dsimp only
    by_cases hzero : r.valueTextOrEmpty first.2 backing.valueType h.canonicalName = "0"
    · rw [if_pos hzero, if_neg (not_not.mpr hzero)]
      exact .pure rfl
    · rw [if_neg hzero, if_pos hzero]
      exact .advise (.pure rfl)

/-- An enum without a backing type draws no advice, since it does not pass. -/
theorem reports_checkEnum {backing : Option TypeSpec} {enumerators : List (Enumerator × Expr)} :
    Reports true (h.checkEnum r enumerators backing ms)
      (backing.elim [] fun backing => h.enumAdvice r backing enumerators) := by
  unfold checkEnum
  refine .bind_silent (.lift h.annotations.silent_check) fun _ => .guard ?_
  split
  · exact .reject
  · cases backing with
    | none => exact .reject
    | some backing => exact reports_checkEnumerators backing enumerators

/-- An interface that passes draws the advice about its methods, and then that about its name. -/
theorem reports_checkInterface :
    Reports true (h.checkInterface r ms) (h.interfaceAdvice ms.methods) := by
  rw [checkInterface, interfaceAdvice]
  refine .bind_silent (.lift h.annotations.silent_check) fun _ => ?_
  refine .bind_silent (.lift .verdict) fun _ => ?_
  refine .bind (Method.reports_checkAll ms.methods) fun _ => ?_
  refine .bind_silent (Constant.reports_checkAll ms.constants) fun _ => ?_
  by_cases hname : h.name.toList.head? = some 'I'
  · rw [Vocabulary.looksLikeInterface, hname, if_pos rfl]
    exact .pure rfl
  · rw [Vocabulary.looksLikeInterface, beq_eq_false_iff_ne.mpr hname, if_neg hname]
    exact .advise (.pure rfl)

end Header

/-- A declaration that passes its check draws the advice on it and nothing else. -/
theorem Decl.reports_check (d : Decl) : Reports true (d.check r) (d.advice r) := by
  obtain ⟨header, body⟩ := d
  cases body with
  | parcelable typeParams cppHeader => exact Header.reports_checkParcelable typeParams
  | structured typeParams ms => exact Header.reports_checkStructured typeParams
  | union typeParams ms => exact Header.reports_checkUnion typeParams
  | enum enumerators backing ms => exact Header.reports_checkEnum
  | interface isOneway ms => exact Header.reports_checkInterface

/-- A document that passes draws the advice of its declarations, in their order. -/
theorem Document.reports_check (doc : Document) :
    Reports true (doc.check r) (doc.decls.flatMap (Decl.advice r)) :=
  .checkEach fun d _ => d.reports_check

/-! ### Phases without advice -/

/-- A pass that reports nothing but errors. -/
def Pass.ReportsErrors {α : Type} (x : Pass α) : Prop :=
  ∀ p, ∀ d ∈ (x.run p).diagnostics, d.isError = true

namespace Pass.ReportsErrors

variable {α β : Type}

protected theorem pure (a : α) : (pure a : Pass α).ReportsErrors := by
  simp [ReportsErrors]

theorem bind {x : Pass α} {f : α → Pass β} (hx : x.ReportsErrors)
    (hf : ∀ a, (f a).ReportsErrors) : (x >>= f).ReportsErrors := fun p =>
  List.forall_mem_append.mpr ⟨hx p, hf _ _⟩

theorem lift {x : Reporting α} (h : ∀ d ∈ x.diagnostics, d.isError = true) :
    (liftM x : Pass α).ReportsErrors := fun p => by
  rwa [Pass.run_lift]

theorem abort (e : InternalError) : (Pass.abort e).ReportsErrors :=
  fun _ _ h => absurd h List.not_mem_nil

theorem fail : Pass.fail.ReportsErrors :=
  fun _ _ h => absurd h List.not_mem_nil

end Pass.ReportsErrors

theorem Annotation.isError_of_mem_check (a : Annotation) :
    ∀ d ∈ a.check.diagnostics, d.isError = true := by
  intro d hd
  simp only [check, Reporting.bind_def, Reporting.pure_def, List.append_nil, diagnostics_checkEach,
    Reporting.diagnostics_verdict, List.mem_append, List.mem_flatMap, Option.mem_toList] at hd
  rcases hd with ⟨_, -, hparam⟩ | ⟨_, -, hrequired⟩
  · exact (isHard_of_paramFault? hparam).1
  · rw [requiredFault?] at hrequired
    split at hrequired
    · cases hrequired
    · obtain rfl := Option.some.inj hrequired
      rfl

/-- Finding the backing type reports nothing but errors, among them those about annotations that are
not valid. -/
theorem AnnotationSet.reportsErrors_backing (s : AnnotationSet) : s.backing.ReportsErrors := by
  rw [backing]
  split
  · exact .pure _
  · next a _ =>
    refine .bind (.lift a.isError_of_mem_check) fun valid => ?_
    split
    · split
      · exact .pure _
      · exact .bind (.abort _) fun _ => .pure _
    · exact .bind .fail fun _ => .pure _

/-- Completion gives no advice, so none of what a valid document is reported for stems from it. -/
theorem Decl.reportsErrors_complete (r : Registry) (imports : List Import) (d : Decl) :
    (d.complete r imports).ReportsErrors := by
  rw [complete]
  split
  · refine .bind (AnnotationSet.reportsErrors_backing _) fun answer => ?_
    cases answer with
    | none => exact .pure d
    | some backing =>
      dsimp only
      split
      · exact .bind (.abort _) fun _ => .pure d
      · split
        · exact .pure _
        · exact .bind (.lift (by simp [Reporting.report, Header.invalidBacking, Diagnostic.error,
            Diagnostic.isError])) fun _ => .pure _
  · exact .pure d

namespace Registry

/-- Completion reports nothing but errors. -/
theorem isError_of_mem_completeDocument (r : Registry) (number : Nat) :
    ∀ d ∈ (r.completeDocument number).diagnostics, d.isError = true := by
  cases hdoc : r.document? number with
  | none =>
    rw [completeDocument, runPass_of_none hdoc]
    simp
  | some doc =>
    have hstep : ∀ imports (d : Decl),
        Pass.Takes (fun _ _ _ _ ds => ∀ d ∈ ds, d.isError = true) d
          (Pass.guarded d (d.complete r imports)) :=
      fun imports d => Pass.Takes.guarded (d.reportsErrors_complete r imports) (by simp)
    obtain ⟨decls, progress, ds, hrun, hsteps⟩ :=
      runPass_spec (R := fun _ _ _ _ _ ds => ∀ d ∈ ds, d.isError = true) hstep hdoc
    rw [completeDocument, hrun]
    exact hsteps.forall_reports fun _ _ _ _ _ h => h

/-- What is shown for the backends are errors. -/
theorem isError_of_mem_shownForBackends (r : Registry) (number : Nat) (options : Options) :
    ∀ d ∈ r.shownForBackends number options, d.isError = true := by
  intro d hd
  obtain ⟨b, -, hmem⟩ := List.mem_flatMap.mp hd
  exact isError_of_mem_checkBackend _ number b d (List.mem_filter.mp hmem).1

end Registry

/-! ### Validations -/

/-- Errors that are known to be none. -/
theorem eq_nil_of_errors {ds : List Diagnostic} (herrors : ∀ d ∈ ds, d.isError = true)
    (hnone : ∀ d ∈ ds, d.isError = false) : ds = [] :=
  List.eq_nil_iff_forall_not_mem.mpr fun d hd =>
    Bool.false_ne_true ((hnone d hd).symm.trans (herrors d hd))

/-- There are two severities, so that what is no error is a warning. -/
theorem Diagnostic.severity_of_not_isError {d : Diagnostic} (h : d.isError = false) :
    d.severity = .warning := by
  cases hseverity : d.severity with
  | error => simp [isError, hseverity] at h
  | warning => rfl

namespace Registry

variable {number : Nat} {options : Options}

/-- The general part of a validation that passes without an error reports the advice on the
declarations of the document. -/
theorem diagnostics_checkGenerally (hpassed : (r.checkGenerally number).value.2 = .ok true)
    (hnone : ∀ d ∈ (r.checkGenerally number).diagnostics, d.isError = false) :
    ∃ doc, (r.checkGenerally number).value.1.document? number = some doc ∧
      (r.checkGenerally number).diagnostics =
        doc.decls.flatMap (Decl.advice (r.checkGenerally number).value.1) := by
  rcases r.checkGenerally_cases number with ⟨hne, heq⟩ | ⟨-, hne, heq⟩ |
    ⟨hresolved, hcompleted, heq⟩
  · exact absurd (heq ▸ hpassed) hne
  · rw [heq] at hpassed
    exact absurd hpassed hne
  · rw [heq] at hpassed hnone ⊢
    -- a resolution that succeeds reports nothing, and completion nothing but errors
    rw [resolveDocument_silent hresolved, List.nil_append] at hnone ⊢
    obtain ⟨hcompletion, -⟩ := List.forall_mem_append.mp hnone
    rw [eq_nil_of_errors (isError_of_mem_completeDocument _ number) hcompletion, List.nil_append]
    dsimp only at hpassed ⊢
    rw [checkDocument] at hpassed ⊢
    split at hpassed
    · cases hpassed
    · next doc hdoc =>
      exact ⟨doc, hdoc, (doc.reports_check (passes_iff.mpr hpassed)).2⟩

/-- **Advice is complete and exact.** Where no advisory is switched off, the report of a positive
validation holds the advice on the declarations of the document in order, and nothing else. The
declarations are those that were there before, with the meanings and the backing types that the
validation has recorded. -/
theorem validate_advice {report : ValidationReport} (h : (r.validate number options).2 = .ok report)
    (hvalid : report.valid = true)
    (henabled : ∀ advisory, options.advisories.isEnabled advisory = true) :
    ∃ before doc, r.document? number = some before ∧
      (r.validate number options).1.document? number = some doc ∧
      doc.decls.map Decl.written = before.decls.map Decl.written ∧
      report.diagnostics = doc.decls.flatMap (Decl.advice (r.validate number options).1) ∧
      ∀ d ∈ report.diagnostics, d.severity = .warning := by
  have hafter : (r.validate number options).1 = (r.checkGenerally number).value.1 := by
    rw [validate_eq]
  obtain ⟨hpassed, hnone⟩ := passed_of_valid h hvalid
  obtain ⟨doc, hdoc, hadvice⟩ := diagnostics_checkGenerally hpassed hnone
  have hwritten := r.map_written_validate number options
  rw [hafter, hdoc, Option.map_some] at hwritten
  obtain ⟨before, hbefore, hwritten⟩ := Option.map_eq_some_iff.mp hwritten.symm
  obtain ⟨-, -, ⟨-, rfl⟩ | ⟨-, -, rfl⟩⟩ := validate_ok_cases h
  · cases hvalid
  · have hgeneral : r.shownGenerally number options = (r.checkGenerally number).diagnostics := by
      refine List.filter_eq_self.mpr fun d _ => ?_
      rw [AdvisorySwitches.shows]
      split
      · exact henabled _
      · rfl
    have hbackends : r.shownForBackends number options = [] :=
      eq_nil_of_errors (r.isError_of_mem_shownForBackends number options)
        ((r.all_backendVerdicts_iff number options).mp hvalid)
    rw [hafter, hbackends, hgeneral, List.append_nil]
    exact ⟨before, doc, hbefore, hdoc, hwritten.symm, hadvice, fun d hd =>
      Diagnostic.severity_of_not_isError (hnone d hd)⟩

/-- An enum that begins with one, and an interface with another name than advised, two of whose
arguments go both ways, each declaration and each of their parts on a line of its own. -/
def clock : Document :=
  let loc : Nat → Location := fun line => ⟨"Clock.aidl", some ⟨⟨line, 1⟩, ⟨line, 9⟩⟩⟩
  let low : Enumerator := ⟨loc 2, "LOW", some (.literal (loc 2) .integral "1"), ""⟩
  let ticks : Nat → TypeSpec :=
    fun line => { TypeSpec.named (loc line) "int" with isArray := true }
  let read : Method :=
    { location := loc 4, returnType := .named (loc 4) "void", name := "read",
      arguments := [⟨loc 5, ticks 5, "old", some .input⟩, ⟨loc 6, ticks 6, "all", some .both⟩,
        ⟨loc 7, ticks 7, "rest", some .both⟩] }
  ⟨[], [⟨⟨loc 1, "p", "Level", "", {}⟩, .enum [low] none {}⟩,
    ⟨⟨loc 3, "p", "Clock", "", {}⟩, .interface false { methods := [read] }⟩]⟩

/-- The warnings about the clock: at the enumerator, at the two arguments, and last at the interface
itself. -/
theorem validate_advice_clock :
    let validated := (empty.addDocument clock).value.validate 0 {}
    let loc : Nat → Location := fun line => ⟨"Clock.aidl", some ⟨⟨line, 1⟩, ⟨line, 9⟩⟩⟩
    ∃ report doc, validated.2 = .ok report ∧ report.valid = true ∧
      validated.1.document? 0 = some doc ∧
      report.diagnostics = doc.decls.flatMap (Decl.advice validated.1) ∧
      report.diagnostics.map (fun d => (d.advisory, d.code, d.location)) =
        [(some .enumZero, some "W0001", loc 2), (some .inoutParameter, some "W0002", loc 6),
          (some .inoutParameter, some "W0002", loc 7),
          (some .interfaceName, some "W0003", loc 3)] := by
  intro validated loc
  have haccepted : validated.2.toOption.map
      (fun report => (report.valid,
        report.diagnostics.map fun d => (d.advisory, d.code, d.location))) =
        some (true,
          [(some .enumZero, some "W0001", loc 2), (some .inoutParameter, some "W0002", loc 6),
            (some .inoutParameter, some "W0002", loc 7),
            (some .interfaceName, some "W0003", loc 3)]) := by
    decide +kernel
  obtain ⟨report, hreport, hfound⟩ := Option.map_eq_some_iff.mp haccepted
  obtain ⟨hvalid, hwarnings⟩ := Prod.mk.inj hfound
  have hreport : validated.2 = .ok report := toOption_eq_some_iff.mp hreport
  obtain ⟨before, doc, -, hdoc, -, hadvice, -⟩ := validate_advice hreport hvalid fun _ => rfl
  exact ⟨report, doc, hreport, hvalid, hdoc, hadvice, hwarnings⟩

end Registry

end InterfaceDefinition
