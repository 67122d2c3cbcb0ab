import InterfaceDefinition.Proofs.Verdict.Validation

/-!
# What the options of a validation decide

Two things can be asked for in the options of a validation, and each decides exactly what it says.
Advisories that are switched off are missing from the report, and nothing else is different
(`Registry.validate_eq_map_without`): the validation looks at what it has reported before it goes on
to the backends, but only for errors, and no switch hides an error.

The backends are checked for independently of each other: a validation for several of them is put
together from the validations for each (`Registry.validate_merges_backends`). What a backend adds to
a report are errors only, so its verdict says whether it added anything.
-/

namespace InterfaceDefinition

/-! ### Advisories that are switched off -/

/-- Whether a diagnostic is a warning that belongs to one of some advisories. -/
def Diagnostic.isAdvice (advisories : List Advisory) (d : Diagnostic) : Bool :=
  d.severity == .warning && d.advisory.any advisories.contains

/-- The report less the warnings of some advisories. -/
def ValidationReport.without (report : ValidationReport) (advisories : List Advisory) :
    ValidationReport :=
  { report with diagnostics := report.diagnostics.filter (!·.isAdvice advisories) }

/-- Where all errors are hard, what a switch hides is advice. -/
theorem filter_shows_eq {ds : List Diagnostic} (hard : ∀ d ∈ ds, d.isError = true → d.IsHard)
    (advisories : List Advisory) :
    ds.filter (AdvisorySwitches.shows ⟨advisories⟩) = ds.filter (!·.isAdvice advisories) := by
  refine List.filter_congr fun d hd => ?_
  cases hseverity : d.severity with
  | error =>
    have hadvisory : d.advisory = none := (hard d hd (by simp [Diagnostic.isError, hseverity])).2
    simp [AdvisorySwitches.shows, Diagnostic.isAdvice, hadvisory]
  | warning =>
    cases hadvisory : d.advisory <;>
      simp [AdvisorySwitches.shows, AdvisorySwitches.isEnabled, Diagnostic.isAdvice, hadvisory,
        hseverity]

/-- Without switches everything is shown. -/
theorem AdvisorySwitches.filter_shows_none (ds : List Diagnostic) :
    ds.filter (AdvisorySwitches.shows {}) = ds := by
  refine List.filter_eq_self.mpr fun d _ => ?_
  cases h : d.advisory <;> simp [shows, isEnabled, h]

namespace Registry

section Switches

variable (r : Registry) (number : Nat) (backends : List Backend) (advisories : List Advisory)

/-- The gate before the backends does not depend on the switches. -/
theorem all_shownGenerally (options : Options) :
    (r.shownGenerally number options).all (!·.isError) =
      (r.checkGenerally number).diagnostics.all (!·.isError) := by
  have hard := (r.vocal_checkGenerally number).isHard
  have hiff : (∀ d ∈ r.shownGenerally number options, d.isError = false) ↔
      ∀ d ∈ (r.checkGenerally number).diagnostics, d.isError = false :=
    forall_shown_iff hard options.advisories
  rw [Bool.eq_iff_iff]
  simpa using hiff

/-- Advice that is switched off is left out of the reports, and the rest is as it would be without
switches. -/
theorem shownGenerally_eq_filter :
    r.shownGenerally number ⟨backends, ⟨advisories⟩⟩ =
      (r.shownGenerally number ⟨backends, {}⟩).filter (!·.isAdvice advisories) := by
  rw [shownGenerally, shownGenerally, AdvisorySwitches.filter_shows_none]
  exact filter_shows_eq (r.vocal_checkGenerally number).isHard advisories

/-- The same holds of what the backends report. -/
theorem shownForBackends_eq_filter :
    r.shownForBackends number ⟨backends, ⟨advisories⟩⟩ =
      (r.shownForBackends number ⟨backends, {}⟩).filter (!·.isAdvice advisories) := by
  rw [shownForBackends, shownForBackends, List.filter_flatMap]
  congr 1
  funext b
  have hard := ((r.checkGenerally number).value.1.honest_checkBackend number b).isHard
  rw [AdvisorySwitches.filter_shows_none]
  exact filter_shows_eq hard advisories

/-- **Switching advisories off hides their warnings and does nothing else.** The registry that a
validation leaves is the same, and so is the internal error for which it is abandoned, or its
report, verdicts included, less the warnings of the advisories that are off. -/
theorem validate_eq_map_without :
    r.validate number ⟨backends, ⟨advisories⟩⟩ =
      ((r.validate number ⟨backends, {}⟩).1,
        (r.validate number ⟨backends, {}⟩).2.map (·.without advisories)) := by
  rw [validate_eq, validate_eq]
  simp only [all_shownGenerally]
  cases hprogress : (r.checkGenerally number).value.2 with
  | error e => rfl
  | ok passed =>
    simp only [Except.map, shownGenerally_eq_filter r number backends advisories,
      shownForBackends_eq_filter r number backends advisories]
    split
    · simp only [ValidationReport.without, List.filter_append]
      rfl
    · rfl

end Switches

end Registry

/-! ### Backends -/

/-- Backends give no advice about types. -/
theorem TypeSpec.isError_of_mem_checkFor {r : Registry} {b : Backend} {t : TypeSpec} :
    ∀ d ∈ (t.checkFor r b).diagnostics, d.isError = true := by
  intro d hd
  rw [checkFor, Reporting.diagnostics_verdict, Option.mem_toList] at hd
  obtain ⟨fault, -, rfl⟩ := Option.map_eq_some_iff.mp hd
  rfl

/-- Neither do they about declarations, so switches hide nothing of what a backend reports. -/
theorem Decl.isError_of_mem_checkFor {r : Registry} {b : Backend} {decl : Decl} :
    ∀ d ∈ (decl.checkFor r b).diagnostics, d.isError = true := by
  have hheader : ∀ d ∈ (decl.checkHeaderFor b).diagnostics, d.isError = true := by
    intro d hd
    rw [checkHeaderFor, Reporting.diagnostics_verdict, Option.mem_toList] at hd
    split at hd
    · obtain rfl := Option.some.inj hd
      rfl
    · simp at hd
  have htypes : ∀ d ∈ (checkEach (TypeSpec.checkFor r b) decl.backendTypes).diagnostics,
      d.isError = true := by
    rw [diagnostics_checkEach, List.forall_mem_flatMap]
    exact fun _ _ => TypeSpec.isError_of_mem_checkFor
  simp only [checkFor, Reporting.bind_def, Reporting.pure_def, List.append_nil]
  exact List.forall_mem_append.mpr ⟨hheader, htypes⟩

namespace Registry

section Backends

variable (r : Registry) (number : Nat) (switches : AdvisorySwitches)

/-- What is reported for a backend are errors. -/
theorem isError_of_mem_checkBackend (b : Backend) :
    ∀ d ∈ (r.checkBackend number b).diagnostics, d.isError = true := by
  rw [checkBackend]
  split
  · simp
  · rw [Document.checkFor, diagnostics_checkEach, List.forall_mem_flatMap]
    exact fun _ _ => Decl.isError_of_mem_checkFor

/-- No switch hides what is reported for a backend. -/
theorem filter_shows_checkBackend (b : Backend) :
    (r.checkBackend number b).diagnostics.filter switches.shows =
      (r.checkBackend number b).diagnostics := by
  refine List.filter_eq_self.mpr fun d hd => ?_
  have hard := (r.honest_checkBackend number b).isHard d hd
  exact (hard (r.isError_of_mem_checkBackend number b d hd)).shows switches

/-- The verdict for a backend is negative exactly when something is reported for it. -/
theorem value_checkBackend_eq_false_iff (b : Backend) :
    (r.checkBackend number b).value = false ↔ (r.checkBackend number b).diagnostics ≠ [] := by
  have hhonest := (r.honest_checkBackend number b).eq_true_iff _ rfl
  have herror := r.isError_of_mem_checkBackend number b
  have hsilent : (r.checkBackend number b).value = true ↔
      (r.checkBackend number b).diagnostics = [] := by
    rw [hhonest, List.eq_nil_iff_forall_not_mem]
    constructor
    · rintro ⟨-, hnone⟩ d hd
      exact absurd (herror d hd) (by simp [hnone d hd])
    · exact fun hnone => ⟨rfl, fun d hd => absurd hd (hnone d)⟩
  rw [← Bool.not_eq_true, hsilent]

end Backends

end Registry

/-- A validation that stopped before it came to the backends: it was abandoned, or its report is
negative and gives no verdict for any backend. -/
def StopsEarly (result : Except InternalError ValidationReport) : Prop :=
  ∀ report, result = .ok report → report.valid = false ∧ report.backends = []

/-- A report that joins the verdicts of backends is none that stopped early. -/
theorem not_stopsEarly_merged (ds : List Diagnostic) (verdict : Backend → Bool)
    (backends : List Backend) :
    ¬ StopsEarly (.ok ⟨ds, backends.all verdict, backends.map fun b => (b, verdict b)⟩) := by
  intro h
  obtain ⟨hvalid, hbackends⟩ := h _ rfl
  obtain rfl := List.map_eq_nil_iff.mp hbackends
  simp at hvalid

namespace Registry

/-- All validations of a document stop early, with one result whatever the backends are, or all of
them go on and join what is found for the backends. -/
theorem validate_backends_cases (r : Registry) (number : Nat) (switches : AdvisorySwitches) :
    let general := r.checkGenerally number
    let own := fun b => (general.value.1.checkBackend number b).diagnostics
    let verdict := fun b => (general.value.1.checkBackend number b).value
    (∃ result, StopsEarly result ∧ ∀ bs, (r.validate number ⟨bs, switches⟩).2 = result) ∨
      ∀ bs, (r.validate number ⟨bs, switches⟩).2 =
        .ok ⟨general.diagnostics.filter switches.shows ++ bs.flatMap own, bs.all verdict,
          bs.map fun b => (b, verdict b)⟩ := by
  intro general own verdict
  simp only [validate_eq, all_shownGenerally, shownForBackends, filter_shows_checkBackend]
  cases hprogress : (r.checkGenerally number).value.2 with
  | error e => exact .inl ⟨.error e, fun _ h => by simp at h, fun _ => rfl⟩
  | ok passed =>
    simp only [Except.map]
    split
    · refine .inr fun bs => ?_
      simp only [backendVerdicts, List.all_map]
      rfl
    · let stopped : ValidationReport :=
        ⟨(r.checkGenerally number).diagnostics.filter switches.shows, false, []⟩
      refine .inl ⟨.ok stopped, ?_, fun _ => rfl⟩
      rintro report ⟨⟩
      exact ⟨rfl, rfl⟩

/-- **Backends are checked for independently and merged in order.** A validation for several
backends stops before it comes to them exactly when a validation for any one of them does, and then
with the same result. Otherwise there are, for every backend, a verdict and what is reported for it
alone, which is nothing exactly when the verdict is positive. The validation for that backend
reports them behind the general part, and the validation for several reports them in the order of
the request, and is positive when all verdicts are. -/
theorem validate_merges_backends (r : Registry) (number : Nat) (switches : AdvisorySwitches)
    (backends : List Backend) :
    let run := fun bs => (r.validate number ⟨bs, switches⟩).2
    let general := (r.checkGenerally number).diagnostics.filter switches.shows
    (∀ b, StopsEarly (run backends) ↔ StopsEarly (run [b])) ∧
      (StopsEarly (run backends) → ∀ b, run backends = run [b]) ∧
      (¬ StopsEarly (run backends) → ∃ (own : Backend → List Diagnostic) (verdict : Backend → Bool),
        (∀ b, run [b] = .ok ⟨general ++ own b, verdict b, [(b, verdict b)]⟩ ∧
          (verdict b = false ↔ own b ≠ [])) ∧
        run backends = .ok ⟨general ++ backends.flatMap own, backends.all verdict,
          backends.map fun b => (b, verdict b)⟩) := by
  intro run general
  rcases r.validate_backends_cases number switches with ⟨result, hearly, hall⟩ | hall
  · have hrun : ∀ bs, run bs = result := hall
    simp [hrun, hearly]
  · have hearly : ∀ bs, ¬ StopsEarly (run bs) := fun bs => by
      rw [show run bs = _ from hall bs]
      exact not_stopsEarly_merged _ _ bs
    refine ⟨fun b => ?_, fun h => absurd h (hearly _), fun _ => ⟨_, _, fun b => ⟨?_, ?_⟩, hall _⟩⟩
    · simp [hearly]
    · simpa using hall [b]
    · exact value_checkBackend_eq_false_iff _ number b

/-- A parcelable that is declared elsewhere, without the header that C++ code needs. -/
def headerless : Document :=
  ⟨[], [⟨⟨⟨"Box.aidl", none⟩, "p", "Box", "", {}⟩, .parcelable none ""⟩]⟩

/-- C++ rejects the parcelable, and Java has nothing to report: both runs report the same and are
negative, and only the verdicts of the backends tell them apart. -/
theorem validate_headerless :
    let run := fun bs => ((empty.addDocument headerless).value.validate 0 ⟨bs, {}⟩).2
    ∃ ds, ds ≠ [] ∧ run [.cpp] = .ok ⟨ds, false, [(.cpp, false)]⟩ ∧
      run [.java, .cpp] = .ok ⟨ds, false, [(.java, true), (.cpp, false)]⟩ := by
  intro run
  have hverdicts : (run [.java, .cpp]).toOption.map (·.backends) =
      some [(.java, true), (.cpp, false)] := by decide +kernel
  have hgoes : ¬ StopsEarly (run [.java, .cpp]) := by
    intro hearly
    cases hrun : run [.java, .cpp] with
    | error e => simp [hrun, Except.toOption] at hverdicts
    | ok report => simp [hrun, Except.toOption, (hearly report hrun).2] at hverdicts
  obtain ⟨own, verdict, hsingle, hboth⟩ := (validate_merges_backends
    (empty.addDocument headerless).value 0 {} [.java, .cpp]).2.2 hgoes
  have hboth : run [.java, .cpp] = _ := hboth
  obtain ⟨hjava, hcpp⟩ : verdict .java = true ∧ verdict .cpp = false := by
    simpa [hboth, Except.toOption] using hverdicts
  have hsilent : own .java = [] := by
    simpa [hjava] using (hsingle .java).2
  obtain ⟨hrun, hreports⟩ := hsingle .cpp
  refine ⟨_, ?_, hcpp ▸ hrun, ?_⟩
  · simp [hreports.mp hcpp]
  · simpa [hjava, hcpp, hsilent] using hboth

end Registry

end InterfaceDefinition
