import InterfaceDefinition.Proofs.Verdict.Passes
import InterfaceDefinition.Validation

/-!
# The verdict of a validation

A validation that is not abandoned is positive exactly when its report holds no error
(`Registry.valid_iff_forall_not_error`): no check fails silently, and no error is reported next to a
positive verdict, whatever advisories are switched off.

The report is first written without collectors (`Registry.validate_ok_cases`): what the general
part and the checks of the backends report, less what is switched off. A positive general part may
still have reported an error, about the backing type of an enum; that is why the validation looks
at the collector before it goes on to the backends.
-/

namespace InterfaceDefinition

/-! ### Collectors -/

/-- Merging collectors in order moves what they hold behind the rest, in that order. -/
theorem Collector.foldl_merge {α : Type} (own : α → Collector) (xs : List α) (c : Collector) :
    xs.foldl (fun c x => c.merge (own x)) c =
      { c with held := c.held ++ xs.flatMap fun x => (own x).held } := by
  induction xs generalizing c with
  | nil => simp
  | cons x xs ih =>
    rw [List.foldl_cons, ih]
    simp [merge]

/-- No switch hides a hard error. -/
theorem Diagnostic.IsHard.shows {d : Diagnostic} (h : d.IsHard) (switches : AdvisorySwitches) :
    switches.shows d = true := by
  rw [AdvisorySwitches.shows, h.2]

/-- Where all errors are hard, switching advisories off hides none of them. -/
theorem forall_shown_iff {ds : List Diagnostic} (hard : ∀ d ∈ ds, d.isError = true → d.IsHard)
    (switches : AdvisorySwitches) :
    (∀ d ∈ ds.filter switches.shows, d.isError = false) ↔ ∀ d ∈ ds, d.isError = false := by
  constructor
  · intro h d hd
    by_cases herror : d.isError = true
    · exact h d (List.mem_filter.mpr ⟨hd, (hard d hd herror).shows switches⟩)
    · simpa using herror
  · exact fun h d hd => h d ((List.mem_filter.mp hd).1)

/-! ### The general part -/

/-- An honest check accounts for its verdict like a pass that starts with it. -/
theorem HonestVerdict.vocalStep {p : Progress} {ds : List Diagnostic}
    (h : HonestVerdict true p.toOption ds) : VocalStep (.ok true) p ds := by
  refine ⟨fun hfailed => .inr ?_, h.isHard⟩
  obtain rfl : p = .ok false := hfailed
  exact h.exists_error

namespace Registry

variable {r : Registry} {number : Nat} {options : Options}

theorem vocal_checkDocument (r : Registry) (number : Nat) :
    VocalStep (.ok true) (r.checkDocument number).value (r.checkDocument number).diagnostics := by
  rw [checkDocument]
  split
  · exact VocalStep.ended _
  · next doc _ => exact (doc.honest_check r).vocalStep

theorem vocal_checkGenerally (r : Registry) (number : Nat) :
    VocalStep (.ok true) (r.checkGenerally number).value.2
      (r.checkGenerally number).diagnostics := by
  have hresolve := r.vocal_resolveDocument number
  rcases r.checkGenerally_cases number with ⟨-, h⟩ | ⟨hresolved, -, h⟩ |
    ⟨hresolved, hcompleted, h⟩
  · rw [h]
    exact hresolve
  · rw [h]
    rw [hresolved] at hresolve
    exact hresolve.append (vocal_completeDocument _ number)
  · rw [h]
    rw [hresolved] at hresolve
    have hcomplete := vocal_completeDocument (r.resolveDocument number).value.1 number
    rw [hcompleted] at hcomplete
    exact hresolve.append (hcomplete.append (vocal_checkDocument _ number))

/-! ### The report -/

theorem honest_checkBackend (r : Registry) (number : Nat) (b : Backend) :
    (r.checkBackend number b).Honest true := by
  rw [checkBackend]
  split
  · exact .pure rfl
  · next doc _ => exact doc.honest_checkFor r b

/-- What the general part of a validation reports, less what is switched off. -/
def shownGenerally (r : Registry) (number : Nat) (options : Options) : List Diagnostic :=
  (r.checkGenerally number).diagnostics.filter options.advisories.shows

/-- What the checks of the requested backends report after the general part, less what is switched
off. -/
def shownForBackends (r : Registry) (number : Nat) (options : Options) : List Diagnostic :=
  options.backends.flatMap fun b =>
    ((r.checkGenerally number).value.1.checkBackend number b).diagnostics.filter
      options.advisories.shows

/-- The verdicts of the requested backends after the general part. -/
def backendVerdicts (r : Registry) (number : Nat) (options : Options) : List (Backend × Bool) :=
  options.backends.map fun b =>
    (b, ((r.checkGenerally number).value.1.checkBackend number b).value)

/-- A validation without collectors: the registry that the general part leaves, and what the general
part reports and, if it passes and shows no error, what is reported for the backends behind it. -/
theorem validate_eq (r : Registry) (number : Nat) (options : Options) :
    r.validate number options =
      ((r.checkGenerally number).value.1, (r.checkGenerally number).value.2.map fun passed =>
        if passed && (r.shownGenerally number options).all (!·.isError) then
          { diagnostics := r.shownGenerally number options ++ r.shownForBackends number options
            valid := (r.backendVerdicts number options).all (·.2)
            backends := r.backendVerdicts number options }
        else { diagnostics := r.shownGenerally number options, valid := false }) := by
  have hgate : ∀ ds : List Diagnostic, (!ds.any (·.isError)) = ds.all (!·.isError) := by
    simp [List.not_any_eq_all_not]
  rw [validate]
  simp only [Collector.addAll_eq, List.nil_append, Collector.hasErrors, Collector.foldl_merge,
    List.map_map, List.flatMap_map, Function.comp_def, checkBackendWith, Collector.fork, hgate]
  rfl

/-- A validation stops after its general part, or goes on to the backends when that has passed
without an error. -/
theorem validate_ok_cases {report : ValidationReport}
    (h : (r.validate number options).2 = .ok report) :
    ∃ passed, (r.checkGenerally number).value.2 = .ok passed ∧
      (((passed = false ∨ ∃ d ∈ r.shownGenerally number options, d.isError = true) ∧
          report = { diagnostics := r.shownGenerally number options, valid := false }) ∨
        (passed = true ∧ (∀ d ∈ r.shownGenerally number options, d.isError = false) ∧
          report =
            { diagnostics := r.shownGenerally number options ++ r.shownForBackends number options
              valid := (r.backendVerdicts number options).all (·.2)
              backends := r.backendVerdicts number options })) := by
  rw [validate_eq] at h
  cases hprogress : (r.checkGenerally number).value.2 with
  | error e => simp [hprogress, Except.map] at h
  | ok passed =>
    refine ⟨passed, rfl, ?_⟩
    simp only [hprogress, Except.map, Except.ok.injEq] at h
    split at h
    · next hgo =>
      obtain ⟨hpassed, hsilent⟩ := Bool.and_eq_true_iff.mp hgo
      exact .inr ⟨hpassed, by simpa using hsilent, h.symm⟩
    · next hstop =>
      -- a positive general part stops the validation only for an error that it holds
      refine .inl ⟨?_, h.symm⟩
      cases passed with
      | false => exact .inl rfl
      | true => exact .inr (by simpa using hstop)

/-- The general part of a validation that is positive has passed, and has reported no error. -/
theorem passed_of_valid {report : ValidationReport}
    (h : (r.validate number options).2 = .ok report) (hvalid : report.valid = true) :
    (r.checkGenerally number).value.2 = .ok true ∧
      ∀ d ∈ (r.checkGenerally number).diagnostics, d.isError = false := by
  obtain ⟨passed, hpassed, hcases⟩ := validate_ok_cases h
  rcases hcases with ⟨-, rfl⟩ | ⟨rfl, hsilent, -⟩
  · cases hvalid
  · have hhard := (r.vocal_checkGenerally number).isHard
    exact ⟨hpassed, (forall_shown_iff hhard options.advisories).mp hsilent⟩

/-- The requested backends all pass exactly when no error is shown for any of them. -/
theorem all_backendVerdicts_iff (r : Registry) (number : Nat) (options : Options) :
    (r.backendVerdicts number options).all (·.2) = true ↔
      ∀ d ∈ r.shownForBackends number options, d.isError = false := by
  unfold backendVerdicts shownForBackends
  rw [List.all_map, List.all_eq_true, List.forall_mem_flatMap]
  refine forall₂_congr fun b _ => ?_
  have hb := (r.checkGenerally number).value.1.honest_checkBackend number b
  rw [forall_shown_iff hb.isHard, Function.comp_apply, hb.eq_true_iff _ rfl]
  simp

/-- **The verdict is honest**: the report of a validation is positive exactly when it holds no
error. Its verdicts of backends are those of the requested ones in order, unless the validation was
negative before it came to them. -/
theorem valid_iff_forall_not_error (r : Registry) (number : Nat) (options : Options)
    (report : ValidationReport) (h : (r.validate number options).2 = .ok report) :
    (report.valid = true ↔ ∀ d ∈ report.diagnostics, d.severity ≠ .error) ∧
      (report.backends = [] ∨ report.backends.map (·.1) = options.backends) ∧
      (report.backends = [] → report.valid = false ∨ options.backends = []) := by
  have hseverity : ∀ d : Diagnostic, d.severity ≠ .error ↔ d.isError = false := by
    simp [Diagnostic.isError]
  have hvocal := r.vocal_checkGenerally number
  have hgeneral := forall_shown_iff hvocal.isHard options.advisories
  obtain ⟨passed, hpassed, hcases⟩ := validate_ok_cases h
  simp only [hseverity]
  rcases hcases with ⟨hstop, rfl⟩ | ⟨-, hgo, rfl⟩
  · refine ⟨?_, .inl rfl, fun _ => .inl rfl⟩
    -- the general part did not pass, so it reported an error, and that is shown
    have hne : ¬ ∀ d ∈ r.shownGenerally number options, d.isError = false := by
      rcases hstop with rfl | ⟨d, hd, herror⟩
      · rcases hvocal.exists_error hpassed with hfailed | ⟨d, hd, herror⟩
        · simp [Progress.Failed] at hfailed
        · exact fun hall => by simpa [herror] using hgeneral.mp hall d hd
      · exact fun hall => by simpa [herror] using hall d hd
    simp [hne]
  · refine ⟨?_, .inr ?_, fun hempty => .inr ?_⟩
    · rw [List.forall_mem_append, all_backendVerdicts_iff]
      exact ⟨fun h => ⟨hgo, h⟩, And.right⟩
    · simp [backendVerdicts, Function.comp_def]
    · simpa [backendVerdicts] using hempty

/-- An enum with one enumerator, whose annotation names a backing type that does not exist:
completion reports that, and passes. -/
def strayBacking : Document :=
  let loc : Location := ⟨"E.aidl", none⟩
  let backing : Annotation :=
    { location := loc, kind := .backing, params := [("type", .literal loc .string "\"Missing\"")] }
  let header : Header := ⟨loc, "p", "E", "", ⟨[backing]⟩⟩
  ⟨[], [⟨header, .enum [⟨loc, "A", none, ""⟩] none {}⟩]⟩

/-- The passes succeed, so it is the error among the diagnostics alone that makes the report a
negative one. -/
theorem not_valid_strayBacking :
    ∃ report, ((empty.addDocument strayBacking).value.validate 0 {}).2 = .ok report ∧
      (report.valid = true ↔ ∀ d ∈ report.diagnostics, d.severity ≠ .error) ∧
      report.valid = false := by
  have hvalid : ((empty.addDocument strayBacking).value.validate 0 {}).2.toOption.map (·.valid) =
      some false := by decide +kernel
  cases h : ((empty.addDocument strayBacking).value.validate 0 {}).2 with
  | error e => simp [h, Except.toOption] at hvalid
  | ok report =>
    refine ⟨report, rfl, (valid_iff_forall_not_error _ 0 {} report h).1, ?_⟩
    simpa [h, Except.toOption] using hvalid

end Registry

end InterfaceDefinition
