import InterfaceDefinition.Diagnostic.Collector
import Mathlib.Data.List.Induction

/-!
# The ledger of a stack of collectors

Collectors are stacked, forked, merged and emptied in any order. A ledger is kept beside them: every
diagnostic that was added and is shown has one entry, in the order of adding, and the entry says
where the diagnostic is now, in the collector at some height of the stack or among what one of the
takes gave (`Ledger`). A fork moves nothing, a merge moves what the top holds one down, and a take
moves it out.

The ledger describes the stack (`Ledger.Describes`): the entries that are held, with their heights,
are what the collectors hold from the bottom to the top. The order is the point, since a merge puts
what it moves behind what is there: heights never fall along the entries that are held, because only
the top is added to. So whatever is done, nothing is lost, doubled or put out of order
(`CollectorSession.conserves_diagnostics`).
-/

namespace InterfaceDefinition

/-! ### Steps -/

/-- What can be done to a stack of collectors: something is added to the top in one of four ways,
the top is forked, merged into the collector below it, or emptied. -/
inductive CollectorStep where
  | add (d : Diagnostic)
  | error (loc : Location) (code message : String)
  | report (advisory : Advisory) (loc : Location) (message : String)
  | duplicate (loc previous : Location) (code message : String)
  | fork
  | merge
  | take

/-- The diagnostic that a step adds. -/
def CollectorStep.added? : CollectorStep → Option Diagnostic
  | add d => some d
  | error loc code message => some (.error loc code message)
  | report advisory loc message => some (.warning advisory loc message)
  | duplicate loc previous code message => some (.duplicate loc previous code message)
  | fork | merge | take => none

/-- A stack of collectors, and what was taken from it, take by take. -/
structure CollectorSession where
  stack : CollectorStack
  taken : List (List Diagnostic) := []

namespace CollectorSession

/-- One empty collector with some switches. -/
def start (switches : AdvisorySwitches) : CollectorSession :=
  ⟨⟨⟨switches, []⟩, []⟩, []⟩

/-- Adds a diagnostic to the top. -/
def add (s : CollectorSession) (d : Diagnostic) : CollectorSession :=
  { s with stack := s.stack.add d }

/-- Takes a step; nothing when there is no collector to merge into. -/
def step? (s : CollectorSession) : CollectorStep → Option CollectorSession
  | .add d => some (s.add d)
  | .error loc code message => some (s.add (.error loc code message))
  | .report advisory loc message => some (s.add (.warning advisory loc message))
  | .duplicate loc previous code message => some (s.add (.duplicate loc previous code message))
  | .fork => some { s with stack := s.stack.fork }
  | .merge => s.stack.merge?.map fun stack => { s with stack }
  | .take => some ⟨s.stack.take.2, s.taken ++ [s.stack.take.1]⟩

/-- Takes several steps, one after the other. -/
def run? (s : CollectorSession) (steps : List CollectorStep) : Option CollectorSession :=
  steps.foldlM step? s

end CollectorSession

/-! ### Collectors from the bottom to the top -/

namespace CollectorStack

/-- The collectors of a stack, from the bottom to the top. -/
def collectors (s : CollectorStack) : List Collector :=
  s.below.reverse ++ [s.top]

end CollectorStack

/-- What collectors hold, each diagnostic with the height of its collector. -/
def placed (cs : List Collector) : List (Diagnostic × Nat) :=
  cs.zipIdx.flatMap fun (c, height) => c.held.map (·, height)

section Placed

variable {cs : List Collector} {c : Collector}

/-- A collector on top holds its diagnostics at the greatest height. -/
theorem placed_concat (cs : List Collector) (c : Collector) :
    placed (cs ++ [c]) = placed cs ++ c.held.map (·, cs.length) := by
  simp [placed, List.zipIdx_append]

theorem snd_lt_of_mem_placed {x : Diagnostic × Nat} (h : x ∈ placed cs) : x.2 < cs.length := by
  obtain ⟨⟨c, height⟩, hc, hx⟩ := List.mem_flatMap.mp h
  obtain ⟨d, -, rfl⟩ := List.mem_map.mp hx
  exact (List.mem_zipIdx' hc).1

/-- What the collector at a height holds stands in its place. -/
theorem filter_placed {height : Nat} (h : cs[height]? = some c) :
    ((placed cs).filter (·.2 = height)).map (·.1) = c.held := by
  induction cs using List.reverseRecOn with
  | nil => simp at h
  | append_singleton cs last ih =>
    rw [placed_concat, List.filter_append, List.map_append]
    rcases Nat.lt_trichotomy height cs.length with hlt | heq | hgt
    · rw [List.getElem?_append_left hlt] at h
      have hother : cs.length ≠ height := by omega
      rw [ih h]
      simp [List.filter_map, Function.comp_def, hother]
    · subst heq
      rw [List.getElem?_concat_length] at h
      obtain rfl := Option.some.inj h
      have hnone : (placed cs).filter (·.2 = cs.length) = [] := by
        refine List.filter_eq_nil_iff.mpr fun x hx => ?_
        have hlt := snd_lt_of_mem_placed hx
        simp only [decide_eq_true_eq]
        omega
      rw [hnone]
      simp [List.filter_map, Function.comp_def]
    · rw [List.getElem?_eq_none (by simp; omega)] at h
      cases h

theorem map_fst_placed (cs : List Collector) : (placed cs).map (·.1) = cs.flatMap (·.held) := by
  induction cs using List.reverseRecOn with
  | nil => rfl
  | append_singleton cs c ih =>
    rw [placed_concat, List.map_append, ih, List.flatMap_append, List.flatMap_singleton,
      List.map_map]
    exact congrArg _ (List.map_id _)

end Placed

/-- What a stack of collectors holds is what the single collectors hold, from the lowest to the top
one. -/
theorem CollectorStack.contents_eq (s : CollectorStack) :
    s.contents = (placed s.collectors).map (·.1) := by
  rw [map_fst_placed, collectors, contents, List.flatMap_append, List.flatMap_singleton]

/-! ### Ledgers -/

/-- Where a diagnostic is: in the collector at a height of the stack, or among what the take of a
number gave. -/
inductive Whereabouts where
  | held (height : Nat)
  | taken (number : Nat)
  deriving DecidableEq

/-- The height of the top, the number of takes so far, and an entry for each diagnostic. -/
structure Ledger where
  top : Nat := 0
  takes : Nat := 0
  entries : List (Diagnostic × Whereabouts) := []

namespace Ledger

/-- Notes that everything at one place is at another now. -/
def move (l : Ledger) (source target : Whereabouts) : List (Diagnostic × Whereabouts) :=
  l.entries.map fun (d, place) => (d, if place = source then target else place)

/-- Enters a diagnostic at the height of the top, unless its advisory is switched off. -/
def add (switches : AdvisorySwitches) (l : Ledger) (d : Diagnostic) : Ledger :=
  if switches.shows d then { l with entries := l.entries ++ [(d, .held l.top)] } else l

/-- Enters a step. -/
def record (switches : AdvisorySwitches) (l : Ledger) (step : CollectorStep) : Ledger :=
  match step with
  | .fork => { l with top := l.top + 1 }
  | .merge => { l with top := l.top - 1, entries := l.move (.held l.top) (.held (l.top - 1)) }
  | .take => { l with takes := l.takes + 1, entries := l.move (.held l.top) (.taken l.takes) }
  | step => step.added?.elim l (l.add switches)

/-- The ledger after some steps. -/
def ofSteps (switches : AdvisorySwitches) (steps : List CollectorStep) : Ledger :=
  steps.foldl (record switches) {}

/-- The diagnostics that are at a place, in the order in which they were added. -/
def diagnosticsAt (l : Ledger) (place : Whereabouts) : List Diagnostic :=
  (l.entries.filter (·.2 = place)).map (·.1)

/-- The diagnostics that were not taken, with the heights of their collectors, in the order in which
they were added. -/
def held (l : Ledger) : List (Diagnostic × Nat) :=
  l.entries.filterMap fun (d, place) =>
    match place with
    | .held height => some (d, height)
    | .taken _ => none

/-! ### What the ledger describes -/

/-- A ledger describes a session: the entries that are held are what the collectors hold, those that
were taken are what the takes gave, and all collectors have the same switches. -/
structure Describes (switches : AdvisorySwitches) (l : Ledger) (s : CollectorSession) : Prop where
  top : s.stack.below.length = l.top
  takes : s.taken.length = l.takes
  switches : s.stack.top.switches = switches ∧ ∀ c ∈ s.stack.below, c.switches = switches
  held : l.held = placed s.stack.collectors
  taken : ∀ number ds, s.taken[number]? = some ds → l.diagnosticsAt (.taken number) = ds
  none_taken : ∀ number, l.takes ≤ number → l.diagnosticsAt (.taken number) = []

section Move

variable {l l' : Ledger} {source target place : Whereabouts}

/-- What is at a place stays there if the place is not concerned. -/
theorem diagnosticsAt_of_move (h : l'.entries = l.move source target) (hsource : place ≠ source)
    (htarget : place ≠ target) : l'.diagnosticsAt place = l.diagnosticsAt place := by
  rw [diagnosticsAt, diagnosticsAt, h, move, List.filter_map, List.map_map]
  congr 1
  refine List.filter_congr fun e _ => ?_
  by_cases he : e.2 = source
  · simp [he, hsource.symm, htarget.symm]
  · simp [he]

/-- What is moved to an empty place is what is there then. -/
theorem diagnosticsAt_target_of_move (h : l'.entries = l.move source target)
    (hempty : l.diagnosticsAt target = []) :
    l'.diagnosticsAt target = l.diagnosticsAt source := by
  rw [diagnosticsAt, List.map_eq_nil_iff, List.filter_eq_nil_iff] at hempty
  rw [diagnosticsAt, diagnosticsAt, h, move, List.filter_map, List.map_map]
  congr 1
  refine List.filter_congr fun e he => ?_
  have hne : e.2 ≠ target := by simpa using hempty e he
  by_cases hsource : e.2 = source
  · simp [hsource]
  · simp [hsource, hne]

/-- A merge moves entries to the height below. -/
theorem held_of_move_held {a b : Nat} (h : l'.entries = l.move (.held a) (.held b)) :
    l'.held = l.held.map fun x => (x.1, if x.2 = a then b else x.2) := by
  rw [held, held, h, move, List.filterMap_map, List.map_filterMap]
  congr 1
  funext ⟨d, place⟩
  cases place with
  | held height => by_cases hheight : height = a <;> simp [hheight]
  | taken number => simp

/-- A take moves the entries of a height out of what is held. -/
theorem held_of_move_taken {a n : Nat} (h : l'.entries = l.move (.held a) (.taken n)) :
    l'.held = l.held.filter (·.2 ≠ a) := by
  rw [held, held, h, move, List.filterMap_map, List.filter_filterMap]
  congr 1
  funext ⟨d, place⟩
  cases place with
  | held height => by_cases hheight : height = a <;> simp [hheight, Option.filter]
  | taken number => simp

end Move

/-- What is held at a height, among all that is held. -/
theorem diagnosticsAt_held (l : Ledger) (height : Nat) :
    l.diagnosticsAt (.held height) = (l.held.filter (·.2 = height)).map (·.1) := by
  rw [diagnosticsAt, held]
  induction l.entries with
  | nil => rfl
  | cons e entries ih =>
    obtain ⟨d, place⟩ := e
    cases place with
    | held other => by_cases hother : other = height <;> simp [hother, ih]
    | taken number => simp [ih]

/-! ### Steps in the ledger -/

namespace Describes

variable {switches : AdvisorySwitches} {l : Ledger} {s : CollectorSession}

/-- The ledger of a session that has not begun is empty. -/
theorem start (switches : AdvisorySwitches) :
    Describes switches {} (CollectorSession.start switches) where
  top := rfl
  takes := rfl
  switches := ⟨rfl, fun _ hc => absurd hc List.not_mem_nil⟩
  held := rfl
  taken := by simp [CollectorSession.start]
  none_taken _ _ := rfl

variable (h : l.Describes switches s)
include h

/-- The top holds the entries of its height. -/
theorem diagnosticsAt_top : l.diagnosticsAt (.held l.top) = s.stack.top.held := by
  have htop : s.stack.collectors[l.top]? = some s.stack.top := by
    rw [CollectorStack.collectors, ← h.top, ← List.length_reverse, List.getElem?_concat_length]
  rw [diagnosticsAt_held, h.held, filter_placed htop]

/-- What is added to the top is entered at its height. -/
theorem add (d : Diagnostic) : (l.add switches d).Describes switches (s.add d) := by
  have hadd : s.stack.top.add d =
      if switches.shows d then { s.stack.top with held := s.stack.top.held ++ [d] }
      else s.stack.top := by
    rw [← h.switches.1]
    rfl
  rw [CollectorSession.add, CollectorStack.add, hadd, Ledger.add]
  split
  · exact {
      top := h.top
      takes := h.takes
      switches := h.switches
      held := by
        rw [CollectorStack.collectors, placed_concat, List.map_append, ← List.append_assoc,
          ← placed_concat, List.length_reverse, h.top]
        exact (List.filterMap_append).trans (congrArg (· ++ _) h.held)
      taken := fun number ds hds => by
        rw [← h.taken number ds hds, diagnosticsAt, List.filter_append]
        simp [diagnosticsAt]
      none_taken := fun number hnumber => by
        rw [← h.none_taken number hnumber, diagnosticsAt, List.filter_append]
        simp [diagnosticsAt] }
  · exact h

/-- A fork is an empty collector above the others. -/
theorem fork : (l.record switches .fork).Describes switches
    { s with stack := s.stack.fork } where
  top := congrArg (· + 1) h.top
  takes := h.takes
  switches := ⟨h.switches.1, List.forall_mem_cons.mpr h.switches⟩
  held := by
    have hcollectors : s.stack.fork.collectors = s.stack.collectors ++ [s.stack.top.fork] := by
      simp [CollectorStack.fork, CollectorStack.collectors]
    rw [hcollectors, placed_concat, ← h.held]
    exact (List.append_nil _).symm
  taken := h.taken
  none_taken := h.none_taken

/-- What the top holds comes behind what the collector below it holds, where it stood before. -/
theorem merge {stack : CollectorStack} (hmerge : s.stack.merge? = some stack) :
    (l.record switches .merge).Describes switches { s with stack } := by
  rw [CollectorStack.merge?] at hmerge
  split at hmerge
  · cases hmerge
  · next next rest hbelow =>
    obtain rfl := Option.some.inj hmerge
    have htop : rest.length + 1 = l.top := by rw [← h.top, hbelow, List.length_cons]
    have hswitches := h.switches.2
    rw [hbelow, List.forall_mem_cons] at hswitches
    exact {
      top := by simp [record, ← htop]
      takes := h.takes
      switches := hswitches
      held := by
        have hlower : (placed (rest.reverse ++ [next])).map
            (fun x => (x.1, if x.2 = l.top then l.top - 1 else x.2)) =
              placed (rest.reverse ++ [next]) := by
          refine (List.map_congr_left fun x hx => ?_).trans (List.map_id _)
          have hlt := snd_lt_of_mem_placed hx
          have hne : x.2 ≠ l.top := by
            rw [List.length_append, List.length_reverse, List.length_singleton, htop] at hlt
            exact Nat.ne_of_lt hlt
          rw [if_neg hne]
          rfl
        rw [held_of_move_held rfl, h.held, CollectorStack.collectors, hbelow, List.reverse_cons,
          placed_concat _ s.stack.top, List.map_append, hlower, placed_concat,
          CollectorStack.collectors, placed_concat, ← htop]
        simp [Collector.merge]
      taken := fun number ds hds => by
        rw [← h.taken number ds hds]
        exact diagnosticsAt_of_move rfl (by simp) (by simp)
      none_taken := fun number hnumber => by
        rw [← h.none_taken number hnumber]
        exact diagnosticsAt_of_move rfl (by simp) (by simp) }

/-- A take gives what stands at the height of the top. -/
theorem take : (l.record switches .take).Describes switches
    ⟨s.stack.take.2, s.taken ++ [s.stack.take.1]⟩ where
  top := h.top
  takes := by simp [record, h.takes]
  switches := h.switches
  held := by
    have hlower : (placed s.stack.below.reverse).filter (·.2 ≠ l.top) =
        placed s.stack.below.reverse := by
      refine List.filter_eq_self.mpr fun x hx => ?_
      have hlt := snd_lt_of_mem_placed hx
      rw [List.length_reverse, h.top] at hlt
      simpa using Nat.ne_of_lt hlt
    rw [held_of_move_taken rfl, h.held, CollectorStack.collectors, placed_concat,
      List.filter_append, hlower, List.length_reverse, h.top, CollectorStack.collectors,
      placed_concat]
    simp [CollectorStack.take, Collector.fork, List.filter_map, Function.comp_def]
  taken number ds hds := by
    have hgiven : (l.record switches .take).diagnosticsAt (.taken l.takes) = s.stack.take.1 :=
      (diagnosticsAt_target_of_move rfl (h.none_taken _ (Nat.le_refl _))).trans h.diagnosticsAt_top
    rw [List.getElem?_append] at hds
    split at hds
    · next hlt =>
      rw [← h.taken number ds hds]
      refine diagnosticsAt_of_move rfl (by simp) ?_
      simpa [← h.takes] using Nat.ne_of_lt hlt
    · next hle =>
      obtain ⟨hzero, rfl⟩ := List.getElem?_eq_some_iff.mp hds
      rw [List.length_singleton, Nat.lt_one_iff] at hzero
      obtain rfl : number = l.takes := by rw [← h.takes]; omega
      simpa [hzero] using hgiven
  none_taken number hnumber := by
    have hlt : l.takes < number := hnumber
    rw [← h.none_taken number (Nat.le_of_lt hlt)]
    exact diagnosticsAt_of_move rfl (by simp) (by simpa using Nat.ne_of_gt hlt)

/-- Every step keeps the description right. -/
theorem step {step : CollectorStep} {s' : CollectorSession} (hstep : s.step? step = some s') :
    (l.record switches step).Describes switches s' := by
  cases step with
  | add d => exact Option.some.inj hstep ▸ h.add d
  | error loc code message => exact Option.some.inj hstep ▸ h.add (.error loc code message)
  | report advisory loc message =>
    exact Option.some.inj hstep ▸ h.add (.warning advisory loc message)
  | duplicate loc previous code message =>
    exact Option.some.inj hstep ▸ h.add (.duplicate loc previous code message)
  | fork => exact Option.some.inj hstep ▸ h.fork
  | merge =>
    obtain ⟨stack, hmerge, rfl⟩ := Option.map_eq_some_iff.mp hstep
    exact h.merge hmerge
  | take => exact Option.some.inj hstep ▸ h.take

/-- And so do several steps. -/
theorem run {steps : List CollectorStep} {s' : CollectorSession}
    (hrun : s.run? steps = some s') : (steps.foldl (record switches) l).Describes switches s' := by
  induction steps generalizing l s with
  | nil =>
    obtain rfl := Option.some.inj hrun
    exact h
  | cons step steps ih =>
    rw [CollectorSession.run?, List.foldlM_cons] at hrun
    obtain ⟨next, hstep, hrest⟩ := Option.bind_eq_some_iff.mp hrun
    exact ih (h.step hstep) hrest

/-- What is held is an entry. -/
theorem mem_entries {c : Collector} (hc : c ∈ s.stack.collectors) {d : Diagnostic}
    (hd : d ∈ c.held) : d ∈ l.entries.map (·.1) := by
  obtain ⟨height, hheight⟩ := List.getElem?_of_mem hc
  rw [← filter_placed hheight, ← h.held, ← diagnosticsAt_held] at hd
  exact (List.filter_sublist.map _).mem hd

end Describes

/-- A step enters the diagnostic that it adds behind all others, if the switches show it, and
removes nothing. -/
theorem map_fst_entries_record (switches : AdvisorySwitches) (l : Ledger) (step : CollectorStep) :
    (l.record switches step).entries.map (·.1) =
      l.entries.map (·.1) ++ step.added?.toList.filter switches.shows := by
  have hadd : ∀ d, (l.add switches d).entries.map (·.1) =
      l.entries.map (·.1) ++ [d].filter switches.shows := by
    intro d
    rw [Ledger.add]
    split
    · next hshown => simp [hshown]
    · next hhidden => simp [hhidden]
  have hmove : ∀ source target, (l.move source target).map (·.1) = l.entries.map (·.1) := by
    intro source target
    simp [move, Function.comp_def]
  cases step with
  | add d => exact hadd d
  | error loc code message => exact hadd (.error loc code message)
  | report advisory loc message => exact hadd (.warning advisory loc message)
  | duplicate loc previous code message => exact hadd (.duplicate loc previous code message)
  | fork => exact (List.append_nil _).symm
  | merge => exact (hmove _ _).trans (List.append_nil _).symm
  | take => exact (hmove _ _).trans (List.append_nil _).symm

/-- The entries are what was added and is shown, in the order of adding. -/
theorem map_fst_entries_ofSteps (switches : AdvisorySwitches) (steps : List CollectorStep) :
    (ofSteps switches steps).entries.map (·.1) =
      (steps.filterMap (·.added?)).filter switches.shows := by
  induction steps using List.reverseRecOn with
  | nil => rfl
  | append_singleton steps step ih =>
    rw [ofSteps, List.foldl_append, List.foldl_cons, List.foldl_nil, map_fst_entries_record,
      ← ofSteps, ih, List.filterMap_append, List.filter_append]
    cases h : step.added? <;> simp [h]

end Ledger

/-! ### Sessions -/

/-- **Diagnostics are conserved**: whatever is done to a stack that began with one empty collector,
every diagnostic that was added and is not switched off has exactly one entry in the ledger, in the
order of adding. The stack holds, from its bottom to its top and in this order, those that were not
taken; each take has given those that it moved out, and each collector holds those of its height. No
collector holds a diagnostic of an advisory that is switched off, and each one counts what it
holds. -/
theorem CollectorSession.conserves_diagnostics {switches : AdvisorySwitches}
    {steps : List CollectorStep} {s : CollectorSession}
    (hrun : (start switches).run? steps = some s) :
    let ledger := Ledger.ofSteps switches steps
    ledger.entries.map (·.1) = (steps.filterMap (·.added?)).filter switches.shows ∧
      s.stack.contents = ledger.held.map (·.1) ∧
      s.taken = (List.range ledger.takes).map (fun number => ledger.diagnosticsAt (.taken number)) ∧
      (∀ height c, s.stack.collectors[height]? = some c →
        c.held = ledger.diagnosticsAt (.held height)) ∧
      ∀ c ∈ s.stack.collectors,
        (∀ d ∈ c.held, ∀ advisory ∈ d.advisory, advisory ∉ switches.disabled) ∧
          (c.hasErrors = true ↔ ∃ d ∈ c.held, d.severity = .error) ∧
          c.errorCount = (c.held.filter (·.severity = .error)).length ∧
          c.warningCount = (c.held.filter (·.severity = .warning)).length := by
  intro ledger
  have hledger : ledger.Describes switches s := (Ledger.Describes.start switches).run hrun
  have hentries := Ledger.map_fst_entries_ofSteps switches steps
  refine ⟨hentries, ?_, ?_, fun height c hc => ?_, fun c hc => ⟨fun d hd => ?_, ?_, ?_, ?_⟩⟩
  · rw [CollectorStack.contents_eq, hledger.held]
  · refine List.ext_getElem (by simp [hledger.takes, ledger]) fun number hnumber _ => ?_
    rw [List.getElem_map, List.getElem_range]
    exact (hledger.taken number _ (List.getElem?_eq_getElem hnumber)).symm
  · rw [Ledger.diagnosticsAt_held, hledger.held, filter_placed hc]
  · have hmem := hledger.mem_entries hc hd
    rw [hentries] at hmem
    intro advisory hadvisory
    have hshown := (List.mem_filter.mp hmem).2
    rw [AdvisorySwitches.shows, hadvisory] at hshown
    simpa [AdvisorySwitches.isEnabled] using hshown
  · simp [Collector.hasErrors, Diagnostic.isError]
  · rw [Collector.errorCount, List.countP_eq_length_filter]
    rfl
  · rw [Collector.warningCount, List.countP_eq_length_filter]
    refine congrArg List.length (List.filter_congr fun d _ => ?_)
    rw [Diagnostic.isError]
    cases d.severity <;> rfl

/-- Two forks are merged after a take in the first of them, with advice that is switched off. -/
theorem CollectorSession.conserves_diagnostics_forks :
    let loc : Nat → Location := fun line => ⟨"Clock.aidl", some ⟨⟨line, 1⟩, ⟨line, 9⟩⟩⟩
    let switches : AdvisorySwitches := ⟨[.inoutParameter]⟩
    let steps : List CollectorStep :=
      [.error (loc 1) "E0101" "first", .fork, .report .inoutParameter (loc 2) "hidden",
        .duplicate (loc 3) (loc 1) "E0201" "taken", .take, .report .interfaceName (loc 4) "second",
        .fork, .add (.error (loc 5) "E0102" "third"), .merge, .merge]
    ∃ s, (start switches).run? steps = some s ∧ s.stack.below = [] ∧
      s.stack.contents.map (·.message) = ["first", "second", "third"] ∧
      s.taken.map (·.map (·.message)) = [["taken"]] := by
  intro loc switches steps
  obtain ⟨s, hrun⟩ : ∃ s, (start switches).run? steps = some s := ⟨_, rfl⟩
  obtain ⟨-, hcontents, htaken, -, -⟩ := conserves_diagnostics hrun
  refine ⟨s, hrun, ?_, ?_, ?_⟩
  · obtain rfl := Option.some.inj hrun
    rfl
  · rw [hcontents]
    decide
  · rw [htaken]
    decide

end InterfaceDefinition
