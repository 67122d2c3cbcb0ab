import InterfaceDefinition.Proofs.Resolution.Complaints

/-!
# Ambiguous names

Imports are gone through in order and only neighbours are compared, but what a name stands for is a
matter of the classes alone that the imports provide for its first segment: with more than one the
name is ambiguous, one is what it stands for, and without any it stands for itself. So the order in
which the imports stand and how often each of them does make no difference
(`Import.resolveName_ambiguous_iff`). They decide only which two are named when there is a conflict.
-/

namespace InterfaceDefinition

namespace Import

variable {imports imports' : List Import} {name cls : String}

/-! ### Provided classes -/

/-- The imports provide a class for the first segment of a name. -/
def Provides (imports : List Import) (name cls : String) : Prop :=
  ∃ i ∈ imports, i.simpleName = Dotted.firstSegment name ∧ i.neededClass = cls

/-- A class is provided when it is imported and its simple name is the first segment. -/
theorem provides_iff : Provides imports name cls ↔
    cls ∈ imports.map (·.neededClass) ∧ Dotted.lastSegment cls = Dotted.firstSegment name := by
  rw [Provides, List.mem_map]
  constructor
  · rintro ⟨i, hi, hname, rfl⟩
    exact ⟨⟨i, hi, rfl⟩, hname⟩
  · rintro ⟨⟨i, hi, rfl⟩, hname⟩
    exact ⟨i, hi, hname, rfl⟩

/-- Imports disagree when they provide two classes. -/
theorem disagree_iff : Disagree imports name ↔
    ∃ cls other, Provides imports name cls ∧ Provides imports name other ∧ cls ≠ other := by
  constructor
  · rintro ⟨i, hi, j, hj, hname, hname', hne⟩
    exact ⟨_, _, ⟨i, hi, hname, rfl⟩, ⟨j, hj, hname', rfl⟩, hne⟩
  · rintro ⟨_, _, ⟨i, hi, hname, rfl⟩, ⟨j, hj, hname', rfl⟩, hne⟩
    exact ⟨i, hi, j, hj, hname, hname', hne⟩

instance (imports : List Import) (name : String) : Decidable (Disagree imports name) :=
  inferInstanceAs (Decidable (∃ i ∈ imports, ∃ j ∈ imports, _ ∧ _ ∧ _))

/-! ### What a name stands for -/

/-- Where imports disagree, two that are in conflict are reported: an error at the later of them,
which names the classes of both. -/
theorem resolveName_of_disagree (h : Disagree imports name) :
    ∃ earlier later, Conflict imports name earlier later ∧
      resolveName imports name = ⟨none,
        [{ location := later.location, severity := .error, code := some "E0501", advisory := none,
           message :=
            "Ambiguous type: " ++ earlier.neededClass ++ " vs. " ++ later.neededClass }]⟩ := by
  obtain ⟨⟨earlier, later⟩, hconflict⟩ := Option.isSome_iff_exists.mp (isSome_conflict?_iff.mpr h)
  refine ⟨earlier, later, conflict_of_conflict?_eq_some hconflict, ?_⟩
  cases hlist : providing imports name with
  | nil => simp [conflict?, hlist] at hconflict
  | cons first rest =>
    rw [conflict?, hlist] at hconflict
    rw [resolveName, hlist]
    dsimp only at hconflict ⊢
    rw [hconflict]
    rfl

/-- Where they do not, a class that is provided is what the name stands for. -/
theorem resolveName_of_provides (h : ¬ Disagree imports name) (hcls : Provides imports name cls) :
    resolveName imports name = pure (some cls) := by
  obtain ⟨i, hi, hname, rfl⟩ := hcls
  have hmem : i ∈ providing imports name := List.mem_filter.mpr ⟨hi, by simpa using hname⟩
  have hnone : conflict? imports name = none := by
    rw [← Option.not_isSome_iff_eq_none, isSome_conflict?_iff]
    exact h
  have hagree := conflict?_eq_none_iff.mp hnone
  rw [conflict?] at hnone
  rw [resolveName]
  cases hlist : providing imports name with
  | nil => simp [hlist] at hmem
  | cons first rest =>
    rw [hlist] at hnone hagree hmem
    simp only [hnone, hagree first List.mem_cons_self i hmem]

/-- A name for which no class is provided stands for itself. -/
theorem resolveName_of_unprovided (h : ∀ i ∈ imports, i.simpleName ≠ Dotted.firstSegment name) :
    resolveName imports name = pure (some name) := by
  have hnil : providing imports name = [] :=
    List.filter_eq_nil_iff.mpr fun i hi => by simpa using h i hi
  rw [resolveName, hnil]

/-- So a name stands for something unless imports disagree about it, and nothing is reported. -/
theorem resolveName_of_not_disagree (h : ¬ Disagree imports name) :
    ∃ full, resolveName imports name = pure (some full) := by
  by_cases hcls : ∃ cls, Provides imports name cls
  · obtain ⟨cls, hcls⟩ := hcls
    exact ⟨cls, resolveName_of_provides h hcls⟩
  · exact ⟨name, resolveName_of_unprovided fun i hi hname => hcls ⟨_, i, hi, hname, rfl⟩⟩

/-- The classes that are provided decide what the name stands for. -/
theorem value_resolveName_congr
    (h : ∀ cls, Provides imports name cls ↔ Provides imports' name cls) :
    (resolveName imports name).value = (resolveName imports' name).value := by
  have hdisagree : Disagree imports name ↔ Disagree imports' name := by
    simp only [disagree_iff, h]
  by_cases hd : Disagree imports name
  · obtain ⟨_, _, -, hname⟩ := resolveName_of_disagree hd
    obtain ⟨_, _, -, hname'⟩ := resolveName_of_disagree (hdisagree.mp hd)
    rw [hname, hname']
  · by_cases hcls : ∃ cls, Provides imports name cls
    · obtain ⟨cls, hcls⟩ := hcls
      rw [resolveName_of_provides hd hcls,
        resolveName_of_provides (mt hdisagree.mpr hd) ((h cls).mp hcls)]
    · have hnone : ∀ i ∈ imports, i.simpleName ≠ Dotted.firstSegment name :=
        fun i hi hname => hcls ⟨_, i, hi, hname, rfl⟩
      have hnone' : ∀ i ∈ imports', i.simpleName ≠ Dotted.firstSegment name :=
        fun i hi hname => hcls ⟨_, (h _).mpr ⟨i, hi, hname, rfl⟩⟩
      rw [resolveName_of_unprovided hnone, resolveName_of_unprovided hnone']

/-- **Names are read without regard to the order of imports.** A name has no reading exactly when
two imports disagree about its first segment, and then one error is reported: it stands at the later
of two imports that are in conflict and names the classes of both. Otherwise nothing is reported,
and the name stands for the class that an import provides for it, or for itself when none does.
Under other imports of the same classes, as in another order or with repetitions, it has the same
reading. -/
theorem resolveName_ambiguous_iff (imports : List Import) (name : String) :
    let reading := resolveName imports name
    (reading.value = none ↔ Disagree imports name) ∧
    (Disagree imports name → ∃ earlier later, Conflict imports name earlier later ∧
      reading.diagnostics =
        [{ location := later.location, severity := .error, code := some "E0501", advisory := none,
           message :=
            "Ambiguous type: " ++ earlier.neededClass ++ " vs. " ++ later.neededClass }]) ∧
    (¬ Disagree imports name → reading.diagnostics = [] ∧
      (∀ i ∈ imports, i.simpleName = Dotted.firstSegment name →
        reading.value = some i.neededClass) ∧
      ((∀ i ∈ imports, i.simpleName ≠ Dotted.firstSegment name) → reading.value = some name)) ∧
    ∀ imports' : List Import,
      (∀ cls, cls ∈ imports'.map (·.neededClass) ↔ cls ∈ imports.map (·.neededClass)) →
        (resolveName imports' name).value = reading.value := by
  intro reading
  refine ⟨⟨fun hnone => ?_, fun hd => ?_⟩, fun hd => ?_, fun hd => ⟨?_, ?_, ?_⟩, ?_⟩
  · by_contra hd
    obtain ⟨full, hreading⟩ := resolveName_of_not_disagree hd
    have hsome : reading.value = some full := congrArg Reporting.value hreading
    simp [hnone] at hsome
  · obtain ⟨_, _, -, hreading⟩ := resolveName_of_disagree hd
    exact congrArg Reporting.value hreading
  · obtain ⟨earlier, later, hconflict, hreading⟩ := resolveName_of_disagree hd
    exact ⟨earlier, later, hconflict, congrArg Reporting.diagnostics hreading⟩
  · obtain ⟨full, hreading⟩ := resolveName_of_not_disagree hd
    exact congrArg Reporting.diagnostics hreading
  · intro i hi hname
    exact congrArg Reporting.value (resolveName_of_provides hd ⟨i, hi, hname, rfl⟩)
  · intro hnone
    exact congrArg Reporting.value (resolveName_of_unprovided hnone)
  · intro imports' hclasses
    refine value_resolveName_congr fun cls => ?_
    rw [provides_iff, provides_iff, hclasses]

/-- One class may be imported twice; a second class of the name is in conflict with it, and the
error stands at the import that comes later and names both. -/
theorem resolveName_ambiguous_iff_repeated :
    let loc : Nat → Location := fun line => ⟨"Basket.aidl", some ⟨⟨line, 1⟩, ⟨line, 9⟩⟩⟩
    let item : Import := ⟨loc 1, "a.Item"⟩
    let shelf : Import := ⟨loc 2, "a.Shelf"⟩
    let other : Import := ⟨loc 3, "b.Item"⟩
    ¬ Disagree [item, shelf] "Item.Size" ∧
      (resolveName [item, shelf] "Item.Size").value = some "a.Item" ∧
      (∀ cls, cls ∈ [shelf, item, item].map (·.neededClass) ↔
        cls ∈ [item, shelf].map (·.neededClass)) ∧
      (resolveName [shelf, item, item] "Item.Size").value = some "a.Item" ∧
      Disagree [item, shelf, other] "Item.Size" ∧
      (resolveName [item, shelf, other] "Item.Size").value = none ∧
      Conflict [item, shelf, other] "Item.Size" item other ∧
      (resolveName [item, shelf, other] "Item.Size").diagnostics =
        [⟨loc 3, .error, some "E0501", none, "Ambiguous type: a.Item vs. b.Item", []⟩] := by
  intro loc item shelf other
  have hagree : ¬ Disagree [item, shelf] "Item.Size" := by decide +kernel
  have hclasses : ∀ cls, cls ∈ [shelf, item, item].map (·.neededClass) ↔
      cls ∈ [item, shelf].map (·.neededClass) := by
    simp only [List.map_cons, List.map_nil, List.mem_cons]
    grind
  have hdisagree : Disagree [item, shelf, other] "Item.Size" := by decide +kernel
  obtain ⟨-, -, hsilent, horder⟩ := resolveName_ambiguous_iff [item, shelf] "Item.Size"
  have hvalue : (resolveName [item, shelf] "Item.Size").value = some "a.Item" :=
    (hsilent hagree).2.1 item List.mem_cons_self (by decide +kernel)
  obtain ⟨hnone, hreported, -⟩ := resolveName_ambiguous_iff [item, shelf, other] "Item.Size"
  obtain ⟨earlier, later, hconflict, hdiagnostics⟩ := hreported hdisagree
  obtain ⟨rfl, rfl⟩ : earlier = item ∧ later = other := by
    -- the shelf does not provide the name, so the conflict is all that is left of the imports
    have hleft : [item, shelf, other].filter (·.simpleName == Dotted.firstSegment "Item.Size") =
        [item, other] := by
      rw [List.filter_cons_of_pos (by decide +kernel), List.filter_cons_of_neg (by decide +kernel),
        List.filter_cons_of_pos (by decide +kernel), List.filter_nil]
    have hsub := hconflict.sublist.filter (·.simpleName == Dotted.firstSegment "Item.Size")
    rw [hleft, List.filter_eq_self.mpr (by simp [hconflict.simpleName_earlier,
      hconflict.simpleName_later])] at hsub
    simpa using hsub.eq_of_length rfl
  exact ⟨hagree, hvalue, hclasses, (horder _ hclasses).trans hvalue, hdisagree,
    hnone.mpr hdisagree, hconflict, hdiagnostics⟩

end Import

end InterfaceDefinition
