import InterfaceDefinition.Decl.Check
import InterfaceDefinition.Proofs.Verdict.Honest

/-!
# The checks are honest

Every check of annotations, types, members and declarations is honest, so the check of a document is
(`Document.honest_check`, `Document.honest_checkFor`). Each proof follows the lines of the check:
a line that is a check of its own is discharged by its lemma, the last line by the verdicts that
were collected.
-/

namespace InterfaceDefinition

/-! ### Annotations -/

/-- What is wrong with a parameter that was given is a fault of annotations. -/
theorem Annotation.exists_of_mem_paramFault? {a : Annotation} {param : String} {expr : Expr}
    {d : Diagnostic} (h : d ∈ a.paramFault? param expr) :
    ∃ (fault : AnnotationFault) (loc : Location), d = fault.diagnostic loc := by
  unfold paramFault? at h
  split at h
  · exact ⟨_, _, (Option.some.inj h).symm⟩
  · exact ⟨_, _, (Option.some.inj h).symm⟩
  · split at h
    · simp at h
    · exact ⟨_, _, (Option.some.inj h).symm⟩

theorem Annotation.isHard_of_paramFault? {a : Annotation} {param : String} {expr : Expr}
    {d : Diagnostic} (h : d ∈ a.paramFault? param expr) : d.IsHard := by
  obtain ⟨fault, loc, rfl⟩ := exists_of_mem_paramFault? h
  exact Diagnostic.isHard_error ..

theorem Annotation.honest_check (a : Annotation) : a.check.Honest true :=
  .bind (.checkEach fun _ _ => .verdict fun _ => isHard_of_paramFault?) fun _ =>
    .bind (.checkEach fun _ _ => .verdict_unless (Diagnostic.isHard_error ..)) fun _ =>
      .pure (by simp)

namespace AnnotationSet

theorem honest_checkOne (owner : Location) (supported : List AnnotationKind)
    (seen : List Annotation) (a : Annotation) :
    HonestVerdict true (some (checkOne owner supported seen a).value.1)
      (checkOne owner supported seen a).diagnostics := by
  rw [checkOne]
  split
  · exact .singleton (Diagnostic.isHard_error ..)
  · have ha := a.honest_check
    rw [Reporting.bind_def]
    refine HonestVerdict.append ha ?_
    rw [Bool.true_and]
    -- an annotation that fails its own check is not compared with the ones before it
    cases a.check.value with
    | false => exact .silent
    | true =>
      simp only [Bool.not_true, Bool.false_eq_true, if_false]
      split
      · exact .silent
      · split
        · exact .singleton (Diagnostic.isHard_duplicate ..)
        · exact .silent

theorem honest_checkFrom (owner : Location) (supported : List AnnotationKind)
    (seen : List Annotation) (annotations : List Annotation) :
    (checkFrom owner supported seen annotations).Honest true := by
  induction annotations generalizing seen with
  | nil => exact .pure rfl
  | cons a rest ih =>
    exact .bind_of_verdict Prod.fst (honest_checkOne owner supported seen a) fun ⟨_, seen⟩ =>
      .bind (ih seen) fun _ => .pure (by simp)

theorem honest_check (s : AnnotationSet) (owner : Location) (supported : List AnnotationKind) :
    (s.check owner supported).Honest true :=
  honest_checkFrom owner supported [] s.toList

end AnnotationSet

/-! ### Types -/

namespace TypeSpec

theorem honest_checkForm (r : Registry) (t : TypeSpec) : (t.checkForm r).Honest true :=
  .verdict_map fun _ => Diagnostic.isHard_error ..

mutual

theorem honest_check (r : Registry) : (t : TypeSpec) → Fallible.Honest true (t.check r)
  | ⟨loc, base, arguments, isArray, annotations, comments⟩ => by
    rw [check]
    refine .bind (.lift (annotations.honest_check loc supportedAnnotations)) fun _ => .guard ?_
    refine .bind_silent fun _ _ => .bind (honest_checkAll r arguments) fun _ => .guard ?_
    exact .lift (honest_checkForm r _)

theorem honest_checkAll (r : Registry) :
    (ts : List TypeSpec) → Fallible.Honest true (checkAll r ts)
  | [] => by
    rw [checkAll]
    exact .pure rfl
  | t :: rest => by
    rw [checkAll]
    exact .bind (honest_check r t) fun _ => .bind (honest_checkAll r rest) fun _ => .pure (by simp)

end

theorem honest_checkFor (r : Registry) (b : Backend) (t : TypeSpec) :
    (t.checkFor r b).Honest true :=
  .verdict_map fun _ => Diagnostic.isHard_error ..

end TypeSpec

/-! ### Members -/

theorem Registry.honest_checkValue (r : Registry) (scope name : String) (type : TypeSpec)
    (value : Expr) : (r.checkValue scope name type value).Honest true :=
  .verdict_map fun _ => Diagnostic.isHard_error ..

theorem Field.honest_check (r : Registry) (scope : String) (f : Field) :
    Fallible.Honest true (f.check r scope) := by
  rw [Field.check]
  refine .bind (f.type.honest_check r) fun typeValid => ?_
  refine .bind (.lift (.verdict_if (Diagnostic.isHard_error ..))) fun notVoid => ?_
  -- the default is evaluated only while both verdicts are positive, which is one condition
  rw [Bool.and_assoc]
  split
  · exact .while_positive (.lift (r.honest_checkValue ..))
  · exact .pure rfl

theorem Constant.honest_check (r : Registry) (scope : String) (c : Constant) :
    Fallible.Honest true (c.check r scope) := by
  rw [Constant.check]
  refine .bind (c.type.honest_check r) fun _ => .guard ?_
  split
  · exact .lift (.reject (Diagnostic.isHard_error ..))
  · exact .lift (r.honest_checkValue ..)

theorem Constant.honest_checkAll (r : Registry) (scope : String) (constants : List Constant) :
    Fallible.Honest true (Constant.checkAll r scope constants) :=
  .checkEach fun (_, c) _ =>
    .bind (.lift (.verdict_if (Diagnostic.isHard_error ..))) fun _ =>
      .bind (c.honest_check r scope) fun _ => .pure (by simp)

theorem Enumerator.isHard_of_fault? {r : Registry} {scope : String} {backing : TypeSpec}
    {e : Enumerator} {value : Expr} {d : Diagnostic} (h : d ∈ e.fault? r scope backing value) :
    d.IsHard := by
  rw [Enumerator.fault?] at h
  split at h
  · exact Option.some.inj h ▸ Diagnostic.isHard_error ..
  · split at h
    · exact Option.some.inj h ▸ Diagnostic.isHard_error ..
    · simp at h

/-- The first fault of a list is one of them. -/
theorem exists_mem_of_firstFault? {α : Type} {rules : List (Bool × α)} {fault : α}
    (h : firstFault? rules = some fault) : ∃ rule ∈ rules, rule.2 = fault := by
  obtain ⟨rule, hrule, rfl⟩ := Option.map_eq_some_iff.mp h
  exact ⟨rule, List.mem_of_find?_eq_some hrule, rfl⟩

/-- What is wrong with an argument is a fault of methods under one of four codes. -/
theorem Argument.exists_of_mem_fault? {r : Registry} {m : Method} {a : Argument}
    {fault : Option Diagnostic} (h : a.fault? r m = .ok fault) {d : Diagnostic} (hd : d ∈ fault) :
    ∃ (f : MethodFault) (loc : Location), f.code ∈ ["E0303", "E0304", "E0305", "E0307"] ∧
      d = f.diagnostic loc := by
  rw [Argument.fault?] at h
  split at h
  · obtain rfl := Except.ok.inj h
    exact ⟨_, _, by simp [MethodFault.code], (Option.some.inj hd).symm⟩
  · split at h
    · obtain rfl := Except.ok.inj h
      exact ⟨_, _, by simp [MethodFault.code], (Option.some.inj hd).symm⟩
    · cases hout : r.outUsage a.type with
      | error e => simp [hout, bind, Except.bind] at h
      | ok usage =>
        simp only [hout] at h
        obtain rfl := Except.ok.inj h
        obtain ⟨rule, hrule, rfl⟩ := exists_mem_of_firstFault? hd
        simp only [List.mem_cons, List.not_mem_nil, or_false] at hrule
        rcases hrule with rfl | rfl | rfl | rfl <;>
          exact ⟨_, _, by simp [MethodFault.code], rfl⟩

theorem Argument.isHard_of_fault? {r : Registry} {m : Method} {a : Argument}
    {fault : Option Diagnostic} (h : a.fault? r m = .ok fault) {d : Diagnostic} (hd : d ∈ fault) :
    d.IsHard := by
  obtain ⟨f, loc, -, rfl⟩ := exists_of_mem_fault? h hd
  exact Diagnostic.isHard_error ..

theorem Argument.honest_check (r : Registry) (m : Method) (a : Argument) :
    Fallible.Honest true (a.check r m) := by
  rw [Argument.check]
  refine .bind (a.type.honest_check r) fun _ => .guard ?_
  refine .bind_silent fun fault hfault => ?_
  -- a direction that is only missing is advice, and advice leaves the verdict positive
  cases fault with
  | some d => exact .lift (.reject (isHard_of_fault? hfault rfl))
  | none =>
    dsimp only
    split
    · exact .advise rfl (.pure rfl)
    · exact .pure rfl

namespace Method

theorem honest_checkArguments (r : Registry) (m : Method)
    (arguments : List (List Argument × Argument)) :
    Fallible.Honest true (m.checkArguments r arguments) := by
  induction arguments with
  | nil => exact .pure rfl
  | cons first rest ih =>
    obtain ⟨earlier, a⟩ := first
    rw [checkArguments]
    split
    · exact .lift (.reject (Diagnostic.isHard_error ..))
    · exact .bind (a.honest_check r m) fun _ => .while_positive ih

theorem honest_check (r : Registry) (m : Method) : Fallible.Honest true (m.check r) := by
  rw [check]
  refine .bind (m.returnType.honest_check r) fun _ => .guard ?_
  split
  · exact .lift (.reject (Diagnostic.isHard_error ..))
  · exact m.honest_checkArguments r _

theorem isHard_of_nameFault? {earlier : List Method} {m : Method} {d : Diagnostic}
    (h : d ∈ m.nameFault? earlier) : d.IsHard := by
  rw [nameFault?] at h
  split at h
  · exact Option.some.inj h ▸ Diagnostic.isHard_duplicate ..
  · split at h
    · exact Option.some.inj h ▸ Diagnostic.isHard_error ..
    · simp at h

theorem honest_checkAll (r : Registry) (methods : List Method) :
    Fallible.Honest true (Method.checkAll r methods) :=
  .checkEach fun (_, m) _ =>
    .bind (m.honest_check r) fun _ =>
      .bind (.lift (.verdict fun _ => isHard_of_nameFault?)) fun _ => .pure (by simp)

end Method

/-! ### Declarations -/

namespace Header

variable (h : Header) (r : Registry)

theorem honest_checkAnnotations (kind : DeclKind) : (h.checkAnnotations kind).Honest true :=
  h.annotations.honest_check h.location kind.supportedAnnotations

theorem honest_checkTypeParams (typeParams : Option (List String)) :
    (h.checkTypeParams typeParams).Honest true :=
  .verdict_unless (Diagnostic.isHard_error ..)

theorem honest_checkFieldNames (fields : List Field) : (h.checkFieldNames fields).Honest true :=
  .checkEach fun _ _ => .verdict_map fun _ => Diagnostic.isHard_duplicate ..

theorem honest_checkGetterNames (fields : List Field) : (h.checkGetterNames fields).Honest true :=
  .checkEach fun _ _ => .verdict_if (Diagnostic.isHard_error ..)

theorem honest_checkImmutable (fields : List Field) :
    (h.checkImmutable r fields).Honest true := by
  rw [checkImmutable]
  split
  · exact .checkEach fun _ _ => .verdict_unless (Diagnostic.isHard_error ..)
  · exact .pure rfl

theorem honest_checkFixedSize (fields : List Field) :
    (h.checkFixedSize r fields).Honest true := by
  rw [checkFixedSize]
  split
  · exact .checkEach fun _ _ => .verdict_unless (Diagnostic.isHard_error ..)
  · exact .pure rfl

theorem honest_checkMembers (ms : Members) : Fallible.Honest true (h.checkMembers r ms) :=
  .bind (.checkEach fun f _ => f.honest_check r h.canonicalName) fun _ =>
    .bind (.lift (h.honest_checkFieldNames ms.fields)) fun _ =>
      .bind (.lift (h.honest_checkImmutable r ms.fields)) fun _ =>
        .bind (Constant.honest_checkAll r h.canonicalName ms.constants) fun _ => .pure (by simp)

theorem honest_checkNoMethods (fault : String → DeclFault) (ms : Members) :
    (h.checkNoMethods fault ms).Honest true :=
  .verdict_unless (Diagnostic.isHard_error ..)

theorem honest_checkParcelable (typeParams : Option (List String)) :
    (h.checkParcelable typeParams).Honest true :=
  .bind (h.honest_checkAnnotations .parcelable) fun _ =>
    .bind (h.honest_checkTypeParams typeParams) fun _ => .pure (by simp)

theorem honest_checkStructured (typeParams : Option (List String)) (ms : Members) :
    Fallible.Honest true (h.checkStructured r typeParams ms) := by
  rw [checkStructured]
  refine .bind (.lift (h.honest_checkAnnotations .structured)) fun _ => ?_
  refine .bind (.lift (h.honest_checkTypeParams typeParams)) fun _ => ?_
  refine .bind (.lift (h.honest_checkNoMethods .parcelableMethods ms)) fun _ => ?_
  refine .bind (h.honest_checkMembers r ms) fun _ => ?_
  refine .bind (.lift (h.honest_checkFixedSize r ms.fields)) fun _ => ?_
  dsimp only
  split
  · exact .bind (.lift (h.honest_checkGetterNames ms.fields)) fun _ => .pure (by simp)
  · exact .bind (.pure rfl) fun _ => .pure (by simp)

theorem honest_checkNoHolders (fields : List Field) : (checkNoHolders fields).Honest true :=
  .checkEach fun _ _ => .verdict_if (Diagnostic.isHard_error ..)

theorem isHard_of_firstFieldFault? {h : Header} {fields : List Field} {d : Diagnostic}
    (hd : d ∈ h.firstFieldFault? fields) : d.IsHard := by
  unfold firstFieldFault? at hd
  split at hd
  · exact Option.some.inj hd ▸ Diagnostic.isHard_error ..
  · split at hd
    · simp at hd
    · exact Option.some.inj hd ▸ Diagnostic.isHard_error ..

theorem honest_checkUnion (typeParams : Option (List String)) (ms : Members) :
    Fallible.Honest true (h.checkUnion r typeParams ms) := by
  rw [checkUnion]
  refine .bind (.lift (h.honest_checkAnnotations .union)) fun _ => ?_
  refine .bind (.lift (h.honest_checkTypeParams typeParams)) fun _ => ?_
  refine .bind (.lift (h.honest_checkNoMethods .unionMethods ms)) fun _ => ?_
  refine .bind (h.honest_checkMembers r ms) fun _ => ?_
  refine .bind (.lift (h.honest_checkGetterNames ms.fields)) fun _ => ?_
  refine .bind (.lift (honest_checkNoHolders ms.fields)) fun _ => ?_
  refine .bind (.lift (.verdict fun _ => isHard_of_firstFieldFault?)) fun _ => .pure (by simp)

/-- The enumerators fail only for a reported reason: when there are none the check is abandoned. -/
theorem honest_checkEnumerators (backing : TypeSpec) (enumerators : List (Enumerator × Expr)) :
    Fallible.Honest true (h.checkEnumerators r backing enumerators) := by
  unfold checkEnumerators
  refine .bind (.checkEach fun _ _ => .lift (.verdict fun _ => Enumerator.isHard_of_fault?))
    fun _ => .guard ?_
  split
  · exact .abandon _
  · dsimp only
    split
    · exact .advise rfl (.pure rfl)
    · exact .pure rfl

theorem honest_checkEnum (enumerators : List (Enumerator × Expr)) (backing : Option TypeSpec)
    (ms : Members) : Fallible.Honest true (h.checkEnum r enumerators backing ms) := by
  unfold checkEnum
  refine .bind (.lift (h.honest_checkAnnotations .enum)) fun _ => .guard ?_
  split
  · exact .lift (.reject (Diagnostic.isHard_error ..))
  · split
    · exact .lift (.reject (Diagnostic.isHard_error ..))
    · exact h.honest_checkEnumerators r _ enumerators

theorem honest_checkInterface (ms : Members) : Fallible.Honest true (h.checkInterface r ms) := by
  rw [checkInterface]
  refine .bind (.lift (h.honest_checkAnnotations .interface)) fun _ => ?_
  refine .bind (.lift (.verdict_map fun _ => Diagnostic.isHard_error ..)) fun _ => ?_
  refine .bind (Method.honest_checkAll r ms.methods) fun _ => ?_
  refine .bind (Constant.honest_checkAll r h.canonicalName ms.constants) fun _ => ?_
  dsimp only
  split
  · exact .advise rfl (.pure (by simp))
  · exact .pure (by simp)

end Header

namespace Decl

theorem honest_check (r : Registry) (d : Decl) : Fallible.Honest true (d.check r) := by
  rw [check]
  split
  · exact .lift (d.header.honest_checkParcelable _)
  · exact d.header.honest_checkStructured r _ d.members
  · exact d.header.honest_checkUnion r _ d.members
  · exact d.header.honest_checkEnum r _ _ d.members
  · exact d.header.honest_checkInterface r d.members

theorem honest_checkFor (r : Registry) (b : Backend) (d : Decl) : (d.checkFor r b).Honest true :=
  .bind (.verdict_if (Diagnostic.isHard_error ..)) fun _ =>
    .bind (.checkEach fun t _ => t.honest_checkFor r b) fun _ => .pure (by simp)

end Decl

/-! ### Documents -/

namespace Document

theorem honest_check (r : Registry) (doc : Document) : Fallible.Honest true (doc.check r) :=
  .checkEach fun d _ => d.honest_check r

theorem honest_checkFor (r : Registry) (b : Backend) (doc : Document) :
    (doc.checkFor r b).Honest true :=
  .checkEach fun d _ => d.honest_checkFor r b

end Document

end InterfaceDefinition
