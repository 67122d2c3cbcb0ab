import InterfaceDefinition.Decl.Check
import InterfaceDefinition.Proofs.Abandonment.Cause
import InterfaceDefinition.Proofs.Resolution.Nodes

/-!
# Checks of resolved declarations

A declaration is known to a registry when every node in it is resolved and every recorded
declaration exists. The check of such a declaration is abandoned in one case only, an enum without
enumerators that has passed everything before (`Decl.cause?_check`): a type is asked for its meaning
only where it has one, and a declaration is looked up only where there is one.
-/

namespace InterfaceDefinition

open Fallible

/-! ### Known names -/

/-- A name that is resolved, to a declaration of the registry if to any. -/
def TypeName.Known (r : Registry) (n : TypeName) : Prop :=
  ∃ resolution, n.resolution = some resolution ∧
    ∀ target ∈ resolution.target, (r.decl? target.id).isSome

/-- A type whose nodes are known. -/
def TypeSpec.Known (r : Registry) (t : TypeSpec) : Prop :=
  ∀ n ∈ t.nodes, n.base.Known r

/-- Members whose types are known. -/
def Members.Known (r : Registry) (ms : Members) : Prop :=
  ∀ n ∈ ms.nodes, n.base.Known r

namespace Members.Known

variable {r : Registry} {ms : Members} (h : ms.Known r)

include h

theorem field {f : Field} (hf : f ∈ ms.fields) : f.type.Known r := fun n hn => by
  refine h n ?_
  rw [nodes_eq]
  exact List.mem_append_left _ (List.mem_flatMap.mpr ⟨f, hf, hn⟩)

theorem constant {c : Constant} (hc : c ∈ ms.constants) : c.type.Known r := fun n hn => by
  refine h n ?_
  rw [nodes_eq]
  exact List.mem_append_right _ (List.mem_append_left _ (List.mem_flatMap.mpr ⟨c, hc, hn⟩))

theorem method {m : Method} (hm : m ∈ ms.methods) :
    m.returnType.Known r ∧ ∀ a ∈ m.arguments, a.type.Known r := by
  have hmem : ∀ n ∈ m.returnType.nodes ++ m.arguments.flatMap (·.type.nodes), n.base.Known r := by
    intro n hn
    refine h n ?_
    rw [nodes_eq]
    exact List.mem_append_right _ (List.mem_append_right _ (List.mem_flatMap.mpr ⟨m, hm, hn⟩))
  rw [List.forall_mem_append, List.forall_mem_flatMap] at hmem
  exact hmem

end Members.Known

/-! ### Types -/

namespace TypeSpec

/-- In a known type all names have a meaning, which is what its check takes for granted. -/
theorem Known.isResolved {r : Registry} {t : TypeSpec} (h : t.Known r) :
    ∀ n ∈ t.nodes, n.base.isResolved = true := by
  intro n hn
  obtain ⟨resolution, hresolution, -⟩ := h n hn
  simp [TypeName.isResolved, hresolution]

mutual

/-- The check of a type asks for no more than that its nodes are resolved. -/
theorem completes_check (r : Registry) :
    (t : TypeSpec) → (∀ n ∈ t.nodes, n.base.isResolved = true) → Completes (t.check r)
  | ⟨loc, base, arguments, isArray, annotations, comments⟩, h => by
    rw [nodes, List.forall_mem_cons] at h
    obtain ⟨name, hname⟩ := exists_canonicalName_iff.mpr h.1
    rw [check]
    refine .bind (.lift _) fun _ => ?_
    split
    · exact .pure _
    · refine .bind (.of_ok hname) fun _ => .bind (completes_checkAll r arguments h.2) fun _ => ?_
      split
      · exact .pure _
      · exact .lift _

theorem completes_checkAll (r : Registry) :
    (ts : List TypeSpec) → (∀ n ∈ nodesOf ts, n.base.isResolved = true) →
      Completes (checkAll r ts)
  | [], _ => by
    rw [checkAll]
    exact .pure true
  | t :: rest, h => by
    rw [nodesOf, List.forall_mem_append] at h
    rw [checkAll]
    exact .bind (completes_check r t h.1) fun _ =>
      .bind (completes_checkAll r rest h.2) fun _ => .pure _

end

end TypeSpec

/-! ### Members -/

section Checks

variable {r : Registry} {scope : String}

/-- The check of a field evaluates its default too, but an evaluation that fails is reported and
abandons nothing. -/
theorem Field.completes_check {f : Field} (h : f.type.Known r) :
    Completes (f.check r scope) := by
  rw [check]
  refine .bind (f.type.completes_check r h.isResolved) fun _ => .bind (.lift _) fun _ => ?_
  split
  · split
    · exact .lift _
    · exact .pure _
  · exact .pure _

/-- As for a field, the value of a constant can fail only with a report. -/
theorem Constant.completes_check {c : Constant} (h : c.type.Known r) :
    Completes (c.check r scope) := by
  rw [check]
  refine .bind (c.type.completes_check r h.isResolved) fun _ => ?_
  split
  · exact .pure _
  · split
    · exact .lift _
    · exact .lift _

theorem Constant.completes_checkAll {constants : List Constant}
    (h : ∀ c ∈ constants, c.type.Known r) : Completes (Constant.checkAll r scope constants) :=
  .checkEach fun x hx =>
    .bind (.lift _) fun _ =>
      .bind (completes_check (h x.2 (mem_of_mem_withEarlier hx))) fun _ => .pure _

/-- Whether a known type can be passed back is always known. -/
theorem TypeSpec.Known.outUsage {t : TypeSpec} (h : t.Known r) :
    ∃ usage, r.outUsage t = .ok usage := by
  obtain ⟨resolution, hresolution, hdecl⟩ := h t t.self_mem_nodes
  have hname : t.canonicalName = .ok resolution.canonicalName := by
    simp [TypeSpec.canonicalName, hresolution]
  rw [Registry.outUsage]
  simp only [hname, bind, Except.bind]
  split
  · exact ⟨_, rfl⟩
  · split
    · exact ⟨_, rfl⟩
    · next target htarget =>
      obtain ⟨d, hd⟩ := Option.isSome_iff_exists.mp
        (hdecl target (by simpa [TypeName.target?, hresolution] using htarget))
      simp only [hd]
      split
      · exact ⟨_, rfl⟩
      · split
        · exact ⟨_, rfl⟩
        · exact ⟨_, rfl⟩

/-- An argument needs more than a resolved type: whether it can be passed out is looked up, and this
is where an unknown declaration would abandon the check. -/
theorem Argument.completes_check {m : Method} {a : Argument} (h : a.type.Known r) :
    Completes (a.check r m) := by
  have hfault : ∃ fault, a.fault? r m = .ok fault := by
    obtain ⟨usage, husage⟩ := h.outUsage
    rw [fault?]
    split
    · exact ⟨_, rfl⟩
    · split
      · exact ⟨_, rfl⟩
      · simp only [husage, bind, Except.bind]
        exact ⟨_, rfl⟩
  obtain ⟨fault, hfault⟩ := hfault
  rw [check]
  refine .bind (a.type.completes_check r h.isResolved) fun _ => ?_
  split
  · exact .pure _
  · refine .bind (.of_ok hfault) fun _ => ?_
    split
    · exact .lift _
    · dsimp only
      split
      · exact .bind (.lift _) fun _ => .pure _
      · exact .pure _

/-- The check of the arguments may end early with a report, but it is not abandoned. -/
theorem Method.completes_checkArguments {m : Method} {arguments : List (List Argument × Argument)}
    (h : ∀ x ∈ arguments, x.2.type.Known r) : Completes (m.checkArguments r arguments) := by
  induction arguments with
  | nil => exact .pure true
  | cons first rest ih =>
    obtain ⟨earlier, a⟩ := first
    rw [List.forall_mem_cons] at h
    rw [checkArguments]
    split
    · exact .lift _
    · refine .bind (Argument.completes_check h.1) fun _ => ?_
      split
      · exact ih h.2
      · exact .pure _

theorem Method.completes_check {m : Method}
    (h : m.returnType.Known r ∧ ∀ a ∈ m.arguments, a.type.Known r) : Completes (m.check r) := by
  rw [check]
  refine .bind (m.returnType.completes_check r h.1.isResolved) fun _ => ?_
  split
  · exact .pure _
  · split
    · exact .lift _
    · exact completes_checkArguments fun x hx => h.2 x.2 (mem_of_mem_withEarlier hx)

theorem Method.completes_checkAll {methods : List Method}
    (h : ∀ m ∈ methods, m.returnType.Known r ∧ ∀ a ∈ m.arguments, a.type.Known r) :
    Completes (Method.checkAll r methods) :=
  .checkEach fun x hx =>
    .bind (completes_check (h x.2 (mem_of_mem_withEarlier hx))) fun _ =>
      .bind (.lift _) fun _ => .pure _

end Checks

/-! ### Declarations -/

namespace Header

variable {r : Registry} {ms : Members}

/-- The members that parcelables, unions and interfaces share are checked to the end once their
types are known. -/
theorem completes_checkMembers (h : Header) (hms : ms.Known r) : Completes (h.checkMembers r ms) :=
  .bind (.checkEach fun _ hf => Field.completes_check (hms.field hf)) fun _ =>
    .bind (.lift _) fun _ => .bind (.lift _) fun _ =>
      .bind (Constant.completes_checkAll fun _ hc => hms.constant hc) fun _ => .pure _

theorem completes_checkStructured (h : Header) (typeParams : Option (List String))
    (hms : ms.Known r) : Completes (h.checkStructured r typeParams ms) := by
  rw [checkStructured]
  refine .bind (.lift _) fun _ => .bind (.lift _) fun _ => .bind (.lift _) fun _ => ?_
  refine .bind (h.completes_checkMembers hms) fun _ => .bind (.lift _) fun _ => ?_
  dsimp only
  split
  · exact .bind (.lift _) fun _ => .pure _
  · exact .bind (.pure _) fun _ => .pure _

theorem completes_checkUnion (h : Header) (typeParams : Option (List String))
    (hms : ms.Known r) : Completes (h.checkUnion r typeParams ms) :=
  .bind (.lift _) fun _ => .bind (.lift _) fun _ => .bind (.lift _) fun _ =>
    .bind (h.completes_checkMembers hms) fun _ => .bind (.lift _) fun _ =>
      .bind (.lift _) fun _ => .bind (.lift _) fun _ => .pure _

theorem completes_checkInterface (h : Header) (hms : ms.Known r) :
    Completes (h.checkInterface r ms) := by
  rw [checkInterface]
  refine .bind (.lift _) fun _ => .bind (.lift _) fun _ => ?_
  refine .bind (Method.completes_checkAll fun _ hm => hms.method hm) fun _ => ?_
  refine .bind (Constant.completes_checkAll fun _ hc => hms.constant hc) fun _ => ?_
  dsimp only
  split
  · exact .bind (.lift _) fun _ => .pure _
  · exact .pure _

/-- The enumerators are taken for granted, so that there are none is an internal error. -/
theorem cause?_checkEnumerators (h : Header) (r : Registry) (backing : TypeSpec)
    (enumerators : List (Enumerator × Expr)) :
    (h.checkEnumerators r backing enumerators).cause? =
      if enumerators.isEmpty then some (.noEnumerators h.location h.name) else none := by
  cases enumerators with
  | nil => rfl
  | cons first rest =>
    have hcompletes : Completes (h.checkEnumerators r backing (first :: rest)) := by
      rw [checkEnumerators]
      refine .bind (.checkEach fun _ _ => .lift _) fun _ => ?_
      split
      · exact .pure _
      · dsimp only
        split
        · exact .bind (.lift _) fun _ => .pure _
        · exact .pure _
    exact hcompletes

/-- The check of an enum comes to its enumerators unless something else is wrong before. -/
theorem cause?_checkEnum (h : Header) (r : Registry) (enumerators : List (Enumerator × Expr))
    (backing : TypeSpec) (ms : Members) :
    (h.checkEnum r enumerators (some backing) ms).cause? =
      if enumerators.isEmpty && ms.isEmpty && (h.checkAnnotations .enum).value then
        some (.noEnumerators h.location h.name)
      else none := by
  rw [checkEnum, cause?_bind_of_ok (a := (h.checkAnnotations .enum).value) rfl]
  -- each of the two earlier faults ends the check with a verdict
  cases (h.checkAnnotations .enum).value with
  | false =>
    simp only [Bool.not_false, if_true, Bool.and_false, Bool.false_eq_true, if_false]
    exact Completes.pure _
  | true =>
    cases ms.isEmpty with
    | false =>
      simp only [Bool.not_true, Bool.not_false, if_true, Bool.and_false, Bool.false_and,
        Bool.false_eq_true, if_false]
      exact Completes.lift _
    | true =>
      simp only [Bool.not_true, Bool.and_true, Bool.false_eq_true, if_false]
      exact h.cause?_checkEnumerators r backing enumerators

end Header

namespace Decl

/-- An enum without enumerators and without other members, whose annotations are valid. -/
def isHollowEnum (d : Decl) : Bool :=
  d.enumerators?.any (·.isEmpty) && d.members.isEmpty && (d.header.checkAnnotations .enum).value

/-- The one cause for which the check of a declaration is abandoned. -/
theorem cause?_check {r : Registry} {d : Decl} (hknown : d.members.Known r)
    (hbacking : d.kind = .enum → d.backing?.isSome) :
    (d.check r).cause? =
      if d.isHollowEnum then some (.noEnumerators d.location d.name) else none := by
  obtain ⟨header, body⟩ := d
  -- only the kind of an enum has enumerators, so the others are not hollow by definition
  cases body with
  | parcelable typeParams cppHeader => exact Completes.lift _
  | structured typeParams members => exact header.completes_checkStructured typeParams hknown
  | union typeParams members => exact header.completes_checkUnion typeParams hknown
  | enum enumerators backing members =>
    obtain ⟨backing, rfl⟩ := Option.isSome_iff_exists.mp (hbacking rfl)
    exact header.cause?_checkEnum r _ backing members
  | interface isOneway members => exact header.completes_checkInterface hknown

end Decl

/-! ### Documents -/

/-- The check of a document is abandoned at its first enum without enumerators. -/
theorem Document.cause?_check {r : Registry} {doc : Document}
    (h : ∀ d ∈ doc.decls, d.members.Known r ∧ (d.kind = .enum → d.backing?.isSome)) :
    (doc.check r).cause? =
      (doc.decls.find? Decl.isHollowEnum).map fun d => .noEnumerators d.location d.name := by
  rw [check, cause?_checkEach]
  generalize doc.decls = decls at h ⊢
  induction decls with
  | nil => rfl
  | cons d rest ih =>
    rw [List.forall_mem_cons] at h
    rw [List.findSome?_cons, List.find?_cons, Decl.cause?_check h.1.1 h.1.2, ih h.2]
    cases d.isHollowEnum <;> rfl

end InterfaceDefinition
