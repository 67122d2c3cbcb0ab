import InterfaceDefinition.Proofs.Abandonment.Checks
import InterfaceDefinition.Proofs.Acceptance.Interfaces
import InterfaceDefinition.Proofs.Verdict.Codes
import Mathlib.Data.List.Basic

/-!
# Duplicates

Fields, methods and constants must differ in name, and of most kinds of annotations a node has one
at most. `repeats` says which elements of a list stand in it again, without regard to how a check
looks for them: those whose key an earlier element has. Each of the four checks catches all repeats
and nothing else (`Decl.check_catches_repeats`): whatever else is wrong, it reports one error for
each under the code for it, and its verdict is negative if there is one. The error stands at the
repeat, or at the node that an annotation is on, and cites the place of the first element of the
key, but for constants, where it only gives the name. `repeatError` is what all four have in common,
written out without the functions that the checks make their reports with.

The checks also differ in what they compare. Fields, methods and constants are compared with all
earlier ones, also with those that are not valid by themselves; annotations only with earlier ones
that are supported and valid, since the others are not looked at any further.
-/

namespace InterfaceDefinition

open Diagnostic Fallible

/-! ### Repeats -/

section Repeats

variable {α κ : Type} [BEq κ]

/-- The elements of a list whose key an earlier element has, each with the first that has it. -/
def repeats (key : α → κ) (xs : List α) : List (α × α) :=
  xs.zipIdx.filterMap fun (x, i) =>
    ((xs.take i).find? fun e => key e == key x).map fun first => (x, first)

/-- The elements before an element are those in front of its position. -/
theorem withEarlierFrom_eq (earlier xs : List α) :
    withEarlierFrom earlier xs =
      (xs.zipIdx earlier.length).map fun (x, i) => ((earlier ++ xs).take i, x) := by
  induction xs generalizing earlier with
  | nil => rfl
  | cons x xs ih =>
    have hlength : (earlier ++ [x]).length = earlier.length + 1 := by simp
    rw [withEarlierFrom, ih, hlength, ← List.append_cons, List.zipIdx_cons, List.map_cons]
    dsimp only
    rw [List.take_left]

/-- A check that compares each element with those before it reports the repeats. -/
theorem flatMap_withEarlier_eq (key : α → κ) (error : α → α → Diagnostic) (xs : List α) :
    ((withEarlier xs).flatMap fun x =>
        ((x.1.find? fun e => key e == key x.2).map (error x.2)).toList) =
      (repeats key xs).map fun (x, first) => error x first := by
  rw [← List.filterMap_eq_flatMap_toList, withEarlier, withEarlierFrom_eq, List.filterMap_map,
    repeats, List.map_filterMap]
  simp only [List.nil_append, List.length_nil, Option.map_map]
  rfl

/-- The error about a repeat: under its code, at a place, and with a remark at each of the places
that it cites. -/
def repeatError (loc : Location) (code message : String) (cited : List Location) : Diagnostic where
  location := loc
  severity := .error
  code := some code
  advisory := none
  message := message
  related := cited.map fun first => ⟨first, "previously defined here"⟩

/-- A check has a verdict and catches the repeats in a list: what it reports under a code is one
error for each, in order, and the verdict is negative if there is any. -/
structure CatchesRepeats (code : String) (key : α → κ) (xs : List α)
    (error : α → α → Diagnostic) (x : Fallible Bool) : Prop where
  reported : coded code x.run.diagnostics = (repeats key xs).map fun (x, first) => error x first
  verdict : ∃ verdict, x.run.value = .ok verdict ∧ (repeats key xs ≠ [] → verdict = false)

/-- An honest check that lists the repeats catches them. -/
theorem CatchesRepeats.of_lists {code : String} {key : α → κ} {xs : List α}
    {error : α → α → Diagnostic} {x : Fallible Bool}
    (hlists : Lists code x ((repeats key xs).map fun (x, first) => error x first))
    (hhonest : x.Honest true) (herror : ∀ x first, (error x first).isError = true) :
    CatchesRepeats code key xs error x := by
  obtain ⟨verdict, hverdict⟩ := hlists.completes.exists_value
  refine ⟨hlists.coded_eq, verdict, hverdict, fun hne => ?_⟩
  obtain ⟨⟨y, first⟩, hmem⟩ := List.exists_mem_of_ne_nil _ hne
  have hcoded : error y first ∈ coded code x.run.diagnostics :=
    hlists.coded_eq ▸ List.mem_map_of_mem (f := fun (x, first) => error x first) hmem
  have hanswer : verdict ∈ x.run.value.toOption := by simp [hverdict, Except.toOption]
  rw [← Bool.not_eq_true, hhonest.eq_true_iff verdict hanswer]
  intro hnone
  have hfalse := hnone.2 _ (List.mem_filter.mp hcoded).1
  rw [herror] at hfalse
  cases hfalse

end Repeats

variable {r : Registry}

/-! ### Constants -/

/-- The error that a constant has the name of an earlier one, which it does not cite. -/
def Constant.duplicate (c : Constant) : Diagnostic :=
  repeatError c.location "E0202" ("Found duplicate constant name '" ++ c.name ++ "'") []

/-- Of the checks of constants only the one of the names reports repeats. -/
theorem Constant.lists_checkAll {scope : String} {constants : List Constant}
    (hknown : ∀ c ∈ constants, c.type.Known r) :
    Lists "E0202" (Constant.checkAll r scope constants)
      ((repeats (·.name) constants).map fun (c, _) => c.duplicate) := by
  rw [← flatMap_withEarlier_eq (·.name) fun (c : Constant) _ => c.duplicate]
  refine .checkEach fun (earlier, c) hx => .before (.lift ?_) fun _ => .skip ?_ fun _ => .pure _
  · rw [← List.isSome_find?, Reporting.diagnostics_verdict]
    cases earlier.find? (·.name == c.name) with
    | none => rfl
    | some first => rfl
  · exact .of_under (c.completes_check (hknown c (mem_of_mem_withEarlier hx))) c.under_check
      (by decide)

/-! ### Fields -/

namespace Header

variable {h : Header} {ms : Members}

/-- The check of the names of fields reports the repeats among them. -/
theorem coded_checkFieldNames (fields : List Field) :
    coded "E0201" (h.checkFieldNames fields).diagnostics =
      (repeats (·.name) fields).map fun (f, first) => h.duplicateField f first := by
  rw [← flatMap_withEarlier_eq (·.name) h.duplicateField, checkFieldNames, diagnostics_checkEach]
  simp only [Reporting.diagnostics_verdict]
  refine coded_eq_self fun d hd => ?_
  obtain ⟨x, -, hd⟩ := List.mem_flatMap.mp hd
  obtain ⟨first, -, rfl⟩ := Option.map_eq_some_iff.mp (Option.mem_toList.mp hd)
  rfl

/-- What an immutable declaration is reported for has a code of its own. -/
theorem under_checkImmutable (fields : List Field) :
    (h.checkImmutable r fields).Under ["E0204"] := by
  rw [checkImmutable]
  split
  · exact .checkEach fun _ _ => .verdict_unless ⟨"E0204", List.mem_singleton_self _, rfl⟩
  · exact .pure true

/-- Of the checks of members only the one of the names of fields reports repeats among fields. -/
theorem lists_checkMembers (hknown : ms.Known r) :
    Lists "E0201" (h.checkMembers r ms)
      ((repeats (·.name) ms.fields).map fun (f, first) => h.duplicateField f first) := by
  refine .skip (.of_under (.checkEach fun _ hf => Field.completes_check (hknown.field hf))
    (.checkEach fun f _ => f.under_check) (by decide)) fun _ => ?_
  refine .before (.lift (coded_checkFieldNames ms.fields)) fun _ => ?_
  refine .skip (.lift (coded_eq_nil (under_checkImmutable ms.fields) (by decide))) fun _ => ?_
  exact .skip (.of_under (Constant.completes_checkAll fun _ hc => hknown.constant hc)
    (Constant.under_checkAll ms.constants) (by decide)) fun _ => .pure _

end Header

/-! ### Methods -/

namespace Method

/-- The error that a method has the name of an earlier one, whose place it cites. -/
def redefinition (m first : Method) : Diagnostic :=
  repeatError m.location "E0301" ("attempt to redefine method " ++ m.name) [first.location]

/-- A method is reported for its name when an earlier one has it, and then the first that has is
cited. -/
theorem coded_nameFault? (earlier : List Method) (m : Method) :
    coded "E0301" (Reporting.verdict (m.nameFault? earlier)).diagnostics =
      ((earlier.find? (·.name == m.name)).map m.redefinition).toList := by
  rw [Reporting.diagnostics_verdict, nameFault?]
  cases earlier.find? (·.name == m.name) with
  | some first => rfl
  | none =>
    -- a signature that is reserved has another code
    dsimp only
    split <;> rfl

/-- Of the checks of methods only the one of the names reports repeats. -/
theorem lists_checkAll {methods : List Method}
    (hknown : ∀ m ∈ methods, m.returnType.Known r ∧ ∀ a ∈ m.arguments, a.type.Known r) :
    Lists "E0301" (checkAll r methods)
      ((repeats (·.name) methods).map fun (m, first) => m.redefinition first) := by
  rw [← flatMap_withEarlier_eq (·.name) redefinition]
  refine .checkEach fun (earlier, m) hx => .skip ?_ fun _ => .before ?_ fun _ => .pure _
  · exact .of_under (completes_check (hknown m (mem_of_mem_withEarlier hx))) m.under_check
      (by decide)
  · exact .lift (m.coded_nameFault? earlier)

end Method

/-- The fields of an interface are reported under a code of their own. -/
theorem Header.under_fieldsFault? {h : Header} {fields : List Field} :
    (Reporting.verdict (h.fieldsFault? fields)).Under ["E0206"] :=
  .verdict_map fun _ => ⟨"E0206", List.mem_singleton_self _, rfl⟩

/-- Of the checks of an interface only the one of the methods reports repeats among methods. -/
theorem Header.lists_checkInterface {h : Header} {ms : Members} (hknown : ms.Known r) :
    Lists "E0301" (h.checkInterface r ms)
      ((repeats (·.name) ms.methods).map fun (m, first) => m.redefinition first) := by
  rw [checkInterface]
  refine .skip (.lift (coded_eq_nil (h.annotations.under_check _ _) (by decide))) fun _ => ?_
  refine .skip (.lift (coded_eq_nil under_fieldsFault? (by decide))) fun _ => ?_
  refine .before (Method.lists_checkAll fun _ hm => hknown.method hm) fun _ => ?_
  refine .skip (.of_under (Constant.completes_checkAll fun _ hc => hknown.constant hc)
    (Constant.under_checkAll ms.constants) (by decide)) fun _ => ?_
  dsimp only
  split
  · exact .skip (.lift rfl) fun _ => .pure _
  · exact .pure _

/-! ### Annotations -/

namespace AnnotationSet

variable {owner : Location} {supported : List AnnotationKind}

/-- Whether an annotation is supported and valid, and no second one of its kind may stand beside
it. -/
def isSingle (supported : List AnnotationKind) (a : Annotation) : Bool :=
  supported.contains a.kind && a.check.value && !a.kind.schema.repeatable

/-- The annotations that were seen are as good as some earlier ones: of every kind the first is the
same. -/
def SeesFirsts (seen earlier : List Annotation) : Prop :=
  ∀ kind : AnnotationKind, seen.find? (·.kind == kind) = earlier.find? (·.kind == kind)

variable {seen earlier : List Annotation} {a : Annotation}

/-- An annotation that is not the first of its kind is not found behind the others. -/
theorem SeesFirsts.concat_of_found (hseen : SeesFirsts seen earlier) {first : Annotation}
    (hfirst : seen.find? (·.kind == a.kind) = some first) : SeesFirsts seen (earlier ++ [a]) := by
  intro kind
  rw [List.find?_append, ← hseen kind]
  by_cases hkind : a.kind = kind
  · rw [← hkind, hfirst, Option.some_or]
  · simp [hkind]

/-- An annotation is remembered behind those that were seen. -/
theorem SeesFirsts.concat (hseen : SeesFirsts seen earlier) (a : Annotation) :
    SeesFirsts (seen ++ [a]) (earlier ++ [a]) := by
  intro kind
  rw [List.find?_append, List.find?_append, hseen kind]

/-- A single annotation is compared with the earlier ones and is one of them from then on. -/
theorem checkOne_of_isSingle (owner : Location) (hseen : SeesFirsts seen earlier)
    (h : isSingle supported a = true) :
    SeesFirsts (checkOne owner supported seen a).value.2 (earlier ++ [a]) ∧
      coded "E0007" (checkOne owner supported seen a).diagnostics =
        ((earlier.find? (·.kind == a.kind)).map (repeated owner a)).toList := by
  simp only [isSingle, Bool.and_eq_true, Bool.not_eq_true'] at h
  obtain ⟨⟨hsupported, hvalid⟩, hrepeatable⟩ := h
  rw [checkOne, ← hseen a.kind]
  simp only [hsupported, hrepeatable, hvalid, a.silent_check hvalid, Reporting.bind_def]
  cases hfirst : seen.find? (·.kind == a.kind) with
  | some first => exact ⟨hseen.concat_of_found hfirst, rfl⟩
  | none => exact ⟨hseen.concat a, rfl⟩

/-- Any other annotation is not compared with those that were seen, and not remembered. -/
theorem checkOne_of_not_isSingle (owner : Location) (seen : List Annotation)
    (h : isSingle supported a = false) :
    (checkOne owner supported seen a).value.2 = seen ∧
      coded "E0007" (checkOne owner supported seen a).diagnostics = [] := by
  have hcheck : coded "E0007" a.check.diagnostics = [] := coded_eq_nil a.under_check (by decide)
  rw [checkOne]
  cases hsupported : supported.contains a.kind with
  | false => exact ⟨rfl, rfl⟩
  | true =>
    cases hvalid : a.check.value with
    | false => simp [hvalid, hcheck]
    | true =>
      have hrepeatable : a.kind.schema.repeatable = true := by
        rw [isSingle, hsupported, hvalid] at h
        simpa using h
      simp [hvalid, hcheck, hrepeatable]

/-- Each single annotation is compared with the single ones before it. -/
theorem coded_checkFrom (annotations : List Annotation) (hseen : SeesFirsts seen earlier) :
    coded "E0007" (checkFrom owner supported seen annotations).diagnostics =
      (withEarlierFrom earlier (annotations.filter (isSingle supported))).flatMap fun x =>
        ((x.1.find? (·.kind == x.2.kind)).map (repeated owner x.2)).toList := by
  induction annotations generalizing seen earlier with
  | nil => rfl
  | cons a rest ih =>
    rw [checkFrom_cons, coded_append, List.filter_cons]
    cases hsingle : isSingle supported a with
    | true =>
      obtain ⟨hnext, hcoded⟩ := checkOne_of_isSingle owner hseen hsingle
      rw [hcoded, ih hnext]
      rfl
    | false =>
      obtain ⟨hsame, hcoded⟩ := checkOne_of_not_isSingle owner seen hsingle
      rw [hcoded, hsame, ih hseen]
      rfl

/-- The check of the annotations of a node reports the repeats among the single ones. -/
theorem lists_check (s : AnnotationSet) (owner : Location) (supported : List AnnotationKind) :
    Lists "E0007" (liftM (s.check owner supported))
      ((repeats (·.kind) (s.toList.filter (isSingle supported))).map
        fun (a, first) => repeated owner a first) := by
  rw [← flatMap_withEarlier_eq (·.kind) (repeated owner)]
  exact .lift (coded_checkFrom s.toList fun _ => rfl)

end AnnotationSet

/-! ### Declarations -/

/-- **Duplicates are caught and cited**: in a declaration whose types are known, as all resolved
types are that were read in a reachable registry, the check of the members catches the fields whose
name an earlier field has, the check of an interface does so for the methods, and the check of the
constants catches those whose name an earlier one has. On any node the check of the annotations
catches those of a kind that may stand only once, among the supported and valid ones. Each error is
written out: a field, a method and a constant are reported where they stand, an annotation at its
node, and of fields, methods and annotations the place of the first one is cited. -/
theorem Decl.check_catches_repeats (d : Decl) (hknown : d.members.Known r) :
    CatchesRepeats "E0201" (·.name) d.fields
      (fun f first => repeatError f.location "E0201"
        ("'" ++ d.header.name ++ "' has duplicate field name '" ++ f.name ++ "'")
        [first.location])
      (d.header.checkMembers r d.members) ∧
    (d.kind = .interface →
      CatchesRepeats "E0301" (·.name) d.methods
        (fun m first => repeatError m.location "E0301" ("attempt to redefine method " ++ m.name)
          [first.location])
        (d.check r)) ∧
    (∀ scope, CatchesRepeats "E0202" (·.name) d.constants
      (fun c _ => repeatError c.location "E0202"
        ("Found duplicate constant name '" ++ c.name ++ "'") [])
      (Constant.checkAll r scope d.constants)) ∧
    ∀ (s : AnnotationSet) (owner : Location) (supported : List AnnotationKind),
      CatchesRepeats "E0007" (·.kind) (s.toList.filter (AnnotationSet.isSingle supported))
        (fun a first => repeatError owner "E0007"
          ("'" ++ a.name ++ "' is repeated, but not allowed. Previous location: " ++
            first.location.text)
          [first.location])
        (liftM (s.check owner supported)) := by
  refine ⟨?_, fun hkind => ?_, fun scope => ?_, fun s owner supported => ?_⟩
  · exact .of_lists (Header.lists_checkMembers hknown) (d.header.honest_checkMembers r d.members)
      fun _ _ => rfl
  · obtain ⟨header, body⟩ := d
    cases body with
    | interface isOneway ms =>
      exact .of_lists (Header.lists_checkInterface hknown) (header.honest_checkInterface r _)
        fun _ _ => rfl
    | _ => cases hkind
  · exact .of_lists (Constant.lists_checkAll fun _ hc => hknown.constant hc)
      (Constant.honest_checkAll r scope d.constants) fun _ _ => rfl
  · exact .of_lists (s.lists_check owner supported) (.lift (s.honest_check owner supported))
      fun _ _ => rfl

/-- A method that is wrong by itself stands between methods of one name. Both later ones are
reported where they stand, and both reports cite the place of the first one. -/
theorem Decl.check_catches_repeats_clock :
    let loc : Nat → Location := fun line => ⟨"IClock.aidl", some ⟨⟨line, 1⟩, ⟨line, 2⟩⟩⟩
    let method : Nat → String → String → Method := fun line type name =>
      { location := loc line, returnType := .builtin (loc line) type, name }
    let methods := [method 2 "void" "set", method 3 "ParcelableHolder" "get", method 4 "int" "set",
      method 5 "void" "set"]
    let d : Decl := ⟨⟨loc 1, "p", "IClock", "", {}⟩, .interface false { methods }⟩
    let r := (Registry.empty.addDocument ⟨[], [d]⟩).value
    r.Reachable Document.IsFresh ∧ d.members.Known r ∧ (d.check r).run.value = .ok false ∧
      (d.check r).run.diagnostics.length = 3 ∧
      coded "E0301" (d.check r).run.diagnostics =
        [⟨loc 4, .error, some "E0301", none, "attempt to redefine method set",
          [⟨loc 2, "previously defined here"⟩]⟩,
        ⟨loc 5, .error, some "E0301", none, "attempt to redefine method set",
          [⟨loc 2, "previously defined here"⟩]⟩] := by
  intro loc method methods d r
  have hr : r.Reachable Document.IsFresh := .addDocument .empty (by decide +kernel)
  have hfresh : ∀ base ∈ d.members.nodes.map (·.base), base.IsFresh := by decide +kernel
  have hread : ∀ n ∈ d.members.nodes, n.base.ReadIn r [] :=
    fun n hn => .fresh (hfresh n.base (List.mem_map_of_mem hn))
  have hknown : d.members.Known r := hr.known hread (by decide +kernel)
  obtain ⟨-, hmethods, -, -⟩ := d.check_catches_repeats hknown
  obtain ⟨hreported, verdict, hverdict, hnegative⟩ := hmethods rfl
  have hrepeats : (repeats (·.name) d.methods).map (fun (m, first) =>
      repeatError m.location "E0301" ("attempt to redefine method " ++ m.name) [first.location]) =
        [⟨loc 4, .error, some "E0301", none, "attempt to redefine method set",
          [⟨loc 2, "previously defined here"⟩]⟩,
        ⟨loc 5, .error, some "E0301", none, "attempt to redefine method set",
          [⟨loc 2, "previously defined here"⟩]⟩] := by decide +kernel
  have hne : repeats (·.name) d.methods ≠ [] := by
    intro hnil
    rw [hnil] at hrepeats
    cases hrepeats
  rw [hnegative hne] at hverdict
  exact ⟨hr, hknown, hverdict, by decide +kernel, hreported.trans hrepeats⟩

end InterfaceDefinition
