import InterfaceDefinition.Annotation.Schema
import InterfaceDefinition.Diagnostic
import InterfaceDefinition.Expr

/-!
# Annotations

An annotation on a node: its kind and the expressions given for its parameters, in the order of the
parameter names. The annotations of one node form a set that keeps the order they were written in.
-/

namespace InterfaceDefinition

/-! ### Parameters -/

/-- Enters a parameter into a list in the order of names; an entry of the same name is replaced. -/
def insertParam (name : String) (value : Expr) : List (String × Expr) → List (String × Expr)
  | [] => [(name, value)]
  | (other, old) :: rest =>
    if name < other then (name, value) :: (other, old) :: rest
    else if name = other then (name, value) :: rest
    else (other, old) :: insertParam name value rest

/-- Parameters in the order of their names; of two with one name the later counts. -/
def sortParams (params : List (String × Expr)) : List (String × Expr) :=
  params.foldl (fun sorted param => insertParam param.1 param.2 sorted) []

/-- An entered parameter is found, and what is found under other names stays. -/
theorem lookup_insertParam (name other : String) (value : Expr) (params : List (String × Expr)) :
    (insertParam name value params).lookup other =
      if other = name then some value else params.lookup other := by
  induction params with
  | nil => by_cases h : other = name <;> simp [insertParam, List.lookup_cons, h, beq_false_of_ne]
  | cons first rest ih =>
    obtain ⟨key, old⟩ := first
    rw [insertParam]
    split
    · by_cases h : other = name <;> simp [List.lookup_cons, h, beq_false_of_ne]
    · split
      · next h =>
        subst h
        by_cases h : other = name <;> simp [List.lookup_cons, h, beq_false_of_ne]
      · next h =>
        by_cases hk : other = key
        · subst hk
          simp [Ne.symm h]
        · simp [List.lookup_cons, beq_false_of_ne hk, ih]

theorem mem_insertParam {name : String} {value : Expr} {params : List (String × Expr)}
    {param : String × Expr} (h : param ∈ insertParam name value params) :
    param = (name, value) ∨ param ∈ params := by
  induction params with
  | nil => simpa [insertParam] using h
  | cons first rest ih =>
    obtain ⟨key, old⟩ := first
    rw [insertParam] at h
    split at h
    · simpa using h
    · split at h
      · simp only [List.mem_cons] at h ⊢
        exact h.imp_right Or.inr
      · rcases List.mem_cons.mp h with h | h
        · exact Or.inr (by simp [h])
        · exact (ih h).imp_right (List.mem_cons_of_mem _)

/-- Entering a parameter keeps the order of the names. -/
theorem pairwise_insertParam (name : String) (value : Expr) {params : List (String × Expr)}
    (h : params.Pairwise (·.1 < ·.1)) : (insertParam name value params).Pairwise (·.1 < ·.1) := by
  induction params with
  | nil => simp [insertParam]
  | cons first rest ih =>
    obtain ⟨key, old⟩ := first
    rw [List.pairwise_cons] at h
    rw [insertParam]
    split
    · next hlt =>
      refine List.pairwise_cons.mpr ⟨fun param hp => ?_, List.pairwise_cons.mpr h⟩
      rcases List.mem_cons.mp hp with rfl | hp
      · exact hlt
      · exact String.lt_trans hlt (h.1 _ hp)
    · next hge =>
      split
      · next heq =>
        subst heq
        exact List.pairwise_cons.mpr h
      · next hne =>
        refine List.pairwise_cons.mpr ⟨fun param hp => ?_, ih h.2⟩
        rcases mem_insertParam hp with rfl | hp
        · exact Std.lt_of_le_of_ne (String.not_lt.mp hge) (Ne.symm hne)
        · exact h.1 _ hp

theorem pairwise_foldl_insertParam (params : List (String × Expr))
    {sorted : List (String × Expr)} (h : sorted.Pairwise (·.1 < ·.1)) :
    (params.foldl (fun sorted param => insertParam param.1 param.2 sorted) sorted).Pairwise
      (·.1 < ·.1) := by
  induction params generalizing sorted with
  | nil => exact h
  | cons param params ih => exact ih (pairwise_insertParam param.1 param.2 h)

/-- The names of sorted parameters ascend, so each occurs once. -/
theorem pairwise_sortParams (params : List (String × Expr)) :
    (sortParams params).Pairwise (·.1 < ·.1) :=
  pairwise_foldl_insertParam params List.Pairwise.nil

/-! ### Annotations -/

/-- An annotation as written; the names of its parameters ascend, so each occurs once. -/
structure Annotation where
  location : Location
  kind : AnnotationKind
  params : List (String × Expr)
  ordered : params.Pairwise (·.1 < ·.1) := by simp
  deriving Repr

namespace Annotation

/-- The name of an annotation. -/
def name (a : Annotation) : String :=
  a.kind.name

/-- The error for a name that no annotation has; it lists the names there are. -/
def unknownName (loc : Location) (name : String) : Diagnostic :=
  .error loc "E0001"
    ("'" ++ name ++ "' is not a recognized annotation. It must be one of: " ++
      " ".intercalate (AnnotationKind.all.map AnnotationKind.name) ++ ".")

/-- An annotation by its written name, or the error that there is none of the name. -/
def ofName (loc : Location) (name : String) (params : List (String × Expr)) :
    Except Diagnostic Annotation :=
  match AnnotationKind.ofName? name with
  | some kind => .ok ⟨loc, kind, sortParams params, pairwise_sortParams params⟩
  | none => .error (unknownName loc name)

/-- The expression given for a parameter. -/
def param? (a : Annotation) (name : String) : Option Expr :=
  a.params.lookup name

end Annotation

/-! ### Annotation sets -/

/-- The annotations of one node, in the order they were written. -/
structure AnnotationSet where
  toList : List Annotation := []
  deriving Repr

namespace AnnotationSet

/-- The first annotation of a kind. -/
def get? (s : AnnotationSet) (kind : AnnotationKind) : Option Annotation :=
  s.toList.find? (·.kind == kind)

/-- Whether there is an annotation of a kind. -/
def has (s : AnnotationSet) (kind : AnnotationKind) : Bool :=
  (s.get? kind).isSome

/-- Whether there are no annotations. -/
def isEmpty (s : AnnotationSet) : Bool :=
  s.toList.isEmpty

end AnnotationSet

end InterfaceDefinition
