/-!
# Dotted names

A dotted name such as `a.b.C` is read from either end: its first segment decides which import
provides it, its last segment is its simple name, and what precedes the last dot is its qualifier
(the package of a type, the type of a constant). The two parts make up the name again
(`qualifier_append_lastSegment`).
-/

namespace InterfaceDefinition.Dotted

/-- The segment before the first dot; the whole name when there is no dot. -/
def firstSegment (name : String) : String :=
  String.ofList (name.toList.takeWhile (· != '.'))

/-- The characters after the last dot, in order. -/
def lastChars (cs : List Char) : List Char :=
  (cs.reverse.takeWhile (· != '.')).reverse

/-- The segment after the last dot; the whole name when there is no dot. -/
def lastSegment (name : String) : String :=
  String.ofList (lastChars name.toList)

/-- What precedes the last dot; nothing when there is no dot. -/
def qualifier? (name : String) : Option String :=
  match name.toList.reverse.dropWhile (· != '.') with
  | [] => none
  | _ :: before => some (String.ofList before.reverse)

/-- A name without a dot is its own first segment. -/
theorem firstSegment_eq_self {name : String} (h : '.' ∉ name.toList) :
    firstSegment name = name := by
  have hall : ∀ c ∈ name.toList, (c != '.') = true := by
    intro c hc
    have hne : c ≠ '.' := fun heq => h (heq ▸ hc)
    simpa using hne
  have htake : (name.toList ++ []).takeWhile (· != '.') = name.toList ++ [] :=
    List.takeWhile_append_of_pos hall
  rw [List.append_nil] at htake
  rw [firstSegment, htake, String.ofList_toList]

/-- A last segment has no dot. -/
theorem dot_notMem_lastSegment (name : String) : '.' ∉ (lastSegment name).toList := by
  rw [lastSegment, String.toList_ofList, lastChars, List.mem_reverse]
  intro hdot
  have hne := List.all_eq_true.mp List.all_takeWhile _ hdot
  simp at hne

/-- A name without a dot is its own last segment. -/
theorem lastSegment_of_qualifier?_eq_none {name : String} (h : qualifier? name = none) :
    lastSegment name = name := by
  rw [qualifier?] at h
  split at h
  · next hd =>
    have hall := List.takeWhile_append_dropWhile (p := (· != '.')) (l := name.toList.reverse)
    rw [hd, List.append_nil] at hall
    simp [lastSegment, lastChars, hall]
  · simp at h

/-- A name with a dot is its qualifier, a dot and its last segment. -/
theorem qualifier_append_lastSegment {name q : String} (h : qualifier? name = some q) :
    q ++ "." ++ lastSegment name = name := by
  rw [qualifier?] at h
  split at h
  · simp at h
  · next c before hd =>
    have hall := List.takeWhile_append_dropWhile (p := (· != '.')) (l := name.toList.reverse)
    have hdot := List.head?_dropWhile_not (· != '.') name.toList.reverse
    simp only [hd, List.head?_cons] at hdot
    obtain rfl : c = '.' := by simpa using hdot
    have hname := congrArg List.reverse (hd ▸ hall)
    obtain rfl := Option.some.inj h
    apply String.toList_inj.mp
    simp only [List.reverse_append, List.reverse_cons, List.reverse_reverse] at hname
    simp only [String.toList_append, lastSegment, lastChars, String.toList_ofList]
    exact hname

/-- From its end, a name without a dot is skipped on the way to the last dot. -/
theorem dropWhile_reverse_append {name : String} (h : '.' ∉ name.toList) (before : List Char) :
    (name.toList.reverse ++ before).dropWhile (· != '.') = before.dropWhile (· != '.') := by
  refine List.dropWhile_append_of_pos fun c hc => ?_
  have hne : c ≠ '.' := fun heq => h (heq ▸ List.mem_reverse.mp hc)
  simpa using hne

theorem qualifier?_eq_none {name : String} (h : '.' ∉ name.toList) : qualifier? name = none := by
  rw [qualifier?, ← List.append_nil name.toList.reverse, dropWhile_reverse_append h]
  rfl

/-- A name without a dot behind a qualifier leaves the qualifier. -/
theorem qualifier?_append {name : String} (h : '.' ∉ name.toList) (q : String) :
    qualifier? (q ++ "." ++ name) = some q := by
  rw [qualifier?, String.toList_append, List.reverse_append, dropWhile_reverse_append h]
  simp

theorem lastSegment_append {name : String} (h : '.' ∉ name.toList) (q : String) :
    lastSegment (q ++ "." ++ name) = name := by
  have hwhole := qualifier_append_lastSegment (qualifier?_append h q)
  have hlists := congrArg String.toList hwhole
  simp only [String.toList_append] at hlists
  exact String.toList_inj.mp (List.append_cancel_left hlists)

/-- A name below a qualifier; an empty qualifier adds nothing. -/
def qualify (qualifier name : String) : String :=
  if qualifier.isEmpty then name else qualifier ++ "." ++ name

/-- A name without a dot leaves the qualifier it stands below, also when that is empty. -/
theorem qualifier?_qualify {name : String} (h : '.' ∉ name.toList) (q : String) :
    (qualifier? (qualify q name)).getD "" = q := by
  rw [qualify]
  split
  · next hempty =>
    rw [qualifier?_eq_none h]
    exact (String.isEmpty_iff.mp hempty).symm
  · rw [qualifier?_append h]
    rfl

end InterfaceDefinition.Dotted
