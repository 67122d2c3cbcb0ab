import InterfaceDefinition.Proofs.Resolution.Steps

/-!
# The nodes of a document

The types written in a document form trees: every type is a node, and so are its arguments at any
depth. `nodes` lists them in the order in which resolution comes to them, parents first. A pass that
takes each type by a run of steps through its nodes takes a declaration by a run through the nodes
of its members, and changes nothing else that a check looks at (`Decl.takes_mapTypesM`).

The backing type of an enum is not written where it stands and is no node of its declaration.
-/

namespace InterfaceDefinition

open Pass

/-! ### Types -/

namespace TypeSpec

mutual

/-- A type and its arguments at any depth, parents first. -/
def nodes : TypeSpec → List TypeSpec
  | ⟨loc, base, arguments, isArray, annotations, comments⟩ =>
    ⟨loc, base, arguments, isArray, annotations, comments⟩ :: nodesOf arguments

/-- The nodes of several types. -/
def nodesOf : List TypeSpec → List TypeSpec
  | [] => []
  | t :: rest => t.nodes ++ nodesOf rest

end

theorem nodesOf_eq_flatMap (ts : List TypeSpec) : nodesOf ts = ts.flatMap nodes := by
  induction ts with
  | nil => rw [nodesOf]; rfl
  | cons t ts ih => rw [nodesOf, ih, List.flatMap_cons]

theorem nodes_eq (t : TypeSpec) : t.nodes = t :: t.arguments.flatMap nodes := by
  cases t
  rw [nodes, nodesOf_eq_flatMap]

theorem self_mem_nodes (t : TypeSpec) : t ∈ t.nodes := by
  rw [nodes_eq]
  exact List.mem_cons_self

mutual

/-- The nodes of a node are nodes. -/
theorem nodes_subset_of_mem : (s : TypeSpec) → ∀ {t : TypeSpec}, t ∈ s.nodes → t.nodes ⊆ s.nodes
  | ⟨_, base, arguments, isArray, _, _⟩, t, ht => by
    rw [nodes] at ht
    rcases List.mem_cons.mp ht with rfl | ht
    · exact List.Subset.refl _
    · rw [nodes]
      exact List.subset_cons_of_subset _ (nodes_subset_of_mem_nodesOf arguments ht)

theorem nodes_subset_of_mem_nodesOf : (ts : List TypeSpec) → ∀ {t : TypeSpec}, t ∈ nodesOf ts →
    t.nodes ⊆ nodesOf ts
  | [], t, ht => by
    rw [nodesOf] at ht
    exact nomatch ht
  | s :: rest, t, ht => by
    rw [nodesOf] at ht ⊢
    rcases List.mem_append.mp ht with ht | ht
    · exact List.subset_append_of_subset_left _ (nodes_subset_of_mem s ht)
    · exact List.subset_append_of_subset_right _ (nodes_subset_of_mem_nodesOf rest ht)

end

mutual

/-- A node is the type itself or an argument of a node. -/
theorem eq_or_mem_arguments : (t : TypeSpec) → ∀ {n : TypeSpec}, n ∈ t.nodes →
    n = t ∨ ∃ outer ∈ t.nodes, n ∈ outer.arguments
  | ⟨_, base, arguments, isArray, _, _⟩, n, hn => by
    rw [nodes] at hn ⊢
    rcases List.mem_cons.mp hn with rfl | hn
    · exact .inl rfl
    · refine .inr ?_
      rcases mem_or_mem_arguments arguments hn with hmem | ⟨outer, houter, hmem⟩
      · exact ⟨_, List.mem_cons_self, hmem⟩
      · exact ⟨outer, List.mem_cons_of_mem _ houter, hmem⟩

/-- A node is one of the types that are looked at, or an argument of another node. -/
theorem mem_or_mem_arguments : (ts : List TypeSpec) → ∀ {n : TypeSpec}, n ∈ nodesOf ts →
    n ∈ ts ∨ ∃ outer ∈ nodesOf ts, n ∈ outer.arguments
  | [], n, hn => by
    rw [nodesOf] at hn
    exact nomatch hn
  | t :: rest, n, hn => by
    rw [nodesOf] at hn ⊢
    rcases List.mem_append.mp hn with hn | hn
    · rcases eq_or_mem_arguments t hn with rfl | ⟨outer, houter, hmem⟩
      · exact .inl List.mem_cons_self
      · exact .inr ⟨outer, List.mem_append_left _ houter, hmem⟩
    · rcases mem_or_mem_arguments rest hn with hmem | ⟨outer, houter, hmem⟩
      · exact .inl (List.mem_cons_of_mem _ hmem)
      · exact .inr ⟨outer, List.mem_append_right _ houter, hmem⟩

end

end TypeSpec

/-! ### Members -/

namespace Members

/-- The nodes of the types of members. -/
def nodes (ms : Members) : List TypeSpec :=
  ms.typeSpecs.flatMap TypeSpec.nodes

/-- The nodes by the sorts of members, as a traversal comes to them. -/
theorem nodes_eq (ms : Members) :
    ms.nodes = ms.fields.flatMap (·.type.nodes) ++ (ms.constants.flatMap (·.type.nodes) ++
      ms.methods.flatMap fun m => m.returnType.nodes ++ m.arguments.flatMap (·.type.nodes)) := by
  simp [nodes, typeSpecs, List.flatMap_append, List.flatMap_map, List.flatMap_assoc,
    List.flatMap_cons]

variable {R : StepRel TypeSpec} {f : TypeSpec → Pass TypeSpec}

theorem takes_method (hf : ∀ t, Takes (Through TypeSpec.nodes R) t (f t)) (m : Method) :
    Takes (Through (fun m => m.returnType.nodes ++ m.arguments.flatMap (·.type.nodes)) R) m (do
      let returnType ← f m.returnType
      let arguments ← m.arguments.mapM fun arg => return { arg with type := ← f arg.type }
      return { m with returnType, arguments }) := by
  have harguments : ∀ a : Argument, Takes (Through (·.type.nodes) R) a
      (f a.type >>= fun t => pure { a with type := t }) :=
    fun a => .bind_pure fun p => hf a.type p
  intro p
  rw [run_bind, run_bind]
  simp only [run_pure, List.append_nil]
  exact (hf m.returnType p).append (Takes.mapM (fun a _ => harguments a) _).flatMap

/-- A traversal of members runs through their nodes, and there are as many members as before. -/
theorem takes_mapTypesM (hf : ∀ t, Takes (Through TypeSpec.nodes R) t (f t)) (ms : Members) :
    Takes (fun ms p ms' p' ds => Through nodes R ms p ms' p' ds ∧ ms'.isEmpty = ms.isEmpty) ms
      (ms.mapTypesM f) := by
  have hfield : ∀ x : Field, Takes (Through (·.type.nodes) R) x
      (f x.type >>= fun t => pure { x with type := t }) :=
    fun x => .bind_pure fun p => hf x.type p
  have hconstant : ∀ c : Constant, Takes (Through (·.type.nodes) R) c
      (f c.type >>= fun t => pure { c with type := t }) :=
    fun c => .bind_pure fun p => hf c.type p
  have hfields : Takes (Steps (Through (·.type.nodes) R)) ms.fields _ :=
    .mapM fun x _ => hfield x
  have hconstants : Takes (Steps (Through (·.type.nodes) R)) ms.constants _ :=
    .mapM fun c _ => hconstant c
  have hmethods : Takes (Steps (Through _ R)) ms.methods _ := .mapM fun m _ => takes_method hf m
  intro p
  rw [mapTypesM, run_bind, run_bind, run_bind]
  simp only [run_pure, List.append_nil]
  constructor
  · rw [Through, nodes_eq, nodes_eq]
    exact (hfields p).flatMap.append ((hconstants _).flatMap.append (hmethods _).flatMap)
  · simp only [isEmpty, (hfields p).isEmpty_eq, (hconstants _).isEmpty_eq, (hmethods _).isEmpty_eq]

/-- That an interface is oneway is no matter of types. -/
theorem nodes_within (ms : Members) (isOneway : Bool) :
    nodes { ms with methods := ms.methods.map (·.within isOneway) } = ms.nodes := by
  simp [nodes_eq, List.flatMap_map, Method.within]

end Members

/-! ### Declarations -/

namespace Decl

/-- The nodes of the types of a declaration's members. -/
def nodes (d : Decl) : List TypeSpec :=
  d.members.nodes

/-- What neither resolution nor completion changes in a declaration. -/
structure Shell where
  header : Header
  kind : DeclKind
  typeParams? : Option (List String)
  enumerators? : Option (List (Enumerator × Expr))
  hasNoMembers : Bool

/-- A declaration less the meanings of its names and its backing type. -/
def shell (d : Decl) : Shell :=
  ⟨d.header, d.kind, d.typeParams?, d.enumerators?, d.members.isEmpty⟩

section Shell

variable {d d' : Decl} (h : d'.shell = d.shell)
include h

theorem header_of_shell : d'.header = d.header :=
  congrArg Shell.header h

theorem kind_of_shell : d'.kind = d.kind :=
  congrArg Shell.kind h

theorem annotations_of_shell : d'.annotations = d.annotations :=
  congrArg Header.annotations (header_of_shell h)

theorem typeParams?_of_shell : d'.typeParams? = d.typeParams? :=
  congrArg Shell.typeParams? h

theorem typeParams_of_shell : d'.typeParams = d.typeParams :=
  congrArg (Option.getD · []) (typeParams?_of_shell h)

/-- Passes change the types in a declaration only, so the enumerators are found as before. -/
theorem enumerator?_of_shell (name : String) : d'.enumerator? name = d.enumerator? name := by
  have henumerators : d'.enumerators? = d.enumerators? := congrArg Shell.enumerators? h
  rw [enumerator?, enumerator?, henumerators]

end Shell

/-- A traversal of a declaration runs through its nodes and changes nothing else. -/
theorem takes_mapTypesM {R : StepRel TypeSpec} {f : TypeSpec → Pass TypeSpec}
    (hf : ∀ t, Takes (Through TypeSpec.nodes R) t (f t)) (d : Decl) :
    Takes (fun d p d' p' ds =>
        Through nodes R d p d' p' ds ∧ d'.shell = d.shell ∧ d'.backing? = d.backing?)
      d (d.mapTypesM f) := by
  obtain ⟨header, body⟩ := d
  cases body with
  | parcelable typeParams cppHeader => exact fun p => ⟨.nil p, rfl, rfl⟩
  | structured typeParams members =>
    refine .bind_pure fun p => ?_
    obtain ⟨hnodes, hempty⟩ := members.takes_mapTypesM hf p
    exact ⟨hnodes, congrArg (Shell.mk header .structured typeParams none) hempty, rfl⟩
  | union typeParams members =>
    refine .bind_pure fun p => ?_
    obtain ⟨hnodes, hempty⟩ := members.takes_mapTypesM hf p
    exact ⟨hnodes, congrArg (Shell.mk header .union typeParams none) hempty, rfl⟩
  | enum enumerators backing members =>
    refine .bind_pure fun p => ?_
    obtain ⟨hnodes, hempty⟩ := members.takes_mapTypesM hf p
    exact ⟨hnodes, congrArg (Shell.mk header .enum none _) hempty, rfl⟩
  | interface isOneway members =>
    refine .bind_pure fun p => ?_
    obtain ⟨hnodes, hempty⟩ := members.takes_mapTypesM hf p
    refine ⟨?_, congrArg (Shell.mk header .interface none none) ?_, rfl⟩
    · simpa [Through, nodes, Decl.members, members?, Members.nodes_within] using hnodes
    · simpa [Decl.members, members?, Members.isEmpty] using hempty

end Decl

/-! ### Documents -/

/-- The nodes of the types written in a document. -/
def Document.nodes (doc : Document) : List TypeSpec :=
  doc.decls.flatMap Decl.nodes

end InterfaceDefinition
