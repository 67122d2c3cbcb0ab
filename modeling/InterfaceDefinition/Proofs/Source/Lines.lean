import InterfaceDefinition.Decl.Source

/-!
# The lines of a declaration

A declaration is written by running through a listing, which keeps the text and the level of
indentation. What comes of that is said here as a list of lines (`Decl.sourceLines`), with the texts
of values left open, since nothing else in the lines depends on the registry: the source of a
declaration is these lines with the rendered values in them (`Decl.source_eq`).

Every writer adds some lines and leaves the level as it is (`Listing.Writes`), and this composes:
one writer after the other, a fold over a list, a block further in.
-/

namespace InterfaceDefinition

/-! ### Writers -/

namespace Listing

variable {α : Type} {write write' : Listing → Listing} {lines lines' : List String}

/-- The text of lines at a level. -/
def block (level : Nat) (lines : List String) : String :=
  String.join (lines.map fun line => margin level ++ line ++ "\n")

/-- A writer that adds lines at the level it finds. -/
def Writes (write : Listing → Listing) (lines : List String) : Prop :=
  ∀ l, write l = { l with text := l.text ++ block l.level lines }

theorem block_append (level : Nat) (lines lines' : List String) :
    block level (lines ++ lines') = block level lines ++ block level lines' := by
  rw [block, List.map_append, String.join_append]
  rfl

theorem margin_succ (level : Nat) : margin (level + 1) = margin level ++ margin 1 := by
  rw [margin, margin, margin, ← String.ofList_append, List.replicate_append_replicate, Nat.mul_succ]

/-- A block further in is one of lines with a margin. -/
theorem block_succ (level : Nat) (lines : List String) :
    block (level + 1) lines = block level (lines.map (margin 1 ++ ·)) := by
  simp only [block, List.map_map, Function.comp_def, margin_succ level, String.append_assoc]

theorem Writes.nothing : Writes id [] := by
  intro l
  simp [block, String.join]

theorem Writes.line (content : String) : Writes (·.line content) [content] := by
  intro l
  simp [Listing.line, block, String.join, String.append_assoc]

theorem Writes.comp (h : Writes write lines) (h' : Writes write' lines') :
    Writes (fun l => write' (write l)) (lines ++ lines') := by
  intro l
  dsimp only
  rw [h l, h', block_append, String.append_assoc]

/-- Writing the elements of a list one after the other writes the lines of each. -/
theorem Writes.foldl {write : α → Listing → Listing} {lines : α → List String}
    (h : ∀ x, Writes (write x) (lines x)) (xs : List α) :
    Writes (fun l => xs.foldl (fun l x => write x l) l) (xs.flatMap lines) := by
  induction xs with
  | nil => exact .nothing
  | cons x xs ih => exact (h x).comp ih

/-- What is written inside of braces is indented by one level more. -/
theorem Writes.inside (h : Writes write lines) :
    Writes (·.inside write) (lines.map (margin 1 ++ ·)) := by
  intro l
  dsimp only
  rw [Listing.inside, h, ← block_succ]
  rfl

/-- A block between two lines. -/
theorem Writes.between (h : Writes write lines) (opening closing : String) :
    Writes (fun l => ((l.line opening).inside write).line closing)
      ([opening] ++ lines.map (margin 1 ++ ·) ++ [closing]) :=
  ((Writes.line opening).comp h.inside).comp (.line closing)

/-- The comment that hides what follows, if it is hidden. -/
def hideLines (hidden : Bool) : List String :=
  if hidden then ["/* @hide */"] else []

theorem Writes.hideComment (hidden : Bool) :
    Writes (fun l => if hidden then l.hideComment else l) (hideLines hidden) := by
  cases hidden with
  | false => exact .nothing
  | true => exact .line _

theorem Writes.lineHidden (hidden : Bool) (content : String) :
    Writes (·.lineHidden hidden content) (hideLines hidden ++ [content]) :=
  (Writes.hideComment hidden).comp (.line content)

/-- What a writer makes of the empty listing. -/
theorem Writes.text_eq (h : Writes write lines) :
    (write {}).text = String.join (lines.map (· ++ "\n")) := by
  rw [h]
  simp [block, margin]

end Listing

/-! ### Declarations -/

namespace Decl

open Listing

/-- The lines before a declaration. -/
def headerLines (d : Decl) : List String :=
  hideLines d.header.isHidden ++ if d.annotations.isEmpty then [] else [d.annotations.text]

/-- The lines of a field, with the text of its default. -/
def fieldLines (text : TypeSpec → Expr → String) (f : Field) : List String :=
  let value :=
    match f.default? with
    | some value => " = " ++ text f.type value
    | none => ""
  hideLines f.type.isHidden ++ [f.type.text ++ " " ++ f.name ++ value ++ ";"]

/-- The lines of a constant, with the text of its value. -/
def constantLines (text : TypeSpec → Expr → String) (c : Constant) : List String :=
  hideLines c.type.isHidden ++
    ["const " ++ c.type.text ++ " " ++ c.name ++ " = " ++ text c.type c.value ++ ";"]

/-- The lines of a method. -/
def methodLines (m : Method) : List String :=
  hideLines m.isHidden ++ [m.text ++ ";"]

/-- The line of an enumerator, with the text of its value as one of the backing type. -/
def enumeratorLine (text : TypeSpec → Expr → String) (backing : Option TypeSpec)
    (x : Enumerator × Expr) : String :=
  let value :=
    match backing with
    | some type => text type x.2
    | none => x.2.text
  x.1.name ++ " = " ++ value ++ ","

/-- The lines between the braces of a declaration, without their margin. -/
def bodyLines (d : Decl) (text : TypeSpec → Expr → String) : List String :=
  match d.kind with
  | .parcelable => []
  | .structured | .union =>
    d.fields.flatMap (fieldLines text) ++ d.constants.flatMap (constantLines text)
  | .enum => (d.enumerators?.getD []).map (enumeratorLine text d.backing?)
  | .interface =>
    (d.methods.filter (·.isUserDefined)).flatMap methodLines ++
      d.constants.flatMap (constantLines text)

/-- The lines of a declaration, with texts for the values of expressions by their types. -/
def sourceLines (d : Decl) (text : TypeSpec → Expr → String) : List String :=
  let opening := d.kind.keyword ++ " " ++ d.name
  d.headerLines ++
    match d.kind with
    | .parcelable => [opening ++ " ;"]
    | _ => [opening ++ " \x7b"] ++ (d.bodyLines text).map ("  " ++ ·) ++ ["\x7d"]

/-- How values are rendered in a declaration. -/
def renderedText (r : Registry) (d : Decl) (type : TypeSpec) (value : Expr) : String :=
  r.valueTextOrEmpty value type.valueType d.canonicalName

variable (r : Registry) (d : Decl)

/-- In front of a declaration stand the mark that hides it and its annotations, where it has them.
-/
theorem writes_header : Writes d.writeHeader d.headerLines := by
  have hannotations : Writes
      (fun l => if d.annotations.isEmpty then l else l.line d.annotations.text)
      (if d.annotations.isEmpty then [] else [d.annotations.text]) := by
    split
    · exact .nothing
    · exact .line _
  exact (Writes.hideComment d.header.isHidden).comp hannotations

theorem writes_fields :
    Writes (d.writeFields r) (d.fields.flatMap (fieldLines (d.renderedText r))) := by
  refine .foldl (fun f => ?_) d.fields
  have hsource : f.source r d.canonicalName = f.type.text ++ " " ++ f.name ++
      (match f.default? with
        | some value => " = " ++ d.renderedText r f.type value
        | none => "") := by
    rw [Field.source, Field.valueText]
    cases f.default? <;> rfl
  rw [hsource]
  exact .lineHidden _ _

/-- Each constant is written with its rendered value, or with nothing behind the sign where there is
none. -/
theorem writes_constants :
    Writes (d.writeConstants r) (d.constants.flatMap (constantLines (d.renderedText r))) :=
  .foldl (fun _ => .lineHidden _ _) d.constants

/-- Methods that are not written by a user are left out. -/
theorem writes_methods :
    Writes d.writeMethods ((d.methods.filter (·.isUserDefined)).flatMap methodLines) :=
  .foldl (fun _ => .lineHidden _ _) _

/-- Each enumerator is a line with its value, rendered for the backing type if there is one. -/
theorem writes_enumerators :
    Writes (d.writeEnumerators r)
      ((d.enumerators?.getD []).map (enumeratorLine (d.renderedText r) d.backing?)) := by
  rw [List.map_eq_flatMap]
  exact .foldl (fun _ => .line _) _

/-- What stands inside of a declaration depends on its kind, and comes in the order of the parts
listed here. -/
theorem writes_body : Writes (d.writeBody r) (d.bodyLines (d.renderedText r)) := by
  unfold writeBody bodyLines
  cases d.kind with
  | parcelable => exact .nothing
  | structured => exact (d.writes_fields r).comp (d.writes_constants r)
  | union => exact (d.writes_fields r).comp (d.writes_constants r)
  | enum => exact d.writes_enumerators r
  | interface => exact d.writes_methods.comp (d.writes_constants r)

/-- The source of a declaration is its lines, with the rendered values in them. -/
theorem source_eq :
    d.source r = String.join ((d.sourceLines (d.renderedText r)).map (· ++ "\n")) := by
  unfold source sourceLines
  cases d.kind with
  | parcelable => exact (d.writes_header.comp (.line _)).text_eq
  | _ => exact (d.writes_header.comp ((d.writes_body r).between _ _)).text_eq

end Decl

end InterfaceDefinition
