import InterfaceDefinition.Proofs.Resolution.Nodes
import InterfaceDefinition.Proofs.Signature.Scanning

/-!
# The grammar of type signatures

`Signature.IsType` is the grammar: a dotted name, then types in angle brackets with commas between
them if there are any, then the array mark if there is one. `TypeSpec.tokens` prints a type as
tokens; what it prints is in the grammar when the names are dotted names, and everything in the
grammar is printed from some type (`Signature.isType_iff_exists_tokens`). The signature of a type is
the texts of these tokens one after the other (`TypeSpec.signature_eq_join`).

`TypeSpec.IsBare` describes the types that can be read from a signature: nothing is said in them
besides names, arguments and array marks, and all their parts stand at one place.
-/

namespace InterfaceDefinition

open Signature

namespace Signature

/-! ### The grammar -/

/-- Arguments in angle brackets with commas between them; nothing for no arguments. -/
def angled : List (List TokenKind) → List TokenKind
  | [] => []
  | first :: rest => .langle :: (first ++ rest.flatMap (.comma :: ·)) ++ [.rangle]

/-- The array mark, if there is one. -/
def arrayMark (isArray : Bool) : List TokenKind :=
  if isArray then [.lbracket, .rbracket] else []

/-- The tokens of a type: a dotted name, arguments, the array mark. -/
inductive IsType : List TokenKind → Prop
  | mk {name : String} (arguments : List (List TokenKind)) (isArray : Bool)
      (hname : IsName name.toList) (harguments : ∀ ks ∈ arguments, IsType ks) :
      IsType (.name name :: (angled arguments ++ arrayMark isArray))

end Signature

/-! ### Types as tokens -/

namespace TypeSpec

mutual

/-- The tokens of a type. -/
def tokens : TypeSpec → List TokenKind
  | ⟨_, base, arguments, isArray, _, _⟩ =>
    .name base.text :: (angled (tokensOf arguments) ++ arrayMark isArray)

/-- The tokens of each of several types. -/
def tokensOf : List TypeSpec → List (List TokenKind)
  | [] => []
  | t :: rest => t.tokens :: tokensOf rest

end

theorem tokensOf_eq_map (ts : List TypeSpec) : tokensOf ts = ts.map tokens := by
  induction ts with
  | nil => rw [tokensOf]; rfl
  | cons t ts ih => rw [tokensOf, ih, List.map_cons]

/-- A type is spelled by its name, its arguments in angle brackets and its array mark. -/
theorem tokens_eq (t : TypeSpec) :
    t.tokens = .name t.name :: (angled (t.arguments.map tokens) ++ arrayMark t.isArray) := by
  cases t
  rw [tokens, tokensOf_eq_map]
  rfl

theorem intercalate_singleton_cons {α : Type} (separator : α) (first : List α)
    (rest : List (List α)) :
    [separator].intercalate (first :: rest) = first ++ rest.flatMap (separator :: ·) := by
  induction rest generalizing first with
  | nil => simp [List.intercalate]
  | cons next rest ih => simp [List.intercalate_cons_cons, ih]

mutual

/-- The characters of a signature are those of the tokens. -/
theorem toList_signature : (t : TypeSpec) → t.signature.toList = t.tokens.flatMap (·.text.toList)
  | ⟨_, base, arguments, isArray, _, _⟩ => by
    have harguments := toList_signatures arguments
    have hmark : (if isArray then "[]" else "").toList =
        (arrayMark isArray).flatMap (·.text.toList) := by
      cases isArray <;> rfl
    rw [signature, tokens, List.flatMap_cons, List.flatMap_append, ← hmark]
    cases arguments with
    | nil => simp [tokensOf, angled, TokenKind.text]
    | cons first rest =>
      rw [signatures, tokensOf] at harguments ⊢
      simp only [List.map_cons, List.cons.injEq] at harguments
      obtain ⟨hfirst, hrest⟩ := harguments
      simp [String.toList_intercalate, intercalate_singleton_cons, hfirst, hrest, angled,
        TokenKind.text, List.flatMap_append, List.flatMap_map, List.flatMap_assoc]

/-- The signatures of arguments are the texts of their tokens. -/
theorem toList_signatures : (ts : List TypeSpec) →
    (signatures ts).map String.toList = (tokensOf ts).map (·.flatMap (·.text.toList))
  | [] => by rw [signatures, tokensOf]; rfl
  | t :: rest => by
    rw [signatures, tokensOf, List.map_cons, List.map_cons, toList_signature t,
      toList_signatures rest]

end

/-- A signature is the texts of the tokens, one after the other. -/
theorem signature_eq_join (t : TypeSpec) : t.signature = String.join (t.tokens.map (·.text)) := by
  apply String.toList_inj.mp
  rw [toList_signature, String.toList_join, List.flatMap_map]

/-! ### Names among the tokens -/

mutual

/-- In the tokens of a type no two names follow each other, nor do they with what follows them if
that does not begin with a name. -/
theorem separated_tokens_append : (t : TypeSpec) → ∀ {ks : List TokenKind}, Separated ks →
    (∀ k ∈ ks.head?, k.isName = false) → Separated (t.tokens ++ ks)
  | ⟨_, base, arguments, isArray, _, _⟩, ks, hks, hhead => by
    have hmark : Separated (arrayMark isArray ++ ks) ∧
        ∀ k ∈ (arrayMark isArray ++ ks).head?, k.isName = false := by
      cases isArray with
      | false => exact ⟨hks, hhead⟩
      | true =>
        refine ⟨?_, by simp [arrayMark, TokenKind.isName]⟩
        exact .cons_cons (.inl rfl) (List.isChain_cons.mpr ⟨fun _ _ => .inl rfl, hks⟩)
    rw [tokens, List.cons_append, List.append_assoc]
    obtain ⟨hseparated, hstart⟩ := separated_angled_append arguments hmark.1 hmark.2
    exact List.isChain_cons.mpr ⟨fun k hk => .inr (hstart k hk), hseparated⟩

theorem separated_angled_append : (ts : List TypeSpec) → ∀ {ks : List TokenKind}, Separated ks →
    (∀ k ∈ ks.head?, k.isName = false) →
    Separated (angled (tokensOf ts) ++ ks) ∧
      ∀ k ∈ (angled (tokensOf ts) ++ ks).head?, k.isName = false
  | [], ks, hks, hhead => by
    rw [tokensOf]
    exact ⟨hks, hhead⟩
  | t :: rest, ks, hks, hhead => by
    have hclose : Separated (.rangle :: ks) := List.isChain_cons.mpr ⟨fun _ _ => .inl rfl, hks⟩
    obtain ⟨hseparated, hstart⟩ := separated_commas_append rest hclose (by simp [TokenKind.isName])
    have hfirst := separated_tokens_append t hseparated hstart
    rw [tokensOf, angled]
    simp only [List.append_assoc, List.cons_append, List.nil_append]
    exact ⟨List.isChain_cons.mpr ⟨fun _ _ => .inl rfl, hfirst⟩, by simp [TokenKind.isName]⟩

theorem separated_commas_append : (ts : List TypeSpec) → ∀ {ks : List TokenKind}, Separated ks →
    (∀ k ∈ ks.head?, k.isName = false) →
    Separated ((tokensOf ts).flatMap (.comma :: ·) ++ ks) ∧
      ∀ k ∈ ((tokensOf ts).flatMap (.comma :: ·) ++ ks).head?, k.isName = false
  | [], ks, hks, hhead => by
    rw [tokensOf]
    exact ⟨hks, hhead⟩
  | t :: rest, ks, hks, hhead => by
    obtain ⟨hseparated, hstart⟩ := separated_commas_append rest hks hhead
    have hfirst := separated_tokens_append t hseparated hstart
    rw [tokensOf]
    simp only [List.flatMap_cons, List.append_assoc, List.cons_append]
    exact ⟨List.isChain_cons.mpr ⟨fun _ _ => .inl rfl, hfirst⟩, by simp [TokenKind.isName]⟩

end

/-- No two names stand side by side in the tokens of a type, so that they can be told apart without
blanks. -/
theorem separated_tokens (t : TypeSpec) : Separated t.tokens := by
  have h := t.separated_tokens_append List.isChain_nil (by simp)
  rwa [List.append_nil] at h

theorem mem_angled {k : TokenKind} {arguments : List (List TokenKind)} (hk : k.isName = true) :
    k ∈ angled arguments ↔ ∃ ks ∈ arguments, k ∈ ks := by
  obtain ⟨name, rfl⟩ := TokenKind.exists_eq_name hk
  cases arguments with
  | nil => simp [angled]
  | cons first rest => simp [angled]

mutual

/-- The names among the tokens of a type are the names of its nodes. -/
theorem name_mem_tokens_iff (name : String) :
    (t : TypeSpec) → (.name name ∈ t.tokens ↔ ∃ n ∈ t.nodes, n.name = name)
  | ⟨_, base, arguments, isArray, _, _⟩ => by
    have hmark : TokenKind.name name ∉ arrayMark isArray := by
      cases isArray <;> simp [arrayMark]
    rw [tokens, nodes, List.mem_cons, List.mem_append, mem_angled rfl,
      exists_name_mem_tokensOf_iff name arguments]
    simp [hmark, TypeSpec.name, eq_comm]

theorem exists_name_mem_tokensOf_iff (name : String) : (ts : List TypeSpec) →
    ((∃ ks ∈ tokensOf ts, .name name ∈ ks) ↔ ∃ n ∈ nodesOf ts, n.name = name)
  | [] => by simp [tokensOf, nodesOf]
  | t :: rest => by
    rw [tokensOf, nodesOf, List.exists_mem_cons_iff, name_mem_tokens_iff name t,
      exists_name_mem_tokensOf_iff name rest]
    simp [or_and_right, exists_or]

end

/-! ### Types that can be read -/

/-- A type in which nothing is said besides names, arguments and array marks: no name has a meaning,
nothing is annotated or commented, and all parts stand at one place. -/
def IsBare (loc : Location) (t : TypeSpec) : Prop :=
  ∀ n ∈ t.nodes, n.location = loc ∧ n.base.resolution = none ∧ n.annotations = {} ∧ n.comments = ""

/-- A type all of whose names are dotted names. -/
def HasDottedNames (t : TypeSpec) : Prop :=
  ∀ n ∈ t.nodes, IsName n.name.toList

/-- The names of a type can all be read back when its tokens are valid. -/
theorem hasDottedNames_iff {t : TypeSpec} :
    t.HasDottedNames ↔ ∀ k ∈ t.tokens, k.IsValid := by
  constructor
  · intro h k hk
    cases k with
    | name name =>
      obtain ⟨n, hn, rfl⟩ := (t.name_mem_tokens_iff name).mp hk
      exact h n hn
    | _ => trivial
  · intro h n hn
    exact h _ ((t.name_mem_tokens_iff n.name).mpr ⟨n, hn, rfl⟩)

theorem forall_nodes_iff {P : TypeSpec → Prop} {t : TypeSpec} :
    (∀ n ∈ t.nodes, P n) ↔ P t ∧ ∀ a ∈ t.arguments, ∀ n ∈ a.nodes, P n := by
  rw [nodes_eq, List.forall_mem_cons, List.forall_mem_flatMap]

end TypeSpec

/-! ### The grammar and its types -/

namespace Signature

mutual

/-- The tokens of a type are in the grammar. -/
theorem isType_tokens : (t : TypeSpec) → t.HasDottedNames → IsType t.tokens
  | ⟨_, base, arguments, isArray, _, _⟩, h => by
    have hbase := h _ (TypeSpec.self_mem_nodes _)
    rw [TypeSpec.HasDottedNames, TypeSpec.nodes, List.forall_mem_cons] at h
    rw [TypeSpec.tokens]
    exact .mk _ _ hbase (isType_tokensOf arguments h.2)

theorem isType_tokensOf : (ts : List TypeSpec) →
    (∀ n ∈ TypeSpec.nodesOf ts, IsName n.name.toList) →
    ∀ ks ∈ TypeSpec.tokensOf ts, IsType ks
  | [], _ => by simp [TypeSpec.tokensOf]
  | t :: rest, h => by
    rw [TypeSpec.nodesOf, List.forall_mem_append] at h
    rw [TypeSpec.tokensOf, List.forall_mem_cons]
    exact ⟨isType_tokens t h.1, isType_tokensOf rest h.2⟩

end

/-- What is in the grammar is printed from a type. -/
theorem IsType.exists_tokens {ks : List TokenKind} (h : IsType ks) (loc : Location) :
    ∃ t : TypeSpec, t.IsBare loc ∧ t.HasDottedNames ∧ t.tokens = ks := by
  induction h with
  | @mk name arguments isArray hname _ ih =>
    obtain ⟨ts, hts, htokens⟩ : ∃ ts : List TypeSpec,
        (∀ t ∈ ts, t.IsBare loc ∧ t.HasDottedNames) ∧ ts.map TypeSpec.tokens = arguments := by
      induction arguments with
      | nil => exact ⟨[], by simp, rfl⟩
      | cons first rest ihrest =>
        rw [List.forall_mem_cons] at ih
        obtain ⟨t, hbare, hdotted, htokens⟩ := ih.1
        obtain ⟨ts, hts, hrest⟩ := ihrest (fun ks hks => by simp_all) ih.2
        exact ⟨t :: ts, List.forall_mem_cons.mpr ⟨⟨hbare, hdotted⟩, hts⟩, by simp [htokens, hrest]⟩
    refine ⟨{ TypeSpec.named loc name with arguments := ts, isArray }, ?_, ?_, ?_⟩
    · exact TypeSpec.forall_nodes_iff.mpr ⟨⟨rfl, rfl, rfl, rfl⟩, fun a ha => (hts a ha).1⟩
    · exact TypeSpec.forall_nodes_iff.mpr ⟨hname, fun a ha => (hts a ha).2⟩
    · rw [TypeSpec.tokens_eq, htokens]
      rfl

/-- The grammar is what is printed from types. -/
theorem isType_iff_exists_tokens (loc : Location) {ks : List TokenKind} :
    IsType ks ↔ ∃ t : TypeSpec, t.IsBare loc ∧ t.HasDottedNames ∧ t.tokens = ks := by
  constructor
  · exact fun h => h.exists_tokens loc
  · rintro ⟨t, -, hdotted, rfl⟩
    exact isType_tokens t hdotted

end Signature

end InterfaceDefinition
