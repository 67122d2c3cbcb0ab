import InterfaceDefinition.Proofs.Signature.Grammar
import InterfaceDefinition.TypeSpec.Parser

/-!
# Reading signatures is the inverse of printing them

The readers take the tokens of a type from the front of a list of tokens, and nothing more: what
they read prints as the tokens they used (`Signature.readType_sound`), and the tokens of a type are
read as that type wherever nothing behind them can continue it (`Signature.readType_tokens`). With
the scanner, a text is read as a type exactly when it spells the tokens of the type
(`TypeSpec.parse_eq_ok_iff`), from which the main statement follows
(`TypeSpec.parse_accepts_grammar`): reading accepts exactly the grammar, and reads a printed
signature as the type it was printed from.
-/

namespace InterfaceDefinition

open Signature

namespace Signature

theorem exists_of_bind_eq_ok {ε α β : Type} {x : Except ε α} {f : α → Except ε β} {b : β}
    (h : (x >>= f) = .ok b) : ∃ a, x = .ok a ∧ f a = .ok b := by
  cases x with
  | error e => exact nomatch h
  | ok a => exact ⟨a, rfl, h⟩

/-! ### What is read was printed -/

/-- The kinds of tokens. -/
abbrev kinds (ts : List Token) : List TokenKind :=
  ts.map (·.kind)

theorem kinds_eq_cons_iff {ts : List Token} {k : TokenKind} {ks : List TokenKind} :
    kinds ts = k :: ks ↔ ∃ offset rest, ts = ⟨k, offset⟩ :: rest ∧ kinds rest = ks := by
  constructor
  · intro h
    obtain ⟨⟨_, offset⟩, rest, rfl, rfl, hrest⟩ := List.map_eq_cons_iff.mp h
    exact ⟨offset, rest, rfl, hrest⟩
  · rintro ⟨offset, rest, rfl, rfl⟩
    rfl

/-- What was read as an array mark is one. -/
theorem readArrayMark_sound {finish : Nat} {ts : List Token} {p : Parsed Bool ts.length}
    (h : readArrayMark finish ts = .ok p) : kinds ts = arrayMark p.value ++ kinds p.rest := by
  unfold readArrayMark at h
  split at h
  · obtain rfl := Except.ok.inj h
    rfl
  · exact nomatch h
  · obtain rfl := Except.ok.inj h
    rfl

section Readers

variable (loc : Location) (finish : Nat)

mutual

/-- The tokens used for a type are those that it prints. -/
theorem readType_sound (ts : List Token) {p : Parsed TypeSpec (ts.length - 1)}
    (h : readType loc finish ts = .ok p) :
    kinds ts = p.value.tokens ++ kinds p.rest ∧ p.value.IsBare loc := by
  unfold readType at h
  split at h
  · next text offset rest =>
    obtain ⟨args, hargs, h⟩ := exists_of_bind_eq_ok h
    obtain ⟨mark, hmark, h⟩ := exists_of_bind_eq_ok h
    obtain rfl := Except.ok.inj h
    obtain ⟨harguments, hbare⟩ := readArguments_sound rest hargs
    have hrest := readArrayMark_sound hmark
    refine ⟨?_, TypeSpec.forall_nodes_iff.mpr ⟨⟨rfl, rfl, rfl, rfl⟩, hbare⟩⟩
    rw [TypeSpec.tokens_eq, List.cons_append, List.append_assoc, ← hrest, ← harguments]
    rfl
  · exact nomatch h
termination_by ts.length

/-- What was read as arguments is spelled by the tokens that were consumed. -/
theorem readArguments_sound (ts : List Token) {p : Parsed (List TypeSpec) ts.length}
    (h : readArguments loc finish ts = .ok p) :
    kinds ts = angled (p.value.map TypeSpec.tokens) ++ kinds p.rest ∧
      ∀ t ∈ p.value, t.IsBare loc := by
  unfold readArguments at h
  split at h
  · next offset rest =>
    obtain ⟨first, hfirst, h⟩ := exists_of_bind_eq_ok h
    obtain ⟨more, hmore, h⟩ := exists_of_bind_eq_ok h
    split at h
    · next offset' after hafter =>
      obtain rfl := Except.ok.inj h
      obtain ⟨htype, hbare⟩ := readType_sound rest hfirst
      obtain ⟨htypes, hbares⟩ := readMore_sound first.rest hmore
      refine ⟨?_, List.forall_mem_cons.mpr ⟨hbare, hbares⟩⟩
      rw [hafter] at htypes
      simp only [kinds, List.map_cons] at htype htypes ⊢
      simp [angled, htype, htypes, List.flatMap_map]
    · exact nomatch h
  · obtain rfl := Except.ok.inj h
    exact ⟨rfl, by simp⟩
termination_by ts.length
decreasing_by
  · subst_vars
    simp
  · have := first.length_le
    subst_vars
    simp only [List.length_cons]
    omega

theorem readMore_sound (ts : List Token) {p : Parsed (List TypeSpec) ts.length}
    (h : readMore loc finish ts = .ok p) :
    kinds ts = (p.value.map TypeSpec.tokens).flatMap (.comma :: ·) ++ kinds p.rest ∧
      ∀ t ∈ p.value, t.IsBare loc := by
  unfold readMore at h
  split at h
  · next offset rest =>
    obtain ⟨next, hnext, h⟩ := exists_of_bind_eq_ok h
    obtain ⟨more, hmore, h⟩ := exists_of_bind_eq_ok h
    obtain rfl := Except.ok.inj h
    obtain ⟨htype, hbare⟩ := readType_sound rest hnext
    obtain ⟨htypes, hbares⟩ := readMore_sound next.rest hmore
    refine ⟨?_, List.forall_mem_cons.mpr ⟨hbare, hbares⟩⟩
    simp only [kinds, List.map_cons] at htype htypes ⊢
    simp [htype, htypes]
  · obtain rfl := Except.ok.inj h
    exact ⟨rfl, by simp⟩
termination_by ts.length
decreasing_by
  · subst_vars
    simp
  · have := next.length_le
    subst_vars
    simp only [List.length_cons]
    omega

end

/-! ### What is printed is read -/

/-- Tokens that cannot continue a type: neither arguments nor the array mark begin them. -/
def EndsType (ts : List Token) : Prop :=
  ∀ t ∈ ts.head?, t.kind ≠ .langle ∧ t.kind ≠ .lbracket

/-- An array mark is read back where a type ends behind it. -/
theorem readArrayMark_append {isArray : Bool} {ts rest : List Token}
    (hts : kinds ts = arrayMark isArray) (hrest : EndsType rest) :
    ∃ hle, readArrayMark finish (ts ++ rest) = .ok ⟨isArray, rest, hle⟩ := by
  cases isArray with
  | false =>
    obtain rfl := List.map_eq_nil_iff.mp hts
    refine ⟨Nat.le_refl _, ?_⟩
    rcases rest with _ | ⟨⟨k, offset⟩, rest⟩
    · rfl
    · obtain ⟨-, hbracket⟩ := hrest _ rfl
      cases k <;> first | rfl | exact absurd rfl hbracket
  | true =>
    obtain ⟨_, ts, rfl, hclose⟩ := kinds_eq_cons_iff.mp hts
    obtain ⟨_, ts, rfl, hnil⟩ := kinds_eq_cons_iff.mp hclose
    obtain rfl := List.map_eq_nil_iff.mp hnil
    exact ⟨by simp; omega, rfl⟩

/-- No array mark begins like arguments, so that none are looked for in front of it. -/
theorem head?_arrayMark_append {isArray : Bool} {ts rest : List Token}
    (hts : kinds ts = arrayMark isArray) (hrest : EndsType rest) :
    ∀ t ∈ (ts ++ rest).head?, t.kind ≠ .langle := by
  cases isArray with
  | false =>
    obtain rfl := List.map_eq_nil_iff.mp hts
    exact fun t ht => (hrest t ht).1
  | true =>
    obtain ⟨_, ts, rfl, -⟩ := kinds_eq_cons_iff.mp hts
    simp

theorem endsType_cons {k : TokenKind} {offset : Nat} {ts : List Token} (hangle : k ≠ .langle)
    (hbracket : k ≠ .lbracket) : EndsType (⟨k, offset⟩ :: ts) := by
  intro t ht
  obtain rfl := Option.some.inj ht
  exact ⟨hangle, hbracket⟩

theorem endsType_commas_append {kss : List (List TokenKind)} {ts rest : List Token}
    (hts : kinds ts = kss.flatMap (.comma :: ·)) (hrest : EndsType rest) :
    EndsType (ts ++ rest) := by
  cases kss with
  | nil =>
    obtain rfl := List.map_eq_nil_iff.mp hts
    exact hrest
  | cons ks kss =>
    obtain ⟨_, ts, rfl, -⟩ := kinds_eq_cons_iff.mp hts
    exact endsType_cons (by simp) (by simp)

mutual

/-- The tokens of a type are read as that type where nothing continues it. -/
theorem readType_append : (t : TypeSpec) → t.IsBare loc → ∀ {ts rest : List Token},
    kinds ts = t.tokens → EndsType rest →
    ∃ hle, readType loc finish (ts ++ rest) = .ok ⟨t, rest, hle⟩
  | ⟨location, ⟨_, _⟩, arguments, isArray, _, _⟩, ht, ts, rest, hts, hrest => by
    rw [TypeSpec.IsBare, TypeSpec.nodes, List.forall_mem_cons] at ht
    obtain ⟨⟨hlocation, rfl, rfl, rfl⟩, harguments⟩ := ht
    change location = loc at hlocation
    subst location
    rw [TypeSpec.tokens] at hts
    obtain ⟨offset, ts, rfl, hbehind⟩ := kinds_eq_cons_iff.mp hts
    obtain ⟨angles, mark, rfl, hangles, hmark⟩ := List.map_eq_append_iff.mp hbehind
    obtain ⟨hle, hread⟩ := readArguments_append arguments harguments hangles
      (head?_arrayMark_append hmark hrest)
    obtain ⟨hle', hreadMark⟩ := readArrayMark_append finish hmark hrest
    rw [List.cons_append, List.append_assoc, readType, hread]
    exact ⟨Nat.le_trans hle' hle, by
      simp [hreadMark, TypeName.text, bind, Except.bind, pure, Except.pure]⟩

/-- The arguments of a type are read where no other arguments follow them. -/
theorem readArguments_append : (args : List TypeSpec) →
    (∀ n ∈ TypeSpec.nodesOf args, n.location = loc ∧ n.base.resolution = none ∧
      n.annotations = {} ∧ n.comments = "") → ∀ {ts rest : List Token},
    kinds ts = angled (TypeSpec.tokensOf args) → (∀ t ∈ rest.head?, t.kind ≠ .langle) →
    ∃ hle, readArguments loc finish (ts ++ rest) = .ok ⟨args, rest, hle⟩
  | [], _, ts, rest, hts, hrest => by
    obtain rfl := List.map_eq_nil_iff.mp hts
    refine ⟨Nat.le_refl _, ?_⟩
    show readArguments loc finish rest = _
    unfold readArguments
    split
    · exact absurd rfl (hrest _ rfl)
    · rfl
  | t :: args, hargs, ts, rest, hts, hrest => by
    rw [TypeSpec.nodesOf, List.forall_mem_append] at hargs
    rw [TypeSpec.tokensOf, angled] at hts
    obtain ⟨_, ts, rfl, hinner⟩ := kinds_eq_cons_iff.mp hts
    obtain ⟨inner, close, rfl, hinner, hclose⟩ := List.map_eq_append_iff.mp hinner
    obtain ⟨first, commas, rfl, hfirst, hcommas⟩ := List.map_eq_append_iff.mp hinner
    obtain ⟨offset, close, rfl, hnil⟩ := kinds_eq_cons_iff.mp hclose
    obtain rfl := List.map_eq_nil_iff.mp hnil
    have hends : EndsType (⟨.rangle, offset⟩ :: rest) := endsType_cons (by simp) (by simp)
    obtain ⟨hle, hread⟩ := readType_append t hargs.1 hfirst (endsType_commas_append hcommas hends)
    obtain ⟨hle', hreadMore⟩ := readMore_append args hargs.2 hcommas hends (by simp)
    rw [List.cons_append, List.append_assoc, List.append_assoc, List.singleton_append,
      readArguments, hread]
    exact ⟨by simp; omega, by simp [hreadMore, bind, Except.bind, pure, Except.pure]⟩

/-- The types behind commas are read where no comma follows them. -/
theorem readMore_append : (args : List TypeSpec) →
    (∀ n ∈ TypeSpec.nodesOf args, n.location = loc ∧ n.base.resolution = none ∧
      n.annotations = {} ∧ n.comments = "") → ∀ {ts rest : List Token},
    kinds ts = (TypeSpec.tokensOf args).flatMap (.comma :: ·) → EndsType rest →
    (∀ t ∈ rest.head?, t.kind ≠ .comma) →
    ∃ hle, readMore loc finish (ts ++ rest) = .ok ⟨args, rest, hle⟩
  | [], _, ts, rest, hts, _, hrest => by
    obtain rfl := List.map_eq_nil_iff.mp hts
    refine ⟨Nat.le_refl _, ?_⟩
    show readMore loc finish rest = _
    unfold readMore
    split
    · exact absurd rfl (hrest _ rfl)
    · rfl
  | t :: args, hargs, ts, rest, hts, hends, hrest => by
    rw [TypeSpec.nodesOf, List.forall_mem_append] at hargs
    rw [TypeSpec.tokensOf, List.flatMap_cons, List.cons_append] at hts
    obtain ⟨_, ts, rfl, hbehind⟩ := kinds_eq_cons_iff.mp hts
    obtain ⟨first, commas, rfl, hfirst, hcommas⟩ := List.map_eq_append_iff.mp hbehind
    obtain ⟨hle, hread⟩ := readType_append t hargs.1 hfirst (endsType_commas_append hcommas hends)
    obtain ⟨hle', hreadMore⟩ := readMore_append args hargs.2 hcommas hends hrest
    rw [List.cons_append, List.append_assoc, readMore, hread]
    exact ⟨by simp; omega, by simp [hreadMore, bind, Except.bind, pure, Except.pure]⟩

end

end Readers

/-- Tokens that are read as a type are those that it prints. -/
theorem parseTokens_sound {loc : Location} {finish : Nat} {ts : List Token} {t : TypeSpec}
    (h : parseTokens loc finish ts = .ok t) : kinds ts = t.tokens ∧ t.IsBare loc := by
  obtain ⟨p, hread, h⟩ := exists_of_bind_eq_ok h
  split at h
  · next hrest =>
    obtain rfl := Except.ok.inj h
    obtain ⟨hkinds, hbare⟩ := readType_sound loc finish ts hread
    refine ⟨?_, hbare⟩
    rw [hkinds, hrest]
    exact List.append_nil _
  · exact nomatch h

end Signature

/-! ### Reading a text -/

namespace TypeSpec

variable {loc : Location} {text : String} {t : TypeSpec}

/-- A text is read as a type exactly when it spells the tokens of the type, the names in the type
are dotted names, and there is nothing in the type that a signature does not say. -/
theorem parse_eq_ok_iff :
    parse loc text = .ok t ↔ Spells t.tokens text.toList ∧ t.IsBare loc ∧ t.HasDottedNames := by
  constructor
  · intro h
    unfold parse at h
    split at h
    · exact nomatch h
    · next ts hscan =>
      obtain ⟨hspells, hvalid⟩ := spells_of_scanFrom hscan
      obtain ⟨hkinds, hbare⟩ := parseTokens_sound h
      refine ⟨hkinds ▸ hspells, hbare, hasDottedNames_iff.mpr ?_⟩
      rw [← hkinds]
      exact List.forall_mem_map.mpr hvalid
  · rintro ⟨hspells, hbare, hdotted⟩
    obtain ⟨ts, hscan, hkinds⟩ :=
      exists_scanFrom hspells t.separated_tokens (hasDottedNames_iff.mp hdotted) 0
    have hends : EndsType [] := by simp [EndsType]
    have hread := readType_append loc text.utf8ByteSize t hbare hkinds hends
    rw [List.append_nil] at hread
    obtain ⟨_, hread⟩ := hread
    rw [parse, scan, hscan]
    simp only [parseTokens, hread, bind, Except.bind, pure, Except.pure]

/-- A printed signature is read as the type it was printed from. -/
theorem parse_signature (hbare : t.IsBare loc) (hdotted : t.HasDottedNames) :
    parse loc t.signature = .ok t := by
  refine parse_eq_ok_iff.mpr ⟨?_, hbare, hdotted⟩
  rw [toList_signature]
  exact spells_flatMap t.tokens

/-- **Reading accepts the grammar and inverts printing.** A text is read exactly when it spells
tokens in the grammar; these are then the tokens that the type prints, whatever blanks stand between
them; and a type that says no more than a signature does is read back from its signature. -/
theorem parse_accepts_grammar (loc : Location) :
    (∀ text, (∃ t, parse loc text = .ok t) ↔ ∃ ks, Spells ks text.toList ∧ IsType ks) ∧
      (∀ text t ks, parse loc text = .ok t → Spells ks text.toList → IsType ks →
        t.signature = String.join (ks.map (·.text))) ∧
      ∀ t : TypeSpec, (∀ n ∈ t.nodes, n.location = loc ∧ n.base.resolution = none ∧
          n.annotations = {} ∧ n.comments = "" ∧ IsName n.base.written.toList) →
        parse loc t.signature = .ok t := by
  -- tokens in the grammar are those of a type, which is then what is read
  have hunique : ∀ {text ks}, Spells ks text.toList → IsType ks →
      ∃ t, parse loc text = .ok t ∧ t.tokens = ks := by
    intro text ks hspells htype
    obtain ⟨t, hbare, hdotted, rfl⟩ := htype.exists_tokens loc
    exact ⟨t, parse_eq_ok_iff.mpr ⟨hspells, hbare, hdotted⟩, rfl⟩
  refine ⟨fun text => ⟨?_, ?_⟩, ?_, ?_⟩
  · rintro ⟨t, h⟩
    obtain ⟨hspells, -, hdotted⟩ := parse_eq_ok_iff.mp h
    exact ⟨t.tokens, hspells, isType_tokens t hdotted⟩
  · rintro ⟨ks, hspells, htype⟩
    obtain ⟨t, h, -⟩ := hunique hspells htype
    exact ⟨t, h⟩
  · intro text t ks h hspells htype
    obtain ⟨t', h', rfl⟩ := hunique hspells htype
    obtain rfl := Except.ok.inj (h.symm.trans h')
    exact signature_eq_join t
  · intro t ht
    refine parse_signature (fun n hn => ?_) fun n hn => ?_
    · obtain ⟨hlocation, hresolution, hannotations, hcomments, -⟩ := ht n hn
      exact ⟨hlocation, hresolution, hannotations, hcomments⟩
    · obtain ⟨-, hresolution, -, -, hname⟩ := ht n hn
      simpa [name, TypeName.text, hresolution] using hname

/-- Blanks between the tokens are dropped when the type is printed again. -/
theorem parse_mapOfArrays :
    ∃ t, parse ⟨"Example.aidl", none⟩ "Map< String,\ta.Foo[ ] >" = .ok t ∧
      t.signature = "Map<String,a.Foo[]>" ∧
      parse ⟨"Example.aidl", none⟩ (named ⟨"Example.aidl", none⟩ "a.Foo").signature =
        .ok (named ⟨"Example.aidl", none⟩ "a.Foo") := by
  have hblank : ∀ c ∈ [' '], isSpace c = true := List.forall_mem_singleton.mpr rfl
  have htab : ∀ c ∈ ['\t'], isSpace c = true := List.forall_mem_singleton.mpr rfl
  have hpackage : IsIdentifier ['a'] := by decide
  have hfoo : IsName "a.Foo".toList := .dotted hpackage (.identifier (by decide))
  have htype : IsType [.name "Map", .langle, .name "String", .comma, .name "a.Foo", .lbracket,
      .rbracket, .rangle] := by
    refine .mk [[.name "String"], [.name "a.Foo", .lbracket, .rbracket]] false
      (.identifier (by decide)) (List.forall_mem_cons.mpr ⟨?_, ?_⟩)
    · exact .mk [] false (.identifier (by decide)) (by simp)
    · exact List.forall_mem_singleton.mpr (.mk [] true hfoo (by simp))
  have hspells : Spells [.name "Map", .langle, .name "String", .comma, .name "a.Foo", .lbracket,
      .rbracket, .rangle] "Map< String,\ta.Foo[ ] >".toList :=
    .cons [] (by simp) <| .cons [] (by simp) <| .cons [' '] hblank <|
    .cons [] (by simp) <| .cons ['\t'] htab <| .cons [] (by simp) <|
    .cons [' '] hblank <| .cons [' '] hblank <| .nil (by simp)
  obtain ⟨haccepts, hprints, hreads⟩ := parse_accepts_grammar ⟨"Example.aidl", none⟩
  obtain ⟨t, h⟩ := (haccepts _).mpr ⟨_, hspells, htype⟩
  refine ⟨t, h, hprints _ _ _ h hspells htype, hreads _ ?_⟩
  exact List.forall_mem_singleton.mpr ⟨rfl, rfl, rfl, rfl, hfoo⟩

end TypeSpec

end InterfaceDefinition
