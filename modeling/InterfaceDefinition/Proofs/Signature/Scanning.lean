import InterfaceDefinition.TypeSpec.Token
import Mathlib.Data.List.Chain

/-!
# Scanning is the inverse of spelling

`Signature.Spells ks cs` says, without a scanner, that the characters `cs` are the texts of the
tokens `ks` in order, with any blanks before, between and behind them. A text that is scanned spells
its tokens, and every name among them is a dotted name (`Signature.spells_of_scanFrom`).

Conversely a text is scanned into the tokens that it spells (`Signature.exists_scanFrom`), provided
that no two names follow each other: two names without a blank between them would be read as one,
since a scanner takes the longest name it can. In a type signature no two names ever do.

Tokens stand one behind the other (`Signature.ascendIn_scanFrom`), and where a text cannot be
scanned it spells tokens up to a character with which none begins
(`Signature.spells_of_scanFrom_error`).
-/

namespace InterfaceDefinition

namespace Signature

/-! ### Names -/

/-- The characters of an identifier. -/
def IsIdentifier : List Char → Prop
  | [] => False
  | c :: cs => isStart c = true ∧ ∀ d ∈ cs, isPart d = true

instance : DecidablePred IsIdentifier
  | [] => inferInstanceAs (Decidable False)
  | _ :: cs => @instDecidableAnd _ _ inferInstance (List.decidableBAll _ cs)

/-- The characters of a dotted name: an identifier, or an identifier, a dot and a dotted name. -/
inductive IsName : List Char → Prop
  | identifier {cs : List Char} (h : IsIdentifier cs) : IsName cs
  | dotted {cs rest : List Char} (h : IsIdentifier cs) (hrest : IsName rest) :
      IsName (cs ++ '.' :: rest)

theorem isPart_of_isStart {c : Char} (h : isStart c = true) : isPart c = true := by
  simp [isPart, h]

theorem IsIdentifier.append {cs ds : List Char} (h : IsIdentifier cs)
    (hds : ∀ d ∈ ds, isPart d = true) : IsIdentifier (cs ++ ds) := by
  cases cs with
  | nil => exact h.elim
  | cons c cs => exact ⟨h.1, List.forall_mem_append.mpr ⟨h.2, hds⟩⟩

/-- A name begins like its first identifier. -/
theorem IsName.exists_start {cs : List Char} (h : IsName cs) :
    ∃ c rest, cs = c :: rest ∧ isStart c = true := by
  have hstart : ∀ {cs : List Char}, IsIdentifier cs →
      ∃ c rest, cs = c :: rest ∧ isStart c = true := by
    intro cs h
    cases cs with
    | nil => exact h.elim
    | cons c rest => exact ⟨c, rest, rfl, h.1⟩
  cases h with
  | identifier h => exact hstart h
  | dotted h _ =>
    obtain ⟨c, rest, rfl, hc⟩ := hstart h
    exact ⟨c, _, rfl, hc⟩

/-! ### The longest name -/

/-- What follows a name and cannot be taken for a part of it. -/
def EndsName (cs : List Char) : Prop :=
  ∀ c ∈ cs.head?, isPart c = false ∧ c ≠ '.'

theorem nameRest_cons {c : Char} (hdot : c ≠ '.') (cs : List Char) :
    nameRest (c :: cs) =
      if isPart c then (c :: (nameRest cs).1, (nameRest cs).2) else ([], c :: cs) := by
  rw [nameRest]
  simp [hdot]

/-- Characters of an identifier belong to the name. -/
theorem nameRest_append_parts {ds : List Char} (h : ∀ d ∈ ds, isPart d = true) (cs : List Char) :
    nameRest (ds ++ cs) = (ds ++ (nameRest cs).1, (nameRest cs).2) := by
  induction ds with
  | nil => rfl
  | cons d ds ih =>
    rw [List.forall_mem_cons] at h
    have hdot : d ≠ '.' := by
      rintro rfl
      exact absurd h.1 (by decide)
    rw [List.cons_append, nameRest_cons hdot, if_pos h.1, ih h.2, List.cons_append]

/-- Where a name ends the scanner takes nothing more into it. -/
theorem nameRest_of_endsName {cs : List Char} (h : EndsName cs) : nameRest cs = ([], cs) := by
  cases cs with
  | nil => rfl
  | cons c cs =>
    obtain ⟨hpart, hdot⟩ := h c rfl
    rw [nameRest_cons hdot, if_neg (by simp [hpart])]

/-- A name is taken as a whole where nothing can continue it. -/
theorem IsName.nameRest_append {c : Char} {cs rest : List Char} (h : IsName (c :: cs))
    (hrest : EndsName rest) : nameRest (cs ++ rest) = (cs, rest) := by
  generalize hall : c :: cs = all at h
  induction h generalizing c cs with
  | identifier h =>
    subst hall
    rw [nameRest_append_parts h.2, nameRest_of_endsName hrest, List.append_nil]
  | @dotted first more h hmore ih =>
    obtain ⟨d, ds, rfl, hd⟩ := hmore.exists_start
    cases first with
    | nil => exact h.elim
    | cons _ first =>
      rw [List.cons_append] at hall
      obtain ⟨rfl, rfl⟩ := List.cons.inj hall
      -- the dot continues the name, as an identifier begins behind it
      rw [List.append_assoc, nameRest_append_parts h.2, List.cons_append, List.cons_append,
        nameRest, if_pos hd, ih rfl]

/-- What is taken for a name is one. -/
theorem IsIdentifier.isName_nameRest {first : List Char} (h : IsIdentifier first)
    (cs : List Char) : IsName (first ++ (nameRest cs).1) := by
  fun_induction nameRest cs generalizing first with
  | case1 => simpa using IsName.identifier h
  | case2 c rest hc more after heq ih =>
    have hfirst : IsIdentifier [c] := ⟨hc, by simp⟩
    have hmore := ih hfirst
    simp only [heq, List.singleton_append] at hmore
    exact .dotted h hmore
  | case3 => simpa using IsName.identifier h
  | case4 c rest _ hc more after heq ih =>
    have hpart : ∀ d ∈ [c], isPart d = true := by simpa using hc
    have hmore := ih (h.append hpart)
    simpa [heq] using hmore
  | case5 => simpa using IsName.identifier h

/-! ### Texts of tokens -/

namespace TokenKind

/-- The text of a token. -/
def text : TokenKind → String
  | name text => text
  | langle => "<"
  | rangle => ">"
  | comma => ","
  | lbracket => "["
  | rbracket => "]"

/-- Whether a token is a name. -/
def isName : TokenKind → Bool
  | name _ => true
  | _ => false

theorem exists_eq_name {k : TokenKind} (h : k.isName = true) : ∃ text, k = name text := by
  cases k with
  | name text => exact ⟨text, rfl⟩
  | _ => simp [isName] at h

/-- A token as it comes out of a text: the text of a name is a dotted name. -/
def IsValid : TokenKind → Prop
  | name text => IsName text.toList
  | _ => True

end TokenKind

/-- The characters are the texts of the tokens in order, with blanks between them. -/
inductive Spells : List TokenKind → List Char → Prop
  | nil {blanks : List Char} (h : ∀ c ∈ blanks, isSpace c = true) : Spells [] blanks
  | cons (blanks : List Char) {cs : List Char} {k : TokenKind} {ks : List TokenKind}
      (h : ∀ c ∈ blanks, isSpace c = true) (hks : Spells ks cs) :
      Spells (k :: ks) (blanks ++ (k.text.toList ++ cs))

/-- Blanks in front of a text do not change what it spells. -/
theorem Spells.cons_blank {c : Char} {cs : List Char} {ks : List TokenKind} (hc : isSpace c = true)
    (h : Spells ks cs) : Spells ks (c :: cs) := by
  cases h with
  | nil h => exact .nil (List.forall_mem_cons.mpr ⟨hc, h⟩)
  | cons blanks h hks => exact .cons (c :: blanks) (List.forall_mem_cons.mpr ⟨hc, h⟩) hks

/-- Tokens spell their texts without any blanks. -/
theorem spells_flatMap (ks : List TokenKind) : Spells ks (ks.flatMap (·.text.toList)) := by
  induction ks with
  | nil => exact .nil (by simp)
  | cons k ks ih => exact .cons [] (by simp) ih

/-- No two names follow each other. -/
def Separated (ks : List TokenKind) : Prop :=
  ks.IsChain fun k k' => k.isName = false ∨ k'.isName = false

/-! ### Scanning a text -/

section Characters

variable {c : Char} {k : TokenKind}

theorem not_isStart_of_isSpace (h : isSpace c = true) : isStart c = false := by
  simp only [isSpace, Bool.or_eq_true, beq_iff_eq] at h
  rcases h with ((rfl | rfl) | rfl) | rfl <;> decide

theorem toList_text_of_punctuation? (h : punctuation? c = some k) : k.text.toList = [c] := by
  unfold punctuation? at h
  split at h <;> simp_all <;> subst h <;> rfl

theorem isValid_of_punctuation? (h : punctuation? c = some k) : k.IsValid := by
  unfold punctuation? at h
  split at h <;> simp_all <;> subst h <;> trivial

/-- A token that is no name is a character that is neither a blank nor part of a name. -/
theorem exists_punctuation? (h : k.isName = false) :
    ∃ c, k.text.toList = [c] ∧ punctuation? c = some k ∧ isSpace c = false ∧ isPart c = false ∧
      c ≠ '.' := by
  cases k with
  | name => simp [TokenKind.isName] at h
  | langle => exact ⟨'<', by decide⟩
  | rangle => exact ⟨'>', by decide⟩
  | comma => exact ⟨',', by decide⟩
  | lbracket => exact ⟨'[', by decide⟩
  | rbracket => exact ⟨']', by decide⟩

/-- A blank ends a name. -/
theorem endsName_of_isSpace (h : isSpace c = true) (cs : List Char) : EndsName (c :: cs) := by
  simp only [isSpace, Bool.or_eq_true, beq_iff_eq] at h
  intro d hd
  obtain rfl := Option.some.inj hd
  rcases h with ((rfl | rfl) | rfl) | rfl <;> decide

end Characters

/-- What follows a name in separated tokens ends it. -/
theorem Spells.endsName {ks : List TokenKind} {cs : List Char} (h : Spells ks cs)
    (hks : ∀ k ∈ ks.head?, k.isName = false) : EndsName cs := by
  cases h with
  | nil h =>
    cases cs with
    | nil => simp [EndsName]
    | cons c cs => exact endsName_of_isSpace (h c List.mem_cons_self) _
  | @cons blanks cs k ks h _ =>
    cases blanks with
    | nil =>
      obtain ⟨c, htext, -, -, hpart, hdot⟩ := exists_punctuation? (hks k rfl)
      intro d hd
      rw [List.nil_append, htext] at hd
      obtain rfl := Option.some.inj hd
      exact ⟨hpart, hdot⟩
    | cons b blanks => exact endsName_of_isSpace (h b List.mem_cons_self) _

theorem exists_of_map_eq_ok {ε α β : Type} {x : Except ε α} {f : α → β} {b : β}
    (h : x.map f = .ok b) : ∃ a, x = .ok a ∧ f a = b := by
  cases x with
  | error e => exact nomatch h
  | ok a => exact ⟨a, rfl, Except.ok.inj h⟩

theorem eq_error_of_map_eq_error {ε α β : Type} {x : Except ε α} {f : α → β} {e : ε}
    (h : x.map f = .error e) : x = .error e := by
  cases x with
  | error e' => exact congrArg _ (Except.error.inj h)
  | ok a => exact nomatch h

/-- A text spells the tokens that it is scanned into, and their names are dotted names. -/
theorem spells_of_scanFrom {offset : Nat} {cs : List Char} {ts : List Token}
    (h : scanFrom offset cs = .ok ts) :
    Spells (ts.map (·.kind)) cs ∧ ∀ t ∈ ts, t.kind.IsValid := by
  fun_induction scanFrom offset cs generalizing ts with
  | case1 =>
    obtain rfl := Except.ok.inj h
    exact ⟨.nil (by simp), by simp⟩
  | case2 offset c rest hc ih =>
    obtain ⟨hspells, hvalid⟩ := ih h
    exact ⟨hspells.cons_blank hc, hvalid⟩
  | case3 offset c rest _ hc name =>
    rename_i ih
    obtain ⟨more, hrest, rfl⟩ := exists_of_map_eq_ok h
    obtain ⟨hspells, hvalid⟩ := ih hrest
    have hfirst : IsIdentifier [c] := ⟨hc, by simp⟩
    have hname : IsName name := hfirst.isName_nameRest rest
    have hcs : c :: rest = [] ++ ((TokenKind.name (String.ofList name)).text.toList ++
        (nameRest rest).2) := by
      simp [TokenKind.text, name, nameRest_append]
    refine ⟨?_, List.forall_mem_cons.mpr ⟨?_, hvalid⟩⟩
    · rw [hcs]
      exact .cons [] (by simp) hspells
    · simpa [TokenKind.IsValid] using hname
  | case4 offset c rest _ _ kind hkind ih =>
    obtain ⟨more, hrest, rfl⟩ := exists_of_map_eq_ok h
    obtain ⟨hspells, hvalid⟩ := ih hrest
    have hcs : c :: rest = [] ++ (kind.text.toList ++ rest) := by
      rw [toList_text_of_punctuation? hkind]
      rfl
    refine ⟨?_, List.forall_mem_cons.mpr ⟨isValid_of_punctuation? hkind, hvalid⟩⟩
    rw [hcs]
    exact .cons [] (by simp) hspells
  | case5 => exact nomatch h

/-- Blanks before a text move its tokens. -/
theorem scanFrom_append_blanks {blanks : List Char} (h : ∀ c ∈ blanks, isSpace c = true)
    (offset : Nat) (cs : List Char) :
    ∃ offset', scanFrom offset (blanks ++ cs) = scanFrom offset' cs := by
  induction blanks generalizing offset with
  | nil => exact ⟨offset, rfl⟩
  | cons b blanks ih =>
    rw [List.forall_mem_cons] at h
    obtain ⟨offset', heq⟩ := ih h.2 (offset + b.utf8Size)
    exact ⟨offset', by rw [List.cons_append, scanFrom, if_pos h.1, heq]⟩

/-- A text is scanned into the tokens that it spells, if they are separated. -/
theorem exists_scanFrom {ks : List TokenKind} {cs : List Char} (h : Spells ks cs)
    (hseparated : Separated ks) (hvalid : ∀ k ∈ ks, k.IsValid) (offset : Nat) :
    ∃ ts, scanFrom offset cs = .ok ts ∧ ts.map (·.kind) = ks := by
  induction h generalizing offset with
  | @nil blanks h =>
    obtain ⟨offset', heq⟩ := scanFrom_append_blanks h offset []
    rw [List.append_nil] at heq
    exact ⟨[], by rw [heq, scanFrom], rfl⟩
  | @cons blanks cs k ks h hks ih =>
    obtain ⟨hhead, htail⟩ := List.isChain_cons.mp hseparated
    rw [List.forall_mem_cons] at hvalid
    obtain ⟨offset', heq⟩ := scanFrom_append_blanks h offset (k.text.toList ++ cs)
    rw [heq]
    cases hk : k.isName with
    | true =>
      obtain ⟨text, rfl⟩ := TokenKind.exists_eq_name hk
      have hvalid' : IsName text.toList := hvalid.1
      obtain ⟨c, rest, htext, hc⟩ := hvalid'.exists_start
      have hspace : isSpace c = false := by
        by_contra hspace
        simp [not_isStart_of_isSpace (by simpa using hspace)] at hc
      -- the name ends where the next token, or a blank before it, begins
      have hends : EndsName cs :=
        hks.endsName fun k hk => (hhead k hk).resolve_left (by simp [TokenKind.isName])
      have hname : nameRest (rest ++ cs) = (rest, cs) :=
        IsName.nameRest_append (htext ▸ hvalid') hends
      obtain ⟨ts, hts, hkinds⟩ := ih htail hvalid.2 (offset' + byteLength (c :: rest))
      refine ⟨⟨.name text, offset'⟩ :: ts, ?_, by rw [List.map_cons, hkinds]⟩
      rw [TokenKind.text, htext, List.cons_append, scanFrom, if_neg (by simp [hspace]), if_pos hc]
      simp only [hname, hts, Except.map]
      rw [← htext, String.ofList_toList]
    | false =>
      obtain ⟨c, htext, hpunctuation, hspace, hpart, -⟩ := exists_punctuation? hk
      have hstart : isStart c = false := by
        by_contra hstart
        simp [isPart_of_isStart (by simpa using hstart)] at hpart
      obtain ⟨ts, hts, hkinds⟩ := ih htail hvalid.2 (offset' + c.utf8Size)
      refine ⟨⟨k, offset'⟩ :: ts, ?_, by rw [List.map_cons, hkinds]⟩
      rw [htext, List.cons_append, List.nil_append, scanFrom, if_neg (by simp [hspace]),
        if_neg (by simp [hstart])]
      simp only [hpunctuation, hts, Except.map]

/-! ### Places in a text -/

theorem byteLength_cons (c : Char) (cs : List Char) :
    byteLength (c :: cs) = c.utf8Size + byteLength cs := by
  simp [byteLength]

theorem byteLength_append (cs ds : List Char) :
    byteLength (cs ++ ds) = byteLength cs + byteLength ds := by
  simp [byteLength]

/-- The scanner loses no character: those of the name and those behind it add up. -/
theorem byteLength_nameRest (c : Char) (cs : List Char) :
    byteLength (c :: cs) = byteLength (c :: (nameRest cs).1) + byteLength (nameRest cs).2 := by
  rw [← byteLength_append, List.cons_append, nameRest_append]

/-- Tokens stand one behind the other, in some bytes. -/
def AscendIn (start finish : Nat) (ts : List Token) : Prop :=
  ts.Pairwise (·.offset < ·.offset) ∧ ∀ t ∈ ts, start ≤ t.offset ∧ t.offset < finish

/-- A token in front of others, at a lower offset, keeps them in ascending order. -/
theorem AscendIn.cons {start start' finish finish' : Nat} {ts : List Token} {k : TokenKind}
    (h : AscendIn start' finish' ts) (hstart : start < start') (hle : start' ≤ finish)
    (hfinish : finish' ≤ finish) : AscendIn start finish (⟨k, start⟩ :: ts) := by
  refine ⟨.cons (fun t ht => ?_) h.1, List.forall_mem_cons.mpr ⟨⟨le_rfl, ?_⟩, fun t ht => ?_⟩⟩
  · exact Nat.lt_of_lt_of_le hstart (h.2 t ht).1
  · exact Nat.lt_of_lt_of_le hstart hle
  · have hbounds := h.2 t ht
    omega

/-- The tokens of characters stand one behind the other, among the bytes of the characters. -/
theorem ascendIn_scanFrom {offset : Nat} {cs : List Char} {ts : List Token}
    (h : scanFrom offset cs = .ok ts) : AscendIn offset (offset + byteLength cs) ts := by
  fun_induction scanFrom offset cs generalizing ts with
  | case1 =>
    obtain rfl := Except.ok.inj h
    exact ⟨.nil, by simp⟩
  | case2 offset c rest hc ih =>
    obtain ⟨hpairwise, hbounds⟩ := ih h
    refine ⟨hpairwise, fun t ht => ?_⟩
    have hbound := hbounds t ht
    rw [byteLength_cons]
    omega
  | case3 offset c rest _ hc name =>
    rename_i ih
    obtain ⟨more, hrest, rfl⟩ := exists_of_map_eq_ok h
    have hpos : 0 < byteLength name := by
      have := c.utf8Size_pos
      rw [byteLength_cons]
      omega
    have hlength : byteLength (c :: rest) = byteLength name + _ := byteLength_nameRest c rest
    exact (ih hrest).cons (by omega) (by omega) (by omega)
  | case4 offset c rest _ _ kind hkind ih =>
    obtain ⟨more, hrest, rfl⟩ := exists_of_map_eq_ok h
    have hpos := c.utf8Size_pos
    have hlength := byteLength_cons c rest
    exact (ih hrest).cons (by omega) (by omega) (by omega)
  | case5 => exact nomatch h

/-- Scanning fails behind characters that spell tokens, at a character with which no token
begins. -/
theorem spells_of_scanFrom_error {offset : Nat} {cs : List Char} {bad : BadCharacter}
    (h : scanFrom offset cs = .error bad) :
    ∃ ks front rest, cs = front ++ bad.char :: rest ∧ bad.offset = offset + byteLength front ∧
      Spells ks front ∧ isSpace bad.char = false ∧ isStart bad.char = false ∧
      punctuation? bad.char = none := by
  fun_induction scanFrom offset cs with
  | case1 => exact nomatch h
  | case2 offset c rest hc ih =>
    obtain ⟨ks, front, after, hrest, hoffset, hspells, hbad⟩ := ih h
    refine ⟨ks, c :: front, after, by rw [hrest, List.cons_append], ?_, hspells.cons_blank hc, hbad⟩
    rw [hoffset, byteLength_cons, Nat.add_assoc]
  | case3 offset c rest _ hc name =>
    rename_i ih
    obtain ⟨ks, front, after, hafter, hoffset, hspells, hbad⟩ := ih (eq_error_of_map_eq_error h)
    refine ⟨.name (String.ofList name) :: ks, name ++ front, after, ?_, ?_, ?_, hbad⟩
    · rw [List.append_assoc, ← hafter, List.cons_append, nameRest_append]
    · rw [hoffset, byteLength_append, Nat.add_assoc]
    · simpa [TokenKind.text] using
        Spells.cons (k := .name (String.ofList name)) [] (by simp) hspells
  | case4 offset c rest _ _ kind hkind ih =>
    obtain ⟨ks, front, after, hafter, hoffset, hspells, hbad⟩ := ih (eq_error_of_map_eq_error h)
    refine ⟨kind :: ks, c :: front, after, by rw [hafter, List.cons_append], ?_, ?_, hbad⟩
    · rw [hoffset, byteLength_cons, Nat.add_assoc]
    · have hcons := Spells.cons (k := kind) [] (by simp) hspells
      rwa [toList_text_of_punctuation? hkind] at hcons
  | case5 offset c rest hspace hstart hnone =>
    obtain rfl := Except.error.inj h
    exact ⟨[], [], rest, rfl, rfl, .nil (by simp), by simpa using hspace, by simpa using hstart,
      hnone⟩

end Signature

end InterfaceDefinition
