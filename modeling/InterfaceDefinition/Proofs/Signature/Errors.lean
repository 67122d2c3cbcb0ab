import InterfaceDefinition.Proofs.Signature.Positions
import InterfaceDefinition.Proofs.Signature.RoundTrip

/-!
# Where reading a signature fails

A reader follows its tokens from position to position. Where it succeeds it stopped at the end of
what it reads, where only certain kinds of tokens may come next (`Signature.Awaits`): those that its
callers try in turn. Each that is tried in vain is awaited no longer, so when something is expected
at last nothing is awaited any more, and the token there cannot go on at all (`Signature.Fails`).
`Signature.Follows` says both of a reader, and that is all that is said of each.

With the grammar of positions, the tokens before an error then begin a signature and none has the
token at the error behind them (`SignatureError.PointsInto`); `TypeSpec.parse_error_exact` says so
of texts.
-/

namespace InterfaceDefinition

namespace Signature

/-! ### Reading from a position -/

/-- Tokens lead from a position to another one and to the tokens that are left there. -/
def Leads (q : Position) (ts : List Token) (q' : Position) (after : List Token) : Prop :=
  ∃ front, ts = front ++ after ∧ q.run? (kinds front) = some q'

/-- The token that comes next is one of some kinds, if it may come at all. -/
def Awaits (q : Position) (awaited : List TokenKind) (ts : List Token) : Prop :=
  ∀ t ∈ ts.head?, q.next? t.kind ≠ none → t.kind ∈ awaited

/-- The kinds of tokens that may come behind what was read last of a type. Before a type there are
no such kinds, since every name is one. -/
def Phase.awaited : Phase → List TokenKind
  | start => []
  | named => [.langle, .lbracket, .comma, .rangle]
  | closed => [.lbracket, .comma, .rangle]
  | opened => [.rbracket]
  | marked => [.comma, .rangle]

/-- Reading from a position fails at the end of the tokens that fit: something is expected where the
tokens lead, and what comes next may not come there. -/
def Fails (finish : Nat) (q : Position) (ts : List Token) (e : SignatureError) : Prop :=
  ∃ stop after what, Leads q ts stop after ∧ ¬ stop.IsFinal ∧ Awaits stop [] after ∧
    e = .expected what (offsetOf finish after)

/-- What a reader does from a position: it follows the tokens to a position of some sort, or it
fails. -/
def Follows {α : Type} {bound : Nat} (finish : Nat) (q : Position) (ts : List Token)
    (Stop : Position → List Token → Prop) : Except SignatureError (Parsed α bound) → Prop
  | .ok p => ∃ q', Leads q ts q' p.rest ∧ Stop q' p.rest
  | .error e => Fails finish q ts e

section Follows

variable {α β : Type} {m n finish : Nat} {q q' q'' : Position} {ts ts' ts'' : List Token}

theorem Leads.refl (q : Position) (ts : List Token) : Leads q ts q ts :=
  ⟨[], rfl, rfl⟩

/-- Tokens that lead to a position, and further ones that lead on from there, lead there together.
-/
theorem Leads.trans (h : Leads q ts q' ts') (h' : Leads q' ts' q'' ts'') : Leads q ts q'' ts'' := by
  obtain ⟨front, rfl, hrun⟩ := h
  obtain ⟨front', rfl, hrun'⟩ := h'
  refine ⟨front ++ front', (List.append_assoc ..).symm, ?_⟩
  rw [kinds, List.map_append, Position.run?_append_of_some hrun, hrun']

theorem Leads.token {k : TokenKind} (h : q.next? k = some q') (offset : Nat) (ts : List Token) :
    Leads q (⟨k, offset⟩ :: ts) q' ts :=
  ⟨[⟨k, offset⟩], rfl, by simp [h]⟩

/-- A failure at a position that the tokens lead to is a failure from where they begin. -/
theorem Leads.fails {e : SignatureError} (h : Leads q ts q' ts') (hfails : Fails finish q' ts' e) :
    Fails finish q ts e := by
  obtain ⟨stop, after, what, hleads, hrest⟩ := hfails
  exact ⟨stop, after, what, h.trans hleads, hrest⟩

variable {P Q : Position → List Token → Prop}

/-- A reader that follows the tokens behind some others follows all of them. -/
theorem Leads.follows {x : Except SignatureError (Parsed α n)} (h : Leads q ts q' ts')
    (hx : Follows finish q' ts' P x) : Follows finish q ts P x := by
  cases x with
  | error e => exact h.fails hx
  | ok p =>
    obtain ⟨stop, hleads, hstop⟩ := hx
    exact ⟨stop, h.trans hleads, hstop⟩

/-- Readers in turn follow the tokens when each does from where the one before it stops. -/
theorem Follows.bind {x : Except SignatureError (Parsed α m)}
    {f : Parsed α m → Except SignatureError (Parsed β n)} (hx : Follows finish q ts P x)
    (hf : ∀ (p : Parsed α m) q', P q' p.rest → Follows finish q' p.rest Q (f p)) :
    Follows finish q ts Q (x >>= f) := by
  cases x with
  | error e => exact hx
  | ok p =>
    obtain ⟨q', hleads, hp⟩ := hx
    exact hleads.follows (hf p q' hp)

/-- Where the tokens are at an end and the position is not final, what was awaited is reported
there. -/
theorem Awaits.fails {what : Expectation} (h : Awaits q [] ts) (hfinal : ¬ q.IsFinal) :
    Fails finish q ts (.expected what (offsetOf finish ts)) :=
  ⟨q, ts, what, .refl q ts, hfinal, h, rfl⟩

/-- A kind that does not come next need not be awaited. -/
theorem Awaits.without {k : TokenKind} {awaited : List TokenKind} (h : Awaits q (k :: awaited) ts)
    (hne : ∀ offset rest, ts ≠ ⟨k, offset⟩ :: rest) : Awaits q awaited ts := by
  intro t ht hnext
  refine (List.mem_cons.mp (h t ht hnext)).resolve_left ?_
  rintro rfl
  obtain ⟨rest, rfl⟩ := List.head?_eq_some_iff.mp ht
  exact hne t.offset rest rfl

/-- Behind a part of a type the kinds come that continue the type or follow it. -/
theorem awaits_phase (phase : Phase) (depth : Nat) (ts : List Token) (hphase : phase ≠ .start) :
    Awaits ⟨phase, depth⟩ phase.awaited ts := by
  intro t _ hnext
  cases phase <;> cases hk : t.kind <;>
    simp_all [Position.next?, Phase.isComplete, Phase.awaited]

/-- At the beginning of a type only a name may come. -/
theorem awaits_start (depth : Nat)
    (hne : ∀ text offset rest, ts ≠ ⟨.name text, offset⟩ :: rest) :
    Awaits ⟨.start, depth⟩ [] ts := by
  intro t ht hnext
  obtain ⟨rest, rfl⟩ := List.head?_eq_some_iff.mp ht
  obtain ⟨kind, offset⟩ := t
  cases kind with
  | name text => exact absurd rfl (hne text offset rest)
  | _ => simp [Position.next?, Phase.isComplete] at hnext

end Follows

/-! ### Readers -/

/-- The end of a type at a depth, where some tokens are awaited. -/
def EndsAt (depth : Nat) (awaited : List TokenKind) (q : Position) (ts : List Token) : Prop :=
  ∃ phase : Phase, phase.isComplete = true ∧ q = ⟨phase, depth⟩ ∧ Awaits q awaited ts

/-- The end of the arguments at a depth, where the array mark may follow. -/
def EndsArguments (depth : Nat) (q : Position) (ts : List Token) : Prop :=
  ∃ phase : Phase, (phase = .named ∨ phase = .closed) ∧ q = ⟨phase, depth⟩ ∧
    Awaits q [.lbracket, .comma, .rangle] ts

section Readers

variable (loc : Location) (finish : Nat)

/-- After arguments there is either the whole of an array mark or none, and half of one is reported
at what stands in its place. -/
theorem follows_readArrayMark (ts : List Token) {depth : Nat} {q : Position}
    (hq : EndsArguments depth q ts) :
    Follows finish q ts (EndsAt depth [.comma, .rangle]) (readArrayMark finish ts) := by
  obtain ⟨phase, hphase, rfl, hawaits⟩ := hq
  have hopened : Position.next? ⟨phase, depth⟩ .lbracket = some ⟨.opened, depth⟩ := if_pos hphase
  unfold readArrayMark
  split
  · next offset offset' rest =>
    have hmarked : Position.next? ⟨.opened, depth⟩ .rbracket = some ⟨.marked, depth⟩ := rfl
    exact ((Leads.token hopened offset _).trans (Leads.token hmarked offset' rest)).follows
      ⟨_, .refl _ _, .marked, rfl, rfl, awaits_phase .marked depth rest nofun⟩
  · next offset rest hne =>
    have hstuck : Awaits ⟨.opened, depth⟩ [] rest :=
      (awaits_phase .opened depth rest nofun).without hne
    exact (Leads.token hopened offset rest).fails (hstuck.fails fun hfinal => nomatch hfinal.1)
  · next hne =>
    have hcomplete : phase.isComplete = true := by rcases hphase with rfl | rfl <;> rfl
    exact ⟨_, .refl _ _, phase, hcomplete, rfl, hawaits.without hne⟩

mutual

/-- Reading a type at a depth follows the tokens to its end, or fails. -/
theorem follows_readType (ts : List Token) (depth : Nat) :
    Follows finish ⟨.start, depth⟩ ts (EndsAt depth [.comma, .rangle])
      (readType loc finish ts) := by
  unfold readType
  split
  · next text offset rest =>
    have hname : Position.next? ⟨.start, depth⟩ (.name text) = some ⟨.named, depth⟩ := rfl
    refine (Leads.token hname offset rest).follows ?_
    refine (follows_readArguments rest depth).bind fun args q hq => ?_
    refine (follows_readArrayMark finish args.rest hq).bind fun mark q hq => ?_
    exact ⟨q, .refl _ _, hq⟩
  · next hne => exact (awaits_start depth hne).fails fun hfinal => nomatch hfinal.1
termination_by ts.length

/-- Reading arguments behind a name follows the tokens to where the array mark may come. -/
theorem follows_readArguments (ts : List Token) (depth : Nat) :
    Follows finish ⟨.named, depth⟩ ts (EndsArguments depth) (readArguments loc finish ts) := by
  unfold readArguments
  split
  · next offset rest =>
    have hopen : Position.next? ⟨.named, depth⟩ .langle = some ⟨.start, depth + 1⟩ := rfl
    refine (Leads.token hopen offset rest).follows ?_
    refine (follows_readType rest (depth + 1)).bind fun first q hq => ?_
    refine (follows_readMore first.rest hq).bind fun more q hq => ?_
    obtain ⟨phase, hphase, rfl, hawaits⟩ := hq
    have hclose : Position.next? ⟨phase, depth + 1⟩ .rangle = some ⟨.closed, depth⟩ :=
      if_pos ⟨hphase, Nat.succ_pos depth⟩
    split
    · next offset' after hafter =>
      have hleads : Leads ⟨phase, depth + 1⟩ more.rest ⟨.closed, depth⟩ after :=
        hafter ▸ Leads.token hclose offset' after
      exact ⟨_, hleads, .closed, .inr rfl, rfl, awaits_phase .closed depth after nofun⟩
    · next hne =>
      have hstuck : Awaits ⟨phase, depth + 1⟩ [] more.rest := hawaits.without hne
      exact hstuck.fails fun hfinal => nomatch hfinal.2
  · next hne =>
    exact ⟨_, .refl _ _, .named, .inl rfl, rfl, (awaits_phase .named depth ts nofun).without hne⟩
termination_by ts.length
decreasing_by
  · subst_vars
    simp
  · have := first.length_le
    subst_vars
    simp only [List.length_cons]
    omega

/-- Reading further arguments follows the tokens to the end of the last. -/
theorem follows_readMore (ts : List Token) {depth : Nat} {q : Position}
    (hq : EndsAt (depth + 1) [.comma, .rangle] q ts) :
    Follows finish q ts (EndsAt (depth + 1) [.rangle]) (readMore loc finish ts) := by
  obtain ⟨phase, hphase, rfl, hawaits⟩ := hq
  unfold readMore
  split
  · next offset rest =>
    have hcomma : Position.next? ⟨phase, depth + 1⟩ .comma = some ⟨.start, depth + 1⟩ :=
      if_pos ⟨hphase, Nat.succ_pos depth⟩
    refine (Leads.token hcomma offset rest).follows ?_
    refine (follows_readType rest (depth + 1)).bind fun next q hq => ?_
    refine (follows_readMore next.rest hq).bind fun more q hq => ?_
    exact ⟨q, .refl _ _, hq⟩
  · next hne => exact ⟨_, .refl _ _, phase, hphase, rfl, hawaits.without hne⟩
termination_by ts.length
decreasing_by
  · subst_vars
    simp
  · have := next.length_le
    subst_vars
    simp only [List.length_cons]
    omega

end

end Readers

/-! ### Signatures and positions -/

/-- Reading a signature follows its tokens to its end, or stops where the next one may not come: if
a signature is complete there, as trailing input, and otherwise for what is expected. -/
theorem parseTokens_cases (loc : Location) (finish : Nat) (ts : List Token) :
    (∃ t q, parseTokens loc finish ts = .ok t ∧ Position.initial.run? (kinds ts) = some q ∧
      q.IsFinal) ∨
    ∃ e stop after, parseTokens loc finish ts = .error e ∧
      Leads Position.initial ts stop after ∧ Awaits stop [] after ∧
      ((stop.IsFinal ∧ ∃ t rest, after = t :: rest ∧ e = .trailingInput t.offset) ∨
        ¬ stop.IsFinal ∧ ∃ what, e = .expected what (offsetOf finish after)) := by
  have hfollows := follows_readType loc finish ts 0
  rw [parseTokens]
  cases hread : readType loc finish ts with
  | error e =>
    rw [hread] at hfollows
    obtain ⟨stop, after, what, hleads, hfinal, hawaits, rfl⟩ := hfollows
    exact .inr ⟨_, stop, after, rfl, hleads, hawaits, .inr ⟨hfinal, what, rfl⟩⟩
  | ok p =>
    rw [hread] at hfollows
    obtain ⟨_, ⟨front, hfront, hrun⟩, phase, hphase, rfl, hawaits⟩ := hfollows
    obtain ⟨type, rest, hle⟩ := p
    cases rest with
    | nil =>
      rw [List.append_nil] at hfront
      exact .inl ⟨type, _, rfl, hfront ▸ hrun, hphase, rfl⟩
    | cons t rest =>
      -- a comma and a closing bracket need an open one
      have hstuck : Awaits ⟨phase, 0⟩ [] (t :: rest) := by
        intro t' ht' hnext
        have hmem := hawaits t' ht' hnext
        rcases List.mem_pair.mp hmem with hk | hk
        · simp [hk, Position.next?] at hnext
        · simp [hk, Position.next?] at hnext
      exact .inr ⟨_, _, _, rfl, ⟨front, hfront, hrun⟩, hstuck,
        .inl ⟨⟨hphase, rfl⟩, t, rest, rfl, rfl⟩⟩

/-- Valid tokens are a signature exactly if they lead to a position where it may end. -/
theorem isType_iff_exists_run? {ks : List TokenKind} (hvalid : ∀ k ∈ ks, k.IsValid) :
    IsType ks ↔ ∃ q, Position.initial.run? ks = some q ∧ q.IsFinal := by
  refine ⟨fun h => h.exists_run?, ?_⟩
  rintro ⟨q, hrun, hfinal⟩
  -- the tokens may stand anywhere
  have hkinds : kinds (ks.map fun k => ⟨k, 0⟩) = ks := by simp [kinds, Function.comp_def]
  rcases parseTokens_cases ⟨"", none⟩ 0 (ks.map fun k => ⟨k, 0⟩) with
    ⟨t, -, hread, -⟩ | ⟨e, stop, after, -, ⟨front, hfront, hstop⟩, hawaits, hend⟩
  · obtain ⟨htokens, -⟩ := parseTokens_sound hread
    rw [hkinds] at htokens
    rw [htokens] at hvalid ⊢
    exact isType_tokens t (TypeSpec.hasDottedNames_iff.mpr hvalid)
  · rw [hfront, kinds, List.map_append] at hkinds
    cases after with
    | nil =>
      rw [List.map_nil, List.append_nil] at hkinds
      rw [kinds, hkinds, hrun] at hstop
      obtain rfl := Option.some.inj hstop
      rcases hend with ⟨-, _, _, hne, -⟩ | ⟨hne, -⟩
      · cases hne
      · exact absurd hfinal hne
    | cons t rest =>
      have hnext : stop.next? t.kind = none :=
        not_not.mp fun hne => absurd (hawaits t rfl hne) List.not_mem_nil
      rw [← hkinds, List.map_cons, Position.run?_eq_none_of_next? hstop hnext] at hrun
      cases hrun

section Stuck

variable {stop : Position} {front after : List Token}

/-- Tokens that lead anywhere begin some signature. -/
theorem exists_isType_append (hrun : Position.initial.run? (kinds front) = some stop)
    (hvalid : ∀ k ∈ kinds front, k.IsValid) : ∃ ks, IsType (kinds front ++ ks) := by
  obtain ⟨ks, hks, q, hcompletion, hfinal⟩ := stop.exists_completion
  have hvalid' := List.forall_mem_append.mpr ⟨hvalid, hks⟩
  refine ⟨ks, (isType_iff_exists_run? hvalid').mpr ⟨q, ?_, hfinal⟩⟩
  rw [Position.run?_append_of_some hrun, hcompletion]

/-- No signature goes on with a token that may not come. -/
theorem not_isType_append (hrun : Position.initial.run? (kinds front) = some stop)
    (hawaits : Awaits stop [] after) {t : Token} (ht : t ∈ after.head?) (ks : List TokenKind) :
    ¬ IsType (kinds front ++ t.kind :: ks) := by
  intro h
  obtain ⟨q, hq, -⟩ := h.exists_run?
  have hnext : stop.next? t.kind = none :=
    not_not.mp fun hne => absurd (hawaits t ht hne) List.not_mem_nil
  rw [Position.run?_eq_none_of_next? hrun hnext] at hq
  cases hq

/-- Tokens are a signature exactly if it may end where they lead. -/
theorem isType_iff_isFinal (hrun : Position.initial.run? (kinds front) = some stop)
    (hvalid : ∀ k ∈ kinds front, k.IsValid) : IsType (kinds front) ↔ stop.IsFinal := by
  rw [isType_iff_exists_run? hvalid, hrun]
  simp

end Stuck

/-! ### Tokens before a place -/

/-- The tokens that stand before an offset. -/
def before (offset : Nat) (ts : List Token) : List Token :=
  ts.filter (·.offset < offset)

section Split

variable {start finish : Nat} {front after : List Token}

/-- Before the place where some tokens begin stand those in front of them. -/
theorem AscendIn.before_offsetOf (h : AscendIn start finish (front ++ after)) :
    before (offsetOf finish after) (front ++ after) = front := by
  obtain ⟨-, hafter, hlt⟩ := List.pairwise_append.mp h.1
  have hfront : ∀ t ∈ front, t.offset < offsetOf finish after := by
    intro t ht
    cases after with
    | nil => exact (h.2 t (List.mem_append_left _ ht)).2
    | cons a after => exact hlt t ht a List.mem_cons_self
  have hbehind : ∀ t ∈ after, ¬ t.offset < offsetOf finish after := by
    intro t ht
    cases after with
    | nil => exact nomatch ht
    | cons a after =>
      rcases List.mem_cons.mp ht with rfl | ht
      · exact Nat.lt_irrefl _
      · exact Nat.lt_asymm (List.rel_of_pairwise_cons hafter ht)
  rw [before, List.filter_append, List.filter_eq_self.mpr (by simpa using hfront),
    List.filter_eq_nil_iff.mpr (by simpa using hbehind), List.append_nil]

/-- Only the first of some tokens stands where they begin. -/
theorem AscendIn.mem_head? (h : AscendIn start finish (front ++ after)) {t : Token}
    (ht : t ∈ front ++ after) (hoffset : t.offset = offsetOf finish after) : t ∈ after.head? := by
  obtain ⟨-, hafter, hlt⟩ := List.pairwise_append.mp h.1
  cases after with
  | nil => exact absurd hoffset (Nat.ne_of_lt (h.2 t ht).2)
  | cons a after =>
    rcases List.mem_append.mp ht with ht | ht
    · exact absurd hoffset (Nat.ne_of_lt (hlt t ht a List.mem_cons_self))
    · rcases List.mem_cons.mp ht with rfl | ht
      · rfl
      · exact absurd hoffset (Nat.ne_of_gt (List.rel_of_pairwise_cons hafter ht))

/-- Some tokens begin at the end only if there are none. -/
theorem AscendIn.eq_nil (h : AscendIn start finish (front ++ after))
    (hoffset : offsetOf finish after = finish) : after = [] := by
  cases after with
  | nil => rfl
  | cons a after =>
    exact absurd hoffset (Nat.ne_of_lt (h.2 a (List.mem_append_right _ List.mem_cons_self)).2)

end Split

end Signature

/-! ### Errors -/

/-- The byte at which a signature error points. -/
def SignatureError.offset : SignatureError → Nat
  | invalidToken _ offset | expected _ offset | trailingInput offset => offset

open Signature

/-- An error points at the first of some tokens that no signature has behind those before it, or at
the end of tokens that begin a signature but are none; what the error is says whether the tokens
before it are one. -/
structure SignatureError.PointsInto (finish : Nat) (ts : List Token) (e : SignatureError) :
    Prop where
  /-- The error is at a token or at the end. -/
  at_token : e.offset = finish ∨ ∃ t ∈ ts, t.offset = e.offset
  /-- Some signature begins with the tokens before the error. -/
  fits : ∃ ks, IsType (kinds (before e.offset ts) ++ ks)
  /-- None goes on with the token at the error. -/
  stuck : ∀ t ∈ ts, t.offset = e.offset → ∀ ks,
    ¬ IsType (kinds (before e.offset ts) ++ t.kind :: ks)
  /-- None ends at an error at the end. -/
  incomplete : e.offset = finish → ¬ IsType (kinds (before e.offset ts))
  /-- Input is trailing behind a signature. -/
  trailing : (∃ offset, e = .trailingInput offset) ↔ IsType (kinds (before e.offset ts))
  /-- Something is expected where none is complete. -/
  lacking : (∃ what offset, e = .expected what offset) ↔ ¬ IsType (kinds (before e.offset ts))

/-- Reading tokens that stand one behind the other points into them if it fails. -/
theorem Signature.parseTokens_pointsInto {loc : Location} {start finish : Nat} {ts : List Token}
    {e : SignatureError} (hts : AscendIn start finish ts) (hvalid : ∀ t ∈ ts, t.kind.IsValid)
    (h : parseTokens loc finish ts = .error e) : e.PointsInto finish ts := by
  rcases parseTokens_cases loc finish ts with ⟨t, -, hread, -⟩ |
    ⟨e', stop, after, hread, ⟨front, rfl, hrun⟩, hawaits, hend⟩
  · rw [hread] at h
    exact nomatch h
  obtain rfl : e' = e := Except.error.inj (hread.symm.trans h)
  have hfront : ∀ k ∈ kinds front, k.IsValid :=
    List.forall_mem_map.mpr (List.forall_mem_append.mp hvalid).1
  have hoffset : e'.offset = offsetOf finish after := by
    rcases hend with ⟨-, t, rest, rfl, rfl⟩ | ⟨-, what, rfl⟩ <;> rfl
  have hbefore : before e'.offset (front ++ after) = front := hoffset ▸ hts.before_offsetOf
  have hcomplete := isType_iff_isFinal hrun hfront
  refine ⟨?_, ?_, ?_, ?_, ?_, ?_⟩
  · rw [hoffset]
    cases after with
    | nil => exact .inl rfl
    | cons t rest => exact .inr ⟨t, List.mem_append_right _ List.mem_cons_self, rfl⟩
  · rw [hbefore]
    exact exists_isType_append hrun hfront
  · intro t ht hat
    rw [hbefore]
    exact not_isType_append hrun hawaits (hts.mem_head? ht (hat.trans hoffset))
  · intro hat
    obtain rfl := hts.eq_nil (hoffset.symm.trans hat)
    rw [hbefore, hcomplete]
    rcases hend with ⟨-, t, rest, hne, -⟩ | ⟨hfinal, -⟩
    · cases hne
    · exact hfinal
  · rw [hbefore, hcomplete]
    rcases hend with ⟨hfinal, t, rest, -, rfl⟩ | ⟨hfinal, what, rfl⟩
    · exact iff_of_true ⟨_, rfl⟩ hfinal
    · exact iff_of_false (by simp) hfinal
  · rw [hbefore, hcomplete]
    rcases hend with ⟨hfinal, t, rest, -, rfl⟩ | ⟨hfinal, what, rfl⟩
    · exact iff_of_false (by simp) (not_not.mpr hfinal)
    · exact iff_of_true ⟨_, _, rfl⟩ hfinal

instance (x : Except SignatureError TypeSpec) (e : SignatureError) : Decidable (x = .error e) :=
  match x with
  | .ok _ => isFalse nofun
  | .error e' => decidable_of_iff (e' = e) ⟨congrArg _, Except.error.inj⟩

namespace TypeSpec

/-- **Signature errors point at the exact problem.** Where a text has tokens but is no signature,
the error points at the token, or at the end, up to which the tokens fit and where they stop to.
Where a text has no tokens, it is read as nothing else than the character with which none begins,
whatever is spelled before it. -/
theorem parse_error_exact (loc : Location) (text : String) :
    (∀ ts e, scan text = .ok ts → parse loc text = .error e →
        e.PointsInto text.utf8ByteSize ts) ∧
      ∀ bad, scan text = .error bad →
        parse loc text = .error (.invalidToken bad.char bad.offset) ∧
        ∃ ks front rest, text.toList = front ++ bad.char :: rest ∧
          bad.offset = byteLength front ∧ Spells ks front ∧ isSpace bad.char = false ∧
          isStart bad.char = false ∧ punctuation? bad.char = none := by
  constructor
  · intro ts e hscan h
    have hlength : 0 + byteLength text.toList = text.utf8ByteSize := by simp [byteLength]
    have hts : AscendIn 0 text.utf8ByteSize ts := hlength ▸ ascendIn_scanFrom hscan
    rw [parse, hscan] at h
    exact parseTokens_pointsInto hts (spells_of_scanFrom hscan).2 h
  · intro bad hscan
    obtain ⟨ks, front, rest, htext, hoffset, hbad⟩ := spells_of_scanFrom_error hscan
    exact ⟨by rw [parse, hscan], ks, front, rest, htext, by rw [hoffset, Nat.zero_add], hbad⟩

/-- The second half of an array mark is lacking at the byte where a bracket closes the arguments,
and a sign that is no token is found behind a type that lacks its arguments' end. -/
theorem parse_halfArrayMark :
    parse ⟨"Example.aidl", none⟩ "Map<String, a.Foo[>" = .error (.expected .closingBracket 18) ∧
      (SignatureError.expected .closingBracket 18).PointsInto 19
        [⟨.name "Map", 0⟩, ⟨.langle, 3⟩, ⟨.name "String", 4⟩, ⟨.comma, 10⟩, ⟨.name "a.Foo", 12⟩,
          ⟨.lbracket, 17⟩, ⟨.rangle, 18⟩] ∧
      parse ⟨"Example.aidl", none⟩ "List<int #" = .error (.invalidToken '#' 9) := by
  obtain ⟨hpoints, -⟩ := parse_error_exact ⟨"Example.aidl", none⟩ "Map<String, a.Foo[>"
  obtain ⟨-, hinvalid⟩ := parse_error_exact ⟨"Example.aidl", none⟩ "List<int #"
  have hparse : parse ⟨"Example.aidl", none⟩ "Map<String, a.Foo[>" =
      .error (.expected .closingBracket 18) := by
    decide +kernel
  exact ⟨hparse, hpoints _ _ (by decide +kernel) hparse, (hinvalid ⟨'#', 9⟩ (by decide +kernel)).1⟩

end TypeSpec

end InterfaceDefinition
