import InterfaceDefinition.Proofs.Signature.Grammar

/-!
# Positions in a signature

Which tokens may follow some tokens of a signature depends on little: what was read last of the
innermost type, and how many angle brackets are open. `Signature.Position` is that much, and
`Signature.Position.next?` says where a token leads, if it may come at all. No stack is needed
beside the number, since nothing but angle brackets nests.

Positions agree with the grammar: the tokens of a type lead from its beginning to its end, at any
depth (`Signature.IsType.reaches`), and every position that was reached can be completed to a type
(`Signature.Position.exists_completion`). So tokens begin some signature exactly when each of them
may come where it stands.
-/

namespace InterfaceDefinition

namespace Signature

/-! ### Positions -/

/-- What was read last of a type. -/
inductive Phase where
  /-- Nothing: its name has to follow. -/
  | start
  /-- The name. -/
  | named
  /-- The angle bracket behind its arguments. -/
  | closed
  /-- The first half of the array mark: the other has to follow. -/
  | opened
  /-- The array mark. -/
  | marked
  deriving DecidableEq

/-- Whether a type may end in a phase. -/
def Phase.isComplete : Phase → Bool
  | named | closed | marked => true
  | start | opened => false

/-- The phase of the innermost type, and the number of angle brackets that are open. -/
structure Position where
  phase : Phase
  depth : Nat

namespace Position

/-- The position behind a token; nothing where the token may not come. -/
def next? (q : Position) : TokenKind → Option Position
  | .name _ => if q.phase = .start then some ⟨.named, q.depth⟩ else none
  | .langle => if q.phase = .named then some ⟨.start, q.depth + 1⟩ else none
  | .comma => if q.phase.isComplete ∧ 0 < q.depth then some ⟨.start, q.depth⟩ else none
  | .rangle => if q.phase.isComplete ∧ 0 < q.depth then some ⟨.closed, q.depth - 1⟩ else none
  | .lbracket => if q.phase = .named ∨ q.phase = .closed then some ⟨.opened, q.depth⟩ else none
  | .rbracket => if q.phase = .opened then some ⟨.marked, q.depth⟩ else none

/-- The position behind some tokens. -/
def run? (q : Position) (ks : List TokenKind) : Option Position :=
  ks.foldlM next? q

/-- Whether a signature may end at a position. -/
def IsFinal (q : Position) : Prop :=
  q.phase.isComplete = true ∧ q.depth = 0

/-- The position before the first token. -/
def initial : Position := ⟨.start, 0⟩

section Runs

variable {q q' q'' : Position} {k : TokenKind} {ks ks' : List TokenKind}

@[simp] theorem run?_nil (q : Position) : q.run? [] = some q := rfl

@[simp] theorem run?_cons (q : Position) (k : TokenKind) (ks : List TokenKind) :
    q.run? (k :: ks) = (q.next? k).bind (·.run? ks) := by
  rw [run?, List.foldlM_cons]
  rfl

/-- To read tokens and then others is to read both. -/
theorem run?_append (q : Position) (ks ks' : List TokenKind) :
    q.run? (ks ++ ks') = (q.run? ks).bind (·.run? ks') := by
  rw [run?, List.foldlM_append]
  rfl

theorem run?_append_of_some (h : q.run? ks = some q') (ks' : List TokenKind) :
    q.run? (ks ++ ks') = q'.run? ks' := by
  rw [run?_append, h, Option.bind_some]

/-- Tokens lead nowhere from behind a token that may not come. -/
theorem run?_eq_none_of_next? (h : q.run? ks = some q') (hk : q'.next? k = none)
    (ks' : List TokenKind) : q.run? (ks ++ k :: ks') = none := by
  rw [run?_append_of_some h, run?_cons, hk, Option.bind_none]

end Runs

/-! ### Completion -/

/-- Open angle brackets can be closed behind a complete type. -/
theorem exists_closed {phase : Phase} (hphase : phase.isComplete = true) (depth : Nat) :
    ∃ q, Position.run? ⟨phase, depth⟩ (.replicate depth .rangle) = some q ∧ q.IsFinal := by
  induction depth generalizing phase with
  | zero => exact ⟨⟨phase, 0⟩, rfl, hphase, rfl⟩
  | succ depth ih =>
    obtain ⟨q, hrun, hfinal⟩ := @ih .closed rfl
    refine ⟨q, ?_, hfinal⟩
    rw [List.replicate_succ, run?_cons, next?, if_pos ⟨hphase, Nat.succ_pos depth⟩]
    exact hrun

/-- From every position tokens lead to the end of a signature. -/
theorem exists_completion (q : Position) :
    ∃ ks : List TokenKind, (∀ k ∈ ks, k.IsValid) ∧ ∃ q', q.run? ks = some q' ∧ q'.IsFinal := by
  have hangles : ∀ k ∈ List.replicate q.depth TokenKind.rangle, k.IsValid := by
    intro k hk
    obtain rfl := List.eq_of_mem_replicate hk
    trivial
  obtain ⟨phase, depth⟩ := q
  cases phase with
  | start =>
    have hnamed : Phase.named.isComplete = true := rfl
    obtain ⟨q', hrun, hfinal⟩ := exists_closed hnamed depth
    have hname : TokenKind.IsValid (.name "T") := .identifier (by decide)
    exact ⟨.name "T" :: .replicate depth .rangle, List.forall_mem_cons.mpr ⟨hname, hangles⟩, q',
      hrun, hfinal⟩
  | opened =>
    have hmarked : Phase.marked.isComplete = true := rfl
    obtain ⟨q', hrun, hfinal⟩ := exists_closed hmarked depth
    exact ⟨.rbracket :: .replicate depth .rangle, List.forall_mem_cons.mpr ⟨trivial, hangles⟩, q',
      hrun, hfinal⟩
  | named => exact ⟨_, hangles, exists_closed rfl depth⟩
  | closed => exact ⟨_, hangles, exists_closed rfl depth⟩
  | marked => exact ⟨_, hangles, exists_closed rfl depth⟩

end Position

/-! ### The tokens of types -/

/-- Tokens lead from the beginning of a type to its end, at every depth. -/
def Reaches (ks : List TokenKind) : Prop :=
  ∀ depth, ∃ phase : Phase, phase.isComplete = true ∧
    Position.run? ⟨.start, depth⟩ ks = some ⟨phase, depth⟩

/-- Types behind commas lead from the end of a type to the end of the last. -/
theorem run?_commas {arguments : List (List TokenKind)} (h : ∀ ks ∈ arguments, Reaches ks)
    {phase : Phase} (hphase : phase.isComplete = true) (depth : Nat) :
    ∃ last : Phase, last.isComplete = true ∧
      Position.run? ⟨phase, depth + 1⟩ (arguments.flatMap (.comma :: ·)) =
        some ⟨last, depth + 1⟩ := by
  induction arguments generalizing phase with
  | nil => exact ⟨phase, hphase, rfl⟩
  | cons ks arguments ih =>
    rw [List.forall_mem_cons] at h
    obtain ⟨first, hfirst, hks⟩ := h.1 (depth + 1)
    obtain ⟨last, hlast, hrest⟩ := ih h.2 hfirst
    refine ⟨last, hlast, ?_⟩
    rw [List.flatMap_cons, List.cons_append, Position.run?_cons, Position.next?,
      if_pos ⟨hphase, Nat.succ_pos depth⟩, Option.bind_some, Position.run?_append_of_some hks,
      hrest]

/-- Arguments lead from behind a name to a position where the array mark may follow. -/
theorem run?_angled {arguments : List (List TokenKind)} (h : ∀ ks ∈ arguments, Reaches ks)
    (depth : Nat) : ∃ phase : Phase, (phase = .named ∨ phase = .closed) ∧
      Position.run? ⟨.named, depth⟩ (angled arguments) = some ⟨phase, depth⟩ := by
  cases arguments with
  | nil => exact ⟨.named, .inl rfl, rfl⟩
  | cons ks arguments =>
    rw [List.forall_mem_cons] at h
    obtain ⟨first, hfirst, hks⟩ := h.1 (depth + 1)
    obtain ⟨last, hlast, hcommas⟩ := run?_commas h.2 hfirst depth
    refine ⟨.closed, .inr rfl, ?_⟩
    have hopen : Position.next? ⟨.named, depth⟩ .langle = some ⟨.start, depth + 1⟩ := rfl
    rw [angled, List.cons_append, Position.run?_cons, hopen, Option.bind_some, List.append_assoc,
      Position.run?_append_of_some hks, Position.run?_append_of_some hcommas, Position.run?_cons,
      Position.next?, if_pos ⟨hlast, Nat.succ_pos depth⟩]
    rfl

/-- What is in the grammar leads from the beginning of a type to its end. -/
theorem IsType.reaches {ks : List TokenKind} (h : IsType ks) : Reaches ks := by
  induction h with
  | @mk name arguments isArray _ _ ih =>
    intro depth
    obtain ⟨phase, hphase, hangled⟩ := run?_angled ih depth
    have hname : Position.next? ⟨.start, depth⟩ (.name name) = some ⟨.named, depth⟩ := rfl
    rw [Position.run?_cons, hname, Option.bind_some, Position.run?_append_of_some hangled]
    cases isArray with
    | false => exact ⟨phase, by rcases hphase with rfl | rfl <;> rfl, rfl⟩
    | true => exact ⟨.marked, rfl, by rcases hphase with rfl | rfl <;> rfl⟩

/-- The tokens of a signature lead to a position where it may end. -/
theorem IsType.exists_run? {ks : List TokenKind} (h : IsType ks) :
    ∃ q, Position.initial.run? ks = some q ∧ q.IsFinal := by
  obtain ⟨phase, hphase, hrun⟩ := h.reaches 0
  exact ⟨⟨phase, 0⟩, hrun, hphase, rfl⟩

end Signature

end InterfaceDefinition
