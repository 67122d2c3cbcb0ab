import InterfaceDefinition.Proofs.Evaluation.Filling
import InterfaceDefinition.Proofs.Number.Words

/-!
# Integer expressions

An expression of integral literals and arithmetic operators stands for an integer, which is said
here without words: quotients and remainders drop fractions toward zero, bitwise operators act on
two's complement, a shift to the right is a division rounded down, and only the shift to the left is
reduced to a word (`Expr.exact`). A node of the expression is at fault when its literal cannot be
read, or when its operation divides by zero or leaves the words (`Expr.fault?`).

Evaluation computes exactly that integer unless some node is at fault, and otherwise gives the error
of the first node at fault, in the order in which the nodes are evaluated, operands before operators
(`Registry.evaluate_integers`).
-/

namespace InterfaceDefinition

open Number

/-! ### Exact integers -/

/-- Whether an operator takes an integer to an integer. -/
def UnaryOp.isArithmetic : UnaryOp → Bool
  | plus | minus | bitNot => true
  | logicalNot => false

/-- Whether an operator takes two integers to an integer. -/
def BinaryOp.isArithmetic (op : BinaryOp) : Bool :=
  !op.isComparison && !op.isLogical

/-- The integer that an arithmetic operator makes of another one. -/
def UnaryOp.exact (op : UnaryOp) (n : Int) : Int :=
  match op with
  | plus => n
  | minus => -n
  | bitNot => n.lnot
  | logicalNot => 0

/-- The integer that an arithmetic operator makes of two others. A shift to the left keeps what a
word of 64 bits can hold. -/
def BinaryOp.exact (op : BinaryOp) (l r : Int) : Int :=
  match op with
  | add => l + r
  | sub => l - r
  | mul => l * r
  | div => l.tdiv r
  | rem => l.tmod r
  | bitAnd => l.land r
  | bitOr => l.lor r
  | bitXor => l.xor r
  | shl => (l * 2 ^ r.toNat).bmod (2 ^ 64)
  | shr => l.fdiv (2 ^ r.toNat)
  | _ => 0

/-- What is wrong with an arithmetic operation on two integers: it divides by zero, shifts by no
amount that there is, or leaves the words. The remainder of the one quotient that is no word is an
overflow too. -/
def BinaryOp.fault? (op : BinaryOp) (l r : Int) : Option EvalError :=
  if (op = div ∨ op = rem) ∧ r = 0 then some .divisionByZero
  else if op = rem ∧ l = -2 ^ 63 ∧ r = -1 then some .overflow
  else if (op = shl ∨ op = shr) ∧ ¬ (0 ≤ r ∧ r ≤ 63) then some .overflow
  else if Fits (op.exact l r) then none
  else some .overflow

/-- What an arithmetic operation needs to have a word as its result. -/
def BinaryOp.IsDefined (op : BinaryOp) (l r : Int) : Prop :=
  Fits (op.exact l r) ∧ (op = div ∨ op = rem → r ≠ 0) ∧
    (op = rem → ¬ (l = -2 ^ 63 ∧ r = -1)) ∧ (op = shl ∨ op = shr → 0 ≤ r ∧ r ≤ 63)

/-- An operator has no fault at two integers exactly where its result is defined. -/
theorem BinaryOp.fault?_eq_none_iff (op : BinaryOp) (l r : Int) :
    op.fault? l r = none ↔ op.IsDefined l r := by
  rw [fault?, IsDefined]
  split
  · next h => exact iff_of_false nofun fun hdefined => hdefined.2.1 h.1 h.2
  split
  · next h => exact iff_of_false nofun fun hdefined => hdefined.2.2.1 h.1 h.2
  split
  · next h => exact iff_of_false nofun fun hdefined => h.2 (hdefined.2.2.2 h.1)
  split
  · next hzero hleast hamount hfits =>
    exact iff_of_true rfl ⟨hfits, fun hop hr => hzero ⟨hop, hr⟩,
      fun hop hpair => hleast ⟨hop, hpair⟩, fun hop => not_not.mp fun h => hamount ⟨hop, h⟩⟩
  · next hfits => exact iff_of_false nofun fun hdefined => hfits hdefined.1

namespace Expr

/-- Whether an expression is made of integral literals and arithmetic operators. -/
def isInteger : Expr → Bool
  | literal _ kind _ => kind == .integral
  | unary _ op operand => op.isArithmetic && operand.isInteger
  | binary _ op lhs rhs => op.isArithmetic && lhs.isInteger && rhs.isInteger
  | array .. | reference .. => false

/-- The integer that an integer expression stands for; literals that cannot be read count as
zero. -/
def exact : Expr → Int
  | literal _ _ written => ((integral? written).map Int64.toInt).getD 0
  | unary _ op operand => op.exact operand.exact
  | binary _ op lhs rhs => op.exact lhs.exact rhs.exact
  | array .. | reference .. => 0

/-- What is wrong with an integer expression at its root, when its operands have the integers they
stand for. -/
def fault? : Expr → Option EvalError
  | literal _ _ written =>
    if (integral? written).isSome then none else some (.invalidLiteral written)
  | unary _ op operand => if Fits (op.exact operand.exact) then none else some .overflow
  | binary _ op lhs rhs => op.fault? lhs.exact rhs.exact
  | array .. | reference .. => none

/-- What an integer expression needs at its root to be evaluated, when its operands have the
integers they stand for. -/
def IsDefined : Expr → Prop
  | literal _ _ written => (integral? written).isSome
  | unary _ op operand => Fits (op.exact operand.exact)
  | binary _ op lhs rhs => op.IsDefined lhs.exact rhs.exact
  | array .. | reference .. => True

/-- There is no fault at a node when what stands there is defined for the exact results of its
operands. -/
theorem fault?_eq_none_iff (e : Expr) : e.fault? = none ↔ e.IsDefined := by
  cases e with
  | literal loc kind written => simp [fault?, IsDefined, Option.isSome_iff_ne_none]
  | unary loc op operand => simp [fault?, IsDefined]
  | binary loc op lhs rhs => exact op.fault?_eq_none_iff _ _
  | array | reference => exact iff_of_true rfl trivial

mutual

/-- An expression and every expression below it, operands before operators, from left to right. -/
def postorder : Expr → List Expr
  | literal loc kind written => [literal loc kind written]
  | array loc items => postorderOf items ++ [array loc items]
  | reference loc name => [reference loc name]
  | unary loc op operand => operand.postorder ++ [unary loc op operand]
  | binary loc op lhs rhs => lhs.postorder ++ (rhs.postorder ++ [binary loc op lhs rhs])

/-- Several expressions and everything below them, one after the other. -/
def postorderOf : List Expr → List Expr
  | [] => []
  | e :: rest => e.postorder ++ postorderOf rest

end

mutual

/-- The order in which faults are looked for goes through all terms of the expression and no others.
-/
theorem mem_postorder_iff {s : Expr} : (e : Expr) → (s ∈ e.postorder ↔ s ∈ e.subterms)
  | literal loc kind written => by rw [postorder, subterms]
  | array loc items => by simp [postorder, subterms, mem_postorderOf_iff items, or_comm]
  | reference loc name => by rw [postorder, subterms]
  | unary loc op operand => by simp [postorder, subterms, mem_postorder_iff operand, or_comm]
  | binary loc op lhs rhs => by
    simp [postorder, subterms, mem_postorder_iff lhs, mem_postorder_iff rhs, or_comm,
      or_left_comm]

theorem mem_postorderOf_iff {s : Expr} :
    (es : List Expr) → (s ∈ postorderOf es ↔ s ∈ subtermsOf es)
  | [] => by rw [postorderOf, subtermsOf]
  | e :: rest => by
    rw [postorderOf, subtermsOf, List.mem_append, List.mem_append, mem_postorder_iff e,
      mem_postorderOf_iff rest]

end

end Expr

/-! ### Results of operations -/

/-- A result that is told by a possible fault and an integer: it is the error of the fault, if there
is one, and else the word of the integer. -/
def IsExact (fault : Option EvalError) (n : Int) (result : Except EvalError Value) : Prop :=
  match fault with
  | some error => result = .error error
  | none => ∃ w : Int64, result = .ok (.integral w) ∧ w.toInt = n

/-- A result that goes on with the word is exact when what it goes on with is. -/
theorem IsExact.bind {fault fault' : Option EvalError} {n m : Int}
    {result : Except EvalError Value} {f : Value → Except EvalError Value}
    (h : IsExact fault n result)
    (hf : ∀ w : Int64, w.toInt = n → IsExact fault' m (f (.integral w))) :
    IsExact (fault.or fault') m (result >>= f) := by
  cases fault with
  | some error =>
    obtain rfl : result = .error error := h
    exact rfl
  | none =>
    obtain ⟨w, rfl, hw⟩ := h
    exact hf w hw

namespace Value

theorem isExact_word (w : Int64) : IsExact none w.toInt (.ok (.integral w)) :=
  ⟨w, rfl, rfl⟩

/-- A result that is computed as an integer is exact if it fits, and an overflow otherwise. -/
theorem isExact_ofInt (n : Int) :
    IsExact (if Fits n then none else some .overflow) n (ofInt n) := by
  rw [ofInt]
  by_cases h : Fits n
  · rw [if_pos h, word?_of_fits h]
    exact ⟨_, rfl, toInt_ofInt h⟩
  · rw [if_neg h, word?_of_not_fits h]
    exact rfl

/-- Both signs and the complement are exact on words, but for the minus of the least one, which
overflows. -/
theorem isExact_unary {op : UnaryOp} (hop : op.isArithmetic = true) (w : Int64) :
    IsExact (if Fits (op.exact w.toInt) then none else some .overflow) (op.exact w.toInt)
      ((integral w).unary op) := by
  cases op with
  | plus =>
    rw [UnaryOp.exact, if_pos (fits_toInt w)]
    exact isExact_word w
  | minus => exact isExact_ofInt _
  | bitNot =>
    rw [UnaryOp.exact, ← toInt_not, if_pos (fits_toInt _)]
    exact isExact_word _
  | logicalNot => cases hop

section Binary

variable {op : BinaryOp} {l r : Int64}

/-- An operation that can only leave the words. -/
theorem fault?_of_plain (hop : op ∉ [BinaryOp.div, .rem, .shl, .shr]) (l r : Int) :
    op.fault? l r = if Fits (op.exact l r) then none else some .overflow := by
  simp only [List.mem_cons, List.not_mem_nil, or_false, not_or] at hop
  obtain ⟨hdiv, hrem, hshl, hshr⟩ := hop
  rw [BinaryOp.fault?, if_neg (by simp [hdiv, hrem]), if_neg (by simp [hrem]),
    if_neg (by simp [hshl, hshr])]

/-- Bitwise operations give words. -/
theorem isExact_bitwise {w : Int64} (hop : op ∉ [BinaryOp.div, .rem, .shl, .shr])
    (hw : w.toInt = op.exact l.toInt r.toInt) :
    IsExact (op.fault? l.toInt r.toInt) (op.exact l.toInt r.toInt) (.ok (.integral w)) := by
  rw [fault?_of_plain hop, ← hw, if_pos (fits_toInt w)]
  exact isExact_word w

/-- Division rounds towards zero. It fails at zero, and overflows for the least word divided by -1.
-/
theorem isExact_div : IsExact (BinaryOp.div.fault? l.toInt r.toInt)
    (BinaryOp.div.exact l.toInt r.toInt) (divided Int.tdiv l r) := by
  rw [BinaryOp.fault?, divided]
  by_cases hzero : r = 0
  · rw [if_pos hzero, if_pos (by simp [hzero])]
    exact rfl
  · have hne : r.toInt ≠ 0 := fun h => hzero (Int64.toInt_inj.mp h)
    rw [if_neg hzero, if_neg (by simp [hne]), if_neg (by simp), if_neg (by simp)]
    by_cases hfits : Fits (l.toInt.tdiv r.toInt)
    · rw [word?_of_fits hfits]
      exact isExact_ofInt _
    · rw [word?_of_not_fits hfits, BinaryOp.exact, if_neg hfits]
      exact rfl

/-- The remainder has the sign of the dividend, and fails where division does. -/
theorem isExact_rem : IsExact (BinaryOp.rem.fault? l.toInt r.toInt)
    (BinaryOp.rem.exact l.toInt r.toInt) (divided Int.tmod l r) := by
  rw [BinaryOp.fault?, divided]
  by_cases hzero : r = 0
  · rw [if_pos hzero, if_pos (by simp [hzero])]
    exact rfl
  · have hne : r.toInt ≠ 0 := fun h => hzero (Int64.toInt_inj.mp h)
    rw [if_neg hzero, if_neg (by simp [hne])]
    -- the quotient is what may leave the words; the remainder never does
    by_cases hfits : Fits (l.toInt.tdiv r.toInt)
    · have hpair : ¬ (l.toInt = -2 ^ 63 ∧ r.toInt = -1) := (fits_tdiv_iff l r).mp hfits
      rw [word?_of_fits hfits, if_neg (by simpa using hpair), if_neg (by simp)]
      exact isExact_ofInt _
    · have hpair : l.toInt = -2 ^ 63 ∧ r.toInt = -1 :=
        not_not.mp (mt (fits_tdiv_iff l r).mpr hfits)
      rw [word?_of_not_fits hfits, if_pos ⟨rfl, hpair⟩]
      exact rfl

/-- A shift gives a word when its amount is less than the width. -/
theorem isExact_shift {shift : Int64 → Int64 → Int64} (hop : op = .shl ∨ op = .shr)
    (hshift : 0 ≤ r.toInt ∧ r.toInt < 64 → (shift l r).toInt = op.exact l.toInt r.toInt) :
    IsExact (op.fault? l.toInt r.toInt) (op.exact l.toInt r.toInt) (shifted shift l r) := by
  have hdiv : op ≠ .div ∧ op ≠ .rem := by rcases hop with rfl | rfl <;> decide
  rw [BinaryOp.fault?, shifted, if_neg (by simp [hdiv]), if_neg (by simp [hdiv])]
  by_cases hamount : 0 ≤ r.toInt ∧ r.toInt < 64
  · rw [if_neg (fun h => h.2 ⟨hamount.1, Int.le_of_lt_add_one hamount.2⟩), if_pos hamount,
      ← hshift hamount, if_pos (fits_toInt _)]
    exact isExact_word _
  · rw [if_pos ⟨hop, fun h => hamount ⟨h.1, Int.lt_add_one_of_le h.2⟩⟩, if_neg hamount]
    exact rfl

/-- An arithmetic operation on words computes the integer that it stands for, or has a fault. -/
theorem isExact_binary (hop : op.isArithmetic = true) (l r : Int64) :
    IsExact (op.fault? l.toInt r.toInt) (op.exact l.toInt r.toInt)
      ((integral l).binary op (.integral r)) := by
  cases op with
  | add | sub | mul =>
    rw [fault?_of_plain (by decide)]
    exact isExact_ofInt _
  | div => exact isExact_div
  | rem => exact isExact_rem
  | bitAnd => exact isExact_bitwise (by decide) (toInt_and l r)
  | bitOr => exact isExact_bitwise (by decide) (toInt_or l r)
  | bitXor => exact isExact_bitwise (by decide) (toInt_xor l r)
  | shl => exact isExact_shift (.inl rfl) toInt_shiftLeft
  | shr => exact isExact_shift (.inr rfl) toInt_shiftRight
  | _ => cases hop

end Binary

end Value

/-! ### Evaluation -/

/-- A literal is exact when its text can be read as a word, and a fault otherwise. -/
theorem LiteralKind.isExact_integral (written : String) :
    IsExact (if (integral? written).isSome then none else some (.invalidLiteral written))
      (((integral? written).map Int64.toInt).getD 0) (integral.value written) := by
  rw [value, value?]
  cases integral? written with
  | none => exact rfl
  | some w => exact Value.isExact_word w

namespace Registry

variable (r : Registry) (type : ValueType) (scope : String)

/-- Evaluation of an integer expression is told by the first fault among its nodes and by the
integer that it stands for. -/
theorem isExact_evaluate : (e : Expr) → e.isInteger = true →
    IsExact (e.postorder.findSome? Expr.fault?) e.exact (r.evaluate e type scope)
  | .literal loc kind written, h => by
    obtain rfl : kind = .integral := by simpa [Expr.isInteger] using h
    rw [evaluate_literal, Expr.postorder, List.findSome?_singleton]
    exact LiteralKind.isExact_integral written
  | .array .., h | .reference .., h => by cases h
  | .unary loc op operand, h => by
    rw [Expr.isInteger, Bool.and_eq_true] at h
    rw [evaluate_unary, Expr.postorder, List.findSome?_append, List.findSome?_singleton]
    refine (isExact_evaluate operand h.2).bind fun w hw => ?_
    rw [Expr.fault?, Expr.exact, ← hw]
    exact Value.isExact_unary h.1 w
  | .binary loc op lhs rhs, h => by
    rw [Expr.isInteger, Bool.and_eq_true, Bool.and_eq_true] at h
    rw [evaluate_binary, Expr.postorder, List.findSome?_append, List.findSome?_append,
      List.findSome?_singleton]
    -- an operand at fault hides what comes after it, as it does in the postorder
    refine (isExact_evaluate lhs h.1.2).bind fun wl hl =>
      (isExact_evaluate rhs h.2).bind fun wr hr => ?_
    rw [Expr.fault?, Expr.exact, ← hl, ← hr]
    exact Value.isExact_binary h.1.1 wl wr

/-- **Integers are evaluated exactly.** An integer expression evaluates to a word exactly when every
node of it is defined, and the word is then the one of the integer that the expression stands for.
Otherwise the error is that of the first node at fault, with operands before their operators, from
left to right. -/
theorem evaluate_integers {e : Expr} (h : e.isInteger = true) :
    (∀ v, r.evaluate e type scope = .ok v ↔
      (∀ s ∈ e.subterms, s.IsDefined) ∧ ∃ w : Int64, v = .integral w ∧ w.toInt = e.exact) ∧
    ∀ error, r.evaluate e type scope = .error error ↔
      e.postorder.findSome? Expr.fault? = some error := by
  have hexact := r.isExact_evaluate type scope e h
  have hnone : e.postorder.findSome? Expr.fault? = none ↔ ∀ s ∈ e.subterms, s.IsDefined := by
    simp only [List.findSome?_eq_none_iff, Expr.mem_postorder_iff, Expr.fault?_eq_none_iff]
  cases hfault : e.postorder.findSome? Expr.fault? with
  | some error =>
    have hundefined : ¬ ∀ s ∈ e.subterms, s.IsDefined := by
      rw [← hnone, hfault]
      exact nofun
    rw [hfault] at hexact
    rw [show r.evaluate e type scope = .error error from hexact]
    exact ⟨fun v => iff_of_false nofun fun hv => hundefined hv.1, fun error' => by simp⟩
  | none =>
    rw [hfault] at hexact
    obtain ⟨w, hw, hvalue⟩ := hexact
    rw [hw]
    refine ⟨fun v => ⟨fun hv => ?_, ?_⟩, fun error => iff_of_false nofun nofun⟩
    · obtain rfl : .integral w = v := Except.ok.inj hv
      exact ⟨hnone.mp hfault, w, rfl, hvalue⟩
    · rintro ⟨-, w', rfl, hw'⟩
      rw [Int64.toInt_inj.mp (hvalue.trans hw'.symm)]

/-- The sum of `~7 / 3` and `0x1 << amount`. -/
def shiftedSum (amount : String) : Expr :=
  let loc : Location := ⟨"p/Limits", none⟩
  let literal (written : String) : Expr := .literal loc .integral written
  .binary loc .add (.binary loc .div (.unary loc .bitNot (literal "7")) (literal "3"))
    (.binary loc .shl (literal "0x1") (literal amount))

/-- A quotient is rounded toward zero, and a shift may reach the sign: it is the sum that then
leaves the words. -/
theorem evaluate_integers_shiftedSum :
    let long := (TypeSpec.builtin ⟨"p/Limits", none⟩ "long").valueType
    empty.evaluate (shiftedSum "62") long "" = .ok (.integral 4611686018427387902) ∧
      empty.evaluate (shiftedSum "63") long "" = .error .overflow := by
  intro long
  have hsum := empty.evaluate_integers long "" (e := shiftedSum "62") rfl
  have hlimit := empty.evaluate_integers long "" (e := shiftedSum "63") rfl
  refine ⟨(hsum.1 _).mpr ⟨fun s hs => (Expr.fault?_eq_none_iff s).mp ?_, _, rfl, ?_⟩,
    (hlimit.2 _).mpr ?_⟩
  · revert s
    decide +kernel
  · decide +kernel
  · decide +kernel

end Registry

end InterfaceDefinition
