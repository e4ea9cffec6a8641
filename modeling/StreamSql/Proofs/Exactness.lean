/-
  Arithmetic on integers is exact.

  * `Value.IsWord a v`: the value is the integer `a`, or a text that spells it;
  * `Promotes n x`: the evaluation gives the integer `n`, or the float `x` where no word has this
    value;
  * `Remains a b`: it gives the remainder of `a` by `b`, and fails for `b = 0` only;
  * `Expr.eval_on_words`: sums, differences, products, remainders and negatives of integers, and
    their absolute values with one exception, which is a saturated word.
-/
import Mathlib.Tactic.Common
import StreamSql.Proofs.Lookup

namespace StreamSql

/-- The evaluation gives the integer `n`: as a word where one has this value, and otherwise as the
    float `x`. -/
structure Promotes (n : Int) (x : Double) (result : Except QueryError Value) : Prop where
  word : ∀ w : Int64, w.toInt = n → result = .ok (.integer w)
  float : (∀ w : Int64, w.toInt ≠ n) → result = .ok (.float x)

/-- The evaluation gives the remainder of `a` by `b`, with the sign of `a`, and fails exactly if
    `b` is zero.  The remainder of the least word by `-1`, whose quotient is no word, is a zero
    that is a float. -/
structure Remains (a b : Int64) (result : Except QueryError Value) : Prop where
  zero : b = 0 → result = .error (.execution .moduloByZero)
  word : b ≠ 0 → ¬(a.toInt = Word.least ∧ b.toInt = -1) →
    ∃ w : Int64, w.toInt = a.toInt.tmod b.toInt ∧ result = .ok (.integer w)
  float : a.toInt = Word.least → b.toInt = -1 →
    ∃ x : Double, (x == 0.0) = true ∧ result = .ok (.float x)

namespace Value

/-- The value is the integer `a`, or a text that spells it, blanks around it left aside. -/
inductive IsWord (a : Int64) : Value → Prop
  | integer : IsWord a (integer a)
  | text {s : String} (h : Numeral.readWord? (Text.trim s) = some a) : IsWord a (text s)

namespace IsWord

variable {a b : Int64} {v w : Value}

theorem number? (h : IsWord a v) : v.number? = some (.integer a) := by
  cases h with
  | integer => rfl
  | text h => simp [Value.number?, Number.ofText?, h]

theorem isNull (h : IsWord a v) : v.isNull = false := by
  cases h <;> rfl

theorem toNumber (h : IsWord a v) : v.toNumber = .ok (.integer a) :=
  toNumber_eq_ok_iff.2 h.number?

end IsWord

variable {a b : Int64} {v w : Value}

/-- A result that is sought as a word, and is a float if there is none. -/
theorem promotes_ofInt? {n : Int} {x : Double} {result : Number}
    (h : result = match Word.ofInt? n with | some w => .integer w | none => .float x) :
    Promotes n x (.ok result.toValue) := by
  constructor
  · intro w hw
    rw [h, Word.ofInt?_eq_some_iff.2 hw]
    rfl
  · intro hnone
    cases hn : Word.ofInt? n with
    | some w => exact absurd (Word.ofInt?_eq_some_iff.1 hn) (hnone w)
    | none =>
      rw [h, hn]
      rfl

theorem promotes_arith (op : ArithOp) (hv : IsWord a v) (hw : IsWord b w) :
    Promotes (op.onInt a.toInt b.toInt) (op.onFloat (.ofWord a) (.ofWord b)) (arith op v w) := by
  have harith : arith op v w = .ok (op.onNumbers (.integer a) (.integer b)).toValue := by
    simp [arith, hv.isNull, hw.isNull, hv.number?, hw.number?]
  rw [harith]
  exact promotes_ofInt? rfl

theorem promotes_negate (hv : IsWord a v) : Promotes (-a.toInt) (-.ofWord a) v.negate := by
  have hnegate : v.negate = .ok (negateNumber (.integer a)).toValue := by
    simp [negate, hv.isNull, hv.toNumber, bind, Except.bind, pure, Except.pure]
  rw [hnegate]
  exact promotes_ofInt? rfl

/-- The remainder of two words is a word. -/
theorem toInt_remainder (a : Int64) {b : Int64} (hb : b ≠ 0) :
    (Int64.ofInt (a.toInt.tmod b.toInt)).toInt = a.toInt.tmod b.toInt := by
  have hne : b.toInt ≠ 0 := fun h => hb (Int64.toInt_inj.1 h)
  have hlt : (a.toInt.tmod b.toInt).natAbs < b.toInt.natAbs := by
    rw [Int.natAbs_tmod]
    exact Nat.mod_lt _ (Int.natAbs_pos.2 hne)
  have hbounds := Word.toInt_bounds b
  simp only [Word.least, Word.greatest] at hbounds
  apply Word.toInt_ofInt <;> simp only [Word.least, Word.greatest] <;> omega

theorem remains_modulo (hv : IsWord a v) (hw : IsWord b w) : Remains a b (v.modulo w) := by
  have hmodulo : v.modulo w =
      (remainderOf (.integer a) (.integer b) >>= fun n => .ok n.toValue) := by
    simp [modulo, hv.isNull, hw.isNull, hv.toNumber, hw.toNumber, bind, Except.bind, pure,
      Except.pure]
  rw [hmodulo]
  simp only [remainderOf]
  constructor
  · rintro rfl
    rfl
  · intro hb hfits
    rw [if_neg hb, if_neg hfits]
    exact ⟨_, toInt_remainder a hb, rfl⟩
  · intro ha hb
    have hb' : b ≠ 0 := by
      rintro rfl
      exact absurd hb (by decide)
    rw [if_neg hb', if_pos ⟨ha, hb⟩]
    refine ⟨_, ?_, rfl⟩
    obtain rfl : a = Int64.minValue := Int64.toInt_inj.1 ha
    obtain rfl : b = -1 := Int64.toInt_inj.1 hb
    decide +kernel

/-- The absolute value; that of the least word is no word and saturates. -/
theorem abs_word (hv : IsWord a v) :
    Scalar.abs [v] = .ok (.integer (Word.nearest a.toInt.natAbs)) := by
  have habs : Scalar.abs [v] = Scalar.numericArgument "ABS" v >>= fun n =>
      .ok (Scalar.absolute n).toValue := by
    cases hv <;> rfl
  rw [habs, Scalar.numericArgument, hv.number?]
  rfl

end Value

namespace Expr

variable {s : Scope} {time : Int64} {l r : Expr} {v w : Value} {a b : Int64}

/-- A call of MOD takes the remainder of its arguments, as the operator does. -/
theorem eval_mod (hs : s.registry = .standard time) (hl : l.eval s = .ok v) (hr : r.eval s = .ok w)
    {name : String} (hname : Text.upper name = "MOD") :
    (call name [l, r]).eval s = v.modulo w := by
  have hlisted : Catalog.scalar "MOD" [] .math 2 (some 2) Scalar.mod ∈ Catalog.scalars time := by
    simp [Catalog.scalars]
  have hargs : evalList s [l, r] = .ok [v, w] := by
    simp [evalList, hl, hr, bind, Except.bind, pure, Except.pure]
  have hupper : Text.upper name = Text.upper "MOD" := hname.trans (by decide +kernel)
  exact eval_call_standard hs hlisted rfl (List.mem_singleton.2 rfl) hupper hargs rfl

theorem eval_abs (hs : s.registry = .standard time) (hl : l.eval s = .ok v)
    {name : String} (hname : Text.upper name = "ABS") :
    (call name [l]).eval s = Scalar.abs [v] := by
  have hlisted : Catalog.scalar "ABS" [] .math 1 (some 1) Scalar.abs ∈ Catalog.scalars time := by
    simp [Catalog.scalars]
  have hargs : evalList s [l] = .ok [v] := by
    simp [evalList, hl, bind, Except.bind, pure, Except.pure]
  have hupper : Text.upper name = Text.upper "ABS" := hname.trans (by decide +kernel)
  exact eval_call_standard hs hlisted rfl (List.mem_singleton.2 rfl) hupper hargs rfl

/-- **Arithmetic on integers is exact.**  Of operands that are integers, or texts that spell
    integers, sums, differences, products and negatives are the exact integers, and floats where
    these are no words; remainders are the exact integers with the sign of the dividend, and fail
    exactly if the divisor is zero, for the operator and for the function.

    An absolute value is exact with one exception: that of the least word is the greatest word,
    which is less by one, where the negative of the same word is a float. -/
theorem eval_on_words (hs : s.registry = .standard time)
    (hl : l.eval s = .ok v) (hv : v.IsWord a) (hr : r.eval s = .ok w) (hw : w.IsWord b) :
    Promotes (a.toInt + b.toInt) (.ofWord a + .ofWord b) ((binary .add l r).eval s) ∧
    Promotes (a.toInt - b.toInt) (.ofWord a - .ofWord b) ((binary .subtract l r).eval s) ∧
    Promotes (a.toInt * b.toInt) (.ofWord a * .ofWord b) ((binary .multiply l r).eval s) ∧
    Promotes (-a.toInt) (-.ofWord a) ((unary .minus l).eval s) ∧
    Remains a b ((binary .modulo l r).eval s) ∧
    (∀ name, Text.upper name = "MOD" → Remains a b ((call name [l, r]).eval s)) ∧
    (∀ name, Text.upper name = "ABS" → ∃ c : Int64,
      (call name [l]).eval s = .ok (.integer c) ∧
      c.toInt = if a.toInt = Word.least then Word.greatest else a.toInt.natAbs) := by
  refine ⟨?add, ?subtract, ?multiply, ?negate, ?modulo, ?mod, ?abs⟩
  case add => exact eval_binary hl hr .add (by decide) ▸ Value.promotes_arith .add hv hw
  case subtract =>
    exact eval_binary hl hr .subtract (by decide) ▸ Value.promotes_arith .subtract hv hw
  case multiply =>
    exact eval_binary hl hr .multiply (by decide) ▸ Value.promotes_arith .multiply hv hw
  case negate => exact eval_minus hl ▸ Value.promotes_negate hv
  case modulo => exact eval_binary hl hr .modulo (by decide) ▸ Value.remains_modulo hv hw
  case mod => exact fun name hname => eval_mod hs hl hr hname ▸ Value.remains_modulo hv hw
  case abs =>
    intro name hname
    refine ⟨_, (eval_abs hs hl hname).trans (Value.abs_word hv), ?_⟩
    have hbounds := Word.toInt_bounds a
    rw [Word.toInt_nearest]
    simp only [Word.least, Word.greatest] at hbounds ⊢
    split <;> omega

/-- The least word and `-1`, the latter as a text. -/
theorem eval_on_words_least :
    let a := column "a"
    let b := column "b"
    let least := Int64.minValue
    let s : Scope :=
      { record := ⟨[("a", .integer least), ("b", .text " -1 ")]⟩, registry := .standard 0 }
    (binary .subtract a b).eval s = .ok (.integer (-9223372036854775807)) ∧
      (binary .multiply a b).eval s = .ok (.float (.ofWord least * .ofWord (-1))) ∧
      (unary .minus a).eval s = .ok (.float (-.ofWord least)) ∧
      (∃ x : Double, (x == 0.0) = true ∧ (call "mod" [a, b]).eval s = .ok (.float x)) ∧
      (call "Abs" [a]).eval s = .ok (.integer Int64.maxValue) := by
  intro a b least s
  have ha : a.eval s = .ok (.integer least) := by with_unfolding_all rfl
  have hb : b.eval s = .ok (.text " -1 ") := by with_unfolding_all rfl
  have hword : Value.IsWord (-1) (.text " -1 ") := .text (by decide +kernel)
  obtain ⟨-, hsubtract, hmultiply, hminus, -, hmod, habs⟩ :=
    eval_on_words (s := s) rfl ha .integer hb hword
  have hnone (w : Int64) : w.toInt ≠ 9223372036854775808 := by
    have hbounds := Word.toInt_bounds w
    simp only [Word.greatest] at hbounds
    omega
  refine ⟨hsubtract.word _ (by decide), hmultiply.float hnone, hminus.float hnone,
    (hmod "mod" (by decide +kernel)).float rfl rfl, ?_⟩
  obtain ⟨c, heval, hc⟩ := habs "Abs" (by decide +kernel)
  have hgreatest : c = Int64.maxValue := Int64.toInt_inj.1 (hc.trans (by decide))
  rw [heval, hgreatest]

end Expr

end StreamSql
