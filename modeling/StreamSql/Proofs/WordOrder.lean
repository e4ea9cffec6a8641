/-
  The order of integers.

  Equality compares integers as such.  The orderings compare them as the floats that they are near,
  and so two integers with one float are in no order, though they are not equal.

  * `Value.compare_integer`: the comparison of two integers;
  * `Expr.OrderedAs`: the four orderings evaluate as one order says;
  * `Expr.eval_order_of_words`: the comparisons of two integers, and when they are exact.
-/
import StreamSql.Proofs.Lookup
import StreamSql.Proofs.Nearest

namespace StreamSql

namespace Value

/-- Two integers are compared as the floats that they are near. -/
theorem compare_integer (a b : Int64) :
    (integer a).compare (integer b) =
      .ok (if Double.ofWord a = Double.ofWord b then .eq else Ord.compare a.toInt b.toInt) := by
  change compareNumeric (integer a) (integer b) = _
  simp only [compareNumeric, float?, Double.compare?_ofWord]

theorem sqlEquals_integer (a b : Int64) :
    (integer a).sqlEquals (integer b) = decide (a.toInt = b.toInt) := by
  rw [sqlEquals]
  exact decide_eq_decide.2 Int64.toInt_inj.symm

end Value

namespace Expr

variable {s : Scope} {l r : Expr} {v w : Value} {a b : Int64}

/-- The four orderings of two expressions evaluate as the order `o` of their values says. -/
structure OrderedAs (s : Scope) (l r : Expr) (o : Ordering) : Prop where
  less : (binary .lessThan l r).eval s = .ok (.boolean (o == .lt))
  lessOrEqual : (binary .lessOrEqual l r).eval s = .ok (.boolean (o != .gt))
  greater : (binary .greaterThan l r).eval s = .ok (.boolean (o == .gt))
  greaterOrEqual : (binary .greaterOrEqual l r).eval s = .ok (.boolean (o != .lt))

/-- The orderings are read off the comparison. -/
theorem orderedAs_of_compare (hl : l.eval s = .ok v) (hr : r.eval s = .ok w)
    (hv : v.isNull = false) (hw : w.isNull = false) {o : Ordering} (h : v.compare w = .ok o) :
    OrderedAs s l r o := by
  have hordered (test : Ordering → Bool) :
      (if v.isNull || w.isNull then .ok .null else Value.ordered test v w) =
        .ok (.boolean (test o)) := by
    rw [hv, hw, Value.ordered, h]
    rfl
  exact
    { less := (eval_binary hl hr .lessThan (by decide)).trans (hordered _)
      lessOrEqual := (eval_binary hl hr .lessOrEqual (by decide)).trans (hordered _)
      greater := (eval_binary hl hr .greaterThan (by decide)).trans (hordered _)
      greaterOrEqual := (eval_binary hl hr .greaterOrEqual (by decide)).trans (hordered _) }

/-- **The order of integers**: equality is exact.  The orderings are those of the integers, unless
    these are two integers with one float, which are ordered as if they were equal.  Of such
    integers one is beyond `2^53`, and they differ by 1024 at most. -/
theorem eval_order_of_words (hl : l.eval s = .ok (.integer a)) (hr : r.eval s = .ok (.integer b)) :
    (binary .equal l r).eval s = .ok (.boolean (decide (a.toInt = b.toInt))) ∧
    (binary .notEqual l r).eval s = .ok (.boolean (decide (a.toInt ≠ b.toInt))) ∧
    (Value.integer a).sqlEquals (.integer b) = decide (a.toInt = b.toInt) ∧
    ∃ o, (Value.integer a).compare (.integer b) = .ok o ∧ OrderedAs s l r o ∧
      (o = Ord.compare a.toInt b.toInt ↔ (Double.ofWord a = Double.ofWord b → a = b)) ∧
      (o ≠ Ord.compare a.toInt b.toInt → o = .eq ∧
        2 ^ 53 < max a.toInt.natAbs b.toInt.natAbs ∧ (a.toInt - b.toInt).natAbs ≤ 1024) := by
  have hne : decide (a.toInt ≠ b.toInt) = !decide (a.toInt = b.toInt) := decide_not
  have hequal : (Value.integer a).sqlEquals (.integer b) = decide (a.toInt = b.toInt) :=
    Value.sqlEquals_integer a b
  refine ⟨?_, ?_, hequal, _, Value.compare_integer a b,
    orderedAs_of_compare hl hr rfl rfl (Value.compare_integer a b), ?_, ?_⟩
  · rw [eval_binary hl hr .equal (by decide), ← hequal]
    rfl
  · rw [eval_binary hl hr .notEqual (by decide), hne, ← hequal]
    rfl
  · split
    · next heq =>
      refine ⟨fun h _ => ?_, fun h => ?_⟩
      · exact Int64.toInt_inj.1 (compare_eq_iff_eq.1 h.symm)
      · exact (compare_eq_iff_eq.2 (congrArg Int64.toInt (h heq))).symm
    · next hne => exact ⟨fun _ h => absurd h hne, fun _ => rfl⟩
  · split
    · next heq =>
      intro hwrong
      refine ⟨rfl, Double.ofWord_eq heq ?_⟩
      rintro rfl
      exact hwrong (compare_eq_iff_eq.2 rfl).symm
    · next hne => exact fun hwrong => absurd rfl hwrong

/-- Two integers with one float. -/
theorem eval_order_of_words_equal :
    let a := column "a"
    let b := column "b"
    let s : Scope :=
      { record := ⟨[("a", .integer 9007199254740992), ("b", .integer 9007199254740993)]⟩,
        registry := {} }
    (binary .equal a b).eval s = .ok (.boolean false) ∧
      (binary .lessThan a b).eval s = .ok (.boolean false) ∧
      (binary .greaterOrEqual a b).eval s = .ok (.boolean true) ∧
      (Value.integer 9007199254740992).compare (.integer 9007199254740993) = .ok .eq := by
  intro a b s
  have ha : a.eval s = .ok (.integer 9007199254740992) := by with_unfolding_all rfl
  have hb : b.eval s = .ok (.integer 9007199254740993) := by with_unfolding_all rfl
  have hcompare : (Value.integer 9007199254740992).compare (.integer 9007199254740993) =
      .ok .eq := by with_unfolding_all rfl
  obtain ⟨hequal, -, -, o, ho, horder, -⟩ := eval_order_of_words ha hb
  obtain rfl : o = .eq := Except.ok.inj (ho.symm.trans hcompare)
  exact ⟨hequal, horder.less, horder.greaterOrEqual, hcompare⟩

end Expr

end StreamSql
