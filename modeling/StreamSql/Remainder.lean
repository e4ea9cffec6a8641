/-
  Lengths of what is left of a list.

  A reader returns the part of its list behind what it read.  That this part is shorter, or
  at least no longer, is what ends the recursion of readers that call one another.
-/

namespace StreamSql.Remainder

variable {α : Type}

/-- The part behind the first element is shorter. -/
theorem lt_cons (a : α) (l : List α) : l.length < (a :: l).length :=
  Nat.lt_succ_self l.length

/-- The whole list is no longer than itself. -/
theorem le_self (l : List α) : l.length ≤ l.length :=
  Nat.le_refl l.length

/-- What is left of a shorter part is shorter. -/
theorem lt_trans {l₁ l₂ l₃ : List α} (h : l₁.length < l₂.length) (h' : l₂.length < l₃.length) :
    l₁.length < l₃.length :=
  Nat.lt_trans h h'

/-- A part that is no longer than a shorter part is shorter. -/
theorem lt_of_le {l₁ l₂ l₃ : List α} (h : l₁.length ≤ l₂.length) (h' : l₂.length < l₃.length) :
    l₁.length < l₃.length :=
  Nat.lt_of_le_of_lt h h'

/-- A shorter part is no longer. -/
theorem le_of_lt {l₁ l₂ : List α} (h : l₁.length < l₂.length) : l₁.length ≤ l₂.length :=
  Nat.le_of_lt h

/-- The part behind the first two elements is shorter. -/
theorem lt_cons₂ (a b : α) (l : List α) : l.length < (a :: b :: l).length :=
  Nat.lt_succ_of_lt (lt_cons b l)

/-- What is left of the part behind the first element is shorter. -/
theorem lt_cons_of_lt {a : α} {l l' : List α} (h : l'.length < l.length) :
    l'.length < (a :: l).length :=
  Nat.lt_succ_of_lt h

/-- What is left of the part behind the first two elements is shorter. -/
theorem lt_cons₂_of_lt {a b : α} {l l' : List α} (h : l'.length < l.length) :
    l'.length < (a :: b :: l).length :=
  Nat.lt_succ_of_lt (lt_cons_of_lt h)

/-- The part behind so many further elements is shorter. -/
theorem drop_lt_cons₂ (n : Nat) (a b : α) (l : List α) :
    (l.drop n).length < (a :: b :: l).length :=
  Nat.lt_of_le_of_lt (List.drop_sublist n l).length_le (lt_cons₂ a b l)

end StreamSql.Remainder
