/-
  How constants and columns are spelled in symbols.

  * `Vocabulary.written`: the columns, calls and constants that can be spelled, names without
    quotes and finite numbers;
  * `Literal.symbols`, `columnSymbols`: constants and columns in symbols, which the grammar derives
    (`derives_literal`, `derives_column`), and their texts (`source_literal`, `source_column`);
  * `written_covers`: a text without quotes around names spells no other trees.
-/
import Mathlib.Tactic.Common
import StreamSql.Proofs.Lexing
import StreamSql.Proofs.Numerals
import StreamSql.Proofs.Reading

namespace StreamSql

open StreamSql.Symbol

/-! ## Constants -/

namespace Literal

/-- The symbols of a constant; the sign of a number is one of its own. -/
def symbols : Literal → List Symbol
  | text s => [.text s]
  | integer n =>
    if n.toInt < 0 then [.mark .minus, .number (toString (-n).toInt)]
    else [.number (toString n.toInt)]
  | float x =>
    if x.isNegative then [.mark .minus, .number (FloatText.literal (-x))]
    else [.number (FloatText.literal x)]
  | boolean true => [.mark .true_]
  | boolean false => [.mark .false_]
  | null => [.mark .null]

/-- The constant has a sign. -/
def isSigned : Literal → Bool
  | integer n => n.toInt < 0
  | float x => x.isNegative
  | _ => false

/-- The level of a constant. -/
def level (value : Literal) : Expr.Level :=
  if value.isSigned then .sign else .primary

end Literal

namespace Expr

/-- Names without quotes, finite floats, and words that have a negative. -/
def Vocabulary.written : Vocabulary where
  column name := Token.isPath name = true
  call name _ := Token.isName name = true
  literal
    | .integer n => Word.least < n.toInt
    | .float x => x.isFinite = true
    | _ => True

theorem Grammatical.plain_of_written {e : Expr} (h : Grammatical .written e) :
    Grammatical .plain e := by
  refine @Grammatical.mono .written .plain (fun _ h => h) (fun _ _ h => h) ?_ e h
  rintro (_ | _ | _ | _ | _) h
  case float => exact h
  all_goals trivial

theorem numberLiteral?_toString {n : Int64} (h : 0 ≤ n.toInt) :
    numberLiteral? (toString n.toInt) = some (.integer n) := by
  have hdigits : (toString n.toInt).toList.any (fun c => c = '.' ∨ c = 'e' ∨ c = 'E') = false := by
    rw [integer_toList, if_neg (by omega), List.nil_append, List.any_eq_false]
    intro c hc
    have hdigit := FloatText.toDigits_digits _ c hc
    simp only [decide_eq_true_iff, not_or]
    refine ⟨?_, ?_, ?_⟩ <;> rintro rfl <;> exact absurd hdigit (by decide)
  unfold numberLiteral?
  rw [hdigits, Numeral.readWord?_toString h]
  rfl

theorem numberLiteral?_literal {x : Double} (h : x.isFinite = true) :
    numberLiteral? (FloatText.literal x) = some (.float x) := by
  have hpoint : (FloatText.literal x).toList.any (fun c => c = '.' ∨ c = 'e' ∨ c = 'E') = true :=
    List.any_eq_true.2 ⟨'.', (isNumeral_float h).2, by decide⟩
  unfold numberLiteral?
  rw [if_pos hpoint, Numeral.readFloat?_literal h]
  rfl

theorem toInt_neg {n : Int64} (h : Word.least < n.toInt) : (-n).toInt = -n.toInt := by
  have hbounds := Word.toInt_bounds n
  simp only [Word.least, Word.greatest] at h hbounds
  rw [Int64.toInt_neg, Int.bmod_eq_of_le (by omega) (by omega)]

theorem least_lt_neg {n : Int64} (h : Word.least < n.toInt) : Word.least < (-n).toInt := by
  have hneg := toInt_neg h
  have hbounds := Word.toInt_bounds n
  simp only [Word.least, Word.greatest] at *
  omega

/-- A number that begins with a digit is not the least word. -/
theorem least_lt_of_numberLiteral? {s : String} {n : Int64}
    (h : numberLiteral? s = some (.integer n)) {c : Char} (hc : s.toList.head? = some c)
    (hd : c.isDigit = true) : Word.least < n.toInt := by
  have hword : Numeral.readWord? s = some n := by
    unfold numberLiteral? at h
    split at h
    · obtain ⟨x, -, hx⟩ := Option.map_eq_some_iff.1 h
      cases hx
    · split at h
      · next hread =>
        cases h
        exact hread
      · obtain ⟨x, -, hx⟩ := Option.map_eq_some_iff.1 h
        cases hx
  have hnonneg := Numeral.nonneg_of_readWord? hword hc hd
  simp only [Word.least]
  omega

theorem isFinite_neg {x : Double} (h : x.isFinite = true) : (-x).isFinite = true := by
  rw [Double.isFinite, Double.magnitude_neg]
  exact h

theorem neg_neg (x : Double) : - -x = x :=
  Double.eq_of_magnitude (by rw [Double.isNegative_neg, Double.isNegative_neg, Bool.not_not])
    (by rw [Double.magnitude_neg, Double.magnitude_neg])

/-- A number with a minus in front of it. -/
theorem derives_negative {s : String} {value : Literal} (h : numberLiteral? s = some value) :
    Derives .sign [.mark .minus, .number s] (negated (.literal value)) :=
  .minus (.next (.number h))

/-- **The symbols of a constant** are derived. -/
theorem derives_literal {value : Literal} (h : Vocabulary.written.literal value) :
    Derives value.level value.symbols (.literal value) := by
  cases value with
  | text s => exact .text s
  | integer n =>
    by_cases hn : n.toInt < 0
    · have hneg := toInt_neg h
      have hminus := derives_negative (numberLiteral?_toString (show 0 ≤ (-n).toInt by omega))
      rw [negated, Int64.neg_neg] at hminus
      simpa [Literal.level, Literal.isSigned, Literal.symbols, hn] using hminus
    · have hnumber := Derives.number (numberLiteral?_toString (Int.not_lt.1 hn))
      simpa [Literal.level, Literal.isSigned, Literal.symbols, hn] using hnumber
  | float x =>
    by_cases hx : x.isNegative = true
    · have hminus := derives_negative (numberLiteral?_literal (isFinite_neg h))
      rw [negated, neg_neg] at hminus
      simpa [Literal.level, Literal.isSigned, Literal.symbols, hx] using hminus
    · have hnumber := Derives.number (numberLiteral?_literal h)
      simpa [Literal.level, Literal.isSigned, Literal.symbols, hx] using hnumber
  | boolean b => cases b <;> exact .keyword rfl
  | null => exact .keyword rfl

theorem isDecimal_toString {n : Int} (h : 0 ≤ n) : IsDecimal (toString n).toList := by
  obtain ⟨c, cs, hcs⟩ := List.exists_cons_of_ne_nil (Nat.toDigits_ne_nil (n := n.natAbs) (b := 10))
  have hdigits := FloatText.toDigits_digits n.natAbs
  rw [hcs] at hdigits
  refine ⟨c, cs, [], ?_, hdigits c List.mem_cons_self,
    fun d hd => hdigits d (List.mem_cons_of_mem _ hd), Or.inl rfl⟩
  rw [integer_toList, if_neg (by omega), hcs, List.nil_append, List.append_nil]

theorem isDecimal_literal {x : Double} (h : x.isFinite = true) (hx : x.isNegative = false) :
    IsDecimal (FloatText.literal x).toList := by
  obtain ⟨_, whole, fraction, _, _, -, -, -, hs, ht⟩ := FloatText.literal_spelling h
  obtain ⟨c, cs, rfl⟩ := List.exists_cons_of_ne_nil hs.whole_ne_nil
  obtain ⟨d, ds, rfl⟩ := List.exists_cons_of_length_pos (hs.length ▸ hs.places_pos)
  refine ⟨c, cs, '.' :: d :: ds, ?_, hs.whole_digits c List.mem_cons_self,
    fun e he => hs.whole_digits e (List.mem_cons_of_mem _ he),
    Or.inr ⟨d, ds, rfl, hs.fraction_digits⟩⟩
  rw [ht, hx]
  rfl

/-- The text of a negative float is that of its magnitude with a sign. -/
theorem literal_of_isNegative {x : Double} (h : x.isFinite = true) (hx : x.isNegative = true) :
    (FloatText.literal x).toList = '-' :: (FloatText.literal (-x)).toList := by
  have hview : ∀ p, FloatView.of x = .finite p → p.negative = true ∧
      FloatView.of (-x) = .finite { p with negative := false } := by
    intro p hp
    have hnan : (-x).isNaN = x.isNaN := by rw [Double.isNaN, Double.isNaN, Double.magnitude_neg]
    have hinf : (-x).isInf = x.isInf := by rw [Double.isInf, Double.isInf, Double.magnitude_neg]
    unfold FloatView.of at hp ⊢
    rw [hnan, hinf, Double.magnitude_neg, Double.isNegative_neg, hx]
    rw [hx] at hp
    simp only at hp ⊢
    split_ifs at hp ⊢ <;> cases hp <;> exact ⟨rfl, rfl⟩
  obtain ⟨p, hp, -⟩ := FloatView.of_finite h
  obtain ⟨hsign, hneg⟩ := hview p hp
  unfold FloatText.literal FloatText.written
  rw [hp, hneg]
  simp only [hsign, FloatText.sign, if_true, if_false, Bool.false_eq_true, String.toList_append]
  rfl

/-- The symbols of a constant can be written. -/
theorem spelled_literal {value : Literal} (h : Vocabulary.written.literal value) :
    AllSpelled value.symbols := by
  have hminus : (mark .minus).IsSpelled := isSpelled_mark.2 (by decide)
  cases value with
  | text s => simp [Literal.symbols, IsSpelled]
  | integer n =>
    by_cases hn : n.toInt < 0
    · have hneg := toInt_neg h
      have hnumber : (number (toString (-n).toInt)).IsSpelled := isDecimal_toString (by omega)
      simp only [Literal.symbols, hn, if_true, allSpelled_cons]
      exact ⟨hminus, hnumber, allSpelled_nil⟩
    · have hnumber : (number (toString n.toInt)).IsSpelled := isDecimal_toString (Int.not_lt.1 hn)
      simp only [Literal.symbols, hn, if_false, allSpelled_cons]
      exact ⟨hnumber, allSpelled_nil⟩
  | float x =>
    by_cases hx : x.isNegative = true
    · have hnumber : (number (FloatText.literal (-x))).IsSpelled :=
        isDecimal_literal (isFinite_neg h) (by rw [Double.isNegative_neg, hx]; rfl)
      simp [Literal.symbols, hx, hminus, hnumber]
    · have hnumber : (number (FloatText.literal x)).IsSpelled :=
        isDecimal_literal h (Bool.eq_false_of_not_eq_true hx)
      simp [Literal.symbols, hx, hnumber]
  | boolean b => cases b <;> simp [Literal.symbols, isSpelled_mark, TokenKind.spelling]
  | null => simp [Literal.symbols, isSpelled_mark, TokenKind.spelling]

/-- The text of a constant is that of its symbols. -/
theorem source_literal {value : Literal} (h : Vocabulary.written.literal value) :
    value.symbols.flatMap source = value.render.toList := by
  cases value with
  | text s => simp [Literal.symbols, source, Literal.render, doubleQuotes, quoted]
  | integer n =>
    by_cases hn : n.toInt < 0
    · have hneg := toInt_neg h
      have htext : (toString n.toInt).toList = '-' :: (toString (-n).toInt).toList := by
        rw [integer_toList, integer_toList, if_pos hn, if_neg (by omega), hneg, Int.natAbs_neg]
        rfl
      rw [Literal.symbols, if_pos hn, Literal.render, htext]
      exact congrArg _ (List.append_nil _)
    · rw [Literal.symbols, if_neg hn, Literal.render]
      exact List.append_nil _
  | float x =>
    by_cases hx : x.isNegative = true
    · simp [Literal.symbols, Literal.render, source, TokenKind.spelling, hx,
        literal_of_isNegative h hx]
    · simp [Literal.symbols, Literal.render, source, hx]
  | boolean b => cases b <;> rfl
  | null => rfl

/-! ## Columns -/

/-- The symbols of a column: its segments, with points between them. -/
def columnSymbols (name : String) : List Symbol :=
  match (name.toList.splitOn '.').map String.ofList with
  | [] => []
  | segment :: rest => .name segment :: rest.flatMap fun s => [.mark .dot, .name s]

theorem dotted_toList (name : String) (segments : List String) :
    (dotted name segments).toList = ['.'].intercalate ((name :: segments).map String.toList) := by
  induction segments generalizing name with
  | nil => simp [dotted]
  | cons s rest ih =>
    have hstep : dotted name (s :: rest) = dotted (name ++ "." ++ s) rest := rfl
    rw [hstep, ih]
    cases rest with
    | nil => simp [List.intercalate_cons_cons]
    | cons s' rest => simp [List.intercalate_cons_cons]

/-- A column is its first segment with the further ones. -/
theorem exists_dotted (name : String) : ∃ segment rest,
    (name.toList.splitOn '.').map String.ofList = segment :: rest ∧ name = dotted segment rest := by
  obtain ⟨s, rest, hsplit⟩ := List.exists_cons_of_ne_nil (List.splitOn_ne_nil '.' name.toList)
  refine ⟨String.ofList s, rest.map String.ofList, by rw [hsplit, List.map_cons],
    String.toList_injective ?_⟩
  have hlists : (s :: rest).map (String.toList ∘ String.ofList) = s :: rest :=
    List.map_id'' (fun _ => String.toList_ofList) _
  rw [dotted_toList, ← List.map_cons, List.map_map, hlists, ← hsplit, List.intercalate_splitOn]

theorem derives_column (name : String) : Derives .primary (columnSymbols name) (.column name) := by
  obtain ⟨segment, rest, hsegments, hname⟩ := exists_dotted name
  have hcolumn := Derives.column segment rest
  rw [← hname] at hcolumn
  rw [columnSymbols, hsegments]
  exact hcolumn

theorem spelled_column {name : String} (h : Token.isPath name = true) :
    AllSpelled (columnSymbols name) := by
  obtain ⟨segment, rest, hsegments, -⟩ := exists_dotted name
  have hnames : ∀ s ∈ segment :: rest, Token.isName s = true := by
    rw [← hsegments]
    exact List.forall_mem_map.2 (List.all_eq_true.1 h)
  obtain ⟨hsegment, hrest⟩ := List.forall_mem_cons.1 hnames
  rw [columnSymbols, hsegments]
  refine allSpelled_cons.2 ⟨hsegment, fun s hs => ?_⟩
  obtain ⟨n, hn, hs⟩ := List.mem_flatMap.1 hs
  rcases List.mem_cons.1 hs with rfl | hs
  · exact isSpelled_mark.2 (by decide)
  · rw [List.mem_singleton.1 hs]
    exact hrest n hn

/-- The text of a column is that of its symbols. -/
theorem source_column (name : String) : (columnSymbols name).flatMap source = name.toList := by
  obtain ⟨segment, rest, hsegments, hname⟩ := exists_dotted name
  rw [columnSymbols, hsegments]
  conv_rhs => rw [hname, dotted_toList]
  clear hsegments hname
  induction rest generalizing segment with
  | nil => simp [source]
  | cons s rest ih =>
    have hrest := ih s
    simp only [List.flatMap_cons, List.map_cons, List.intercalate_cons_cons] at hrest ⊢
    rw [← hrest]
    simp [source, TokenKind.spelling]

/-- Names with points between them are a path. -/
theorem isPath_dotted {name : String} {segments : List String} (h : Token.isName name = true)
    (hs : ∀ s ∈ segments, Token.isName s = true) : Token.isPath (dotted name segments) = true := by
  have hnames : ∀ s ∈ name :: segments, Token.isName s = true := List.forall_mem_cons.2 ⟨h, hs⟩
  have hpoint : ∀ l ∈ (name :: segments).map String.toList, '.' ∉ l := by
    refine List.forall_mem_map.2 fun s hmem hdot => ?_
    obtain ⟨c, cs, hcs, -, hword⟩ := Token.isName_toList (hnames s hmem)
    exact absurd (hword '.' (hcs ▸ hdot)) (by decide)
  unfold Token.isPath
  rw [dotted_toList, List.splitOn_intercalate '.' hpoint (by simp)]
  refine List.all_eq_true.2 (List.forall_mem_map.2 fun s hmem => ?_)
  rw [String.ofList_toList]
  exact hnames s hmem

/-! ## What is read -/

/-- The symbols of a text without quotes around names and without numbers that are too great. -/
theorem written_covers {ls : List Symbol} (hname : ∀ s, name s ∈ ls → Token.isName s = true)
    (hdigit : ∀ s, number s ∈ ls → ∃ c, s.toList.head? = some c ∧ c.isDigit = true)
    (hfinite : ∀ s x, number s ∈ ls → numberLiteral? s = some (.float x) → x.isFinite = true) :
    Vocabulary.written.Covers ls where
  text _ := trivial
  keyword {kind value} h := by
    unfold keyword? at h
    split at h <;> cases h <;> trivial
  number {s value} hs h := by
    cases value with
    | float x => exact hfinite s x hs h
    | integer n =>
      obtain ⟨c, hc, hd⟩ := hdigit s hs
      exact least_lt_of_numberLiteral? h hc hd
    | text | boolean | null => trivial
  integer h := least_lt_neg h
  float h := isFinite_neg h
  column hn hs := isPath_dotted (hname _ hn) fun s hmem => hname s (hs s hmem)
  call _ hn := hname _ hn

end Expr

end StreamSql
