/-
  Texts of rows are read row by row.

  * `Yaml.IsWord cs`: the characters of a name, a number or a keyword;
  * `Yaml.IsRow line row`: a line without indentation that holds a row of the mapping;
  * `Yaml.readRows?_isRow`: a text of such lines is read row by row;
  * `Yaml.isRow_renderRow`: the line of a row holds it;
  * `Yaml.count?_toString`, `Yaml.word?_toString`: numbers are read from their digits.
-/
import StreamSql.Config.Yaml
import StreamSql.Proofs.NumberText
import StreamSql.Text.Letters

namespace StreamSql

namespace Yaml

/-! ## Words -/

/-- A character of names, numbers and keywords. -/
def isWordChar (c : Char) : Bool :=
  c.isAlphanum || c = '_'

/-- The characters are those of a name, a number or a keyword. -/
structure IsWord (cs : List Char) : Prop where
  ne_nil : cs ≠ []
  chars : ∀ c ∈ cs, isWordChar c = true

variable {c : Char} {cs rest : List Char}

theorem isWord_of_all (hne : cs ≠ []) (h : cs.all isWordChar = true) : IsWord cs :=
  ⟨hne, List.all_eq_true.1 h⟩

theorem printable_of_isWordChar (h : isWordChar c = true) : 0x20 ≤ c.toNat ∧ c.toNat < 0x7F := by
  simp only [isWordChar, Char.isAlphanum, Bool.or_eq_true, decide_eq_true_iff,
    Text.isAlpha_iff_toNat, Char.isDigit_iff_toNat, Char.reduceToNat] at h
  rcases h with h | rfl
  · omega
  · decide

theorem ne_of_isWordChar (h : isWordChar c = true) {d : Char} (hd : isWordChar d = false) :
    c ≠ d := by
  rintro rfl
  rw [h] at hd
  cases hd

theorem isBlank_of_isWordChar (h : isWordChar c = true) : isBlank c = false := by
  have hspace := ne_of_isWordChar h (show isWordChar ' ' = false by decide)
  have htab := ne_of_isWordChar h (show isWordChar '\t' = false by decide)
  simp [isBlank, hspace, htab]

theorem beginsPlain_of_isWordChar (h : isWordChar c = true) (rest : List Char) :
    beginsPlain (c :: rest) = true := by
  have hdash := ne_of_isWordChar h (show isWordChar '-' = false by decide)
  have hmark := ne_of_isWordChar h (show isWordChar '?' = false by decide)
  have hcolon := ne_of_isWordChar h (show isWordChar ':' = false by decide)
  have hindicator : c ∉ indicators := fun hmem => by
    have hall : indicators.all (!isWordChar ·) = true := by decide
    have hc := List.all_eq_true.1 hall c hmem
    rw [h] at hc
    cases hc
  simp [beginsPlain, hdash, hmark, hcolon, hindicator, isBlank_of_isWordChar h]

theorem isSeparator_of_isWordChar (h : isWordChar c = true) (rest : List Char) :
    isSeparator (c :: rest) = false := by
  have hcolon := ne_of_isWordChar h (show isWordChar ':' = false by decide)
  unfold isSeparator
  split
  · next he => exact absurd (List.cons.inj he).1 hcolon
  · next he => exact absurd (List.cons.inj he).1 hcolon
  · rfl

/-- A word is passed as a whole. -/
theorem spanPlain_word (h : ∀ c ∈ cs, isWordChar c = true) (rest : List Char) :
    spanPlain false (cs ++ rest) =
      (cs ++ (spanPlain false rest).1, (spanPlain false rest).2) := by
  induction cs with
  | nil => rfl
  | cons c cs ih =>
    obtain ⟨hc, hcs⟩ := List.forall_mem_cons.1 h
    rw [List.cons_append, spanPlain, Bool.false_and, isSeparator_of_isWordChar hc,
      isBlank_of_isWordChar hc, ih hcs]
    rfl

theorem trimEnd_word (h : IsWord cs) : trimEnd cs = cs := by
  have hreverse : cs.reverse.dropWhile isBlank = cs.reverse := by
    cases hr : cs.reverse with
    | nil => rfl
    | cons c rest =>
      have hc := h.chars c (List.mem_reverse.1 (hr ▸ List.mem_cons_self))
      exact List.dropWhile_cons_of_neg (by rw [isBlank_of_isWordChar hc]; exact Bool.false_ne_true)
  rw [trimEnd, hreverse, List.reverse_reverse]

/-- A word is a plain scalar where nothing that follows belongs to it. -/
theorem scalar?_word (h : IsWord cs) (hrest : spanPlain false rest = ([], rest)) :
    scalar? (cs ++ rest) = some (.plain (String.ofList cs), rest) := by
  obtain ⟨c, tail, rfl⟩ := List.exists_cons_of_ne_nil h.ne_nil
  have hc := h.chars c List.mem_cons_self
  have hbegins : beginsPlain (c :: tail ++ rest) = true := beginsPlain_of_isWordChar hc _
  have hspan := spanPlain_word h.chars rest
  rw [hrest, List.append_nil] at hspan
  unfold scalar?
  split
  · next he => exact absurd (List.cons.inj he).1 (ne_of_isWordChar hc (by decide))
  · next he => exact absurd (List.cons.inj he).1 (ne_of_isWordChar hc (by decide))
  · rw [if_pos hbegins, hspan]
    simp only
    rw [trimEnd_word h]

/-! ## Rows -/

/-- The characters are a scalar and nothing else. -/
structure IsScalar (cs : List Char) (v : Scalar) : Prop where
  begins : ∃ c rest, cs = c :: rest ∧ isBlank c = false ∧ c ≠ '#'
  read : scalar? cs = some (v, [])

theorem isScalar_word (h : IsWord cs) : IsScalar cs (.plain (String.ofList cs)) where
  begins := by
    obtain ⟨c, rest, rfl⟩ := List.exists_cons_of_ne_nil h.ne_nil
    have hc := h.chars c List.mem_cons_self
    exact ⟨c, rest, rfl, isBlank_of_isWordChar hc, ne_of_isWordChar hc (by decide)⟩
  read := by
    have hread : scalar? (cs ++ []) = some (.plain (String.ofList cs), []) := scalar?_word h rfl
    rwa [List.append_nil] at hread

/-- A key, a separator and a value are a row. -/
theorem row?_pair {key value : List Char} {v : Scalar} (hkey : IsWord key)
    (hvalue : IsScalar value v) :
    row? (key ++ ':' :: ' ' :: value) = some (String.ofList key, v) := by
  obtain ⟨c, rest, hcons, hblank, hcomment⟩ := hvalue.begins
  have hskip : skipBlanks (' ' :: value) = value := by
    rw [skipBlanks, List.dropWhile_cons_of_pos rfl, hcons]
    exact List.dropWhile_cons_of_neg (by rw [hblank]; exact Bool.false_ne_true)
  have hread : value? (' ' :: value) = some v := by
    unfold value?
    rw [isFinished, hskip, hcons]
    simp only [hcomment, decide_false, Bool.false_eq_true, if_false]
    rw [← hcons, hvalue.read]
    rfl
  unfold row?
  rw [scalar?_word hkey rfl]
  exact congrArg (Option.map fun v => (String.ofList key, v)) hread

/-- The line begins a name and holds a row of the mapping. -/
structure IsRow (line : List Char) (row : String × Scalar) : Prop where
  begins : ∃ c rest, line = c :: rest ∧ isWordChar c = true
  printable : ∀ c ∈ line, 0x20 ≤ c.toNat ∧ c.toNat < 0x7F
  read : row? line = some row

/-! ## Texts of rows -/

/-- The line ends before each of its line ends. -/
theorem lines_append {line : List Char} (h : ∀ c ∈ line, c ∉ lineEnds) (rest : List Char) :
    lines (line ++ '\n' :: rest) = line :: lines rest := by
  induction line with
  | nil => rfl
  | cons c line ih =>
    obtain ⟨hc, hline⟩ := List.forall_mem_cons.1 h
    rw [List.cons_append, lines, ih hline]
    simp [hc]

theorem not_mem_lineEnds (h : 0x20 ≤ c.toNat ∧ c.toNat < 0x7F) : c ∉ lineEnds := by
  intro hmem
  simp only [lineEnds, List.mem_cons, List.not_mem_nil, or_false] at hmem
  rcases hmem with rfl | rfl | rfl | rfl | rfl <;> simp at h

theorem isAllowed_of_printable (h : 0x20 ≤ c.toNat ∧ c.toNat < 0x7F) : isAllowed c = true := by
  simp [isAllowed, h]

namespace IsRow

variable {line : List Char} {row : String × Scalar}

theorem dropWhile_eq (h : IsRow line row) {p : Char → Bool}
    (hp : ∀ c, isWordChar c = true → p c = false) : line.dropWhile p = line := by
  obtain ⟨c, rest, rfl, hc⟩ := h.begins
  exact List.dropWhile_cons_of_neg (by rw [hp c hc]; exact Bool.false_ne_true)

theorem skipSpaces (h : IsRow line row) : line.dropWhile (· = ' ') = line :=
  h.dropWhile_eq fun _ hc => decide_eq_false (ne_of_isWordChar hc (by decide))

theorem skipBlanks_eq (h : IsRow line row) : skipBlanks line = line :=
  h.dropWhile_eq fun _ => isBlank_of_isWordChar

theorem not_isFinished (h : IsRow line row) : isFinished line = false := by
  rw [isFinished, h.skipBlanks_eq]
  obtain ⟨c, rest, rfl, hc⟩ := h.begins
  exact decide_eq_false (ne_of_isWordChar hc (by decide))

theorem not_isEmptyFlow (h : IsRow line row) : isEmptyFlow line = false := by
  rw [isEmptyFlow, h.skipBlanks_eq]
  obtain ⟨c, rest, rfl, hc⟩ := h.begins
  split
  · next he => exact absurd (List.cons.inj he).1 (ne_of_isWordChar hc (by decide))
  · rfl

/-- A row is no mark of a document. -/
theorem behindMark?_eq_none (h : IsRow line row) {mark : Char} (hmark : isWordChar mark = false) :
    behindMark? mark line = none := by
  obtain ⟨c, rest, rfl, hc⟩ := h.begins
  have hne : (c :: rest).take 3 ≠ [mark, mark, mark] := fun he =>
    ne_of_isWordChar hc hmark (List.cons.inj he).1
  rw [behindMark?, decide_eq_false hne, Bool.false_and, if_neg Bool.false_ne_true]

theorem indentation_eq (h : IsRow line row) : indentation line = 0 := by
  obtain ⟨c, rest, rfl, hc⟩ := h.begins
  rw [indentation, List.takeWhile_cons_of_neg]
  · rfl
  · simpa using ne_of_isWordChar hc (show isWordChar ' ' = false by decide)

theorem not_tab (h : IsRow line row) : (line.dropWhile (· = ' ')).head? ≠ some '\t' := by
  rw [h.skipSpaces]
  obtain ⟨c, rest, rfl, hc⟩ := h.begins
  rw [List.head?_cons, Ne, Option.some.injEq]
  exact ne_of_isWordChar hc (by decide)

end IsRow

/-- Lines and the rows on them. -/
abbrev Rows := List (List Char × (String × Scalar))

/-- The text of the lines. -/
def Rows.text (rows : Rows) : List Char :=
  rows.flatMap fun r => r.1 ++ ['\n']

variable {rows : Rows}

theorem lines_text (h : ∀ r ∈ rows, IsRow r.1 r.2) :
    lines rows.text = rows.map Prod.fst ++ [[]] := by
  induction rows with
  | nil => rfl
  | cons r rows ih =>
    obtain ⟨hr, hrows⟩ := List.forall_mem_cons.1 h
    rw [Rows.text, List.flatMap_cons, List.append_assoc, List.singleton_append,
      lines_append fun c hc => not_mem_lineEnds (hr.printable c hc)]
    exact congrArg (r.1 :: ·) (ih hrows)

theorem isAllowed_text (h : ∀ r ∈ rows, IsRow r.1 r.2) : rows.text.all isAllowed = true := by
  refine List.all_eq_true.2 fun c hc => ?_
  obtain ⟨r, hr, hmem⟩ := List.mem_flatMap.1 hc
  rcases List.mem_append.1 hmem with hline | hend
  · exact isAllowed_of_printable ((h r hr).printable c hline)
  · rw [List.mem_singleton.1 hend]
    decide

theorem filter_isFinished (h : ∀ r ∈ rows, IsRow r.1 r.2) :
    (rows.map Prod.fst ++ [[]]).filter (!isFinished ·) = rows.map Prod.fst := by
  have hkept : (rows.map Prod.fst).filter (!isFinished ·) = rows.map Prod.fst := by
    refine List.filter_eq_self.2 (List.forall_mem_map.2 fun r hr => ?_)
    rw [(h r hr).not_isFinished]
    rfl
  rw [List.filter_append, hkept]
  exact List.append_nil _

theorem withoutEnd_rows (h : ∀ r ∈ rows, IsRow r.1 r.2) :
    withoutEnd (rows.map Prod.fst) = rows.map Prod.fst := by
  unfold withoutEnd
  split
  · next line previous others heq =>
    have hmem : line ∈ rows.map Prod.fst := by
      rw [← List.mem_reverse, heq]
      exact List.mem_cons_self
    obtain ⟨r, hr, rfl⟩ := List.mem_map.1 hmem
    rw [(h r hr).behindMark?_eq_none (by decide)]
    rfl
  · rfl

theorem withoutStart_rows (h : ∀ r ∈ rows, IsRow r.1 r.2) :
    withoutStart (rows.map Prod.fst) = some (rows.map Prod.fst) := by
  cases rows with
  | nil => rfl
  | cons r rows =>
    have hmark : behindMark? '-' r.1 = none :=
      (h r List.mem_cons_self).behindMark?_eq_none (by decide)
    rw [List.map_cons, withoutStart, hmark]

theorem hasPlainIndents_of_not_tab {ls : List (List Char)} (depth : Nat) (open_ : Bool)
    (h : ∀ line ∈ ls, (line.dropWhile (· = ' ')).head? ≠ some '\t') :
    hasPlainIndents depth open_ ls = true := by
  induction ls generalizing open_ with
  | nil => rfl
  | cons line ls ih =>
    obtain ⟨hline, hls⟩ := List.forall_mem_cons.1 h
    rw [hasPlainIndents, ih _ hls]
    simp [hline]

theorem mapM_row? (h : ∀ r ∈ rows, IsRow r.1 r.2) :
    (rows.map Prod.fst).mapM (fun line => row? (line.dropWhile (· = ' '))) =
      some (rows.map Prod.snd) := by
  induction rows with
  | nil => rfl
  | cons r rows ih =>
    obtain ⟨hr, hrows⟩ := List.forall_mem_cons.1 h
    rw [List.map_cons, List.mapM_cons, hr.skipSpaces, hr.read, ih hrows]
    rfl

theorem rowsOf?_rows (h : ∀ r ∈ rows, IsRow r.1 r.2) :
    rowsOf? (rows.map Prod.fst) = some (rows.map Prod.snd) := by
  cases rows with
  | nil => rfl
  | cons r rows =>
    have hr := h r List.mem_cons_self
    have hdepth : (rows.map Prod.fst).all
        (fun other => indentation other = indentation r.1) = true := by
      refine List.all_eq_true.2 (List.forall_mem_map.2 fun s hs => ?_)
      rw [(h s (List.mem_cons_of_mem _ hs)).indentation_eq, hr.indentation_eq]
      rfl
    rw [List.map_cons, rowsOf?, hr.not_isEmptyFlow, Bool.false_and, if_neg Bool.false_ne_true,
      if_pos hdepth]
    exact mapM_row? h

/-- **A text of rows** is read row by row. -/
theorem readRows?_isRow (h : ∀ r ∈ rows, IsRow r.1 r.2) :
    readRows? (String.ofList rows.text) = some (rows.map Prod.snd) := by
  have hindents : ∀ line ∈ rows.map Prod.fst ++ [[]],
      (line.dropWhile (· = ' ')).head? ≠ some '\t' := by
    refine List.forall_mem_append.2 ⟨List.forall_mem_map.2 fun r hr => (h r hr).not_tab, ?_⟩
    exact List.forall_mem_singleton.2 nofun
  unfold readRows?
  simp only [String.toList_ofList, lines_text h, filter_isFinished h, withoutEnd_rows h,
    withoutStart_rows h, isAllowed_text h, Option.bind_eq_bind, Option.bind_some, Bool.true_and]
  rw [if_pos (hasPlainIndents_of_not_tab _ false hindents), rowsOf?_rows h]

/-! ## Numbers -/

theorem isWordChar_of_isDigit (h : c.isDigit = true) : isWordChar c = true := by
  simp [isWordChar, Char.isAlphanum, h]

theorem isWord_toDigits (n : Nat) : IsWord (Nat.toDigits 10 n) where
  ne_nil := Nat.toDigits_ne_nil
  chars c hc := isWordChar_of_isDigit (FloatText.toDigits_digits n c hc)

/-- A number other than zero is written without a zero in front. -/
theorem head?_toDigits {n : Nat} (hn : 0 < n) : (Nat.toDigits 10 n).head? ≠ some '0' := by
  induction n using Nat.strongRecOn with
  | ind n ih =>
    rcases Nat.lt_or_ge n 10 with hlt | hge
    · have hdigit : ∀ m < 10, 0 < m → [m.digitChar].head? ≠ some '0' := by decide
      rw [Nat.toDigits_of_lt_base hlt]
      exact hdigit n hlt hn
    · rw [Nat.toDigits_of_base_le (by decide) hge,
        List.head?_append_of_ne_nil _ Nat.toDigits_ne_nil]
      exact ih (n / 10) (Nat.div_lt_self hn (by decide)) (Nat.div_pos hge (by decide))

theorem digit?_of_isDigit (h : c.isDigit = true) : digit? 10 c = some (c.toNat - '0'.toNat) := by
  simp only [Char.isDigit, Bool.and_eq_true, decide_eq_true_iff] at h
  have hle : '0' ≤ c ∧ c ≤ '9' := h
  have hlt : c.toNat ≤ 57 := UInt32.le_iff_toNat_le.1 h.2
  unfold digit?
  simp only [if_pos hle]
  exact if_pos (Nat.lt_of_le_of_lt (Nat.sub_le_sub_right hlt _) (by decide))

theorem ofDigits?_digits (hne : cs ≠ []) (h : ∀ c ∈ cs, c.isDigit = true) :
    ofDigits? 10 cs = some (Nat.ofDigitChars 10 cs 0) := by
  have hfold : ∀ n, cs.foldlM (fun n c => (digit? 10 c).map fun d => 10 * n + d) n =
      some (Nat.ofDigitChars 10 cs n) := by
    clear hne
    induction cs with
    | nil => exact fun n => rfl
    | cons c cs ih =>
      intro n
      obtain ⟨hc, hcs⟩ := List.forall_mem_cons.1 h
      rw [List.foldlM_cons, digit?_of_isDigit hc, Nat.ofDigitChars_cons]
      exact ih hcs _
  rw [ofDigits?, if_neg hne, hfold]

/-- **The text of a number** spells that number. -/
theorem integer?_toDigits (n : Nat) : integer? (Nat.toDigits 10 n) = some (n : Int) := by
  have hdigits := FloatText.toDigits_digits n
  have hmagnitude : magnitude? (Nat.toDigits 10 n) = some n := by
    rcases Nat.eq_zero_or_pos n with rfl | hn
    · rfl
    · have hhead := head?_toDigits hn
      unfold magnitude?
      split
      · next he => exact absurd (congrArg List.head? he) hhead
      · next he => exact absurd (congrArg List.head? he) hhead
      · next he => exact absurd (congrArg List.head? he) hhead
      · next he => exact absurd (congrArg List.head? he) hhead
      · rw [ofDigits?_digits Nat.toDigits_ne_nil hdigits, Nat.ofDigitChars_ten_toDigits]
  unfold integer?
  split
  · next he => exact absurd (hdigits '-' (he ▸ List.mem_cons_self)) (by decide)
  · next he => exact absurd (hdigits '+' (he ▸ List.mem_cons_self)) (by decide)
  · rw [hmagnitude]
    rfl

theorem toList_toString (n : Nat) : (toString n).toList = Nat.toDigits 10 n := by
  simp

theorem count?_toString (w : UInt64) : (Scalar.plain (toString w.toNat)).count? = some w := by
  have hdigits := FloatText.toDigits_digits w.toNat
  unfold Scalar.count?
  simp only [toList_toString]
  split
  · next he => exact absurd (hdigits '-' (he ▸ List.mem_cons_self)) (by decide)
  · rw [integer?_toDigits, Option.bind_some, if_pos (by exact_mod_cast w.toNat_lt)]
    simp

theorem word?_toString {w : Int64} (h : 0 ≤ w.toInt) :
    (Scalar.plain (toString w.toInt)).word? = some w := by
  rw [Scalar.word?, integer_toList, if_neg (by omega), List.nil_append, integer?_toDigits,
    Option.bind_some]
  exact Word.ofInt?_eq_some_iff.2 (Int.natAbs_of_nonneg h).symm

/-! ## Written rows -/

/-- The text is a name that is not too long to stand in front of a colon. -/
structure IsName (name : String) : Prop where
  isWord : IsWord name.toList
  length_le : name.length ≤ 128

end Yaml

open Yaml

/-- The datum is spelled by letters and digits. -/
def Datum.IsPlain : Datum → Prop
  | .count _ | .flag _ => True
  | .word n => 0 ≤ n.toInt
  | .variant name => IsName name

namespace Yaml

/-- A quote ends the text that it began. -/
theorem spanSingle_word (h : ∀ c ∈ cs, isWordChar c = true) :
    spanSingle (cs ++ ['\x27']) = some (cs, []) := by
  induction cs with
  | nil => rfl
  | cons c cs ih =>
    obtain ⟨hc, hcs⟩ := List.forall_mem_cons.1 h
    have hquote : c ≠ '\x27' := ne_of_isWordChar hc (by decide)
    rw [List.cons_append]
    unfold spanSingle
    split
    · next he => cases he
    · next he => exact absurd (List.cons.inj he).1 hquote
    · next he =>
      obtain ⟨rfl, rfl⟩ := List.cons.inj he
      rw [if_neg hquote, ih hcs]
      rfl

theorem isScalar_quoted (h : IsWord cs) :
    IsScalar ('\x27' :: (cs ++ ['\x27'])) (.quoted (String.ofList cs)) where
  begins := ⟨'\x27', _, rfl, by decide, by decide⟩
  read := by
    rw [scalar?, spanSingle_word h.chars]
    rfl

/-- The text of the scalar is a word. -/
def Scalar.IsSpelled (v : Scalar) : Prop :=
  IsWord v.text.toList

theorem Scalar.isScalar_render {v : Scalar} (h : v.IsSpelled) : IsScalar v.render.toList v := by
  cases v with
  | plain text =>
    have hread := isScalar_word h
    rwa [String.ofList_toList] at hread
  | quoted text =>
    have hread := isScalar_quoted h
    rw [String.ofList_toList] at hread
    have hquotes : (quoted text).render.toList = '\x27' :: (text.toList ++ ['\x27']) := by
      simp [render]
    rwa [hquotes]

theorem Scalar.printable_render {v : Scalar} (h : v.IsSpelled) :
    ∀ c ∈ v.render.toList, 0x20 ≤ c.toNat ∧ c.toNat < 0x7F := by
  have htext : ∀ c ∈ v.text.toList, 0x20 ≤ c.toNat ∧ c.toNat < 0x7F := fun c hc =>
    printable_of_isWordChar (h.chars c hc)
  cases v with
  | plain text => exact htext
  | quoted text =>
    intro c hc
    obtain rfl | hc : c = '\x27' ∨ c ∈ text.toList := by
      simpa [render, or_comm, or_assoc] using hc
    · decide
    · exact htext c hc

theorem isWord_toString (n : Nat) : IsWord (toString n).toList := by
  rw [toList_toString]
  exact isWord_toDigits n

theorem text_variant (name : String) : (Scalar.ofDatum (.variant name)).text = name := by
  rw [Scalar.ofDatum]
  split <;> rfl

/-- A plain datum is written as a word, perhaps in quotes. -/
theorem isSpelled_ofDatum {d : Datum} (h : d.IsPlain) : (Scalar.ofDatum d).IsSpelled := by
  cases d with
  | count n => exact isWord_toString n.toNat
  | word n =>
    have hword : IsWord (toString n.toInt).toList := by
      rw [integer_toList, if_neg (Int.not_lt.2 h), List.nil_append]
      exact isWord_toDigits _
    exact hword
  | flag b => cases b <;> exact isWord_of_all (by decide) (by decide)
  | variant name =>
    rw [Scalar.IsSpelled, text_variant]
    exact h.isWord

/-- **The line of a row** holds the row. -/
theorem isRow_renderRow {row : String × Datum} (hname : IsName row.1) (hdatum : row.2.IsPlain) :
    IsRow (renderRow row).toList (row.1, Scalar.ofDatum row.2) := by
  have hword := hname.isWord
  have hspelled := isSpelled_ofDatum hdatum
  have hline : (renderRow row).toList =
      row.1.toList ++ ':' :: ' ' :: (Scalar.ofDatum row.2).render.toList := by
    simp [renderRow]
  rw [hline]
  refine ⟨?_, ?_, ?_⟩
  · obtain ⟨c, rest, hcons⟩ := List.exists_cons_of_ne_nil hword.ne_nil
    rw [hcons]
    exact ⟨c, _, rfl, hword.chars c (hcons ▸ List.mem_cons_self)⟩
  · refine List.forall_mem_append.2 ⟨fun c hc => printable_of_isWordChar (hword.chars c hc), ?_⟩
    exact List.forall_mem_cons.2 ⟨by decide, List.forall_mem_cons.2
      ⟨by decide, Scalar.printable_render hspelled⟩⟩
  · rw [row?_pair hword (Scalar.isScalar_render hspelled), String.ofList_toList]

/-- The text of written rows. -/
theorem toList_writeRows (rows : List (String × Datum)) :
    (writeRows rows).toList = Rows.text (rows.map fun row =>
      ((renderRow row).toList, (row.1, Scalar.ofDatum row.2))) := by
  rw [writeRows, String.toList_join, List.flatMap_map, Rows.text, List.flatMap_map]
  exact List.flatMap_congr fun row _ => by simp

/-- **Written rows** are read again. -/
theorem readRows?_writeRows {rows : List (String × Datum)} (hnames : ∀ row ∈ rows, IsName row.1)
    (hdata : ∀ row ∈ rows, row.2.IsPlain) :
    readRows? (writeRows rows) = some (rows.map fun row => (row.1, Scalar.ofDatum row.2)) := by
  have hrows : ∀ r ∈ rows.map (fun row =>
      ((renderRow row).toList, (row.1, Scalar.ofDatum row.2))), IsRow r.1 r.2 :=
    List.forall_mem_map.2 fun row hrow => isRow_renderRow (hnames row hrow) (hdata row hrow)
  have hread := readRows?_isRow hrows
  rwa [← toList_writeRows, String.ofList_toList, List.map_map] at hread

end Yaml

end StreamSql
