/-
  The words in the text of an expression: names and constants.

  * `Token.isName`, `Token.isPath`: the names that need no quotes, without and with points;
  * `Vocabulary.plain`: such names, and constants that are not infinite floats;
  * `Ends`: what may follow an expression, and ends every word before it;
  * `word_inj`, `quote_inj`: the text of a name or of a constant determines it.
-/
import StreamSql.Proofs.Grammar
import StreamSql.Proofs.NumberText

namespace StreamSql

/-! ## Names -/

namespace Token

/-- A character with which names begin. -/
def beginsName (c : Char) : Bool :=
  Text.isLetter c || c = '_'

/-- A name that needs no quotes in a query. -/
def isName (name : String) : Bool :=
  match name.toList with
  | [] => false
  | c :: cs => beginsName c && cs.all continuesWord && TokenKind.ofWord name = .identifier

/-- Names with points between them. -/
def isPath (name : String) : Bool :=
  (name.toList.splitOn '.').all fun s => isName (String.ofList s)

/-- A character of names and numbers. -/
def isBare (c : Char) : Bool :=
  continuesWord c || c = '.' || c = '-'

theorem isName_toList {name : String} (h : isName name = true) :
    ∃ c cs, name.toList = c :: cs ∧ beginsName c = true ∧
      ∀ d ∈ c :: cs, continuesWord d = true := by
  unfold isName at h
  split at h
  · cases h
  · next c cs hcs =>
    simp only [Bool.and_eq_true, decide_eq_true_iff, List.all_eq_true] at h
    obtain ⟨⟨hc, hall⟩, -⟩ := h
    refine ⟨c, cs, hcs, hc, List.forall_mem_cons.2 ⟨?_, hall⟩⟩
    simp only [beginsName, Bool.or_eq_true, decide_eq_true_iff] at hc
    rcases hc with hc | rfl
    · simp [continuesWord, Text.isLetterOrNumeral, hc]
    · rfl

theorem mem_of_mem_intercalate {α : Type} {segments : List (List α)} {separator d : α}
    (h : d ∈ [separator].intercalate segments) : d = separator ∨ ∃ s ∈ segments, d ∈ s := by
  induction segments with
  | nil => simp at h
  | cons s rest ih =>
    cases rest with
    | nil => exact Or.inr ⟨s, List.mem_cons_self, by simpa using h⟩
    | cons s' rest =>
      rw [List.intercalate_cons_cons, List.mem_append, List.mem_append, List.mem_singleton] at h
      rcases h with (h | h) | h
      · exact Or.inr ⟨s, List.mem_cons_self, h⟩
      · exact Or.inl h
      · exact (ih h).imp_right fun ⟨t, ht, hd⟩ => ⟨t, List.mem_cons_of_mem _ ht, hd⟩

theorem isPath_toList {name : String} (h : isPath name = true) :
    ∃ c cs, name.toList = c :: cs ∧ beginsName c = true ∧
      ∀ d ∈ c :: cs, isBare d = true := by
  have hnames : ∀ s ∈ name.toList.splitOn '.', isName (String.ofList s) = true := by
    simpa [isPath] using h
  have hjoin : ['.'].intercalate (name.toList.splitOn '.') = name.toList :=
    List.intercalate_splitOn '.'
  have hbare : ∀ d ∈ name.toList, isBare d = true := fun d hd => by
    rw [← hjoin] at hd
    rcases mem_of_mem_intercalate hd with rfl | ⟨s, hs, hd⟩
    · rfl
    · obtain ⟨c, cs, hcs, -, hall⟩ := isName_toList (hnames s hs)
      rw [String.toList_ofList] at hcs
      rw [isBare, hall d (hcs ▸ hd)]
      rfl
  obtain ⟨s, rest, hsplit⟩ := List.exists_cons_of_ne_nil (List.splitOn_ne_nil '.' name.toList)
  obtain ⟨c, cs, hcs, hc, -⟩ := isName_toList (hnames s (hsplit ▸ List.mem_cons_self))
  rw [String.toList_ofList] at hcs
  obtain ⟨tail, htail⟩ : ∃ tail, name.toList = c :: tail := by
    rw [← hjoin, hsplit, hcs]
    cases rest with
    | nil => exact ⟨cs, by simp⟩
    | cons s' rest => exact ⟨_, by rw [List.intercalate_cons_cons]; rfl⟩
  exact ⟨c, tail, htail, hc, htail ▸ hbare⟩

/-- The words that stand inside or in front of operands. -/
def inner : List String := ["NOT", "CASE", "WHEN"]

theorem ne_inner_of_isPath {name : String} (h : isPath name = true) : name ∉ inner := by
  intro hi
  have hall : ∀ word ∈ inner, isPath word = false := by decide
  rw [hall name hi] at h
  cases h

end Token

/-! ## Names in upper case -/

namespace Text

theorem toNat_ofNat_ne {n : Nat} (h : n ≠ 40) : (Char.ofNat n).toNat ≠ 40 := by
  by_cases hv : n.isValidChar
  · rwa [show Char.ofNat n = Char.ofNatAux n hv from dif_pos hv]
  · rw [show Char.ofNat n = '\x00' from dif_neg hv]
    decide

/-- No other character becomes a parenthesis in upper case. -/
theorem paren_not_mem_upperChar {c : Char} (h : c ≠ '(') : '(' ∉ upperChar c := by
  have hofNat : ∀ n : Nat, n ≠ 40 → '(' ≠ Char.ofNat n := fun n hn he =>
    toNat_ofNat_ne hn (congrArg Char.toNat he).symm
  have hsequences : ∀ p ∈ upperSequences, 40 ∉ p.2 := by decide +kernel
  have hruns : ∀ run ∈ upperRuns, (40 : Int) < run.first + run.shift := by decide +kernel
  intro hmem
  unfold upperChar at hmem
  split at hmem
  · have hupper : '(' = c.toUpper := List.mem_singleton.1 hmem
    by_cases hlower : 'a'.val ≤ c.val ∧ c.val ≤ 'z'.val
    · rw [show c.toUpper = _ from dif_pos hlower] at hupper
      have hval := congrArg (fun d : Char => d.val.toNat) hupper
      have hrange : 97 ≤ c.val.toNat ∧ c.val.toNat ≤ 122 := by
        simpa [UInt32.le_iff_toNat_le] using hlower
      have hshift : ('A'.val - 'a'.val).toNat = 4294967264 := rfl
      have hparen : '('.val.toNat = 40 := rfl
      simp only [UInt32.toNat_add, hshift, hparen] at hval
      omega
    · exact h (hupper.trans (dif_neg hlower)).symm
  · unfold mapByTable at hmem
    split at hmem
    · next ns hns =>
      obtain ⟨n, hn, he⟩ := List.mem_map.1 hmem
      obtain ⟨l₁, l₂, hl, -⟩ := List.lookup_eq_some_iff.1 hns
      refine hofNat n (fun h40 => ?_) he.symm
      exact hsequences (c.toNat, ns) (by rw [hl]; simp) (h40 ▸ hn)
    · split at hmem
      · next n hn =>
        obtain ⟨run, hrun, himage⟩ := List.exists_of_findSome?_eq_some hn
        refine hofNat n (fun h40 => ?_) (List.mem_singleton.1 hmem)
        unfold CaseRun.image? at himage
        split at himage
        · next hrange =>
          have hlt := hruns run hrun
          have hvalue := Option.some.inj himage
          omega
        · cases himage
      · exact h (List.mem_singleton.1 hmem).symm

theorem upperChar_toLower {c : Char} (h : 'A'.val ≤ c.val ∧ c.val ≤ 'Z'.val) :
    upperChar c.toLower = upperChar c := by
  have hall : ∀ n < 26,
      upperChar (Char.ofNat (65 + n)).toLower = upperChar (Char.ofNat (65 + n)) := by
    decide
  have hrange : 65 ≤ c.toNat ∧ c.toNat ≤ 90 := by
    simpa [UInt32.le_iff_toNat_le] using h
  have hc := hall (c.toNat - 65) (by omega)
  rwa [Nat.add_sub_cancel' hrange.1, Char.ofNat_toNat] at hc

theorem upperChar_of_toLower {c d : Char} (h : c.toLower = d.toLower) :
    upperChar c = upperChar d := by
  by_cases hc : 'A'.val ≤ c.val ∧ c.val ≤ 'Z'.val
  · rw [← upperChar_toLower hc, h]
    by_cases hd : 'A'.val ≤ d.val ∧ d.val ≤ 'Z'.val
    · exact upperChar_toLower hd
    · rw [show d.toLower = d from dif_neg hd]
  · have hc' : c.toLower = c := dif_neg hc
    by_cases hd : 'A'.val ≤ d.val ∧ d.val ≤ 'Z'.val
    · rw [← upperChar_toLower hd, ← h, hc']
    · rw [← hc', h, show d.toLower = d from dif_neg hd]

/-- Names that only differ in the case of ASCII letters are equal in upper case. -/
theorem upper_of_sameAscii {a b : String} (h : sameAscii a b = true) : upper a = upper b := by
  have hlower : a.toList.map Char.toLower = b.toList.map Char.toLower := by
    have hfold : foldAscii a = foldAscii b := eq_of_beq h
    simpa [foldAscii] using congrArg String.toList hfold
  have hall : ∀ {cs ds : List Char}, cs.map Char.toLower = ds.map Char.toLower →
      cs.flatMap upperChar = ds.flatMap upperChar := fun {cs} => by
    induction cs with
    | nil =>
      intro ds h
      rw [List.map_eq_nil_iff.1 h.symm]
    | cons c cs ih =>
      intro ds h
      cases ds with
      | nil => cases h
      | cons d ds =>
        obtain ⟨hhead, htail⟩ := List.cons.inj h
        rw [List.flatMap_cons, List.flatMap_cons, upperChar_of_toLower hhead, ih htail]
  rw [upper, upper, hall hlower]

end Text

/-! ## Texts that end where they are seen to end -/

/-- The text does not begin with a character of this kind. -/
def Stops (p : Char → Bool) (text : List Char) : Prop :=
  ∀ c ∈ text.head?, p c = false

/-- The run of characters of a kind at the beginning of a text. -/
theorem run_inj {p : Char → Bool} {run run' rest rest' : List Char} (h : ∀ c ∈ run, p c = true)
    (h' : ∀ c ∈ run', p c = true) (hs : Stops p rest) (hs' : Stops p rest')
    (he : run ++ rest = run' ++ rest') : run = run' ∧ rest = rest' := by
  induction run generalizing run' with
  | nil =>
    cases run' with
    | nil => exact ⟨rfl, he⟩
    | cons c cs =>
      obtain rfl : rest = c :: (cs ++ rest') := he
      exact absurd ((hs c rfl).symm.trans (h' c List.mem_cons_self)) (by decide)
  | cons c cs ih =>
    cases run' with
    | nil =>
      obtain rfl : c :: (cs ++ rest) = rest' := he
      exact absurd ((hs' c rfl).symm.trans (h c List.mem_cons_self)) (by decide)
    | cons d ds =>
      obtain ⟨rfl, htail⟩ := List.cons.inj he
      obtain ⟨rfl, hrest⟩ := ih (fun x hx => h x (List.mem_cons_of_mem _ hx))
        (fun x hx => h' x (List.mem_cons_of_mem _ hx)) htail
      exact ⟨rfl, hrest⟩

/-- What may follow an expression. -/
def Ends (text : List Char) : Prop :=
  ∀ c ∈ text.head?, c = ' ' ∨ c = ')' ∨ c = ','

theorem Ends.stops {text : List Char} (h : Ends text) : Stops Token.isBare text := by
  intro c hc
  rcases h c hc with rfl | rfl | rfl <;> rfl

namespace Expr

/-- Names without quotes and finite constants. -/
def Vocabulary.plain : Vocabulary where
  column name := Token.isPath name = true
  call name _ := Token.isName name = true
  literal
    | .float x => x.isFinite = true
    | _ => True

/-- The characters of the text. -/
def chars (e : Expr) : List Char := e.render.toList

/-! ## Numbers -/

/-- A number: digits, perhaps with a sign in front and a point in between. -/
def IsNumeral (text : List Char) : Prop :=
  ∃ (negative : Bool) (c : Char) (cs : List Char),
    text = (FloatText.sign negative).toList ++ c :: cs ∧ c.isDigit = true ∧
      ∀ d ∈ cs, d.isDigit = true ∨ d = '.'

theorem isBare_of_isDigit {c : Char} (h : c.isDigit = true) : Token.isBare c = true := by
  have hlt : c.toNat < 0x80 := by
    simp only [Char.isDigit, Bool.and_eq_true, decide_eq_true_iff] at h
    have h9 : '9'.val.toNat = 57 := rfl
    have := UInt32.le_iff_toNat_le.1 h.2
    simp only [Char.toNat]
    omega
  simp [Token.isBare, Token.continuesWord, Text.isLetterOrNumeral, Text.isNumeral_of_ascii hlt, h]

theorem IsNumeral.bare {text : List Char} (h : IsNumeral text) :
    ∀ c ∈ text, Token.isBare c = true := by
  obtain ⟨negative, c, cs, rfl, hc, hcs⟩ := h
  intro d hd
  rcases List.mem_append.1 hd with hd | hd
  · cases negative
    · cases hd
    · rw [List.mem_singleton.1 hd]
      rfl
  · rcases List.mem_cons.1 hd with rfl | hd
    · exact isBare_of_isDigit hc
    · rcases hcs d hd with hd | rfl
      · exact isBare_of_isDigit hd
      · rfl

theorem isNumeral_integer (n : Int) : IsNumeral (toString n).toList := by
  obtain ⟨c, cs, hcs⟩ := List.exists_cons_of_ne_nil (Nat.toDigits_ne_nil (n := n.natAbs) (b := 10))
  have hdigits := FloatText.toDigits_digits n.natAbs
  rw [hcs] at hdigits
  refine ⟨n < 0, c, cs, ?_, hdigits c List.mem_cons_self,
    fun d hd => Or.inl (hdigits d (List.mem_cons_of_mem _ hd))⟩
  rw [integer_toList, hcs]
  by_cases hn : n < 0 <;> simp [hn, FloatText.sign]

theorem isNumeral_float {x : Double} (h : x.isFinite = true) :
    IsNumeral (FloatText.literal x).toList ∧ '.' ∈ (FloatText.literal x).toList := by
  obtain ⟨_, whole, fraction, _, _, -, -, -, hs, ht⟩ := FloatText.literal_spelling h
  obtain ⟨c, cs, rfl⟩ := List.exists_cons_of_ne_nil hs.whole_ne_nil
  rw [ht]
  refine ⟨⟨_, c, cs ++ '.' :: fraction, rfl, hs.whole_digits c List.mem_cons_self,
    fun d hd => ?_⟩, by simp⟩
  rcases List.mem_append.1 hd with hd | hd
  · exact Or.inl (hs.whole_digits d (List.mem_cons_of_mem _ hd))
  · rcases List.mem_cons.1 hd with rfl | hd
    · exact Or.inr rfl
    · exact Or.inl (hs.fraction_digits d hd)

theorem not_beginsName_of_isDigit {c : Char} (h : c.isDigit = true) :
    Token.beginsName c = false := by
  obtain ⟨h0, h9⟩ : 48 ≤ c.toNat ∧ c.toNat ≤ 57 := Char.isDigit_iff_toNat.1 h
  have hlt : c.toNat < 0x80 := by omega
  have hne : c ≠ '_' := by
    rintro rfl
    exact absurd h9 (by decide)
  have hletter : c.isAlpha = false :=
    Bool.eq_false_iff.2 fun ha => by
      have := Text.isAlpha_iff_toNat.1 ha
      omega
  simp [Token.beginsName, Text.isLetter_of_ascii hlt, hletter, hne]

theorem IsNumeral.head {text : List Char} (h : IsNumeral text) :
    ∃ c cs, text = c :: cs ∧
      (c.isDigit = true ∨ c = '-' ∧ ∃ d ds, cs = d :: ds ∧ d.isDigit = true) := by
  obtain ⟨negative, c, cs, rfl, hc, -⟩ := h
  cases negative with
  | false => exact ⟨c, cs, rfl, Or.inl hc⟩
  | true => exact ⟨'-', c :: cs, rfl, Or.inr ⟨rfl, c, cs, rfl, hc⟩⟩

/-- No name begins like a number. -/
theorem IsNumeral.not_beginsName {c : Char} {cs : List Char} (h : IsNumeral (c :: cs)) :
    Token.beginsName c = false := by
  obtain ⟨_, _, he, hc⟩ := h.head
  obtain ⟨rfl, rfl⟩ := List.cons.inj he
  rcases hc with hc | ⟨rfl, -⟩
  · exact not_beginsName_of_isDigit hc
  · rfl

theorem isNumeral_of_isNumber {e : Expr} (h : Grammatical .plain e) (hn : e.isNumber = true) :
    IsNumeral e.chars := by
  unfold isNumber at hn
  split at hn
  · exact isNumeral_integer _
  · cases h with
    | literal hfinite => exact (isNumeral_float hfinite).1
  · cases hn

theorem number_inj {e e' : Expr} (h : Grammatical .plain e) (h' : Grammatical .plain e')
    (hn : e.isNumber = true) (hn' : e'.isNumber = true) (he : e.chars = e'.chars) : e = e' := by
  have hmixed : ∀ (n : Int64) (x : Double), x.isFinite = true →
      (literal (.integer n)).chars ≠ (literal (.float x)).chars := fun n x hx hc => by
    have hpoint : '.' ∈ (literal (.integer n)).chars := by rw [hc]; exact (isNumeral_float hx).2
    rw [chars, render, Literal.render, integer_toList, List.mem_append] at hpoint
    rcases hpoint with hp | hp
    · split at hp <;> simp at hp
    · exact absurd (FloatText.toDigits_digits _ _ hp) (by decide)
  unfold isNumber at hn hn'
  split at hn
  · next n =>
    split at hn'
    · next n' =>
      rw [Int64.toInt_inj.1 (integer_inj (String.toList_injective he))]
    · next x' =>
      cases h' with
      | literal hx' => exact absurd he (hmixed n x' hx')
    · cases hn'
  · next x =>
    cases h with
    | literal hx =>
      split at hn'
      · next n' => exact absurd he.symm (hmixed n' x hx)
      · next x' =>
        cases h' with
        | literal hx' => rw [FloatText.literal_inj hx hx' (String.toList_injective he)]
      · cases hn'
  · cases hn

/-! ## Words -/

/-- The tree is a name, or a constant that is not a text. -/
def isWord : Expr → Bool
  | .column _ => true
  | .literal (.text _) => false
  | .literal _ => true
  | _ => false

/-- The constants that are written as keywords. -/
def keywords : List Expr := [literal (.boolean true), literal (.boolean false), literal .null]

/-- A word is a number, a keyword or a name. -/
theorem word_cases {e : Expr} (h : Grammatical .plain e) (hw : e.isWord = true) :
    e.isNumber = true ∨ e ∈ keywords ∨ ∃ name, e = column name ∧ Token.isPath name = true := by
  cases h with
  | column hname => exact Or.inr (Or.inr ⟨_, rfl, hname⟩)
  | @literal value _ =>
    match value, hw with
    | .integer _, _ => exact Or.inl rfl
    | .float _, _ => exact Or.inl rfl
    | .boolean true, _ => exact Or.inr (Or.inl (by simp [keywords]))
    | .boolean false, _ => exact Or.inr (Or.inl (by simp [keywords]))
    | .null, _ => exact Or.inr (Or.inl (by simp [keywords]))
  | _ => cases hw

theorem isPath_keyword : ∀ e ∈ keywords, Token.isPath e.render = false := by
  simp only [keywords, List.forall_mem_cons]
  decide

/-- A word that is not a number begins like a name. -/
theorem beginsName_of_word {e : Expr} (h : Grammatical .plain e) (hw : e.isWord = true)
    (hn : e.isNumber = false) : ∃ c cs, e.chars = c :: cs ∧ Token.beginsName c = true ∧
      ∀ d ∈ c :: cs, Token.isBare d = true := by
  rcases word_cases h hw with hnumber | hkeyword | ⟨name, rfl, hpath⟩
  · rw [hnumber] at hn
    cases hn
  · simp only [keywords, List.mem_cons, List.not_mem_nil, or_false] at hkeyword
    rcases hkeyword with rfl | rfl | rfl
    all_goals exact ⟨_, _, rfl, by decide, List.all_eq_true.1 (by decide)⟩
  · exact Token.isPath_toList hpath

/-- **The text of a word** determines it. -/
theorem word_inj {e e' : Expr} (h : Grammatical .plain e) (h' : Grammatical .plain e')
    (hw : e.isWord = true) (hw' : e'.isWord = true) (he : e.chars = e'.chars) : e = e' := by
  have hapart : ∀ {a b : Expr}, Grammatical .plain a → Grammatical .plain b →
      b.isWord = true → a.isNumber = true → b.isNumber = false → a.chars ≠ b.chars :=
    fun ha hb hbw han hbn hc => by
      obtain ⟨c, cs, hchars, hbegin, -⟩ := beginsName_of_word hb hbw hbn
      have hnumeral := isNumeral_of_isNumber ha han
      rw [hc, hchars] at hnumeral
      rw [hnumeral.not_beginsName] at hbegin
      cases hbegin
  cases hn : e.isNumber with
  | true =>
    cases hn' : e'.isNumber with
    | true => exact number_inj h h' hn hn' he
    | false => exact absurd he (hapart h h' hw' hn hn')
  | false =>
    cases hn' : e'.isNumber with
    | true => exact absurd he.symm (hapart h' h hw hn' hn)
    | false =>
      have hrender : e.render = e'.render := String.toList_injective he
      rcases word_cases h hw with hx | hkeyword | ⟨name, rfl, hpath⟩
      · exact absurd hx (by rw [hn]; decide)
      · rcases word_cases h' hw' with hx | hkeyword' | ⟨name', rfl, hpath'⟩
        · exact absurd hx (by rw [hn']; decide)
        · simp only [keywords, List.mem_cons, List.not_mem_nil, or_false] at hkeyword hkeyword'
          rcases hkeyword with rfl | rfl | rfl <;> rcases hkeyword' with rfl | rfl | rfl
          all_goals first | rfl | exact absurd hrender (by decide)
        · have hfalse := isPath_keyword e hkeyword
          rw [hrender, render, hpath'] at hfalse
          cases hfalse
      · rcases word_cases h' hw' with hx | hkeyword' | ⟨name', rfl, hpath'⟩
        · exact absurd hx (by rw [hn']; decide)
        · have hfalse := isPath_keyword e' hkeyword'
          rw [← hrender, render, hpath] at hfalse
          cases hfalse
        · rw [render, render] at hrender
          rw [hrender]

/-- All characters of a word are those of names and numbers. -/
theorem bare_of_word {e : Expr} (h : Grammatical .plain e) (hw : e.isWord = true) :
    ∀ c ∈ e.chars, Token.isBare c = true := by
  cases hn : e.isNumber with
  | true => exact (isNumeral_of_isNumber h hn).bare
  | false =>
    obtain ⟨c, cs, hchars, -, hbare⟩ := beginsName_of_word h hw hn
    exact hchars ▸ hbare

/-- No word is one that stands inside or in front of operands. -/
theorem not_inner_of_word {e : Expr} (h : Grammatical .plain e) (hw : e.isWord = true) :
    e.render ∉ Token.inner := by
  rcases word_cases h hw with hnumber | hkeyword | ⟨name, rfl, hpath⟩
  · intro hi
    have hnumeral := isNumeral_of_isNumber h hnumber
    have hletter : ∀ word ∈ Token.inner,
        ∃ c cs, word.toList = c :: cs ∧ Token.beginsName c = true := by
      simp only [Token.inner, List.forall_mem_cons]
      exact ⟨⟨_, _, rfl, by decide⟩, ⟨_, _, rfl, by decide⟩, ⟨_, _, rfl, by decide⟩, nofun⟩
    obtain ⟨c, cs, hchars, hbegin⟩ := hletter _ hi
    rw [chars, hchars] at hnumeral
    rw [hnumeral.not_beginsName] at hbegin
    cases hbegin
  · simp only [keywords, List.mem_cons, List.not_mem_nil, or_false] at hkeyword
    rcases hkeyword with rfl | rfl | rfl <;> decide
  · exact Token.ne_inner_of_isPath hpath

/-! ## Texts in quotes -/

/-- The characters with each quote doubled. -/
def quoted (text : List Char) : List Char :=
  text.flatMap fun c => if c = '\x27' then [c, c] else [c]

theorem chars_text (s : String) :
    (literal (.text s)).chars = '\x27' :: (quoted s.toList ++ ['\x27']) := by
  simp [chars, render, Literal.render, doubleQuotes, quoted]

/-- **A quoted text** ends at the first quote that is not doubled. -/
theorem quote_inj {s s' rest rest' : List Char} (hr : ∀ c ∈ rest.head?, c ≠ '\x27')
    (hr' : ∀ c ∈ rest'.head?, c ≠ '\x27')
    (h : quoted s ++ '\x27' :: rest = quoted s' ++ '\x27' :: rest') : s = s' ∧ rest = rest' := by
  have hend : ∀ {a b : List Char} {t : List Char}, (∀ c ∈ a.head?, c ≠ '\x27') →
      '\x27' :: a ≠ quoted ('\x27' :: t) ++ b := fun ha he => by
    simp only [quoted, List.flatMap_cons, if_true, List.cons_append, List.nil_append,
      List.cons.injEq, true_and] at he
    exact ha '\x27' (by rw [he]; rfl) rfl
  have hfirst : ∀ {c : Char} {t b : List Char}, c ≠ '\x27' →
      quoted (c :: t) ++ b = c :: (quoted t ++ b) := fun hc => by simp [quoted, hc]
  induction s generalizing s' with
  | nil =>
    cases s' with
    | nil => exact ⟨rfl, by simpa [quoted] using h⟩
    | cons c t =>
      by_cases hc : c = '\x27'
      · subst hc
        exact absurd h (hend hr)
      · rw [hfirst hc] at h
        exact absurd (List.cons.inj h).1.symm hc
  | cons c t ih =>
    cases s' with
    | nil =>
      by_cases hc : c = '\x27'
      · subst hc
        exact absurd h.symm (hend hr')
      · rw [hfirst hc] at h
        exact absurd (List.cons.inj h).1 hc
    | cons d u =>
      by_cases hc : c = '\x27'
      · subst hc
        by_cases hd : d = '\x27'
        · subst hd
          have htail : quoted t ++ '\x27' :: rest = quoted u ++ '\x27' :: rest' := by
            simpa [quoted] using h
          obtain ⟨rfl, hrest⟩ := ih htail
          exact ⟨rfl, hrest⟩
        · rw [hfirst hd] at h
          exact absurd (List.cons.inj h).1.symm hd
      · by_cases hd : d = '\x27'
        · subst hd
          rw [hfirst hc] at h
          exact absurd (List.cons.inj h).1 hc
        · rw [hfirst hc, hfirst hd] at h
          obtain ⟨rfl, htail⟩ := List.cons.inj h
          obtain ⟨rfl, hrest⟩ := ih htail
          exact ⟨rfl, hrest⟩

end Expr

end StreamSql
