/-
  Texts and their tokens.

  * `Symbol.source`: how a symbol is written;
  * `Lexes text ls`: the tokens of the text have these symbols.  A symbol may be written in front
    of such a text if that does not go on with it (`Lexes.symbol`);
  * `Token.isName_of_tokenize`, `Token.digit_of_tokenize`: what names without quotes and numbers
    look like.
-/
import Mathlib.Data.List.TakeWhile
import Mathlib.Tactic.Common
import StreamSql.Proofs.Derivation
import StreamSql.Proofs.Words

namespace StreamSql

/-! ## How symbols are written -/

namespace TokenKind

/-- How a token is written whose text does not count. -/
def spelling : TokenKind → String
  | select => "SELECT" | distinct => "DISTINCT" | «from» => "FROM" | «where» => "WHERE"
  | group => "GROUP" | by_ => "BY" | having => "HAVING" | limit => "LIMIT" | as_ => "AS"
  | with_ => "WITH" | null => "NULL" | true_ => "TRUE" | false_ => "FALSE" | case_ => "CASE"
  | when_ => "WHEN" | then_ => "THEN" | else_ => "ELSE" | end_ => "END" | is_ => "IS" | in_ => "IN"
  | not_ => "NOT" | between => "BETWEEN" | like => "LIKE" | and_ => "AND" | or_ => "OR"
  | leftParen => "(" | rightParen => ")" | comma => "," | asterisk => "*" | dot => "."
  | semicolon => ";" | plus => "+" | minus => "-" | divide => "/" | percent => "%"
  | concat => "||" | equal => "=" | notEqual => "!=" | lessThan => "<" | greaterThan => ">"
  | lessThanOrEqual => "<=" | greaterThanOrEqual => ">="
  | identifier | text | number | eof => ""

/-- The token is a word of the language. -/
def isWord (kind : TokenKind) : Bool :=
  keywords.any fun p => p.2 = kind

end TokenKind

namespace Symbol

/-- How a symbol is written. -/
def source : Symbol → List Char
  | name s | number s => s.toList
  | text s => '\x27' :: (Expr.quoted s.toList ++ ['\x27'])
  | mark kind => kind.spelling.toList

/-- In front of this character the symbol would be another one. -/
def goesOn : Symbol → Char → Bool
  | name _, c => Token.continuesWord c
  | number _, c => Token.isBare c
  | text _, c => c = '\x27'
  | mark .minus, c => c = '-'
  | mark .divide, c => c = '*'
  | mark .equal, c | mark .greaterThan, c => c = '='
  | mark .lessThan, c => c = '=' || c = '>'
  | mark kind, c => kind.isWord && Token.continuesWord c

/-- Digits, perhaps with a point between them. -/
def IsDecimal (text : List Char) : Prop :=
  ∃ c whole fraction, text = c :: (whole ++ fraction) ∧ c.isDigit = true ∧
    (∀ d ∈ whole, d.isDigit = true) ∧
    (fraction = [] ∨ ∃ d ds, fraction = '.' :: d :: ds ∧ ∀ x ∈ d :: ds, x.isDigit = true)

/-- The symbol can be written. -/
def IsSpelled : Symbol → Prop
  | name s => Token.isName s = true
  | number s => IsDecimal s.toList
  | text _ => True
  | mark kind => kind.spelling ≠ ""

theorem isSpelled_mark {kind : TokenKind} : (mark kind).IsSpelled ↔ kind.spelling ≠ "" := Iff.rfl

/-- The symbols can be written. -/
def AllSpelled (ls : List Symbol) : Prop := ∀ s ∈ ls, s.IsSpelled

@[simp]
theorem allSpelled_nil : AllSpelled [] := nofun

@[simp]
theorem allSpelled_cons {s : Symbol} {ls : List Symbol} :
    AllSpelled (s :: ls) ↔ s.IsSpelled ∧ AllSpelled ls := List.forall_mem_cons

@[simp]
theorem allSpelled_append {ls ls' : List Symbol} :
    AllSpelled (ls ++ ls') ↔ AllSpelled ls ∧ AllSpelled ls' := List.forall_mem_append

/-- A blank ends every symbol. -/
theorem stops_blank (s : Symbol) (text : List Char) : Stops s.goesOn (' ' :: text) := by
  rintro _ ⟨⟩
  cases s with
  | name | number | text => rfl
  | mark kind => cases kind <;> rfl

end Symbol

namespace Token

open StreamSql.Symbol

/-- The tokens of the text have these symbols. -/
def Lexes (text : List Char) (ls : List Symbol) : Prop :=
  ∀ position, ∃ tokens, tokenizeFrom position text = .ok tokens ∧
    symbols tokens = ls ++ [.mark .eof]

theorem lexes_nil : Lexes [] [] := fun position =>
  ⟨[endOfText position], by rw [tokenizeFrom], rfl⟩

/-- A text that begins with a token. -/
theorem Lexes.token {c : Char} {run rest : List Char} {kind : TokenKind} {text : String}
    {s : Symbol} {ls : List Symbol}
    (hpiece : ∀ position, piece position c (run ++ rest) = .ok (some (kind, text), run.length))
    (hs : ∀ position, (Token.mk kind text position).symbol = s) (h : Lexes rest ls) :
    Lexes (c :: (run ++ rest)) (s :: ls) := by
  intro position
  obtain ⟨tokens, htokens, hls⟩ := h (position + run.length + 1)
  refine ⟨⟨kind, text, position⟩ :: tokens, ?_, ?_⟩
  · rw [tokenizeFrom, hpiece]
    simp only [List.drop_left, htokens]
  · rw [symbols, List.map_cons, hs, ← symbols, hls]
    rfl

theorem Lexes.blank {rest : List Char} {ls : List Symbol} (h : Lexes rest ls) :
    Lexes (' ' :: rest) ls := by
  intro position
  obtain ⟨tokens, htokens, hls⟩ := h (position + 0 + 1)
  refine ⟨tokens, ?_, hls⟩
  rw [tokenizeFrom]
  simp only [piece, true_or, if_true, List.drop_zero, htokens]

/-! ### Words and numbers -/

/-- The characters with which neither words nor numbers begin. -/
def special : List Char :=
  [' ', '\t', '\n', '\r', '-', '/', '(', ')', ',', ';', '*', '.', '+', '%', '=', '<', '>', '!', '|',
    '\x27', '\x22', '\x60']

theorem not_special {c : Char} (h : c.isDigit = true ∨ beginsName c = true) : c ∉ special := by
  have hall : special.all (fun c => !c.isDigit && !beginsName c) = true := by decide +kernel
  intro hc
  have hnone := List.all_eq_true.1 hall c hc
  rcases h with h | h <;> simp [h] at hnone

theorem piece_of_not_special {position : Nat} {c : Char} {rest : List Char} (h : c ∉ special) :
    piece position c rest =
      if c.isDigit then
        .ok (some (.number, String.ofList (c :: rest.take (numberLength false false rest))),
          numberLength false false rest)
      else if Text.isLetter c ∨ c = '_' then
        .ok (some (TokenKind.ofWord (String.ofList (c :: rest.takeWhile continuesWord)),
          String.ofList (c :: rest.takeWhile continuesWord)),
          (rest.takeWhile continuesWord).length)
      else .error (.unexpectedCharacter c position) := by
  have hpunctuation : punctuation? c = none := by
    unfold punctuation?
    split <;> first | rfl | exact absurd (by decide) h
  have hcomparison : ∀ d, comparison? c d = none := fun d => by
    unfold comparison?
    split <;> first | rfl | exact absurd (by decide) h
  simp only [special, List.mem_cons, List.not_mem_nil, or_false, not_or] at h
  simp only [piece, h, hpunctuation, hcomparison, false_and, or_self, if_false]

theorem stops_nil (p : Char → Bool) : Stops p [] := nofun

theorem takeWhile_append_of_stops {p : Char → Bool} {run rest : List Char}
    (h : ∀ c ∈ run, p c = true) (hs : Stops p rest) : (run ++ rest).takeWhile p = run := by
  rw [List.takeWhile_append_of_pos h]
  cases rest with
  | nil => simp
  | cons c cs => rw [List.takeWhile_cons_of_neg (by rw [hs c rfl]; decide), List.append_nil]

theorem dropWhile_append_of_stops {p : Char → Bool} {run rest : List Char}
    (h : ∀ c ∈ run, p c = true) (hs : Stops p rest) : (run ++ rest).dropWhile p = rest := by
  rw [List.dropWhile_append_of_pos h]
  cases rest with
  | nil => rfl
  | cons c cs => exact List.dropWhile_cons_of_neg (by simp [hs c rfl])

/-- The characters behind a run begin with another. -/
theorem stops_dropWhile (p : Char → Bool) (cs : List Char) : Stops p (cs.dropWhile p) := by
  intro c hc
  have hhead := List.head?_dropWhile_not p cs
  rw [Option.mem_def.1 hc] at hhead
  exact hhead

theorem piece_word {position : Nat} {c : Char} {run rest : List Char} (hc : beginsName c = true)
    (h : ∀ d ∈ run, continuesWord d = true) (hs : Stops continuesWord rest) :
    piece position c (run ++ rest) =
      .ok (some (TokenKind.ofWord (String.ofList (c :: run)), String.ofList (c :: run)),
        run.length) := by
  have hletter : Text.isLetter c = true ∨ c = '_' := by
    simpa [beginsName] using hc
  have hdigit : ¬ c.isDigit = true := fun hd => by
    rw [Expr.not_beginsName_of_isDigit hd] at hc
    cases hc
  rw [piece_of_not_special (not_special (Or.inr hc)), if_neg hdigit, if_pos hletter,
    takeWhile_append_of_stops h hs]

theorem numberLength_digit {point mark : Bool} {c : Char} (hc : c.isDigit = true)
    (rest : List Char) :
    numberLength point mark (c :: rest) = numberLength point mark rest + 1 := by
  cases rest with
  | nil => simp [numberLength, hc]
  | cons d rest => simp [numberLength, hc]

theorem numberLength_digits {point mark : Bool} {run : List Char}
    (h : ∀ c ∈ run, c.isDigit = true) (rest : List Char) :
    numberLength point mark (run ++ rest) = run.length + numberLength point mark rest := by
  induction run with
  | nil => simp
  | cons c run ih =>
    rw [List.cons_append, numberLength_digit (h c List.mem_cons_self),
      ih fun d hd => h d (List.mem_cons_of_mem _ hd), List.length_cons]
    omega

theorem numberLength_stops {point mark : Bool} {rest : List Char} (h : Stops isBare rest) :
    numberLength point mark rest = 0 := by
  have hbare : ∀ {c : Char}, isBare c = false →
      c.isDigit = false ∧ c ≠ '.' ∧ c ≠ 'e' ∧ c ≠ 'E' := fun {c} hc => by
    refine ⟨?_, ?_, ?_, ?_⟩
    · cases hd : c.isDigit with
      | false => rfl
      | true =>
        rw [Expr.isBare_of_isDigit hd] at hc
        cases hc
    all_goals
      rintro rfl
      revert hc
      decide
  cases rest with
  | nil => simp [numberLength]
  | cons c rest =>
    obtain ⟨hdigit, hpoint, he, hE⟩ := hbare (h c rfl)
    cases rest with
    | nil => simp [numberLength, hdigit, he, hE]
    | cons d rest => simp [numberLength, hdigit, hpoint, he, hE]

theorem numberLength_decimal {whole fraction rest : List Char}
    (hw : ∀ d ∈ whole, d.isDigit = true)
    (hf : fraction = [] ∨ ∃ d ds, fraction = '.' :: d :: ds ∧ ∀ x ∈ d :: ds, x.isDigit = true)
    (hs : Stops isBare rest) :
    numberLength false false (whole ++ fraction ++ rest) = (whole ++ fraction).length := by
  rw [List.append_assoc, numberLength_digits hw, List.length_append]
  rcases hf with rfl | ⟨d, ds, rfl, hds⟩
  · rw [List.nil_append, numberLength_stops hs]
    rfl
  · have hpoint : numberLength false false ('.' :: d :: ds ++ rest) =
        numberLength true false (d :: ds ++ rest) + 1 := by
      simp [numberLength, hds d List.mem_cons_self, show '.'.isDigit = false from rfl]
    rw [hpoint, numberLength_digits hds, numberLength_stops hs]
    simp

theorem piece_number {position : Nat} {c : Char} {run rest : List Char} (hc : c.isDigit = true)
    (h : numberLength false false (run ++ rest) = run.length) :
    piece position c (run ++ rest) =
      .ok (some (.number, String.ofList (c :: run)), run.length) := by
  rw [piece_of_not_special (not_special (Or.inl hc)), if_pos hc, h, List.take_left]

/-! ### Texts in quotes -/

theorem quoted?_end {quote : Char} {rest : List Char} (h : rest.head? ≠ some quote) :
    quoted? quote (quote :: rest) = some ([], 1) := by
  cases rest with
  | nil => simp [quoted?]
  | cons d rest =>
    have hd : d ≠ quote := fun hd => h (by rw [hd]; rfl)
    simp [quoted?, hd]

theorem quoted?_quoted (text : List Char) {rest : List Char} (h : rest.head? ≠ some '\x27') :
    quoted? '\x27' (Expr.quoted text ++ '\x27' :: rest) =
      some (text, (Expr.quoted text).length + 1) := by
  induction text with
  | nil => exact quoted?_end h
  | cons c text ih =>
    by_cases hc : c = '\x27'
    · subst hc
      have hquoted : Expr.quoted ('\x27' :: text) = '\x27' :: '\x27' :: Expr.quoted text := rfl
      rw [hquoted, List.cons_append, List.cons_append, quoted?, if_pos rfl, if_pos rfl, ih]
      rfl
    · have hquoted : Expr.quoted (c :: text) = c :: Expr.quoted text := by
        simp [Expr.quoted, hc]
      obtain ⟨d, ds, hd⟩ : ∃ d ds, Expr.quoted text ++ '\x27' :: rest = d :: ds :=
        List.exists_cons_of_ne_nil (by simp)
      rw [hquoted, List.cons_append, hd, quoted?, if_neg hc, ← hd, ih]
      rfl

/-! ### Symbols -/

theorem lexes_word {c : Char} {run rest : List Char} {s : Symbol} {ls : List Symbol}
    (hc : beginsName c = true) (h : ∀ d ∈ run, continuesWord d = true)
    (hs : ∀ position, (Token.mk (TokenKind.ofWord (String.ofList (c :: run)))
      (String.ofList (c :: run)) position).symbol = s)
    (hstop : Stops continuesWord rest) (hrest : Lexes rest ls) :
    Lexes (c :: (run ++ rest)) (s :: ls) :=
  hrest.token (fun _ => piece_word hc h hstop) hs

/-- The characters are those of a word. -/
def spellsWord : List Char → Bool
  | [] => false
  | c :: run => beginsName c && run.all continuesWord

theorem spellsWord_iff {cs : List Char} : spellsWord cs = true ↔
    ∃ c run, cs = c :: run ∧ beginsName c = true ∧ ∀ d ∈ run, continuesWord d = true := by
  cases cs with
  | nil => simp [spellsWord]
  | cons c run => simp [spellsWord]

/-- A word of the language is read as its kind. -/
theorem keyword_spelling {kind : TokenKind} (h : kind.isWord = true) :
    ∃ c run, kind.spelling = String.ofList (c :: run) ∧ beginsName c = true ∧
      (∀ d ∈ run, continuesWord d = true) ∧ TokenKind.ofWord kind.spelling = kind ∧
      kind.hasText = false := by
  have hall : ∀ p ∈ TokenKind.keywords, p.2.spelling = p.1 ∧ TokenKind.ofWord p.1 = p.2 ∧
      p.2.hasText = false := by decide +kernel
  have hword : TokenKind.keywords.all (fun p => spellsWord p.1.toList) = true := by
    decide +kernel
  obtain ⟨p, hp, hkind⟩ := List.any_eq_true.1 h
  obtain rfl := of_decide_eq_true hkind
  obtain ⟨hspelling, hof, htext⟩ := hall p hp
  obtain ⟨c, run, hcs, hc, hrun⟩ := spellsWord_iff.1 (List.all_eq_true.1 hword p hp)
  rw [hspelling]
  exact ⟨c, run, by rw [← hcs, String.ofList_toList], hc, hrun, hof, htext⟩

theorem lexes_keyword {kind : TokenKind} (h : kind.isWord = true) {rest : List Char}
    {ls : List Symbol} (hstop : Stops continuesWord rest) (hrest : Lexes rest ls) :
    Lexes (kind.spelling.toList ++ rest) (.mark kind :: ls) := by
  obtain ⟨c, run, hspelling, hc, hrun, hof, htext⟩ := keyword_spelling h
  rw [hspelling, String.toList_ofList, List.cons_append]
  refine lexes_word hc hrun (fun position => ?_) hstop hrest
  rw [← hspelling, hof]
  exact symbol_of_kind htext

theorem lexes_name {name : String} (h : isName name = true) {rest : List Char} {ls : List Symbol}
    (hstop : Stops continuesWord rest) (hrest : Lexes rest ls) :
    Lexes (name.toList ++ rest) (.name name :: ls) := by
  obtain ⟨c, run, hcs, hc, hall⟩ := isName_toList h
  have hname : String.ofList (c :: run) = name := by rw [← hcs, String.ofList_toList]
  have hof : TokenKind.ofWord name = .identifier := by
    unfold isName at h
    split at h
    · cases h
    · simp only [Bool.and_eq_true, decide_eq_true_iff] at h
      exact h.2
  rw [hcs, List.cons_append]
  refine lexes_word hc (fun d hd => hall d (List.mem_cons_of_mem _ hd)) (fun position => ?_) hstop
    hrest
  rw [hname, hof]
  rfl

theorem lexes_number {s : String} (h : IsDecimal s.toList) {rest : List Char} {ls : List Symbol}
    (hstop : Stops isBare rest) (hrest : Lexes rest ls) :
    Lexes (s.toList ++ rest) (.number s :: ls) := by
  obtain ⟨c, whole, fraction, hs, hc, hw, hf⟩ := h
  have hnumber : String.ofList (c :: (whole ++ fraction)) = s := by
    rw [← hs, String.ofList_toList]
  rw [hs, List.cons_append]
  refine hrest.token (fun _ => piece_number hc (numberLength_decimal hw hf hstop))
    fun position => ?_
  rw [hnumber]
  rfl

theorem lexes_text (s : String) {rest : List Char} {ls : List Symbol}
    (hstop : Stops (fun c => c = '\x27') rest) (hrest : Lexes rest ls) :
    Lexes ('\x27' :: (Expr.quoted s.toList ++ ['\x27'] ++ rest)) (.text s :: ls) := by
  have hquote : rest.head? ≠ some '\x27' := fun hc => by
    have hfalse := hstop _ hc
    simp at hfalse
  have hs : ∀ position, (Token.mk .text s position).symbol = .text s := fun _ => rfl
  refine hrest.token (fun position => ?_) hs
  rw [List.append_assoc]
  simp [piece, punctuation?, comparison?, quotedPiece, quoted?_quoted s.toList hquote]

/-- A comparison of one character, if the next one does not make it another. -/
theorem comparison?_alone {kind : TokenKind} {c : Char} {next : Option Char}
    (hkind : (kind, c) ∈ [(TokenKind.equal, '='), (.lessThan, '<'), (.greaterThan, '>')])
    (h : ∀ d, (Symbol.mark kind).goesOn d = true → next ≠ some d) :
    comparison? c next = some (kind, kind.spelling, 0) := by
  have hequal := h '='
  have hgreater := h '>'
  simp only [List.mem_cons, Prod.mk.injEq, List.not_mem_nil, or_false] at hkind
  rcases hkind with ⟨rfl, rfl⟩ | ⟨rfl, rfl⟩ | ⟨rfl, rfl⟩ <;> cases next <;>
    simp_all [comparison?, Symbol.goesOn, TokenKind.spelling]

theorem piece_punctuation {kind : TokenKind} (h : kind.isWord = false) (hne : kind.spelling ≠ "")
    {rest : List Char} (hstop : Stops (Symbol.mark kind).goesOn rest) :
    kind.hasText = false ∧ ∃ c run text, kind.spelling.toList = c :: run ∧
      ∀ position, piece position c (run ++ rest) = .ok (some (kind, text), run.length) := by
  have hhead : ∀ d, (Symbol.mark kind).goesOn d = true → rest.head? ≠ some d := fun d hd hc => by
    rw [hstop d hc] at hd
    cases hd
  cases kind with
  | leftParen | rightParen | comma | asterisk | dot | semicolon | plus | percent | concat
  | notEqual | lessThanOrEqual | greaterThanOrEqual =>
    exact ⟨rfl, _, _, _, rfl, fun _ => rfl⟩
  | minus =>
    have hminus := hhead '-' rfl
    exact ⟨rfl, '-', [], "-", rfl, fun _ => by simp [piece, punctuation?, hminus]⟩
  | divide =>
    have hstar := hhead '*' rfl
    exact ⟨rfl, '/', [], "/", rfl, fun _ => by simp [piece, punctuation?, hstar]⟩
  | equal =>
    have hcomparison : comparison? '=' rest.head? = some (.equal, "=", 0) :=
      comparison?_alone (by decide) hhead
    exact ⟨rfl, '=', [], "=", rfl, fun _ => by simp [piece, punctuation?, hcomparison]⟩
  | lessThan =>
    have hcomparison : comparison? '<' rest.head? = some (.lessThan, "<", 0) :=
      comparison?_alone (by decide) hhead
    exact ⟨rfl, '<', [], "<", rfl, fun _ => by simp [piece, punctuation?, hcomparison]⟩
  | greaterThan =>
    have hcomparison : comparison? '>' rest.head? = some (.greaterThan, ">", 0) :=
      comparison?_alone (by decide) hhead
    exact ⟨rfl, '>', [], ">", rfl, fun _ => by simp [piece, punctuation?, hcomparison]⟩
  | identifier | text | number | eof => exact absurd rfl hne
  | _ => exact absurd h (by decide)

/-- A token that is not a word is read where it stands, if nothing goes on with it. -/
theorem lexes_punctuation {kind : TokenKind} (h : kind.isWord = false) (hne : kind.spelling ≠ "")
    {rest : List Char} {ls : List Symbol} (hstop : Stops (Symbol.mark kind).goesOn rest)
    (hrest : Lexes rest ls) : Lexes (kind.spelling.toList ++ rest) (.mark kind :: ls) := by
  obtain ⟨htext, c, run, text, hspelling, hpiece⟩ := piece_punctuation h hne hstop
  rw [hspelling, List.cons_append]
  exact hrest.token hpiece fun _ => symbol_of_kind htext

/-- **A symbol is read** in front of a text that does not go on with it. -/
theorem Lexes.symbol {s : Symbol} (hs : s.IsSpelled) {rest : List Char} {ls : List Symbol}
    (hstop : Stops s.goesOn rest) (hrest : Lexes rest ls) : Lexes (s.source ++ rest) (s :: ls) := by
  cases s with
  | name name => exact lexes_name hs hstop hrest
  | number text => exact lexes_number hs hstop hrest
  | text text => exact lexes_text text hstop hrest
  | mark kind =>
    cases hword : kind.isWord with
    | true =>
      have hgoesOn : ∀ c, (mark kind).goesOn c = continuesWord c := fun c => by
        cases kind <;> first | rfl | cases hword
      exact lexes_keyword hword (fun c hc => by rw [← hgoesOn, hstop c hc]) hrest
    | false => exact lexes_punctuation hword hs hstop hrest

/-- The symbols with blanks between them. -/
def spaced (ls : List Symbol) : List Char :=
  [' '].intercalate (ls.map source)

/-- **Symbols with blanks between them** are read one by one. -/
theorem lexes_spaced {ls : List Symbol} (h : AllSpelled ls) : Lexes (spaced ls) ls := by
  induction ls with
  | nil => exact lexes_nil
  | cons s rest ih =>
    obtain ⟨hs, hrest⟩ := allSpelled_cons.1 h
    cases rest with
    | nil =>
      have hone : Lexes (s.source ++ []) [s] := lexes_nil.symbol hs nofun
      simpa [spaced] using hone
    | cons s' rest =>
      have hspaced : spaced (s :: s' :: rest) = s.source ++ ' ' :: spaced (s' :: rest) := by
        simp [spaced, List.intercalate_cons_cons]
      rw [hspaced]
      exact (ih hrest).blank.symbol hs (s.stops_blank _)

/-! ## What is read from a text -/

theorem hasText_of_punctuation? {c : Char} {kind : TokenKind} (h : punctuation? c = some kind) :
    kind.hasText = false := by
  unfold punctuation? at h
  split at h <;> cases h <;> rfl

theorem hasText_of_comparison? {c : Char} {next : Option Char} {kind : TokenKind} {text : String}
    {more : Nat} (h : comparison? c next = some (kind, text, more)) : kind.hasText = false := by
  unfold comparison? at h
  split at h <;> cases h <;> rfl

theorem kind_of_quotedPiece {kind kind' : TokenKind} {quote : Char} {rest : List Char}
    {text : String} {more : Nat}
    (h : quotedPiece kind quote rest = .ok (some (kind', text), more)) : kind' = kind := by
  unfold quotedPiece at h
  split at h
  · cases h
    rfl
  · cases h

/-- A number begins with a digit, and a name without quotes is a word. -/
theorem piece_textual {position : Nat} {c : Char} {rest : List Char} {kind : TokenKind}
    {text : String} {more : Nat} (h : piece position c rest = .ok (some (kind, text), more))
    (hkind : kind.hasText = true) (htext : kind ≠ .text) (hgrave : c ≠ '\x60') :
    c.isDigit = true ∧ kind = .number ∧ text.toList.head? = some c ∨
      beginsName c = true ∧ kind = TokenKind.ofWord text ∧
        text.toList = c :: rest.takeWhile continuesWord := by
  have hnone : kind.hasText ≠ false := by simp [hkind]
  unfold piece at h
  simp only at h
  split at h
  · cases h
  split at h
  · cases h
  split at h
  · split at h <;> cases h
  split at h
  · next hpunctuation =>
    cases h
    exact absurd (hasText_of_punctuation? hpunctuation) hnone
  split at h
  · next hcomparison =>
    cases h
    exact absurd (hasText_of_comparison? hcomparison) hnone
  split at h
  · split at h <;> cases h
    cases hkind
  split at h
  · split at h <;> cases h
    cases hkind
  split at h
  · exact absurd (kind_of_quotedPiece h) htext
  split at h
  · next hdigit =>
    cases h
    exact Or.inl ⟨hdigit, rfl, by simp⟩
  split at h
  · next hletter =>
    cases h
    exact Or.inr ⟨by simpa [beginsName] using hletter, rfl, by simp⟩
  · cases h

theorem tokenizeFrom_pieces {position : Nat} {cs : List Char} {tokens : List Token}
    (h : tokenizeFrom position cs = .ok tokens) : ∀ t ∈ tokens, t.kind ≠ .eof →
      position ≤ t.position ∧ ∃ c rest more, cs[t.position - position]? = some c ∧
        piece t.position c rest = .ok (some (t.kind, t.text), more) := by
  have hlater : ∀ {position more : Nat} {c : Char} {rest : List Char} {t : Token},
      (position + more + 1 ≤ t.position ∧ ∃ c' rest' more',
        (rest.drop more)[t.position - (position + more + 1)]? = some c' ∧
          piece t.position c' rest' = .ok (some (t.kind, t.text), more')) →
      position ≤ t.position ∧ ∃ c' rest' more', (c :: rest)[t.position - position]? = some c' ∧
        piece t.position c' rest' = .ok (some (t.kind, t.text), more') := by
    rintro position more c rest t ⟨hle, c', rest', more', hc', hpiece⟩
    refine ⟨by omega, c', rest', more', ?_, hpiece⟩
    rw [List.getElem?_drop] at hc'
    rw [show t.position - position = more + (t.position - (position + more + 1)) + 1 by omega,
      List.getElem?_cons_succ, hc']
  fun_induction tokenizeFrom position cs generalizing tokens with
  | case1 position =>
    cases h
    exact List.forall_mem_singleton.2 fun hne => absurd rfl hne
  | case2 => cases h
  | case3 => cases h
  | case4 position c rest more tokens' htokens kind text hpiece ih =>
    cases h
    refine List.forall_mem_cons.2 ⟨fun _ => ⟨Nat.le_refl _, c, rest, more, ?_, hpiece⟩, ?_⟩
    · rw [Nat.sub_self, List.getElem?_cons_zero]
    · exact fun t ht hne => hlater (ih htokens t ht hne)
  | case5 position c rest more tokens' htokens hpiece ih =>
    cases h
    exact fun t ht hne => hlater (ih htokens t ht hne)

theorem hasText_ofWord (word : String) :
    TokenKind.ofWord word = .identifier ∨ (TokenKind.ofWord word).hasText = false := by
  have hall : ∀ p ∈ TokenKind.keywords, p.2.hasText = false := by decide
  unfold TokenKind.ofWord
  cases h : TokenKind.keywords.lookup (Text.upper word) with
  | none => exact Or.inl rfl
  | some kind =>
    obtain ⟨l₁, l₂, hl, -⟩ := List.lookup_eq_some_iff.1 h
    exact Or.inr (hall (Text.upper word, kind) (by rw [hl]; simp))

theorem kind_of_grave {position : Nat} {rest : List Char} {kind : TokenKind} {text : String}
    {more : Nat} (h : piece position '\x60' rest = .ok (some (kind, text), more)) :
    kind = .identifier := by
  have hpiece : piece position '\x60' rest = quotedPiece .identifier '\x60' rest := by
    simp [piece, punctuation?, comparison?]
  exact kind_of_quotedPiece (hpiece ▸ h)

/-- **A name without quotes** is one that needs none. -/
theorem isName_of_tokenize {text : String} {tokens : List Token}
    (h : tokenize text = .ok tokens) {t : Token} (ht : t ∈ tokens) (hkind : t.kind = .identifier)
    (hgrave : text.toList[t.position]? ≠ some '\x60') : isName t.text = true := by
  obtain ⟨-, c, rest, more, hc, hpiece⟩ :=
    tokenizeFrom_pieces h t ht (by rw [hkind]; exact nofun)
  rw [Nat.sub_zero] at hc
  have hne : c ≠ '\x60' := fun he => hgrave (he ▸ hc)
  rcases piece_textual hpiece (by rw [hkind]; rfl) (by rw [hkind]; exact nofun) hne with
    ⟨-, hnumber, -⟩ | ⟨hbegin, hword, htext⟩
  · rw [hkind] at hnumber
    cases hnumber
  · have hall : (rest.takeWhile continuesWord).all continuesWord = true :=
      List.all_eq_true.2 fun d hd => (List.mem_takeWhile_imp hd)
    unfold isName
    rw [htext]
    simp [hbegin, hall, ← hword, hkind]

/-- **A number** begins with a digit. -/
theorem digit_of_tokenize {text : String} {tokens : List Token}
    (h : tokenize text = .ok tokens) {t : Token} (ht : t ∈ tokens) (hkind : t.kind = .number) :
    ∃ c, t.text.toList.head? = some c ∧ c.isDigit = true := by
  obtain ⟨-, c, rest, more, -, hpiece⟩ :=
    tokenizeFrom_pieces h t ht (by rw [hkind]; exact nofun)
  have hne : c ≠ '\x60' := by
    rintro rfl
    have hname := kind_of_grave hpiece
    rw [hkind] at hname
    cases hname
  rcases piece_textual hpiece (by rw [hkind]; rfl) (by rw [hkind]; exact nofun) hne with
    ⟨hdigit, -, htext⟩ | ⟨-, hword, -⟩
  · exact ⟨c, htext, hdigit⟩
  · rcases hasText_ofWord t.text with hname | hfalse
    · rw [hname, hkind] at hword
      cases hword
    · rw [← hword, hkind] at hfalse
      cases hfalse

end Token

end StreamSql
