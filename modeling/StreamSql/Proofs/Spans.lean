/-
  Texts and the spans of their tokens.

  `IsPiece span rest lexeme` says what a piece of a text is, by what follows it: a blank, a
  comment, or the span of a token.  A text has tokens exactly if it can be cut into pieces, and then
  they are those of its pieces (`tokenizeFrom_eq_ok_iff`).  A piece stays one if what follows it is
  changed, as long as it does not begin to go on with it (`IsPiece.of_follows`), so a text is cut at
  the same places when a gap is opened behind a token (`Splits.insert`).

  * `operators`, `quotes`: the tokens that are neither words nor numbers;
  * `Segment`, `Splits`, `source`: the pieces of a text, one behind the other;
  * `tokenize_spans`: tokenizing loses nothing.
-/
import StreamSql.Proofs.Lexing

namespace StreamSql

namespace Token

/-! ## Pieces -/

/-- A token that is neither a word nor a number nor quoted: how it is written, and the characters
that make it another piece when they follow. -/
structure Operator where
  source : List Char
  kind : TokenKind
  text : String
  goesOn : List Char
  deriving DecidableEq

def operators : List Operator :=
  [⟨['('], .leftParen, "(", []⟩, ⟨[')'], .rightParen, ")", []⟩, ⟨[','], .comma, ",", []⟩,
    ⟨[';'], .semicolon, ";", []⟩, ⟨['*'], .asterisk, "*", []⟩, ⟨['.'], .dot, ".", []⟩,
    ⟨['+'], .plus, "+", []⟩, ⟨['-'], .minus, "-", ['-']⟩, ⟨['/'], .divide, "/", ['*']⟩,
    ⟨['%'], .percent, "%", []⟩, ⟨['='], .equal, "=", ['=']⟩, ⟨['=', '='], .equal, "=", []⟩,
    ⟨['<'], .lessThan, "<", ['=', '>']⟩, ⟨['<', '='], .lessThanOrEqual, "<=", []⟩,
    ⟨['<', '>'], .notEqual, "<>", []⟩, ⟨['>'], .greaterThan, ">", ['=']⟩,
    ⟨['>', '='], .greaterThanOrEqual, ">=", []⟩, ⟨['!', '='], .notEqual, "!=", []⟩,
    ⟨['|', '|'], .concat, "||", []⟩]

/-- The quotes, and the kinds of the tokens in them. -/
def quotes : List (Char × TokenKind) :=
  [('\x27', .text), ('\x22', .text), ('\x60', .identifier)]

/-- A text with its quotes doubled. -/
def doubled (quote : Char) (text : List Char) : List Char :=
  text.flatMap fun c => if c = quote then [c, c] else [c]

/-- With `rest` behind it, the span is one piece of a text: a token, or nothing. -/
inductive IsPiece : List Char → List Char → Lexeme → Prop
  | blank {c rest} : c ∈ [' ', '\t', '\n', '\r'] → IsPiece [c] rest none
  | lineComment {cs rest} : (∀ c ∈ cs, c ≠ '\n') → (∀ c ∈ rest.head?, c = '\n') →
      IsPiece ('-' :: '-' :: cs) rest none
  | blockComment {cs rest} : ¬ ['*', '/'] <:+: cs ++ ['*'] →
      IsPiece ('/' :: '*' :: (cs ++ ['*', '/'])) rest none
  | operator {o rest} : o ∈ operators → (∀ c ∈ rest.head?, c ∉ o.goesOn) →
      IsPiece o.source rest (some (o.kind, o.text))
  | quoted {quote kind text rest} : (quote, kind) ∈ quotes → rest.head? ≠ some quote →
      IsPiece (quote :: (doubled quote text ++ [quote])) rest (some (kind, String.ofList text))
  | number {c run rest} : c.isDigit = true →
      numberLength false false (run ++ rest) = run.length →
      IsPiece (c :: run) rest (some (.number, String.ofList (c :: run)))
  | word {c run rest} : beginsName c = true → (∀ d ∈ run, continuesWord d = true) →
      Stops continuesWord rest →
      IsPiece (c :: run) rest
        (some (TokenKind.ofWord (String.ofList (c :: run)), String.ofList (c :: run)))

/-! ### Comments -/

theorem infix_pair_cons {a b c : Char} {cs : List Char} :
    [a, b] <:+: c :: cs ↔ a = c ∧ cs.head? = some b ∨ [a, b] <:+: cs := by
  rw [List.infix_cons_iff, List.cons_prefix_cons]
  cases cs with
  | nil => simp
  | cons d cs => simp [List.cons_prefix_cons, eq_comm (a := b)]

/-- **A block comment** ends at the first end in it. -/
theorem commentLength?_append {cs : List Char} (h : ¬ ['*', '/'] <:+: cs ++ ['*'])
    (rest : List Char) : commentLength? (cs ++ '*' :: '/' :: rest) = some (cs.length + 2) := by
  induction cs with
  | nil => rfl
  | cons c cs ih =>
    rw [List.cons_append, infix_pair_cons, not_or] at h
    rw [List.cons_append, commentLength?, ih h.2]
    · rfl
    · rintro tail rfl htail
      cases cs with
      | nil => simp at htail
      | cons d cs => exact h.1 ⟨rfl, by simp_all⟩

theorem exists_of_commentLength? {cs : List Char} {n : ℕ} (h : commentLength? cs = some n) :
    ∃ body rest, cs = body ++ '*' :: '/' :: rest ∧ n = body.length + 2 ∧
      ¬ ['*', '/'] <:+: body ++ ['*'] := by
  fun_induction commentLength? cs generalizing n with
  | case1 rest =>
    cases h
    exact ⟨[], rest, rfl, rfl, by simp [infix_pair_cons]⟩
  | case2 c rest hopen ih =>
    obtain ⟨m, hm, rfl⟩ := Option.map_eq_some_iff.1 h
    obtain ⟨body, rest, rfl, rfl, hbody⟩ := ih hm
    refine ⟨c :: body, rest, rfl, rfl, ?_⟩
    rw [List.cons_append, infix_pair_cons, not_or]
    refine ⟨?_, hbody⟩
    rintro ⟨rfl, hhead⟩
    cases body with
    | nil => simp at hhead
    | cons d body =>
      obtain rfl : d = '/' := by simpa using hhead
      exact hopen _ rfl rfl
  | case3 => cases h

/-! ### Texts in quotes -/

theorem doubled_cons (quote c : Char) (text : List Char) :
    doubled quote (c :: text) = (if c = quote then [c, c] else [c]) ++ doubled quote text :=
  List.flatMap_cons

/-- **A quoted text** ends at the first quote that is not doubled. -/
theorem quoted?_doubled (quote : Char) (text : List Char) {rest : List Char}
    (h : rest.head? ≠ some quote) :
    quoted? quote (doubled quote text ++ quote :: rest) =
      some (text, (doubled quote text).length + 1) := by
  induction text with
  | nil => exact quoted?_end h
  | cons c text ih =>
    rw [doubled_cons]
    split
    · next hc =>
      subst hc
      simp [quoted?, ih]
    · next hc =>
      obtain ⟨d, ds, hd⟩ : ∃ d ds, doubled quote text ++ quote :: rest = d :: ds :=
        List.exists_cons_of_ne_nil (by simp)
      rw [List.singleton_append, List.cons_append, hd, quoted?, if_neg hc, ← hd, ih]
      rfl

theorem exists_of_quoted? {quote : Char} {cs text : List Char} {n : ℕ}
    (h : quoted? quote cs = some (text, n)) :
    ∃ rest, cs = doubled quote text ++ quote :: rest ∧ n = (doubled quote text).length + 1 ∧
      rest.head? ≠ some quote := by
  fun_induction quoted? quote cs generalizing text n with
  | case1 => cases h
  | case2 =>
    cases h
    exact ⟨[], rfl, rfl, nofun⟩
  | case3 => cases h
  | case4 rest ih =>
    obtain ⟨⟨text, m⟩, hm, he⟩ := Option.map_eq_some_iff.1 h
    obtain ⟨rest, rfl, rfl, hrest⟩ := ih hm
    cases he
    exact ⟨rest, by simp [doubled_cons], by simp [doubled_cons], hrest⟩
  | case5 d rest hd =>
    cases h
    exact ⟨d :: rest, rfl, rfl, by simpa using hd⟩
  | case6 c d rest hc ih =>
    obtain ⟨⟨text, m⟩, hm, he⟩ := Option.map_eq_some_iff.1 h
    obtain ⟨rest, hcs, rfl, hrest⟩ := ih hm
    cases he
    exact ⟨rest, by simp [doubled_cons, hc, hcs], by simp [doubled_cons, hc], hrest⟩

/-! ### Numbers -/

/-- The number of characters that continue a number, by the first of them. -/
theorem numberLength_cons (point mark : Bool) (c : Char) (rest : List Char) :
    numberLength point mark (c :: rest) =
      if c.isDigit then numberLength point mark rest + 1
      else if c = '.' ∧ !point ∧ !mark ∧ rest.head?.any Char.isDigit then
        numberLength true mark rest + 1
      else if (c = 'e' ∨ c = 'E') ∧ !mark then
        if rest.head? = some '+' ∨ rest.head? = some '-' then
          numberLength point true rest.tail + 2
        else numberLength point true rest + 1
      else 0 := by
  cases rest with
  | nil => simp [numberLength]
  | cons d rest => simp [numberLength]

theorem numberLength_le (point mark : Bool) (cs : List Char) :
    numberLength point mark cs ≤ cs.length := by
  fun_induction numberLength point mark cs <;> simp_all

/-- The text begins with a point and a digit. -/
def beginsFraction : List Char → Bool
  | '.' :: d :: _ => d.isDigit
  | _ => false

theorem beginsFraction_cons {c : Char} {cs : List Char} :
    beginsFraction (c :: cs) = true ↔ c = '.' ∧ cs.head?.any Char.isDigit = true := by
  unfold beginsFraction
  split
  · next he =>
    cases he
    simp
  · next hnot =>
    refine iff_of_false (by simp) ?_
    rintro ⟨rfl, hdigit⟩
    cases cs with
    | nil => cases hdigit
    | cons d cs => exact hnot d cs rfl

theorem numberLength_eq_zero_iff {point mark : Bool} {cs : List Char} :
    numberLength point mark cs = 0 ↔
      (∀ c ∈ cs.head?, c.isDigit = false ∧ (mark = false → c ≠ 'e' ∧ c ≠ 'E')) ∧
        (beginsFraction cs = true → point = true ∨ mark = true) := by
  cases cs with
  | nil => simp [numberLength, beginsFraction]
  | cons c rest =>
    rw [numberLength_cons, beginsFraction_cons]
    simp only [List.head?_cons, Option.mem_def, Option.some.injEq, forall_eq']
    have hmarked : (c = 'e' ∨ c = 'E') ∧ (!mark) = true →
        ¬ (c.isDigit = false ∧ (mark = false → c ≠ 'e' ∧ c ≠ 'E')) := by
      rintro ⟨hc, hmark⟩ ⟨-, hnone⟩
      have hnone := hnone (by simpa using hmark)
      exact hc.elim hnone.1 hnone.2
    split_ifs with hdigit hpoint hmark hsign
    · simp [hdigit]
    · simp_all
    · exact iff_of_false not_false fun h => hmarked hmark h.1
    · exact iff_of_false not_false fun h => hmarked hmark h.1
    · refine iff_of_true rfl ⟨⟨by simpa using hdigit, fun h => ?_⟩, fun h => ?_⟩
      · exact not_or.1 fun hc => hmark ⟨hc, by simp [h]⟩
      · by_contra hneither
        simp only [not_or, Bool.not_eq_true] at hneither
        exact hpoint ⟨h.1, by simp [hneither.1], by simp [hneither.2], h.2⟩

/-- What may follow a piece in the place of `rest`: a text that begins as `rest` does, or, behind a
token, with a gap. -/
structure Follows (lexeme : Lexeme) (rest rest' : List Char) : Prop where
  head : ∀ c ∈ rest'.head?, c ∈ rest.head? ∨ lexeme ≠ none ∧ (c = ' ' ∨ c = '/')
  fraction : beginsFraction rest' = true → beginsFraction rest = true

/-- Only a gap comes into its place. -/
theorem Follows.head_eq {lexeme : Lexeme} {rest rest' : List Char} (h : Follows lexeme rest rest')
    {c : Char} (hc : c ∉ [' ', '/']) (hhead : rest'.head? = some c) : rest.head? = some c := by
  rcases h.head c hhead with h | ⟨-, h⟩
  · exact h
  · exact absurd (by simpa using h) hc

theorem numberLength_nil_of_follows {point mark : Bool} {lexeme : Lexeme} {rest rest' : List Char}
    (hrest : Follows lexeme rest rest') (h : numberLength point mark rest = 0) :
    numberLength point mark rest' = 0 := by
  obtain ⟨hhead, hfraction⟩ := numberLength_eq_zero_iff.1 h
  refine numberLength_eq_zero_iff.2 ⟨fun c hc => ?_, fun h => hfraction (hrest.fraction h)⟩
  rcases hrest.head c hc with hc | ⟨-, rfl | rfl⟩
  · exact hhead c hc
  · exact ⟨rfl, fun _ => by decide⟩
  · exact ⟨rfl, fun _ => by decide⟩

/-- **A number ends where it ended** if what follows it is changed. -/
theorem numberLength_of_follows {point mark : Bool} {run : List Char} {lexeme : Lexeme}
    {rest rest' : List Char} (hrest : Follows lexeme rest rest')
    (h : numberLength point mark (run ++ rest) = run.length) :
    numberLength point mark (run ++ rest') = run.length := by
  induction hn : run.length using Nat.strong_induction_on generalizing run point mark with
  | _ n ih =>
    subst hn
    cases run with
    | nil => exact numberLength_nil_of_follows hrest h
    | cons c run =>
      have hhead : run ≠ [] → (run ++ rest').head? = (run ++ rest).head? := fun hne => by
        rw [List.head?_append_of_ne_nil _ hne, List.head?_append_of_ne_nil _ hne]
      rw [List.cons_append, numberLength_cons, List.length_cons] at h ⊢
      split_ifs at h with hdigit hpoint hmark hsign
      · rw [if_pos hdigit, ih _ (by simp) (by omega) rfl]
      · -- a point is not the last character, so the digit behind it is in the run
        have hne : run ≠ [] := by
          rintro rfl
          obtain ⟨-, -, -, hnext⟩ := hpoint
          have hzero := numberLength_eq_zero_iff.1 (Nat.succ.inj h)
          cases rest with
          | nil => cases hnext
          | cons d rest =>
            have hd := (hzero.1 d rfl).1
            simp [hd] at hnext
        rw [if_neg hdigit, if_pos (by rwa [hhead hne]), ih _ (by simp) (by omega) rfl]
      · -- neither is a mark with a sign
        obtain ⟨d, run, rfl⟩ : ∃ d tail, run = d :: tail := by
          refine List.exists_cons_of_ne_nil ?_
          rintro rfl
          simp at h
        rw [if_neg hdigit, if_neg (by rwa [hhead (by simp)]), if_pos hmark,
          if_pos (by rwa [hhead (by simp)])]
        rw [List.cons_append, List.tail_cons, List.length_cons] at h ⊢
        have hlt : run.length < (c :: d :: run).length := by
          rw [List.length_cons, List.length_cons]
          omega
        rw [ih _ hlt (by omega) rfl]
      · have hnone : ¬ ((run ++ rest').head? = some '+' ∨ (run ++ rest').head? = some '-') := by
          rcases eq_or_ne run [] with rfl | hne
          · exact fun h => hsign (h.imp (hrest.head_eq (by decide)) (hrest.head_eq (by decide)))
          · rwa [hhead hne]
        have hnopoint : c ≠ '.' := by
          rintro rfl
          exact absurd hmark.1 (by decide)
        rw [if_neg hdigit, if_neg (fun h => hnopoint h.1), if_pos hmark, if_neg hnone,
          ih _ (by simp) (by omega) rfl]

/-! ### What the pieces of a text are -/

theorem operator_of_punctuation? {c : Char} {kind : TokenKind} (h : punctuation? c = some kind) :
    ∃ o ∈ operators, o.source = [c] ∧ o.kind = kind ∧ o.text = c.toString ∧
      ∀ d ∈ o.goesOn, c = '-' ∧ d = '-' ∨ c = '/' ∧ d = '*' := by
  unfold punctuation? at h
  split at h <;> cases h <;> simp [operators]

theorem operator_of_comparison? {c : Char} {next : Option Char} {kind : TokenKind} {text : String}
    {more : ℕ} (h : comparison? c next = some (kind, text, more)) :
    ∃ o ∈ operators, o.kind = kind ∧ o.text = text ∧
      (more = 0 ∧ o.source = [c] ∧ (∀ d ∈ next, d ∉ o.goesOn) ∨
        more = 1 ∧ ∃ d, next = some d ∧ o.source = [c, d] ∧ o.goesOn = []) := by
  unfold comparison? at h
  split at h <;> cases h <;> simp_all [operators]
  all_goals
    rintro d rfl
    simp_all

theorem isPiece_of_quotedPiece {kind : TokenKind} {quote : Char} {rest : List Char}
    {lexeme : Lexeme} {more : ℕ} (hquote : (quote, kind) ∈ quotes)
    (h : quotedPiece kind quote rest = .ok (lexeme, more)) :
    ∃ run rest', rest = run ++ rest' ∧ more = run.length ∧ IsPiece (quote :: run) rest' lexeme := by
  unfold quotedPiece at h
  split at h
  · next text length hquoted =>
    cases h
    obtain ⟨rest', rfl, rfl, hrest⟩ := exists_of_quoted? hquoted
    exact ⟨doubled quote text ++ [quote], rest', by simp, by simp, .quoted hquote hrest⟩
  · cases h

/-- **A piece of a text is one.** -/
theorem isPiece_of_piece {position : ℕ} {c : Char} {rest : List Char} {lexeme : Lexeme} {more : ℕ}
    (h : piece position c rest = .ok (lexeme, more)) :
    ∃ run rest', rest = run ++ rest' ∧ more = run.length ∧ IsPiece (c :: run) rest' lexeme := by
  unfold piece at h
  simp only at h
  split at h
  · next hblank =>
    cases h
    exact ⟨[], rest, rfl, rfl, .blank (by simpa using hblank)⟩
  split at h
  · next hline =>
    cases h
    obtain ⟨rfl, hhead⟩ := hline
    obtain ⟨tail, rfl⟩ := List.head?_eq_some_iff.1 hhead
    refine ⟨'-' :: tail.takeWhile (· ≠ '\n'), tail.dropWhile (· ≠ '\n'), ?_, ?_, ?_⟩
    · rw [List.cons_append, List.takeWhile_append_dropWhile]
    · rw [List.takeWhile_cons_of_pos (by decide)]
    · refine .lineComment (fun c hc => by simpa using List.mem_takeWhile_imp hc) fun c hc => ?_
      simpa using stops_dropWhile _ _ c hc
  split at h
  · next hblock =>
    obtain ⟨rfl, hhead⟩ := hblock
    obtain ⟨tail, rfl⟩ := List.head?_eq_some_iff.1 hhead
    split at h
    · next length hlength =>
      cases h
      obtain ⟨body, rest', hbody, rfl, hend⟩ := exists_of_commentLength? hlength
      rw [List.drop_succ_cons, List.drop_zero] at hbody
      exact ⟨'*' :: (body ++ ['*', '/']), rest', by simp [hbody], by simp, .blockComment hend⟩
    · cases h
  split at h
  · next hline hblock _ kind hpunctuation =>
    cases h
    obtain ⟨o, ho, hsource, rfl, htext, hgoesOn⟩ := operator_of_punctuation? hpunctuation
    refine ⟨[], rest, rfl, rfl, ?_⟩
    rw [← hsource, ← htext]
    refine .operator ho fun d hd hmem => ?_
    rcases hgoesOn d hmem with ⟨rfl, rfl⟩ | ⟨rfl, rfl⟩
    · exact hline ⟨rfl, hd⟩
    · exact hblock ⟨rfl, hd⟩
  split at h
  · next hcomparison =>
    cases h
    obtain ⟨o, ho, rfl, rfl, ⟨rfl, hsource, hgoesOn⟩ | ⟨rfl, d, hnext, hsource, hgoesOn⟩⟩ :=
      operator_of_comparison? hcomparison
    · exact ⟨[], rest, rfl, rfl, hsource ▸ .operator ho hgoesOn⟩
    · obtain ⟨tail, rfl⟩ := List.head?_eq_some_iff.1 hnext
      exact ⟨[d], tail, rfl, rfl, hsource ▸ .operator ho (by simp [hgoesOn])⟩
  split at h
  · next hc =>
    split at h
    · next hnext =>
      cases h
      obtain ⟨tail, rfl⟩ := List.head?_eq_some_iff.1 hnext
      subst hc
      exact ⟨['='], tail, rfl, rfl,
        .operator (o := ⟨['!', '='], .notEqual, "!=", []⟩) (by decide) fun _ _ => List.not_mem_nil⟩
    · cases h
  split at h
  · next hc =>
    split at h
    · next hnext =>
      cases h
      obtain ⟨tail, rfl⟩ := List.head?_eq_some_iff.1 hnext
      subst hc
      exact ⟨['|'], tail, rfl, rfl,
        .operator (o := ⟨['|', '|'], .concat, "||", []⟩) (by decide) fun _ _ => List.not_mem_nil⟩
    · cases h
  split at h
  · next hc => exact isPiece_of_quotedPiece (by rcases hc with rfl | rfl <;> decide) h
  split at h
  · next hc => exact isPiece_of_quotedPiece (by rw [hc]; decide) h
  split at h
  · next hdigit =>
    cases h
    have hsplit := List.take_append_drop (numberLength false false rest) rest
    have hlength : (rest.take (numberLength false false rest)).length =
        numberLength false false rest := by
      rw [List.length_take, Nat.min_eq_left (numberLength_le ..)]
    exact ⟨_, _, hsplit.symm, hlength.symm, .number hdigit (by rw [hsplit, hlength])⟩
  split at h
  · next hletter =>
    cases h
    refine ⟨rest.takeWhile continuesWord, rest.dropWhile continuesWord, ?_, rfl, .word ?_ ?_ ?_⟩
    · exact List.takeWhile_append_dropWhile.symm
    · simpa [beginsName] using hletter
    · exact fun d hd => List.mem_takeWhile_imp hd
    · exact stops_dropWhile _ _
  · cases h

theorem piece_operator {o : Operator} (ho : o ∈ operators) {rest : List Char}
    (hrest : ∀ c ∈ rest.head?, c ∉ o.goesOn) :
    ∃ c run, o.source = c :: run ∧
      ∀ position, piece position c (run ++ rest) = .ok (some (o.kind, o.text), run.length) := by
  simp only [operators, List.mem_cons, List.not_mem_nil, or_false] at ho
  rcases ho with rfl | rfl | rfl | rfl | rfl | rfl | rfl | rfl | rfl | rfl | rfl | rfl | rfl | rfl |
    rfl | rfl | rfl | rfl | rfl
  all_goals
    refine ⟨_, _, rfl, fun position => ?_⟩
    cases rest with
    | nil => rfl
    | cons d rest =>
      have hd := hrest d rfl
      simp_all [piece, punctuation?, comparison?]

/-- **One is the first piece of a text.** -/
theorem IsPiece.exists_piece {span rest : List Char} {lexeme : Lexeme}
    (h : IsPiece span rest lexeme) :
    ∃ c run, span = c :: run ∧
      ∀ position, piece position c (run ++ rest) = .ok (lexeme, run.length) := by
  cases h with
  | @blank c rest hc =>
    refine ⟨c, [], rfl, fun position => ?_⟩
    have hblank : c = ' ' ∨ c = '\t' ∨ c = '\n' ∨ c = '\r' := by simpa using hc
    rw [piece, if_pos hblank, List.length_nil]
  | @lineComment cs rest hcs hrest =>
    refine ⟨'-', '-' :: cs, rfl, fun position => ?_⟩
    have hrun : ('-' :: cs ++ rest).takeWhile (· ≠ '\n') = '-' :: cs :=
      takeWhile_append_of_stops (by simpa using hcs) fun c hc => by simp [hrest c hc]
    simp only [piece, hrun]
    rfl
  | @blockComment cs rest hcs =>
    refine ⟨'/', '*' :: (cs ++ ['*', '/']), rfl, fun position => ?_⟩
    have hlength := commentLength?_append hcs rest
    simp [piece, hlength]
  | operator ho hrest => exact piece_operator ho hrest
  | @quoted quote kind text rest hquote hrest =>
    refine ⟨quote, doubled quote text ++ [quote], rfl, fun position => ?_⟩
    have hquoted := quoted?_doubled quote text hrest
    simp only [quotes, List.mem_cons, Prod.mk.injEq, List.not_mem_nil, or_false] at hquote
    rcases hquote with ⟨rfl, rfl⟩ | ⟨rfl, rfl⟩ | ⟨rfl, rfl⟩
    all_goals simp [piece, punctuation?, comparison?, quotedPiece, hquoted]
  | number hc hrun => exact ⟨_, _, rfl, fun position => piece_number hc hrun⟩
  | word hc hrun hrest => exact ⟨_, _, rfl, fun position => piece_word hc hrun hrest⟩

theorem IsPiece.ne_nil {span rest : List Char} {lexeme : Lexeme} (h : IsPiece span rest lexeme) :
    span ≠ [] := by
  obtain ⟨c, run, rfl, -⟩ := h.exists_piece
  exact List.cons_ne_nil c run

/-- **A piece stays one** if what follows it is changed. -/
theorem IsPiece.of_follows {span rest rest' : List Char} {lexeme : Lexeme}
    (h : IsPiece span rest lexeme) (hrest : Follows lexeme rest rest') :
    IsPiece span rest' lexeme := by
  cases h with
  | blank hc => exact .blank hc
  | lineComment hcs hend =>
    refine .lineComment hcs fun c hc => ?_
    rcases hrest.head c hc with h | ⟨hnone, -⟩
    · exact hend c h
    · exact absurd rfl hnone
  | blockComment hcs => exact .blockComment hcs
  | @operator o _ ho hend =>
    refine .operator ho fun c hc hgoesOn => ?_
    have hgap : ∀ o ∈ operators, ∀ c ∈ o.goesOn, c ∉ [' ', '/'] := by simp [operators]
    exact hend c (hrest.head_eq (hgap o ho c hgoesOn) hc) hgoesOn
  | @quoted quote kind text _ hquote hend =>
    have hgap : ∀ p ∈ quotes, p.1 ∉ [' ', '/'] := by decide
    exact .quoted hquote fun hc => hend (hrest.head_eq (hgap _ hquote) hc)
  | number hc hrun => exact .number hc (numberLength_of_follows hrest hrun)
  | word hc hrun hend =>
    refine .word hc hrun fun c hc => ?_
    rcases hrest.head c hc with h | ⟨-, rfl | rfl⟩
    · exact hend c h
    · rfl
    · rfl

/-! ## Texts -/

/-- A piece of a text: its span, and its token if it is one. -/
structure Segment where
  span : List Char
  lexeme : Lexeme

/-- The text of segments one behind the other. -/
def source (segments : List Segment) : List Char :=
  segments.flatMap Segment.span

/-- The text is cut into these pieces. -/
inductive Splits : List Char → List Segment → Prop
  | nil : Splits [] []
  | cons {span lexeme rest segments} : IsPiece span rest lexeme → Splits rest segments →
      Splits (span ++ rest) (⟨span, lexeme⟩ :: segments)

/-- The tokens of the segments from `position` on. -/
def tokensFrom (position : ℕ) : List Segment → List Token
  | [] => []
  | s :: segments =>
    (s.lexeme.map fun l => ⟨l.1, l.2, position⟩).toList ++
      tokensFrom (position + s.span.length) segments

/-- What a token is, wherever it stands. -/
def content (t : Token) : TokenKind × String := (t.kind, t.text)

theorem source_cons (s : Segment) (segments : List Segment) :
    source (s :: segments) = s.span ++ source segments := List.flatMap_cons

theorem source_append (segments segments' : List Segment) :
    source (segments ++ segments') = source segments ++ source segments' := List.flatMap_append

theorem Splits.source_eq {cs : List Char} {segments : List Segment} (h : Splits cs segments) :
    source segments = cs := by
  induction h with
  | nil => rfl
  | cons _ _ ih => rw [source_cons, ih]

theorem Splits.span_ne_nil {cs : List Char} {segments : List Segment} (h : Splits cs segments) :
    ∀ s ∈ segments, s.span ≠ [] := by
  induction h with
  | nil => exact nofun
  | cons hspan _ ih => exact List.forall_mem_cons.2 ⟨hspan.ne_nil, ih⟩

/-- **A text has tokens exactly if it can be cut into pieces**, and then they are theirs. -/
theorem tokenizeFrom_eq_ok_iff {position : ℕ} {cs : List Char} {tokens : List Token} :
    tokenizeFrom position cs = .ok tokens ↔
      ∃ segments, Splits cs segments ∧
        tokens = tokensFrom position segments ++ [endOfText (position + cs.length)] := by
  have hnext : ∀ (position : ℕ) (c : Char) (run rest : List Char),
      position + run.length + 1 + rest.length = position + (c :: (run ++ rest)).length := by
    intro position c run rest
    simp only [List.length_cons, List.length_append]
    omega
  constructor
  · intro h
    fun_induction tokenizeFrom position cs generalizing tokens with
    | case1 position =>
      cases h
      exact ⟨[], .nil, rfl⟩
    | case2 => cases h
    | case3 => cases h
    | case4 position c rest more tokens' htokens kind text hpiece ih =>
      cases h
      obtain ⟨run, rest, rfl, rfl, hspan⟩ := isPiece_of_piece hpiece
      rw [List.drop_left] at ih htokens
      obtain ⟨segments, hsplits, rfl⟩ := ih htokens
      exact ⟨_, .cons hspan hsplits, by rw [hnext]; rfl⟩
    | case5 position c rest more tokens' htokens hpiece ih =>
      cases h
      obtain ⟨run, rest, rfl, rfl, hspan⟩ := isPiece_of_piece hpiece
      rw [List.drop_left] at ih htokens
      obtain ⟨segments, hsplits, rfl⟩ := ih htokens
      exact ⟨_, .cons hspan hsplits, by rw [hnext]; rfl⟩
  · rintro ⟨segments, hsplits, rfl⟩
    induction hsplits generalizing position with
    | nil => rw [tokenizeFrom]; rfl
    | @cons span lexeme rest segments hspan _ ih =>
      obtain ⟨c, run, rfl, hpiece⟩ := hspan.exists_piece
      rw [List.cons_append, tokenizeFrom, hpiece, ← hnext]
      simp only [List.drop_left, tokensFrom, List.length_cons, ← Nat.add_assoc, ih]
      cases lexeme with
      | none => rfl
      | some l => rfl

theorem tokenize_eq_ok_iff {text : String} {tokens : List Token} :
    tokenize text = .ok tokens ↔ ∃ segments, Splits text.toList segments ∧
      tokens = tokensFrom 0 segments ++ [endOfText text.length] := by
  rw [tokenize, tokenizeFrom_eq_ok_iff, Nat.zero_add, String.length_toList]

/-- No piece is the end of the text. -/
theorem IsPiece.kind_ne_eof {span rest : List Char} {kind : TokenKind} {text : String}
    (h : IsPiece span rest (some (kind, text))) : kind ≠ .eof := by
  cases h with
  | operator ho =>
    have hall : ∀ o ∈ operators, o.kind ≠ .eof := by decide
    exact hall _ ho
  | quoted hquote =>
    have hall : ∀ p ∈ quotes, p.2 ≠ .eof := by decide
    exact hall _ hquote
  | number => exact nofun
  | word => exact TokenKind.ofWord_ne_eof _

theorem Splits.kind_ne_eof {cs : List Char} {segments : List Segment} (h : Splits cs segments)
    (position : ℕ) : ∀ t ∈ tokensFrom position segments, t.kind ≠ .eof := by
  induction h generalizing position with
  | nil => exact nofun
  | @cons span lexeme rest segments hspan _ ih =>
    refine List.forall_mem_append.2 ⟨fun t ht => ?_, ih _⟩
    obtain ⟨l, rfl, rfl⟩ := Option.map_eq_some_iff.1 (Option.mem_toList.1 ht)
    exact hspan.kind_ne_eof

/-- **The tokens stand one behind the other.** -/
theorem Splits.pairwise {cs : List Char} {segments : List Segment} (h : Splits cs segments)
    (position : ℕ) :
    (tokensFrom position segments).Pairwise (·.position < ·.position) ∧
      ∀ t ∈ tokensFrom position segments, position ≤ t.position ∧
        t.position < position + cs.length := by
  induction h generalizing position with
  | nil => exact ⟨.nil, nofun⟩
  | @cons span lexeme rest segments hspan _ ih =>
    have hpos : 0 < span.length := List.length_pos_iff.2 hspan.ne_nil
    obtain ⟨hpairwise, hbounds⟩ := ih (position + span.length)
    have hfirst : ∀ t ∈ (lexeme.map fun l => Token.mk l.1 l.2 position).toList,
        t.position = position := by
      intro t ht
      obtain ⟨l, -, rfl⟩ := Option.map_eq_some_iff.1 (Option.mem_toList.1 ht)
      rfl
    refine ⟨List.pairwise_append.2 ⟨?_, hpairwise, fun t ht t' ht' => ?_⟩,
      List.forall_mem_append.2 ⟨fun t ht => ?_, fun t ht => ?_⟩⟩
    · cases lexeme with
      | none => exact .nil
      | some l => exact List.pairwise_singleton ..
    · have := (hbounds t' ht').1
      rw [hfirst t ht]
      omega
    · rw [hfirst t ht, List.length_append]
      omega
    · have := hbounds t ht
      rw [List.length_append]
      omega

/-- **A token stands where its span does.** -/
theorem mem_tokensFrom {position : ℕ} {segments : List Segment} {t : Token} :
    t ∈ tokensFrom position segments ↔ ∃ before s after, segments = before ++ s :: after ∧
      s.lexeme = some t.content ∧ t.position = position + (source before).length := by
  induction segments generalizing position with
  | nil => simp [tokensFrom]
  | cons s segments ih =>
    rw [tokensFrom, List.mem_append, Option.mem_toList, ih]
    constructor
    · rintro (ht | ⟨before, s', after, rfl, hs', ht⟩)
      · obtain ⟨l, hl, rfl⟩ := Option.map_eq_some_iff.1 ht
        exact ⟨[], s, segments, rfl, hl, rfl⟩
      · refine ⟨s :: before, s', after, rfl, hs', ?_⟩
        rw [ht, source_cons, List.length_append, Nat.add_assoc]
    · rintro ⟨before, s', after, hsegments, hs', ht⟩
      cases before with
      | nil =>
        obtain ⟨rfl, rfl⟩ := List.cons.inj hsegments
        exact .inl (Option.mem_def.2 (by rw [hs']; cases t; simp_all [content, source]))
      | cons q before =>
        obtain ⟨rfl, rfl⟩ := List.cons.inj hsegments
        refine .inr ⟨before, s', after, rfl, hs', ?_⟩
        rw [ht, source_cons, List.length_append, Nat.add_assoc]

theorem map_content_tokensFrom (position : ℕ) (segments : List Segment) :
    (tokensFrom position segments).map content = segments.filterMap Segment.lexeme := by
  induction segments generalizing position with
  | nil => rfl
  | cons s segments ih =>
    rw [tokensFrom, List.map_append, ih, List.filterMap_cons]
    cases s.lexeme with
    | none => rfl
    | some l => rfl

/-! ### Gaps -/

/-- What follows a piece changes only behind the next one. -/
theorem follows_append {lexeme : Lexeme} {next rest rest' : List Char} (hne : next ≠ [])
    (hdigit : ∀ c ∈ rest'.head?, c.isDigit = false) :
    Follows lexeme (next ++ rest) (next ++ rest') := by
  constructor
  · intro c hc
    rw [List.head?_append_of_ne_nil _ hne] at hc ⊢
    exact .inl hc
  · intro h
    obtain ⟨c, next, rfl⟩ := List.exists_cons_of_ne_nil hne
    rw [List.cons_append, beginsFraction_cons] at h ⊢
    cases next with
    | nil =>
      cases rest' with
      | nil => cases h.2
      | cons d rest' =>
        have hd := hdigit d rfl
        simp [hd] at h
    | cons d next => exact h

theorem follows_gap {lexeme : Lexeme} (hlexeme : lexeme ≠ none) {c : Char} (hc : c ∈ [' ', '/'])
    (rest gap : List Char) : Follows lexeme rest (c :: gap) := by
  constructor
  · rintro _ ⟨⟩
    exact .inr ⟨hlexeme, by simpa using hc⟩
  · intro h
    obtain ⟨rfl, -⟩ := beginsFraction_cons.1 h
    exact absurd hc (by decide)

/-- **A gap behind a token** leaves the pieces as they are. -/
theorem Splits.insert {cs : List Char} {before after : List Segment} {s : Segment} {c : Char}
    {gap : List Char} (h : Splits cs (before ++ s :: after)) (hs : s.lexeme ≠ none)
    (hc : c ∈ [' ', '/']) (hgap : IsPiece (c :: gap) (source after) none) :
    Splits (source before ++ (s.span ++ (c :: gap ++ source after)))
      (before ++ s :: ⟨c :: gap, none⟩ :: after) := by
  have hdigit : ∀ d ∈ (c :: gap ++ source after).head?, d.isDigit = false := by
    rintro _ ⟨⟩
    rcases List.mem_cons.1 hc with rfl | hc
    · rfl
    · rw [List.mem_singleton.1 hc]
      rfl
  induction before generalizing cs with
  | nil =>
    cases h with
    | cons hspan hafter =>
      have hsource := hafter.source_eq
      subst hsource
      exact .cons (hspan.of_follows (follows_gap hs hc ..)) (.cons hgap hafter)
  | cons q before ih =>
    cases h with
    | @cons span lexeme rest _ hspan hrest =>
      have hrest : Splits rest (before ++ s :: after) := hrest
      have hne : source before ++ s.span ≠ [] :=
        List.append_ne_nil_of_right_ne_nil _ (hrest.span_ne_nil s (by simp))
      have hsource : source before ++ s.span ++ source after = rest := by
        rw [← hrest.source_eq, source_append, source_cons, List.append_assoc]
      rw [source_cons, List.append_assoc]
      refine .cons (hspan.of_follows ?_) (ih hrest)
      rw [← hsource, ← List.append_assoc]
      exact follows_append hne hdigit

/-- The gaps that are opened between tokens: a blank, and a comment. -/
theorem isPiece_gap {gap : List Char} (h : gap ∈ [[' '], ['/', '*', '*', '/']])
    (rest : List Char) : ∃ c tail, gap = c :: tail ∧ c ∈ [' ', '/'] ∧ IsPiece gap rest none := by
  have hempty : ¬ ['*', '/'] <:+: [] ++ ['*'] := by simp [infix_pair_cons]
  rcases List.mem_pair.1 h with rfl | rfl
  · exact ⟨_, _, rfl, by decide, .blank (by decide)⟩
  · exact ⟨_, _, rfl, by decide, .blockComment hempty⟩

/-- **Tokenizing loses nothing.** A text that has tokens is cut into their spans, and into blanks
and comments.  The tokens stand where their spans do, and the end of the text behind them.  When a
blank or a comment is put right behind a token, the kinds and the texts of all tokens are the
same. -/
theorem tokenize_spans {text : String} {tokens : List Token} (h : tokenize text = .ok tokens) :
    ∃ segments, Splits text.toList segments ∧ source segments = text.toList ∧
      tokens = tokensFrom 0 segments ++ [endOfText text.length] ∧
      (∀ t ∈ tokensFrom 0 segments, t.kind ≠ .eof) ∧
      (∀ t, t ∈ tokensFrom 0 segments ↔ ∃ before s after, segments = before ++ s :: after ∧
        s.lexeme = some t.content ∧ t.position = (source before).length) ∧
      tokens.Pairwise (·.position < ·.position) ∧
      ∀ before s after, segments = before ++ s :: after → s.lexeme ≠ none →
        ∀ gap ∈ [" ", "/**/"], ∃ tokens',
          tokenize (String.ofList (source before ++ s.span ++ gap.toList ++ source after)) =
            .ok tokens' ∧ tokens'.map content = tokens.map content := by
  obtain ⟨segments, hsplits, rfl⟩ := tokenize_eq_ok_iff.1 h
  obtain ⟨hpairwise, hbounds⟩ := hsplits.pairwise 0
  refine ⟨segments, hsplits, hsplits.source_eq, rfl, hsplits.kind_ne_eof 0, fun t => ?_, ?_, ?_⟩
  · simpa only [Nat.zero_add] using @mem_tokensFrom 0 segments t
  · refine List.pairwise_append.2 ⟨hpairwise, List.pairwise_singleton .., fun t ht t' ht' => ?_⟩
    have hlt := (hbounds t ht).2
    rw [List.mem_singleton.1 ht']
    rwa [Nat.zero_add, String.length_toList] at hlt
  · rintro before s after rfl hs gap hgap
    have hgap : gap.toList ∈ [[' '], ['/', '*', '*', '/']] := by
      rcases List.mem_pair.1 hgap with rfl | rfl <;> decide
    obtain ⟨c, tail, hcons, hc, hpiece⟩ := isPiece_gap hgap (source after)
    rw [hcons] at hpiece ⊢
    have hinsert : Splits
        (String.ofList (source before ++ s.span ++ c :: tail ++ source after)).toList
        (before ++ s :: ⟨c :: tail, none⟩ :: after) := by
      rw [String.toList_ofList, List.append_assoc, List.append_assoc]
      exact hsplits.insert hs hc hpiece
    refine ⟨_, tokenize_eq_ok_iff.2 ⟨_, hinsert, rfl⟩, ?_⟩
    simp [map_content_tokensFrom, List.filterMap_append, List.filterMap_cons, content, endOfText]

/-- Two dashes are a comment where one is a token. -/
theorem tokenize_spans_dashes :
    tokenize "a-1.5--b" = .ok [⟨.identifier, "a", 0⟩, ⟨.minus, "-", 1⟩, ⟨.number, "1.5", 2⟩,
      endOfText 8] ∧
      ∃ segments, Splits "a-1.5--b".toList segments ∧ source segments = "a-1.5--b".toList ∧
        [⟨.identifier, "a", 0⟩, ⟨.minus, "-", 1⟩, ⟨.number, "1.5", 2⟩, endOfText 8] =
          tokensFrom 0 segments ++ [endOfText 8] := by
  have h : tokenize "a-1.5--b" = .ok [⟨.identifier, "a", 0⟩, ⟨.minus, "-", 1⟩,
      ⟨.number, "1.5", 2⟩, endOfText 8] := by decide +kernel
  obtain ⟨segments, hsplits, hsource, htokens, -⟩ := tokenize_spans h
  exact ⟨h, segments, hsplits, hsource, htokens⟩

end Token

end StreamSql
