/-
  The text of an expression determines the tree.

  This holds of the trees of the grammar whose names need no quotes and whose floats are finite
  (`Vocabulary.plain`).  The text of such a tree begins with a word, a quote or a parenthesis,
  which tells words, texts, calls and CASE apart (`begins`); behind a parenthesis the next
  characters tell the head (`parenHead`).  Then the first operand tells where its mark begins,
  the mark where the next operand begins, and so on (`steps_inj`).

  * `chars_append_inj`: the text of a tree ends where it is seen to end, and no other tree has it;
  * `signatureOf_inj`: calls of one signature are the same call, up to the case of the name.
-/
import StreamSql.Plan
import StreamSql.Proofs.Layout

namespace StreamSql

namespace Expr

/-! ## How a text begins -/

/-- What a text begins with. -/
inductive Opening where
  | word | quote | call | case | paren
  deriving DecidableEq

/-- What the text of the tree begins with. -/
def opening : Expr → Opening
  | .literal (.text _) => .quote
  | .column _ | .literal _ => .word
  | .call _ _ => .call
  | .cases _ _ _ => .case
  | _ => .paren

/-- The opening of a text that begins with this word, which may be empty. -/
def openingOf (word next : List Char) : Opening :=
  if next.head? = some '(' then if word = [] then .paren else .call
  else if word = [] then .quote
  else if word = "CASE".toList then .case
  else .word

theorem chars_call (name : String) (args : List Expr) :
    ∃ t, (call name args).chars = name.toList ++ '(' :: t := by
  rw [chars, render]
  split
  · exact ⟨['*', ')'], by simp⟩
  · exact ⟨(", ".intercalate (renderList args)).toList ++ [')'], by simp⟩

/-- What a text with this head begins with. -/
def Head.opening : Head → Opening
  | .paren | .not | .minus => .paren
  | .call _ => .call
  | .subject | .search => .case

theorem Shaped.opening_eq {v : Vocabulary} {e : Expr} {l : Layout} (h : Shaped v e l) :
    e.opening = l.head.opening := by
  cases h <;> rfl

theorem Leaf.opening_ne {e : Expr} (h : Leaf e) : e.opening ≠ .case ∧ e.opening ≠ .paren := by
  cases h with
  | column | call => exact ⟨nofun, nofun⟩
  | @literal value => cases value <;> exact ⟨nofun, nofun⟩

/-- A tree in parentheses has a layout, and so has a CASE. -/
theorem shaped_of_opening {v : Vocabulary} {e : Expr} (he : Grammatical v e)
    (ho : e.opening = .case ∨ e.opening = .paren) : ∃ l, Shaped v e l := by
  rcases leaf_or_shaped he with hleaf | hshaped
  · rcases ho with h | h
    · exact absurd h hleaf.opening_ne.1
    · exact absurd h hleaf.opening_ne.2
  · exact hshaped

theorem chars_case {v : Vocabulary} {e : Expr} (he : Grammatical v e) (ho : e.opening = .case) :
    ∃ t, e.chars = "CASE".toList ++ ' ' :: t := by
  obtain ⟨l, hl⟩ := shaped_of_opening he (Or.inl ho)
  rw [hl.chars_eq]
  rw [hl.opening_eq] at ho
  cases hh : l.head with
  | subject => exact ⟨_, rfl⟩
  | search => exact ⟨"WHEN ".toList ++ (stepsText l.steps ++ closing l.steps), by simp [Head.text]⟩
  | _ => rw [hh] at ho; cases ho

theorem chars_paren {v : Vocabulary} {e : Expr} (he : Grammatical v e)
    (ho : e.opening = .paren) : ∃ t, e.chars = '(' :: t := by
  obtain ⟨l, hl⟩ := shaped_of_opening he (Or.inr ho)
  rw [hl.chars_eq]
  rw [hl.opening_eq] at ho
  cases hh : l.head with
  | paren | not | minus => exact ⟨_, rfl⟩
  | _ => rw [hh] at ho; cases ho

theorem isWord_of_opening {e : Expr} (ho : e.opening = .word) : e.isWord = true := by
  cases e with
  | column => rfl
  | literal value => cases value <;> first | rfl | cases ho
  | _ => cases ho

/-- **The first word** of a text, and what the text begins with. -/
theorem begins {e : Expr} (he : Grammatical .plain e) {r : List Char} (hr : Ends r) :
    ∃ word next, e.chars ++ r = word ++ next ∧ (∀ c ∈ word, Token.isBare c = true) ∧
      Stops Token.isBare next ∧ openingOf word next = e.opening ∧
      (e.opening = .word → word = e.chars ∧ next = r) ∧
      ∀ name args, e = .call name args → word = name.toList := by
  cases ho : e.opening with
  | word =>
    have hw := isWord_of_opening ho
    refine ⟨e.chars, r, rfl, bare_of_word he hw, hr.stops, ?_, fun _ => ⟨rfl, rfl⟩, ?_⟩
    · have hhead : r.head? ≠ some '(' := fun hc => by
        rcases hr _ hc with h | h | h <;> cases h
      have hcase : e.chars ≠ "CASE".toList := fun hc => by
        have hi := not_inner_of_word he hw
        rw [String.toList_injective hc] at hi
        exact hi (by decide)
      have hne : e.chars ≠ [] := fun hc => by
        cases hn : e.isNumber with
        | true =>
          obtain ⟨_, _, he', -⟩ := (isNumeral_of_isNumber he hn).head
          rw [hc] at he'
          cases he'
        | false =>
          obtain ⟨_, _, he', -⟩ := beginsName_of_word he hw hn
          rw [hc] at he'
          cases he'
      rw [openingOf, if_neg hhead, if_neg hne, if_neg hcase]
    · rintro name args rfl
      cases ho
  | quote =>
    cases e with
    | literal value =>
      cases value with
      | text s =>
        refine ⟨[], (literal (.text s)).chars ++ r, rfl, List.forall_mem_nil _, ?_, ?_, by rintro ⟨⟩,
          by rintro _ _ ⟨⟩⟩
        all_goals rw [chars_text]
        · rintro _ ⟨⟩
          decide
        · rfl
      | _ => cases ho
    | _ => cases ho
  | call =>
    cases e with
    | call name args =>
      obtain ⟨t, ht⟩ := chars_call name args
      cases he with
      | call hname _ =>
        obtain ⟨c, cs, hcs, -, hword⟩ := Token.isName_toList hname
        refine ⟨name.toList, '(' :: t ++ r, by rw [ht, List.append_assoc], fun d hd => ?_, ?_, ?_,
          by rintro ⟨⟩, ?_⟩
        · rw [hcs] at hd
          simp [Token.isBare, hword d hd]
        · rintro _ ⟨⟩
          decide
        · rw [hcs]
          rfl
        · rintro _ _ ⟨⟩
          rfl
    | literal value => cases value <;> cases ho
    | _ => cases ho
  | case =>
    obtain ⟨t, ht⟩ := chars_case he ho
    have hbare : "CASE".toList.all Token.isBare = true := by decide
    refine ⟨"CASE".toList, ' ' :: t ++ r, by rw [ht, List.append_assoc],
      List.all_eq_true.1 hbare, ?_, rfl, by rintro ⟨⟩, ?_⟩
    · rintro _ ⟨⟩
      decide
    · rintro name args rfl
      cases ho
  | paren =>
    obtain ⟨t, ht⟩ := chars_paren he ho
    refine ⟨[], '(' :: t ++ r, by rw [ht]; rfl, List.forall_mem_nil _, ?_, rfl,
      by rintro ⟨⟩, ?_⟩
    · rintro _ ⟨⟩
      decide
    · rintro name args rfl
      cases ho

/-- A text begins with a digit or a sign only if it is that of a number. -/
theorem head_cases {e : Expr} (he : Grammatical .plain e) :
    e.isNumber = true ∧ IsNumeral e.chars ∨
      e.isNumber = false ∧ ∃ c cs, e.chars = c :: cs ∧
        (Token.beginsName c = true ∨ c = '\x27' ∨ c = '(') := by
  cases hn : e.isNumber with
  | true => exact Or.inl ⟨rfl, isNumeral_of_isNumber he hn⟩
  | false =>
    refine Or.inr ⟨rfl, ?_⟩
    cases ho : e.opening with
    | word =>
      obtain ⟨c, cs, hcs, hc, -⟩ := beginsName_of_word he (isWord_of_opening ho) hn
      exact ⟨c, cs, hcs, Or.inl hc⟩
    | quote =>
      cases e with
      | literal value =>
        cases value with
        | text s => exact ⟨_, _, chars_text s, Or.inr (Or.inl rfl)⟩
        | _ => cases ho
      | _ => cases ho
    | call =>
      cases he with
      | @call name args hname =>
        obtain ⟨t, ht⟩ := chars_call name args
        obtain ⟨c, cs, hcs, hc, -⟩ := Token.isName_toList hname
        exact ⟨c, cs ++ '(' :: t, by rw [ht, hcs]; rfl, Or.inl hc⟩
      | @literal value => cases value <;> cases ho
      | _ => cases ho
    | case =>
      obtain ⟨t, ht⟩ := chars_case he ho
      exact ⟨'C', "ASE".toList ++ ' ' :: t, ht, Or.inl (by decide)⟩
    | paren =>
      obtain ⟨t, ht⟩ := chars_paren he ho
      exact ⟨'(', t, ht, Or.inr (Or.inr rfl)⟩

/-- No text begins with punctuation. -/
theorem head_ne {e : Expr} (he : Grammatical .plain e) {c : Char} (hc : c ∈ [')', '*'])
    (t r : List Char) : e.chars ++ r ≠ c :: t := by
  intro ht
  have hpunctuation : ∀ c ∈ [')', '*'], Token.beginsName c = false ∧ c ≠ '\x27' ∧
      c ≠ '(' ∧ c.isDigit = false ∧ c ≠ '-' := by
    simp only [List.forall_mem_cons]
    exact ⟨by decide, by decide, nofun⟩
  obtain ⟨hname, hquote, hparen, hdigit, hminus⟩ := hpunctuation c hc
  rcases head_cases he with ⟨-, hnumeral⟩ | ⟨-, d, ds, hds, hd⟩
  · obtain ⟨d, ds, hds, hd⟩ := hnumeral.head
    rw [hds] at ht
    obtain ⟨rfl, -⟩ := List.cons.inj ht
    rcases hd with hd | ⟨hd, -⟩
    · rw [hdigit] at hd
      cases hd
    · exact hminus hd
  · rw [hds] at ht
    obtain ⟨rfl, -⟩ := List.cons.inj ht
    rcases hd with hd | hd | hd
    · rw [hname] at hd
      cases hd
    · exact hquote hd
    · exact hparen hd

/-- No text begins with NOT or WHEN. -/
theorem not_keyword_start {e : Expr} (he : Grammatical .plain e) {r : List Char} (hr : Ends r)
    {k : String} (hk : k ∈ ["NOT", "WHEN"]) (t : List Char) :
    e.chars ++ r ≠ k.toList ++ ' ' :: t := by
  intro ht
  obtain ⟨word, next, hsplit, hbare, hstops, hopening, hword, -⟩ := begins he hr
  have hkeywords : ∀ k ∈ ["NOT", "WHEN"], k.toList.all Token.isBare = true ∧
      k.toList ≠ [] ∧ k.toList ≠ "CASE".toList ∧ k ∈ Token.inner := by decide
  obtain ⟨hkbare, hkne, hkcase, hkinner⟩ := hkeywords k hk
  obtain ⟨rfl, rfl⟩ := run_inj hbare (List.all_eq_true.1 hkbare) hstops (by rintro _ ⟨⟩; decide) (hsplit ▸ ht)
  have ho : e.opening = .word := by
    rw [← hopening, openingOf, if_neg (by simp), if_neg hkne, if_neg hkcase]
  have hi := not_inner_of_word he (isWord_of_opening ho)
  rw [String.toList_injective (hword ho).1] at hkinner
  exact hi hkinner

/-! ## Heads -/

/-- A text in parentheses begins with this head. -/
def parenHead (text : List Char) : Head :=
  if "NOT ".toList.isPrefixOf text then .not
  else
    match text with
    | '-' :: c :: _ => if c.isDigit then .paren else .minus
    | _ => .paren

/-- A CASE begins with this head. -/
def caseHead (text : List Char) : Head :=
  if "WHEN ".toList.isPrefixOf text then .search else .subject

theorem ends_mark (m : Mark) (t : List Char) : Ends (m.text.toList ++ t) := by
  have hall : ∀ m ∈ Mark.all, m.text.toList.head? = some ' ' ∨ m.text.toList.head? = some ')' ∨
      m.text.toList.head? = some ',' := by decide +kernel
  intro c hc
  rw [List.head?_append] at hc
  rcases hall m m.mem_all with h | h | h <;> rw [h] at hc <;> cases hc <;> decide

theorem parenHead_operand {e : Expr} (he : Grammatical .plain e) {r : List Char} (hr : Ends r) :
    parenHead (e.chars ++ r) = .paren := by
  have hnot : ¬ "NOT ".toList.isPrefixOf (e.chars ++ r) := fun h => by
    obtain ⟨t, ht⟩ := List.isPrefixOf_iff_prefix.1 h
    exact not_keyword_start he hr (k := "NOT") (by simp) t (ht.symm.trans (by simp))
  unfold parenHead
  rw [if_neg hnot]
  split
  · next c t ht =>
    split
    · rfl
    · next hdigit =>
      rcases head_cases he with ⟨-, hnumeral⟩ | ⟨-, d, ds, hds, hd⟩
      · obtain ⟨d, ds, hds, hd⟩ := hnumeral.head
        rw [hds] at ht
        obtain ⟨rfl, htail⟩ := List.cons.inj ht
        rcases hd with hd | ⟨-, d', ds', rfl, hd'⟩
        · cases hd
        · obtain ⟨rfl, -⟩ := List.cons.inj htail
          exact absurd hd' hdigit
      · rw [hds] at ht
        obtain ⟨rfl, -⟩ := List.cons.inj ht
        exact absurd hd (by decide)
  · rfl

theorem parenHead_minus {e : Expr} (he : Grammatical .plain e) (hn : e.isNumber = false)
    (r : List Char) : parenHead ('-' :: (e.chars ++ r)) = .minus := by
  rcases head_cases he with ⟨hnumber, -⟩ | ⟨-, d, ds, hds, hd⟩
  · rw [hn] at hnumber
    cases hnumber
  · have hdigit : d.isDigit = false := by
      rcases hd with hd | rfl | rfl
      · cases hdigit : d.isDigit with
        | false => rfl
        | true =>
          rw [not_beginsName_of_isDigit hdigit] at hd
          cases hd
      · rfl
      · rfl
    rw [hds]
    simp [parenHead, hdigit]

theorem caseHead_operand {e : Expr} (he : Grammatical .plain e) {r : List Char} (hr : Ends r) :
    caseHead (e.chars ++ r) = .subject := by
  refine if_neg fun h => ?_
  obtain ⟨t, ht⟩ := List.isPrefixOf_iff_prefix.1 h
  exact not_keyword_start he hr (k := "WHEN") (by simp) t (ht.symm.trans (by simp))

theorem Shaped.minus_operand {v : Vocabulary} {e : Expr} {l : Layout} (h : Shaped v e l)
    (hm : l.head = .minus) : ∀ s ∈ l.steps, s.1.isNumber = false := by
  cases h with
  | minus hn => exact List.forall_mem_singleton.2 hn
  | _ => cases hm

/-- The text of a tree with operands: its head, the first operand, and what ends it. -/
theorem Shaped.chars_append {v : Vocabulary} {e : Expr} {l : Layout} (h : Shaped v e l)
    (r : List Char) :
    ∃ s ∈ l.steps, ∃ x, Ends x ∧ e.chars ++ r = l.head.text.toList ++ (s.1.chars ++ x) := by
  have htrail := h.trail
  rw [h.chars_eq]
  cases hsteps : l.steps with
  | nil =>
    rw [hsteps] at htrail
    cases htrail
  | cons s rest =>
    exact ⟨s, List.mem_cons_self, s.2.text.toList ++ (stepsText rest ++ (closing (s :: rest) ++ r)),
      ends_mark s.2 _, by simp only [stepsText, List.append_assoc]⟩

theorem Shaped.parenHead_eq {e : Expr} {l : Layout} (h : Shaped .plain e l)
    (ho : l.head.opening = .paren) (r : List Char) :
    ∃ t, e.chars ++ r = '(' :: t ∧ parenHead t = l.head := by
  obtain ⟨s, hs, x, hx, htext⟩ := h.chars_append r
  have hop := h.operands s hs
  rw [htext]
  cases hh : l.head with
  | paren => exact ⟨_, rfl, parenHead_operand hop hx⟩
  | not => exact ⟨"NOT ".toList ++ (s.1.chars ++ x), rfl, by simp [parenHead]⟩
  | minus => exact ⟨_, rfl, parenHead_minus hop (h.minus_operand hh s hs) x⟩
  | _ => rw [hh] at ho; cases ho

theorem Shaped.caseHead_eq {e : Expr} {l : Layout} (h : Shaped .plain e l)
    (ho : l.head.opening = .case) (r : List Char) :
    ∃ t, e.chars ++ r = "CASE ".toList ++ t ∧ caseHead t = l.head := by
  obtain ⟨s, hs, x, hx, htext⟩ := h.chars_append r
  rw [htext]
  cases hh : l.head with
  | subject => exact ⟨_, rfl, caseHead_operand (h.operands s hs) hx⟩
  | search => exact ⟨"WHEN ".toList ++ (s.1.chars ++ x), by simp [Head.text], by simp [caseHead]⟩
  | _ => rw [hh] at ho; cases ho

/-! ## Operands -/

theorem mark_inj {m m' : Mark} {t t' : List Char} (ht : m.isLast = false → t.head? ≠ some ')')
    (ht' : m'.isLast = false → t'.head? ≠ some ')')
    (h : m.text.toList ++ t = m'.text.toList ++ t') : m = m' ∧ t = t' := by
  have hlonger : ∀ {a b : Mark} {u w : List Char}, (a.isLast = false → u.head? ≠ some ')') →
      a.text.toList ++ u = b.text.toList ++ w → a.text.toList <+: b.text.toList → a = b :=
    fun {a b u w} hu hab hpre => by
      obtain ⟨d, hd⟩ := hpre
      rcases Mark.eq_or_of_isPrefixOf a a.mem_all b b.mem_all
        (List.isPrefixOf_iff_prefix.2 ⟨d, hd⟩) with heq | ⟨hlast, hhead⟩
      · exact heq
      · rw [← hd, List.drop_left] at hhead
        rw [← hd, List.append_assoc, List.append_cancel_left_eq] at hab
        exact absurd (by rw [hab, List.head?_append, hhead]; rfl) (hu hlast)
  have hm : m = m' := by
    rcases List.prefix_or_prefix_of_prefix (List.prefix_append m.text.toList t)
      (h ▸ List.prefix_append m'.text.toList t') with hpre | hpre
    · exact hlonger ht h hpre
    · exact (hlonger ht' h.symm hpre).symm
  subst hm
  exact ⟨rfl, List.append_cancel_left h⟩

/-- What the text of an operand and what follows it determine. -/
def Determined (e : Expr) : Prop :=
  ∀ {e' : Expr} {r r' : List Char}, Grammatical .plain e' → Ends r → Ends r' →
    e.chars ++ r = e'.chars ++ r' → e = e' ∧ r = r'

theorem Trail.head_ne {steps : List Step} (ht : Trail steps)
    (hs : ∀ s ∈ steps, Grammatical .plain s.1) (x : List Char) :
    (stepsText steps ++ x).head? ≠ some ')' := by
  intro h
  obtain ⟨t, ht'⟩ : ∃ t, stepsText steps ++ x = ')' :: t := by
    cases htext : stepsText steps ++ x with
    | nil => rw [htext] at h; cases h
    | cons c t => rw [htext] at h; exact ⟨t, by rw [Option.some.inj h]⟩
  cases ht with
  | last | cons =>
    rw [stepsText, List.append_assoc] at ht'
    exact Expr.head_ne (hs _ List.mem_cons_self) (by simp) t _ ht'

theorem step_inj {e e' : Expr} {m m' : Mark} (hd : Determined e) (he' : Grammatical .plain e')
    {t t' : List Char} (ht : m.isLast = false → t.head? ≠ some ')')
    (ht' : m'.isLast = false → t'.head? ≠ some ')')
    (h : stepsText [(e, m)] ++ t = stepsText [(e', m')] ++ t') : (e, m) = (e', m') ∧ t = t' := by
  simp only [stepsText, List.append_nil, List.append_assoc] at h
  obtain ⟨heq, hmark⟩ := hd he' (ends_mark m t) (ends_mark m' t') h
  obtain ⟨hm, htail⟩ := mark_inj ht ht' hmark
  exact ⟨by rw [heq, hm], htail⟩

/-- **The operands and the marks** are determined by their text. -/
theorem steps_inj {steps steps' : List Step} (ht : Trail steps) (ht' : Trail steps')
    (hs : ∀ s ∈ steps, Grammatical .plain s.1) (hs' : ∀ s ∈ steps', Grammatical .plain s.1)
    (ih : ∀ s ∈ steps, Determined s.1) {x x' : List Char}
    (h : stepsText steps ++ x = stepsText steps' ++ x') : steps = steps' ∧ x = x' := by
  have hsplit : ∀ (s : Step) (rest : List Step) (y : List Char),
      stepsText (s :: rest) ++ y = stepsText [s] ++ (stepsText rest ++ y) := fun s rest y => by
    simp [stepsText]
  induction ht generalizing steps' with
  | @last e m hm =>
    cases ht' with
    | @last e' m' hm' =>
      obtain ⟨heq, hx⟩ := step_inj (ih _ List.mem_cons_self) (hs' _ List.mem_cons_self)
        (by simp [hm]) (by simp [hm']) h
      exact ⟨by rw [heq], hx⟩
    | @cons e' m' rest' hm' hrest' =>
      rw [hsplit (e', m')] at h
      have hne := hrest'.head_ne (fun s hs => hs' s (List.mem_cons_of_mem _ hs)) x'
      obtain ⟨heq, -⟩ := step_inj (ih _ List.mem_cons_self) (hs' _ List.mem_cons_self)
        (by simp [hm]) (fun _ => hne) h
      rw [(Prod.mk.inj heq).2, hm'] at hm
      cases hm
  | @cons e m rest hm hrest ihrest =>
    rw [hsplit (e, m)] at h
    have hne := hrest.head_ne (fun s h => hs s (List.mem_cons_of_mem _ h)) x
    cases ht' with
    | @last e' m' hm' =>
      obtain ⟨heq, -⟩ := step_inj (ih _ List.mem_cons_self) (hs' _ List.mem_cons_self)
        (fun _ => hne) (by simp [hm']) h
      rw [(Prod.mk.inj heq).2, hm'] at hm
      cases hm
    | @cons e' m' rest' hm' hrest' =>
      rw [hsplit (e', m')] at h
      have hne' := hrest'.head_ne (fun s hs => hs' s (List.mem_cons_of_mem _ hs)) x'
      obtain ⟨heq, htail⟩ := step_inj (ih _ List.mem_cons_self) (hs' _ List.mem_cons_self)
        (fun _ => hne) (fun _ => hne') h
      obtain ⟨hrest, hx⟩ := ihrest hrest' (fun s h => hs s (List.mem_cons_of_mem _ h))
        (fun s h => hs' s (List.mem_cons_of_mem _ h))
        (fun s h => ih s (List.mem_cons_of_mem _ h)) htail
      exact ⟨by rw [heq, hrest], hx⟩

/-- Trees with operands and one head are determined if their operands are. -/
theorem layout_inj {e e' : Expr} {l l' : Layout} (h : Shaped .plain e l)
    (h' : Shaped .plain e' l') (hhead : l.head = l'.head) (ih : ∀ s ∈ l.steps, Determined s.1)
    {r r' : List Char} (he : e.chars ++ r = e'.chars ++ r') : e = e' ∧ r = r' := by
  rw [h.chars_eq, h'.chars_eq, hhead] at he
  simp only [List.append_assoc, List.append_cancel_left_eq] at he
  obtain ⟨hsteps, hrest⟩ := steps_inj h.trail h'.trail h.operands h'.operands ih he
  have hassemble := h.assemble_eq
  rw [hhead, hsteps, h'.assemble_eq] at hassemble
  rw [hsteps] at hrest
  exact ⟨(Option.some.inj hassemble).symm, List.append_cancel_left hrest⟩

/-! ## Trees -/

/-- Equal texts have the same opening, and the same word at the beginning. -/
theorem begins_inj {e e' : Expr} (he : Grammatical .plain e) (he' : Grammatical .plain e')
    {r r' : List Char} (hr : Ends r) (hr' : Ends r') (h : e.chars ++ r = e'.chars ++ r') :
    e.opening = e'.opening ∧ (e.opening = .word → e.chars = e'.chars ∧ r = r') ∧
      ∀ name args name' args', e = .call name args → e' = .call name' args' → name = name' := by
  obtain ⟨word, next, hsplit, hbare, hstops, hopening, hword, hcall⟩ := begins he hr
  obtain ⟨word', next', hsplit', hbare', hstops', hopening', hword', hcall'⟩ := begins he' hr'
  obtain ⟨rfl, rfl⟩ := run_inj hbare hbare' hstops hstops'
    (hsplit.symm.trans (h.trans hsplit'))
  have ho : e.opening = e'.opening := hopening.symm.trans hopening'
  refine ⟨ho, fun hw => ?_, fun name args name' args' hc hc' => ?_⟩
  · obtain ⟨hchars, hnext⟩ := hword hw
    obtain ⟨hchars', hnext'⟩ := hword' (ho ▸ hw)
    exact ⟨hchars.symm.trans hchars', hnext.symm.trans hnext'⟩
  · exact String.toList_injective ((hcall name args hc).symm.trans (hcall' name' args' hc'))

/-- The text of a call without arguments goes on with punctuation. -/
theorem chars_call_nil (name : String) : ∃ c t, c ∈ [')', '*'] ∧
    (call name []).chars = name.toList ++ '(' :: c :: t := by
  rw [chars, render]
  split
  · exact ⟨'*', [')'], by simp, by simp⟩
  · exact ⟨')', [], by simp, by simp [renderList]⟩

theorem chars_call_cons (name : String) (e : Expr) (rest : List Expr) :
    (call name (e :: rest)).chars = name.toList ++ '(' :: stepsText (itemSteps (e :: rest)) := by
  rw [← stepsText_itemSteps]
  simp [chars, render]

/-- A call without arguments has another text than one with arguments. -/
theorem chars_call_ne {name : String} {e : Expr} {rest : List Expr} (he : Grammatical .plain e)
    (r r' : List Char) : (call name []).chars ++ r ≠ (call name (e :: rest)).chars ++ r' := by
  intro h
  obtain ⟨c, t, hc, hempty⟩ := chars_call_nil name
  obtain ⟨x, hx⟩ : ∃ x, stepsText (itemSteps (e :: rest)) = e.chars ++ x := by
    cases rest <;> exact ⟨_, rfl⟩
  rw [hempty, chars_call_cons, hx, List.append_assoc, List.append_assoc,
    List.append_cancel_left_eq, List.cons_append, List.cons_append, List.cons_append,
    List.append_assoc] at h
  exact head_ne he hc (t ++ r) (x ++ r') (List.cons.inj h).2.symm

/-- The arguments of a call are determined by its text. -/
theorem arguments_inj {name : String} {args args' : List Expr}
    (h : ∀ e ∈ args, Grammatical .plain e) (h' : ∀ e ∈ args', Grammatical .plain e)
    (ih : ∀ e ∈ args, Determined e) {r r' : List Char}
    (he : (call name args).chars ++ r = (call name args').chars ++ r') : args = args' ∧ r = r' := by
  cases args with
  | nil =>
    cases args' with
    | nil => exact ⟨rfl, List.append_cancel_left he⟩
    | cons e' rest' => exact absurd he (chars_call_ne (h' e' List.mem_cons_self) r r')
  | cons e rest =>
    cases args' with
    | nil => exact absurd he.symm (chars_call_ne (h e List.mem_cons_self) r' r)
    | cons e' rest' =>
      rw [chars_call_cons, chars_call_cons, List.append_assoc, List.append_assoc,
        List.append_cancel_left_eq] at he
      obtain ⟨hsteps, hr⟩ := steps_inj (trail_itemSteps e rest) (trail_itemSteps e' rest')
        (forall_itemSteps h) (forall_itemSteps h') (forall_itemSteps ih) (List.cons.inj he).2
      refine ⟨?_, hr⟩
      rw [← map_itemSteps (e :: rest), hsteps, map_itemSteps]

/-- Two texts in quotes. -/
theorem quote_determined {e e' : Expr} (ho : e.opening = .quote) (ho' : e'.opening = .quote)
    {r r' : List Char} (hr : Ends r) (hr' : Ends r') (h : e.chars ++ r = e'.chars ++ r') :
    e = e' ∧ r = r' := by
  have htext : ∀ {a : Expr}, a.opening = .quote → ∃ s, a = .literal (.text s) := fun {a} ha => by
    cases a with
    | literal value =>
      cases value with
      | text s => exact ⟨s, rfl⟩
      | _ => cases ha
    | _ => cases ha
  have hquote : ∀ {a : List Char}, Ends a → ∀ c ∈ a.head?, c ≠ '\x27' := fun ha c hc => by
    rcases ha c hc with rfl | rfl | rfl <;> decide
  obtain ⟨s, rfl⟩ := htext ho
  obtain ⟨s', rfl⟩ := htext ho'
  rw [chars_text, chars_text, List.cons_append, List.cons_append, List.append_assoc,
    List.append_assoc] at h
  obtain ⟨hs, hrest⟩ := quote_inj (hquote hr) (hquote hr') (List.cons.inj h).2
  exact ⟨by rw [String.toList_injective hs], hrest⟩

/-- Two calls. -/
theorem call_determined {name : String} {args : List Expr} {e' : Expr}
    (he : Grammatical .plain (.call name args)) (ih : ∀ a ∈ args, Determined a)
    (he' : Grammatical .plain e') (ho' : e'.opening = .call) {r r' : List Char} (hr : Ends r)
    (hr' : Ends r') (h : (call name args).chars ++ r = e'.chars ++ r') :
    call name args = e' ∧ r = r' := by
  obtain ⟨name', args', rfl⟩ : ∃ name' args', e' = .call name' args' := by
    cases e' with
    | call name' args' => exact ⟨name', args', rfl⟩
    | literal value => cases value <;> cases ho'
    | _ => cases ho'
  obtain ⟨-, -, hname⟩ := begins_inj he he' hr hr' h
  obtain rfl := hname name args name' args' rfl rfl
  cases he with
  | call _ hargs =>
    cases he' with
    | call _ hargs' => exact (arguments_inj hargs hargs' ih h).imp_left fun heq => by rw [heq]

/-- **The text of a tree** determines the tree, and where it ends. -/
theorem chars_append_inj {e : Expr} (he : Grammatical .plain e) : Determined e := by
  refine layout_induction (P := Determined) (fun {e} he hleaf e' r r' he' hr hr' h => ?_)
    (fun {e l} he hl ih e' r r' he' hr hr' h => ?_) he
  · obtain ⟨ho, hword, -⟩ := begins_inj he he' hr hr' h
    cases hopening : e.opening with
    | word =>
      obtain ⟨hchars, hrest⟩ := hword hopening
      exact ⟨word_inj he he' (isWord_of_opening hopening)
        (isWord_of_opening (ho ▸ hopening)) hchars, hrest⟩
    | quote => exact quote_determined hopening (ho ▸ hopening) hr hr' h
    | call =>
      cases hleaf with
      | column => cases hopening
      | @literal value => cases value <;> cases hopening
      | call => exact call_determined he (List.forall_mem_nil _) he' (ho ▸ hopening) hr hr' h
    | case => exact absurd hopening hleaf.opening_ne.1
    | paren => exact absurd hopening hleaf.opening_ne.2
  · obtain ⟨ho, -, -⟩ := begins_inj he he' hr hr' h
    have hopening := hl.opening_eq
    cases hhead : l.head.opening with
    | word | quote => cases hl <;> cases hhead
    | call =>
      rw [hhead] at hopening
      cases hl with
      | @call name a rest =>
        refine call_determined he (fun b hb => ?_) he' (ho ▸ hopening) hr hr' h
        obtain ⟨s, hs, rfl⟩ := List.mem_map.1 ((map_itemSteps (a :: rest)).symm ▸ hb)
        exact ih s hs
      | _ => cases hhead
    | case =>
      rw [hhead] at hopening
      obtain ⟨l', hl'⟩ := shaped_of_opening he' (Or.inl (ho ▸ hopening))
      obtain ⟨t, ht, hcase⟩ := hl.caseHead_eq hhead r
      obtain ⟨t', ht', hcase'⟩ := hl'.caseHead_eq (hl'.opening_eq.symm.trans (ho ▸ hopening)) r'
      have htail : t = t' := List.append_cancel_left (ht.symm.trans (h.trans ht'))
      exact layout_inj hl hl' (by rw [← hcase, ← hcase', htail]) ih h
    | paren =>
      rw [hhead] at hopening
      obtain ⟨l', hl'⟩ := shaped_of_opening he' (Or.inr (ho ▸ hopening))
      obtain ⟨t, ht, hparen⟩ := hl.parenHead_eq hhead r
      obtain ⟨t', ht', hparen'⟩ := hl'.parenHead_eq (hl'.opening_eq.symm.trans (ho ▸ hopening)) r'
      have htail : t = t' := (List.cons.inj (ht.symm.trans (h.trans ht'))).2
      exact layout_inj hl hl' (by rw [← hparen, ← hparen', htail]) ih h

end Expr

/-! ## Signatures -/

open StreamSql.Expr

/-- **Calls of one signature** are the same call, up to the case of the name. -/
theorem signatureOf_inj {name name' : String} {args args' : List Expr}
    (h : Grammatical .plain (.call name args)) (h' : Grammatical .plain (.call name' args'))
    (he : signatureOf name args = signatureOf name' args') :
    Text.upper name = Text.upper name' ∧ args = args' := by
  have hparen : ∀ {n : String}, Token.isName n = true → ∀ c ∈ (Text.upper n).toList,
      (c != '(') = true := fun {n} hn c hc => by
    obtain ⟨d, ds, hds, -, hword⟩ := Token.isName_toList hn
    rw [Text.upper, String.toList_ofList] at hc
    obtain ⟨a, ha, hca⟩ := List.mem_flatMap.1 hc
    refine bne_iff_ne.2 fun hcp => ?_
    refine Text.paren_not_mem_upperChar (fun hap => ?_) (hcp ▸ hca)
    have hfalse := hword a (hds ▸ ha)
    rw [hap] at hfalse
    exact absurd hfalse (by decide)
  cases h with
  | call hname hargs =>
    cases h' with
    | call hname' hargs' =>
      have hchars : (call (Text.upper name) args).chars = (call (Text.upper name') args').chars :=
        congrArg String.toList he
      obtain ⟨t, ht⟩ := chars_call (Text.upper name) args
      obtain ⟨t', ht'⟩ := chars_call (Text.upper name') args'
      have hstops : ∀ t : List Char, Stops (fun c => c != '(') ('(' :: t) := by
        rintro t _ ⟨⟩
        rfl
      have hupper := (run_inj (hparen hname) (hparen hname') (hstops t) (hstops t')
        (ht.symm.trans (hchars.trans ht'))).1
      have hequal : Text.upper name = Text.upper name' := String.toList_injective hupper
      rw [← hequal] at hchars
      have happend : (call (Text.upper name) args).chars ++ [] =
          (call (Text.upper name) args').chars ++ [] := by rw [hchars]
      exact ⟨hequal, (arguments_inj hargs hargs'
        (fun e ha => chars_append_inj (hargs e ha)) happend).1⟩

end StreamSql
