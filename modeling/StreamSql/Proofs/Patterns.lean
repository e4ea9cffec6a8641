/-
  The matching of LIKE.

  * `Regex.Matches`: what an expression matches, as a relation between the items and the parts of
    the text; `isMatch_iff`: the flags of `isMatch` follow it;
  * `read?_translate`: the text of a pattern is read as one item for each character, between the
    ends of the text;
  * `Pattern.Fits`: the text can be cut into pieces that the characters of a pattern stand for;
    `matches_regexOf_iff`: this is what the expression of a pattern matches;
  * `PatternCache.Sound`: what is kept under a pattern is its program; `Sound.compiled_fst`: what is
    kept makes no difference; `length_after_le`: it is never more than there is room for;
  * `Expr.eval_like_fits`: LIKE and NOT LIKE behind any history, for any engine that does what the
    relation says.
-/
import Mathlib.Data.List.Forall2
import Mathlib.Tactic.SplitIfs
import StreamSql.Expr.Eval
import StreamSql.Proofs.Strictness

namespace StreamSql

namespace Regex

/-! ## What an expression matches -/

/-- The item matches a piece of a text, between what stands in front of it and behind it. -/
def Item.Accepts (dotAll : Bool) (before piece after : List Char) : Item → Prop
  | .start => before = [] ∧ piece = []
  | .stop => after = [] ∧ piece = []
  | .one a => ∃ c, piece = [c] ∧ a.accepts dotAll c = true
  | .many a => ∀ c ∈ piece, a.accepts dotAll c = true

/-- The items match a piece of a text, one behind the other. -/
def Spans (dotAll : Bool) : List Item → List Char → List Char → List Char → Prop
  | [], _, piece, _ => piece = []
  | item :: rest, before, piece, after => ∃ p q, piece = p ++ q ∧
      item.Accepts dotAll before p (q ++ after) ∧ Spans dotAll rest (before ++ p) q after

/-- Some part of the text matches the expression. -/
def Matches (r : Regex) (text : List Char) : Prop :=
  ∃ before piece after, text = before ++ (piece ++ after) ∧
    Spans r.dotAll r.items before piece after

/-! ## Places of a text -/

/-- The flags tell at which places of a text, from the end of `before` on, `P` holds. -/
def Marks (P : List Char → List Char → Prop) : List Char → List Char → List Bool → Prop
  | before, [], flags => ∃ b, flags = [b] ∧ (b = true ↔ P before [])
  | before, c :: cs, flags => ∃ b rest, flags = b :: rest ∧ (b = true ↔ P before (c :: cs)) ∧
      Marks P (before ++ [c]) cs rest

section
variable {P Q : List Char → List Char → Prop} {dotAll : Bool} {item : Item}
  {before text : List Char} {flags : List Bool}

theorem Marks.congr (h : ∀ before after, P before after ↔ Q before after)
    (hm : Marks P before text flags) : Marks Q before text flags := by
  induction text generalizing before flags with
  | nil =>
    obtain ⟨b, rfl, hb⟩ := hm
    exact ⟨b, rfl, hb.trans (h _ _)⟩
  | cons c cs ih =>
    obtain ⟨b, rest, rfl, hb, hrest⟩ := hm
    exact ⟨b, rest, rfl, hb.trans (h _ _), ih hrest⟩

/-- At first every place is one where a match may begin. -/
theorem marks_everywhere (before text : List Char) :
    Marks (fun _ _ => True) before text (List.replicate (text.length + 1) true) := by
  induction text generalizing before with
  | nil => exact ⟨true, rfl, by simp⟩
  | cons c cs ih => exact ⟨true, _, rfl, by simp, ih _⟩

theorem Marks.any_iff (hm : Marks P before text flags) :
    flags.any id = true ↔ ∃ p q, text = p ++ q ∧ P (before ++ p) q := by
  induction text generalizing before flags with
  | nil =>
    obtain ⟨b, rfl, hb⟩ := hm
    simp [hb, and_assoc]
  | cons c cs ih =>
    obtain ⟨b, rest, rfl, hb, hrest⟩ := hm
    rw [List.any_cons, Bool.or_eq_true, id, hb, ih hrest]
    constructor
    · rintro (h | ⟨p, q, rfl, h⟩)
      · exact ⟨[], c :: cs, rfl, by simpa using h⟩
      · exact ⟨c :: p, q, rfl, by simpa using h⟩
    · rintro ⟨p, q, he, h⟩
      cases p with
      | nil =>
        obtain rfl : c :: cs = q := he
        exact Or.inl (by simpa using h)
      | cons d p =>
        obtain ⟨rfl, rfl⟩ := List.cons.inj he
        exact Or.inr ⟨p, q, rfl, by simpa using h⟩

/-! ## One item -/

/-- The item ends here, having begun where `P` holds. -/
def EndsAt (P : List Char → List Char → Prop) (dotAll : Bool) (item : Item)
    (before after : List Char) : Prop :=
  ∃ p q, before = p ++ q ∧ P p (q ++ after) ∧ item.Accepts dotAll p q after

/-- The item ends here, having begun further in front. -/
def Carried (P : List Char → List Char → Prop) (dotAll : Bool) (item : Item)
    (before after : List Char) : Prop :=
  ∃ p q c, before = p ++ (q ++ [c]) ∧ P p (q ++ c :: after) ∧
    item.Accepts dotAll p (q ++ [c]) after

theorem accepts_nil {after : List Char} :
    item.Accepts dotAll before [] after ↔
      item.matchesNothing before.isEmpty after.isEmpty = true := by
  cases item <;> simp [Item.Accepts, Item.matchesNothing]

theorem endsAt_iff {after : List Char} :
    EndsAt P dotAll item before after ↔ Carried P dotAll item before after ∨
      P before after ∧ item.matchesNothing before.isEmpty after.isEmpty = true := by
  constructor
  · rintro ⟨p, q, rfl, hp, hq⟩
    rcases List.eq_nil_or_concat q with rfl | ⟨q, c, rfl⟩
    · refine Or.inr ⟨by simpa using hp, ?_⟩
      rw [List.append_nil]
      exact accepts_nil.1 hq
    · rw [List.concat_eq_append] at hp hq ⊢
      exact Or.inl ⟨p, q, c, rfl, by simpa using hp, hq⟩
  · rintro (⟨p, q, c, rfl, hp, hq⟩ | ⟨hp, h⟩)
    · exact ⟨p, q ++ [c], rfl, by simpa using hp, hq⟩
    · exact ⟨before, [], by simp, by simpa using hp, accepts_nil.2 h⟩

/-- An item that ends behind a character has begun in front of it, or ends in front of it too. -/
theorem carried_concat_iff {c : Char} {cs : List Char} {begins ends : Bool}
    (hbegins : begins = true ↔ P before (c :: cs))
    (hends : ends = true ↔ EndsAt P dotAll item before (c :: cs)) :
    item.consumes dotAll c begins ends = true ↔ Carried P dotAll item (before ++ [c]) cs := by
  have hsplit : ∀ {p q : List Char} {d : Char},
      before ++ [c] = p ++ (q ++ [d]) ↔ before = p ++ q ∧ c = d := by
    intro p q d
    rw [← List.append_assoc, List.append_singleton_inj]
  cases item with
  | start => simp [Item.consumes, Carried, Item.Accepts]
  | stop => simp [Item.consumes, Carried, Item.Accepts]
  | one a =>
    rw [Item.consumes, Bool.and_eq_true, hbegins]
    constructor
    · rintro ⟨hp, ha⟩
      exact ⟨before, [], c, by simp, hp, c, rfl, ha⟩
    · rintro ⟨p, q, d, he, hp, e, hq, ha⟩
      obtain ⟨rfl, rfl⟩ := hsplit.1 he
      obtain ⟨rfl, rfl⟩ : q = [] ∧ c = e := List.append_singleton_inj.1 hq
      exact ⟨by simpa using hp, ha⟩
  | many a =>
    rw [Item.consumes, Bool.and_eq_true, hends]
    constructor
    · rintro ⟨⟨p, q, rfl, hp, hq⟩, ha⟩
      refine ⟨p, q, c, by simp, hp, fun d hd => ?_⟩
      rcases List.mem_append.1 hd with hd | hd
      · exact hq d hd
      · rwa [List.mem_singleton.1 hd]
    · rintro ⟨p, q, d, he, hp, hq⟩
      obtain ⟨rfl, rfl⟩ := hsplit.1 he
      exact ⟨⟨p, q, rfl, hp, fun d hd => hq d (List.mem_append_left _ hd)⟩, hq c (by simp)⟩

/-- One item more: from the places at which it may begin to those at which it may end. -/
theorem Marks.advance {first carried : Bool} (hfirst : first = before.isEmpty)
    (hcarried : carried = true ↔ Carried P dotAll item before text)
    (hm : Marks P before text flags) :
    Marks (EndsAt P dotAll item) before text (item.advance dotAll first carried text flags) := by
  subst hfirst
  induction text generalizing before carried flags with
  | nil =>
    obtain ⟨b, rfl, hb⟩ := hm
    refine ⟨_, rfl, ?_⟩
    rw [endsAt_iff, Bool.or_eq_true, Bool.and_eq_true, hcarried, hb]
    rfl
  | cons c cs ih =>
    obtain ⟨b, rest, rfl, hb, hrest⟩ := hm
    have hends : (carried || (b && item.matchesNothing before.isEmpty false)) = true ↔
        EndsAt P dotAll item before (c :: cs) := by
      rw [endsAt_iff, Bool.or_eq_true, Bool.and_eq_true, hcarried, hb]
      rfl
    have hnext := ih (carried_concat_iff hb hends) hrest
    rw [show (before ++ [c]).isEmpty = false by simp] at hnext
    exact ⟨_, _, rfl, hends, hnext⟩

/-- Items that end here, having begun where `P` holds. -/
def SpansTo (P : List Char → List Char → Prop) (dotAll : Bool) (items : List Item)
    (before after : List Char) : Prop :=
  ∃ p q, before = p ++ q ∧ P p (q ++ after) ∧ Spans dotAll items p q after

theorem spansTo_cons_iff {items : List Item} {after : List Char} :
    SpansTo P dotAll (item :: items) before after ↔
      SpansTo (EndsAt P dotAll item) dotAll items before after := by
  constructor
  · rintro ⟨p, _, rfl, hp, q, q', rfl, hq, hq'⟩
    exact ⟨p ++ q, q', by simp, ⟨p, q, rfl, by simpa using hp, hq⟩, hq'⟩
  · rintro ⟨_, q', rfl, ⟨p, q, rfl, hp, hq⟩, hq'⟩
    exact ⟨p, q ++ q', by simp, by simpa using hp, q, q', rfl, hq, hq'⟩

/-- All items, one after the other. -/
theorem Marks.foldl_advance (items : List Item) (hm : Marks P [] text flags) :
    Marks (SpansTo P dotAll items) [] text
      (items.foldl (fun begins item => item.advance dotAll true false text begins) flags) := by
  induction items generalizing P flags with
  | nil => exact hm.congr fun before after => by simp [SpansTo, Spans]
  | cons item items ih =>
    have hstep : Marks (EndsAt P dotAll item) [] text
        (item.advance dotAll true false text flags) :=
      hm.advance rfl (by simp [Carried])
    exact (ih hstep).congr fun _ _ => spansTo_cons_iff.symm

end

/-- The flags of `isMatch` follow the relation. -/
theorem isMatch_iff (r : Regex) (text : List Char) : r.isMatch text = true ↔ r.Matches text := by
  rw [isMatch, ((marks_everywhere [] text).foldl_advance r.items).any_iff]
  constructor
  · rintro ⟨p, after, rfl, before, piece, rfl, -, hspans⟩
    exact ⟨before, piece, after, by simp, hspans⟩
  · rintro ⟨before, piece, after, rfl, hspans⟩
    exact ⟨before ++ piece, after, by simp, before, piece, rfl, trivial, hspans⟩

/-! ## The text of a character -/

/-- Reading the text that stands for a character yields the character. -/
theorem foldlM_escape (items : List Item) (c : Char) :
    (escape c).foldlM Reading.next ⟨false, items⟩ = some ⟨false, .one (.char c) :: items⟩ := by
  by_cases hc : c ∈ metaCharacters
  · simp [escape, hc, Reading.next]
  · have hspecial : c ≠ '\\' ∧ c ≠ '^' ∧ c ≠ '$' ∧ c ≠ '.' ∧ c ≠ '*' := by
      refine ⟨?_, ?_, ?_, ?_, ?_⟩ <;> rintro rfl <;> exact hc (by decide)
    simp [escape, hc, Reading.next, hspecial]

end Regex

namespace Pattern

open Regex

/-! ## The expression of a pattern -/

/-- What a character of a pattern becomes. -/
def itemOf (c : Char) : Item :=
  if c = '%' then .many .any else if c = '_' then .one .any else .one (.char c)

/-- The expression of a pattern. -/
def regexOf (pattern : List Char) : Regex :=
  ⟨true, .start :: (pattern.map itemOf ++ [.stop])⟩

theorem foldlM_translateChar (items : List Item) (c : Char) :
    (translateChar c).foldlM Reading.next ⟨false, items⟩ = some ⟨false, itemOf c :: items⟩ := by
  unfold translateChar itemOf
  split_ifs with hany hone
  · rfl
  · rfl
  · exact foldlM_escape items c

theorem foldlM_translateChars (items : List Item) (pattern : List Char) :
    (pattern.flatMap translateChar).foldlM Reading.next ⟨false, items⟩ =
      some ⟨false, (pattern.map itemOf).reverse ++ items⟩ := by
  induction pattern generalizing items with
  | nil => rfl
  | cons c cs ih =>
    rw [List.flatMap_cons, List.foldlM_append, foldlM_translateChar]
    simp [ih]

/-- The text of a pattern is read as one item for each character, between the ends of the text. -/
theorem read?_translate (p : String) : read? (translate p) = some (regexOf p.toList) := by
  have htext : (translate p).toList = '(' :: '?' :: 's' :: ')' :: '^' ::
      (p.toList.flatMap translateChar ++ ['$']) := by
    simp [translate]
  have hread : ('^' :: (p.toList.flatMap translateChar ++ ['$'])).foldlM Reading.next {} =
      some ⟨false, .stop :: ((p.toList.map itemOf).reverse ++ [.start])⟩ := by
    rw [List.foldlM_cons]
    show (_ ++ ['$']).foldlM Reading.next ⟨false, [.start]⟩ = _
    rw [List.foldlM_append, foldlM_translateChars]
    rfl
  rw [read?, htext]
  simp [readItems?, hread, regexOf]

/-! ## What a pattern means -/

/-- A character of a pattern stands for this piece of a text. -/
def Stands (c : Char) (piece : List Char) : Prop :=
  if c = '%' then True else if c = '_' then piece.length = 1 else piece = [c]

/-- The text can be cut into pieces, one for each character of the pattern. -/
def Fits (pattern text : List Char) : Prop :=
  ∃ pieces, List.Forall₂ Stands pattern pieces ∧ pieces.flatten = text

theorem accepts_itemOf_iff {c : Char} {before piece after : List Char} :
    (itemOf c).Accepts true before piece after ↔ Stands c piece := by
  unfold itemOf Stands
  split_ifs <;> simp [Item.Accepts, Atom.accepts, List.length_eq_one_iff]

theorem spans_itemOf_iff {pattern before piece after : List Char} :
    Spans true (pattern.map itemOf ++ [.stop]) before piece after ↔
      after = [] ∧ Fits pattern piece := by
  induction pattern generalizing before piece with
  | nil => simp [Spans, Item.Accepts, Fits, eq_comm]
  | cons c cs ih =>
    simp only [List.map_cons, List.cons_append, Spans, accepts_itemOf_iff, ih]
    constructor
    · rintro ⟨p, _, rfl, hp, hafter, pieces, hpieces, rfl⟩
      exact ⟨hafter, p :: pieces, .cons hp hpieces, rfl⟩
    · rintro ⟨hafter, _, _ | ⟨hp, hpieces⟩, rfl⟩
      exact ⟨_, _, rfl, hp, hafter, _, hpieces, rfl⟩

/-- The expression of a pattern matches what the pattern fits. -/
theorem matches_regexOf_iff {pattern text : List Char} :
    (regexOf pattern).Matches text ↔ Fits pattern text := by
  constructor
  · rintro ⟨_, _, after, rfl, _, piece, rfl, ⟨rfl, rfl⟩, hspans⟩
    obtain ⟨rfl, hfits⟩ := spans_itemOf_iff.1 hspans
    simpa using hfits
  · intro hfits
    exact ⟨[], text, [], by simp, [], text, rfl, ⟨rfl, rfl⟩, spans_itemOf_iff.2 ⟨rfl, hfits⟩⟩

end Pattern

/-! ## Engines and what is kept -/

/-- The engine finds what the relation says, in the expressions of this grammar that it accepts. -/
def RegexEngine.Documented (engine : RegexEngine) : Prop :=
  ∀ expression r program, Regex.read? expression = some r →
    engine.compile expression = some program →
    ∀ text : String, engine.isMatch program text = true ↔ r.Matches text.toList

theorem Regex.engine_documented : Regex.engine.Documented := by
  intro expression r program hread hcompile text
  obtain ⟨hread', -⟩ := Option.filter_eq_some_iff.1 hcompile
  obtain rfl : r = program := Option.some.inj (hread.symm.trans hread')
  exact isMatch_iff r text.toList

/-- The expression of a pattern is accepted unless it is too large. -/
theorem Pattern.isSome_compile_iff {pattern : String} :
    (Regex.engine.compile (translate pattern)).isSome = true ↔
      (regexOf pattern.toList).isTooLarge = false := by
  simp [Regex.engine, read?_translate]

theorem Table.length_insert_le {α : Type} (t : Table α) (name : String) (value : α) :
    (t.insert name value).length ≤ t.length + 1 := by
  induction t with
  | nil => exact Nat.le_refl 1
  | cons row rest ih =>
    rw [Table.insert]
    split
    · exact Nat.le_succ _
    · exact Nat.succ_le_succ ih

namespace PatternCache

variable {engine : RegexEngine} {cache : PatternCache engine}

/-- What is kept after patterns have been looked up, one after the other. -/
def after (engine : RegexEngine) (patterns : List String) : PatternCache engine :=
  patterns.foldl (fun cache pattern => (cache.compiled pattern).2) {}

/-- What is kept under a pattern is its program. -/
def Sound (cache : PatternCache engine) : Prop :=
  ∀ pattern program, cache.programs.get? pattern = some program →
    engine.compile (Pattern.translate pattern) = some program

theorem sound_empty : ({} : PatternCache engine).Sound :=
  fun _ _ h => nomatch h

theorem Sound.keep (h : cache.Sound) {pattern : String} {program : engine.Program}
    (hprogram : engine.compile (Pattern.translate pattern) = some program) :
    (cache.keep pattern program).Sound := by
  intro other found hfound
  by_cases hother : pattern = other
  · subst hother
    rwa [PatternCache.keep, Table.get?_insert_self, ← hprogram] at hfound
  · rw [PatternCache.keep, Table.get?_insert_of_ne _ _ hother] at hfound
    split at hfound
    · exact nomatch hfound
    · exact h other found hfound

/-- What is kept makes no difference to the program that is found. -/
theorem Sound.compiled_fst (h : cache.Sound) (pattern : String) :
    (cache.compiled pattern).1 = engine.compile (Pattern.translate pattern) := by
  unfold compiled
  cases hget : cache.programs.get? pattern with
  | some program => exact (h pattern program hget).symm
  | none => cases hcompile : engine.compile (Pattern.translate pattern) <;> rfl

theorem Sound.compiled_snd (h : cache.Sound) (pattern : String) :
    (cache.compiled pattern).2.Sound := by
  unfold compiled
  cases hget : cache.programs.get? pattern with
  | some program => exact h
  | none =>
    cases hcompile : engine.compile (Pattern.translate pattern) with
    | some program => exact h.keep hcompile
    | none => exact h

/-- Whatever has been looked up, also when there was no room for it, every pattern that is kept has
    its own program. -/
theorem sound_after (engine : RegexEngine) (patterns : List String) :
    (after engine patterns).Sound :=
  List.foldlRecOn patterns _ sound_empty fun _ h pattern _ => h.compiled_snd pattern

/-- There is always room for what is kept. -/
theorem length_after_le (engine : RegexEngine) (patterns : List String) :
    (after engine patterns).programs.length ≤ capacity := by
  refine List.foldlRecOn patterns (motive := fun (c : PatternCache engine) =>
    c.programs.length ≤ capacity) _
    (Nat.zero_le _) fun cache h pattern _ => ?_
  unfold compiled
  cases hget : cache.programs.get? pattern with
  | some program => exact h
  | none =>
    cases hcompile : engine.compile (Pattern.translate pattern) with
    | none => exact h
    | some program =>
      refine Nat.le_trans (Table.length_insert_le ..) ?_
      split
      · exact Nat.succ_le_of_lt (by decide : 0 < capacity)
      · omega

end PatternCache

/-! ## The operators -/

namespace Value

variable {engine : RegexEngine}

/-- LIKE on a pattern, given its program. -/
theorem likeThrough_fst {cache : PatternCache engine} (hcache : cache.Sound) (negated : Bool)
    (a : Value) {pattern : String} {program : engine.Program}
    (hprogram : engine.compile (Pattern.translate pattern) = some program) :
    (likeThrough engine cache negated a (text pattern)).1 =
      .ok (boolean (engine.isMatch program a.render != negated)) := by
  have hfst : (cache.compiled pattern).1 = some program :=
    (hcache.compiled_fst pattern).trans hprogram
  rw [likeThrough, show cache.compiled pattern = (some program, (cache.compiled pattern).2) from
    Prod.ext hfst rfl]

/-- These are the results of LIKE and NOT LIKE on a value and a pattern: the truth value of the
    pattern fitting the value as it is displayed, and its negation. -/
def FitsAs (v : Value) (pattern : String) (like notLike : Except QueryError Value) : Prop :=
  ∃ fits : Bool, (fits = true ↔ Pattern.Fits pattern.toList v.render.toList) ∧
    like = .ok (boolean fits) ∧ notLike = .ok (boolean !fits)

theorem likeThrough_fits (hengine : engine.Documented) {cache : PatternCache engine}
    (hcache : cache.Sound) (v : Value) {pattern : String}
    (haccepted : (engine.compile (Pattern.translate pattern)).isSome = true) :
    v.FitsAs pattern (likeThrough engine cache false v (text pattern)).1
      (likeThrough engine cache true v (text pattern)).1 := by
  obtain ⟨program, hprogram⟩ := Option.isSome_iff_exists.1 haccepted
  have hmatch : engine.isMatch program v.render = true ↔
      (Pattern.regexOf pattern.toList).Matches v.render.toList :=
    hengine _ _ _ (Pattern.read?_translate pattern) hprogram v.render
  refine ⟨_, hmatch.trans Pattern.matches_regexOf_iff, ?_, ?_⟩
  · rw [likeThrough_fst hcache false v hprogram, Bool.bne_false]
  · rw [likeThrough_fst hcache true v hprogram, Bool.bne_true]

/-- On a value that is not NULL the pattern is looked up. -/
theorem binary_like {v : Value} (hv : v ≠ null) {pattern : String} :
    binary .like v (text pattern) = likeValue false v (text pattern) ∧
      binary .notLike v (text pattern) = likeValue true v (text pattern) := by
  cases v with
  | null => exact absurd rfl hv
  | _ => exact ⟨rfl, rfl⟩

end Value

namespace Expr

variable {s : Scope} {l r : Expr} {v : Value} {pattern : String}

/-- **What LIKE means.**  On NULL, LIKE and NOT LIKE are NULL.  On any other value and a pattern
    that is accepted, LIKE tells whether the value as it is displayed can be cut into pieces that
    the characters of the pattern stand for, and NOT LIKE is the negation.  It does not matter which
    patterns have been looked up before; no more of them are kept than there is room for. -/
theorem eval_like_fits (hl : l.eval s = .ok v) (hr : r.eval s = .ok (.text pattern)) :
    (v = .null → (binary .like l r).eval s = .ok .null ∧
      (binary .notLike l r).eval s = .ok .null) ∧
    (v ≠ .null →
      ((Regex.engine.compile (Pattern.translate pattern)).isSome = true →
        v.FitsAs pattern ((binary .like l r).eval s) ((binary .notLike l r).eval s)) ∧
      ∀ engine : RegexEngine, engine.Documented →
        (engine.compile (Pattern.translate pattern)).isSome = true → ∀ earlier : List String,
          v.FitsAs pattern
              (v.likeThrough engine (.after engine earlier) false (.text pattern)).1
              (v.likeThrough engine (.after engine earlier) true (.text pattern)).1 ∧
            (PatternCache.after engine earlier).programs.length ≤ PatternCache.capacity) := by
  have hstrict : ∀ {op : BinaryOp}, op.isStrict = true →
      (binary op l r).eval s = v.binary op (.text pattern) := by
    intro op hop
    rw [eval_strict hop, hl, hr]
    rfl
  rw [@hstrict .like rfl, @hstrict .notLike rfl]
  refine ⟨?_, fun hv => ⟨fun haccepted => ?_, fun engine hengine haccepted earlier => ?_⟩⟩
  · rintro rfl
    exact ⟨rfl, rfl⟩
  · rw [(Value.binary_like hv).1, (Value.binary_like hv).2]
    exact Value.likeThrough_fits Regex.engine_documented PatternCache.sound_empty v haccepted
  · exact ⟨Value.likeThrough_fits hengine (PatternCache.sound_after engine earlier) v haccepted,
      PatternCache.length_after_le engine earlier⟩

/-- A full stop stands for itself only, `_` for a quotation mark and `%` for a line feed, even when
    patterns have been dropped. -/
theorem eval_like_fits_newline :
    let s : Scope := { record := ⟨[("c", .text "a.'\n")]⟩, registry := {} }
    let earlier := (List.range 1001).map fun n => toString n
    (binary .like (column "c") (literal (.text "a._%"))).eval s = .ok (.boolean true) ∧
      ((Value.text "a.'\n").likeThrough Regex.engine (.after Regex.engine earlier) true
        (.text "a._%")).1 = .ok (.boolean false) := by
  intro s earlier
  have haccepted : (Regex.engine.compile (Pattern.translate "a._%")).isSome = true :=
    Pattern.isSome_compile_iff.2 (by decide)
  have hfits : Pattern.Fits "a._%".toList (Value.text "a.'\n").render.toList :=
    ⟨[['a'], ['.'], ['\''], ['\n']], by simp [Pattern.Stands], rfl⟩
  have hmain := (eval_like_fits (s := s) (l := column "c") (r := literal (.text "a._%"))
    (v := .text "a.'\n") (by with_unfolding_all rfl) rfl).2 nofun
  obtain ⟨fits, hfits', hlike, -⟩ := hmain.1 haccepted
  obtain ⟨⟨fits', hfits'', -, hnotLike⟩, -⟩ :=
    hmain.2 Regex.engine Regex.engine_documented haccepted earlier
  rw [hfits'.2 hfits] at hlike
  rw [hfits''.2 hfits] at hnotLike
  exact ⟨hlike, hnotLike⟩

/-- NULL is displayed as a text, which `%` fits, but the result is NULL. -/
theorem like_null_of_fits :
    ¬ ∀ (s : Scope) (l r : Expr) (v : Value) (pattern : String),
      l.eval s = .ok v → r.eval s = .ok (.text pattern) →
      (Regex.engine.compile (Pattern.translate pattern)).isSome = true →
      ((binary .like l r).eval s = .ok (.boolean true) ↔
        Pattern.Fits pattern.toList v.render.toList) := by
  intro h
  have hfits : Pattern.Fits "%".toList Value.null.render.toList :=
    ⟨[['N', 'U', 'L', 'L']], by simp [Pattern.Stands], rfl⟩
  have hlike := (h { record := ⟨[]⟩, registry := {} } (literal .null) (literal (.text "%")) .null
    "%" rfl rfl (Pattern.isSome_compile_iff.2 (by decide))).2 hfits
  exact nomatch hlike

end Expr

end StreamSql
