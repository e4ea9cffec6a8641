/-
  Compound durations.

  A duration that is not a bare number is cut into parts, each a number and the unit behind it:
  wherever characters of numbers begin behind others, a new part begins (`IsCut`).  Every text has
  such a cut.  The text is read as the sum of its parts, and not at all if one of them is invalid
  (`parseParts_cut`).  Texts that are read in this way begin with a number and end with a unit, so
  cuts of two of them make one of the text of both, which again is no bare number.

  * `Part`, `Part.duration?`: a part and its duration;
  * `IsCut cs ps`: the parts of a text;
  * `IsCompound text d`: a compound duration;
  * `parse_compound`: texts one behind the other, and texts with an invalid part.
-/
import StreamSql.Proofs.Dates
import StreamSql.Proofs.Lexing

namespace StreamSql

theorem Except.toOption_bind {ε α β : Type} (x : Except ε α) (f : α → Except ε β) :
    (x >>= f).toOption = x.toOption.bind fun a => (f a).toOption := by
  cases x <;> rfl

theorem Except.toOption_eq_some_iff {ε α : Type} {x : Except ε α} {a : α} :
    x.toOption = some a ↔ x = .ok a := by
  cases x <;> simp [Except.toOption]

/-- A trimmed text does not end with a blank. -/
theorem Text.not_blank_of_trim {s : String} (h : Text.trim s = s) {c : Char}
    (hc : c ∈ s.toList.getLast?) : Text.isBlank c = false := by
  rw [← h, Text.trim, String.toList_ofList, Text.trimChars, List.getLast?_reverse] at hc
  have hhead := List.head?_dropWhile_not Text.isBlank (s.toList.dropWhile Text.isBlank).reverse
  rw [Option.mem_def.1 hc] at hhead
  exact hhead

/-! ## Characters of numbers -/

namespace Duration

theorem toNat_lt_of_isAmount {c : Char} (h : isAmount c = true) : c.toNat < 58 := by
  simp only [isAmount, Char.isDigit, Bool.or_eq_true, Bool.and_eq_true, decide_eq_true_iff] at h
  rcases h with ⟨-, h⟩ | rfl
  · exact Nat.lt_succ_of_le (UInt32.le_iff_toNat_le.1 h)
  · decide

theorem isBlank_of_isAmount {c : Char} (h : isAmount c = true) : Text.isBlank c = false := by
  simp only [isAmount, Bool.or_eq_true, decide_eq_true_iff] at h
  rcases h with h | rfl
  · exact isBlank_of_isDigit h
  · decide

end Duration

namespace Numeral

open Duration

theorem mem_of_suffix {run cs : List Char} (hne : run ≠ []) (h : run <:+ cs) {d : Char}
    (hd : d ∈ cs.getLast?) : d ∈ run := by
  obtain ⟨before, rfl⟩ := h
  rw [List.getLast?_append_of_ne_nil _ hne] at hd
  exact List.mem_of_getLast? hd

theorem splitSign_suffix (cs : List Char) : (splitSign cs).2 <:+ cs := by
  unfold splitSign
  split
  · exact List.suffix_cons _ _
  · exact List.suffix_cons _ _
  · exact List.suffix_rfl

theorem natural?_eq_none_or (cs : List Char) :
    natural? cs = none ∨ cs ≠ [] ∧ ∀ c ∈ cs, c.isDigit = true := by
  unfold natural?
  split
  · next h => exact .inr ⟨h.1, List.all_eq_true.1 h.2⟩
  · exact .inl rfl

/-- An exponent ends with digits. -/
theorem exponent?_suffix {cs : List Char} {n : Int} (h : exponent? cs = some n) :
    cs = [] ∨ ∃ run, run ≠ [] ∧ run <:+ cs ∧ ∀ c ∈ run, c.isDigit = true := by
  unfold exponent? at h
  split at h
  · exact .inl rfl
  · next c rest =>
    split at h
    · have hsuffix := (splitSign_suffix rest).trans (List.suffix_cons c rest)
      generalize splitSign rest = signed at h hsuffix
      rcases natural?_eq_none_or signed.2 with hnone | ⟨hne, hdigits⟩
      · simp [hnone] at h
      · exact .inr ⟨signed.2, hne, hsuffix, hdigits⟩
    · cases h

/-- A decimal ends with a digit or its point. -/
theorem isAmount_of_decimal? {cs : List Char} {x : Decimal} (h : decimal? cs = some x) {d : Char}
    (hd : d ∈ cs.getLast?) : isAmount d = true := by
  have hdigit : ∀ {c : Char}, c.isDigit = true → isAmount c = true := fun h => by
    rw [isAmount, h, Bool.true_or]
  have hsplit := List.takeWhile_append_dropWhile (p := Char.isDigit) (l := cs)
  have hwhole : ∀ c ∈ cs.takeWhile Char.isDigit, isAmount c = true := fun c hc =>
    hdigit (List.mem_takeWhile_imp hc)
  -- the rest behind the digits and the point is an exponent, or there is none
  have hrest : ∀ {before rest : List Char} {n : Int}, cs = before ++ rest →
      (∀ c ∈ before, isAmount c = true) → exponent? rest = some n → isAmount d = true := by
    rintro before rest n rfl hbefore hn
    rcases exponent?_suffix hn with rfl | ⟨run, hne, hsuffix, hrun⟩
    · rw [List.append_nil] at hd
      exact hbefore d (List.mem_of_getLast? hd)
    · exact hdigit (hrun d (mem_of_suffix hne (hsuffix.trans (List.suffix_append _ _)) hd))
  unfold decimal? at h
  generalize cs.dropWhile Char.isDigit = tail at h hsplit
  dsimp only at h
  split at h
  · next r =>
    split at h
    · cases h
    · obtain ⟨n, hn, -⟩ := Option.map_eq_some_iff.1 h
      have hpoint := List.takeWhile_append_dropWhile (p := Char.isDigit) (l := r)
      have hbefore : cs = cs.takeWhile Char.isDigit ++ '.' :: r.takeWhile Char.isDigit ++
          r.dropWhile Char.isDigit := by
        rw [List.append_assoc, List.cons_append, hpoint, hsplit]
      refine hrest hbefore ?_ hn
      refine List.forall_mem_append.2 ⟨hwhole, List.forall_mem_cons.2 ⟨rfl, fun c hc => ?_⟩⟩
      exact hdigit (List.mem_takeWhile_imp hc)
  · split at h
    · cases h
    · obtain ⟨n, hn, -⟩ := Option.map_eq_some_iff.1 h
      exact hrest hsplit.symm hwhole hn

/-- **A number that begins with a digit or a point** ends with one. -/
theorem isAmount_of_readFloat? {c d : Char} {cs : List Char} (hc : isAmount c = true)
    (hd : d ∈ (c :: cs).getLast?) (h : readFloat? (String.ofList (c :: cs)) ≠ none) :
    isAmount d = true := by
  have hsign : splitSign (c :: cs) = (false, c :: cs) := by
    unfold splitSign
    split
    · next he => exact absurd ((List.cons.inj he).1 ▸ hc) (by decide)
    · next he => exact absurd ((List.cons.inj he).1 ▸ hc) (by decide)
    · rfl
  -- the special values are words
  have hletter : c.toLower ≠ 'i' ∧ c.toLower ≠ 'n' := by
    have hall : ∀ n < 58, (Char.ofNat n).toLower ≠ 'i' ∧ (Char.ofNat n).toLower ≠ 'n' := by decide
    rw [← Char.ofNat_toNat c]
    exact hall _ (toNat_lt_of_isAmount hc)
  have hword : ∀ word : String, word.toList.head? = some 'i' ∨ word.toList.head? = some 'n' →
      Text.foldAscii (String.ofList (c :: cs)) ≠ word := by
    rintro word hhead rfl
    rw [Text.foldAscii, String.toList_map, String.toList_ofList] at hhead
    rcases hhead with hhead | hhead
    · exact hletter.1 (Option.some.inj hhead)
    · exact hletter.2 (Option.some.inj hhead)
  cases hdecimal : decimal? (c :: cs) with
  | some x => exact isAmount_of_decimal? hdecimal hd
  | none =>
    refine absurd ?_ h
    rw [readFloat?, String.toList_ofList, hsign]
    simp only [magnitude?, hword "inf" (.inl rfl), hword "infinity" (.inl rfl),
      hword "nan" (.inr rfl), or_self, if_false, hdecimal, Option.map_none]

end Numeral

/-! ## Parts -/

namespace Duration

/-- A part of a compound duration. -/
structure Part where
  number : List Char
  unit : List Char

namespace Part

/-- The characters of the part. -/
def chars (p : Part) : List Char := p.number ++ p.unit

/-- The duration of the part; there is none if its number or its unit is invalid. -/
def duration? (p : Part) : Option Duration :=
  (Numeral.readFloat? (String.ofList p.number)).bind fun amount =>
    (unitNanos? (String.ofList p.unit)).map fun nanos => ⟨wholeNanos (amount * nanos)⟩

theorem duration?_eq_none_iff {p : Part} :
    p.duration? = none ↔ Numeral.readFloat? (String.ofList p.number) = none ∨
      unitNanos? (String.ofList p.unit) = none := by
  unfold duration?
  cases Numeral.readFloat? (String.ofList p.number) with
  | none => simp
  | some amount => simp

/-- Characters of numbers, and others behind them. -/
structure IsRun (p : Part) : Prop where
  number : ∀ c ∈ p.number, isAmount c = true
  unit : ∀ c ∈ p.unit, isAmount c = false
  chars : p.chars ≠ []

/-- A part ends behind others, where characters of numbers begin the next one. -/
def Meets (p q : Part) : Prop := p.unit ≠ [] ∧ q.number ≠ []

/-- A number is not empty. -/
theorem number_ne_nil {p : Part} {d : Duration} (h : p.duration? = some d) : p.number ≠ [] := by
  intro hnil
  have hempty : Numeral.readFloat? "" = none := by decide +kernel
  rw [duration?, hnil, String.ofList_nil, hempty] at h
  cases h

/-- A unit is not empty. -/
theorem unit_ne_nil {p : Part} {d : Duration} (h : p.duration? = some d) : p.unit ≠ [] := by
  intro hnil
  have hempty : unitNanos? "" = none := by decide +kernel
  obtain ⟨amount, -, h⟩ := Option.bind_eq_some_iff.1 h
  rw [hnil, String.ofList_nil, hempty] at h
  cases h

end Part

/-- The sum of durations. -/
def total (ds : List Duration) : Duration :=
  ⟨(ds.map nanos).sum⟩

theorem total_append (ds es : List Duration) : total (ds ++ es) = total ds + total es := by
  rw [total, List.map_append, List.sum_append]
  rfl

/-- The parts of a text, cut wherever characters of numbers begin behind others. -/
structure IsCut (cs : List Char) (ps : List Part) : Prop where
  chars : ps.flatMap Part.chars = cs
  runs : ∀ p ∈ ps, p.IsRun
  chain : ps.IsChain Part.Meets

theorem isCut_nil : IsCut [] [] :=
  ⟨rfl, nofun, .nil⟩

/-- What is left behind a part begins with a number. -/
theorem IsCut.tail {cs : List Char} {p : Part} {ps : List Part} (h : IsCut cs (p :: ps)) :
    IsCut (ps.flatMap Part.chars) ps ∧ cs = p.number ++ (p.unit ++ ps.flatMap Part.chars) ∧
      (ps ≠ [] → p.unit ≠ []) ∧ Stops (!isAmount ·) (ps.flatMap Part.chars) := by
  obtain ⟨hfirst, hrest⟩ := List.isChain_cons.1 h.chain
  have hruns := List.forall_mem_cons.1 h.runs
  refine ⟨⟨rfl, hruns.2, hrest⟩, ?_, ?_, ?_⟩
  · rw [← h.chars, List.flatMap_cons, Part.chars, List.append_assoc]
  · intro hne
    obtain ⟨q, qs, rfl⟩ := List.exists_cons_of_ne_nil hne
    exact (hfirst q rfl).1
  · cases ps with
    | nil => exact Token.stops_nil _
    | cons q qs =>
      obtain ⟨c, number, hc⟩ := List.exists_cons_of_ne_nil (hfirst q rfl).2
      rintro d hd
      rw [List.flatMap_cons, Part.chars, hc] at hd
      obtain rfl : c = d := Option.some.inj hd
      have hamount := (hruns.2 q List.mem_cons_self).number c (by rw [hc]; exact List.mem_cons_self)
      simp [hamount]

/-- A text begins with a part; what is left behind it begins with a number. -/
theorem exists_part {cs : List Char} (hne : cs ≠ []) :
    ∃ (p : Part) (rest : List Char), p.chars ++ rest = cs ∧ p.IsRun ∧
      Stops (!isAmount ·) rest ∧ (rest ≠ [] → p.unit ≠ []) := by
  let behind := cs.dropWhile isAmount
  let rest := behind.dropWhile (!isAmount ·)
  let p : Part := ⟨cs.takeWhile isAmount, behind.takeWhile (!isAmount ·)⟩
  have hunitrest : p.unit ++ rest = behind := List.takeWhile_append_dropWhile
  have hsplit : p.chars ++ rest = cs := by
    rw [Part.chars, List.append_assoc, hunitrest]
    exact List.takeWhile_append_dropWhile
  have hbehind : Stops isAmount behind := Token.stops_dropWhile _ _
  have hrest : Stops (!isAmount ·) rest := Token.stops_dropWhile _ _
  -- behind an empty unit a character would be none of a number, and none of a unit
  have hunit : rest ≠ [] → p.unit ≠ [] := by
    intro hne hnil
    obtain ⟨c, tail, hc⟩ := List.exists_cons_of_ne_nil hne
    rw [hnil, List.nil_append] at hunitrest
    have hamount := hbehind c (by rw [← hunitrest, hc]; rfl)
    have hother := hrest c (by rw [hc]; rfl)
    simp [hamount] at hother
  refine ⟨p, rest, hsplit, ⟨?_, ?_, fun hnil => ?_⟩, hrest, hunit⟩
  · exact fun c hc => List.mem_takeWhile_imp hc
  · exact fun c hc => by simpa using List.mem_takeWhile_imp hc
  · rw [hnil, List.nil_append] at hsplit
    exact hunit (hsplit ▸ hne) (List.append_eq_nil_iff.1 hnil).2

/-- Every text has a cut. -/
theorem exists_isCut (cs : List Char) : ∃ ps, IsCut cs ps := by
  induction hn : cs.length using Nat.strong_induction_on generalizing cs with
  | _ n ih =>
    subst hn
    rcases eq_or_ne cs [] with rfl | hne
    · exact ⟨[], isCut_nil⟩
    · obtain ⟨p, rest, rfl, hrun, hstops, hunit⟩ := exists_part hne
      have hlt : rest.length < (p.chars ++ rest).length := by
        rw [List.length_append]
        have := List.length_pos_iff.2 hrun.chars
        omega
      obtain ⟨ps, hps⟩ := ih _ hlt rest rfl
      refine ⟨p :: ps, by rw [List.flatMap_cons, hps.chars],
        List.forall_mem_cons.2 ⟨hrun, hps.runs⟩, List.isChain_cons.2 ⟨fun q hq => ?_, hps.chain⟩⟩
      -- the next part begins the rest, so it has a number
      obtain ⟨qs, rfl⟩ := List.head?_eq_some_iff.1 hq
      have hq := hps.runs q List.mem_cons_self
      obtain ⟨c, tail, hc⟩ := List.exists_cons_of_ne_nil hq.chars
      have hrest : rest = c :: (tail ++ qs.flatMap Part.chars) := by
        rw [← hps.chars, List.flatMap_cons, hc, List.cons_append]
      have hamount : isAmount c = true := by simpa using hstops c (by rw [hrest]; rfl)
      refine ⟨hunit (by rw [hrest]; exact List.cons_ne_nil _ _), fun hnumber => ?_⟩
      rw [Part.chars, hnumber, List.nil_append] at hc
      have hother := hq.unit c (by rw [hc]; exact List.mem_cons_self)
      rw [hother] at hamount
      cases hamount

/-- Two cuts make one where a unit ends and a number begins. -/
theorem IsCut.append {cs ds : List Char} {ps qs : List Part} (h : IsCut cs ps) (h' : IsCut ds qs)
    (hmeets : ∀ p ∈ ps.getLast?, ∀ q ∈ qs.head?, p.Meets q) : IsCut (cs ++ ds) (ps ++ qs) :=
  ⟨by rw [List.flatMap_append, h.chars, h'.chars], List.forall_mem_append.2 ⟨h.runs, h'.runs⟩,
    List.isChain_append.2 ⟨h.chain, h'.chain, hmeets⟩⟩

/-! ## Reading parts -/

theorem partDuration_toOption (text : String) (p : Part) :
    (partDuration text p.number p.unit).toOption = p.duration? := by
  unfold partDuration Part.duration?
  split
  · next h => rw [h]; rfl
  · next amount h =>
    rw [h, Option.bind_some]
    split
    · next h => rw [h]; rfl
    · next h => rw [h]; rfl

/-- **A text is read as the sum of its parts**, and not at all if one of them is invalid. -/
theorem parseParts_cut (text : String) {cs : List Char} {ps : List Part} (h : IsCut cs ps) :
    (parseParts text cs).toOption = (ps.mapM Part.duration?).map total := by
  induction ps generalizing cs with
  | nil =>
    obtain rfl : cs = [] := h.chars.symm
    rw [parseParts]
    rfl
  | cons p ps ih =>
    obtain ⟨hcut, hcs, hunit, hstops⟩ := h.tail
    have hrun := h.runs p List.mem_cons_self
    rw [List.mapM_cons]
    obtain ⟨number, unit⟩ := p
    cases number with
    | nil =>
      -- a text that begins with a unit
      obtain ⟨c, rest, rfl⟩ : ∃ c rest, unit = c :: rest :=
        List.exists_cons_of_ne_nil fun hnil => hrun.chars (by rw [hnil]; rfl)
      have hnone : Part.duration? ⟨[], c :: rest⟩ = none :=
        Option.eq_none_iff_forall_ne_some.2 fun d hd => Part.number_ne_nil hd rfl
      have hc : isAmount c = false := hrun.unit c List.mem_cons_self
      rw [hcs, hnone]
      simp only [List.nil_append, List.cons_append, parseParts, hc, Bool.false_eq_true, if_false]
      rfl
    | cons c number =>
      have hnumber : ∀ d ∈ number, isAmount d = true := fun d hd =>
        hrun.number d (List.mem_cons_of_mem c hd)
      have hc : isAmount c = true := hrun.number c List.mem_cons_self
      have hbehind : Stops isAmount (unit ++ ps.flatMap Part.chars) := by
        rcases eq_or_ne unit [] with rfl | hne
        · -- only the last part may lack a unit
          have hnil : ps = [] := by_contra fun hne => hunit hne rfl
          rw [hnil]
          exact Token.stops_nil _
        · obtain ⟨d, rest, rfl⟩ := List.exists_cons_of_ne_nil hne
          rintro _ ⟨⟩
          exact hrun.unit d List.mem_cons_self
      have hother : ∀ d ∈ unit, (!isAmount d) = true := fun d hd => by simp [hrun.unit d hd]
      rw [hcs]
      simp only [List.cons_append, parseParts, hc, if_true]
      rw [Token.takeWhile_append_of_stops hnumber hbehind,
        Token.dropWhile_append_of_stops hnumber hbehind,
        Token.takeWhile_append_of_stops hother hstops,
        Token.dropWhile_append_of_stops hother hstops]
      have hpart := partDuration_toOption text ⟨c :: number, unit⟩
      dsimp only at hpart
      rw [Except.toOption_bind, hpart]
      cases Part.duration? ⟨c :: number, unit⟩ with
      | none => rfl
      | some d =>
        rw [Option.bind_some, Except.toOption_bind, ih hcut]
        cases ps.mapM Part.duration? with
        | none => rfl
        | some ds => rfl

/-! ## Compound durations -/

/-- The text is a compound duration of this length, with no blanks around it. -/
structure IsCompound (text : String) (d : Duration) : Prop where
  trimmed : Text.trim text = text
  notNumber : Numeral.readFloat? text = none
  parses : parse text = .ok d

/-- A text that is no bare number is read part by part. -/
theorem parse_of_isCut {text : String} (h : Numeral.readFloat? (Text.trim text) = none)
    {ps : List Part} (hcut : IsCut (Text.trim text).toList ps) :
    (parse text).toOption = if ps = [] then none else (ps.mapM Part.duration?).map total := by
  have hfaults : (parse text).toOption = (read text).toOption := by
    rw [parse]
    cases read text <;> rfl
  have hempty : Text.trim text = "" ↔ ps = [] := by
    rw [← String.toList_eq_nil_iff]
    constructor
    · intro hnil
      rw [hnil] at hcut
      cases ps with
      | nil => rfl
      | cons p ps =>
        exact absurd (List.append_eq_nil_iff.1 hcut.chars).1 (hcut.runs p List.mem_cons_self).chars
    · rintro rfl
      exact hcut.chars.symm
  rw [hfaults, read]
  simp only [hempty, h]
  split
  · rfl
  · exact parseParts_cut _ hcut

theorem exists_mapM_duration? {ps : List Part} :
    (∃ ds, ps.mapM Part.duration? = some ds) ↔ ∀ p ∈ ps, ∃ d, p.duration? = some d := by
  induction ps with
  | nil => simp
  | cons p ps ih =>
    rw [List.forall_mem_cons, ← ih, List.mapM_cons]
    constructor
    · rintro ⟨ds, h⟩
      obtain ⟨d, hd, h⟩ := Option.bind_eq_some_iff.1 h
      obtain ⟨es, hes, -⟩ := Option.bind_eq_some_iff.1 h
      exact ⟨⟨d, hd⟩, es, hes⟩
    · rintro ⟨⟨d, hd⟩, es, hes⟩
      exact ⟨d :: es, by rw [hd, hes]; rfl⟩

/-- Valid parts begin with a digit or a point and end with a unit, so they make no bare number. -/
theorem readFloat?_of_isCut {text : String} {ps : List Part} (hcut : IsCut text.toList ps)
    (hne : ps ≠ []) (hvalid : ∀ p ∈ ps, ∃ d, p.duration? = some d) :
    Numeral.readFloat? text = none := by
  obtain ⟨p, rest, hp⟩ := List.exists_cons_of_ne_nil hne
  have hpmem : p ∈ ps := by rw [hp]; exact List.mem_cons_self
  obtain ⟨d, hd⟩ := hvalid p hpmem
  obtain ⟨c, number, hnumber⟩ := List.exists_cons_of_ne_nil (Part.number_ne_nil hd)
  have hc := (hcut.runs p hpmem).number c (by rw [hnumber]; exact List.mem_cons_self)
  obtain ⟨cs, hcs⟩ : ∃ cs, text.toList = c :: cs :=
    ⟨_, by rw [← hcut.chars, hp, List.flatMap_cons, Part.chars, hnumber]; rfl⟩
  -- the last unit
  have hq : ps.getLast hne ∈ ps := List.getLast_mem hne
  obtain ⟨e, he⟩ := hvalid _ hq
  have hsuffix : (ps.getLast hne).unit <:+ text.toList := by
    rw [← hcut.chars]
    conv_rhs => rw [← List.dropLast_append_getLast hne, List.flatMap_append, List.flatMap_singleton]
    exact (List.suffix_append _ _).trans (List.suffix_append _ _)
  by_contra hsome
  rw [← String.ofList_toList (s := text), hcs] at hsome
  rw [hcs] at hsuffix
  have hlast := List.getLast?_eq_some_getLast (List.cons_ne_nil c cs)
  have hamount := Numeral.isAmount_of_readFloat? hc hlast hsome
  have hunit := Numeral.mem_of_suffix (Part.unit_ne_nil he) hsuffix hlast
  rw [(hcut.runs _ hq).unit _ hunit] at hamount
  cases hamount

/-- **The parts of a compound duration.** -/
theorem isCompound_iff {text : String} {d : Duration} (htrim : Text.trim text = text) :
    IsCompound text d ↔ ∃ ps ds, IsCut text.toList ps ∧ ps ≠ [] ∧
      ps.mapM Part.duration? = some ds ∧ d = total ds := by
  constructor
  · intro h
    obtain ⟨ps, hcut⟩ := exists_isCut text.toList
    have hparse := parse_of_isCut (by rw [htrim]; exact h.notNumber) (by rw [htrim]; exact hcut)
    rw [h.parses] at hparse
    split at hparse
    · cases hparse
    · next hne =>
      obtain ⟨ds, hds, hd⟩ := Option.map_eq_some_iff.1 hparse.symm
      exact ⟨ps, ds, hcut, hne, hds, hd.symm⟩
  · rintro ⟨ps, ds, hcut, hne, hds, rfl⟩
    have hnumber := readFloat?_of_isCut hcut hne (exists_mapM_duration?.1 ⟨ds, hds⟩)
    have hparse := parse_of_isCut (by rw [htrim]; exact hnumber) (by rw [htrim]; exact hcut)
    rw [if_neg hne, hds, Option.map_some] at hparse
    exact ⟨htrim, hnumber, Except.toOption_eq_some_iff.1 hparse⟩

/-- A compound duration begins with a number. -/
theorem IsCut.head {cs : List Char} {ps : List Part} {ds : List Duration} (h : IsCut cs ps)
    (hne : ps ≠ []) (hds : ps.mapM Part.duration? = some ds) :
    ∃ c rest, cs = c :: rest ∧ isAmount c = true := by
  obtain ⟨p, ps, rfl⟩ := List.exists_cons_of_ne_nil hne
  obtain ⟨d, hd⟩ := exists_mapM_duration?.1 ⟨ds, hds⟩ p List.mem_cons_self
  obtain ⟨c, number, hnumber⟩ := List.exists_cons_of_ne_nil (Part.number_ne_nil hd)
  have hcs : cs = c :: (number ++ (p.unit ++ ps.flatMap Part.chars)) := by
    rw [h.tail.2.1, hnumber, List.cons_append]
  exact ⟨c, _, hcs, (h.runs p List.mem_cons_self).number c (by simp [hnumber])⟩

/-- **Compound durations are additive.** -/
theorem IsCompound.append {a b : String} {d e : Duration} (ha : IsCompound a d)
    (hb : IsCompound b e) : IsCompound (a ++ b) (d + e) := by
  obtain ⟨ps, ds, hps, hpne, hds, rfl⟩ := (isCompound_iff ha.trimmed).1 ha
  obtain ⟨qs, es, hqs, hqne, hes, rfl⟩ := (isCompound_iff hb.trimmed).1 hb
  have hcut : IsCut (a ++ b).toList (ps ++ qs) := by
    rw [String.toList_append]
    refine hps.append hqs fun p hp q hq => ?_
    obtain ⟨_, hd⟩ := exists_mapM_duration?.1 ⟨ds, hds⟩ p (List.mem_of_getLast? hp)
    obtain ⟨_, he⟩ := exists_mapM_duration?.1 ⟨es, hes⟩ q (List.mem_of_head? hq)
    exact ⟨Part.unit_ne_nil hd, Part.number_ne_nil he⟩
  -- the first number is not a blank, and the last unit does not end with one
  have htrim : Text.trim (a ++ b) = a ++ b := by
    obtain ⟨c, rest, hc, hamount⟩ := hps.head hpne hds
    obtain ⟨_, _, hbcons, -⟩ := hqs.head hqne hes
    rw [← String.ofList_toList (s := a ++ b), String.toList_append]
    refine Text.trim_ofList ?_ fun last hlast => ?_
    · rw [hc]
      rintro _ ⟨⟩
      exact isBlank_of_isAmount hamount
    · rw [List.getLast?_append_of_ne_nil _ (by simp [hbcons])] at hlast
      exact Text.not_blank_of_trim hb.trimmed hlast
  have hsum : (ps ++ qs).mapM Part.duration? = some (ds ++ es) := by
    rw [List.mapM_append, hds, hes]
    rfl
  exact (isCompound_iff htrim).2
    ⟨ps ++ qs, ds ++ es, hcut, by simp [hpne], hsum, (total_append ..).symm⟩

theorem total_cons (d : Duration) (ds : List Duration) : total (d :: ds) = d + total ds := rfl

theorem total_singleton (d : Duration) : total [d] = d := rfl

theorem total_perm {ds es : List Duration} (h : ds.Perm es) : total ds = total es :=
  congrArg Duration.mk (h.map nanos).sum_eq

/-- Texts one behind the other. -/
theorem isCompound_join {parts : List (String × Duration)} (hne : parts ≠ [])
    (h : ∀ q ∈ parts, IsCompound q.1 q.2) :
    IsCompound (String.join (parts.map Prod.fst)) (total (parts.map Prod.snd)) := by
  induction parts with
  | nil => exact absurd rfl hne
  | cons q parts ih =>
    obtain ⟨hq, hparts⟩ := List.forall_mem_cons.1 h
    rw [List.map_cons, List.map_cons, String.join_cons]
    rcases eq_or_ne parts [] with rfl | hrest
    · rw [List.map_nil, List.map_nil, String.join_nil, String.append_empty, total_singleton]
      exact hq
    · rw [total_cons]
      exact hq.append (ih hrest hparts)

/-- A text that is no bare number is refused exactly if it has no part or an invalid one. -/
theorem parse_eq_error_iff {text : String} (hnumber : Numeral.readFloat? (Text.trim text) = none)
    {ps : List Part} (hcut : IsCut (Text.trim text).toList ps) :
    (∃ error, parse text = .error error) ↔ ps = [] ∨ ∃ p ∈ ps, p.duration? = none := by
  have hparse := parse_of_isCut hnumber hcut
  have hrefused : (∃ error, parse text = .error error) ↔ (parse text).toOption = none := by
    cases parse text <;> simp [Except.toOption]
  have hinvalid : ps.mapM Part.duration? = none ↔ ∃ p ∈ ps, p.duration? = none := by
    rw [← not_iff_not, ← ne_eq, Option.ne_none_iff_exists', exists_mapM_duration?]
    simp [Option.ne_none_iff_exists']
  rw [hrefused, hparse]
  split
  · next hnil => simp [hnil]
  · next hne => rw [Option.map_eq_none_iff, hinvalid, or_iff_right hne]

/-- **Compound durations add up.** A compound duration behind another is their sum, and of several
in a row the order does not matter.  A text that is no bare number has a cut, and is refused exactly
if it has no part, or one whose number or unit is invalid, wherever it is. -/
theorem parse_compound :
    (∀ {a b : String} {d e : Duration}, IsCompound a d → IsCompound b e →
      IsCompound (a ++ b) (d + e)) ∧
    (∀ (parts parts' : List (String × Duration)), parts ≠ [] →
      (∀ q ∈ parts, IsCompound q.1 q.2) → parts'.Perm parts →
      parse (String.join (parts'.map Prod.fst)) = .ok (total (parts.map Prod.snd))) ∧
    ∀ {text : String}, Numeral.readFloat? (Text.trim text) = none →
      (∃ ps, IsCut (Text.trim text).toList ps) ∧
        ∀ {ps : List Part}, IsCut (Text.trim text).toList ps →
          ((∃ error, parse text = .error error) ↔ ps = [] ∨
            ∃ p ∈ ps, Numeral.readFloat? (String.ofList p.number) = none ∨
              unitNanos? (String.ofList p.unit) = none) := by
  refine ⟨IsCompound.append, ?_, ?_⟩
  · intro parts parts' hne h hperm
    have hne' : parts' ≠ [] := fun hnil => hne (List.nil_perm.1 (hnil ▸ hperm))
    have hjoin := isCompound_join hne' fun q hq => h q (hperm.mem_iff.1 hq)
    rw [← total_perm (hperm.map Prod.snd)]
    exact hjoin.parses
  · intro text hnumber
    refine ⟨exists_isCut _, fun hcut => ?_⟩
    simp only [parse_eq_error_iff hnumber hcut, Part.duration?_eq_none_iff]

theorem isCompound_hour : IsCompound "1h" ⟨3600000000000⟩ :=
  ⟨by decide +kernel, by decide +kernel, by decide +kernel⟩

theorem isCompound_minutes : IsCompound "30m" ⟨1800000000000⟩ :=
  ⟨by decide +kernel, by decide +kernel, by decide +kernel⟩

/-- A cut with an unknown unit in the middle. -/
theorem isCut_parsecs : IsCut (Text.trim "1h5parsecs2s").toList
    [⟨['1'], ['h']⟩, ⟨['5'], ['p', 'a', 'r', 's', 'e', 'c', 's']⟩, ⟨['2'], ['s']⟩] := by
  have hdigits : isAmount '1' = true ∧ isAmount '5' = true ∧ isAmount '2' = true := by decide
  have hletters : ∀ c ∈ ['h', 'p', 'a', 'r', 's', 'e', 'c'], isAmount c = false := by
    simp [isAmount]
  refine ⟨by decide +kernel, ?_, by simp [Part.Meets]⟩
  simp only [List.forall_mem_cons] at hletters ⊢
  refine ⟨⟨?_, ?_, nofun⟩, ⟨?_, ?_, nofun⟩, ⟨?_, ?_, nofun⟩, nofun⟩
  all_goals simp [hdigits, hletters]

/-- An hour and thirty minutes in both orders, and a unit that there is not. -/
theorem parse_compound_hour :
    parse ("1h" ++ "30m") = .ok (⟨3600000000000⟩ + ⟨1800000000000⟩) ∧
      parse (String.join ["30m", "1h"]) = .ok (total [⟨3600000000000⟩, ⟨1800000000000⟩]) ∧
      ∃ error, parse "1h5parsecs2s" = .error error := by
  refine ⟨(parse_compound.1 isCompound_hour isCompound_minutes).parses, ?_, ?_⟩
  · have hparts : ∀ q ∈ [("1h", Duration.mk 3600000000000), ("30m", ⟨1800000000000⟩)],
        IsCompound q.1 q.2 := by
      simp [isCompound_hour, isCompound_minutes]
    exact parse_compound.2.1 _ [("30m", ⟨1800000000000⟩), ("1h", ⟨3600000000000⟩)]
      (List.cons_ne_nil _ _) hparts (.swap ..)
  · exact ((parse_compound.2.2 (by decide +kernel)).2 isCut_parsecs).2
      (.inr ⟨_, List.mem_cons_of_mem _ List.mem_cons_self, .inr (by decide +kernel)⟩)

end Duration

end StreamSql
