/-
  Configurations through their text.

  What writes the text of a configuration, and reads it, is a parameter (`YamlFormat`).  It has a
  layout if it writes a mapping line by line, a name and a scalar on each, and reads any such lines
  again.  Then a configuration is read from any of the lines that it is written on, and has the
  settings on them, and the defaults of all others.

  * `YamlFormat.Layout.Documented`: the format writes and reads mappings by this layout;
  * `Yaml.format_documented`: there is such a format;
  * `withoutLines removed text`: the text without some of its lines;
  * `Setting.take?_datum`: the value of a setting is read from what its datum is written as;
  * `Config.ofYaml_toYaml`: a valid configuration through its text, and through a part of it.
-/
import StreamSql.Proofs.YamlRows

namespace StreamSql

open Yaml

/-! ## Layouts -/

namespace YamlFormat

/-- The rows of a mapping that has some, with plain names and data; no name stands twice. -/
structure IsMapping (rows : List (String × Datum)) : Prop where
  ne_nil : rows ≠ []
  nodup : (rows.map Prod.fst).Nodup
  names : ∀ row ∈ rows, IsName row.1
  data : ∀ row ∈ rows, row.2.IsPlain

/-- How names and data are spelled, and the values that the spellings of data are. -/
structure Layout (f : YamlFormat) where
  key : String → List Char
  scalar : Datum → List Char
  node : Datum → f.Node

namespace Layout

variable {f : YamlFormat} (l : f.Layout)

/-- The line of a row. -/
def line (row : String × Datum) : List Char :=
  l.key row.1 ++ ':' :: ' ' :: l.scalar row.2

/-- A line for every row. -/
def text (rows : List (String × Datum)) : List Char :=
  rows.flatMap fun row => l.line row ++ ['\n']

/-- The format writes a mapping line by line, and reads it from such lines.  A number, a truth value
    or a name is read as the one that was written; a name is never taken for nothing. -/
structure Documented : Prop where
  write? : ∀ rows, IsMapping rows → f.write? rows = some (String.ofList (l.text rows))
  read? : ∀ rows, IsMapping rows →
    f.read? (String.ofList (l.text rows)) = some (rows.map fun row => (row.1, l.node row.2))
  key : ∀ name, IsName name → '\n' ∉ l.key name
  scalar : ∀ d : Datum, d.IsPlain → '\n' ∉ l.scalar d
  count? : ∀ n, f.count? (l.node (.count n)) = some n
  word? : ∀ n : Int64, 0 ≤ n.toInt → f.word? (l.node (.word n)) = some n
  flag? : ∀ b, f.flag? (l.node (.flag b)) = some b
  variant? : ∀ name, IsName name → f.variant? (l.node (.variant name)) = some name
  isNull : ∀ name, IsName name → f.isNull (l.node (.variant name)) = false

end Layout

/-- There is a layout by which the format writes and reads mappings. -/
def Documented (f : YamlFormat) : Prop :=
  ∃ l : f.Layout, l.Documented

end YamlFormat

namespace Yaml

/-- The layout of the format of these definitions: a name is written as it is, and a datum as its
    scalar. -/
def layout : format.Layout where
  key := String.toList
  scalar d := (Scalar.ofDatum d).render.toList
  node := Scalar.ofDatum

theorem text_layout (rows : List (String × Datum)) :
    String.ofList (layout.text rows) = writeRows rows := by
  have hline : ∀ row : String × Datum, layout.line row = (renderRow row).toList := fun row => by
    simp [YamlFormat.Layout.line, layout, renderRow]
  rw [← String.ofList_toList (s := writeRows rows), writeRows, String.toList_join,
    List.flatMap_map, YamlFormat.Layout.text]
  exact congrArg String.ofList (List.flatMap_congr fun row _ => by simp [hline])

/-- Only what is no text is null. -/
theorem isNull_variant (name : String) : (Scalar.ofDatum (.variant name)).isNull = false := by
  rw [Scalar.ofDatum]
  split
  · next htext =>
    simp only [Scalar.isText, Bool.and_eq_true, Bool.not_eq_true'] at htext
    exact htext.1.1
  · rfl

theorem format_documented : format.Documented := by
  have hnewline : ∀ {c : Char}, 0x20 ≤ c.toNat ∧ c.toNat < 0x7F → c ≠ '\n' := by
    rintro _ h rfl
    simp at h
  refine ⟨layout, ?_, ?_, ?_, ?_, ?_, ?_, ?_, ?_, ?_⟩
  · intro rows _
    rw [text_layout]
    rfl
  · intro rows h
    rw [text_layout]
    exact readRows?_writeRows h.names h.data
  · intro name hname hmem
    exact hnewline (printable_of_isWordChar (hname.isWord.chars _ hmem)) rfl
  · intro d hd hmem
    exact hnewline (Scalar.printable_render (isSpelled_ofDatum hd) _ hmem) rfl
  · exact count?_toString
  · exact fun n hn => word?_toString hn
  · rintro (_ | _) <;> rfl
  · intro name _
    show some (Scalar.ofDatum (.variant name)).text = some name
    rw [text_variant]
  · exact fun name _ => isNull_variant name

end Yaml

/-! ## Texts without some of their lines -/

/-- The characters without the lines at the removed places, the first line being at `place`; the
    end of a line is part of it. -/
def withoutLinesFrom (removed : ℕ → Bool) (place : ℕ) : List Char → List Char
  | [] => []
  | c :: rest =>
    let left := withoutLinesFrom removed (if c = '\n' then place + 1 else place) rest
    if removed place then left else c :: left

/-- The text without the lines at the removed places. -/
def withoutLines (removed : ℕ → Bool) (text : String) : String :=
  String.ofList (withoutLinesFrom removed 0 text.toList)

theorem withoutLinesFrom_append (removed : ℕ → Bool) (place : ℕ) {line : List Char}
    (h : '\n' ∉ line) (rest : List Char) :
    withoutLinesFrom removed place (line ++ '\n' :: rest) =
      (if removed place then [] else line ++ ['\n']) ++
        withoutLinesFrom removed (place + 1) rest := by
  induction line with
  | nil =>
    rw [List.nil_append, withoutLinesFrom, if_pos rfl]
    split <;> rfl
  | cons c line ih =>
    obtain ⟨hc, hline⟩ := not_or.1 (mt List.mem_cons.2 h)
    rw [List.cons_append, withoutLinesFrom, if_neg (Ne.symm hc), ih hline]
    split <;> rfl

/-- What is left of the lines of rows are the lines of the other rows. -/
theorem withoutLinesFrom_text {f : YamlFormat} (l : f.Layout) (removed : ℕ → Bool) (place : ℕ)
    {rows : List (String × Datum)} (h : ∀ row ∈ rows, '\n' ∉ l.line row) :
    withoutLinesFrom removed place (l.text rows) =
      l.text (((rows.zipIdx place).filter fun row => !removed row.2).map Prod.fst) := by
  induction rows generalizing place with
  | nil => rfl
  | cons row rows ih =>
    obtain ⟨hrow, hrows⟩ := List.forall_mem_cons.1 h
    have hrest : withoutLinesFrom removed (place + 1) (l.text rows) = _ := ih (place + 1) hrows
    rw [YamlFormat.Layout.text, List.flatMap_cons, List.append_assoc, List.singleton_append,
      withoutLinesFrom_append removed place hrow, List.zipIdx_cons, List.filter_cons]
    change _ ++ withoutLinesFrom removed (place + 1) (l.text rows) = _
    rw [hrest]
    cases removed place <;> rfl

/-! ## Settings -/

theorem Substitute.isName_name (r : Substitute) : IsName r.name := by
  cases r <;> exact ⟨isWord_of_all (by decide) (by decide), by decide⟩

namespace Setting

/-- The place of a setting among the lines. -/
def line (s : Setting) : ℕ :=
  all.idxOf s

/-- The configuration `old` with the setting taken from `c`. -/
def copy (s : Setting) (c old : Config) : Config :=
  match s with
  | queueCapacity => { old with queueCapacity := c.queueCapacity }
  | tickMillis => { old with tickMillis := c.tickMillis }
  | flushOnStop => { old with flushOnStop := c.flushOnStop }
  | lateness => { old with lateness := c.lateness }
  | shutdownMillis => { old with shutdownMillis := c.shutdownMillis }
  | substitute => { old with substitute := c.substitute }

variable {c : Config}

theorem isName_name (s : Setting) : IsName s.name := by
  cases s <;> exact ⟨isWord_of_all (by decide) (by decide), by decide⟩

theorem ofName?_name (s : Setting) : ofName? s.name = some s := by
  cases s <;> rfl

theorem name_injective : Function.Injective name := by
  intro s t h
  have hsame := congrArg ofName? h
  rw [ofName?_name, ofName?_name] at hsame
  exact Option.some.inj hsame

theorem isPlain_datum (s : Setting) (h : 0 ≤ c.lateness.toInt) : (s.datum c).IsPlain := by
  cases s with
  | lateness => exact h
  | substitute => exact c.substitute.isName_name
  | queueCapacity | tickMillis | flushOnStop | shutdownMillis => trivial

/-- **The value of a setting** is read from what its datum is written as. -/
theorem take?_datum {f : YamlFormat} {l : f.Layout} (hl : l.Documented) (s : Setting)
    (h : 0 ≤ c.lateness.toInt) (old : Config) :
    s.take? f (l.node (s.datum c)) old = some (s.copy c old) := by
  cases s with
  | queueCapacity => exact congrArg (Option.map _) (hl.count? c.queueCapacity)
  | tickMillis => exact congrArg (Option.map _) (hl.count? c.tickMillis)
  | flushOnStop => exact congrArg (Option.map _) (hl.flag? c.flushOnStop)
  | lateness => exact congrArg (Option.map _) (hl.word? c.lateness h)
  | shutdownMillis => exact congrArg (Option.map _) (hl.count? c.shutdownMillis)
  | substitute =>
    have hname := c.substitute.isName_name
    have hvalue : substitute? f (l.node (.variant c.substitute.name)) = some c.substitute := by
      rw [substitute?, hl.isNull _ hname, if_neg Bool.false_ne_true, hl.variant? _ hname]
      cases c.substitute <;> rfl
    exact congrArg (Option.map _) hvalue

/-- The rows of some settings. -/
theorem isMapping_rows (h : 0 ≤ c.lateness.toInt) {settings : List Setting} (hne : settings ≠ [])
    (hnodup : settings.Nodup) :
    YamlFormat.IsMapping (settings.map fun s => (s.name, s.datum c)) where
  ne_nil := by simpa using hne
  nodup := by
    rw [List.map_map]
    exact hnodup.map name_injective
  names := List.forall_mem_map.2 fun s _ => s.isName_name
  data := List.forall_mem_map.2 fun s _ => s.isPlain_datum h

end Setting

/-! ## Configurations -/

namespace Config

open Setting

variable {c : Config} {f : YamlFormat} {l : f.Layout}

/-- The configuration with the defaults of some of the settings. -/
def withDefaults (c : Config) (removed : Setting → Bool) : Config where
  queueCapacity := if removed .queueCapacity then ({} : Config).queueCapacity else c.queueCapacity
  tickMillis := if removed .tickMillis then ({} : Config).tickMillis else c.tickMillis
  flushOnStop := if removed .flushOnStop then ({} : Config).flushOnStop else c.flushOnStop
  lateness := if removed .lateness then ({} : Config).lateness else c.lateness
  shutdownMillis :=
    if removed .shutdownMillis then ({} : Config).shutdownMillis else c.shutdownMillis
  substitute := if removed .substitute then ({} : Config).substitute else c.substitute

theorem check_eq_ok_iff : c.check = .ok () ↔
    c.queueCapacity ≠ 0 ∧ c.tickMillis ≠ 0 ∧ ¬ c.lateness < 0 := by
  unfold check fault?
  split_ifs <;> simp_all

theorem lateness_nonneg (h : c.check = .ok ()) : 0 ≤ c.lateness.toInt := by
  have hlateness := (check_eq_ok_iff.1 h).2.2
  rw [Int64.lt_iff_toInt_lt] at hlateness
  exact Int.not_lt.1 hlateness

theorem check_withDefaults (h : c.check = .ok ()) (removed : Setting → Bool) :
    (c.withDefaults removed).check = .ok () := by
  obtain ⟨hqueue, htick, hlateness⟩ := check_eq_ok_iff.1 h
  refine check_eq_ok_iff.2 ⟨?_, ?_, ?_⟩
  · change (if removed .queueCapacity then (1024 : UInt64) else c.queueCapacity) ≠ 0
    split
    · decide
    · exact hqueue
  · change (if removed .tickMillis then (100 : UInt64) else c.tickMillis) ≠ 0
    split
    · decide
    · exact htick
  · change ¬ (if removed .lateness then (0 : Int64) else c.lateness) < 0
    split
    · decide
    · exact hlateness

/-- Rows of different settings set them one after the other. -/
theorem ofRows_datum (hl : l.Documented) (h : 0 ≤ c.lateness.toInt)
    {settings seen : List Setting} {old : Config} (hnodup : settings.Nodup)
    (hseen : ∀ s ∈ settings, s ∉ seen) :
    ofRows f seen old (settings.map fun s => (s.name, l.node (s.datum c))) =
      some (settings.foldl (fun old s => s.copy c old) old) := by
  induction settings generalizing seen old with
  | nil => rfl
  | cons s settings ih =>
    obtain ⟨hs, hnodup⟩ := List.nodup_cons.1 hnodup
    obtain ⟨hnew, hseen⟩ := List.forall_mem_cons.1 hseen
    rw [List.map_cons, ofRows, ofName?_name]
    simp only
    rw [if_neg (by simpa using hnew), take?_datum hl s h, Option.bind_some, List.foldl_cons]
    refine ih hnodup fun t ht => ?_
    rw [List.mem_cons, not_or]
    exact ⟨fun he => hs (he ▸ ht), hseen t ht⟩

/-- What is set on the defaults by the settings that are left. -/
theorem foldl_copy (removed : Setting → Bool) :
    (Setting.all.filter (!removed ·)).foldl (fun old s => s.copy c old) {} =
      c.withDefaults removed := by
  rw [List.foldl_filter]
  simp only [Setting.all, List.foldl_cons, List.foldl_nil, withDefaults]
  cases removed .queueCapacity <;> cases removed .tickMillis <;> cases removed .flushOnStop <;>
    cases removed .lateness <;> cases removed .shutdownMillis <;> cases removed .substitute <;> rfl

/-- The text of the lines of some settings. -/
theorem ofYamlBy_text (hl : l.Documented) (h : c.check = .ok ()) (removed : Setting → Bool)
    (kept : Setting) (hkept : removed kept = false) :
    ofYamlBy f (String.ofList
      (l.text ((Setting.all.filter (!removed ·)).map fun s => (s.name, s.datum c)))) =
      .ok (c.withDefaults removed) := by
  have hlateness := lateness_nonneg h
  have hnodup : (Setting.all.filter (!removed ·)).Nodup := List.Nodup.filter _ (by decide)
  have hne : Setting.all.filter (!removed ·) ≠ [] := by
    refine List.ne_nil_of_mem (a := kept) (List.mem_filter.2 ⟨?_, by rw [hkept]; rfl⟩)
    cases kept <;> decide
  have hset : ofRows f [] {} ((Setting.all.filter (!removed ·)).map
      fun s => (s.name, l.node (s.datum c))) = some (c.withDefaults removed) := by
    rw [← foldl_copy removed]
    exact ofRows_datum hl hlateness hnodup fun s _ => List.not_mem_nil
  rw [ofYamlBy, hl.read? _ (isMapping_rows hlateness hne hnodup), Option.bind_some, List.map_map]
  rw [show ((fun row : String × Datum => (row.1, l.node row.2)) ∘ fun s : Setting =>
    (s.name, s.datum c)) = fun s => (s.name, l.node (s.datum c)) from rfl, hset]
  simp only
  rw [check_withDefaults h removed]
  rfl

/-- What is left of the text of a configuration are the lines of the other settings. -/
theorem withoutLines_text (hl : l.Documented) (h : 0 ≤ c.lateness.toInt) (removed : ℕ → Bool) :
    withoutLines removed (String.ofList (l.text c.rows)) = String.ofList (l.text
      ((Setting.all.filter fun s => !removed s.line).map fun s => (s.name, s.datum c))) := by
  have hplaces : Setting.all.zipIdx = Setting.all.map fun s => (s, s.line) := rfl
  have hlines : ∀ row ∈ c.rows, '\n' ∉ l.line row := by
    refine List.forall_mem_map.2 fun s _ hmem => ?_
    rcases List.mem_append.1 hmem with hkey | hrest
    · exact hl.key _ s.isName_name hkey
    · simp only [List.mem_cons, Char.reduceEq, false_or] at hrest
      exact hl.scalar _ (s.isPlain_datum h) hrest
  rw [withoutLines, String.toList_ofList, withoutLinesFrom_text l removed 0 hlines, rows,
    List.zipIdx_map, hplaces, List.map_map, List.filter_map, List.map_map]
  rfl

/-- **A valid configuration through its text** is itself again.  Whatever lines are removed from
    the text, if any is left, the settings on them have their defaults again, and all others are
    kept. -/
theorem ofYaml_toYaml (hf : f.Documented) (h : c.check = .ok ()) :
    ∃ text, c.toYamlBy f = .ok text ∧ ofYamlBy f text = .ok c ∧
      ∀ removed : ℕ → Bool, (∃ s : Setting, removed s.line = false) →
        ofYamlBy f (withoutLines removed text) = .ok (c.withDefaults fun s => removed s.line) := by
  obtain ⟨l, hl⟩ := hf
  have hlateness := lateness_nonneg h
  have hwrite : f.write? c.rows = some (String.ofList (l.text c.rows)) :=
    hl.write? _ (isMapping_rows hlateness (by decide) (by decide))
  refine ⟨String.ofList (l.text c.rows), ?_, ?_, ?_⟩
  · rw [toYamlBy, hwrite]
  · exact ofYamlBy_text hl h (fun _ => false) .substitute rfl
  · rintro removed ⟨kept, hkept⟩
    rw [withoutLines_text hl hlateness]
    exact ofYamlBy_text hl h _ kept hkept

/-- A configuration at the ends of the words, with the name that has to be quoted: of its text, and
    of this text without the first and the third line. -/
theorem ofYaml_toYaml_greatest :
    let c : Config := ⟨18446744073709551615, 18446744073709551615, false, 9223372036854775807,
      18446744073709551615, .null⟩
    Yaml.format.Documented ∧ c.check = .ok () ∧ ofYaml c.toYaml = .ok c ∧
      ofYaml (withoutLines (fun place => place = 0 || place = 2) c.toYaml) =
        .ok { c with queueCapacity := 1024, flushOnStop := true } := by
  intro c
  have hcheck : c.check = .ok () := by decide
  obtain ⟨text, htext, hwhole, hparts⟩ := ofYaml_toYaml format_documented hcheck
  obtain rfl : c.toYaml = text := Except.ok.inj htext
  exact ⟨format_documented, hcheck, hwhole, hparts _ ⟨.substitute, rfl⟩⟩

end Config

end StreamSql
