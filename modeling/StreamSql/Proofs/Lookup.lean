/-
  The functions of the catalog are found under their names.

  No two names of the catalog are equal in upper case (`Catalog.nodup_keys`), so that no function
  hides another one.

  * `Registry.scalar?_standard`, `Registry.aggregate?_standard`: a function of the catalog is found
    under each of its names, in any case of letters;
  * `Expr.eval_call_standard`: what a call of such a function evaluates to;
  * `Expr.eval_binary`, `Expr.eval_minus`: what the operators evaluate to that do not decide
    themselves which of their operands are evaluated.
-/
import Mathlib.Tactic.Common
import StreamSql.Expr.Eval
import StreamSql.Function.Catalog
import StreamSql.Proofs.Words

namespace StreamSql

namespace Catalog

/-- The functions of the catalog, once for each of their names. -/
def entries (time : Int64) : List (Definition × String) :=
  (all time).flatMap fun d => d.names.map (d, ·)

/-- The name of an entry as a registry has it. -/
def key (entry : Definition × String) : String :=
  Text.upper entry.2

theorem mem_entries {time : Int64} {d : Definition} (hd : d ∈ all time) {name : String}
    (hname : name ∈ d.names) : (d, name) ∈ entries time :=
  List.mem_flatMap.2 ⟨d, hd, List.mem_map.2 ⟨name, hname, rfl⟩⟩

/-- The names do not depend on the time. -/
theorem keys_eq (time : Int64) : (entries time).map key = (entries 0).map key := by
  have hnames : (entries time).map Prod.snd = (entries 0).map Prod.snd := rfl
  have hkey : ∀ es : List (Definition × String),
      es.map key = (es.map Prod.snd).map Text.upper := fun es => by
    rw [List.map_map]
    rfl
  rw [hkey, hkey, hnames]

theorem nodup_keys (time : Int64) : ((entries time).map key).Nodup := by
  rw [keys_eq]
  decide +kernel

/-- The names of the bounds of a window are not taken. -/
theorem bounds_not_mem_keys (time : Int64) :
    ∀ bound ∈ ["WINDOW_START", "WINDOW_END"], Text.upper bound ∉ (entries time).map key := by
  rw [keys_eq]
  decide +kernel

end Catalog

namespace Registry

open Catalog

/-- A function entered under one name. -/
def enterAs (r : Registry) (entry : Definition × String) : Registry :=
  match entry.1.behaviour with
  | .scalar run => { r with scalars := r.scalars.insert (key entry) ⟨entry.1.arity, run⟩ }
  | .aggregate create =>
    { r with aggregates := r.aggregates.insert (key entry) ⟨entry.1.arity, create⟩ }

theorem standard_eq (time : Int64) : standard time = (entries time).foldl enterAs {} := by
  rw [entries, List.foldl_flatMap]
  simp only [List.foldl_map]
  rfl

/-- The table holds the functions of one kind: an entry of this kind is inserted into it, and other
    entries leave it alone. -/
structure Keeps {β : Type} (table : Registry → Table β) (function? : Definition → Option β) :
    Prop where
  inserted : ∀ (r : Registry) (entry : Definition × String) (f : β), function? entry.1 = some f →
    table (enterAs r entry) = (table r).insert (key entry) f
  left : ∀ (r : Registry) (entry : Definition × String), function? entry.1 = none →
    table (enterAs r entry) = table r

/-- The scalar function that a definition is. -/
def scalarOf? (d : Definition) : Option ScalarFunction :=
  match d.behaviour with
  | .scalar run => some ⟨d.arity, run⟩
  | .aggregate _ => none

/-- The aggregate that a definition is. -/
def aggregateOf? (d : Definition) : Option AggregateFunction :=
  match d.behaviour with
  | .scalar _ => none
  | .aggregate create => some ⟨d.arity, create⟩

theorem keeps_scalars : Keeps scalars scalarOf? := by
  constructor <;> intro r entry <;> unfold scalarOf? enterAs <;> cases entry.1.behaviour <;> simp

theorem keeps_aggregates : Keeps aggregates aggregateOf? := by
  constructor <;> intro r entry <;> unfold aggregateOf? enterAs <;> cases entry.1.behaviour <;> simp

namespace Keeps

variable {β : Type} {table : Registry → Table β} {function? : Definition → Option β}
  {es : List (Definition × String)}

/-- An entry leaves alone what is found under other names. -/
theorem get?_of_not_mem (h : Keeps table function?) {name : String} (hname : name ∉ es.map key)
    (r : Registry) : (table (es.foldl enterAs r)).get? name = (table r).get? name := by
  induction es generalizing r with
  | nil => rfl
  | cons entry rest ih =>
    rw [List.map_cons, List.mem_cons, not_or] at hname
    rw [List.foldl_cons, ih hname.2]
    cases hf : function? entry.1 with
    | some f => rw [h.inserted r entry f hf, Table.get?_insert_of_ne _ _ (Ne.symm hname.1)]
    | none => rw [h.left r entry hf]

theorem get?_of_mem (h : Keeps table function?) (hnodup : (es.map key).Nodup)
    {entry : Definition × String} (hmem : entry ∈ es) {f : β} (hf : function? entry.1 = some f)
    (r : Registry) : (table (es.foldl enterAs r)).get? (key entry) = some f := by
  induction es generalizing r with
  | nil => cases hmem
  | cons first rest ih =>
    rw [List.map_cons, List.nodup_cons] at hnodup
    rw [List.foldl_cons]
    rcases List.mem_cons.1 hmem with rfl | hmem
    · rw [h.get?_of_not_mem hnodup.1, h.inserted r entry f hf]
      exact Table.get?_insert_self ..
    · exact ih hnodup.2 hmem _

/-- A function of the catalog is found in the table of its kind under each of its names. -/
theorem get?_standard (h : Keeps table function?) {time : Int64} {d : Definition}
    (hd : d ∈ Catalog.all time) {f : β} (hf : function? d = some f) {listed name : String}
    (hlisted : listed ∈ d.names) (hname : Text.upper name = Text.upper listed) :
    (table (standard time)).get? (Text.upper name) = some f := by
  rw [hname, standard_eq]
  exact h.get?_of_mem (nodup_keys time) (mem_entries hd hlisted) hf {}

end Keeps

/-- **A scalar function of the catalog** is found under each of its names, in any case. -/
theorem scalar?_standard {time : Int64} {d : Definition} (hd : d ∈ Catalog.scalars time)
    {run : List Value → Except QueryError Value} (hrun : d.behaviour = .scalar run)
    {listed name : String} (hlisted : listed ∈ d.names)
    (hname : Text.upper name = Text.upper listed) :
    (standard time).scalar? name = some ⟨d.arity, run⟩ :=
  keeps_scalars.get?_standard (List.mem_append_left _ hd) (by rw [scalarOf?, hrun]) hlisted hname

/-- **An aggregate of the catalog** is found under each of its names, in any case. -/
theorem aggregate?_standard (time : Int64) {d : Definition} (hd : d ∈ Catalog.aggregates)
    {create : List Value → Except QueryError Accumulator}
    (hcreate : d.behaviour = .aggregate create)
    {listed name : String} (hlisted : listed ∈ d.names)
    (hname : Text.upper name = Text.upper listed) :
    (standard time).aggregate? name = some ⟨d.arity, create⟩ :=
  keeps_aggregates.get?_standard (List.mem_append_right _ hd) (by rw [aggregateOf?, hcreate])
    hlisted hname

end Registry

namespace Expr

theorem eval_binary {s : Scope} {l r : Expr} {v w : Value} (hl : l.eval s = .ok v)
    (hr : r.eval s = .ok w) (op : BinaryOp) (hop : op ∉ [.and, .or, .isIn, .notIn]) :
    (binary op l r).eval s = v.binary op w := by
  simp only [List.mem_cons, List.not_mem_nil, or_false, not_or] at hop
  rw [eval, hl, hr]
  · rfl
  all_goals simp [hop]

theorem eval_minus {s : Scope} {e : Expr} {v : Value} (he : e.eval s = .ok v) :
    (unary .minus e).eval s = v.negate := by
  rw [eval, he]
  rfl

/-- A function of the catalog is not asked for a bound of the window. -/
theorem ofName?_eq_none {time : Int64} {d : Definition} (hd : d ∈ Catalog.scalars time)
    {listed name : String} (hlisted : listed ∈ d.names)
    (hname : Text.upper name = Text.upper listed) : WindowBound.ofName? name = none := by
  have hmem : Text.upper name ∈ (Catalog.entries time).map Catalog.key :=
    List.mem_map.2
      ⟨_, Catalog.mem_entries (List.mem_append_left _ hd) hlisted, hname.symm⟩
  have hbound : ∀ bound ∈ ["WINDOW_START", "WINDOW_END"], ¬ Text.sameAscii name bound = true := by
    intro bound hbound h
    exact Catalog.bounds_not_mem_keys time bound hbound (Text.upper_of_sameAscii h ▸ hmem)
  unfold WindowBound.ofName?
  rw [if_neg (hbound _ (by simp)), if_neg (hbound _ (by simp))]

/-- **A call of a function of the catalog** evaluates the arguments and applies the function. -/
theorem eval_call_standard {s : Scope} {time : Int64} (hs : s.registry = .standard time)
    {d : Definition} (hd : d ∈ Catalog.scalars time)
    {run : List Value → Except QueryError Value} (hrun : d.behaviour = .scalar run)
    {listed name : String} (hlisted : listed ∈ d.names)
    (hname : Text.upper name = Text.upper listed)
    {args : List Expr} {values : List Value} (hargs : evalList s args = .ok values)
    (harity : d.arity.accepts values.length = true) :
    (Expr.call name args).eval s = run values := by
  rw [eval, ofName?_eq_none hd hlisted hname]
  simp only [hargs, bind, Except.bind, Registry.call, hs,
    Registry.scalar?_standard hd hrun hlisted hname, harity, if_true]

end Expr

end StreamSql
