/-
# What a value is resolved from

An inquiry looks expressions up, one after the other, and may go by what it has found. What
a value resolves to is found out by an inquiry that knows nothing of a view but what its
expressions refer to: so the expressions it looks up are all that the value depends on.
They are the expressions of the placeholders in the strings of the value, whatever the view;
the references are those of them that are not blank.

Each of them matters. There are answers that differ in one expression only and lead to
different values.

Key definitions: `Inquiry`, `Inquiry.answer`, `Inquiry.asked`, `Json.inquiry`.

Key theorems: `Inquiry.answer_congr`, `Json.answer_inquiry`, `Template.asked_inquiry`,
`Template.exists_answer_ne`, `View.resolve_depends`.
-/
import Stepwise.Proofs.Template.Agreement
import Stepwise.Proofs.Template.Slices

namespace Stepwise

/-- A course of looking expressions up. -/
inductive Inquiry (α : Type) where
  | done (a : α)
  /-- Look an expression up and go on with what it refers to. -/
  | ask (expression : String) (next : Option Json → Inquiry α)

namespace Inquiry

variable {α β : Type} {lookup : String → Option Json}

/-- The second inquiry, from the result of the first. -/
def bind : Inquiry α → (α → Inquiry β) → Inquiry β
  | .done a, f => f a
  | .ask e next, f => .ask e fun found => (next found).bind f

/-- The inquiry with its result changed. -/
def map (f : α → β) (q : Inquiry α) : Inquiry β := q.bind fun a => .done (f a)

/-- The result, given what expressions refer to. -/
def answer (lookup : String → Option Json) : Inquiry α → α
  | .done a => a
  | .ask e next => (next (lookup e)).answer lookup

/-- The expressions that are looked up, in order. -/
def asked (lookup : String → Option Json) : Inquiry α → List String
  | .done _ => []
  | .ask e next => e :: (next (lookup e)).asked lookup

theorem answer_bind (f : α → Inquiry β) : ∀ q : Inquiry α,
    (q.bind f).answer lookup = (f (q.answer lookup)).answer lookup
  | .done _ => rfl
  | .ask e next => answer_bind f (next (lookup e))

theorem asked_bind (f : α → Inquiry β) : ∀ q : Inquiry α,
    (q.bind f).asked lookup = q.asked lookup ++ (f (q.answer lookup)).asked lookup
  | .done _ => rfl
  | .ask e next => congrArg (e :: ·) (asked_bind f (next (lookup e)))

@[simp] theorem answer_map (f : α → β) (q : Inquiry α) :
    (q.map f).answer lookup = f (q.answer lookup) := answer_bind _ q

@[simp] theorem asked_map (f : α → β) (q : Inquiry α) :
    (q.map f).asked lookup = q.asked lookup := by
  rw [map, asked_bind]
  exact List.append_nil _

/-- The result depends on what is looked up and on nothing else. -/
theorem answer_congr {other : String → Option Json} : ∀ {q : Inquiry α},
    (∀ e ∈ q.asked lookup, lookup e = other e) → q.answer lookup = q.answer other
  | .done _, _ => rfl
  | .ask e next, h => by
    obtain ⟨he, hnext⟩ := List.forall_mem_cons.mp h
    rw [answer, answer, ← he]
    exact answer_congr hnext

end Inquiry

/-! ### Templates -/

namespace Template

/-- What the placeholders look up, in order, blank or not. -/
def expressions (t : Template) : List String := t.parts.map fun p => lookedUp p.2

/-- Looking up a placeholder. -/
def placeholderInquiry (expression : List Char) : Inquiry Json :=
  .ask (lookedUp expression) fun found => .done (found.getD .null)

/-- Filling in parts, with a text behind them. -/
def partsInquiry (rest : List Char) : List (List Char × List Char) → Inquiry (List Char)
  | [] => .done rest
  | (l, e) :: parts =>
    (placeholderInquiry e).bind fun v =>
      (partsInquiry rest parts).map fun text => l ++ View.embedded v ++ text

/-- Filling in a template. -/
def inquiry (t : Template) : Inquiry Json :=
  match t.whole? with
  | some e => placeholderInquiry e
  | none => (partsInquiry t.rest t.parts).map fun text => .str (String.ofList text)

theorem answer_partsInquiry (view : View) (rest : List Char) :
    ∀ parts : List (List Char × List Char),
      (partsInquiry rest parts).answer view.lookup? =
        parts.flatMap (fun p => p.1 ++ View.embedded (view.placeholder p.2)) ++ rest
  | [] => rfl
  | (l, e) :: parts => by
    rw [partsInquiry, Inquiry.answer_bind, Inquiry.answer_map, answer_partsInquiry view rest,
      List.flatMap_cons, List.append_assoc (l ++ _)]
    rfl

theorem answer_inquiry (view : View) (t : Template) :
    t.inquiry.answer view.lookup? = view.fill t := by
  unfold inquiry View.fill
  cases t.whole? with
  | some e => rfl
  | none => rw [Inquiry.answer_map, answer_partsInquiry]

theorem asked_partsInquiry (lookup : String → Option Json) (rest : List Char) :
    ∀ parts : List (List Char × List Char),
      (partsInquiry rest parts).asked lookup = parts.map fun p => lookedUp p.2
  | [] => rfl
  | (l, e) :: parts => by
    rw [partsInquiry, Inquiry.asked_bind, Inquiry.asked_map, asked_partsInquiry lookup rest]
    rfl

/-- What filling in a template looks up does not depend on what is found. -/
theorem asked_inquiry (lookup : String → Option Json) (t : Template) :
    t.inquiry.asked lookup = t.expressions := by
  unfold inquiry
  cases hwhole : t.whole? with
  | some e =>
    obtain ⟨rfl, -⟩ := whole?_eq_some_iff.mp hwhole
    rfl
  | none => rw [Inquiry.asked_map, asked_partsInquiry, expressions]

theorem references_eq_filter (t : Template) : t.references = t.expressions.filter (· ≠ "") := rfl

/-! ### Every placeholder matters -/

/-- Nothing refers to anything, but for one expression, which refers to the empty text. -/
def onlyEmpty (expression : String) : String → Option Json :=
  fun e => if e = expression then some (.str "") else none

/-- With nothing found the text is no shorter, and it is longer where the expression stands:
null has four letters. -/
theorem length_partsInquiry (expression : String) (rest : List Char) :
    ∀ parts : List (List Char × List Char),
      ((partsInquiry rest parts).answer (onlyEmpty expression)).length +
          4 * (parts.map fun p => lookedUp p.2).count expression =
        ((partsInquiry rest parts).answer fun _ => none).length
  | [] => rfl
  | (l, e) :: parts => by
    have ih := length_partsInquiry expression rest parts
    have hnull : (View.embedded Json.null).length = 4 := rfl
    have hempty : (View.embedded (.str "")).length = 0 := rfl
    rw [partsInquiry, Inquiry.answer_bind, Inquiry.answer_bind, Inquiry.answer_map,
      Inquiry.answer_map, List.map_cons, List.count_cons]
    simp only [placeholderInquiry, Inquiry.answer, onlyEmpty, Option.getD_none,
      List.length_append, hnull, beq_iff_eq] at ih ⊢
    by_cases he : lookedUp e = expression
    · simp only [if_pos he, Option.getD_some, hempty]
      omega
    · simp only [if_neg he, Option.getD_none, hnull]
      omega

/-- Each expression of a template matters: answers that differ in it alone can lead to
different values. -/
theorem exists_answer_ne {t : Template} {expression : String} (h : expression ∈ t.expressions) :
    ∃ first second : String → Option Json, (∀ e, e ≠ expression → first e = second e) ∧
      t.inquiry.answer first ≠ t.inquiry.answer second := by
  refine ⟨onlyEmpty expression, fun _ => none, fun e he => if_neg he, ?_⟩
  unfold inquiry
  cases hwhole : t.whole? with
  | some e =>
    obtain ⟨rfl, -⟩ := whole?_eq_some_iff.mp hwhole
    have he : lookedUp e = expression := (List.mem_singleton.mp h).symm
    simp [placeholderInquiry, Inquiry.answer, onlyEmpty, he]
  | none =>
    have hlength := length_partsInquiry expression t.rest t.parts
    have hcount : 0 < (t.parts.map fun p => lookedUp p.2).count expression :=
      List.count_pos_iff.mpr h
    rw [Inquiry.answer_map, Inquiry.answer_map]
    intro heq
    rw [Json.str.injEq, String.ofList_inj] at heq
    rw [heq] at hlength
    omega

end Template

/-! ### Values -/

mutual

/-- Resolving a value. -/
def Json.inquiry : Json → Inquiry Json
  | .str s => (Template.ofText s).inquiry
  | .arr items => (listInquiry items).map .arr
  | .obj fields => (fieldsInquiry fields).map .obj
  | v => .done v

/-- Resolving the items. -/
def listInquiry : List Json → Inquiry (List Json)
  | [] => .done []
  | v :: vs => v.inquiry.bind fun w => (listInquiry vs).map (w :: ·)

/-- Resolving the values of the fields. -/
def fieldsInquiry : Json.Fields → Inquiry Json.Fields
  | [] => .done []
  | (k, v) :: rest => v.inquiry.bind fun w => (fieldsInquiry rest).map ((k, w) :: ·)

end

mutual

/-- The inquiry of a value gives what a view resolves it to. -/
theorem Json.answer_inquiry (view : View) : ∀ v : Json,
    v.inquiry.answer view.lookup? = view.resolve v
  | .null => rfl
  | .bool _ => rfl
  | .num _ => rfl
  | .str s => Template.answer_inquiry view (.ofText s)
  | .arr items => by
    rw [Json.inquiry, Inquiry.answer_map, answer_listInquiry view items, View.resolve]
  | .obj fields => by
    rw [Json.inquiry, Inquiry.answer_map, answer_fieldsInquiry view fields, View.resolve]

theorem answer_listInquiry (view : View) : ∀ items : List Json,
    (listInquiry items).answer view.lookup? = view.resolveList items
  | [] => rfl
  | v :: vs => by
    rw [listInquiry, Inquiry.answer_bind, Inquiry.answer_map, Json.answer_inquiry view v,
      answer_listInquiry view vs, View.resolveList]

theorem answer_fieldsInquiry (view : View) : ∀ fields : Json.Fields,
    (fieldsInquiry fields).answer view.lookup? = view.resolveFields fields
  | [] => rfl
  | (k, v) :: rest => by
    rw [fieldsInquiry, Inquiry.answer_bind, Inquiry.answer_map, Json.answer_inquiry view v,
      answer_fieldsInquiry view rest, View.resolveFields]

end

/-- What the strings of a value look up, in order. -/
def Json.expressions (v : Json) : List String :=
  v.strings.flatMap fun s => (Template.ofText s).expressions

mutual

/-- What resolving a value looks up are the expressions in its strings. -/
theorem Json.asked_inquiry (lookup : String → Option Json) : ∀ v : Json,
    v.inquiry.asked lookup = v.expressions
  | .null => rfl
  | .bool _ => rfl
  | .num _ => rfl
  | .str s => by
    rw [Json.inquiry, Template.asked_inquiry, Json.expressions, Json.strings]
    exact (List.flatMap_singleton _ _).symm
  | .arr items => by
    rw [Json.inquiry, Inquiry.asked_map, asked_listInquiry lookup items]
  | .obj fields => by
    rw [Json.inquiry, Inquiry.asked_map, asked_fieldsInquiry lookup fields]

theorem asked_listInquiry (lookup : String → Option Json) : ∀ items : List Json,
    (listInquiry items).asked lookup = (Json.arr items).expressions
  | [] => rfl
  | v :: vs => by
    rw [listInquiry, Inquiry.asked_bind, Inquiry.asked_map, Json.asked_inquiry lookup v,
      asked_listInquiry lookup vs]
    exact List.flatMap_append.symm

theorem asked_fieldsInquiry (lookup : String → Option Json) : ∀ fields : Json.Fields,
    (fieldsInquiry fields).asked lookup = (Json.obj fields).expressions
  | [] => rfl
  | (k, v) :: rest => by
    rw [fieldsInquiry, Inquiry.asked_bind, Inquiry.asked_map, Json.asked_inquiry lookup v,
      asked_fieldsInquiry lookup rest]
    exact List.flatMap_append.symm

end

/-! ### Dependence -/

/-- An expression of a value is one of the references in its strings, or blank. -/
theorem Json.mem_references_or_blank {v : Json} {e : String} (h : e ∈ v.expressions) :
    e = "" ∨ ∃ s ∈ v.strings, e ∈ (Template.ofText s).references := by
  obtain ⟨s, hs, he⟩ := List.mem_flatMap.mp h
  by_cases hblank : e = ""
  · exact .inl hblank
  · refine .inr ⟨s, hs, ?_⟩
    rw [Template.references_eq_filter, List.mem_filter]
    exact ⟨he, decide_eq_true hblank⟩

namespace View

/-- **What a value depends on.** Two views that agree on the references in the strings of a
value resolve it alike. The references of a string, which a search of their own finds as well,
are what resolving it looks up, blank expressions aside, and none of them is idle. -/
theorem resolve_depends (v : Json) :
    (∀ first second : View,
      (∀ s ∈ v.strings, ∀ e ∈ (Template.ofText s).references,
        first.lookup? e = second.lookup? e) → first.resolve v = second.resolve v) ∧
    ∀ s ∈ v.strings, Slices.references s.toList = (Template.ofText s).references ∧
      (∀ view : View, (Json.str s).inquiry.answer view.lookup? = view.resolve (.str s) ∧
        ((Json.str s).inquiry.asked view.lookup?).filter (· ≠ "") =
          (Template.ofText s).references) ∧
      ∀ e ∈ (Template.ofText s).references, ∃ first second : String → Option Json,
        (∀ e', e' ≠ e → first e' = second e') ∧
          (Json.str s).inquiry.answer first ≠ (Json.str s).inquiry.answer second := by
  refine ⟨fun first second h => ?_, fun s _ => ⟨Slices.references_eq s.toList, fun view => ?_,
    fun e he => ?_⟩⟩
  · have hagree : ∀ e ∈ v.inquiry.asked first.lookup?, first.lookup? e = second.lookup? e := by
      intro e he
      rw [Json.asked_inquiry] at he
      rcases Json.mem_references_or_blank he with rfl | ⟨s, hs, he⟩
      · rw [lookup?_empty, lookup?_empty]
      · exact h s hs e he
    rw [← Json.answer_inquiry, ← Json.answer_inquiry]
    exact Inquiry.answer_congr hagree
  · have hasked : (Json.str s).inquiry.asked view.lookup? = (Template.ofText s).expressions :=
      Template.asked_inquiry view.lookup? (.ofText s)
    exact ⟨Json.answer_inquiry view (.str s), by rw [hasked, Template.references_eq_filter]⟩
  · exact Template.exists_answer_ne (List.mem_of_mem_filter he)

/-- A value that refers to the trigger, in a view that holds nothing else and in one that
does. -/
theorem resolve_depends_trigger :
    let trigger := StepResult.succeed (.obj []) (.obj [("value", .bool true)])
    let v := Json.arr [.str "${trigger.value}", .str "is ${ trigger.value }, ${ }"]
    View.resolve ⟨[("trigger", trigger)], [], []⟩ v =
      View.resolve ⟨[("trigger", trigger), ("later", .succeed .null .null)], [],
        [("trigger", .null)]⟩ v :=
  (resolve_depends _).1 _ _ (by decide +kernel)

end View
end Stepwise
