/-
# Programs that print values

What a program prints is cut to what stands between its blanks, and this is read as JSON up to
the limit of nesting. The compact text of a value has no blank at its ends, so blanks that a
program prints around it do not matter: up to the limit the answer is the value, and beyond it
the answer is the string that the text is. An artifact that prints its input back unchanged is
thus answered with its input exactly if this nests within the limit.

Key definition: `Artifacts.PrintsBack`.
Key theorems: `Json.cleanEnds_chars`, `Outcome.answer_printed`, `Artifacts.printed_back`.
-/
import Stepwise.Artifact.Run
import Stepwise.Proofs.Json.Printed
import Stepwise.Proofs.Text.Ends
import Stepwise.Run.Step

namespace Stepwise

namespace Json

/-! ### The ends of a text -/

theorem isBlank_of_isDigit {c : Char} (h : c.isDigit = true) : Text.isBlank c = false := by
  simp only [Char.isDigit, Bool.and_eq_true, decide_eq_true_eq] at h
  have hlow : 48 ≤ c.toNat := h.1
  have hhigh : c.toNat ≤ 57 := h.2
  simp only [Text.isBlank, Bool.or_eq_false_iff, Bool.and_eq_false_iff, decide_eq_false_iff_not,
    beq_eq_false_iff_ne]
  omega

theorem intChars_ne_nil (i : Int) : intChars i ≠ [] := by
  cases i with
  | ofNat n => exact Nat.toDigits_ne_nil
  | negSucc n => exact List.cons_ne_nil _ _

theorem isBlank_intChars (i : Int) : ∀ c ∈ intChars i, Text.isBlank c = false := by
  have hdigits : ∀ n, ∀ c ∈ Nat.toDigits 10 n, Text.isBlank c = false := fun n c hc =>
    isBlank_of_isDigit (NumberScan.isDigit_toDigits n c hc)
  cases i with
  | ofNat n => exact hdigits n
  | negSucc n => exact List.forall_mem_cons.mpr ⟨by decide, hdigits (n + 1)⟩

theorem exists_itemChars (vs : List Json) : ∃ cs, itemChars vs = cs ++ [']'] := by
  induction vs with
  | nil => exact ⟨[], rfl⟩
  | cons v vs ih =>
    obtain ⟨cs, hcs⟩ := ih
    exact ⟨',' :: (chars v ++ cs), by rw [itemChars, hcs]; simp⟩

theorem exists_fieldChars (rest : Fields) : ∃ cs, fieldChars rest = cs ++ ['}'] := by
  induction rest with
  | nil => exact ⟨[], rfl⟩
  | cons field rest ih =>
    obtain ⟨k, v⟩ := field
    obtain ⟨cs, hcs⟩ := ih
    exact ⟨',' :: (stringChars k ++ ':' :: (chars v ++ cs)), by rw [fieldChars, hcs]; simp⟩

/-- A text between two marks has them at its ends. -/
theorem cleanEnds_enclosed {c d : Char} (hc : Text.isBlank c = false) (hd : Text.isBlank d = false)
    (inner : List Char) : Text.CleanEnds Text.isBlank (c :: (inner ++ [d])) := by
  have hfirst : Text.CleanEnds Text.isBlank [c] := .of_forall (List.forall_mem_singleton.mpr hc)
  have hlast : Text.CleanEnds Text.isBlank [d] := .of_forall (List.forall_mem_singleton.mpr hd)
  exact hfirst.around hlast (List.cons_ne_nil _ _) (List.cons_ne_nil _ _) inner

/-- The compact text of a value has no blank at its ends. -/
theorem cleanEnds_chars {v : Json} (hwhole : v.Whole) :
    Text.CleanEnds Text.isBlank v.chars ∧ v.chars ≠ [] := by
  match v with
  | .null | .bool true | .bool false | .arr [] | .obj [] => decide
  | .num n =>
    obtain ⟨i, rfl⟩ := hwhole n (List.mem_singleton.mpr rfl)
    exact ⟨.of_forall (isBlank_intChars i), intChars_ne_nil i⟩
  | .str s => exact ⟨cleanEnds_enclosed (by decide) (by decide) _, List.cons_ne_nil _ _⟩
  | .arr (v :: vs) =>
    obtain ⟨cs, hcs⟩ := exists_itemChars vs
    have htext : chars (.arr (v :: vs)) = '[' :: (chars v ++ cs ++ [']']) := by
      rw [chars, hcs, List.cons_append, List.append_assoc]
    rw [htext]
    exact ⟨cleanEnds_enclosed (by decide) (by decide) _, List.cons_ne_nil _ _⟩
  | .obj ((k, v) :: rest) =>
    obtain ⟨cs, hcs⟩ := exists_fieldChars rest
    have htext : chars (.obj ((k, v) :: rest)) =
        '{' :: (stringChars k ++ ':' :: (chars v ++ cs) ++ ['}']) := by
      rw [chars, hcs]
      simp
    rw [htext]
    exact ⟨cleanEnds_enclosed (by decide) (by decide) _, List.cons_ne_nil _ _⟩

end Json

namespace Outcome

/-! ### What is printed -/

/-- Blanks around the text of a value are cut off. -/
theorem trim_printed {v : Json} (hwhole : v.Whole) {before after : String}
    (hbefore : Text.allBlank before = true) (hafter : Text.allBlank after = true) :
    Text.trim (before ++ v.compact ++ after) = v.compact := by
  obtain ⟨hends, hne⟩ := Json.cleanEnds_chars hwhole
  rw [Text.trim, Text.strip, String.toList_append, String.toList_append, Json.compact,
    String.toList_ofList, hends.stripBy_surrounded hne (List.all_eq_true.mp hbefore)
      (List.all_eq_true.mp hafter)]

/-- A printed value is the answer, unless it nests too deep for that: then its text is. -/
theorem answer_printed {v : Json} (hv : v.Canonical) (hwhole : v.Whole) {before after : String}
    (hbefore : Text.allBlank before = true) (hafter : Text.allBlank after = true) :
    answer (before ++ v.compact ++ after).toUTF8 =
      if v.depth ≤ 127 then v else .str v.compact := by
  have hne : v.compact ≠ "" := by
    intro h
    have hchars : v.chars = [] := by
      rw [← String.toList_ofList (l := v.chars)]
      exact congrArg String.toList h
    exact (Json.cleanEnds_chars hwhole).2 hchars
  simp only [answer, Text.decodeLossy_toUTF8, trim_printed hwhole hbefore hafter, if_neg hne]
  rw [Json.compact, String.toList_ofList, Json.read, Json.depthLimit]
  by_cases hdepth : v.depth ≤ 127
  · have hread : Json.readWritten (some 127) v.chars = .ok v.reread :=
      Json.readWritten_chars hv.inRange (fun m hm => Option.some.inj hm ▸ hdepth)
    rw [hread, hv.reread_of_whole hwhole, if_pos hdepth]
    exact Json.canonical_eq_self hv
  · obtain ⟨position, hread⟩ := Json.exists_readWritten_tooDeep hv.inRange
      (Nat.lt_of_not_le hdepth)
    rw [hread, if_neg hdepth]
    rfl

end Outcome

namespace Artifacts

/-- An artifact is found and has an interpreter, and given the compact text of the value, its
program prints that text, perhaps with blanks around it, and succeeds in time. -/
def PrintsBack (a : Artifacts) (artifact : String) (v : Json) : Prop :=
  ∃ path interpreter before after, a.folder.locate? artifact = some path ∧
    Interpreter.ofPath? path = some interpreter ∧
    Text.allBlank before = true ∧ Text.allBlank after = true ∧
    let here := (a.folder.tree.resolve? a.folder.here a.folder.path).getD []
    let outcome := a.interpretation interpreter a.folder.tree here path v.compact.toUTF8
    outcome.stdout = (before ++ v.compact ++ after).toUTF8 ∧ outcome.exit.isSuccess = true ∧
      outcome.exceeds a.timeout = false

variable {a : Artifacts} {artifact : String} {v : Json}

theorem execute_of_printsBack (h : a.PrintsBack artifact v) (hv : v.Canonical)
    (hwhole : v.Whole) :
    a.execute artifact v = .ok (if v.depth ≤ 127 then v else .str v.compact) := by
  obtain ⟨path, interpreter, before, after, hpath, hinterpreter, hbefore, hafter, hstdout, hexit,
    htime⟩ := h
  simp only [execute, hpath, hinterpreter, Outcome.reply, htime, hexit, hstdout,
    Outcome.answer_printed hv hwhole hbefore hafter, Bool.false_eq_true, if_false, if_true]

/-- A step that calls the artifact ends with its reply. -/
theorem performCode_of_execute {σ : Type} {ex : Executors σ} {s : σ} {view : View}
    {template out : Json} (htemplate : view.resolve template = v)
    (hcode : (ex.code artifact v s).1 = a.execute artifact v)
    (hreply : a.execute artifact v = .ok out) :
    ((Task.performCode view ⟨artifact, template⟩).run ex s).1 =
      .succeed (.obj [("artifact", .str artifact), ("input", v)]) out := by
  have hcall : (ex.answer (.code artifact v) s).1 = .ok (some out) := by
    show (ex.code artifact v s).1.map some = _
    rw [hcode, hreply]
    rfl
  simp only [Task.performCode, Call.perform, htemplate, Process.run, hcall, StepResult.ofReply,
    Option.getD_some]

/-- A value that a program prints, with any blanks around it, is answered as itself if it nests
up to the limit, and beyond it as the string that its text is. So is the input of a step whose
artifact prints it back: the step succeeds, with its input as the output up to the limit. -/
theorem printed_back (hv : v.Canonical) (hwhole : v.Whole) :
    (∀ before after : String, Text.allBlank before = true → Text.allBlank after = true →
      Outcome.answer (before ++ v.compact ++ after).toUTF8 =
        if v.depth ≤ 127 then v else .str v.compact) ∧
    (∀ (a : Artifacts) (artifact : String), a.PrintsBack artifact v →
      ∀ {σ : Type} (ex : Executors σ) (s : σ) (view : View) (template : Json),
        view.resolve template = v → (ex.code artifact v s).1 = a.execute artifact v →
        ((Task.performCode view ⟨artifact, template⟩).run ex s).1 =
          .succeed (.obj [("artifact", .str artifact), ("input", v)])
            (if v.depth ≤ 127 then v else .str v.compact)) := by
  refine ⟨fun before after hbefore hafter => Outcome.answer_printed hv hwhole hbefore hafter, ?_⟩
  intro a artifact hback σ ex s view template htemplate hcode
  exact performCode_of_execute htemplate hcode (execute_of_printsBack hback hv hwhole)

end Artifacts

/-! ### A script that prints its input -/

namespace Parrot

/-- Arrays within arrays. -/
def nested : Nat → Json
  | 0 => .arr []
  | n + 1 => .arr [nested n]

theorem canonical_nested : ∀ n, (nested n).Canonical
  | 0 => trivial
  | n + 1 => ⟨canonical_nested n, trivial⟩

theorem numbers_nested : ∀ n, (nested n).numbers = []
  | 0 => rfl
  | n + 1 => by
    rw [nested, Json.numbers, Json.numbersList, numbers_nested n, Json.numbersList,
      List.append_nil]

theorem whole_nested (n : Nat) : (nested n).Whole := by
  intro m hm
  rw [numbers_nested] at hm
  exact absurd hm List.not_mem_nil

theorem depth_nested : ∀ n, (nested n).depth = n + 1
  | 0 => rfl
  | n + 1 => by
    rw [nested, Json.depth, Json.depthList, depth_nested n, Json.depthList]
    omega

theorem resolve_nested (view : View) : ∀ n, view.resolve (nested n) = nested n
  | 0 => rfl
  | n + 1 => by
    rw [nested, View.resolve, View.resolveList, resolve_nested view n, View.resolveList]

def folder : ArtifactFolder :=
  ⟨.folder [("artifacts", .folder [("parrot.sh", .file "cat\n".toUTF8)])], [], "/artifacts"⟩

def artifacts : Artifacts := ⟨folder, ⟨30, 0⟩, Interpreter.run⟩

def executors : Executors Unit where
  code artifact input _ := (artifacts.execute artifact input, ())
  integration _ _ _ _ := (.error (.failed "no integration"), ())
  get _ _ := (.error (.failed "no store"), ())
  put _ _ _ := (.error (.failed "no store"), ())

/-- What a step of the artifact ends with, whose input holds no template. -/
def step (input : Json) : StepResult :=
  ((Task.performCode ⟨[], [], []⟩ ⟨"parrot.sh", input⟩).run executors ()).1

/-- The script writes what it reads, whatever that is. -/
theorem run_parrot (input : ByteArray) :
    Shell.run folder.tree ["artifacts"] "/artifacts/parrot.sh" input =
      ⟨input, .empty, .code 0, some 0⟩ := rfl

theorem printsBack (v : Json) : artifacts.PrintsBack "parrot.sh" v := by
  refine ⟨"/artifacts/parrot.sh", .bash, "", "", by decide +kernel, by decide +kernel, rfl, rfl, ?_⟩
  have hhere : (folder.tree.resolve? folder.here folder.path).getD [] = ["artifacts"] := by
    decide +kernel
  simp only [artifacts, hhere, Interpreter.run, run_parrot]
  rw [String.empty_append, String.append_empty]
  exact ⟨rfl, rfl, rfl⟩

/-- Beyond the limit a value comes back as a string, from a program that prints it and from a
step whose artifact prints its input. -/
theorem nested_becomes_text :
    (nested 127).Canonical ∧ (nested 127).Whole ∧ artifacts.PrintsBack "parrot.sh" (nested 127) ∧
      Outcome.answer (nested 127).compact.toUTF8 = .str (nested 127).compact ∧
      step (nested 127) = .succeed (.obj [("artifact", .str "parrot.sh"), ("input", nested 127)])
        (.str (nested 127).compact) ∧
      .str (nested 127).compact ≠ nested 127 := by
  have hv := canonical_nested 127
  have hwhole := whole_nested 127
  have hdepth : ¬ (nested 127).depth ≤ 127 := by rw [depth_nested]; decide
  have hanswer : Outcome.answer ("" ++ (nested 127).compact ++ "").toUTF8 = _ :=
    Outcome.answer_printed hv hwhole rfl rfl
  have hreply := Artifacts.execute_of_printsBack (printsBack _) hv hwhole
  rw [if_neg hdepth] at hanswer hreply
  rw [String.empty_append, String.append_empty] at hanswer
  exact ⟨hv, hwhole, printsBack _, hanswer,
    Artifacts.performCode_of_execute (resolve_nested _ 127) rfl hreply, nofun⟩

/-- Values in values: texts with blanks, quotes and breaks, and the bounds of whole numbers. -/
def parcel : Json :=
  .obj [("", .arr [.int (-9223372036854775808), .str " a \"b\"\n", .obj []]),
    ("sent \\", .obj [("parts", .arr [.arr [.int 18446744073709551615, .null], .bool false])])]

theorem canonical_parcel : parcel.Canonical := by
  simp only [parcel, Json.Canonical, Json.CanonicalFields, Json.CanonicalList, Json.int]
  decide

theorem whole_parcel : parcel.Whole := by
  intro n hn
  have hnumbers : n = .int (-9223372036854775808) ∨ n = .int 18446744073709551615 := by
    simpa [parcel, Json.numbers, Json.numbersFields, Json.numbersList, Json.int] using hn
  rcases hnumbers with rfl | rfl <;> exact ⟨_, rfl⟩

end Parrot

theorem Artifacts.printed_back_parrot :
    Parrot.parcel.Canonical ∧ Parrot.parcel.Whole ∧
      Outcome.answer ("\n" ++ Parrot.parcel.compact ++ " ").toUTF8 = Parrot.parcel ∧
      Parrot.artifacts.PrintsBack "parrot.sh" Parrot.parcel ∧
      Parrot.step Parrot.parcel =
        .succeed (.obj [("artifact", .str "parrot.sh"), ("input", Parrot.parcel)])
          Parrot.parcel := by
  have hv := Parrot.canonical_parcel
  have hwhole := Parrot.whole_parcel
  have hback := Parrot.printsBack Parrot.parcel
  have hdepth : Parrot.parcel.depth ≤ 127 := by decide
  obtain ⟨hanswer, hstep⟩ := printed_back hv hwhole
  rw [if_pos hdepth] at hanswer hstep
  exact ⟨hv, hwhole, hanswer "\n" " " rfl rfl, hback,
    hstep _ _ hback Parrot.executors () _ _ (by decide +kernel) rfl⟩

end Stepwise
