/-
# Written values are read

The compact text of a value whose numbers are in range and that nests within the limit is
read as that value, with every number as its own text is read (`readWritten_chars`). After
the text of a value the reader stands behind it in its container (`Reader.After`); only a
number is not complete before the next character, which any comma or closing bracket is.

Key definitions: `Json.numbers`, `Json.reread`, `Json.Reader.After`.

Key theorems: `Json.Reader.exists_run_string`, `Json.Reader.exists_run_chars`,
`Json.readWritten_chars`.
-/
import Stepwise.Json.Reader
import Stepwise.Proofs.Json.Numbers
import Stepwise.Trace.Reading

namespace Stepwise
namespace Json

open Text (Position)

mutual

/-- The numbers in a value, in the order of its text. -/
def numbers : Json → List Number
  | .num n => [n]
  | .arr items => numbersList items
  | .obj fields => numbersFields fields
  | _ => []

def numbersList : List Json → List Number
  | [] => []
  | v :: vs => numbers v ++ numbersList vs

def numbersFields : Fields → List Number
  | [] => []
  | (_, v) :: rest => numbers v ++ numbersFields rest

end

mutual

/-- The value with every number as its own text is read. -/
def reread : Json → Json
  | .num n => .num n.reread
  | .arr items => .arr (rereadList items)
  | .obj fields => .obj (rereadFields fields)
  | v => v

def rereadList : List Json → List Json
  | [] => []
  | v :: vs => reread v :: rereadList vs

def rereadFields : Fields → Fields
  | [] => []
  | (k, v) :: rest => (k, reread v) :: rereadFields rest

end

namespace Reader

variable {limit : Option Nat}

theorem run_cons {r r' : Reader} {c : Char} (h : step limit r c = .ok r') (cs : List Char) :
    run limit r (c :: cs) = run limit r' cs := by
  rw [run, h]

theorem run_append {r r' : Reader} : ∀ {text : List Char} (more : List Char),
    run limit r text = .ok r' → run limit r (text ++ more) = run limit r' more := by
  intro text
  induction text generalizing r with
  | nil =>
    intro more h
    obtain rfl := Except.ok.inj h
    rfl
  | cons c cs ih =>
    intro more h
    rw [run] at h
    cases hstep : step limit r c with
    | error e => simp [hstep] at h
    | ok next =>
      rw [hstep] at h
      rw [List.cons_append, run_cons hstep, ih more h]

/-! ### Strings -/

section Strings

variable (limit : Option Nat) (isKey : Bool) (stack : List Frame)

/-- A character inside a string. -/
theorem step_string {phase phase' : StringPhase} {acc acc' : List Char} {c : Char}
    (hquote : phase = .plain → c ≠ '"') (h : stepString phase acc c = .ok (phase', acc'))
    (pos : Position) : step limit ⟨.string phase acc isKey, stack, pos⟩ c =
      .ok ⟨.string phase' acc' isKey, stack, pos.advance c⟩ := by
  have hchar : stepChar limit ⟨.string phase acc isKey, stack, pos⟩ c =
      .ok ⟨.string phase' acc' isKey, stack, pos⟩ := by
    cases phase <;> simp_all [stepChar, Except.map]
  simp only [step, hchar]

/-- An escape of one letter. -/
theorem run_letter (acc : List Char) {c d : Char} (hu : c ≠ 'u') (h : escaped? c = some d)
    (pos : Position) : run limit ⟨.string .plain acc isKey, stack, pos⟩ ['\\', c] =
      .ok ⟨.string .plain (d :: acc) isKey, stack, (pos.advance '\\').advance c⟩ := by
  have hmark : stepString .plain acc '\\' = .ok (.escape, acc) := rfl
  have hletter : stepString .escape acc c = .ok (.plain, d :: acc) := by
    simp only [stepString, if_neg hu, h]
  rw [run_cons (step_string limit isKey stack (by simp) hmark pos),
    run_cons (step_string limit isKey stack (by simp) hletter _), run]

theorem hexValue?_digitChar : ∀ n < 16, hexValue? n.digitChar = some n ∧
    n.digitChar.utf8Size = 1 := by
  decide

theorem stepString_hex (acc : List Char) (left m : Nat) {n : Nat} (hn : n < 16) :
    stepString (.hex left (some m) none) acc n.digitChar =
      if 1 < left then .ok (.hex (left - 1) (some (16 * m + n)) none, acc)
      else unicode (16 * m + n) none acc := by
  obtain ⟨hvalue, hsize⟩ := hexValue?_digitChar n hn
  simp only [stepString, hvalue, hsize, Option.bind_some, Option.map_some]

/-- An escape of four hexadecimal digits, none of them for more than a control character. -/
theorem exists_run_hexFour (acc : List Char) {n : Nat} (hn : n < 32) (pos : Position) : ∃ pos',
    run limit ⟨.string .plain acc isKey, stack, pos⟩ (['\\', 'u'] ++ hexFour n) =
      .ok ⟨.string .plain (Char.ofNat n :: acc) isKey, stack, pos'⟩ := by
  have hmark : stepString .plain acc '\\' = .ok (.escape, acc) := rfl
  have hu : stepString .escape acc 'u' = .ok (.hex 4 (some 0) none, acc) := rfl
  have hfirst := stepString_hex acc 4 0 (n := n / 4096 % 16) (by omega)
  have hsecond := stepString_hex acc 3 (16 * 0 + n / 4096 % 16) (n := n / 256 % 16) (by omega)
  have hthird := stepString_hex acc 2 (16 * (16 * 0 + n / 4096 % 16) + n / 256 % 16)
    (n := n / 16 % 16) (by omega)
  have hfourth := stepString_hex acc 1
    (16 * (16 * (16 * 0 + n / 4096 % 16) + n / 256 % 16) + n / 16 % 16) (n := n % 16) (by omega)
  have hcode : 16 * (16 * (16 * (16 * 0 + n / 4096 % 16) + n / 256 % 16) + n / 16 % 16) + n % 16 =
      n := by
    omega
  have hplain : unicode n none acc = .ok (.plain, Char.ofNat n :: acc) := by
    simp only [unicode]
    rw [if_neg (by omega), if_neg (by omega)]
  rw [if_neg (by decide), hcode, hplain] at hfourth
  rw [if_pos (by decide)] at hfirst hsecond hthird
  refine ⟨(['\\', 'u'] ++ hexFour n).foldl Position.advance pos, ?_⟩
  rw [List.cons_append, run_cons (step_string limit isKey stack (by simp) hmark pos),
    List.cons_append, run_cons (step_string limit isKey stack (by simp) hu _), List.nil_append,
    hexFour,
    run_cons (step_string limit isKey stack (by simp) hfirst _),
    run_cons (step_string limit isKey stack (by simp) hsecond _),
    run_cons (step_string limit isKey stack (by simp) hthird _),
    run_cons (step_string limit isKey stack (by simp) hfourth _)]
  rfl

/-- A character of a string as it is written. -/
theorem exists_run_escape (acc : List Char) (c : Char) (pos : Position) : ∃ pos',
    run limit ⟨.string .plain acc isKey, stack, pos⟩ (escape c) =
      .ok ⟨.string .plain (c :: acc) isKey, stack, pos'⟩ := by
  have hletter : ∀ {l d : Char}, l ≠ 'u' → escaped? l = some d → c = d → ∃ pos',
      run limit ⟨.string .plain acc isKey, stack, pos⟩ ['\\', l] =
        .ok ⟨.string .plain (c :: acc) isKey, stack, pos'⟩ := by
    rintro l d hu h rfl
    exact ⟨_, run_letter limit isKey stack acc hu h pos⟩
  unfold escape
  split_ifs with hquote hslash hback hfeed hline hreturn htab hcontrol
  · exact hletter (by decide) rfl hquote
  · exact hletter (by decide) rfl hslash
  · exact hletter (by decide) rfl (Char.toNat_inj.mp hback)
  · exact hletter (by decide) rfl (Char.toNat_inj.mp hfeed)
  · exact hletter (by decide) rfl hline
  · exact hletter (by decide) rfl hreturn
  · exact hletter (by decide) rfl htab
  · obtain ⟨pos', h⟩ := exists_run_hexFour limit isKey stack acc hcontrol pos
    rw [Char.ofNat_toNat] at h
    exact ⟨pos', h⟩
  · have hplain : stepString .plain acc c = .ok (.plain, c :: acc) := by
      simp only [stepString, if_neg hslash, if_neg hcontrol]
    exact ⟨_, by rw [run_cons (step_string limit isKey stack (fun _ => hquote) hplain pos), run]⟩

theorem exists_run_escapes : ∀ (cs acc : List Char) (pos : Position), ∃ pos',
    run limit ⟨.string .plain acc isKey, stack, pos⟩ (cs.flatMap escape) =
      .ok ⟨.string .plain (cs.reverse ++ acc) isKey, stack, pos'⟩
  | [], acc, pos => ⟨pos, rfl⟩
  | c :: cs, acc, pos => by
    obtain ⟨mid, hfirst⟩ := exists_run_escape limit isKey stack acc c pos
    obtain ⟨pos', hrest⟩ := exists_run_escapes cs (c :: acc) mid
    refine ⟨pos', ?_⟩
    rw [List.flatMap_cons, run_append _ hfirst, hrest, List.reverse_cons, List.append_assoc,
      List.singleton_append]

/-- The rest of a string after its first quote. -/
theorem exists_run_string (s : String) (pos : Position) : ∃ pos',
    run limit ⟨.string .plain [] isKey, stack, pos⟩ (s.toList.flatMap escape ++ ['"']) =
      .ok (if isKey then ⟨.between (.colon s), stack, pos'⟩
        else ⟨(deliver (.str s) stack).1, (deliver (.str s) stack).2, pos'⟩) := by
  obtain ⟨mid, hchars⟩ := exists_run_escapes limit isKey stack s.toList [] pos
  have hs : String.ofList s.toList.reverse.reverse = s := by
    rw [List.reverse_reverse, String.ofList_toList]
  rw [List.append_nil] at hchars
  refine ⟨mid.advance '"', ?_⟩
  rw [run_append _ hchars]
  cases isKey <;> simp only [run, step, stepChar, closeString, close, hs] <;> rfl

end Strings

/-! ### The beginning of a value -/

/-- A value may stand next. -/
def Opens (e : Expected) : Prop := e = .value ∨ e = .firstItem ∨ e = .nextItem

/-- A character that neither is blank nor closes a container. -/
def Starts (c : Char) : Prop := isSpace c = false ∧ c ≠ ']' ∧ c ≠ '}'

instance : DecidablePred Starts := fun _ => inferInstanceAs (Decidable (_ ∧ _))

theorem closing?_of_starts {c : Char} (hc : Starts c) : ∀ stack, closing? c stack = none
  | [] => rfl
  | .list _ :: _ => by rw [closing?, if_neg hc.2.1]
  | .object _ :: _ => by rw [closing?, if_neg hc.2.2]
  | .field _ _ :: _ => rfl

theorem step_begin {e : Expected} (he : Opens e) {c : Char} (hc : Starts c) {stack : List Frame}
    {pos : Position} {r : Reader} (h : beginValue limit ⟨.between e, stack, pos⟩ c = .ok r) :
    step limit ⟨.between e, stack, pos⟩ c = .ok { r with position := pos.advance c } := by
  have hbetween : stepBetween limit ⟨.between e, stack, pos⟩ e c = .ok r := by
    rcases he with rfl | rfl | rfl
    · exact h
    · simp only [stepBetween, closing?_of_starts hc, h]
    · simp only [stepBetween, if_neg hc.2.1, h]
  simp only [step, stepChar, hc.1, hbetween, Bool.false_eq_true, if_false]

/-! ### Numbers -/

theorem exists_run_feed (limit : Option Nat) (stack : List Frame) :
    ∀ {cs : List Char} {s s' : NumberScan} (pos : Position), s.feed? cs = some s' → ∃ pos',
      run limit ⟨.number s, stack, pos⟩ cs = .ok ⟨.number s', stack, pos'⟩
  | [], s, s', pos, h => by
    obtain rfl := Option.some.inj h
    exact ⟨pos, rfl⟩
  | c :: cs, s, s', pos, h => by
    rw [NumberScan.feed?] at h
    split at h
    · rename_i next hnext
      have hstep : step limit ⟨.number s, stack, pos⟩ c =
          .ok ⟨.number next, stack, pos.advance c⟩ := by
        simp only [step, hnext]
      obtain ⟨pos', hrest⟩ := exists_run_feed limit stack (pos.advance c) h
      exact ⟨pos', by rw [run_cons hstep, hrest]⟩
    · contradiction

theorem starts_of_start {c : Char} {s : NumberScan} (h : NumberScan.start c = some s) :
    Starts c := by
  refine ⟨Bool.eq_false_iff.mpr fun hspace => ?_, ?_, ?_⟩
  · simp only [isSpace, Bool.or_eq_true, decide_eq_true_eq] at hspace
    rcases hspace with ((rfl | rfl) | rfl) | rfl <;> contradiction
  all_goals rintro rfl; contradiction

theorem beginValue_number {c : Char} {s : NumberScan} (h : NumberScan.start c = some s)
    (r : Reader) : beginValue limit r c = .ok { r with mode := .number s } := by
  unfold beginValue
  split <;> first | contradiction | rw [h]

/-- The text of a number leads into a number that may end as it was written. -/
theorem exists_run_number (limit : Option Nat) {n : Number} (hn : n.InRange) {e : Expected}
    (he : Opens e) (stack : List Frame) (pos : Position) : ∃ s pos',
      run limit ⟨.between e, stack, pos⟩ n.chars = .ok ⟨.number s, stack, pos'⟩ ∧
        s.value = .ok n.reread := by
  obtain ⟨s, hs, hvalue⟩ := Number.ofChars?_chars hn
  cases hchars : n.chars with
  | nil =>
    rw [hchars] at hs
    contradiction
  | cons c cs =>
    rw [hchars] at hs
    obtain ⟨first, hfirst, hrest⟩ := Option.bind_eq_some_iff.mp hs
    obtain ⟨pos', hrun⟩ := exists_run_feed limit stack (pos.advance c) hrest
    refine ⟨s, pos', ?_, hvalue⟩
    rw [run_cons (step_begin he (starts_of_start hfirst) (beginValue_number hfirst _)), hrun]

/-! ### Behind a value -/

/-- The reader has read a value: it stands behind it, or in a number that may end. -/
inductive After (v : Json) (stack : List Frame) : Reader → Prop
  | closed (pos : Position) : After v stack ⟨(deliver v stack).1, (deliver v stack).2, pos⟩
  | number {s : NumberScan} {n : Number} (pos : Position) (hv : v = .num n)
      (hn : s.value = .ok n) : After v stack ⟨.number s, stack, pos⟩

/-- Behind a value the reader is between values. -/
theorem exists_deliver (v : Json) : ∀ stack, ∃ e, (deliver v stack).1 = .between e
  | [] => ⟨_, rfl⟩
  | .list _ :: _ => ⟨_, rfl⟩
  | .object _ :: _ => ⟨_, rfl⟩
  | .field _ _ :: _ => ⟨_, rfl⟩

/-- A character that ends a number is read once more, behind the number. -/
theorem After.run_cons {v : Json} {stack : List Frame} {r : Reader} (h : After v stack r)
    {c : Char} (hc : NumberScan.Ends c) (cs : List Char) : run limit r (c :: cs) =
      run limit ⟨(deliver v stack).1, (deliver v stack).2, r.position⟩ (c :: cs) := by
  cases h with
  | closed pos => rfl
  | @number s n pos hv hn =>
    subst hv
    obtain ⟨e, he⟩ := exists_deliver (.num n) stack
    have hstep : step limit ⟨.number s, stack, pos⟩ c =
        step limit ⟨(deliver (.num n) stack).1, (deliver (.num n) stack).2, pos⟩ c := by
      simp only [step, NumberScan.step_of_ends hn hc, hn, close, he, faultPosition]
    rw [run, hstep, ← run]

theorem After.finish {v : Json} {r : Reader} (h : After v [] r) : r.finish = .ok v := by
  cases h with
  | closed pos => rfl
  | number pos hv hn => simp only [Reader.finish, hn, deliver, hv]

/-! ### Containers -/

/-- A value of a depth fits under the open containers. -/
def Fits (limit : Option Nat) (stack : List Frame) (depth : Nat) : Prop :=
  ∀ m ∈ limit, stack.length + depth ≤ m

theorem Fits.mono {stack : List Frame} {d d' : Nat} (h : Fits limit stack d) (hd : d' ≤ d) :
    Fits limit stack d' := fun m hm => Nat.le_trans (Nat.add_le_add_left hd _) (h m hm)

theorem Fits.push {stack : List Frame} {d : Nat} (h : Fits limit stack (d + 1)) (frame : Frame) :
    Fits limit (frame :: stack) d := by
  intro m hm
  have := h m hm
  rw [List.length_cons]
  omega

theorem enter_of_fits {r : Reader} {d : Nat} (h : Fits limit r.stack (d + 1)) (frame : Frame)
    (e : Expected) : enter limit r frame e =
      .ok { r with mode := .between e, stack := frame :: r.stack } := by
  rw [enter, if_neg]
  cases limit with
  | none => exact Bool.false_ne_true
  | some m =>
    have := h m rfl
    simp only [Option.any_some, decide_eq_true_eq]
    omega

theorem step_list {e : Expected} (he : Opens e) {stack : List Frame} {d : Nat}
    (h : Fits limit stack (d + 1)) (pos : Position) : step limit ⟨.between e, stack, pos⟩ '[' =
      .ok ⟨.between .firstItem, .list [] :: stack, pos.advance '['⟩ := by
  have hbegin : beginValue limit ⟨.between e, stack, pos⟩ '[' =
      .ok ⟨.between .firstItem, .list [] :: stack, pos⟩ := enter_of_fits h (.list []) .firstItem
  exact step_begin he (by decide) hbegin

theorem step_object {e : Expected} (he : Opens e) {stack : List Frame} {d : Nat}
    (h : Fits limit stack (d + 1)) (pos : Position) : step limit ⟨.between e, stack, pos⟩ '{' =
      .ok ⟨.between .firstKey, .object [] :: stack, pos.advance '{'⟩ := by
  have hbegin : beginValue limit ⟨.between e, stack, pos⟩ '{' =
      .ok ⟨.between .firstKey, .object [] :: stack, pos⟩ := enter_of_fits h (.object []) .firstKey
  exact step_begin he (by decide) hbegin

/-- The innermost container ends. -/
theorem run_close {c : Char} {e : Expected} (he : e = .firstItem ∨ e = .firstKey ∨ e = .separator)
    (hspace : isSpace c = false) {v : Json} {stack rest : List Frame}
    (h : closing? c stack = some (v, rest)) (pos : Position) :
    run limit ⟨.between e, stack, pos⟩ [c] =
      .ok ⟨(deliver v rest).1, (deliver v rest).2, pos.advance c⟩ := by
  have hbetween : stepBetween limit ⟨.between e, stack, pos⟩ e c =
      .ok ⟨(deliver v rest).1, (deliver v rest).2, pos⟩ := by
    rcases he with rfl | rfl | rfl <;> simp only [stepBetween, h, close]
  simp only [run, step, stepChar, hspace, hbetween, Bool.false_eq_true, if_false]

/-- A key with its quotes and its colon. -/
theorem exists_run_key (limit : Option Nat) (key : String) {e : Expected}
    (he : e = .firstKey ∨ e = .nextKey) (fields : Fields) (stack : List Frame)
    (pos : Position) : ∃ pos',
      run limit ⟨.between e, .object fields :: stack, pos⟩ (stringChars key ++ [':']) =
        .ok ⟨.between .value, .field fields key :: stack, pos'⟩ := by
  obtain ⟨mid, hkey⟩ := exists_run_string limit true (.object fields :: stack) key
    (pos.advance '"')
  rw [if_pos rfl] at hkey
  have hquote : step limit ⟨.between e, .object fields :: stack, pos⟩ '"' =
      .ok ⟨.string .plain [] true, .object fields :: stack, pos.advance '"'⟩ := by
    rcases he with rfl | rfl <;> rfl
  refine ⟨mid.advance ':', ?_⟩
  rw [stringChars, List.cons_append, List.cons_append, Reader.run_cons hquote, run_append _ hkey]
  rfl

mutual

/-- The text of a value leads behind the value. The recursion is that of the text. -/
theorem exists_run_chars : ∀ (v : Json), (∀ n ∈ v.numbers, n.InRange) → ∀ {e : Expected},
    Opens e → ∀ {stack : List Frame}, Fits limit stack v.depth → ∀ (pos : Position),
    ∃ r, run limit ⟨.between e, stack, pos⟩ v.chars = .ok r ∧ After v.reread stack r
  | .null, _, e, he, stack, _, pos => by
    refine ⟨_, ?_, .closed (['n', 'u', 'l', 'l'].foldl Position.advance pos)⟩
    rw [chars, Reader.run_cons (step_begin he (by decide) rfl)]
    rfl
  | .bool true, _, e, he, stack, _, pos => by
    refine ⟨_, ?_, .closed (['t', 'r', 'u', 'e'].foldl Position.advance pos)⟩
    rw [chars, Reader.run_cons (step_begin he (by decide) rfl)]
    rfl
  | .bool false, _, e, he, stack, _, pos => by
    refine ⟨_, ?_, .closed (['f', 'a', 'l', 's', 'e'].foldl Position.advance pos)⟩
    rw [chars, Reader.run_cons (step_begin he (by decide) rfl)]
    rfl
  | .num n, hn, e, he, stack, _, pos => by
    obtain ⟨s, pos', hrun, hvalue⟩ := exists_run_number limit
      (hn n (List.mem_singleton.mpr rfl)) he stack pos
    exact ⟨_, hrun, .number pos' rfl hvalue⟩
  | .str s, _, e, he, stack, _, pos => by
    obtain ⟨pos', hrun⟩ := exists_run_string limit false stack s (pos.advance '"')
    refine ⟨_, ?_, .closed pos'⟩
    rw [chars, stringChars, List.cons_append, Reader.run_cons (step_begin he (by decide) rfl)]
    exact hrun
  | .arr [], _, e, he, stack, hfits, pos => by
    refine ⟨_, ?_, .closed ((pos.advance '[').advance ']')⟩
    rw [chars, Reader.run_cons (step_list he hfits pos)]
    exact run_close (.inl rfl) (by decide) rfl _
  | .arr (v :: vs), hn, e, he, stack, hfits, pos => by
    obtain ⟨hv, hvs⟩ := List.forall_mem_append.mp hn
    have hinside : Fits limit (.list [] :: stack) (max v.depth (depthList vs)) := hfits.push _
    obtain ⟨r, hfirst, hr⟩ := exists_run_chars v hv (.inr (.inl rfl))
      (hinside.mono (Nat.le_max_left _ _)) (pos.advance '[')
    obtain ⟨r', hrest, hr'⟩ := exists_run_itemChars vs hvs (hinside.mono (Nat.le_max_right _ _)) hr
    refine ⟨r', ?_, hr'⟩
    rw [chars, List.cons_append, Reader.run_cons (step_list he hfits pos), run_append _ hfirst,
      hrest]
  | .obj [], _, e, he, stack, hfits, pos => by
    refine ⟨_, ?_, .closed ((pos.advance '{').advance '}')⟩
    rw [chars, Reader.run_cons (step_object he hfits pos)]
    exact run_close (.inr (.inl rfl)) (by decide) rfl _
  | .obj ((k, v) :: rest), hn, e, he, stack, hfits, pos => by
    obtain ⟨hv, hrest⟩ := List.forall_mem_append.mp hn
    have hinside : Fits limit (.field [] k :: stack) (max v.depth (depthFields rest)) :=
      hfits.push _
    obtain ⟨mid, hkey⟩ := exists_run_key limit k (.inl rfl) [] stack (pos.advance '{')
    obtain ⟨r, hfirst, hr⟩ := exists_run_chars v hv (.inl rfl)
      (hinside.mono (Nat.le_max_left _ _)) mid
    obtain ⟨r', hrest, hr'⟩ :=
      exists_run_fieldChars rest hrest (hinside.mono (Nat.le_max_right _ _)) hr
    refine ⟨r', ?_, hr'⟩
    have htext : chars (.obj ((k, v) :: rest)) =
        '{' :: (stringChars k ++ [':'] ++ (chars v ++ fieldChars rest)) := by
      simp only [chars, List.cons_append, List.nil_append, List.append_assoc]
    rw [htext, Reader.run_cons (step_object he hfits pos), run_append _ hkey, run_append _ hfirst,
      hrest]

theorem exists_run_itemChars : ∀ (vs : List Json), (∀ n ∈ numbersList vs, n.InRange) →
    ∀ {v : Json} {items : List Json} {stack : List Frame},
    Fits limit (.list items :: stack) (depthList vs) → ∀ {r : Reader},
    After v (.list items :: stack) r →
    ∃ r', run limit r (itemChars vs) = .ok r' ∧
      After (.arr (items.reverse ++ v :: rereadList vs)) stack r'
  | [], _, v, items, stack, _, r, hr => by
    refine ⟨_, ?_, .closed (r.position.advance ']')⟩
    rw [itemChars, hr.run_cons (by decide)]
    refine run_close (.inr (.inr rfl)) (by decide) ?_ _
    simp only [deliver, closing?, if_true, List.reverse_cons, rereadList]
  | w :: ws, hn, v, items, stack, hfits, r, hr => by
    obtain ⟨hw, hws⟩ := List.forall_mem_append.mp hn
    have hinside : Fits limit (.list (v :: items) :: stack) (max w.depth (depthList ws)) := hfits
    obtain ⟨r', hfirst, hr'⟩ := exists_run_chars w hw (.inr (.inr rfl))
      (hinside.mono (Nat.le_max_left _ _)) (r.position.advance ',')
    obtain ⟨r'', hrest, hr''⟩ :=
      exists_run_itemChars ws hws (hinside.mono (Nat.le_max_right _ _)) hr'
    refine ⟨r'', ?_, ?_⟩
    · have hcomma : step limit ⟨.between .separator, .list (v :: items) :: stack, r.position⟩ ',' =
          .ok ⟨.between .nextItem, .list (v :: items) :: stack, r.position.advance ','⟩ := rfl
      rw [itemChars, List.cons_append, hr.run_cons (by decide), deliver, Reader.run_cons hcomma,
        run_append _ hfirst, hrest]
    · rwa [List.reverse_cons, List.append_assoc, List.singleton_append] at hr''

theorem exists_run_fieldChars : ∀ (rest : Fields), (∀ n ∈ numbersFields rest, n.InRange) →
    ∀ {v : Json} {key : String} {fields : Fields} {stack : List Frame},
    Fits limit (.field fields key :: stack) (depthFields rest) → ∀ {r : Reader},
    After v (.field fields key :: stack) r →
    ∃ r', run limit r (fieldChars rest) = .ok r' ∧
      After (.obj (fields.reverse ++ (key, v) :: rereadFields rest)) stack r'
  | [], _, v, key, fields, stack, _, r, hr => by
    refine ⟨_, ?_, .closed (r.position.advance '}')⟩
    rw [fieldChars, hr.run_cons (by decide)]
    refine run_close (.inr (.inr rfl)) (by decide) ?_ _
    simp only [deliver, closing?, if_true, List.reverse_cons, rereadFields]
  | (k, w) :: ws, hn, v, key, fields, stack, hfits, r, hr => by
    obtain ⟨hw, hws⟩ := List.forall_mem_append.mp hn
    have hinside : Fits limit (.field ((key, v) :: fields) k :: stack)
        (max w.depth (depthFields ws)) := hfits
    obtain ⟨mid, hkey⟩ := exists_run_key limit k (.inr rfl) ((key, v) :: fields) stack
      (r.position.advance ',')
    obtain ⟨r', hfirst, hr'⟩ := exists_run_chars w hw (.inl rfl)
      (hinside.mono (Nat.le_max_left _ _)) mid
    obtain ⟨r'', hrest, hr''⟩ :=
      exists_run_fieldChars ws hws (hinside.mono (Nat.le_max_right _ _)) hr'
    refine ⟨r'', ?_, ?_⟩
    · have hcomma : step limit
          ⟨.between .separator, .object ((key, v) :: fields) :: stack, r.position⟩ ',' =
          .ok ⟨.between .nextKey, .object ((key, v) :: fields) :: stack, r.position.advance ','⟩ :=
        rfl
      have htext : fieldChars ((k, w) :: ws) =
          ',' :: (stringChars k ++ [':'] ++ (chars w ++ fieldChars ws)) := by
        simp only [fieldChars, List.cons_append, List.nil_append, List.append_assoc]
      rw [htext, hr.run_cons (by decide), deliver, Reader.run_cons hcomma, run_append _ hkey,
        run_append _ hfirst, hrest]
    · rwa [List.reverse_cons, List.append_assoc, List.singleton_append] at hr''

end

end Reader

/-! ### Canonical values -/

theorem rereadFields_eq_map (fields : Fields) :
    rereadFields fields = fields.map fun p => (p.1, p.2.reread) := by
  induction fields with
  | nil => rfl
  | cons p rest ih =>
    obtain ⟨k, v⟩ := p
    rw [rereadFields, ih, List.map_cons]

mutual

/-- The numbers of a canonical value are in range. -/
theorem Canonical.inRange : ∀ {v : Json}, v.Canonical → ∀ n ∈ v.numbers, n.InRange
  | .null, _ | .bool _, _ | .str _, _ => by simp [numbers]
  | .num n, h => List.forall_mem_singleton.mpr h
  | .arr _, h => CanonicalList.inRange h
  | .obj _, h => CanonicalFields.inRange h.2

theorem CanonicalList.inRange : ∀ {items : List Json}, CanonicalList items →
    ∀ n ∈ numbersList items, n.InRange
  | [], _ => by simp [numbersList]
  | _ :: _, ⟨hv, hvs⟩ => List.forall_mem_append.mpr ⟨hv.inRange, hvs.inRange⟩

theorem CanonicalFields.inRange : ∀ {fields : Fields}, CanonicalFields fields →
    ∀ n ∈ numbersFields fields, n.InRange
  | [], _ => by simp [numbersFields]
  | (_, _) :: _, ⟨hv, hrest⟩ => List.forall_mem_append.mpr ⟨hv.inRange, hrest.inRange⟩

end

mutual

/-- A canonical value is read as a canonical value. -/
theorem Canonical.reread : ∀ {v : Json}, v.Canonical → v.reread.Canonical
  | .null, _ | .bool _, _ | .str _, _ => trivial
  | .num _, h => Number.reread_inRange h
  | .arr _, h => CanonicalList.reread h
  | .obj fields, ⟨hsorted, h⟩ => by
    refine ⟨?_, CanonicalFields.reread h⟩
    rw [rereadFields_eq_map]
    exact List.pairwise_map.mpr hsorted

theorem CanonicalList.reread : ∀ {items : List Json}, CanonicalList items →
    CanonicalList (rereadList items)
  | [], _ => trivial
  | _ :: _, ⟨hv, hvs⟩ => ⟨hv.reread, hvs.reread⟩

theorem CanonicalFields.reread : ∀ {fields : Fields}, CanonicalFields fields →
    CanonicalFields (rereadFields fields)
  | [], _ => trivial
  | (_, _) :: _, ⟨hv, hrest⟩ => ⟨hv.reread, hrest.reread⟩

end

/-- The compact text of a value within the limit is read as that value, with its numbers read
back. -/
theorem readWritten_chars {limit : Option Nat} {v : Json} (hn : ∀ n ∈ v.numbers, n.InRange)
    (hdepth : ∀ m ∈ limit, v.depth ≤ m) : readWritten limit v.chars = .ok v.reread := by
  have hfits : Reader.Fits limit [] v.depth := fun m hm => by
    rw [List.length_nil, Nat.zero_add]
    exact hdepth m hm
  obtain ⟨r, hrun, hr⟩ := Reader.exists_run_chars v hn (.inl rfl) hfits .start
  rw [readWritten, Reader.start, hrun]
  exact hr.finish

end Json
end Stepwise
