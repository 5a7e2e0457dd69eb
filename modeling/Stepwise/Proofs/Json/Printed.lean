/-
# Printed values with something around them

Blanks before the text of a value are passed over, and so are blanks behind it; anything else
behind it, once the value has ended, is refused. Whole numbers are read as themselves, so that
a canonical value without other numbers is read as that value. A value that nests deeper than
the limit is refused where the limit is passed: everything before that place is read, so this
is the first fault of the text.

Key definitions: `Json.Whole`.

Key theorems: `Json.Canonical.reread_of_whole`, `Json.readWritten_spaced`,
`Json.exists_readWritten_trailing`, `Json.Reader.exists_run_tooDeep`,
`Json.exists_readWritten_tooDeep`.
-/
import Stepwise.Proofs.Json.Canonical
import Stepwise.Proofs.Json.Reread

namespace Stepwise
namespace Json

open Text (Position)

/-! ### Whole numbers -/

/-- The value has no numbers other than whole ones. -/
def Whole (v : Json) : Prop := ∀ n ∈ v.numbers, ∃ i, n = .int i

mutual

/-- A canonical value without other numbers than whole ones is read as itself. -/
theorem Canonical.reread_of_whole : ∀ {v : Json}, v.Canonical → v.Whole → v.reread = v
  | .null, _, _ | .bool _, _, _ | .str _, _, _ => rfl
  | .num n, hv, hwhole => by
    obtain ⟨i, rfl⟩ := hwhole n (List.mem_singleton.mpr rfl)
    exact congrArg Json.num (Number.reread_int hv)
  | .arr _, hv, hwhole => congrArg Json.arr (CanonicalList.reread_of_whole hv hwhole)
  | .obj _, hv, hwhole => congrArg Json.obj (CanonicalFields.reread_of_whole hv.2 hwhole)

theorem CanonicalList.reread_of_whole : ∀ {items : List Json}, CanonicalList items →
    (∀ n ∈ numbersList items, ∃ i, n = .int i) → rereadList items = items
  | [], _, _ => rfl
  | _ :: _, ⟨hv, hvs⟩, hwhole => by
    obtain ⟨hfirst, hrest⟩ := List.forall_mem_append.mp hwhole
    exact congrArg₂ List.cons (hv.reread_of_whole hfirst) (hvs.reread_of_whole hrest)

theorem CanonicalFields.reread_of_whole : ∀ {fields : Fields}, CanonicalFields fields →
    (∀ n ∈ numbersFields fields, ∃ i, n = .int i) → rereadFields fields = fields
  | [], _, _ => rfl
  | (k, _) :: _, ⟨hv, hrest⟩, hwhole => by
    obtain ⟨hfirst, hmore⟩ := List.forall_mem_append.mp hwhole
    exact congrArg₂ (fun w ws => (k, w) :: ws) (hv.reread_of_whole hfirst)
      (hrest.reread_of_whole hmore)

end

namespace Reader

variable {limit : Option Nat}

/-! ### Blanks -/

theorem ends_of_isSpace {c : Char} (h : isSpace c = true) : NumberScan.Ends c := by
  simp only [isSpace, Bool.or_eq_true, decide_eq_true_eq] at h
  rcases h with ((rfl | rfl) | rfl) | rfl <;> decide

theorem step_space (e : Expected) (stack : List Frame) (pos : Position) {c : Char}
    (hc : isSpace c = true) : step limit ⟨.between e, stack, pos⟩ c =
      .ok ⟨.between e, stack, pos.advance c⟩ := by
  simp only [step, stepChar, hc, if_true]

/-- Between values blanks are passed over. -/
theorem exists_run_spaces (limit : Option Nat) (e : Expected) (stack : List Frame) :
    ∀ {cs : List Char}, (∀ c ∈ cs, isSpace c = true) → ∀ pos : Position, ∃ pos',
      run limit ⟨.between e, stack, pos⟩ cs = .ok ⟨.between e, stack, pos'⟩
  | [], _, pos => ⟨pos, rfl⟩
  | c :: cs, h, pos => by
    obtain ⟨hc, hcs⟩ := List.forall_mem_cons.mp h
    obtain ⟨pos', hrest⟩ := exists_run_spaces limit e stack hcs (pos.advance c)
    exact ⟨pos', by rw [run_cons (step_space e stack pos hc), hrest]⟩

/-- Behind a value blanks are passed over. -/
theorem After.exists_run_spaces {v : Json} {stack : List Frame} {r : Reader}
    (h : After v stack r) (limit : Option Nat) {cs : List Char}
    (hcs : ∀ c ∈ cs, isSpace c = true) : ∃ r', run limit r cs = .ok r' ∧ After v stack r' := by
  cases cs with
  | nil => exact ⟨r, rfl, h⟩
  | cons c cs =>
    obtain ⟨e, he⟩ := exists_deliver v stack
    obtain ⟨pos', hrun⟩ :=
      Reader.exists_run_spaces limit e (deliver v stack).2 hcs r.position
    refine ⟨_, ?_, .closed pos'⟩
    rw [h.run_cons (ends_of_isSpace (hcs c List.mem_cons_self)), he, hrun]

/-- Once the value has ended, anything but a blank is one character too much. -/
theorem exists_run_trailing (limit : Option Nat) (v : Json) (stack : List Frame) :
    ∀ {cs : List Char}, (∃ c ∈ cs, isSpace c = false) → ∀ pos : Position, ∃ pos',
      run limit ⟨.between (.nothing v), stack, pos⟩ cs = .error ⟨.trailingCharacters, pos'⟩
  | [], h, _ => by
    obtain ⟨c, hc, -⟩ := h
    contradiction
  | c :: cs, h, pos => by
    cases hc : isSpace c with
    | false =>
      refine ⟨pos.enter c, ?_⟩
      simp only [run, step, stepChar, hc, stepBetween, faultPosition, Bool.false_eq_true, if_false]
    | true =>
      have hcs : ∃ d ∈ cs, isSpace d = false := by
        obtain ⟨d, hd, hnot⟩ := h
        rcases List.mem_cons.mp hd with rfl | hd
        · rw [hc] at hnot
          contradiction
        · exact ⟨d, hd, hnot⟩
      obtain ⟨pos', hrest⟩ := exists_run_trailing limit v stack hcs (pos.advance c)
      exact ⟨pos', by rw [run_cons (step_space _ stack pos hc), hrest]⟩

/-! ### Values that nest too deep -/

theorem run_append_error {r : Reader} {e : ReadError} : ∀ {text : List Char} (more : List Char),
    run limit r text = .error e → run limit r (text ++ more) = .error e := by
  intro text
  induction text generalizing r with
  | nil => intro more h; contradiction
  | cons c cs ih =>
    intro more h
    rw [List.cons_append, run]
    rw [run] at h
    cases hstep : step limit r c with
    | error e' => rwa [hstep] at h
    | ok next =>
      rw [hstep] at h
      exact ih more h

theorem run_cons_error {r : Reader} {c : Char} {e : ReadError} (h : step limit r c = .error e)
    (cs : List Char) : run limit r (c :: cs) = .error e := by
  rw [run, h]

/-- Where a value does not fit although its container does, the limit is known. -/
theorem not_fits_push {stack : List Frame} {d : Nat} (h : ¬Fits limit stack (d + 1))
    (frame : Frame) : ¬Fits limit (frame :: stack) d := by
  intro hfits
  refine h fun m hm => ?_
  have := hfits m hm
  rw [List.length_cons] at this
  omega

theorem not_fits_max {stack : List Frame} {d d' : Nat} (h : ¬Fits limit stack (max d d'))
    (hd : Fits limit stack d) : ¬Fits limit stack d' := by
  intro hd'
  refine h fun m hm => ?_
  have := hd m hm
  have := hd' m hm
  omega

/-- A bracket or a brace that opens one container too many. -/
theorem exists_step_tooDeep {e : Expected} (he : Opens e) {stack : List Frame}
    (h : ¬Fits limit stack 1) {c : Char} (hc : c = '[' ∨ c = '{') (pos : Position) : ∃ pos',
      step limit ⟨.between e, stack, pos⟩ c = .error ⟨.tooDeep, pos'⟩ := by
  have henter : ∀ frame inside, enter limit ⟨.between e, stack, pos⟩ frame inside =
      .error .tooDeep := by
    intro frame inside
    rw [enter, if_pos]
    by_contra hnot
    refine h fun m hm => ?_
    cases hm
    simp only [Option.any_some, decide_eq_true_eq] at hnot
    omega
  have hstarts : Starts c := by
    rcases hc with rfl | rfl <;> decide
  have hbegin : beginValue limit ⟨.between e, stack, pos⟩ c = .error .tooDeep := by
    rcases hc with rfl | rfl <;> exact henter _ _
  have hbetween : stepBetween limit ⟨.between e, stack, pos⟩ e c = .error .tooDeep := by
    rcases he with rfl | rfl | rfl
    · exact hbegin
    · simp only [stepBetween, closing?_of_starts hstarts, hbegin]
    · simp only [stepBetween, if_neg hstarts.2.1, hbegin]
  refine ⟨pos.enter c, ?_⟩
  simp only [step, stepChar, hstarts.1, hbetween, faultPosition, Bool.false_eq_true, if_false]

mutual

/-- The text of a value that does not fit is refused for its depth: what comes before the
container that is one too many is read. The recursion is that of the text. -/
theorem exists_run_tooDeep : ∀ (v : Json), (∀ n ∈ v.numbers, n.InRange) → ∀ {e : Expected},
    Opens e → ∀ {stack : List Frame}, Fits limit stack 0 → ¬Fits limit stack v.depth →
    ∀ (pos : Position), ∃ pos',
      run limit ⟨.between e, stack, pos⟩ v.chars = .error ⟨.tooDeep, pos'⟩
  | .null, _, _, _, _, hstack, hdeep, _ | .bool _, _, _, _, _, hstack, hdeep, _
  | .num _, _, _, _, _, hstack, hdeep, _ | .str _, _, _, _, _, hstack, hdeep, _ =>
    absurd hstack hdeep
  | .arr [], _, e, he, stack, _, hdeep, pos => by
    obtain ⟨pos', hopen⟩ := exists_step_tooDeep he hdeep (.inl rfl) pos
    exact ⟨pos', run_cons_error hopen _⟩
  | .arr (v :: vs), hn, e, he, stack, _, hdeep, pos => by
    by_cases hopen : Fits limit stack 1
    · obtain ⟨hv, hvs⟩ := List.forall_mem_append.mp hn
      have hinside : Fits limit (.list [] :: stack) 0 := hopen.push _
      have hdeep' : ¬Fits limit (.list [] :: stack) (max v.depth (depthList vs)) :=
        not_fits_push hdeep _
      rw [chars, List.cons_append, Reader.run_cons (step_list he hopen pos)]
      by_cases hfits : Fits limit (.list [] :: stack) v.depth
      · obtain ⟨r, hfirst, hr⟩ := exists_run_chars v hv (.inr (.inl rfl)) hfits (pos.advance '[')
        rw [run_append _ hfirst]
        exact exists_run_tooDeep_items vs hvs hinside (not_fits_max hdeep' hfits) hr
      · obtain ⟨pos', hfirst⟩ :=
          exists_run_tooDeep v hv (.inr (.inl rfl)) hinside hfits (pos.advance '[')
        exact ⟨pos', run_append_error _ hfirst⟩
    · obtain ⟨pos', hbracket⟩ := exists_step_tooDeep he hopen (.inl rfl) pos
      exact ⟨pos', run_cons_error hbracket _⟩
  | .obj [], _, e, he, stack, _, hdeep, pos => by
    obtain ⟨pos', hopen⟩ := exists_step_tooDeep he hdeep (.inr rfl) pos
    exact ⟨pos', run_cons_error hopen _⟩
  | .obj ((k, v) :: rest), hn, e, he, stack, _, hdeep, pos => by
    have htext : chars (.obj ((k, v) :: rest)) =
        '{' :: (stringChars k ++ [':'] ++ (chars v ++ fieldChars rest)) := by
      simp only [chars, List.cons_append, List.nil_append, List.append_assoc]
    rw [htext]
    by_cases hopen : Fits limit stack 1
    · obtain ⟨hv, hrest⟩ := List.forall_mem_append.mp hn
      have hinside : Fits limit (.field [] k :: stack) 0 := hopen.push _
      have hdeep' : ¬Fits limit (.field [] k :: stack) (max v.depth (depthFields rest)) :=
        not_fits_push hdeep _
      obtain ⟨mid, hkey⟩ := exists_run_key limit k (.inl rfl) [] stack (pos.advance '{')
      rw [Reader.run_cons (step_object he hopen pos), run_append _ hkey]
      by_cases hfits : Fits limit (.field [] k :: stack) v.depth
      · obtain ⟨r, hfirst, hr⟩ := exists_run_chars v hv (.inl rfl) hfits mid
        rw [run_append _ hfirst]
        exact exists_run_tooDeep_fields rest hrest hinside (not_fits_max hdeep' hfits) hr
      · obtain ⟨pos', hfirst⟩ := exists_run_tooDeep v hv (.inl rfl) hinside hfits mid
        exact ⟨pos', run_append_error _ hfirst⟩
    · obtain ⟨pos', hbrace⟩ := exists_step_tooDeep he hopen (.inr rfl) pos
      exact ⟨pos', run_cons_error hbrace _⟩

theorem exists_run_tooDeep_items : ∀ (vs : List Json), (∀ n ∈ numbersList vs, n.InRange) →
    ∀ {v : Json} {items : List Json} {stack : List Frame},
    Fits limit (.list items :: stack) 0 → ¬Fits limit (.list items :: stack) (depthList vs) →
    ∀ {r : Reader}, After v (.list items :: stack) r →
    ∃ pos', run limit r (itemChars vs) = .error ⟨.tooDeep, pos'⟩
  | [], _, _, _, _, hstack, hdeep, _, _ => absurd hstack hdeep
  | w :: ws, hn, v, items, stack, hstack, hdeep, r, hr => by
    obtain ⟨hw, hws⟩ := List.forall_mem_append.mp hn
    have hinside : Fits limit (.list (v :: items) :: stack) 0 := hstack
    have hdeep' : ¬Fits limit (.list (v :: items) :: stack) (max w.depth (depthList ws)) := hdeep
    have hcomma : step limit ⟨.between .separator, .list (v :: items) :: stack, r.position⟩ ',' =
        .ok ⟨.between .nextItem, .list (v :: items) :: stack, r.position.advance ','⟩ := rfl
    rw [itemChars, List.cons_append, hr.run_cons (by decide), deliver, Reader.run_cons hcomma]
    by_cases hfits : Fits limit (.list (v :: items) :: stack) w.depth
    · obtain ⟨r', hfirst, hr'⟩ :=
        exists_run_chars w hw (.inr (.inr rfl)) hfits (r.position.advance ',')
      rw [run_append _ hfirst]
      exact exists_run_tooDeep_items ws hws hinside (not_fits_max hdeep' hfits) hr'
    · obtain ⟨pos', hfirst⟩ :=
        exists_run_tooDeep w hw (.inr (.inr rfl)) hinside hfits (r.position.advance ',')
      exact ⟨pos', run_append_error _ hfirst⟩

theorem exists_run_tooDeep_fields : ∀ (rest : Fields), (∀ n ∈ numbersFields rest, n.InRange) →
    ∀ {v : Json} {key : String} {fields : Fields} {stack : List Frame},
    Fits limit (.field fields key :: stack) 0 →
    ¬Fits limit (.field fields key :: stack) (depthFields rest) →
    ∀ {r : Reader}, After v (.field fields key :: stack) r →
    ∃ pos', run limit r (fieldChars rest) = .error ⟨.tooDeep, pos'⟩
  | [], _, _, _, _, _, hstack, hdeep, _, _ => absurd hstack hdeep
  | (k, w) :: ws, hn, v, key, fields, stack, hstack, hdeep, r, hr => by
    obtain ⟨hw, hws⟩ := List.forall_mem_append.mp hn
    have hinside : Fits limit (.field ((key, v) :: fields) k :: stack) 0 := hstack
    have hdeep' : ¬Fits limit (.field ((key, v) :: fields) k :: stack)
        (max w.depth (depthFields ws)) := hdeep
    obtain ⟨mid, hkey⟩ := exists_run_key limit k (.inr rfl) ((key, v) :: fields) stack
      (r.position.advance ',')
    have hcomma : step limit
        ⟨.between .separator, .object ((key, v) :: fields) :: stack, r.position⟩ ',' =
        .ok ⟨.between .nextKey, .object ((key, v) :: fields) :: stack, r.position.advance ','⟩ :=
      rfl
    have htext : fieldChars ((k, w) :: ws) =
        ',' :: (stringChars k ++ [':'] ++ (chars w ++ fieldChars ws)) := by
      simp only [fieldChars, List.cons_append, List.nil_append, List.append_assoc]
    rw [htext, hr.run_cons (by decide), deliver, Reader.run_cons hcomma, run_append _ hkey]
    by_cases hfits : Fits limit (.field ((key, v) :: fields) k :: stack) w.depth
    · obtain ⟨r', hfirst, hr'⟩ := exists_run_chars w hw (.inl rfl) hfits mid
      rw [run_append _ hfirst]
      exact exists_run_tooDeep_fields ws hws hinside (not_fits_max hdeep' hfits) hr'
    · obtain ⟨pos', hfirst⟩ := exists_run_tooDeep w hw (.inl rfl) hinside hfits mid
      exact ⟨pos', run_append_error _ hfirst⟩

end

end Reader

/-! ### The whole text -/

section Spaced

variable {limit : Option Nat} {v : Json} {before : List Char}

/-- Blanks, and the text of a value that fits, lead behind the value. -/
theorem exists_run_spaced (hbefore : ∀ c ∈ before, isSpace c = true)
    (hn : ∀ n ∈ v.numbers, n.InRange) (hdepth : ∀ m ∈ limit, v.depth ≤ m) :
    ∃ r, Reader.run limit .start (before ++ v.chars) = .ok r ∧ Reader.After v.reread [] r := by
  have hfits : Reader.Fits limit [] v.depth := fun m hm => by
    rw [List.length_nil, Nat.zero_add]
    exact hdepth m hm
  obtain ⟨mid, hspaces⟩ := Reader.exists_run_spaces limit .value [] hbefore .start
  obtain ⟨r, hchars, hr⟩ := Reader.exists_run_chars v hn (.inl rfl) hfits mid
  exact ⟨r, by rw [Reader.start, Reader.run_append _ hspaces, hchars], hr⟩

/-- The text of a value is read as the value, whatever blanks stand around it. -/
theorem readWritten_spaced (hbefore : ∀ c ∈ before, isSpace c = true)
    (hn : ∀ n ∈ v.numbers, n.InRange) (hdepth : ∀ m ∈ limit, v.depth ≤ m) {after : List Char}
    (hafter : ∀ c ∈ after, isSpace c = true) :
    readWritten limit (before ++ v.chars ++ after) = .ok v.reread := by
  obtain ⟨r, hrun, hr⟩ := exists_run_spaced hbefore hn hdepth
  obtain ⟨r', hspaces, hr'⟩ := hr.exists_run_spaces limit hafter
  rw [readWritten, Reader.run_append _ hrun, hspaces]
  exact hr'.finish

/-- Behind the text of a value and a blank, nothing but blanks is read. -/
theorem exists_readWritten_trailing (hbefore : ∀ c ∈ before, isSpace c = true)
    (hn : ∀ n ∈ v.numbers, n.InRange) (hdepth : ∀ m ∈ limit, v.depth ≤ m) {c : Char}
    (hc : isSpace c = true) {rest : List Char} (hrest : ∃ d ∈ rest, isSpace d = false) :
    ∃ pos, readWritten limit (before ++ v.chars ++ c :: rest) =
      .error ⟨.trailingCharacters, pos⟩ := by
  obtain ⟨r, hrun, hr⟩ := exists_run_spaced hbefore hn hdepth
  obtain ⟨pos, htrailing⟩ :=
    Reader.exists_run_trailing limit v.reread [] hrest (r.position.advance c)
  refine ⟨pos, ?_⟩
  rw [readWritten, Reader.run_append _ hrun, hr.run_cons (Reader.ends_of_isSpace hc),
    Reader.deliver, Reader.run_cons (Reader.step_space _ _ _ hc), htrailing]

/-- The text of a value beyond the limit is refused for its depth. -/
theorem exists_readWritten_tooDeep {m : Nat} (hn : ∀ n ∈ v.numbers, n.InRange)
    (hdepth : m < v.depth) : ∃ pos, readWritten (some m) v.chars = .error ⟨.tooDeep, pos⟩ := by
  have hstack : Reader.Fits (some m) [] 0 := fun _ _ => Nat.zero_le _
  have hdeep : ¬Reader.Fits (some m) [] v.depth := by
    intro hfits
    have := hfits m rfl
    rw [List.length_nil] at this
    omega
  obtain ⟨pos, hrun⟩ := Reader.exists_run_tooDeep v hn (.inl rfl) hstack hdeep .start
  exact ⟨pos, by rw [readWritten, Reader.start, hrun]⟩

end Spaced

end Json
end Stepwise
