/-
# Records of steps

What is written of a step, and of a loop in it, is an object whose fields can be looked up:
whatever the order of the fields, a record with these look-ups is decoded to what was
written. A field that is left out is looked up in vain, and then stands for its default.

Key theorems: `decodeResult_obj`, `decodeSummary_obj`, `decodeSteps_obj`,
`canonicalFields_stepsWritten_perm`, `canonical_iterationsWritten`, `Json.depth_lt_of_get?`.
-/
import Stepwise.Proofs.Json.Records
import Stepwise.Trace.Reading

namespace Stepwise

open Json (Source DecodeError Slots)

/-! ### What is written -/

theorem stepsWritten_eq_map : ∀ scope : Scope,
    stepsWritten scope = scope.map fun e => (e.1, e.2.written)
  | [] => rfl
  | (name, r) :: rest => by rw [stepsWritten, stepsWritten_eq_map rest, List.map_cons]

theorem names_stepsWritten (scope : Scope) :
    Named.names (stepsWritten scope) = Named.names scope := by
  rw [stepsWritten_eq_map, Named.names, Named.names, List.map_map]
  rfl

/-- As a value, a scope holds the values of its steps, in the order of their names. -/
theorem canonicalFields_stepsWritten_perm {scope : Scope} (hnodup : (Named.names scope).Nodup) :
    (Json.canonicalFields (stepsWritten scope)).Perm (scope.map fun e => (e.1, e.2.value)) := by
  have hnames : (Named.names (stepsWritten scope)).Nodup := by rwa [names_stepsWritten]
  refine (Json.canonicalFields_perm hnames).trans (List.Perm.of_eq ?_)
  rw [stepsWritten_eq_map, List.map_map]
  rfl

theorem canonical_iterationsWritten (scopes : List Scope) :
    (Json.arr (iterationsWritten scopes)).canonical = .arr (scopes.map Trace.value) := by
  have hlist : Json.canonicalList (iterationsWritten scopes) = scopes.map Trace.value := by
    induction scopes with
    | nil => rfl
    | cons scope scopes ih =>
      rw [iterationsWritten, Json.canonicalList, ih]
      rfl
  rw [Json.canonical, hlist]

/-! ### Depth -/

namespace Json

theorem depth_le_of_mem : ∀ {items : List Json} {v : Json}, v ∈ items → v.depth ≤ depthList items
  | w :: rest, v, h => by
    rw [depthList]
    rcases List.mem_cons.mp h with rfl | h
    · exact Nat.le_max_left _ _
    · exact Nat.le_trans (depth_le_of_mem h) (Nat.le_max_right _ _)

theorem depth_le_of_field {fields : Fields} {p : String × Json} (h : p ∈ fields) :
    p.2.depth ≤ depthFields fields := by
  induction fields with
  | nil => exact absurd h List.not_mem_nil
  | cons q rest ih =>
    obtain ⟨k, w⟩ := q
    rw [depthFields]
    rcases List.mem_cons.mp h with rfl | h
    · exact Nat.le_max_left _ _
    · exact Nat.le_trans (ih h) (Nat.le_max_right _ _)

/-- What stands in an object nests less deep. -/
theorem depth_lt_of_get? {v w : Json} (key : String) (h : v.get? key = some w) :
    w.depth < v.depth := by
  cases v with
  | obj fields =>
    have hmem : (key, w) ∈ fields := Named.mem_of_get? h
    have hle : w.depth ≤ depthFields fields := depth_le_of_field hmem
    rw [depth]
    omega
  | _ => simp [get?] at h

theorem depth_lt_of_item {items : List Json} {v : Json} (h : v ∈ items) :
    v.depth < (arr items).depth := by
  have hle := depth_le_of_mem h
  rw [depth]
  omega

theorem depthFields_insertNew_le (k : String) (v : Json) (fields : Fields) :
    depthFields (insertNew k v fields) ≤ max v.depth (depthFields fields) := by
  induction fields with
  | nil => exact le_rfl
  | cons p rest ih =>
    obtain ⟨l, w⟩ := p
    rw [insertNew]
    split_ifs <;> simp only [depthFields] <;> omega

mutual

/-- The canonical form of a value nests no deeper. -/
theorem depth_canonical_le : ∀ v : Json, v.canonical.depth ≤ v.depth
  | .null | .bool _ | .num _ | .str _ => le_rfl
  | .arr items => Nat.succ_le_succ (depthList_canonical_le items)
  | .obj fields => Nat.succ_le_succ (depthFields_canonical_le fields)

theorem depthList_canonical_le : ∀ items : List Json,
    depthList (canonicalList items) ≤ depthList items
  | [] => le_rfl
  | v :: vs => max_le_max (depth_canonical_le v) (depthList_canonical_le vs)

theorem depthFields_canonical_le : ∀ fields : Fields,
    depthFields (canonicalFields fields) ≤ depthFields fields
  | [] => le_rfl
  | (k, v) :: rest => (depthFields_insertNew_le k v.canonical _).trans
      (max_le_max (depth_canonical_le v) (depthFields_canonical_le rest))

end

end Json

/-! ### Decoding what has the look-ups of a record -/

theorem Status.decode_word (status : Status) : decode (.str status.word) = .ok status := by
  cases status <;> rfl

/-- The names of the fields of a step's record. -/
def recordNames : List String :=
  ["input", "outputKind", "output", "status", "errorMessage", "durationMs"]

/-- A record of a step, its fields found by their names. -/
structure RecordOf (fields : Json.Fields) (input : Json) (marked : Bool) (output : Json)
    (status : Status) (message : Option String) (durationMs : Nat) : Prop where
  input : Named.get? fields "input" = some input
  mark : Named.get? fields "outputKind" = if marked then some (.str loopMark) else none
  output : Named.get? fields "output" = some output
  status : Named.get? fields "status" = some (.str status.word)
  message : Named.get? fields "errorMessage" = message.map .str
  durationMs : Named.get? fields "durationMs" = some (.nat durationMs)

variable {source : Source} {fields : Json.Fields} {input output : Json} {marked : Bool}
  {status : Status} {message : Option String} {durationMs : Nat}

/-- A record is read by its look-ups, its values being put in canonical form. -/
theorem decodeResult_obj (h : RecordOf fields input marked output status message durationMs)
    (hduration : durationMs < 18446744073709551616)
    (hunique : source = .text → Slots.duplicate recordNames 0 [] fields = none) (fuel : Nat) :
    decodeResult (fuel + 1) source (.obj fields) =
      if marked then
        (decodeSummary .value (decodeResult fuel .value) output.canonical).map fun summary =>
          ⟨input.canonical, .loop summary, status, message, durationMs⟩
      else .ok ⟨input.canonical, .value output.canonical, status, message, durationMs⟩ := by
  obtain ⟨slots, hslots, hspoilt, hholds⟩ := Slots.exists_of_obj source "StepRecord" recordNames
    fields hunique
  have hinput := Slots.required_ok (h.input ▸ hholds 0 "input" rfl)
    (show Json.decodeValue input = .ok input.canonical from rfl) "input"
  have hmark : slots.withDefault 1 none (Json.decodeOption decodeMark) =
      .ok (if marked then some () else none) := by
    have hfound := h.mark ▸ hholds 1 "outputKind" rfl
    cases marked with
    | true =>
      exact Slots.withDefault_ok hfound
        (show Json.decodeOption decodeMark (.str loopMark) = .ok (some ()) from rfl) none
    | false => exact Slots.withDefault_absent hfound none
  have houtput := Slots.required_ok (h.output ▸ hholds 2 "output" rfl)
    (show Json.decodeValue output = .ok output.canonical from rfl) "output"
  have hstatus := Slots.required_ok (h.status ▸ hholds 3 "status" rfl)
    (Status.decode_word status) "status"
  have hmessage : slots.withDefault 4 none (Json.decodeOption Json.decodeString) = .ok message := by
    have hfound := h.message ▸ hholds 4 "errorMessage" rfl
    cases message with
    | none => exact Slots.withDefault_absent hfound none
    | some text =>
      exact Slots.withDefault_ok hfound
        (show Json.decodeOption Json.decodeString (.str text) = .ok (some text) from rfl) none
  have hdurationMs := Slots.withDefault_ok (h.durationMs ▸ hholds 5 "durationMs" rfl)
    (Json.decodeNat_nat "u64" hduration) 0
  simp only [recordNames] at hslots
  simp only [decodeResult, hslots, hinput, hmark, houtput, hstatus, hmessage, hdurationMs, bind,
    Except.bind, Json.both, Slots.finish_ok hspoilt, id]
  cases marked <;> rfl

/-- A loop summary is read by its look-ups, if its steps are. -/
theorem decodeSummary_obj {current : Nat} {item : Option Json} {scopes : List Json}
    {decode : Json → Except DecodeError StepResult} {back : List Scope}
    (hcurrent : Named.get? fields "currentIteration" = some (.nat current))
    (hrange : current < 18446744073709551616)
    (hitem : Named.get? fields "currentItem" = item.map Json.canonical)
    (hiterations : Named.get? fields "iterations" = some (.arr scopes))
    (hscopes : scopes.mapM (decodeSteps decode) = .ok back) :
    decodeSummary .value decode (.obj fields) =
      .ok ⟨current, (item.filter (· ≠ .null)).map Json.canonical, back⟩ := by
  obtain ⟨slots, hslots, hspoilt, hholds⟩ := Slots.exists_of_obj .value "LoopOutput"
    ["currentIteration", "currentItem", "iterations"] fields (by simp)
  have hnumber := Slots.required_ok (hcurrent ▸ hholds 0 "currentIteration" rfl)
    (Json.decodeNat_nat "usize" hrange) "currentIteration"
  have hoption := Slots.withDefault_option (hitem ▸ hholds 1 "currentItem" rfl)
  have hlist := Slots.required_ok (hiterations ▸ hholds 2 "iterations" rfl)
    (show Json.decodeList (decodeSteps decode) (.arr scopes) = .ok back from hscopes) "iterations"
  simp only [decodeSummary, hslots, hnumber, hoption, hlist, bind, Except.bind, Json.both,
    Slots.finish_ok hspoilt]

/-- The steps of a scope are read one by one, in the order of their fields. -/
theorem decodeSteps_obj {decode : Json → Except DecodeError StepResult} {back : Scope}
    (h : List.Forall₂ (fun p e => p.1 = e.1 ∧ decode p.2 = .ok e.2) fields back)
    (hnodup : (Named.names back).Nodup) : decodeSteps decode (.obj fields) = .ok back := by
  have hmap : (fields.mapM fun p => (decode p.2).map (p.1, ·)) = .ok back := by
    refine Json.mapM_ok (h.imp ?_)
    rintro p ⟨name, r⟩ ⟨rfl, hdecode⟩
    rw [hdecode]
    rfl
  rw [decodeSteps, hmap]
  show Except.ok (Named.ofList back) = _
  rw [Named.ofList_eq_self hnodup]

/-! ### The fields of what is written -/

/-- The mark of a loop's record. -/
def markFields (marked : Bool) : Json.Fields :=
  if marked then [("outputKind", .str loopMark)] else []

theorem exists_frame (input : Json) (marked : Bool) (output : Json) (status : Status)
    (message : Option String) (durationMs : Nat) :
    ∃ fields,
      StepResult.frame input (markFields marked) output status message durationMs = .obj fields ∧
        (Named.names fields).Nodup ∧
        RecordOf fields input marked output status message durationMs ∧
        Slots.duplicate recordNames 0 [] fields = none := by
  refine ⟨_, rfl, ?_⟩
  cases marked <;> cases message <;>
    exact ⟨by simp [markFields, Named.names], ⟨rfl, rfl, rfl, rfl, rfl, rfl⟩, rfl⟩

/-- As a value, a record has the same look-ups, of canonical forms. -/
theorem RecordOf.canonical (h : RecordOf fields input marked output status message durationMs)
    (hnodup : (Named.names fields).Nodup) :
    RecordOf (Json.canonicalFields fields) input.canonical marked output.canonical status message
      durationMs where
  input := by rw [Json.get?_canonicalFields hnodup, h.input]; rfl
  mark := by
    rw [Json.get?_canonicalFields hnodup, h.mark]
    cases marked <;> rfl
  output := by rw [Json.get?_canonicalFields hnodup, h.output]; rfl
  status := by rw [Json.get?_canonicalFields hnodup, h.status]; rfl
  message := by
    rw [Json.get?_canonicalFields hnodup, h.message]
    cases message <;> rfl
  durationMs := by rw [Json.get?_canonicalFields hnodup, h.durationMs]; rfl

/-- The look-ups of a loop summary as a value. -/
theorem LoopSummary.exists_value (s : LoopSummary StepResult) :
    ∃ fields, s.value = .obj fields ∧
      Named.get? fields "currentIteration" = some (.nat s.currentIteration) ∧
      Named.get? fields "currentItem" = s.currentItem.map Json.canonical ∧
      Named.get? fields "iterations" = some (.arr (s.iterations.map Trace.value)) := by
  obtain ⟨current, item, iterations⟩ := s
  obtain ⟨written, hwritten, hnodup, hget⟩ : ∃ written,
      LoopSummary.written ⟨current, item, iterations⟩ = .obj written ∧
        (Named.names written).Nodup ∧
        Named.get? written "currentIteration" = some (.nat current) ∧
        Named.get? written "currentItem" = item ∧
        Named.get? written "iterations" = some (.arr (iterationsWritten iterations)) := by
    refine ⟨_, rfl, ?_⟩
    cases item <;> exact ⟨by simp [Named.names], rfl, rfl, rfl⟩
  refine ⟨Json.canonicalFields written, by rw [LoopSummary.value, hwritten]; rfl, ?_⟩
  rw [Json.get?_canonicalFields hnodup, Json.get?_canonicalFields hnodup,
    Json.get?_canonicalFields hnodup, hget.1, hget.2.1, hget.2.2, Option.map_some, Option.map_some,
    canonical_iterationsWritten]
  exact ⟨rfl, rfl, rfl⟩

end Stepwise
