/-
# Loading what was written

A file of JSON that holds the compact text of a value is loaded as that value, at any depth and
with blanks around the text. The bytes of the file are read as the text that they encode, so
no character is lost. What follows the text and a blank may be other blanks, but nothing else.

Key theorem: `Document.ofFile_spaced`.
-/
import Stepwise.Flow.Document
import Stepwise.Proofs.Json.Printed
import Stepwise.Text.Utf8

namespace Stepwise
namespace Document

variable {path content : String}

/-- A file without YAML in it is loaded as the JSON of its text. -/
theorem ofFile_json (hpath : isYaml path = false) (content : String) :
    ofFile path (.ok content.toUTF8) = parseJson content := by
  rw [ofFile, ofBytes, Text.fromUTF8?_toUTF8]
  simp only [parse, hpath, Bool.false_eq_true, if_false]

theorem parseJson_of_readWritten {v : Json}
    (h : Json.readWritten none content.toList = .ok v) : parseJson content = .ok v.canonical := by
  rw [parseJson, Json.read, h]
  rfl

theorem parseJson_of_readWritten_error {e : Json.ReadError}
    (h : Json.readWritten none content.toList = .error e) :
    parseJson content = .error (.unparsable (.json e)) := by
  rw [parseJson, Json.read, h]
  rfl

/-- **Loading undoes writing.** The compact text of a canonical value whose numbers are whole,
with blanks before it and after it, is loaded as that value, however deep it nests. If a blank
follows the text, and anything but a blank follows somewhere after that, the file is refused
for what trails. -/
theorem ofFile_spaced (hpath : isYaml path = false) {v : Json} (hv : v.Canonical)
    (hwhole : v.Whole) {before : String} (hbefore : ∀ c ∈ before.toList, Json.isSpace c = true)
    (after : String) :
    ((∀ c ∈ after.toList, Json.isSpace c = true) →
        ofFile path (.ok (before ++ v.compact ++ after).toUTF8) = .ok v) ∧
      (after.toList.head?.any Json.isSpace = true →
        (∃ c ∈ after.toList, Json.isSpace c = false) →
          ∃ position, ofFile path (.ok (before ++ v.compact ++ after).toUTF8) =
            .error (.unparsable (.json ⟨.trailingCharacters, position⟩))) := by
  have hreread : v.reread = v := hv.reread_of_whole hwhole
  have htext : (before ++ v.compact ++ after).toList =
      before.toList ++ v.chars ++ after.toList := by
    simp only [String.toList_append, Json.compact, String.toList_ofList]
  have hdepth : ∀ m ∈ (none : Option Nat), v.depth ≤ m := fun m hm => by contradiction
  constructor
  · intro hafter
    have hread : Json.readWritten none (before ++ v.compact ++ after).toList = .ok v := by
      rw [htext, Json.readWritten_spaced hbefore hv.inRange hdepth hafter, hreread]
    rw [ofFile_json hpath, parseJson_of_readWritten hread, Json.canonical_eq_self hv]
  · intro hblank htrailing
    cases hrest : after.toList with
    | nil =>
      rw [hrest] at hblank
      contradiction
    | cons c rest =>
      rw [hrest] at hblank htrailing
      have hc : Json.isSpace c = true := hblank
      have hlater : ∃ d ∈ rest, Json.isSpace d = false := by
        obtain ⟨d, hd, hnot⟩ := htrailing
        rcases List.mem_cons.mp hd with rfl | hd
        · rw [hc] at hnot
          contradiction
        · exact ⟨d, hd, hnot⟩
      obtain ⟨position, hread⟩ :=
        Json.exists_readWritten_trailing hbefore hv.inRange hdepth hc hlater
      rw [← hrest, ← htext] at hread
      exact ⟨position, by rw [ofFile_json hpath, parseJson_of_readWritten_error hread]⟩

end Document

namespace Escapes

/-- Characters that are escaped and characters that are not, and the bounds of whole numbers. -/
def value : Json :=
  .obj [("\x00\"\\", .arr [.int (-9223372036854775808), .int 18446744073709551615, .arr []]),
    ("é😀", .obj [("", .str "\t\x7f/")])]

theorem canonical_value : value.Canonical := by
  simp only [value, Json.Canonical, Json.CanonicalFields, Json.CanonicalList, Json.int]
  decide

theorem whole_value : value.Whole := by
  intro n hn
  have hnumbers : n = .int (-9223372036854775808) ∨ n = .int 18446744073709551615 := by
    simpa [value, Json.numbers, Json.numbersFields, Json.numbersList, Json.int] using hn
  rcases hnumbers with rfl | rfl <;> exact ⟨_, rfl⟩

end Escapes

theorem Document.ofFile_spaced_escapes :
    Document.isYaml "job.json" = false ∧ Escapes.value.Canonical ∧ Escapes.value.Whole ∧
      Document.ofFile "job.json" (.ok ("\r\n" ++ Escapes.value.compact ++ "\t ").toUTF8) =
        .ok Escapes.value ∧
      ∃ position,
        Document.ofFile "job.json" (.ok ("\r\n" ++ Escapes.value.compact ++ "\n []").toUTF8) =
          .error (.unparsable (.json ⟨.trailingCharacters, position⟩)) := by
  have hpath : Document.isYaml "job.json" = false := by decide
  have hbefore : ∀ c ∈ "\r\n".toList, Json.isSpace c = true := List.all_eq_true.mp rfl
  have hafter : ∀ c ∈ "\t ".toList, Json.isSpace c = true := List.all_eq_true.mp rfl
  have hbracket : ∃ c ∈ "\n []".toList, Json.isSpace c = false := ⟨'[', by decide, rfl⟩
  have hblanks := Document.ofFile_spaced hpath Escapes.canonical_value Escapes.whole_value
    hbefore "\t "
  have htrailing := Document.ofFile_spaced hpath Escapes.canonical_value Escapes.whole_value
    hbefore "\n []"
  exact ⟨hpath, Escapes.canonical_value, Escapes.whole_value, hblanks.1 hafter,
    htrailing.2 rfl hbracket⟩

end Stepwise
