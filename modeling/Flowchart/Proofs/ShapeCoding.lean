import Flowchart.Proofs.Texts
import Flowchart.Shape
import Mathlib.Data.List.Nodup

/-!
# Brackets around labels

A shape encloses exactly the texts that are its opening bracket, a label and its
closing bracket, and unwrapping such a text gives the label.  So whatever shape is
found for a text, writing its label in that shape gives the text again.

Several shapes may enclose the same text, but of one length of brackets no more than
one, since the brackets at both ends of the text are then the same.  The decoding
order does not rise in length, so the first shape that is found has the longest
brackets of all.  A label is therefore read back in its shape unless it continues
the brackets around it to longer ones.

* `encode_decode`: what a text is read as is written as the text.
* `enclosing?_eq_some_iff`: the shape of a text is the one with the longest brackets.
* `decode_encode_iff`: which labels are read back.
-/

namespace Flowchart
namespace Shape

open Text

theorem toList_encode
    (s : Shape) (label : String) :
    (s.encode label).toList = s.opening.toList ++ (label.toList ++ s.closing.toList) := by
  unfold encode
  rw [String.toList_append, String.toList_append, List.append_assoc]

/-- A shape encloses what stands between its brackets, and nothing else. -/
theorem encloses_iff
    {s : Shape} {cs : List Char} :
    s.encloses cs = true ↔
      ∃ label, cs = s.opening.toList ++ (label ++ s.closing.toList) := by
  unfold encloses
  simp only [Bool.and_eq_true, decide_eq_true_eq, List.isPrefixOf_iff_prefix,
    List.isSuffixOf_iff_suffix, ← String.length_toList]
  constructor
  · rintro ⟨⟨hlength, rest, rfl⟩, hsuffix⟩
    rw [List.length_append] at hlength
    obtain ⟨label, rfl⟩ :=
      List.suffix_of_suffix_length_le hsuffix (List.suffix_append _ _) (by omega)
    exact ⟨label, rfl⟩
  · rintro ⟨label, rfl⟩
    refine ⟨⟨?_, List.prefix_append _ _⟩, ?_⟩
    · simp only [List.length_append]
      omega
    · exact (List.suffix_append _ _).trans (List.suffix_append _ _)

theorem unwrap_append
    (s : Shape) (label : List Char) :
    s.unwrap (s.opening.toList ++ (label ++ s.closing.toList)) = label := by
  unfold unwrap
  have hlength :
      (s.opening.toList ++ (label ++ s.closing.toList)).length - s.opening.length -
          s.closing.length = label.length := by
    simp only [List.length_append, ← String.length_toList]
    omega
  rw [hlength, ← String.length_toList, List.drop_left, List.take_left]

/-- The shape that is found for a text encloses it. -/
theorem encloses_of_enclosing?
    {cs : List Char} {s : Shape}
    (h : enclosing? cs = some s) :
    s.encloses cs = true := by
  have hencloses := List.find?_some h
  exact hencloses

theorem exists_of_enclosing?
    {cs : List Char} {s : Shape}
    (h : enclosing? cs = some s) :
    ∃ label, cs = s.opening.toList ++ (label ++ s.closing.toList) :=
  encloses_iff.mp (encloses_of_enclosing? h)

/-- The label of a text is what stands between the brackets that are found. -/
theorem decode_eq_iff
    {s : Shape} {text label : String} :
    decode text = ⟨s, label, true⟩ ↔ enclosing? text.toList = some s ∧ s.encode label = text := by
  unfold decode
  constructor
  · intro h
    cases henclosing : enclosing? text.toList with
    | none =>
        rw [henclosing] at h
        simp at h
    | some t =>
        rw [henclosing] at h
        simp only [Decoded.mk.injEq, and_true] at h
        obtain ⟨rfl, rfl⟩ := h
        obtain ⟨label, hlabel⟩ := exists_of_enclosing? henclosing
        refine ⟨rfl, ?_⟩
        rw [← String.toList_inj, toList_encode, String.toList_ofList, hlabel, unwrap_append]
  · rintro ⟨henclosing, rfl⟩
    rw [henclosing]
    simp only [toList_encode, unwrap_append, String.ofList_toList]

/-- What a text is read as is written as the text. -/
theorem encode_decode
    {text : String}
    (h : (enclosing? text.toList).isSome = true) :
    (decode text).shape.encode (decode text).label = text := by
  obtain ⟨s, hs⟩ := Option.isSome_iff_exists.mp h
  have hdecode : decode text = ⟨s, String.ofList (s.unwrap text.toList), true⟩ := by
    unfold decode
    rw [hs]
  rw [hdecode]
  exact (decode_eq_iff.mp hdecode).2

/-- The signs with which brackets end. -/
def closers : List Char := [')', ']', '\x7d']

/-- A bracketed text starts and ends with the signs of brackets. -/
theorem ends_of_enclosing?
    {cs : List Char}
    (h : (enclosing? cs).isSome = true) :
    (∃ c ∈ cs.head?, opens c = true) ∧ ∃ c ∈ cs.getLast?, c ∈ closers := by
  obtain ⟨s, hs⟩ := Option.isSome_iff_exists.mp h
  obtain ⟨label, rfl⟩ := exists_of_enclosing? hs
  have hopening : ∃ c rest, s.opening.toList = c :: rest ∧ opens c = true := by
    cases s <;> exact ⟨_, _, rfl, by decide⟩
  have hclosing : ∃ c, s.closing.toList.getLast? = some c ∧ c ∈ closers := by
    cases s <;> exact ⟨_, rfl, by decide⟩
  obtain ⟨first, rest, hfirst, hopens⟩ := hopening
  obtain ⟨last, hlast, hcloses⟩ := hclosing
  have hne : s.closing.toList ≠ [] := by
    intro hnil
    rw [hnil] at hlast
    cases hlast
  rw [hfirst, ← List.append_assoc, getLast?_append_of_ne_nil hne]
  exact ⟨⟨first, rfl, hopens⟩, last, hlast, hcloses⟩

/-- A bracketed text can stand at the end of the core of a line. -/
theorem getLast?_of_enclosing?
    {cs : List Char}
    (h : (enclosing? cs).isSome = true) :
    cs ≠ [] ∧ ∀ c ∈ cs.getLast?, isBlank c = false ∧ c ≠ ';' := by
  obtain ⟨_, c, hc, hcloses⟩ := ends_of_enclosing? h
  have hall : closers.all (fun c => !isBlank c && c != ';') = true := by
    decide
  refine ⟨List.ne_nil_of_mem (List.mem_of_getLast? hc), ?_⟩
  intro d hd
  obtain rfl : d = c := Option.some.inj (hd.symm.trans hc)
  simpa using List.all_eq_true.mp hall d hcloses

section LongestBrackets

/-- The length of both brackets together. -/
def bracketLength (s : Shape) : Nat :=
  s.opening.length + s.closing.length

theorem length_closing
    (s : Shape) :
    s.closing.length = s.opening.length := by
  cases s <;> decide

theorem mem_decodingOrder
    (s : Shape) :
    s ∈ decodingOrder := by
  cases s <;> decide

/-- Brackets do not become longer in decoding order. -/
theorem pairwise_decodingOrder :
    decodingOrder.Pairwise fun s t => t.bracketLength ≤ s.bracketLength := by
  decide

/-- A shape is told by its brackets. -/
theorem eq_of_same_brackets
    {s t : Shape}
    (h : (s.opening, s.closing) = (t.opening, t.closing)) :
    s = t := by
  have hnodup : (decodingOrder.map fun s => (s.opening, s.closing)).Nodup := by
    decide
  exact List.inj_on_of_nodup_map hnodup (mem_decodingOrder s) (mem_decodingOrder t) h

theorem encloses_encode
    (s : Shape) (label : String) :
    s.encloses (s.encode label).toList = true :=
  encloses_iff.mpr ⟨label.toList, toList_encode s label⟩

/--
Of all shapes with brackets of one length no more than one encloses a text: their
brackets stand at the same places of the text, so they are the same.
-/
theorem eq_of_encloses
    {s t : Shape} {cs : List Char}
    (hs : s.encloses cs = true)
    (ht : t.encloses cs = true)
    (hlength : s.bracketLength = t.bracketLength) :
    s = t := by
  obtain ⟨label, hlabel⟩ := encloses_iff.mp hs
  obtain ⟨label', hlabel'⟩ := encloses_iff.mp ht
  unfold bracketLength at hlength
  rw [length_closing, length_closing] at hlength
  have hopening : s.opening.toList.length = t.opening.toList.length := by
    rw [String.length_toList, String.length_toList]
    omega
  have hclosing : s.closing.toList.length = t.closing.toList.length := by
    rw [String.length_toList, String.length_toList, length_closing, length_closing]
    omega
  obtain ⟨hfront, hback⟩ := List.append_inj (hlabel.symm.trans hlabel') hopening
  obtain ⟨_, hend⟩ := List.append_inj' hback hclosing
  exact eq_of_same_brackets (Prod.ext (String.toList_inj.mp hfront) (String.toList_inj.mp hend))

/-- The shape that is found for a text has longer brackets than all others that enclose it. -/
theorem bracketLength_lt_of_enclosing?
    {s t : Shape} {cs : List Char}
    (h : enclosing? cs = some s)
    (ht : t.encloses cs = true)
    (hne : t ≠ s) :
    t.bracketLength < s.bracketLength := by
  have hs := encloses_of_enclosing? h
  obtain ⟨_, earlier, later, horder, hearlier⟩ := List.find?_eq_some_iff_append.mp h
  have hmem : t ∈ earlier ++ s :: later := by
    rw [← horder]
    exact mem_decodingOrder t
  have hlater : t ∈ later := by
    rcases List.mem_append.mp hmem with hmem | hmem
    · have hnot := hearlier t hmem
      rw [ht] at hnot
      cases hnot
    · exact (List.mem_cons.mp hmem).resolve_left hne
  have hpairwise := pairwise_decodingOrder
  rw [horder, List.pairwise_append, List.pairwise_cons] at hpairwise
  have hle := hpairwise.2.1.1 t hlater
  exact Nat.lt_of_le_of_ne hle fun hlength => hne (eq_of_encloses ht hs hlength)

/-- A text is read in the shape with the longest brackets that enclose it. -/
theorem enclosing?_eq_some_iff
    {s : Shape} {cs : List Char} :
    enclosing? cs = some s ↔
      s.encloses cs = true ∧
        ∀ t : Shape, t.encloses cs = true → t ≠ s → t.bracketLength < s.bracketLength := by
  constructor
  · intro h
    exact ⟨encloses_of_enclosing? h, fun t ht hne => bracketLength_lt_of_enclosing? h ht hne⟩
  · rintro ⟨hs, hlongest⟩
    have hsome : (enclosing? cs).isSome = true :=
      List.find?_isSome.mpr ⟨s, mem_decodingOrder s, hs⟩
    obtain ⟨t, ht⟩ := Option.isSome_iff_exists.mp hsome
    by_cases hne : t = s
    · rw [ht, hne]
    · have hlt := hlongest t (encloses_of_enclosing? ht) hne
      have hgt := bracketLength_lt_of_enclosing? ht hs (Ne.symm hne)
      omega

/-- A label is read back in its shape unless longer brackets enclose what is written. -/
theorem decode_encode_iff
    {s : Shape} {label : String} :
    decode (s.encode label) = ⟨s, label, true⟩ ↔
      ∀ t : Shape,
        s.bracketLength < t.bracketLength → t.encloses (s.encode label).toList = false := by
  rw [decode_eq_iff, and_iff_left rfl, enclosing?_eq_some_iff,
    and_iff_right (encloses_encode s label)]
  constructor
  · intro hlongest t hlt
    rw [← Bool.not_eq_true]
    intro ht
    have hne : t ≠ s := by
      rintro rfl
      exact Nat.lt_irrefl _ hlt
    have hgt := hlongest t ht hne
    omega
  · intro hnone t ht hne
    rcases Nat.lt_trichotomy t.bracketLength s.bracketLength with hlt | hlength | hgt
    · exact hlt
    · exact absurd (eq_of_encloses ht (encloses_encode s label) hlength) hne
    · rw [hnone t hgt] at ht
      cases ht

/--
Decoding is unambiguous and undoes encoding.  A text is read in the one shape that has
the longest brackets of all shapes enclosing it, and what is read is written as the
text again.  What is written of a shape and a label is read as the same shape and label
exactly if no longer brackets than those of the shape enclose it.
-/
theorem decoding_inverts_encoding :
    (∀ (text : String) (s : Shape),
      enclosing? text.toList = some s ↔
        s.encloses text.toList = true ∧
          ∀ t : Shape,
            t.encloses text.toList = true → t ≠ s → t.bracketLength < s.bracketLength) ∧
    (∀ (text : String) (s : Shape), enclosing? text.toList = some s →
      ∃ label, decode text = ⟨s, label, true⟩ ∧ s.encode label = text) ∧
    ∀ (s : Shape) (label : String),
      decode (s.encode label) = ⟨s, label, true⟩ ↔
        ∀ t : Shape,
          s.bracketLength < t.bracketLength → t.encloses (s.encode label).toList = false := by
  refine ⟨fun text s => enclosing?_eq_some_iff, ?_, fun s label => decode_encode_iff⟩
  intro text s h
  obtain ⟨label, hlabel⟩ := exists_of_enclosing? h
  have hencode : s.encode (String.ofList label) = text := by
    rw [← String.toList_inj, toList_encode, String.toList_ofList, hlabel]
  exact ⟨String.ofList label, decode_eq_iff.mpr ⟨h, hencode⟩, hencode⟩

/-- Square brackets at both ends of a label make round ones longer; a blank behind keeps them. -/
theorem decoding_inverts_encoding_of_nested_brackets :
    enclosing? "([x])".toList = some stadium ∧
    rounded.encloses "([x])".toList = true ∧
    rounded.bracketLength < stadium.bracketLength ∧
    (∃ label, decode "([x])" = ⟨stadium, label, true⟩ ∧ stadium.encode label = "([x])") ∧
    rounded.encode "[x]" = "([x])" ∧
    decode (rounded.encode "[x]") ≠ ⟨rounded, "[x]", true⟩ ∧
    decode (rounded.encode "[x] ") = ⟨rounded, "[x] ", true⟩ := by
  obtain ⟨hchosen, hread, hwritten⟩ := decoding_inverts_encoding
  have hstadium : enclosing? "([x])".toList = some stadium := by
    decide
  have hencloses : rounded.encloses "([x])".toList = true := by
    decide
  have hlt := ((hchosen "([x])" stadium).mp hstadium).2 rounded hencloses (by decide)
  refine ⟨hstadium, hencloses, hlt, hread _ _ hstadium, by decide, ?_, ?_⟩
  · intro hrounded
    have hnot := (hwritten rounded "[x]").mp hrounded stadium hlt
    exact absurd hnot (by decide)
  · refine (hwritten rounded "[x] ").mpr fun t => ?_
    cases t <;> decide

end LongestBrackets

end Shape
end Flowchart
