import Flowchart.Proofs.EditSteps
import Flowchart.Proofs.ReadingFaults

/-!
# Node lines

The line of a word and a bracketed label can always be read, but not always as the
label in its shape: it may continue the brackets to longer ones, or hold an arrow that
makes an edge of the line.

Whether it is read back does not depend on how the line is written.  A line that declares
a node has only one core, the id with the label in the brackets of the shape, and what is
written has the same core.  So the node line declares the node if any line does.

* `nodeReadsBack_succeeds`: the node line of a word can be read.
* `nodeReadsBack_eq_true_iff`: which labels are read back.
-/

namespace Flowchart

open Edit Text

section WordsBeforeBrackets

/-- The brackets of a shape start with a character that is neither a blank nor in a word. -/
theorem encode_starts
    (shape : Shape) (label : String) :
    ∃ c rest, (shape.encode label).toList = c :: rest ∧ isBlank c = false ∧ isWord c = false := by
  have hopening :
      ∃ c rest, shape.opening.toList = c :: rest ∧ isBlank c = false ∧ isWord c = false := by
    cases shape <;> exact ⟨_, _, rfl, by decide, by decide⟩
  obtain ⟨c, rest, hlist, hc⟩ := hopening
  refine ⟨c, rest ++ (label.toList ++ shape.closing.toList), ?_, hc⟩
  simp [Shape.encode, String.toList_append, hlist]

/-- A word and the brackets behind it start with no blank. -/
theorem startsTight_encode
    {id : String}
    (hid : ∀ c ∈ id.toList, isWord c = true)
    (shape : Shape) (label : String) :
    StartsTight (id.toList ++ (shape.encode label).toList) := by
  obtain ⟨first, more, hencode, hblank, _⟩ := encode_starts shape label
  cases hlist : id.toList with
  | nil =>
      rw [hencode]
      exact head?_cons_stops hblank more
  | cons c rest =>
      rw [hlist] at hid
      exact head?_cons_stops (isBlank_of_isWord (hid c List.mem_cons_self)) _

/--
A node line of a word is no link-style line: the keyword and the id are both the word at
the start, and what follows it differs.
-/
theorem not_overlong_nodeLine
    {indent id label : String} {shape : Shape}
    (hindent : ∀ c ∈ indent.toList, isBlank c = true)
    (hid : ∀ c ∈ id.toList, isWord c = true)
    (size : Nat) :
    Line.classify (Node.lineOf indent id shape label) ≠ .overlong size := by
  intro h
  obtain ⟨_, gap, digits, gap', rest, hcore, hparts, _⟩ := Line.classify_eq_overlong_iff.mp h
  have htight := startsTight_encode hid shape label
  obtain ⟨c, more, hencode, hblank, hword⟩ := encode_starts shape label
  have hstart : trimStart (Node.lineOf indent id shape label).toList = id.toList ++ c :: more := by
    have hline :
        (Node.lineOf indent id shape label).toList =
          indent.toList ++ (id.toList ++ c :: more) := by
      rw [Node.lineOf, String.toList_append, String.toList_append, hencode, List.append_assoc]
    rw [hencode] at htight
    rw [hline, trimStart_append_of_blank hindent, trimStart_eq_self htight]
  obtain ⟨trail, htrail⟩ := Line.prefix_core (Node.lineOf indent id shape label).toList
  rw [hcore, hstart, List.append_assoc, List.append_assoc] at htrail
  have hstop : ∀ d ∈ (gap ++ (digits ++ gap' ++ rest ++ trail)).head?, isWord d = false :=
    head?_append_stops hparts.gap_ne_nil (fun d hd => isWord_of_isBlank (hparts.gap_blank d hd)) _
  obtain ⟨_, hrest⟩ :=
    eq_of_append_eq_append (List.all_eq_true.mp (by decide)) hid hstop
      (head?_cons_stops hword more) htrail
  obtain ⟨d, gap, rfl⟩ := List.exists_cons_of_ne_nil hparts.gap_ne_nil
  rw [List.cons_append, List.cons.injEq] at hrest
  rw [← hrest.1, hparts.gap_blank d List.mem_cons_self] at hblank
  cases hblank

/-- Whether a node line of a word is read back can always be told. -/
theorem nodeReadsBack_succeeds
    {id : String}
    (hid : ∀ c ∈ id.toList, isWord c = true)
    (shape : Shape) (label : String) :
    ∃ readsBack, nodeReadsBack id shape label = .ok readsBack := by
  unfold nodeReadsBack
  split
  · exact ⟨false, rfl⟩
  · have hreadable : IsReadable [Node.lineOf defaultIndent id shape label] := by
      intro line hline size
      rw [List.mem_singleton.mp hline]
      exact not_overlong_nodeLine isIndent_default.blank hid size
    exact ⟨_, bind_eq_ok_iff.mpr ⟨(), checkReadable_eq_ok_iff.mpr hreadable, rfl⟩⟩

end WordsBeforeBrackets

/-- A node line of an id whose brackets hold a label in the way of a shape. -/
def Line.Declares (id : String) (shape : Shape) (label line : String) : Prop :=
  ∃ body, classify line = .node id body ∧
    (Shape.decode body).shape = shape ∧ (Shape.decode body).label = label

section Declares

variable {id label line : String} {shape : Shape}

theorem declares_iff :
    Line.Declares id shape label line ↔
      declaresNode id line = true ∧ declaresAs shape label line = true := by
  unfold Line.Declares declaresNode declaresAs
  cases Line.classify line with
  | node other body =>
      simp
  | _ =>
      simp

/-- A line that declares a node has nothing but the id and the bracketed label as its core. -/
theorem Line.Declares.core_spec
    (h : Line.Declares id shape label line) :
    isIdentifier id.toList = true ∧
      (Shape.enclosing? (shape.encode label).toList).isSome = true ∧
      (Shape.decode (shape.encode label)).shape = shape ∧
      (Shape.decode (shape.encode label)).label = label ∧
      Line.kind? (id.toList ++ (shape.encode label).toList) =
        some (.node id (shape.encode label)) := by
  obtain ⟨body, hkind, rfl, rfl⟩ := h
  obtain ⟨hid, hcore, hbrackets, _⟩ := node?_eq_some (Line.reader?_of_classify hkind (by simp))
  rw [Shape.encode_decode hbrackets, ← hcore]
  exact ⟨hid, hbrackets, rfl, rfl, Line.kind?_of_classify hkind (by simp)⟩

theorem Line.Declares.stylesNode_eq_false
    (h : Line.Declares id shape label line)
    (owner : String) :
    stylesNode owner line = false := by
  obtain ⟨body, hkind, _⟩ := h
  unfold stylesNode
  rw [hkind]

/-- If any line declares a node, then its own node line does so. -/
theorem Line.Declares.lineOf
    {indent : String}
    (h : Line.Declares id shape label line)
    (hindent : ∀ c ∈ indent.toList, isBlank c = true) :
    Line.Declares id shape label (Node.lineOf indent id shape label) := by
  obtain ⟨hid, hbrackets, hshape, hlabel, hkind⟩ := h.core_spec
  obtain ⟨hne, hlast⟩ := Shape.getLast?_of_enclosing? hbrackets
  have hcore :
      Line.core (id ++ shape.encode label).toList =
        id.toList ++ (shape.encode label).toList := by
    rw [String.toList_append]
    apply Line.core_eq_self
    · exact startsTight_encode (isIdentifier_iff.mp hid).2 shape label
    · rw [getLast?_append_of_ne_nil hne]
      exact hlast
  refine ⟨shape.encode label, ?_, hshape, hlabel⟩
  rw [Node.lineOf, String.append_assoc]
  exact Line.classify_of_kind? hindent (by rw [hcore, hkind])

theorem breaksLine_eq_false_iff
    {text : String} :
    breaksLine text = false ↔ '\n' ∉ text.toList ∧ '\r' ∉ text.toList := by
  simp [breaksLine]

/-- The node line of a label is read back exactly if some line declares the node. -/
theorem nodeReadsBack_eq_true_iff :
    nodeReadsBack id shape label = .ok true ↔
      breaksLine label = false ∧ ∃ line, Line.Declares id shape label line := by
  unfold nodeReadsBack
  cases hbreaks : breaksLine label with
  | true =>
      simp
  | false =>
      rw [if_neg Bool.false_ne_true, and_iff_right rfl]
      constructor
      · intro h
        obtain ⟨_, _, hread⟩ := bind_eq_ok_iff.mp h
        exact ⟨_, declares_iff.mpr (Bool.and_eq_true_iff.mp (Except.ok.inj hread))⟩
      · rintro ⟨line, hline⟩
        have hdeclares := hline.lineOf isIndent_default.blank
        have hreadable : IsReadable [Node.lineOf defaultIndent id shape label] := by
          obtain ⟨body, hbody, _⟩ := hdeclares
          intro other hother
          rw [List.mem_singleton.mp hother, hbody]
          exact fun _ => Line.noConfusion
        exact bind_eq_ok_iff.mpr ⟨(), checkReadable_eq_ok_iff.mpr hreadable,
          congrArg Except.ok (Bool.and_eq_true_iff.mpr (declares_iff.mp hdeclares))⟩

/-- For a word it can always be told whether a label is read back. -/
theorem nodeReadsBack_spec
    (hid : ∀ c ∈ id.toList, isWord c = true)
    (shape : Shape) (label : String) :
    ∃ readsBack, nodeReadsBack id shape label = .ok readsBack ∧
      (readsBack = true ↔
        breaksLine label = false ∧ ∃ line, Line.Declares id shape label line) := by
  obtain ⟨readsBack, hread⟩ := nodeReadsBack_succeeds hid shape label
  refine ⟨readsBack, hread, ?_⟩
  rw [← nodeReadsBack_eq_true_iff, hread, Except.ok.injEq]

end Declares

end Flowchart
