import Flowchart.Diagram.Writing
import Flowchart.LinkStyle
import Flowchart.Proofs.EdgeLines

/-!
# Written lines are read back

The canonical form of an edge line or of a renumbered link-style line is
classified as what was written, whatever the indentation.

Main results: `classify_edgeLine` and `classify_renumber`.
-/

namespace Flowchart

open Text

/-- A text of blanks that may be put before a line without breaking it. -/
structure IsIndent (indent : String) : Prop where
  blank : ∀ c ∈ indent.toList, isBlank c = true
  oneLine : IsOneLine indent

theorem isIndent_default :
    IsIndent defaultIndent := by
  constructor
  · exact List.all_eq_true.mp (by decide)
  · decide

theorem isIndent_indentOf_chars
    {line : String}
    (h : IsOneLine line) :
    IsIndent (String.ofList (line.toList.takeWhile isBlank)) := by
  constructor
  · intro c hc
    rw [String.toList_ofList] at hc
    exact of_mem_takeWhile hc
  · exact isOneLine_ofList.mpr fun hmem => h (List.takeWhile_subset _ hmem)

section NodeLines

/-- What a node line consists of: an id, and known brackets on the same line. -/
theorem node?_eq_some
    {cs : List Char} {id body : String}
    (h : Line.node? cs = some (.node id body)) :
    isIdentifier id.toList = true ∧ cs = id.toList ++ body.toList ∧
      (Shape.enclosing? body.toList).isSome = true ∧ '\n' ∉ body.toList := by
  unfold Line.node? at h
  split at h
  · simp at h
  · rename_i first rest hne hword
    split at h
    · rename_i hcond
      simp only [Bool.and_eq_true, Bool.not_eq_true', List.contains_eq_mem,
        decide_eq_false_iff_not] at hcond
      simp only [Option.some.injEq, Line.node.injEq] at h
      obtain ⟨rfl, rfl⟩ := h
      have hsplit := word_append cs
      rw [hword] at hsplit
      have hfirst : cs.takeWhile isWord = first := congrArg Prod.fst hword
      rw [String.toList_ofList, String.toList_ofList, isIdentifier_iff]
      refine ⟨⟨hne, ?_⟩, hsplit.symm, hcond⟩
      rw [← hfirst]
      exact fun c hc => of_mem_takeWhile hc
    · simp at h

theorem isIdentifier_of_classify_node
    {line id body : String}
    (h : Line.classify line = .node id body) :
    isIdentifier id.toList = true :=
  (node?_eq_some (Line.reader?_of_classify h (by simp))).1

theorem isOneLine_brackets
    (shape : Shape) :
    IsOneLine shape.opening ∧ IsOneLine shape.closing := by
  cases shape <;> decide

theorem isOneLine_nodeLine
    {indent id label : String} {shape : Shape}
    (hindent : IsOneLine indent)
    (hid : isIdentifier id.toList = true)
    (hlabel : IsOneLine label) :
    IsOneLine (Node.lineOf indent id shape label) := by
  obtain ⟨hopening, hclosing⟩ := isOneLine_brackets shape
  rw [Node.lineOf, Shape.encode, isOneLine_append, isOneLine_append, isOneLine_append,
    isOneLine_append]
  exact ⟨⟨hindent, isOneLine_of_isIdentifier hid⟩, ⟨hopening, hlabel⟩, hclosing⟩

/-- A node line is the same node line under another indentation. -/
theorem classify_nodeLine
    {indent indent' id label : String} {shape : Shape} {kind : Line}
    (hindent : ∀ c ∈ indent.toList, isBlank c = true)
    (hindent' : ∀ c ∈ indent'.toList, isBlank c = true)
    (h : Line.classify (Node.lineOf indent id shape label) = kind)
    (hother : ∀ text, kind ≠ .other text) :
    Line.classify (Node.lineOf indent' id shape label) = kind := by
  unfold Node.lineOf at *
  rw [String.append_assoc] at *
  exact Line.classify_indent_eq hindent hindent' h hother

end NodeLines

section EdgeLines

/-- The label of an edge between bars, or nothing if there is none. -/
def Edge.bars (label : String) : String :=
  if label.isEmpty then "" else "|" ++ label ++ "|"

/-- The label as an edge line gives it: an empty one is not written. -/
def Edge.writtenLabel (label : String) : Option String :=
  if label.isEmpty then none else some label

theorem Edge.getD_writtenLabel
    (label : String) :
    (writtenLabel label).getD "" = label := by
  unfold writtenLabel
  split
  · rename_i hempty
    exact (String.isEmpty_iff.mp hempty).symm
  · rfl

/-- An edge line without its indentation. -/
def Edge.coreOf (source target label : String) : String :=
  source ++ (" -->" ++ bars label ++ (" " ++ target))

theorem Edge.lineOf_eq
    {indent source target label : String} :
    Edge.lineOf indent source target label = indent ++ Edge.coreOf source target label := by
  unfold Edge.lineOf Edge.coreOf Edge.bars
  simp only [String.append_assoc]

/-- An edge line between bare ends, as everything that is written in it. -/
def Edge.writing (indent source target label : String) : EdgeWriting where
  indent := indent.toList
  source := ⟨source.toList, []⟩
  beforeArrow := [' ']
  afterArrow := []
  label := (writtenLabel label).map String.toList
  beforeTarget := [' ']
  target := ⟨target.toList, []⟩
  beforeSemicolon := []
  semicolon := false
  trail := []

theorem Edge.line_writing
    (indent source target label : String) :
    (Edge.writing indent source target label).line = Edge.lineOf indent source target label := by
  have hbars :
      EdgeWriting.bars ((Edge.writtenLabel label).map String.toList) =
        (Edge.bars label).toList := by
    unfold Edge.writtenLabel Edge.bars
    split
    · rfl
    · simp [EdgeWriting.bars, String.toList_append]
  rw [← String.toList_inj, EdgeWriting.line, String.toList_ofList, Edge.lineOf_eq]
  simp [Edge.writing, Edge.coreOf, EdgeWriting.core, EdgeWriting.afterwards, EdgeEnd.text, hbars,
    Line.arrow, String.toList_append]

/-- An edge line between bare ends is read back as that edge. -/
theorem classify_edgeLine
    {indent source target label : String}
    (hindent : ∀ c ∈ indent.toList, isBlank c = true)
    (hsource : isIdentifier source.toList = true)
    (htarget : isIdentifier target.toList = true)
    (hbar : '|' ∉ label.toList) :
    Line.classify (Edge.lineOf indent source target label) =
      .edge ⟨source, target, Edge.writtenLabel label, source, target⟩ := by
  have hgap : AreBlank [' '] := List.all_eq_true.mp (by decide)
  have hlabel : ∀ cs ∈ (Edge.writtenLabel label).map String.toList, '|' ∉ cs := by
    unfold Edge.writtenLabel
    split
    · nofun
    · rintro cs ⟨⟩
      exact hbar
  have hwritten : (Edge.writing indent source target label).IsWritten :=
    { source := ⟨hsource, .inl rfl⟩
      target := ⟨htarget, .inl rfl⟩
      label := hlabel
      indent := hindent
      beforeArrow := hgap
      afterArrow := nofun
      beforeTarget := hgap
      beforeSemicolon := nofun
      trail := nofun }
  have hplain : (Edge.writing indent source target label).HasPlainBrackets :=
    ⟨List.not_mem_nil, fun h => absurd (List.infix_nil.mp h) (by decide), List.not_mem_nil⟩
  have hedge :
      (Edge.writing indent source target label).edge =
        ⟨source, target, Edge.writtenLabel label, source, target⟩ := by
    simp [EdgeWriting.edge, Edge.writing, EdgeEnd.text, Option.map_map, Function.comp_def]
  rw [← Edge.line_writing, hwritten.classify_line hplain, hedge]

theorem isOneLine_edgeLine
    {indent source target label : String}
    (hindent : IsOneLine indent)
    (hsource : IsOneLine source)
    (htarget : IsOneLine target)
    (hlabel : IsOneLine label) :
    IsOneLine (Edge.lineOf indent source target label) := by
  have harrow : IsOneLine " -->" := by
    decide
  have hgap : IsOneLine " " := by
    decide
  have hbars : IsOneLine (Edge.bars label) := by
    have hbar : IsOneLine "|" := by
      decide
    unfold Edge.bars
    split
    · decide
    · exact isOneLine_append.mpr ⟨isOneLine_append.mpr ⟨hbar, hlabel⟩, hbar⟩
  rw [Edge.lineOf_eq, Edge.coreOf]
  simp only [isOneLine_append]
  exact ⟨hindent, hsource, ⟨harrow, hbars⟩, hgap, htarget⟩

end EdgeLines

section WrittenEdgeParts

/-- What an edge line consists of: identifiers, a label without bars, and the texts of both. -/
theorem parts_of_classify_edge
    {line : String} {e : EdgeLine}
    (h : Line.classify line = .edge e) :
    isIdentifier e.source.toList = true ∧ isIdentifier e.target.toList = true ∧
      e.sourceText.toList ⊆ line.toList ∧ e.targetText.toList ⊆ line.toList ∧
      ∀ label ∈ e.label, '|' ∉ label.toList ∧ label.toList ⊆ line.toList := by
  obtain ⟨w, hw, rfl, rfl, _⟩ := EdgeWriting.exists_of_classify h
  have hcore : w.core ⊆ w.line.toList := by
    intro c hc
    simp [EdgeWriting.line, hc]
  have hafterwards : w.afterwards ⊆ w.line.toList := by
    intro c hc
    apply hcore
    simp [EdgeWriting.core, hc]
  simp only [EdgeWriting.edge, String.toList_ofList]
  refine ⟨hw.source.id, hw.target.id, ?_, ?_, ?_⟩
  · exact fun c hc => hcore (List.mem_append_left _ hc)
  · intro c hc
    apply hafterwards
    simp [EdgeWriting.afterwards, hc]
  · intro label hlabel
    obtain ⟨cs, hcs, rfl⟩ := Option.map_eq_some_iff.mp hlabel
    rw [String.toList_ofList]
    refine ⟨hw.label cs hcs, fun c hc => ?_⟩
    apply hafterwards
    simp [EdgeWriting.afterwards, EdgeWriting.bars, hcs, hc]

/-- The written ends of an edge line break no line. -/
theorem isOneLine_of_classify_edge
    {line : String} {e : EdgeLine}
    (hline : IsOneLine line)
    (h : Line.classify line = .edge e) :
    IsOneLine e.sourceText ∧ IsOneLine e.targetText := by
  obtain ⟨_, _, hsource, htarget, _⟩ := parts_of_classify_edge h
  exact ⟨fun hmem => hline (hsource hmem), fun hmem => hline (htarget hmem)⟩

end WrittenEdgeParts

section ReindexedLinkStyles

/-- What a link-style line consists of: the keyword, blanks, few enough digits, and properties. -/
theorem linkStyle?_eq_some
    {cs : List Char} {index : Nat} {properties : Properties}
    (h : Line.linkStyle? cs = some (.linkStyle index properties)) :
    ∃ gap digits gap' rest,
      cs = "linkStyle".toList ++ (gap ++ (digits ++ gap' ++ rest)) ∧
      Line.IsDirective isDigit gap digits gap' rest ∧
      digits.length ≤ Line.indexLimit ∧ number digits = index ∧
      Properties.read rest = properties := by
  obtain ⟨⟨digits, rest⟩, hdirective, hline⟩ := Option.map_eq_some_iff.mp h
  obtain ⟨gap, gap', hcs, hparts⟩ :=
    (Line.directive?_eq_some_iff fun _ hc => isDigit_of_isBlank hc).mp hdirective
  dsimp only at hline
  split at hline
  · cases hline
  · rename_i hlimit
    simp only [Line.linkStyle.injEq] at hline
    exact ⟨gap, digits, gap', rest, hcs, hparts, Nat.le_of_not_lt hlimit, hline.1, hline.2⟩

/-- What follows the keyword of a link-style line is read as that of no other line. -/
theorem kind?_of_linkStyle?
    {cs : List Char} {line : Line}
    (h : Line.linkStyle? ("linkStyle".toList ++ cs) = some line) :
    Line.kind? ("linkStyle".toList ++ cs) = some line := by
  have hstyle : Line.style? ("linkStyle".toList ++ cs) = none := by
    rfl
  have hheader : Line.header? ("linkStyle".toList ++ cs) = none := by
    rfl
  unfold Line.kind?
  rw [hheader, hstyle, h]
  rfl

/-- Other digits in the place of the index give the line another index and nothing else. -/
theorem kind?_linkStyle
    {gap digits gap' rest : List Char}
    (hparts : Line.IsDirective isDigit gap digits gap' rest)
    (hlimit : digits.length ≤ Line.indexLimit) :
    Line.kind? ("linkStyle".toList ++ (gap ++ (digits ++ gap' ++ rest))) =
      some (.linkStyle (number digits) (Properties.read rest)) := by
  have hdirective :
      Line.directive? "linkStyle" isDigit
          ("linkStyle".toList ++ (gap ++ (digits ++ gap' ++ rest))) = some (digits, rest) :=
    (Line.directive?_eq_some_iff fun _ hc => isDigit_of_isBlank hc).mpr
      ⟨gap, gap', rfl, hparts⟩
  apply kind?_of_linkStyle?
  unfold Line.linkStyle?
  rw [hdirective]
  simp [Nat.not_lt.mpr hlimit]

/-- Renumbering replaces the digits of the index by those of the new one. -/
theorem toList_renumber
    {line : String} {gap digits rest : List Char} (index : Nat)
    (hgap : gap ≠ [] ∧ ∀ c ∈ gap, isBlank c = true)
    (hdigits : digits ≠ [] ∧ ∀ c ∈ digits, isDigit c = true)
    (hrest : ∀ c ∈ rest.head?, isDigit c = false)
    (h : trimStart line.toList = "linkStyle".toList ++ (gap ++ (digits ++ rest))) :
    (LinkStyle.renumber line index).toList =
      line.toList.takeWhile isBlank ++
        ("linkStyle".toList ++ (gap ++ (Nat.toDigits 10 index ++ rest))) := by
  have hstop : ∀ c ∈ (digits ++ rest).head?, isBlank c = false :=
    head?_append_stops hdigits.1 (fun c hc => isBlank_of_isDigit (hdigits.2 c hc)) rest
  have hafter :
      after? "linkStyle".toList (trimStart line.toList) = some (gap ++ (digits ++ rest)) :=
    after?_eq_some_iff.mpr h
  have hgap' : (gap ++ (digits ++ rest)).takeWhile isBlank = gap :=
    takeWhile_append_of_stop hgap.2 hstop
  have hstart : trimStart (gap ++ (digits ++ rest)) = digits ++ rest :=
    dropWhile_append_of_stop hgap.2 hstop
  have hdigits' : (digits ++ rest).takeWhile isDigit = digits :=
    takeWhile_append_of_stop hdigits.2 hrest
  have hrest' : (digits ++ rest).dropWhile isDigit = rest :=
    dropWhile_append_of_stop hdigits.2 hrest
  have hindex : toString (index : Int) = toString index := by
    rfl
  unfold LinkStyle.renumber
  simp only [hafter, hgap', hstart, hdigits', hrest', hindex]
  simp [hgap.1, hdigits.1, String.toList_append]

/-- A link-style line after its indentation: its index stands between two runs of blanks. -/
theorem exists_parts_of_classify_linkStyle
    {line : String} {index : Nat} {properties : Properties}
    (h : Line.classify line = .linkStyle index properties) :
    ∃ gap digits gap' rest trail,
      Line.IsDirective isDigit gap digits gap' rest ∧
      digits.length ≤ Line.indexLimit ∧ number digits = index ∧
      Properties.read rest = properties ∧
      Line.core line.toList = "linkStyle".toList ++ (gap ++ (digits ++ gap' ++ rest)) ∧
      trimStart line.toList =
        "linkStyle".toList ++ (gap ++ (digits ++ (gap' ++ rest ++ trail))) ∧
      ∀ c ∈ (gap' ++ rest ++ trail).head?, isDigit c = false := by
  obtain ⟨gap, digits, gap', rest, hcore, hparts, hlimit, hnumber, hread⟩ :=
    linkStyle?_eq_some (Line.reader?_of_classify h (by simp))
  obtain ⟨trail, htrail⟩ := Line.prefix_core line.toList
  have hstart :
      trimStart line.toList =
        "linkStyle".toList ++ (gap ++ (digits ++ (gap' ++ rest ++ trail))) := by
    rw [← htrail, hcore]
    simp only [List.append_assoc]
  have hstop : ∀ c ∈ (gap' ++ rest ++ trail).head?, isDigit c = false := by
    rw [List.append_assoc]
    exact head?_append_stops hparts.gap'_ne_nil
      (fun c hc => isDigit_of_isBlank (hparts.gap'_blank c hc)) _
  exact ⟨gap, digits, gap', rest, trail, hparts, hlimit, hnumber, hread, hcore, hstart, hstop⟩

/-- A link-style line keeps its properties under a smaller index. -/
theorem classify_renumber
    {line : String} {old index : Nat} {properties : Properties}
    (h : Line.classify line = .linkStyle old properties)
    (hindex : index ≤ old) :
    Line.classify (LinkStyle.renumber line index) = .linkStyle index properties := by
  obtain ⟨gap, digits, gap', rest, trail, hparts, hlimit, hnumber, hread, hcore, hstart, hstop⟩ :=
    exists_parts_of_classify_linkStyle h
  have hnew :=
    toList_renumber index ⟨hparts.gap_ne_nil, hparts.gap_blank⟩
      ⟨hparts.run_ne_nil, hparts.run_all⟩ hstop hstart
  have hfront :
      ∀ ds : List Char,
        "linkStyle".toList ++ (gap ++ ds) ≠ [] ∧
          StartsTight ("linkStyle".toList ++ (gap ++ ds)) := by
    intro ds
    refine ⟨by simp, ?_⟩
    exact startsTight_append (by decide) (head?_cons_stops (by decide) _)
  have hcore' :
      Line.core (LinkStyle.renumber line index).toList =
        "linkStyle".toList ++ (gap ++ (Nat.toDigits 10 index ++ gap' ++ rest)) := by
    have hcongr :
        Line.core
            (("linkStyle".toList ++ (gap ++ Nat.toDigits 10 index)) ++
              (gap' ++ rest ++ trail)) =
          ("linkStyle".toList ++ (gap ++ Nat.toDigits 10 index)) ++ (gap' ++ rest) := by
      refine Line.core_append_congr (hfront digits) (hfront _)
        (by simp [hparts.gap'_ne_nil]) ?_
      have hsame :
          ("linkStyle".toList ++ (gap ++ digits)) ++ (gap' ++ rest ++ trail) =
            trimStart line.toList := by
        rw [hstart]
        simp only [List.append_assoc]
      rw [hsame, Line.core_trimStart, hcore]
      simp only [List.append_assoc]
    rw [hnew, Line.core_append_of_blank fun c hc => of_mem_takeWhile hc]
    simpa only [List.append_assoc] using hcongr
  have hdigits : (Nat.toDigits 10 index).length ≤ digits.length :=
    length_toDigits_le hparts.run_ne_nil (by rw [hnumber]; exact hindex)
  have hparts' : Line.IsDirective isDigit gap (Nat.toDigits 10 index) gap' rest :=
    { hparts with
      run_all := fun c hc => isDigit_of_mem_toDigits hc
      run_ne_nil := Nat.toDigits_ne_nil }
  rw [Line.classify_eq, hcore', kind?_linkStyle hparts' (Nat.le_trans hdigits hlimit),
    number_toDigits, hread]
  rfl

end ReindexedLinkStyles

end Flowchart
