import Flowchart.Proofs.Rebuilding
import Mathlib.Logic.Relation

/-!
# The order of lines

Reading goes through the node lines, then through the edge lines, and then through all
style lines and all link-style lines, whatever node or edge they are for.  A directive
changes its own node or edge only, so it may stand before or behind those for others.
The text is therefore a braid of strands: the node lines, the edge lines, the style lines
of every id and the link-style lines of every index.  The model depends on what stands on
every strand and in which order, but not on how they are braided.  Headers and lines that
are kept as they are stand on no strand.

* `Reads.of_sameStrands`: a model is read of all lines with the same strands.
* `Rearranges.sameStrands`: one line put in, or two independent neighbours swapped.
* `rearranged_of_crossing`: a line may be moved across any lines independent of it.
* `model_of_strands`: equal strands give equal models, and a rearranged text its own.
-/

namespace Flowchart

/-- The groups of lines within which the order matters. -/
inductive Strand
  | nodes
  | edges
  | style (id : String)
  | linkStyle (index : Nat)
deriving DecidableEq, Repr

namespace Line

/-- The strand on which a line stands, if it says anything of the model. -/
def strand? : Line → Option Strand
  | node _ _ => some .nodes
  | edge _ => some .edges
  | style id _ => some (.style id)
  | linkStyle index _ => some (.linkStyle index)
  | _ => none

/-- Whether a line says nothing of the model: a header, or a line that is kept as it is. -/
def isIdle : Line → Bool
  | header _ _ => true
  | other _ => true
  | _ => false

theorem strand?_of_isIdle
    {kind : Line}
    (h : kind.isIdle = true) :
    kind.strand? = none := by
  cases kind with
  | header keyword direction =>
      rfl
  | other text =>
      rfl
  | _ =>
      cases h

/-- The lines on a strand, in their order. -/
def strand (s : Strand) (kinds : List Line) : List Line :=
  kinds.filter (·.strand? == some s)

theorem strand_append
    (s : Strand) (kinds kinds' : List Line) :
    strand s (kinds ++ kinds') = strand s kinds ++ strand s kinds' :=
  List.filter_append kinds kinds'

theorem strand_cons_of_ne
    {kind : Line} {s : Strand}
    (h : kind.strand? ≠ some s)
    (kinds : List Line) :
    strand s (kind :: kinds) = strand s kinds :=
  List.filter_cons_of_neg fun hmem => h (beq_iff_eq.mp hmem)

/-- Two neighbours change places on no strand unless both stand on it. -/
theorem strand_swap
    {kind other : Line} {s : Strand}
    (h : kind.strand? ≠ some s ∨ other.strand? ≠ some s)
    (kinds : List Line) :
    strand s (other :: kind :: kinds) = strand s (kind :: other :: kinds) := by
  have hsplit : ∀ k : Line, ∀ ks, strand s (k :: ks) = strand s [k] ++ strand s ks :=
    fun k ks => strand_append s [k] ks
  rcases h with h | h
  · rw [strand_cons_of_ne h, hsplit other, strand_cons_of_ne h, ← hsplit other]
  · rw [strand_cons_of_ne h, hsplit kind (other :: kinds), strand_cons_of_ne h, ← hsplit kind]

/-- What is seen of lines on one strand only is seen of the strand. -/
theorem filterMap_strand
    {α : Type} {view : Line → Option α} {s : Strand}
    (hview : ∀ kind : Line, kind.strand? ≠ some s → view kind = none)
    (kinds : List Line) :
    (strand s kinds).filterMap view = kinds.filterMap view := by
  apply filterMap_filter_of_none
  intro kind hkind
  exact hview kind (beq_eq_false_iff_ne.mp hkind)

/-- Some lines with the same strands as others. -/
def SameStrands (kinds kinds' : List Line) : Prop :=
  ∀ s, strand s kinds' = strand s kinds

/-- Only the strands on which lines stand have to be compared. -/
theorem sameStrands_iff
    {kinds kinds' : List Line} :
    SameStrands kinds kinds' ↔
      ∀ s ∈ (kinds ++ kinds').filterMap strand?, strand s kinds' = strand s kinds := by
  refine ⟨fun h s _ => h s, ?_⟩
  intro h s
  by_cases hs : s ∈ (kinds ++ kinds').filterMap strand?
  · exact h s hs
  · have hnone : ∀ kind ∈ kinds ++ kinds', kind.strand? ≠ some s :=
      fun kind hkind hstrand => hs (List.mem_filterMap.mpr ⟨kind, hkind, hstrand⟩)
    rw [List.forall_mem_append] at hnone
    have hempty :
        ∀ ks : List Line, (∀ kind ∈ ks, kind.strand? ≠ some s) → strand s ks = [] := by
      intro ks hks
      rw [strand, List.filter_eq_nil_iff]
      exact fun kind hkind hmem => hks kind hkind (beq_iff_eq.mp hmem)
    rw [hempty kinds hnone.1, hempty kinds' hnone.2]

instance (kinds kinds' : List Line) : Decidable (SameStrands kinds kinds') :=
  decidable_of_iff _ sameStrands_iff.symm

section SameStrands

variable {kinds kinds' : List Line} (h : SameStrands kinds kinds')

include h

theorem SameStrands.filterMap_eq
    {α : Type} {view : Line → Option α} (s : Strand)
    (hview : ∀ kind : Line, kind.strand? ≠ some s → view kind = none) :
    kinds'.filterMap view = kinds.filterMap view := by
  rw [← filterMap_strand hview kinds', ← filterMap_strand hview kinds, h s]

theorem SameStrands.declarations_eq :
    Reading.declarations kinds' = Reading.declarations kinds := by
  apply h.filterMap_eq .nodes
  intro kind hkind
  cases kind with
  | node id body =>
      exact absurd rfl hkind
  | _ =>
      rfl

theorem SameStrands.edges_eq :
    edges kinds' = edges kinds := by
  apply h.filterMap_eq .edges
  intro kind hkind
  cases kind with
  | edge e =>
      exact absurd rfl hkind
  | _ =>
      rfl

theorem SameStrands.nodeProperties_eq
    (id : String) :
    nodeProperties id kinds' = nodeProperties id kinds := by
  apply h.filterMap_eq (.style id)
  intro kind hkind
  cases kind with
  | style owner properties =>
      have hne : owner ≠ id := by
        rintro rfl
        exact hkind rfl
      simp [hne]
  | _ =>
      rfl

theorem SameStrands.edgeProperties_eq
    (rank : Nat) :
    edgeProperties rank kinds' = edgeProperties rank kinds := by
  apply h.filterMap_eq (.linkStyle rank)
  intro kind hkind
  cases kind with
  | linkStyle index properties =>
      have hne : index ≠ rank := by
        rintro rfl
        exact hkind rfl
      simp [hne]
  | _ =>
      rfl

end SameStrands

end Line

/-- The model of some lines is the one of all lines with the same strands. -/
theorem Reading.Reads.of_sameStrands
    {kinds kinds' : List Line} {m : Model}
    (hreads : Reads kinds m)
    (hsame : Line.SameStrands kinds kinds') :
    Reads kinds' m := by
  have hedges : modelEdges kinds' = modelEdges kinds :=
    modelEdges_congr hsame.edges_eq hsame.edgeProperties_eq
  have hdeclared : declaredNodes kinds' = declaredNodes kinds := by
    rw [declaredNodes_eq, declaredNodes_eq, hsame.declarations_eq]
  constructor
  · rw [plainNodes_eq, hdeclared, hedges, ← plainNodes_eq]
    exact hreads.nodes
  · intro n hn
    rw [Line.styleOf_congr (hsame.nodeProperties_eq n.id)]
    exact hreads.styles n hn
  · rw [hedges]
    exact hreads.edges

/-- Whether two lines do not stand on one strand. -/
def AreIndependent (line other : String) : Prop :=
  (Line.classify line).strand? = none ∨
    (Line.classify line).strand? ≠ (Line.classify other).strand?

instance (line other : String) : Decidable (AreIndependent line other) :=
  inferInstanceAs (Decidable (_ ∨ _))

/-- Whether a line is a whole one that says nothing of the model. -/
structure IsIdle (line : String) : Prop where
  oneLine : IsOneLine line
  idle : (Line.classify line).isIdle = true

theorem IsIdle.readable
    {line : String}
    (h : IsIdle line) :
    ∀ digits, Line.classify line ≠ .overlong digits := by
  intro digits hdigits
  have hidle := h.idle
  rw [hdigits] at hidle
  cases hidle

/-- One line that says nothing is put in, or two independent neighbours are swapped. -/
inductive Rearranges : List String → List String → Prop
  | insert (front : List String) {line : String} (back : List String) (hline : IsIdle line) :
      Rearranges (front ++ back) (front ++ line :: back)
  | swap (front : List String) {line other : String} (back : List String)
      (hindependent : AreIndependent line other) :
      Rearranges (front ++ line :: other :: back) (front ++ other :: line :: back)

namespace Rearranges

variable {lines lines' : List String}

/-- One step of a rearrangement leaves every strand as it is. -/
theorem sameStrands
    (h : Rearranges lines lines') :
    Line.SameStrands (lines.map Line.classify) (lines'.map Line.classify) := by
  intro s
  cases h with
  | @insert front line back hline =>
      have hnone : (Line.classify line).strand? ≠ some s := by
        rw [Line.strand?_of_isIdle hline.idle]
        exact (Option.some_ne_none s).symm
      rw [List.map_append, List.map_append, List.map_cons, Line.strand_append,
        Line.strand_append, Line.strand_cons_of_ne hnone]
  | @swap front line other back hindependent =>
      have hswap :
          (Line.classify line).strand? ≠ some s ∨ (Line.classify other).strand? ≠ some s := by
        by_contra hboth
        rw [not_or, not_not, not_not] at hboth
        rcases hindependent with hnone | hne
        · rw [hnone] at hboth
          cases hboth.1
        · exact hne (hboth.1.trans hboth.2.symm)
      simp only [List.map_append, List.map_cons]
      rw [Line.strand_append, Line.strand_append, Line.strand_swap hswap]

/-- What holds of all idle lines holds of all lines before a step if and only if after it. -/
theorem forall_iff
    {P : String → Prop}
    (hidle : ∀ line, IsIdle line → P line)
    (h : Rearranges lines lines') :
    (∀ line ∈ lines', P line) ↔ ∀ line ∈ lines, P line := by
  cases h with
  | insert front back hline =>
      simp only [List.forall_mem_append, List.forall_mem_cons, hidle _ hline, true_and]
  | swap front back hindependent =>
      simp only [List.forall_mem_append, List.forall_mem_cons]
      tauto

end Rearranges

/-- The steps of a rearrangement, each also taken back. -/
def Rearranged : List String → List String → Prop :=
  Relation.EqvGen Rearranges

namespace Rearranged

variable {lines lines' : List String}

theorem sameStrands
    (h : Rearranged lines lines') :
    Line.SameStrands (lines.map Line.classify) (lines'.map Line.classify) := by
  induction h with
  | rel _ _ hstep =>
      exact hstep.sameStrands
  | refl _ =>
      exact fun _ => rfl
  | symm _ _ _ ih =>
      exact fun s => (ih s).symm
  | trans _ _ _ _ _ ih ih' =>
      exact fun s => (ih' s).trans (ih s)

theorem forall_iff
    {P : String → Prop}
    (hidle : ∀ line, IsIdle line → P line)
    (h : Rearranged lines lines') :
    (∀ line ∈ lines', P line) ↔ ∀ line ∈ lines, P line := by
  induction h with
  | rel _ _ hstep =>
      exact hstep.forall_iff hidle
  | refl _ =>
      exact Iff.rfl
  | symm _ _ _ ih =>
      exact ih.symm
  | trans _ _ _ _ _ ih ih' =>
      exact ih'.trans ih

end Rearranged

/-- A line may be moved across any lines that are independent of it. -/
theorem rearranged_of_crossing
    {line : String} {crossed : List String}
    (h : ∀ other ∈ crossed, AreIndependent line other)
    (front back : List String) :
    Rearranged (front ++ line :: (crossed ++ back)) (front ++ crossed ++ line :: back) := by
  induction crossed generalizing front with
  | nil =>
      rw [List.append_nil]
      exact Relation.EqvGen.refl _
  | cons other crossed ih =>
      rw [List.forall_mem_cons] at h
      have hstep :
          Rearranges (front ++ line :: other :: (crossed ++ back))
            (front ++ other :: line :: (crossed ++ back)) :=
        Rearranges.swap front (crossed ++ back) h.1
      have hrest := ih h.2 (front ++ [other])
      simp only [List.append_assoc, List.singleton_append] at hrest
      simp only [List.append_assoc, List.cons_append]
      exact Relation.EqvGen.trans _ _ _ (Relation.EqvGen.rel _ _ hstep) hrest

/-- A diagram stays one that its text is read as, with its model, when lines are rearranged. -/
theorem Diagram.IsReading.of_rearranged
    {d : Diagram} {lines : List String}
    (hd : d.IsReading)
    (hlines : Rearranged d.lines lines) :
    (Diagram.mk lines d.model).IsReading where
  oneLine := (hlines.forall_iff fun _ hidle => hidle.oneLine).mpr hd.oneLine
  readable := (hlines.forall_iff fun _ hidle => hidle.readable).mpr hd.readable
  reads := hd.reads.of_sameStrands hlines.sameStrands

/--
Two texts with the same node lines, the same edge lines, the same style lines of
every id and the same link-style lines of every index, each in the same order, have
the same model.  A text in which headers and other lines come and go, and lines are
moved across lines of other strands, is still read, as the same model.
-/
theorem model_of_strands
    {text text' : String} {d d' : Diagram} {lines : List String}
    (hd : Diagram.ofText text = .ok d)
    (hd' : Diagram.ofText text' = .ok d')
    (hsame : Line.SameStrands (d.lines.map Line.classify) (d'.lines.map Line.classify))
    (hlines : Rearranged d.lines lines) :
    d'.model = d.model ∧
      ∃ r, Diagram.ofText (joinLines lines) = .ok r ∧ r.model = d.model := by
  have hread := isReading_of_ofText hd
  constructor
  · have hmodel := Reading.modelOf_eq_ok_iff.mpr (hread.reads.of_sameStrands hsame)
    rw [Reading.modelOf_eq_ok_iff.mpr (isReading_of_ofText hd').reads] at hmodel
    exact Except.ok.inj hmodel
  · obtain ⟨r, hr, hmodel, _⟩ := (hread.of_rearranged hlines).ofText_text_model
    exact ⟨r, hr, hmodel⟩

/--
The second text has other blanks, a remark and no header, and a style line of one node
stands between those of the other.  In the third one the declaration of the first text is
moved across all lines of other strands, and the header is gone.
-/
theorem model_of_strands_of_moved_lines :
    ∃ d d' : Diagram,
      Diagram.ofText
          (joinLines
            ["graph TD", "A[a]", "style A fill:#ff0000", "style A color:#00ff00",
              "style B fill:#0000ff", "A --> B", "linkStyle 0 color:#00ff00"]) =
        .ok d ∧
      Diagram.ofText
          (joinLines
            [" linkStyle 0 color:#00ff00;", "%% note", "style A fill:#ff0000", "A --> B",
              "style B fill:#0000ff", "style A color:#00ff00", "  A[a]"]) =
        .ok d' ∧
      d.model.nodes.map (fun n => (n.style.backgroundColor.text, n.style.textColor.text)) =
        [("#ff0000", "#00ff00"), ("#0000ff", "#000000")] ∧
      d'.model = d.model ∧
      ∃ r,
        Diagram.ofText
            (joinLines
              ["style A fill:#ff0000", "style A color:#00ff00", "style B fill:#0000ff",
                "A --> B", "linkStyle 0 color:#00ff00", "A[a]"]) =
          .ok r ∧
        r.model = d.model := by
  have hread :
      ∀ (lines : List String) (colors : List (String × String)),
        (Diagram.ofText (joinLines lines)).toOption.map (fun d =>
            (d.lines, d.model.nodes.map fun n =>
              (n.style.backgroundColor.text, n.style.textColor.text))) =
          some (lines, colors) →
        ∃ d,
          Diagram.ofText (joinLines lines) = .ok d ∧ d.lines = lines ∧
            d.model.nodes.map (fun n =>
              (n.style.backgroundColor.text, n.style.textColor.text)) = colors := by
    intro lines colors h
    obtain ⟨d, hd, hvalue⟩ := Option.map_eq_some_iff.mp h
    rw [Prod.mk.injEq] at hvalue
    exact ⟨d, toOption_eq_some_iff.mp hd, hvalue⟩
  obtain ⟨d, hd, hlines, hcolors⟩ :=
    hread
      ["graph TD", "A[a]", "style A fill:#ff0000", "style A color:#00ff00",
        "style B fill:#0000ff", "A --> B", "linkStyle 0 color:#00ff00"]
      [("#ff0000", "#00ff00"), ("#0000ff", "#000000")] (by decide +kernel)
  obtain ⟨d', hd', hlines', _⟩ :=
    hread
      [" linkStyle 0 color:#00ff00;", "%% note", "style A fill:#ff0000", "A --> B",
        "style B fill:#0000ff", "style A color:#00ff00", "  A[a]"]
      [("#ff0000", "#00ff00"), ("#0000ff", "#000000")] (by decide +kernel)
  have hmoved :
      Rearranged d.lines
        ["graph TD", "style A fill:#ff0000", "style A color:#00ff00", "style B fill:#0000ff",
          "A --> B", "linkStyle 0 color:#00ff00", "A[a]"] := by
    rw [hlines]
    exact @rearranged_of_crossing "A[a]"
      ["style A fill:#ff0000", "style A color:#00ff00", "style B fill:#0000ff", "A --> B",
        "linkStyle 0 color:#00ff00"] (by decide +kernel) ["graph TD"] []
  have hgone :
      Rearranges
        ["style A fill:#ff0000", "style A color:#00ff00", "style B fill:#0000ff", "A --> B",
          "linkStyle 0 color:#00ff00", "A[a]"]
        ["graph TD", "style A fill:#ff0000", "style A color:#00ff00", "style B fill:#0000ff",
          "A --> B", "linkStyle 0 color:#00ff00", "A[a]"] :=
    Rearranges.insert [] _ ⟨by decide, by decide +kernel⟩
  have hsame :
      Line.SameStrands (d.lines.map Line.classify) (d'.lines.map Line.classify) := by
    rw [hlines, hlines']
    decide +kernel
  exact ⟨d, d', hd, hd', hcolors, model_of_strands hd hd' hsame
    (hmoved.trans _ _ _ ((Relation.EqvGen.rel _ _ hgone).symm _ _))⟩

end Flowchart
