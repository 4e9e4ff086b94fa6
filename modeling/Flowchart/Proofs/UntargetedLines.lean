import Flowchart.Proofs.Deletion
import Flowchart.Proofs.EdgeUpdate
import Flowchart.Proofs.NodeStyles
import Mathlib.Data.List.Forall2

/-!
# Lines that an edit is not about

An edit is about the lines of the node or the edge that it names, and a deletion
also about all link-style lines, whose indices may change.  All other lines are
found again in the new text, as they are and in the same order, also if the model
does not say what the lines say.

* `Edit.targets`: the lines that an edit is about.
* `filter_sublist_staying`: a removal keeps the lines that it is not about.
* `forall₂_staying`: the lines that stay keep everything but the digits of an index.
* `apply_keeps_untargeted`: what an edit leaves as it is.
-/

namespace Flowchart

open Text

namespace Edit

/-- Whether an edit adds something to a diagram. -/
def creates : Edit → Bool
  | .createNode _ _ => true
  | .createEdge _ _ => true
  | _ => false

/-- Whether an edit takes something from a diagram. -/
def deletes : Edit → Bool
  | .deleteNode _ => true
  | .deleteEdge _ _ _ _ => true
  | _ => false

/-- Where the edge line of an edit of an edge is found. -/
def place? (d : Diagram) : Edit → Option EdgePlace
  | .updateEdge id _ _ => do
      let edge ← d.model.edge? id
      EdgePlace.find? d.lines edge.source edge.target none (some edge.id)
  | .deleteEdge id source target label => do
      let edge := d.model.edge? id
      let source ← source <|> edge.map (·.source)
      let target ← target <|> edge.map (·.target)
      EdgePlace.find? d.lines source target label (edge.map (·.id))
  | _ => none

/-- Whether an edit is about a line, which is given by its number and its kind. -/
def targets (d : Diagram) (edit : Edit) (number : Nat) (kind : Line) : Bool :=
  match edit with
  | .createNode _ _ => false
  | .createEdge _ _ => false
  | .updateNode id _ _ _ => kind.isOf id
  | .updateEdge _ _ _ =>
      match kind with
      | .edge _ => (edit.place? d).any (·.lineNumber == number)
      | .linkStyle index _ => (edit.place? d).any (·.position == index)
      | _ => false
  | .deleteNode id =>
      match kind with
      | .edge e => e.source == id || e.target == id
      | .linkStyle _ _ => true
      | _ => kind.isOf id
  | .deleteEdge _ _ _ _ =>
      match kind with
      | .edge _ => (edit.place? d).any (·.lineNumber == number)
      | .linkStyle _ _ => true
      | _ => false

/-- The lines of a diagram that an edit is not about, in order. -/
def untargeted (d : Diagram) (edit : Edit) : List String :=
  (d.lines.zipIdx.filter fun x => !edit.targets d x.2 (Line.classify x.1)).map Prod.fst

end Edit

open Edit

section Sublists

variable {α : Type}

theorem map_fst_filter_zipIdx_sublist
    {p : α × Nat → Bool} {q : α → Bool}
    (h : ∀ x n, p (x, n) = true → q x = true)
    (xs : List α) (n : Nat) :
    (((xs.zipIdx n).filter p).map Prod.fst).Sublist (xs.filter q) := by
  induction xs generalizing n with
  | nil =>
      exact List.Sublist.slnil
  | cons x xs ih =>
      rw [List.zipIdx_cons]
      cases hp : p (x, n) with
      | true =>
          rw [List.filter_cons_of_pos hp, List.map_cons, List.filter_cons_of_pos (h x n hp)]
          exact (ih (n + 1)).cons_cons x
      | false =>
          rw [List.filter_cons_of_neg (by rw [hp]; exact Bool.false_ne_true)]
          have hq : (xs.filter q).Sublist ((x :: xs).filter q) :=
            (List.sublist_cons_self x xs).filter q
          exact (ih (n + 1)).trans hq

/-- A map keeps the members that it leaves as they are. -/
theorem filter_sublist_map
    {f : α → α} {q : α → Bool}
    (h : ∀ x, q x = true → f x = x)
    (xs : List α) :
    (xs.filter q).Sublist (xs.map f) := by
  have hmap : (xs.filter q).map f = xs.filter q := by
    rw [List.map_congr_left fun x hx => h x (List.mem_filter.mp hx).2]
    exact List.map_id _
  rw [← hmap]
  exact List.filter_sublist.map f

end Sublists

section Creation

/-- An addition puts one line between the others, and two lines into a blank text. -/
theorem append_startLines
    (e : Editor) (d : Diagram) (line : String) :
    if d.isEmpty then append (e.startLines d) line = [e.header, line]
    else
      ∃ front back, d.lines = front ++ back ∧
        append (e.startLines d) line = front ++ line :: back := by
  unfold Editor.startLines
  split
  · unfold append
    cases hheader : isBlankLine e.header <;> simp [hheader]
  · obtain ⟨front, back, hlines, happend, _⟩ := append_eq d.lines line
    exact ⟨front, back, hlines, happend⟩

theorem sublist_append
    (lines : List String) (line : String) :
    lines.Sublist (append lines line) := by
  obtain ⟨front, back, hlines, happend, _⟩ := append_eq lines line
  rw [happend]
  conv_lhs => rw [hlines]
  exact (List.Sublist.refl front).append (List.sublist_cons_self line back)

end Creation

section UpdateNode

variable {e : Editor} {d d' : Diagram} {id label : String} {ref : ShapeRef}
  {style : NodeStyle} {created : Option String}

/-- Writing the style of a node keeps all lines but the style lines of the node. -/
theorem writeNodeStyle_keeps
    {lines lines' : List String}
    (h : e.writeNodeStyle lines id style = .ok lines') :
    (lines.filter (!stylesNode id ·)).Sublist lines' := by
  rcases (writeNodeStyle_cases h).2 with ⟨rfl, _⟩ | ⟨before, first, rest, rfl, _, hfirst, rfl⟩ |
    ⟨_, rfl⟩
  · exact List.filter_sublist
  · rw [List.filter_append, List.filter_cons_of_neg (by simp [hfirst])]
    exact List.filter_sublist.append (List.sublist_cons_self _ _)
  · exact List.filter_sublist.trans (sublist_append _ _)

theorem updateNode_keeps_untargeted
    (h : e.updateNode d id label ref style = .ok (.changed d' created)) :
    ((Edit.updateNode id label ref style).untargeted d).Sublist d'.lines := by
  obtain ⟨shape, written, _, _, _, _, hwritten, hstyled, _⟩ := updateNode_eq_changed h
  have huntargeted :
      ∀ line number,
        (!(Edit.updateNode id label ref style).targets d number (Line.classify line)) = true →
          (!stylesNode id line && !declaresNode id line) = true := by
    intro line number huntargeted
    dsimp only [targets] at huntargeted
    rwa [← isOf_classify, Bool.not_or, Bool.and_comm] at huntargeted
  have hkept :
      (d.lines.filter fun line => !stylesNode id line && !declaresNode id line).Sublist
        (written.filter (!stylesNode id ·)) := by
    rw [← List.filter_filter]
    apply List.Sublist.filter
    have hmap :
        (d.lines.filter fun line => !declaresNode id line).Sublist
          (d.lines.map (freshLine id label shape)) := by
      apply filter_sublist_map
      intro line hline
      rw [Bool.not_eq_true'] at hline
      simp [freshLine, isStale, hline]
    rw [hwritten]
    split
    · exact hmap
    · exact hmap.trans (sublist_append _ _)
  exact (map_fst_filter_zipIdx_sublist huntargeted d.lines 0).trans
    (hkept.trans (writeNodeStyle_keeps hstyled))

end UpdateNode

/-- An edge line that is given its label is an edge line. -/
theorem classify_relabelled
    {old source target label : String} {line : EdgeLine}
    (hold : Line.classify old = .edge line)
    (hread :
      line.label.getD "" ≠ label →
        edgeReadsBack (relabelled old line label) source target label = true) :
    ∃ e, Line.classify (relabelled old line label) = .edge e := by
  by_cases hlabel : line.label.getD "" = label
  · refine ⟨line, ?_⟩
    simp [relabelled, hlabel, hold]
  · obtain ⟨_, e, he, _⟩ := edgeReadsBack_eq_true (hread hlabel)
    exact ⟨e, he⟩

section UpdateEdge

variable {e : Editor} {d d' : Diagram} {id label : String} {style : EdgeStyle}
  {created : Option String}

theorem updateEdge_keeps_untargeted
    (h : e.updateEdge d id label style = .ok (.changed d' created)) :
    ((Edit.updateEdge id label style).untargeted d).Sublist d'.lines := by
  obtain ⟨edge, l, front, old, back, hedge, hl, hd, hnumber, hold, hposition, hread, hlines, _⟩ :=
    updateEdge_splits h
  obtain ⟨e', he'⟩ := classify_relabelled hold hread
  obtain ⟨_, _, hlines'⟩ := LinkStyle.replace_eq_ok he' hposition hlines
  have hplace : (Edit.updateEdge id label style).place? d = some l := by
    simp [place?, hedge, hl]
  have hkeeps :
      ∀ line number,
        (!(Edit.updateEdge id label style).targets d number (Line.classify line)) = true →
          LinkStyle.keeps l.position line = true := by
    intro line number
    dsimp only [targets]
    unfold LinkStyle.keeps LinkStyle.index?
    rw [hplace]
    cases Line.classify line with
    | linkStyle index properties =>
        simp [ne_comm]
    | _ =>
        simp
  have hfound :
      (Edit.updateEdge id label style).targets d front.length (Line.classify old) = true := by
    dsimp only [targets]
    rw [hplace, hold]
    simp [hnumber]
  unfold untargeted
  rw [hd, List.zipIdx_append, List.filter_append, List.map_append, List.zipIdx_cons,
    Nat.zero_add, List.filter_cons_of_neg (by simp [hfound]), hlines']
  apply List.Sublist.append
  · exact map_fst_filter_zipIdx_sublist hkeeps front 0
  · exact (map_fst_filter_zipIdx_sublist hkeeps back _).trans
      ((List.sublist_cons_self _ _).trans (List.sublist_cons_self _ _))

end UpdateEdge

/-- The digits of the index of a link-style line, and what stands before and after them. -/
structure IsIndexed (line : String) (lead digits rest : List Char) : Prop where
  text : line.toList = lead ++ (digits ++ rest)
  kind : ∃ properties, Line.classify line = .linkStyle (number digits) properties
  lead_eq :
    ∃ indent gap, lead = indent ++ ("linkStyle".toList ++ gap) ∧
      ∀ c ∈ indent ++ gap, isBlank c = true
  digits_all : ∀ c ∈ digits, isDigit c = true
  rest_stops : ∀ c ∈ rest.head?, isDigit c = false

/-- Two lines that differ in the digits of a link-style index at most. -/
def SameButIndex (line line' : String) : Prop :=
  line' = line ∨
    ∃ lead digits digits' rest,
      IsIndexed line lead digits rest ∧ IsIndexed line' lead digits' rest

theorem SameButIndex.eq_of_classify
    {line line' : String}
    (h : SameButIndex line line')
    (hline : ∀ index properties, Line.classify line ≠ .linkStyle index properties) :
    line' = line := by
  rcases h with rfl | ⟨lead, digits, digits', rest, hindexed, _⟩
  · rfl
  · obtain ⟨properties, hkind⟩ := hindexed.kind
    exact absurd hkind (hline _ properties)

/-- Two such lines are of the same node, if of any. -/
theorem SameButIndex.isOf
    {line line' : String}
    (h : SameButIndex line line')
    (id : String) :
    (Line.classify line).isOf id = (Line.classify line').isOf id := by
  rcases h with rfl | ⟨lead, digits, digits', rest, hindexed, hindexed'⟩
  · rfl
  · obtain ⟨_, hkind⟩ := hindexed.kind
    obtain ⟨_, hkind'⟩ := hindexed'.kind
    rw [hkind, hkind']
    rfl

theorem sublist_of_sameButIndex
    {lines kept lines' : List String}
    (hlines :
      ∀ line ∈ lines, ∀ index properties, Line.classify line ≠ .linkStyle index properties)
    (hkept : lines.Sublist kept)
    (h : List.Forall₂ SameButIndex kept lines') :
    lines.Sublist lines' := by
  induction hkept generalizing lines' with
  | slnil =>
      exact List.nil_sublist lines'
  | cons line _ ih =>
      obtain ⟨line', rest, _, hrest, rfl⟩ := List.forall₂_cons_left_iff.mp h
      exact (ih hlines hrest).cons line'
  | cons_cons line _ ih =>
      obtain ⟨line', rest, hline, hrest, rfl⟩ := List.forall₂_cons_left_iff.mp h
      rw [hline.eq_of_classify (hlines line List.mem_cons_self)]
      exact (ih (fun other hother => hlines other (List.mem_cons_of_mem _ hother))
        hrest).cons_cons line

namespace LinkStyle

/-- The lines that stay after a removal, as they were before it. -/
def staying (positions : List Int) : Nat → List String → List String
  | _, [] => []
  | rank, line :: lines =>
      match Line.classify line with
      | .edge _ =>
          if positions.contains (rank : Int) then staying positions (rank + 1) lines
          else line :: staying positions (rank + 1) lines
      | .linkStyle index _ =>
          if positions.contains (index : Int) then staying positions rank lines
          else line :: staying positions rank lines
      | _ => line :: staying positions rank lines

theorem staying_cons
    (positions : List Int) (rank : Nat) (line : String) (lines : List String) :
    staying positions rank (line :: lines) =
      match Line.classify line with
      | .edge _ =>
          if positions.contains (rank : Int) then staying positions (rank + 1) lines
          else line :: staying positions (rank + 1) lines
      | .linkStyle index _ =>
          if positions.contains (index : Int) then staying positions rank lines
          else line :: staying positions rank lines
      | _ => line :: staying positions rank lines := by
  rfl

variable {positions : List Int}

theorem staying_sublist
    (rank : Nat) (lines : List String) :
    (staying positions rank lines).Sublist lines := by
  induction lines generalizing rank with
  | nil =>
      exact List.Sublist.slnil
  | cons line lines ih =>
      rw [staying_cons]
      cases Line.classify line with
      | edge e =>
          dsimp only
          split
          · exact (ih (rank + 1)).cons line
          · exact (ih (rank + 1)).cons_cons line
      | linkStyle index properties =>
          dsimp only
          split
          · exact (ih rank).cons line
          · exact (ih rank).cons_cons line
      | _ =>
          exact (ih rank).cons_cons line

/-- A link-style line with a lower index differs in the digits of the index at most. -/
theorem sameButIndex_lowered
    (hpositions : ∀ p ∈ positions, 0 ≤ p)
    {line : String} {index : Nat} {properties : Properties}
    (h : Line.classify line = .linkStyle index properties) :
    SameButIndex line (lowered positions line index) := by
  rcases lowered_eq hpositions line index with ⟨hsame, _⟩ | hnew
  · exact Or.inl hsame
  · have hkind := classify_lowered hpositions h
    rw [hnew] at hkind ⊢
    obtain ⟨gap, digits, gap', rest, trail, hparts, _, hnumber, _, _, hstart, hstop⟩ :=
      exists_parts_of_classify_linkStyle h
    have htext := toList_renumber (shift positions index) ⟨hparts.gap_ne_nil, hparts.gap_blank⟩
      ⟨hparts.run_ne_nil, hparts.run_all⟩ hstop hstart
    have hsplit : line.toList = line.toList.takeWhile isBlank ++ trimStart line.toList :=
      List.takeWhile_append_dropWhile.symm
    rw [hstart] at hsplit
    have hlead :
        ∃ indent gap',
          line.toList.takeWhile isBlank ++ ("linkStyle".toList ++ gap) =
            indent ++ ("linkStyle".toList ++ gap') ∧
          ∀ c ∈ indent ++ gap', isBlank c = true := by
      refine ⟨_, gap, rfl, ?_⟩
      intro c hc
      rcases List.mem_append.mp hc with hc | hc
      · exact of_mem_takeWhile hc
      · exact hparts.gap_blank c hc
    refine Or.inr ⟨line.toList.takeWhile isBlank ++ ("linkStyle".toList ++ gap), digits,
      Nat.toDigits 10 (shift positions index), gap' ++ rest ++ trail, ?_, ?_⟩
    · refine ⟨?_, ⟨properties, by rw [hnumber]; exact h⟩, hlead, hparts.run_all, hstop⟩
      exact hsplit.trans (by simp only [List.append_assoc])
    · refine ⟨?_, ⟨properties, by rw [number_toDigits]; exact hkind⟩, hlead,
        fun c hc => isDigit_of_mem_toDigits hc, hstop⟩
      rw [htext]
      simp only [List.append_assoc]

/-- The lines that stay differ from the old ones in the digits of an index at most. -/
theorem forall₂_staying
    (hpositions : ∀ p ∈ positions, 0 ≤ p)
    (rank : Nat) (lines : List String) :
    List.Forall₂ SameButIndex (staying positions rank lines)
      (dropFrom positions rank lines) := by
  induction lines generalizing rank with
  | nil =>
      exact List.Forall₂.nil
  | cons line lines ih =>
      rw [dropFrom_cons, staying_cons]
      cases hkind : Line.classify line with
      | edge e =>
          dsimp only
          split
          · exact ih (rank + 1)
          · exact List.Forall₂.cons (Or.inl rfl) (ih (rank + 1))
      | linkStyle index properties =>
          dsimp only
          split
          · exact ih rank
          · exact List.Forall₂.cons (sameButIndex_lowered hpositions hkind) (ih rank)
      | _ =>
          exact List.Forall₂.cons (Or.inl rfl) (ih rank)

/--
A removal keeps every line of a selection that holds no link-style line and no edge
line of a removed rank.
-/
theorem filter_sublist_staying
    {p : String × Nat → Bool} {rank number : Nat} {lines : List String}
    (hlinkStyle :
      ∀ line n index properties,
        Line.classify line = .linkStyle index properties → p (line, n) = false)
    (hedge :
      ∀ (i : Nat) line e,
        lines[i]? = some line → Line.classify line = .edge e → p (line, number + i) = true →
          positions.contains
            ((rank + (Line.edges ((lines.take i).map Line.classify)).length : Nat) : Int) =
              false) :
    (((lines.zipIdx number).filter p).map Prod.fst).Sublist
      (staying positions rank lines) := by
  induction lines generalizing rank number with
  | nil =>
      exact List.Sublist.slnil
  | cons line lines ih =>
      have hother :
          (∀ e, Line.classify line ≠ .edge e) →
            (((lines.zipIdx (number + 1)).filter p).map Prod.fst).Sublist
              (staying positions rank lines) := by
        intro hnot
        apply ih
        intro i other e hi he hp
        have hrank := hedge (i + 1) other e hi he (by rwa [Nat.add_left_comm, Nat.add_comm])
        rwa [List.take_succ_cons, Line.edges_cons_of_not_edge hnot] at hrank
      rw [List.zipIdx_cons, List.filter_cons, staying_cons]
      cases hkind : Line.classify line with
      | edge e =>
          have hrest :
              (((lines.zipIdx (number + 1)).filter p).map Prod.fst).Sublist
                (staying positions (rank + 1) lines) := by
            apply ih
            intro i other e' hi he' hp
            have hrank := hedge (i + 1) other e' hi he' (by rwa [Nat.add_left_comm, Nat.add_comm])
            rw [List.take_succ_cons, Line.edges_cons_of_edge hkind, List.length_cons] at hrank
            rwa [Nat.add_right_comm, Nat.add_assoc]
          dsimp only
          cases hp : p (line, number) with
          | true =>
              have hrank := hedge 0 line e rfl hkind hp
              rw [List.take_zero] at hrank
              change positions.contains (rank : Int) = false at hrank
              rw [hrank, if_pos rfl, if_neg Bool.false_ne_true, List.map_cons]
              exact hrest.cons_cons line
          | false =>
              rw [if_neg Bool.false_ne_true]
              split
              · exact hrest
              · exact hrest.cons line
      | linkStyle index properties =>
          have hrest := hother (by rw [hkind]; exact fun e => Line.noConfusion)
          dsimp only
          rw [hlinkStyle line number index properties hkind, if_neg Bool.false_ne_true]
          split
          · exact hrest
          · exact hrest.cons line
      | _ =>
          have hrest := hother (by rw [hkind]; exact fun e => Line.noConfusion)
          dsimp only
          split
          · exact hrest.cons_cons line
          · exact hrest.cons line

end LinkStyle

section Delete

variable {d d' : Diagram} {id : String} {source target label created : Option String}

/-- Old lines of which the untargeted ones are a part, and which became those of a deletion. -/
def LeavesLines (edit : Edit) (d d' : Diagram) : Prop :=
  ∃ kept : List String, kept.Sublist d.lines ∧ (edit.untargeted d).Sublist kept ∧
    List.Forall₂ SameButIndex kept d'.lines

/-- A deletion is about every link-style line. -/
theorem targets_linkStyle
    {edit : Edit}
    (h : edit.deletes = true)
    (d : Diagram) (number index : Nat) (properties : Properties) :
    edit.targets d number (.linkStyle index properties) = true := by
  cases edit with
  | deleteNode id =>
      rfl
  | deleteEdge id source target label =>
      rfl
  | _ =>
      cases h

theorem not_linkStyle_of_mem_untargeted
    {edit : Edit}
    (h : edit.deletes = true)
    {line : String}
    (hline : line ∈ edit.untargeted d)
    (index : Nat) (properties : Properties) :
    Line.classify line ≠ .linkStyle index properties := by
  intro hkind
  obtain ⟨⟨_, number⟩, hmem, rfl⟩ := List.mem_map.mp hline
  have hnot := (List.mem_filter.mp hmem).2
  dsimp only at hnot hkind
  rw [hkind, targets_linkStyle h] at hnot
  cases hnot

/-- What is untargeted is found again as it is. -/
theorem LeavesLines.sublist
    {edit : Edit}
    (hdeletes : edit.deletes = true)
    (h : LeavesLines edit d d') :
    (edit.untargeted d).Sublist d'.lines := by
  obtain ⟨kept, _, huntargeted, hkept⟩ := h
  exact sublist_of_sameButIndex
    (fun line hline => not_linkStyle_of_mem_untargeted hdeletes hline) huntargeted hkept

/-- The location of the edge line of a number has as its rank the edge lines before it. -/
theorem exists_edgePlace_of_getElem?
    {lines : List String} {i : Nat} {line : String} {e : EdgeLine}
    (hi : lines[i]? = some line)
    (he : Line.classify line = .edge e) :
    ∃ l,
      (EdgePlace.all lines)[(Line.edges ((lines.take i).map Line.classify)).length]? =
          some l ∧
        l.lineNumber = i ∧ l.line = e := by
  obtain ⟨hlength, hget⟩ := List.getElem?_eq_some_iff.mp hi
  have hsplit : lines = lines.take i ++ line :: lines.drop (i + 1) := by
    rw [← hget, ← List.drop_eq_getElem_cons, List.take_append_drop]
  obtain ⟨l, hl, hnumber, hline⟩ :=
    getElem?_edgePlaces_append he (lines.take i) (lines.drop (i + 1))
  rw [← hsplit] at hl
  refine ⟨l, hl, ?_, hline⟩
  rw [hnumber, List.length_take, Nat.min_eq_left (Nat.le_of_lt hlength)]

/-- What a deletion is not about stays if it is about all edge lines of removed ranks. -/
theorem untargeted_sublist_staying
    {edit : Edit} {positions : List Int}
    (hdeletes : edit.deletes = true)
    (hedge :
      ∀ (rank : Nat) l,
        (EdgePlace.all d.lines)[rank]? = some l →
          edit.targets d l.lineNumber (.edge l.line) = false →
            positions.contains (rank : Int) = false) :
    (edit.untargeted d).Sublist (LinkStyle.staying positions 0 d.lines) := by
  apply LinkStyle.filter_sublist_staying
  · intro line number index properties hkind
    dsimp only
    rw [hkind, targets_linkStyle hdeletes]
    rfl
  · intro i line e hi he huntargeted
    obtain ⟨l, hl, hnumber, hline⟩ := exists_edgePlace_of_getElem? hi he
    rw [Nat.zero_add]
    apply hedge _ l hl
    rw [hnumber, hline, ← he]
    simpa using huntargeted

theorem deleteEdge_leaves_lines
    (h : Editor.deleteEdge d id source target label = .ok (.changed d' created)) :
    LeavesLines (.deleteEdge id source target label) d d' := by
  obtain ⟨s, t, l, hs, ht, _, hl, hlines, _⟩ := deleteEdge_eq_changed h
  have hplace : (Edit.deleteEdge id source target label).place? d = some l := by
    simp [place?, hs, ht, hl]
  have hpositions : ∀ p ∈ [(l.position : Int)], 0 ≤ p := by
    simp
  refine ⟨LinkStyle.staying [(l.position : Int)] 0 d.lines,
    LinkStyle.staying_sublist 0 d.lines, ?_, ?_⟩
  · apply untargeted_sublist_staying rfl
    intro rank l' hl' huntargeted
    dsimp only [targets] at huntargeted
    rw [hplace] at huntargeted
    have hne : rank ≠ l.position := by
      rintro rfl
      rw [(find?_edgePlaces hl).1] at hl'
      cases hl'
      simp at huntargeted
    simp [hne]
  · rw [hlines]
    exact LinkStyle.forall₂_staying hpositions 0 d.lines

/-- The deletion of a node is about all lines of the node. -/
theorem not_isOf_of_not_targets
    {number : Nat} {kind : Line}
    (h : (!(Edit.deleteNode id).targets d number kind) = true) :
    (!kind.isOf id) = true := by
  cases kind with
  | edge e =>
      rfl
  | linkStyle index properties =>
      rfl
  | _ =>
      exact h

theorem deleteNode_leaves_lines
    (h : Editor.deleteNode d id = .ok (.changed d' created)) :
    LeavesLines (.deleteNode id) d d' := by
  obtain ⟨_, _, rfl, hlines, _⟩ := deleteNode_eq_changed h
  change d'.lines = (LinkStyle.dropEdges d.lines (positionsAt id d.lines)).filter _ at hlines
  simp only [isOf_classify] at hlines
  refine ⟨(LinkStyle.staying (positionsAt id d.lines) 0 d.lines).filter fun line =>
      !(Line.classify line).isOf id,
    List.filter_sublist.trans (LinkStyle.staying_sublist 0 d.lines), ?_, ?_⟩
  · have hkept :
        ((Edit.deleteNode id).untargeted d).Sublist
          (LinkStyle.staying (positionsAt id d.lines) 0 d.lines) := by
      apply untargeted_sublist_staying rfl
      intro rank l hl huntargeted
      dsimp only [targets] at huntargeted
      rw [← Bool.not_eq_true, List.contains_iff_mem]
      unfold positionsAt
      rw [mem_positions_iff]
      rintro ⟨l', hl', hincident⟩
      rw [hl] at hl'
      cases hl'
      rw [hincident] at huntargeted
      cases huntargeted
    have hself :
        ((Edit.deleteNode id).untargeted d).filter (fun line => !(Line.classify line).isOf id) =
          (Edit.deleteNode id).untargeted d := by
      rw [List.filter_eq_self]
      intro line hline
      obtain ⟨⟨_, number⟩, hmem, rfl⟩ := List.mem_map.mp hline
      have huntargeted := (List.mem_filter.mp hmem).2
      exact not_isOf_of_not_targets huntargeted
    rw [← hself]
    exact hkept.filter _
  · rw [hlines]
    refine List.rel_filter ?_ (LinkStyle.forall₂_staying (nonneg_positionsAt id d.lines) 0 d.lines)
    intro line line' hsame
    dsimp only
    rw [hsame.isOf id]

end Delete

section Edits

theorem untargeted_sublist
    (d : Diagram) (edit : Edit) :
    (edit.untargeted d).Sublist d.lines := by
  have h :=
    map_fst_filter_zipIdx_sublist
      (p := fun x => !edit.targets d x.2 (Line.classify x.1)) (q := fun _ => true)
      (fun _ _ _ => rfl) d.lines 0
  rwa [List.filter_true] at h

/-- A creation is about no line. -/
theorem untargeted_of_creates
    {edit : Edit}
    (h : edit.creates = true)
    (d : Diagram) :
    edit.untargeted d = d.lines := by
  have hnone : ∀ number kind, edit.targets d number kind = false := by
    intro number kind
    cases edit with
    | createNode ref given =>
        rfl
    | createEdge source target =>
        rfl
    | _ =>
        cases h
  unfold untargeted
  simp [hnone]

/-- A creation adds its line to those that there are, or to the header in a blank text. -/
theorem creation_adds_line
    {e : Editor} {d d' : Diagram} {edit : Edit} {created : Option String}
    (hcreates : edit.creates = true)
    (h : e.apply d edit = .ok (.changed d' created)) :
    ∃ line,
      if d.isEmpty then d'.lines = [e.header, line]
      else ∃ front back, d.lines = front ++ back ∧ d'.lines = front ++ line :: back := by
  cases edit with
  | createNode ref given =>
      obtain ⟨shape, nodeId, _, _, _, _, hlines, _, _⟩ := createNode_eq_changed h
      rw [hlines]
      exact ⟨_, append_startLines e d _⟩
  | createEdge source target =>
      obtain ⟨s, t, edge, _, _, _, _, _, _, hlines, _, _⟩ := createEdge_eq_changed h
      rw [hlines]
      exact ⟨_, append_startLines e d _⟩
  | _ =>
      cases hcreates

/-- A deletion leaves part of the lines, with other indices at most. -/
theorem deletion_leaves_lines
    {e : Editor} {d d' : Diagram} {edit : Edit} {created : Option String}
    (hdeletes : edit.deletes = true)
    (h : e.apply d edit = .ok (.changed d' created)) :
    LeavesLines edit d d' := by
  cases edit with
  | deleteNode id =>
      exact deleteNode_leaves_lines h
  | deleteEdge id source target label =>
      exact deleteEdge_leaves_lines h
  | _ =>
      cases hdeletes

/--
An edit that gives a result leaves the lines that it is not about as they are and in
their order, where only a creation in a blank text starts anew, with the header.
-/
theorem apply_keeps_untargeted
    {e : Editor} {d : Diagram} {edit : Edit} {outcome : Outcome}
    (h : e.apply d edit = .ok outcome) :
    ((edit.creates && d.isEmpty) = false →
        (edit.untargeted d).Sublist (outcome.after d).lines) ∧
      (edit.creates = true → ∀ d' created, outcome = .changed d' created →
        ∃ line,
          if d.isEmpty then d'.lines = [e.header, line]
          else ∃ front back, d.lines = front ++ back ∧ d'.lines = front ++ line :: back) ∧
      (edit.deletes = true →
        ∃ kept : List String, kept.Sublist d.lines ∧ (edit.untargeted d).Sublist kept ∧
          List.Forall₂ SameButIndex kept (outcome.after d).lines) := by
  cases outcome with
  | refused problem =>
      refine ⟨fun _ => untargeted_sublist d edit, fun _ _ _ hchanged => (by cases hchanged),
        fun _ => ?_⟩
      exact ⟨d.lines, List.Sublist.refl _, untargeted_sublist d edit,
        List.forall₂_same.mpr fun line _ => Or.inl rfl⟩
  | changed d' created =>
      refine ⟨?_, ?_, fun hdeletes => deletion_leaves_lines hdeletes h⟩
      · intro hblank
        cases hcreates : edit.creates with
        | true =>
            obtain ⟨line, hline⟩ := creation_adds_line hcreates h
            rw [hcreates, Bool.true_and] at hblank
            rw [hblank, if_neg Bool.false_ne_true] at hline
            obtain ⟨front, back, hd, hd'⟩ := hline
            rw [untargeted_of_creates hcreates, hd]
            change (front ++ back).Sublist d'.lines
            rw [hd']
            exact (List.Sublist.refl front).append (List.sublist_cons_self line back)
        | false =>
            cases edit with
            | updateNode id label ref style =>
                exact updateNode_keeps_untargeted h
            | updateEdge id label style =>
                exact updateEdge_keeps_untargeted h
            | deleteNode id =>
                exact (deletion_leaves_lines rfl h).sublist rfl
            | deleteEdge id source target label =>
                exact (deletion_leaves_lines rfl h).sublist rfl
            | _ =>
                cases hcreates
      · rintro hcreates _ _ ⟨rfl, rfl⟩
        exact creation_adds_line hcreates h

/-- Also the edge line of a model that does not know the edge goes without the others. -/
theorem apply_keeps_untargeted_of_unread_model :
    let d : Diagram := {
      lines := [
        "flowchart TD", "%% note", "A[x]", "A --> B", "linkStyle 01 stroke:red", "B --> C"] }
    let d' : Diagram := {
      lines := ["flowchart TD", "%% note", "A[x]", "linkStyle 0 stroke:red", "B --> C"] }
    let edit : Edit := .deleteEdge "" (some "A") (some "B") none
    ({} : Editor).apply d edit = .ok (.changed d' none) ∧
      edit.untargeted d = ["flowchart TD", "%% note", "A[x]", "B --> C"] ∧
      (edit.untargeted d).Sublist d'.lines ∧
      ∃ kept : List String, kept.Sublist d.lines ∧ (edit.untargeted d).Sublist kept ∧
        List.Forall₂ SameButIndex kept d'.lines := by
  intro d d' edit
  have h : ({} : Editor).apply d edit = .ok (.changed d' none) := by
    rfl
  obtain ⟨hkept, _, hlines⟩ := apply_keeps_untargeted h
  exact ⟨h, by decide +kernel, hkept rfl, hlines rfl⟩

end Edits

end Flowchart
