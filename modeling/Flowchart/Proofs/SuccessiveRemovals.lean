import Flowchart.Proofs.DirectiveShift
import Flowchart.Proofs.EditFaults

/-!
# Removals one after the other

A removal names edges by their ranks, and after it the edges that stay have other
ranks.  A second removal that names them by these does what one removal of all the
edges does to the text it started from: the indices of link-style lines are lowered
in two steps to what one step makes of them, and an index that the first step does
not write anew is not written anew by both.  A node is deleted with the edges at it,
so the same holds of nodes, and the order in which they go does not matter.

* `shift_shift`: new ranks of new ranks.
* `dropFrom_dropFrom`: two removals of edges are one.
* `linesWithout_comm`: the lines without two nodes.
* `lines_run_deleteNode`: the lines after the deletion of some nodes.
* `removals_in_any_order`: removals in steps and in another order.
-/

namespace Flowchart

open Edit

namespace LinkStyle

open Line Text

section LoweredTwice

/-- Of two new indices that are written in turn the second one stays. -/
theorem renumber_renumber
    {line : String} {index : Nat} {properties : Properties}
    (h : Line.classify line = .linkStyle index properties)
    (first second : Nat) :
    renumber (renumber line first) second = renumber line second := by
  obtain ⟨gap, digits, gap', rest, trail, hparts, _, _, _, _, hstart, hstop⟩ :=
    exists_parts_of_classify_linkStyle h
  have hgap : gap ≠ [] ∧ ∀ c ∈ gap, isBlank c = true :=
    ⟨hparts.gap_ne_nil, hparts.gap_blank⟩
  have hline :=
    fun i : Nat => toList_renumber i hgap ⟨hparts.run_ne_nil, hparts.run_all⟩ hstop hstart
  have hindent : ∀ c ∈ line.toList.takeWhile isBlank, isBlank c = true :=
    fun c hc => of_mem_takeWhile hc
  have hkeyword :
      ∀ cs, ∀ c ∈ ("linkStyle".toList ++ cs).head?, isBlank c = false :=
    fun cs => head?_cons_stops (by decide) _
  have hindent' :
      (renumber line first).toList.takeWhile isBlank = line.toList.takeWhile isBlank := by
    rw [hline, takeWhile_append_of_stop hindent (hkeyword _)]
  have hstart' :
      trimStart (renumber line first).toList =
        "linkStyle".toList ++
          (gap ++ (Nat.toDigits 10 first ++ (gap' ++ rest ++ trail))) := by
    rw [hline]
    exact dropWhile_append_of_stop hindent (hkeyword _)
  have htwice :=
    toList_renumber second hgap
      ⟨Nat.toDigits_ne_nil, fun c hc => isDigit_of_mem_toDigits hc⟩ hstop hstart'
  apply String.toList_inj.mp
  rw [htwice, hindent', hline]

theorem shift_le
    {positions : List Int}
    (hpositions : ∀ p ∈ positions, 0 ≤ p)
    (i : Nat) :
    shift positions i ≤ i := by
  have hsum := countBelow_add_shift hpositions i
  omega

/-- A link-style line is written anew if and only if its index is another one. -/
theorem lowered_eq_ite
    {positions : List Int}
    (hpositions : ∀ p ∈ positions, 0 ≤ p)
    (line : String) (index : Nat) :
    lowered positions line index =
      if shift positions index = index then line
      else renumber line (shift positions index : Nat) := by
  have hsum := countBelow_add_shift hpositions index
  by_cases hsame : shift positions index = index
  · unfold lowered
    rw [if_pos hsame, if_pos (by omega)]
  · rw [if_neg hsame]
    rcases lowered_eq hpositions line index with ⟨_, hshift⟩ | hnew
    · exact absurd hshift hsame
    · exact hnew

end LoweredTwice

/--
Some positions, and the same ones after the removal of others: what is named at a
rank that stays is named at its new rank.
-/
structure Follows (removed before after : List Int) : Prop where
  /-- What is removed first is given by ranks. -/
  nonneg_removed : ∀ p ∈ removed, 0 ≤ p
  /-- What is removed then is given by the ranks before the first removal. -/
  nonneg_before : ∀ p ∈ before, 0 ≤ p
  /-- What is removed then is given by the ranks after the first removal. -/
  nonneg_after : ∀ p ∈ after, 0 ≤ p
  /-- A rank that stays is named under its new value. -/
  contains_shift :
    ∀ i : Nat, removed.contains (i : Int) = false →
      after.contains (shift removed i : Int) = before.contains (i : Int)

theorem contains_append
    (positions others : List Int) (i : Int) :
    (positions ++ others).contains i = (positions.contains i || others.contains i) := by
  rw [Bool.eq_iff_iff, Bool.or_eq_true, List.contains_iff_mem, List.contains_iff_mem,
    List.contains_iff_mem, List.mem_append]

section Follows

variable {removed before after : List Int} (h : Follows removed before after)

include h

theorem Follows.nonneg_append :
    ∀ p ∈ removed ++ before, 0 ≤ p := by
  intro p hp
  rcases List.mem_append.mp hp with hp | hp
  · exact h.nonneg_removed p hp
  · exact h.nonneg_before p hp

/-- A rank that the first removal keeps is kept by both if the second one keeps it. -/
theorem Follows.contains_append_of_stays
    {i : Nat}
    (hi : removed.contains (i : Int) = false) :
    (removed ++ before).contains (i : Int) = after.contains (shift removed i : Int) := by
  rw [contains_append, hi, Bool.false_or, h.contains_shift i hi]

/-- The new rank of a new rank is the one that a removal of everything at once gives. -/
theorem shift_shift
    (i : Nat) :
    shift after (shift removed i) = shift (removed ++ before) i := by
  induction i with
  | zero =>
      rfl
  | succ i ih =>
      cases hi : removed.contains (i : Int) with
      | true =>
          have hboth : (removed ++ before).contains (i : Int) = true := by
            rw [contains_append, hi, Bool.true_or]
          rw [shift_succ_of_mem hi, shift_succ_of_mem hboth, ih]
      | false =>
          have hboth := h.contains_append_of_stays hi
          rw [shift_succ_of_not_mem hi]
          cases hnew : after.contains (shift removed i : Int) with
          | true =>
              rw [hnew] at hboth
              rw [shift_succ_of_mem hnew, shift_succ_of_mem hboth, ih]
          | false =>
              rw [hnew] at hboth
              rw [shift_succ_of_not_mem hnew, shift_succ_of_not_mem hboth, ih]

/-- A link-style line that is lowered twice is the one that is lowered at once. -/
theorem lowered_lowered
    {line : String} {index : Nat} {properties : Properties}
    (hkind : Line.classify line = .linkStyle index properties) :
    lowered after (lowered removed line index) (shift removed index) =
      lowered (removed ++ before) line index := by
  have hfirst := shift_le h.nonneg_removed index
  have hsecond := shift_le h.nonneg_after (shift removed index)
  rw [lowered_eq_ite h.nonneg_removed, lowered_eq_ite h.nonneg_after,
    lowered_eq_ite h.nonneg_append, shift_shift h]
  rw [shift_shift h] at hsecond
  by_cases hsame : shift removed index = index
  · rw [hsame, if_pos rfl]
  · have hlower : shift (removed ++ before) index ≠ index := by
      omega
    rw [if_neg hsame, if_neg hlower]
    split
    · rename_i heq
      rw [heq]
    · exact renumber_renumber hkind _ _

/--
Two removals do what one does, if the second one names its edges by their new ranks.
The induction keeps both counts of edge lines: of all lines, and of those that the
first removal leaves.
-/
theorem dropFrom_dropFrom
    (rank : Nat) (lines : List String) :
    dropFrom after (shift removed rank) (dropFrom removed rank lines) =
      dropFrom (removed ++ before) rank lines := by
  induction lines generalizing rank with
  | nil =>
      rfl
  | cons line lines ih =>
      rw [dropFrom_cons, dropFrom_cons]
      cases hkind : Line.classify line with
      | edge e =>
          dsimp only
          cases hrank : removed.contains (rank : Int) with
          | true =>
              rw [contains_append, hrank, Bool.true_or, if_pos rfl, if_pos rfl,
                ← shift_succ_of_mem hrank, ih]
          | false =>
              rw [h.contains_append_of_stays hrank, if_neg Bool.false_ne_true, dropFrom_cons,
                hkind, ← ih, shift_succ_of_not_mem hrank]
      | linkStyle index properties =>
          dsimp only
          cases hindex : removed.contains (index : Int) with
          | true =>
              rw [contains_append, hindex, Bool.true_or, if_pos rfl, if_pos rfl, ih]
          | false =>
              rw [h.contains_append_of_stays hindex, if_neg Bool.false_ne_true, dropFrom_cons,
                classify_lowered h.nonneg_removed hkind, ← ih]
              dsimp only
              rw [lowered_lowered h hkind]
      | _ =>
          dsimp only
          rw [dropFrom_cons, hkind, ih]

end Follows

section PositionSets

theorem shift_nil
    (i : Nat) :
    shift [] i = i := by
  induction i with
  | zero =>
      rfl
  | succ i ih =>
      rw [shift_succ_of_not_mem rfl, ih]

theorem dropFrom_nil
    (rank : Nat) (lines : List String) :
    dropFrom [] rank lines = lines := by
  induction lines generalizing rank with
  | nil =>
      rfl
  | cons line lines ih =>
      rw [dropFrom_cons]
      cases Line.classify line with
      | edge e =>
          exact congrArg (line :: ·) (ih (rank + 1))
      | linkStyle index properties =>
          exact congrArg (line :: ·) (ih rank)
      | _ =>
          exact congrArg (line :: ·) (ih rank)

/-- Neither the order of the positions nor their number matters. -/
theorem dropFrom_congr
    {positions others : List Int}
    (hpositions : ∀ p ∈ positions, 0 ≤ p)
    (hsame : ∀ p, p ∈ others ↔ p ∈ positions)
    (rank : Nat) (lines : List String) :
    dropFrom others rank lines = dropFrom positions rank lines := by
  have hothers : ∀ p ∈ others, 0 ≤ p := fun p hp => hpositions p ((hsame p).mp hp)
  have hfollows : Follows [] positions others := by
    refine ⟨fun p hp => absurd hp List.not_mem_nil, hpositions, hothers, ?_⟩
    intro i _
    rw [shift_nil, Bool.eq_iff_iff, List.contains_iff_mem, List.contains_iff_mem, hsame]
  have h := dropFrom_dropFrom hfollows rank lines
  rwa [shift_nil, dropFrom_nil, List.nil_append] at h

/-- Positions that are not removed are named by their new ranks afterwards. -/
theorem follows_rankAfter
    {removed later : List Nat}
    (hdisjoint : ∀ q ∈ later, q ∉ removed) :
    Follows (removed.map Int.ofNat) (later.map Int.ofNat)
      ((later.map (rankAfter removed)).map Int.ofNat) := by
  refine ⟨nonneg_ofNat _, nonneg_ofNat _, nonneg_ofNat _, ?_⟩
  intro i hi
  rw [contains_ofNat, contains_ofNat, decide_eq_decide, List.mem_map]
  constructor
  · rintro ⟨q, hq, hrank⟩
    have hstays : (removed.map Int.ofNat).contains (q : Int) = false := by
      rw [contains_ofNat, decide_eq_false (hdisjoint q hq)]
    rw [← shift_ofNat] at hrank
    rwa [← shift_injective hstays hi hrank]
  · exact fun hq => ⟨i, hq, (shift_ofNat removed i).symm⟩

end PositionSets

end LinkStyle

open LinkStyle

section LinesWithoutNode

/-- The lines without those of a node and those of the edges at it. -/
def linesWithout (id : String) (lines : List String) : List String :=
  (dropEdges lines (positionsAt id lines)).filter fun line =>
    !(declaresNode id line || stylesNode id line)

theorem linesWithout_eq
    (id : String) (lines : List String) :
    linesWithout id lines =
      (dropEdges lines (positionsAt id lines)).filter fun line =>
        !(Line.classify line).isOf id := by
  unfold linesWithout
  congr 1
  funext line
  rw [isOf_classify]

/-- The edges at a node are removed by the ranks of their lines. -/
theorem contains_positionsAt_iff
    {id : String} {lines : List String} {rank : Nat} :
    (positionsAt id lines).contains (rank : Int) = true ↔
      ∃ e, (Line.edges (lines.map Line.classify))[rank]? = some e ∧
        (e.source == id || e.target == id) = true := by
  have hlines : (EdgePlace.all lines).map EdgePlace.line = Line.edges (lines.map Line.classify) :=
    (@listFrom_spec [] [] rfl rfl rfl 0 lines).1
  rw [List.contains_iff_mem, ← hlines, List.getElem?_map]
  unfold positionsAt
  rw [mem_positions_iff]
  constructor
  · rintro ⟨l, hl, htouches⟩
    exact ⟨l.line, by rw [hl]; rfl, htouches⟩
  · rintro ⟨e, he, htouches⟩
    obtain ⟨l, hl, rfl⟩ := Option.map_eq_some_iff.mp he
    exact ⟨l, hl, htouches⟩

/-- Lines of a node are neither edge lines nor link-style lines, so they can go first. -/
theorem dropFrom_filter_isOf
    {positions : List Int}
    (hpositions : ∀ p ∈ positions, 0 ≤ p)
    (id : String) (rank : Nat) (lines : List String) :
    dropFrom positions rank (lines.filter fun line => !(Line.classify line).isOf id) =
      (dropFrom positions rank lines).filter fun line => !(Line.classify line).isOf id := by
  induction lines generalizing rank with
  | nil =>
      rfl
  | cons line lines ih =>
      rw [dropFrom_cons, List.filter_cons]
      cases hkind : Line.classify line with
      | edge e =>
          have hkeep : (!(Line.edge e).isOf id) = true := rfl
          rw [if_pos hkeep, dropFrom_cons, hkind]
          dsimp only
          split
          · exact ih (rank + 1)
          · rw [List.filter_cons_of_pos (by rw [hkind]; rfl), ih]
      | linkStyle index properties =>
          have hkeep : (!(Line.linkStyle index properties).isOf id) = true := rfl
          rw [if_pos hkeep, dropFrom_cons, hkind]
          dsimp only
          split
          · exact ih rank
          · have hlowered := classify_lowered hpositions hkind
            rw [List.filter_cons_of_pos (by rw [hlowered]; rfl), ih]
      | _ =>
          dsimp only
          rw [List.filter_cons, hkind]
          split
          · rw [dropFrom_cons, hkind]
            exact congrArg (line :: ·) (ih rank)
          · exact ih rank

/-- The edge lines without a node are those off the positions at it. -/
theorem edges_linesWithout
    (id : String) (lines : List String) :
    Line.edges ((linesWithout id lines).map Line.classify) =
      keepOff (positionsAt id lines) 0 (Line.edges (lines.map Line.classify)) := by
  have hkinds :
      (linesWithout id lines).map Line.classify =
        (dropKinds (positionsAt id lines) 0 (lines.map Line.classify)).filter
          (!·.isOf id) := by
    rw [linesWithout_eq, ← map_classify_dropFrom (nonneg_positionsAt id lines), List.filter_map]
    rfl
  rw [hkinds, ← edges_dropKinds]
  apply LooksSame.edges_eq (looksSame_filter_isOf id _)
  intro kind hkind
  cases kind with
  | edge e =>
      cases hkind
  | _ =>
      rfl

/-- The positions at a second node are the same ones after the first node is gone. -/
theorem follows_positionsAt
    (first second : String) (lines : List String) :
    Follows (positionsAt first lines) (positionsAt second lines)
      (positionsAt second (linesWithout first lines)) := by
  refine ⟨nonneg_positionsAt _ _, nonneg_positionsAt _ _, nonneg_positionsAt _ _, ?_⟩
  intro i hi
  have hget :=
    getElem?_keepOff (positionsAt first lines) 0 (Line.edges (lines.map Line.classify))
      (by rw [Nat.zero_add]; exact hi)
  rw [Nat.zero_add, ← edges_linesWithout] at hget
  rw [Bool.eq_iff_iff, contains_positionsAt_iff, contains_positionsAt_iff, ← hget]
  rfl

theorem linesWithout_linesWithout
    (first second : String) (lines : List String) :
    linesWithout second (linesWithout first lines) =
      ((dropEdges lines (positionsAt first lines ++ positionsAt second lines)).filter
          fun line => !(Line.classify line).isOf first).filter
        fun line => !(Line.classify line).isOf second := by
  have hfollows := follows_positionsAt first second lines
  have hboth :
      dropEdges (dropEdges lines (positionsAt first lines))
          (positionsAt second (linesWithout first lines)) =
        dropEdges lines (positionsAt first lines ++ positionsAt second lines) :=
    dropFrom_dropFrom hfollows 0 lines
  have hfirst :
      dropEdges (linesWithout first lines) (positionsAt second (linesWithout first lines)) =
        (dropEdges (dropEdges lines (positionsAt first lines))
            (positionsAt second (linesWithout first lines))).filter
          fun line => !(Line.classify line).isOf first := by
    unfold dropEdges
    rw [← dropFrom_filter_isOf hfollows.nonneg_after]
    congr 1
    exact linesWithout_eq first lines
  rw [linesWithout_eq second, hfirst, hboth]

/-- Which of two nodes goes first does not matter to the lines. -/
theorem linesWithout_comm
    (first second : String) (lines : List String) :
    linesWithout second (linesWithout first lines) =
      linesWithout first (linesWithout second lines) := by
  have hswap :
      dropEdges lines (positionsAt first lines ++ positionsAt second lines) =
        dropEdges lines (positionsAt second lines ++ positionsAt first lines) := by
    refine dropFrom_congr (follows_positionsAt second first lines).nonneg_append ?_ 0 lines
    intro p
    rw [List.mem_append, List.mem_append, or_comm]
  rw [linesWithout_linesWithout, linesWithout_linesWithout, hswap, List.filter_comm]

end LinesWithoutNode

section NodeDeletions

theorem isReadable_linesWithout
    {lines : List String}
    (h : IsReadable lines)
    (id : String) :
    IsReadable (linesWithout id lines) :=
  fun line hline =>
    isReadable_dropFrom (nonneg_positionsAt id lines) h 0 line (List.mem_of_mem_filter hline)

/-- A node that no line mentions is not deleted, and no line would go. -/
theorem linesWithout_eq_self
    {id : String} {lines : List String}
    (howned : lines.any (fun line => declaresNode id line || stylesNode id line) = false)
    (hpositions : positionsAt id lines = []) :
    linesWithout id lines = lines := by
  have hdrop : dropEdges lines [] = lines := dropFrom_nil 0 lines
  unfold linesWithout
  rw [hpositions, hdrop, List.filter_eq_self]
  intro line hline
  rw [List.any_eq_false] at howned
  rw [Bool.not_eq_true', ← Bool.not_eq_true]
  exact howned line hline

/-- The lines after the deletion of a node, also if it is refused. -/
theorem lines_step_deleteNode
    {d : Diagram}
    (hwell : d.IsWellFormed)
    (hreadable : IsReadable d.lines)
    (e : Editor) (id : String) :
    (e.step d (.deleteNode id)).lines = linesWithout id d.lines := by
  obtain ⟨outcome, h⟩ := deleteNode_succeeds hwell hreadable id
  have hstep : e.step d (.deleteNode id) = outcome.after d := by
    have happly : e.apply d (.deleteNode id) = .ok outcome := h
    unfold Editor.step
    rw [happly]
  rw [hstep]
  cases outcome with
  | changed d' created =>
      obtain ⟨_, _, rfl, hlines, _⟩ := deleteNode_eq_changed h
      exact hlines
  | refused problem =>
      unfold Editor.deleteNode at h
      obtain ⟨_, _, h⟩ := bind_eq_ok_iff.mp h
      dsimp only at h
      split at h
      · rename_i hnone
        rw [Bool.and_eq_true, Bool.not_eq_true', List.isEmpty_iff] at hnone
        refine (linesWithout_eq_self hnone.1 ?_).symm
        unfold positionsAt
        rw [hnone.2, List.map_nil]
      · obtain ⟨_, _, h⟩ := bind_eq_ok_iff.mp h
        cases h

/-- The lines after the deletion of some nodes, one after the other. -/
theorem lines_run_deleteNode
    {e : Editor} {d : Diagram}
    (hwell : d.IsWellFormed)
    (hreadable : IsReadable d.lines)
    (ids : List String) :
    (e.run d (ids.map Edit.deleteNode)).lines =
      ids.foldl (fun lines id => linesWithout id lines) d.lines := by
  unfold Editor.run
  induction ids generalizing d with
  | nil =>
      rfl
  | cons id ids ih =>
      have hlines := lines_step_deleteNode hwell hreadable e id
      have hwell' : (e.step d (.deleteNode id)).IsWellFormed :=
        isWellFormed_step Editor.writesLines_default hwell (.deleteNode id)
      have hreadable' : IsReadable (e.step d (.deleteNode id)).lines := by
        rw [hlines]
        exact isReadable_linesWithout hreadable id
      rw [List.map_cons, List.foldl_cons, List.foldl_cons, ih hwell' hreadable', hlines]

/--
Removing some edges and then others, under their new ranks, is removing all of them
at once.  Nodes that are deleted one after the other leave the same lines in every
order, where a deletion that is refused or fails leaves the lines as they are.
-/
theorem removals_in_any_order
    {lines : List String} {removed later both : List Nat}
    {e : Editor} {text : String} {d : Diagram} {ids ids' : List String}
    (hlines : IsReadable lines)
    (hdisjoint : ∀ q ∈ later, q ∉ removed)
    (hboth : ∀ p, p ∈ both ↔ p ∈ removed ∨ p ∈ later)
    (hd : Diagram.ofText text = .ok d)
    (hids : ids.Perm ids') :
    (IsReadable (dropEdges lines (removed.map Int.ofNat)) ∧
      dropEdges (dropEdges lines (removed.map Int.ofNat))
          ((later.map (rankAfter removed)).map Int.ofNat) =
        dropEdges lines (both.map Int.ofNat)) ∧
      (e.run d (ids.map Edit.deleteNode)).lines =
        (e.run d (ids'.map Edit.deleteNode)).lines := by
  have hread := isReading_of_ofText hd
  have hwell := isWellFormed_of_isReading hread
  have hfollows := follows_rankAfter hdisjoint
  refine ⟨⟨isReadable_dropFrom (nonneg_ofNat removed) hlines 0, ?_⟩, ?_⟩
  · refine (dropFrom_dropFrom hfollows 0 lines).trans ?_
    refine dropFrom_congr (nonneg_ofNat both) ?_ 0 lines
    intro p
    simp only [List.mem_append, List.mem_map, hboth]
    constructor
    · rintro (⟨n, hn, hp⟩ | ⟨n, hn, hp⟩)
      · exact ⟨n, Or.inl hn, hp⟩
      · exact ⟨n, Or.inr hn, hp⟩
    · rintro ⟨n, hn | hn, hp⟩
      · exact Or.inl ⟨n, hn, hp⟩
      · exact Or.inr ⟨n, hn, hp⟩
  · rw [lines_run_deleteNode hwell hread.readable, lines_run_deleteNode hwell hread.readable]
    exact hids.foldl_eq' (fun first _ second _ _ => linesWithout_comm first second _) d.lines

/--
The red line moves down twice and the index of two digits keeps the blanks before it.
Two nodes share an edge, and the one that no line mentions is not deleted.
-/
theorem removals_in_any_order_of_shared_edge :
    let lines :=
      [ "linkStyle 02 stroke:red", "A --> B", "B --> C", "\tlinkStyle  10 color:blue;",
        "C --> D", "linkStyle 1 color:green" ]
    ∃ d,
      Diagram.ofText "linkStyle 1 stroke:#ff0000\nA[x]\nA --> B\nC --> C" = .ok d ∧
      dropEdges lines ([0, 0].map Int.ofNat) =
        [ "linkStyle 1 stroke:red", "B --> C", "\tlinkStyle  9 color:blue;", "C --> D",
          "linkStyle 0 color:green" ] ∧
      dropEdges (dropEdges lines ([0, 0].map Int.ofNat))
          (([1].map (rankAfter [0, 0])).map Int.ofNat) =
        dropEdges lines ([1, 0].map Int.ofNat) ∧
      (({} : Editor).run d (["A", "Z", "B"].map Edit.deleteNode)).lines =
        ["linkStyle 0 stroke:#ff0000", "C --> C"] ∧
      (({} : Editor).run d (["A", "Z", "B"].map Edit.deleteNode)).lines =
        (({} : Editor).run d (["B", "A", "Z"].map Edit.deleteNode)).lines := by
  intro lines
  have hd :
      Diagram.ofText "linkStyle 1 stroke:#ff0000\nA[x]\nA --> B\nC --> C" =
        .ok {
          lines := ["linkStyle 1 stroke:#ff0000", "A[x]", "A --> B", "C --> C"]
          model := {
            nodes := [{ id := "A", label := "x" }, placeholder "B", placeholder "C"]
            edges := [
              { id := "edge_A_B", source := "A", target := "B" },
              { id := "edge_C_C", source := "C", target := "C",
                style := { lineColor := ⟨"#ff0000", rfl⟩ } }] } } := by
    rfl
  have hlines : checkReadable lines = .ok () := by
    rfl
  have h :=
    @removals_in_any_order lines [0, 0] [1] [1, 0] {} _ _ ["A", "Z", "B"] ["B", "A", "Z"]
      (checkReadable_eq_ok_iff.mp hlines) (by decide) (by simp [or_comm]) hd (by decide)
  exact ⟨_, hd, by decide +kernel, h.1.2, by decide +kernel, h.2⟩

end NodeDeletions

end Flowchart
