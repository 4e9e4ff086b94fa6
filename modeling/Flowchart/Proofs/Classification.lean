import Flowchart.Line
import Flowchart.Proofs.Texts

/-!
# How lines are told apart

Each kind of line has a reader of its own, and the readers are tried in a fixed
order on the core of the line.  What decides is mostly the first word and the
character after it: a header has no other characters than words, blanks,
semicolons and hyphens, and a style line goes on with a blank and a run of
characters behind its keyword.

`classify_append_of_blank`: an indentation never changes the kind of a line.
`directive?_eq_some_iff`: the exact form of style and link-style lines.
-/

namespace Flowchart
namespace Line

open Text

section Readers

/-- What the core of a line says, if it follows the pattern of some kind. -/
def kind? (cs : List Char) : Option Line :=
  ((((header? cs).orElse fun _ => style? cs).orElse fun _ => linkStyle? cs).orElse
    fun _ => edge? cs).orElse fun _ => node? cs

theorem classify_eq
    (line : String) :
    classify line = (kind? (core line.toList)).getD (other line) := by
  rfl

theorem eq_header_of_header?
    {cs : List Char} {line : Line}
    (h : header? cs = some line) :
    ∃ keyword direction, line = header keyword direction := by
  unfold header? at h
  split at h
  · rename_i found hfound
    obtain ⟨keyword, _, hkeyword⟩ := List.exists_of_findSome?_eq_some hfound
    obtain ⟨direction, _, rfl⟩ := Option.map_eq_some_iff.mp hkeyword
    cases h
    exact ⟨keyword, direction, rfl⟩
  · obtain ⟨keyword, _, rfl⟩ := Option.map_eq_some_iff.mp h
    exact ⟨keyword, none, rfl⟩

theorem eq_style_of_style?
    {cs : List Char} {line : Line}
    (h : style? cs = some line) :
    ∃ id properties, line = style id properties := by
  obtain ⟨⟨id, properties⟩, _, rfl⟩ := Option.map_eq_some_iff.mp h
  exact ⟨_, _, rfl⟩

theorem eq_linkStyle_or_overlong_of_linkStyle?
    {cs : List Char} {line : Line}
    (h : linkStyle? cs = some line) :
    (∃ digits, line = overlong digits) ∨
      ∃ index properties, line = linkStyle index properties := by
  obtain ⟨⟨digits, properties⟩, _, hline⟩ := Option.map_eq_some_iff.mp h
  dsimp only at hline
  split at hline
  · exact Or.inl ⟨_, hline.symm⟩
  · exact Or.inr ⟨_, _, hline.symm⟩

theorem eq_edge_of_edge?
    {cs : List Char} {line : Line}
    (h : edge? cs = some line) :
    ∃ e, line = edge e := by
  obtain ⟨⟨source, suffix, arrowEnd⟩, _, hline⟩ := Option.bind_eq_some_iff.mp h
  dsimp only at hline
  split at hline
  · cases hline
    exact ⟨_, rfl⟩
  · simp at hline

theorem eq_node_of_node?
    {cs : List Char} {line : Line}
    (h : node? cs = some line) :
    ∃ id body, line = node id body := by
  unfold node? at h
  split at h
  · simp at h
  · split at h
    · cases h
      exact ⟨_, _, rfl⟩
    · simp at h

/-- A known line has exactly one of the five patterns, and none of the patterns before it. -/
theorem kind?_cases
    {cs : List Char} {line : Line}
    (h : kind? cs = some line) :
    header? cs = some line ∨
    (header? cs = none ∧ style? cs = some line) ∨
    (header? cs = none ∧ style? cs = none ∧ linkStyle? cs = some line) ∨
    (header? cs = none ∧ style? cs = none ∧ linkStyle? cs = none ∧
      edge? cs = some line) ∨
    (header? cs = none ∧ style? cs = none ∧ linkStyle? cs = none ∧
      edge? cs = none ∧ node? cs = some line) := by
  unfold kind? at h
  cases hheader : header? cs <;> cases hstyle : style? cs <;>
    cases hlink : linkStyle? cs <;> cases hedge : edge? cs <;> simp_all

theorem kind?_of_classify
    {line : String} {kind : Line}
    (h : classify line = kind)
    (hother : ∀ text, kind ≠ other text) :
    kind? (core line.toList) = some kind := by
  rw [classify_eq] at h
  cases hkind : kind? (core line.toList) with
  | none =>
      rw [hkind] at h
      exact absurd h.symm (hother line)
  | some found =>
      rw [hkind] at h
      exact congrArg some h

/-- The reader of the lines of a kind. -/
def reader? : Line → List Char → Option Line
  | header _ _ => header?
  | style _ _ => style?
  | linkStyle _ _ => linkStyle?
  | overlong _ => linkStyle?
  | edge _ => edge?
  | node _ _ => node?
  | other _ => fun _ => none

/-- A line of a known kind was read by the reader of that kind. -/
theorem reader?_of_classify
    {line : String} {kind : Line}
    (h : classify line = kind)
    (hother : ∀ text, kind ≠ other text) :
    kind.reader? (core line.toList) = some kind := by
  have hkind := kind?_of_classify h hother
  rcases kind?_cases hkind with h | ⟨_, h⟩ | ⟨_, _, h⟩ | ⟨_, _, _, h⟩ | ⟨_, _, _, _, h⟩
  · obtain ⟨keyword, direction, rfl⟩ := eq_header_of_header? h
    exact h
  · obtain ⟨id, properties, rfl⟩ := eq_style_of_style? h
    exact h
  · rcases eq_linkStyle_or_overlong_of_linkStyle? h with ⟨digits, rfl⟩ | ⟨index, ps, rfl⟩
    · exact h
    · exact h
  · obtain ⟨e, rfl⟩ := eq_edge_of_edge? h
    exact h
  · obtain ⟨id, body, rfl⟩ := eq_node_of_node? h
    exact h

end Readers

section Core

theorem core_append_of_blank
    {indent : List Char}
    (h : ∀ c ∈ indent, isBlank c = true)
    (cs : List Char) :
    core (indent ++ cs) = core cs := by
  unfold core
  rw [trim_append_of_blank h]

theorem core_trimStart
    (cs : List Char) :
    core (trimStart cs) = core cs := by
  have hsplit : cs.takeWhile isBlank ++ trimStart cs = cs :=
    List.takeWhile_append_dropWhile
  have hblank : ∀ c ∈ cs.takeWhile isBlank, isBlank c = true :=
    fun c hc => of_mem_takeWhile hc
  rw [← core_append_of_blank hblank (trimStart cs), hsplit]

theorem core_eq
    (cs : List Char) :
    core cs =
      if (trim cs).getLast? = some ';' then trimEnd (trim cs).dropLast else trim cs := by
  unfold core
  split
  · rename_i rest hrest
    have htrim : trim cs = rest.reverse ++ [';'] := by
      rw [← List.reverse_reverse (trim cs), hrest, List.reverse_cons]
    simp [htrim]
  · rename_i hrest
    split
    · rename_i hlast
      obtain ⟨front, hfront⟩ := List.getLast?_eq_some_iff.mp hlast
      exact absurd (by rw [hfront]; simp) (hrest front.reverse)
    · rfl

/-- The core of a line stands at the start of the line without its indentation. -/
theorem prefix_core
    (cs : List Char) :
    core cs <+: trimStart cs := by
  have htrim : trim cs <+: trimStart cs := prefix_trimEnd _
  have hlast : (trim cs).dropLast <+: trim cs := List.dropLast_prefix _
  rw [core_eq]
  split
  · exact (prefix_trimEnd _).trans (hlast.trans htrim)
  · exact htrim

/--
Where the core of a text reaches beyond a front part, another front part takes its
place without an effect on the rest of the core.
-/
theorem core_append_congr
    {front front' back rest : List Char}
    (hfront : front ≠ [] ∧ StartsTight front)
    (hfront' : front' ≠ [] ∧ StartsTight front')
    (hrest : rest ≠ [])
    (h : core (front ++ back) = front ++ rest) :
    core (front' ++ back) = front' ++ rest := by
  have hlength : front.length < (core (front ++ back)).length := by
    rw [h, List.length_append]
    have := List.length_pos_iff.mpr hrest
    omega
  have htrim :
      ∀ {f : List Char}, f ≠ [] ∧ StartsTight f → trim (f ++ back) = trimEnd (f ++ back) := by
    intro f hf
    unfold trim
    rw [trimStart_eq_self (startsTight_append hf.1 hf.2)]
  rw [core_eq, htrim hfront, trimEnd_append] at h hlength
  rw [core_eq, htrim hfront', trimEnd_append]
  by_cases hback : trimEnd back = []
  · rw [if_pos hback] at hlength
    have hprefix := (prefix_trimEnd front).length_le
    split at hlength
    · have hprefix' := (prefix_trimEnd (trimEnd front).dropLast).length_le
      rw [List.length_dropLast] at hprefix'
      omega
    · omega
  · rw [if_neg hback, getLast?_append_of_ne_nil hback, List.dropLast_append_of_ne_nil hback]
      at h hlength
    rw [if_neg hback, getLast?_append_of_ne_nil hback, List.dropLast_append_of_ne_nil hback]
    by_cases hlast : (trimEnd back).getLast? = some ';'
    · rw [if_pos hlast, trimEnd_append] at h hlength
      rw [if_pos hlast, trimEnd_append]
      by_cases htail : trimEnd (trimEnd back).dropLast = []
      · rw [if_pos htail] at hlength
        have hprefix := (prefix_trimEnd front).length_le
        omega
      · rw [if_neg htail] at h
        rw [if_neg htail, List.append_cancel_left h]
    · rw [if_neg hlast] at h
      rw [if_neg hlast, List.append_cancel_left h]

/-- The core of a text that starts tight and ends with neither a blank nor a semicolon. -/
theorem core_eq_self
    {cs : List Char}
    (hstart : StartsTight cs)
    (hend : ∀ c ∈ cs.getLast?, isBlank c = false ∧ c ≠ ';') :
    core cs = cs := by
  have htrim : trim cs = cs := trim_eq_self hstart fun c hc => (hend c hc).1
  unfold core
  rw [htrim]
  split
  · rename_i rest hrest
    have hlast : ';' ∈ cs.getLast? := by
      rw [Option.mem_def, ← List.head?_reverse, hrest]
      rfl
    exact absurd rfl (hend ';' hlast).2
  · rfl

/-- An indentation changes nothing but the text of a line that is not understood. -/
theorem classify_append_of_blank
    {indent : String}
    (h : ∀ c ∈ indent.toList, isBlank c = true)
    (line : String) :
    classify (indent ++ line) = (kind? (core line.toList)).getD (other (indent ++ line)) := by
  rw [classify_eq, String.toList_append, core_append_of_blank h]

theorem classify_of_kind?
    {indent line : String} {kind : Line}
    (h : ∀ c ∈ indent.toList, isBlank c = true)
    (hkind : kind? (core line.toList) = some kind) :
    classify (indent ++ line) = kind := by
  rw [classify_append_of_blank h, hkind]
  rfl

/-- Two indentations of a line of a known kind make lines of the same kind. -/
theorem classify_indent_eq
    {indent indent' line : String} {kind : Line}
    (h : ∀ c ∈ indent.toList, isBlank c = true)
    (h' : ∀ c ∈ indent'.toList, isBlank c = true)
    (hkind : classify (indent ++ line) = kind)
    (hother : ∀ text, kind ≠ other text) :
    classify (indent' ++ line) = kind := by
  have hread := kind?_of_classify hkind hother
  rw [String.toList_append, core_append_of_blank h] at hread
  exact classify_of_kind? h' hread

theorem classify_of_isBlankLine
    {line : String}
    (h : isBlankLine line = true) :
    classify line = other line := by
  have hblank : ∀ c ∈ line.toList, isBlank c = true := List.all_eq_true.mp h
  have hcore : core line.toList = [] := by
    unfold core trim
    rw [trimStart_eq_nil hblank]
    rfl
  rw [classify_eq, hcore]
  rfl

end Core

section Headers

/-- The characters of headers: words, blanks, and the two signs that may stand in one. -/
def isHeaderChar (c : Char) : Bool :=
  isWord c || isBlank c || c == ';' || c == '-'

/-- Blanks at the start do not matter for the characters of a header. -/
theorem isHeaderChar_of_trimStart
    {cs : List Char}
    (h : ∀ c ∈ trimStart cs, isHeaderChar c = true) :
    ∀ c ∈ cs, isHeaderChar c = true := by
  intro c hc
  rw [← List.takeWhile_append_dropWhile (p := isBlank) (l := cs)] at hc
  rcases List.mem_append.mp hc with hc | hc
  · have hblank := of_mem_takeWhile hc
    simp [isHeaderChar, hblank]
  · exact h c hc

theorem isHeaderChar_of_isHeaderEnd
    {cs : List Char}
    (h : isHeaderEnd cs = true) :
    ∀ c ∈ cs, isHeaderChar c = true := by
  apply isHeaderChar_of_trimStart
  unfold isHeaderEnd at h
  intro c hc
  split at h
  · rename_i hnil
    rw [hnil] at hc
    simp at hc
  · rename_i d hd
    rw [hd, List.mem_singleton] at hc
    rw [hc]
    simp only [beq_iff_eq] at h
    simp [isHeaderChar, h]
  · simp at h

theorem isHeaderChar_of_direction?
    {cs : List Char} {direction : Option String}
    (h : direction? cs = some direction) :
    ∀ c ∈ cs, isHeaderChar c = true := by
  unfold direction? at h
  split at h
  · rename_i hend
    exact isHeaderChar_of_isHeaderEnd hend
  · cases cs with
    | nil =>
        simp at h
    | cons first rest =>
        dsimp only at h
        split at h
        · obtain ⟨d, hd, _⟩ := Option.map_eq_some_iff.mp h
          have hafter := List.find?_some hd
          cases hrest : after? d.toList (trimStart (first :: rest)) with
          | none =>
              simp [hrest] at hafter
          | some tail =>
              have htail : isHeaderEnd tail = true := by simpa [hrest] using hafter
              have hall : directions.all (·.toList.all isHeaderChar) = true := by
                decide
              have hd' := List.all_eq_true.mp hall d (List.mem_of_find?_eq_some hd)
              apply isHeaderChar_of_trimStart
              intro c hc
              rw [after?_eq_some_iff.mp hrest] at hc
              rcases List.mem_append.mp hc with hc | hc
              · exact List.all_eq_true.mp hd' c hc
              · exact isHeaderChar_of_isHeaderEnd htail c hc
        · simp at h

theorem isHeaderChar_of_header?
    {cs : List Char} {line : Line}
    (h : header? cs = some line) :
    ∀ c ∈ cs, isHeaderChar c = true := by
  unfold header? at h
  split at h
  · rename_i found hfound
    obtain ⟨keyword, hkeyword, hread⟩ := List.exists_of_findSome?_eq_some hfound
    obtain ⟨direction, hdirection, _⟩ := Option.map_eq_some_iff.mp hread
    obtain ⟨tail, htail, hdirection⟩ := Option.bind_eq_some_iff.mp hdirection
    have hall : ["flowchart", "graph"].all (·.toList.all isHeaderChar) = true := by
      decide
    have hkeyword' := List.all_eq_true.mp hall keyword hkeyword
    intro c hc
    rw [after?_eq_some_iff.mp htail] at hc
    rcases List.mem_append.mp hc with hc | hc
    · exact List.all_eq_true.mp hkeyword' c hc
    · exact isHeaderChar_of_direction? hdirection c hc
  · obtain ⟨keyword, hkeyword, _⟩ := Option.map_eq_some_iff.mp h
    have hall : otherKeywords.all (·.toList.all isHeaderChar) = true := by
      decide
    have hkeyword' := List.all_eq_true.mp hall keyword (List.mem_of_find?_eq_some hkeyword)
    have heq := List.find?_some hkeyword
    rw [beq_iff_eq.mp heq] at hkeyword'
    exact List.all_eq_true.mp hkeyword'

theorem header?_eq_none_of_mem
    {cs : List Char} {c : Char}
    (hmem : c ∈ cs)
    (hc : isHeaderChar c = false) :
    header? cs = none := by
  cases h : header? cs with
  | none =>
      rfl
  | some line =>
      rw [isHeaderChar_of_header? h c hmem] at hc
      exact absurd hc (by decide)

end Headers

section Directives

/-- The parts of a style line after its keyword: blanks, a run, blanks, and the rest. -/
structure IsDirective (inRun : Char → Bool) (gap run gap' rest : List Char) : Prop where
  gap_blank : ∀ c ∈ gap, isBlank c = true
  gap_ne_nil : gap ≠ []
  run_all : ∀ c ∈ run, inRun c = true
  run_ne_nil : run ≠ []
  gap'_blank : ∀ c ∈ gap', isBlank c = true
  gap'_ne_nil : gap' ≠ []
  rest_tight : StartsTight rest
  rest_ne_nil : rest ≠ []
  rest_oneLine : '\n' ∉ rest

theorem IsDirective.startsTight_run
    {inRun : Char → Bool} {gap run gap' rest : List Char}
    (h : IsDirective inRun gap run gap' rest)
    (hblank : ∀ c, isBlank c = true → inRun c = false) :
    StartsTight (run ++ gap' ++ rest) := by
  obtain ⟨c, run, rfl⟩ := List.exists_cons_of_ne_nil h.run_ne_nil
  intro d hd
  have hdc : d = c := by simpa using hd.symm
  subst hdc
  cases hb : isBlank d with
  | false =>
      rfl
  | true =>
      have hrun := h.run_all d List.mem_cons_self
      rw [hblank d hb] at hrun
      exact hrun.symm

/-- The exact form of a style line, for runs in which no blank may stand. -/
theorem directive?_eq_some_iff
    {keyword : String} {inRun : Char → Bool} {cs run rest : List Char}
    (hblank : ∀ c, isBlank c = true → inRun c = false) :
    directive? keyword inRun cs = some (run, rest) ↔
      ∃ gap gap',
        cs = keyword.toList ++ (gap ++ (run ++ gap' ++ rest)) ∧
        IsDirective inRun gap run gap' rest := by
  constructor
  · intro h
    obtain ⟨afterKeyword, hafter, h⟩ := Option.bind_eq_some_iff.mp h
    dsimp only at h
    split at h
    · rename_i hcond
      simp only [Bool.and_eq_true, decide_eq_true_eq, Bool.not_eq_true',
        List.isEmpty_eq_false_iff, List.contains_eq_mem, decide_eq_false_iff_not] at hcond
      obtain ⟨⟨⟨⟨hgap, hrun⟩, hgap'⟩, hrest⟩, hline⟩ := hcond
      simp only [Option.some.injEq, Prod.mk.injEq] at h
      obtain ⟨rfl, rfl⟩ := h
      have hbody :
          afterKeyword.takeWhile isBlank ++ trimStart afterKeyword = afterKeyword :=
        List.takeWhile_append_dropWhile
      have hbody' :
          (trimStart afterKeyword).takeWhile inRun ++
            (trimStart afterKeyword).dropWhile inRun = trimStart afterKeyword :=
        List.takeWhile_append_dropWhile
      have hafterRun :
          ((trimStart afterKeyword).dropWhile inRun).takeWhile isBlank ++
            trimStart ((trimStart afterKeyword).dropWhile inRun) =
              (trimStart afterKeyword).dropWhile inRun :=
        List.takeWhile_append_dropWhile
      refine ⟨afterKeyword.takeWhile isBlank,
        ((trimStart afterKeyword).dropWhile inRun).takeWhile isBlank, ?_, ?_⟩
      · rw [List.append_assoc, hafterRun, hbody', hbody]
        exact after?_eq_some_iff.mp hafter
      · constructor
        · exact fun c hc => of_mem_takeWhile hc
        · intro hnil
          rw [hnil, List.nil_append] at hbody
          rw [hbody] at hgap
          exact Nat.lt_irrefl _ hgap
        · exact fun c hc => of_mem_takeWhile hc
        · exact hrun
        · exact fun c hc => of_mem_takeWhile hc
        · intro hnil
          rw [hnil, List.nil_append] at hafterRun
          rw [hafterRun] at hgap'
          exact Nat.lt_irrefl _ hgap'
        · exact fun c hc => head?_dropWhile hc
        · exact hrest
        · exact hline
    · simp at h
  · rintro ⟨gap, gap', rfl, h⟩
    have hbody : trimStart (gap ++ (run ++ gap' ++ rest)) = run ++ gap' ++ rest := by
      rw [trimStart_append_of_blank h.gap_blank]
      exact trimStart_eq_self (h.startsTight_run hblank)
    have hstop : ∀ c ∈ (gap' ++ rest).head?, inRun c = false :=
      head?_append_stops h.gap'_ne_nil (fun c hc => hblank c (h.gap'_blank c hc)) rest
    have hrun : (run ++ gap' ++ rest).takeWhile inRun = run := by
      rw [List.append_assoc]
      exact takeWhile_append_of_stop h.run_all hstop
    have hafterRun : (run ++ gap' ++ rest).dropWhile inRun = gap' ++ rest := by
      rw [List.append_assoc]
      exact dropWhile_append_of_stop h.run_all hstop
    have hrest : trimStart (gap' ++ rest) = rest := by
      rw [trimStart_append_of_blank h.gap'_blank]
      exact trimStart_eq_self h.rest_tight
    have hgap := List.length_pos_iff.mpr h.gap_ne_nil
    have hgap' := List.length_pos_iff.mpr h.gap'_ne_nil
    unfold directive?
    rw [after?_eq_some_iff.mpr rfl]
    simp only [Option.bind_eq_bind, Option.bind_some, hbody, hrun, hafterRun, hrest]
    simp [h.run_ne_nil, h.rest_ne_nil, h.rest_oneLine, hgap, hgap']

/--
A line that starts with a word is no style line unless its next character that is
not blank may stand in the run behind the keyword.  The keyword lies within the word,
since what follows the word is no word character.
-/
theorem directive?_eq_none
    {keyword : String} {inRun : Char → Bool} {word rest : List Char}
    (hkeyword : ∀ c ∈ keyword.toList, isWord c = true)
    (hword : ∀ c ∈ word, isWord c = true)
    (hrest : ∀ c ∈ rest.head?, isWord c = false)
    (hrun : ∀ c ∈ (trimStart rest).head?, inRun c = false) :
    directive? keyword inRun (word ++ rest) = none := by
  unfold directive?
  cases hafter : after? keyword.toList (word ++ rest) with
  | none =>
      rfl
  | some afterKeyword =>
      have heq := after?_eq_some_iff.mp hafter
      obtain ⟨more, hmore⟩ : ∃ more, word = keyword.toList ++ more := by
        rcases List.append_eq_append_iff.mp heq with ⟨more, hk, hr⟩ | ⟨more, hw, _⟩
        · cases more with
          | nil =>
              exact ⟨[], by simpa using hk.symm⟩
          | cons c more =>
              have hc : isWord c = true := hkeyword c (by rw [hk]; simp)
              rw [hrest c (by rw [hr]; rfl)] at hc
              exact absurd hc (by decide)
        · exact ⟨more, hw⟩
      subst hmore
      rw [List.append_assoc] at heq
      have hafterKeyword : afterKeyword = more ++ rest := (List.append_cancel_left heq).symm
      subst hafterKeyword
      cases more with
      | nil =>
          have hnil : (trimStart rest).takeWhile inRun = [] := by
            cases hbody : trimStart rest with
            | nil =>
                rfl
            | cons c body =>
                have hc := hrun c (by rw [hbody]; rfl)
                simp [hc]
          simp only [List.nil_append, Option.bind_eq_bind, Option.bind_some, hnil,
            List.isEmpty_nil, Bool.not_true, Bool.and_false, Bool.false_and,
            Bool.false_eq_true, if_false]
      | cons c more =>
          have htight : trimStart (c :: more ++ rest) = c :: more ++ rest := by
            apply trimStart_eq_self
            exact head?_cons_stops (isBlank_of_isWord (hword c (by simp))) _
          rw [List.cons_append] at htight
          simp [htight]

end Directives

end Line
end Flowchart
