import Flowchart.Proofs.Classification
import Flowchart.Proofs.ShapeCoding

/-!
# How edge lines are written

An edge line is two ends with an arrow between them, and a label between bars if
the edge has one.  An end is an id, alone or with known brackets behind it; blanks
may stand around the arrow and the label, and around the line a semicolon as well.

Each reader of a part of an edge line is described by an `iff`, so both directions
follow from the same lemmas: what is read is written so, and what is written so is
read.  Only the brackets of the source leave a choice.  They end at the first arrow
with a well-formed end behind it, so brackets that hold no arrow are read whole.

Main result: `edge_lines_follow_grammar`.
-/

namespace Flowchart

open Text

/-- An end of an edge: an id, and the brackets behind it if there are any. -/
structure EdgeEnd where
  id : List Char
  suffix : List Char

/-- An end as it stands in a line. -/
def EdgeEnd.text (e : EdgeEnd) : List Char := e.id ++ e.suffix

/-- An end is an id, alone or with the brackets of some shape. -/
structure EdgeEnd.IsWritten (e : EdgeEnd) : Prop where
  id : isIdentifier e.id = true
  suffix : e.suffix = [] ∨ (Shape.enclosing? e.suffix).isSome = true

/-- Everything that is written in an edge line. -/
structure EdgeWriting where
  indent : List Char
  source : EdgeEnd
  beforeArrow : List Char
  afterArrow : List Char
  label : Option (List Char)
  beforeTarget : List Char
  target : EdgeEnd
  beforeSemicolon : List Char
  semicolon : Bool
  trail : List Char

namespace EdgeWriting

/-- A label between bars, or nothing if there is none. -/
def bars : Option (List Char) → List Char
  | none => []
  | some label => '|' :: (label ++ ['|'])

/-- What stands behind the arrow. -/
def afterwards (w : EdgeWriting) : List Char :=
  w.afterArrow ++ (bars w.label ++ (w.beforeTarget ++ w.target.text))

/-- The line from its first end to its last one. -/
def core (w : EdgeWriting) : List Char :=
  w.source.text ++ (w.beforeArrow ++ (Line.arrow ++ w.afterwards))

/-- The line as a whole. -/
def line (w : EdgeWriting) : String :=
  String.ofList
    (w.indent ++ (w.core ++
      (w.beforeSemicolon ++ ((if w.semicolon then [';'] else []) ++ w.trail))))

/-- The edge line that is written. -/
def edge (w : EdgeWriting) : EdgeLine where
  source := String.ofList w.source.id
  target := String.ofList w.target.id
  label := w.label.map String.ofList
  sourceText := String.ofList w.source.text
  targetText := String.ofList w.target.text

/-- The parts are what they are meant to be; a label cannot hold the bar that ends it. -/
structure IsWritten (w : EdgeWriting) : Prop where
  source : w.source.IsWritten
  target : w.target.IsWritten
  label : ∀ label ∈ w.label, '|' ∉ label
  indent : AreBlank w.indent
  beforeArrow : AreBlank w.beforeArrow
  afterArrow : AreBlank w.afterArrow
  beforeTarget : AreBlank w.beforeTarget
  beforeSemicolon : AreBlank w.beforeSemicolon
  trail : AreBlank w.trail

/-- The brackets break no line, and those of the source hold no other arrow. -/
structure HasPlainBrackets (w : EdgeWriting) : Prop where
  source_oneLine : '\n' ∉ w.source.suffix
  source_noArrow : ¬ Line.arrow <:+: w.source.suffix
  target_oneLine : '\n' ∉ w.target.suffix

end EdgeWriting

namespace Line

section BehindArrow

/-- What can stand behind an id without being a part of it: brackets up to the end of the line. -/
structure IsOpened (suffix : List Char) : Prop where
  opens : ∀ c ∈ suffix.head?, Shape.opens c = true
  oneLine : '\n' ∉ suffix

/-- The signs with which brackets start are neither word characters nor digits nor blanks. -/
theorem of_opens
    {c : Char}
    (h : Shape.opens c = true) :
    isWord c = false ∧ isDigit c = false ∧ isBlank c = false := by
  have hall :
      Shape.openers.all (fun c => !isWord c && !isDigit c && !isBlank c) = true := by
    decide
  have hc := List.all_eq_true.mp hall c ((Shape.opens_iff_mem_openers c).mp h)
  simpa [and_assoc] using hc

/-- The first word of a text is an id and stops at what is no word character. -/
theorem word_eq_iff
    {cs id rest : List Char} :
    word cs = (id, rest) ↔
      cs = id ++ rest ∧ (∀ c ∈ id, isWord c = true) ∧ ∀ c ∈ rest.head?, isWord c = false := by
  constructor
  · intro h
    obtain ⟨rfl, rfl⟩ := Prod.mk.inj h
    exact ⟨(word_append cs).symm, fun c hc => of_mem_takeWhile hc, fun c hc => head?_dropWhile hc⟩
  · rintro ⟨rfl, hid, hrest⟩
    exact Prod.ext (takeWhile_append_of_stop hid hrest) (dropWhile_append_of_stop hid hrest)

theorem startsTight_end
    {id : List Char}
    (hid : isIdentifier id = true)
    (suffix : List Char) :
    StartsTight (id ++ suffix) :=
  startsTight_append (isIdentifier_iff.mp hid).1 (startsTight_of_isIdentifier hid)

/-- The target of an arrow is one id behind blanks, and what is opened behind it. -/
theorem target?_eq_some_iff
    {label : Option (List Char)} {cs : List Char} {arrowEnd : ArrowEnd} :
    target? label cs = some arrowEnd ↔
      arrowEnd.label = label ∧ isIdentifier arrowEnd.target = true ∧
        IsOpened arrowEnd.suffix ∧
        ∃ gap, AreBlank gap ∧ cs = gap ++ (arrowEnd.target ++ arrowEnd.suffix) := by
  constructor
  · intro h
    unfold target? at h
    split at h
    · cases h
    · rename_i target hne hword
      obtain ⟨hsplit, hid, _⟩ := word_eq_iff.mp hword
      cases h
      obtain ⟨_, hgap⟩ := trimStart_eq_iff.mp hsplit
      exact ⟨rfl, isIdentifier_iff.mpr ⟨hne, hid⟩, ⟨nofun, List.not_mem_nil⟩, hgap⟩
    · rename_i target c rest hne hword
      obtain ⟨hsplit, hid, _⟩ := word_eq_iff.mp hword
      split at h
      · rename_i hcond
        simp only [Bool.and_eq_true, Bool.not_eq_true', List.contains_eq_mem,
          decide_eq_false_iff_not] at hcond
        cases h
        obtain ⟨_, hgap⟩ := trimStart_eq_iff.mp hsplit
        refine ⟨rfl, isIdentifier_iff.mpr ⟨hne, hid⟩, ⟨?_, ?_⟩, hgap⟩
        · rintro d ⟨⟩
          exact hcond.1
        · rintro (_ | ⟨_, hmem⟩)
          · exact absurd hcond.1 (by decide)
          · exact hcond.2 hmem
      · cases h
  · obtain ⟨label', target, suffix⟩ := arrowEnd
    rintro ⟨rfl, hid, hsuffix, gap, hgap, rfl⟩
    dsimp only at hid hsuffix
    obtain ⟨hne, hall⟩ := isIdentifier_iff.mp hid
    have hword : word (trimStart (gap ++ (target ++ suffix))) = (target, suffix) := by
      rw [trimStart_eq_iff.mpr ⟨startsTight_end hid suffix, gap, hgap, rfl⟩, word_eq_iff]
      exact ⟨rfl, hall, fun c hc => (of_opens (hsuffix.opens c hc)).1⟩
    obtain ⟨first, target, rfl⟩ := List.exists_cons_of_ne_nil hne
    unfold target?
    rw [hword]
    cases suffix with
    | nil =>
        rfl
    | cons c suffix =>
        have hopens : Shape.opens c = true := hsuffix.opens c rfl
        have hline : '\n' ∉ suffix := fun hmem => hsuffix.oneLine (List.mem_cons_of_mem c hmem)
        simp [hopens, hline]

/-- Behind an arrow stand a label between bars or no bar at all, and then the target. -/
theorem arrowEnd?_eq_some_iff
    {cs : List Char} {arrowEnd : ArrowEnd} :
    arrowEnd? cs = some arrowEnd ↔
      (∀ label ∈ arrowEnd.label, '|' ∉ label) ∧ isIdentifier arrowEnd.target = true ∧
        IsOpened arrowEnd.suffix ∧
        ∃ gap gap', AreBlank gap ∧ AreBlank gap' ∧
          cs = gap ++ (EdgeWriting.bars arrowEnd.label ++
            (gap' ++ (arrowEnd.target ++ arrowEnd.suffix))) := by
  constructor
  · intro h
    unfold arrowEnd? at h
    split at h
    · rename_i rest hstart
      obtain ⟨_, gap, hgap, rfl⟩ := trimStart_eq_iff.mp hstart
      split at h
      · rename_i label rest' hcut
        obtain ⟨rfl, hlabel⟩ := cut_eq_some_iff.mp hcut
        obtain ⟨hsame, hid, hsuffix, gap', hgap', rfl⟩ := target?_eq_some_iff.mp h
        rw [hsame]
        refine ⟨?_, hid, hsuffix, gap, gap', hgap, hgap', ?_⟩
        · rintro _ ⟨⟩
          exact hlabel
        · simp [EdgeWriting.bars]
      · cases h
    · obtain ⟨hsame, hid, hsuffix, gap, hgap, hrest⟩ := target?_eq_some_iff.mp h
      obtain ⟨_, gap', hgap', hcs⟩ := trimStart_eq_iff.mp hrest
      rw [hsame]
      exact ⟨nofun, hid, hsuffix, gap', gap, hgap', hgap, hcs⟩
  · obtain ⟨label, target, suffix⟩ := arrowEnd
    rintro ⟨hlabel, hid, hsuffix, gap, gap', hgap, hgap', rfl⟩
    dsimp only at hlabel hid hsuffix
    have htarget :
        ∀ l, target? l (gap' ++ (target ++ suffix)) = some ⟨l, target, suffix⟩ := fun l =>
      target?_eq_some_iff.mpr ⟨rfl, hid, hsuffix, gap', hgap', rfl⟩
    unfold arrowEnd?
    cases label with
    | none =>
        have hnobar : ∀ rest, target ++ suffix ≠ '|' :: rest := by
          obtain ⟨c, target, rfl⟩ :=
            List.exists_cons_of_ne_nil (isIdentifier_iff.mp hid).1
          rintro rest ⟨⟩
          exact absurd List.mem_cons_self (not_mem_of_isIdentifier hid (by decide))
        have hstart :
            trimStart (gap ++ ([] ++ (gap' ++ (target ++ suffix)))) = target ++ suffix := by
          rw [List.nil_append, trimStart_append_of_blank hgap, trimStart_append_of_blank hgap',
            trimStart_eq_self (startsTight_end hid suffix)]
        rw [EdgeWriting.bars, hstart]
        split
        · rename_i rest hrest
          exact absurd hrest (hnobar rest)
        · exact target?_eq_some_iff.mpr ⟨rfl, hid, hsuffix, [], nofun, rfl⟩
    | some label =>
        have hstart :
            trimStart (gap ++ ('|' :: (label ++ ['|']) ++ (gap' ++ (target ++ suffix)))) =
              '|' :: (label ++ '|' :: (gap' ++ (target ++ suffix))) := by
          rw [trimStart_append_of_blank hgap]
          simp only [List.cons_append, List.append_assoc, List.nil_append]
          exact trimStart_eq_self (head?_cons_stops (by decide) _)
        have hcut :
            cut '|' (label ++ '|' :: (gap' ++ (target ++ suffix))) =
              (label, some (gap' ++ (target ++ suffix))) :=
          cut_eq_some_iff.mpr ⟨rfl, hlabel label rfl⟩
        rw [EdgeWriting.bars, hstart]
        simp only [hcut]
        exact htarget (some label)

theorem startsTight_arrow
    (rest : List Char) :
    StartsTight (arrow ++ rest) :=
  head?_cons_stops (by decide) _

/-- An arrow stands behind blanks, and its end behind it. -/
theorem arrow?_eq_some_iff
    {cs : List Char} {arrowEnd : ArrowEnd} :
    arrow? cs = some arrowEnd ↔
      ∃ gap rest, AreBlank gap ∧ cs = gap ++ (arrow ++ rest) ∧ arrowEnd? rest = some arrowEnd := by
  unfold arrow?
  rw [Option.bind_eq_some_iff]
  constructor
  · rintro ⟨rest, hafter, hend⟩
    obtain ⟨_, gap, hgap, hcs⟩ := trimStart_eq_iff.mp (after?_eq_some_iff.mp hafter)
    exact ⟨gap, rest, hgap, hcs, hend⟩
  · rintro ⟨gap, rest, hgap, rfl, hend⟩
    refine ⟨rest, after?_eq_some_iff.mpr ?_, hend⟩
    rw [trimStart_append_of_blank hgap]
    exact trimStart_eq_self (startsTight_arrow rest)

end BehindArrow

section BeforeArrow

/-- An arrow with a well-formed end stands behind the brackets that are read. -/
theorem untilArrow?_spec
    {cs suffix : List Char} {arrowEnd : ArrowEnd}
    (h : untilArrow? cs = some (suffix, arrowEnd)) :
    '\n' ∉ suffix ∧ ∃ rest, cs = suffix ++ rest ∧ arrow? rest = some arrowEnd := by
  induction cs generalizing suffix with
  | nil =>
      cases h
  | cons c cs ih =>
      unfold untilArrow? at h
      split at h
      · rename_i found hfound
        cases h
        exact ⟨List.not_mem_nil, c :: cs, rfl, hfound⟩
      · split at h
        · cases h
        · rename_i hc
          obtain ⟨⟨suffix', found⟩, hfound, hpair⟩ := Option.map_eq_some_iff.mp h
          cases hpair
          obtain ⟨hline, rest, rfl, harrow⟩ := ih hfound
          refine ⟨?_, rest, rfl, harrow⟩
          rintro (_ | ⟨_, hmem⟩)
          · exact hc rfl
          · exact hline hmem

/-- Brackets are read up to an arrow if no reading of the arrow starts within them. -/
theorem untilArrow?_append
    {suffix rest : List Char} {arrowEnd : ArrowEnd}
    (hline : '\n' ∉ suffix)
    (hnone : ∀ tail, tail ≠ [] → tail <:+ suffix → arrow? (tail ++ rest) = none)
    (harrow : arrow? rest = some arrowEnd) :
    untilArrow? (suffix ++ rest) = some (suffix, arrowEnd) := by
  induction suffix with
  | nil =>
      cases rest with
      | nil =>
          cases harrow
      | cons c rest =>
          simp only [List.nil_append, untilArrow?, harrow]
  | cons c suffix ih =>
      rw [List.mem_cons, not_or] at hline
      have hfirst : arrow? (c :: (suffix ++ rest)) = none :=
        hnone (c :: suffix) (List.cons_ne_nil c suffix) List.suffix_rfl
      have hrest :=
        ih hline.2 fun tail hne htail => hnone tail hne (htail.trans (List.suffix_cons c suffix))
      simp only [List.cons_append, untilArrow?, hfirst, hrest, Ne.symm hline.1, if_false,
        Option.map_some]

/-- No proper part of an arrow from its start on ends with anything but its first sign. -/
theorem eq_arrow_of_prefix
    {cs : List Char}
    (hne : cs ≠ [])
    (hlast : ∀ c ∈ cs.getLast?, c ≠ '-')
    (h : cs <+: arrow) :
    cs = arrow := by
  obtain ⟨back, hback⟩ := h
  match cs, hback with
  | [_], hback =>
      cases hback
      exact absurd rfl (hlast '-' rfl)
  | [_, _], hback =>
      cases hback
      exact absurd rfl (hlast '-' rfl)
  | [_, _, _], hback =>
      cases hback
      rfl
  | _ :: _ :: _ :: _ :: _, hback =>
      cases hback

/--
No reading of an arrow starts within brackets that hold none: what is left of them
behind blanks is not empty, and its last sign is not one that an arrow goes on with.
So an arrow there would end within the brackets, or start behind them.
-/
theorem arrow?_append_eq_none
    {tail rest : List Char}
    (hne : tail ≠ [])
    (hlast : ∀ c ∈ tail.getLast?, isBlank c = false ∧ c ≠ '-')
    (hnoArrow : ¬ arrow <:+: tail) :
    arrow? (tail ++ rest) = none := by
  obtain ⟨gap, hgap, hsplit⟩ : ∃ gap, AreBlank gap ∧ tail = gap ++ trimStart tail :=
    (trimStart_eq_iff.mp rfl).2
  have hleft : trimStart tail ≠ [] := by
    intro hnil
    rw [hnil, List.append_nil] at hsplit
    obtain ⟨c, hc⟩ := Option.isSome_iff_exists.mp (List.getLast?_isSome.mpr hne)
    have hblank := hgap c (hsplit ▸ List.mem_of_getLast? hc)
    rw [(hlast c hc).1] at hblank
    cases hblank
  have hstart : trimStart (tail ++ rest) = trimStart tail ++ rest := by
    have htight : StartsTight (trimStart tail) := (trimStart_eq_iff.mp rfl).1
    rw [hsplit, List.append_assoc, trimStart_append_of_blank hgap,
      trimStart_eq_self (startsTight_append hleft htight), ← hsplit]
  have hpart : trimStart tail <:+: tail := (List.dropWhile_suffix _).isInfix
  have hnoPrefix : ¬ arrow <+: trimStart tail := fun h =>
    hnoArrow (h.isInfix.trans hpart)
  unfold arrow?
  cases hafter : after? arrow (trimStart (tail ++ rest)) with
  | none =>
      rfl
  | some more =>
      have heq : trimStart tail ++ rest = arrow ++ more :=
        hstart.symm.trans (after?_eq_some_iff.mp hafter)
      rcases List.append_eq_append_iff.mp heq with ⟨back, harrow, _⟩ | ⟨back, htail, _⟩
      · have hlast' : ∀ c ∈ (trimStart tail).getLast?, c ≠ '-' := by
          intro c hc
          refine (hlast c ?_).2
          rw [hsplit, getLast?_append_of_ne_nil hleft]
          exact hc
        have hsame := eq_arrow_of_prefix hleft hlast' ⟨back, harrow.symm⟩
        exact absurd (hsame ▸ List.prefix_rfl) hnoPrefix
      · exact absurd ⟨back, htail.symm⟩ hnoPrefix

end BeforeArrow

section WholeLine

/-- A reading of an edge line: an id, brackets behind it, and an arrow behind these. -/
theorem edgeReading?_spec
    {cs source suffix : List Char} {arrowEnd : ArrowEnd}
    (h : edgeReading? cs = some (source, suffix, arrowEnd)) :
    isIdentifier source = true ∧ IsOpened suffix ∧
      ∃ rest, cs = source ++ (suffix ++ rest) ∧ arrow? rest = some arrowEnd := by
  unfold edgeReading? at h
  split at h
  · cases h
  · cases h
  · rename_i source' c rest hne hword
    obtain ⟨rfl, hid, _⟩ := word_eq_iff.mp hword
    have hsource : isIdentifier source' = true := isIdentifier_iff.mpr ⟨hne, hid⟩
    split at h
    · rename_i hopens
      obtain ⟨⟨suffix', found⟩, hfound, hpair⟩ := Option.map_eq_some_iff.mp h
      cases hpair
      obtain ⟨hline, rest', rfl, harrow⟩ := untilArrow?_spec hfound
      refine ⟨hsource, ⟨?_, ?_⟩, rest', rfl, harrow⟩
      · rintro d ⟨⟩
        exact hopens
      · rintro (_ | ⟨_, hmem⟩)
        · exact absurd hopens (by decide)
        · exact hline hmem
    · obtain ⟨found, hfound, hpair⟩ := Option.map_eq_some_iff.mp h
      cases hpair
      exact ⟨hsource, ⟨nofun, List.not_mem_nil⟩, c :: rest, rfl, hfound⟩

/-- A text of blanks and then a sign that is no blank goes on with one of them. -/
theorem head?_arrow
    {gap : List Char}
    (hgap : AreBlank gap)
    (rest : List Char) :
    ∀ c ∈ (gap ++ (arrow ++ rest)).head?, isBlank c = true ∨ c = '-' := by
  cases gap with
  | nil =>
      rintro c ⟨⟩
      exact .inr rfl
  | cons c gap =>
      rintro d ⟨⟩
      exact .inl (hgap c List.mem_cons_self)

/--
An end and an arrow behind it are read as they are written.  The shortest brackets are
taken that an arrow follows, so no arrow may follow shorter ones.
-/
theorem edgeReading?_append
    {e : EdgeEnd} {gap rest : List Char} {arrowEnd : ArrowEnd}
    (he : e.IsWritten)
    (hline : '\n' ∉ e.suffix)
    (hnoArrow : ¬ arrow <:+: e.suffix)
    (hgap : AreBlank gap)
    (hend : arrowEnd? rest = some arrowEnd) :
    edgeReading? (e.text ++ (gap ++ (arrow ++ rest))) = some (e.id, e.suffix, arrowEnd) := by
  obtain ⟨id, suffix⟩ := e
  obtain ⟨hid, hsuffix⟩ := he
  dsimp only at hid hsuffix hline hnoArrow
  obtain ⟨hne, hall⟩ := isIdentifier_iff.mp hid
  have harrow : arrow? (gap ++ (arrow ++ rest)) = some arrowEnd :=
    arrow?_eq_some_iff.mpr ⟨gap, rest, hgap, rfl, hend⟩
  have hnext := head?_arrow hgap rest
  obtain ⟨first, id, rfl⟩ := List.exists_cons_of_ne_nil hne
  unfold edgeReading?
  cases suffix with
  | nil =>
      have hword :
          word (EdgeEnd.text ⟨first :: id, []⟩ ++ (gap ++ (arrow ++ rest))) =
            (first :: id, gap ++ (arrow ++ rest)) := by
        refine word_eq_iff.mpr ⟨by simp [EdgeEnd.text], hall, ?_⟩
        intro c hc
        rcases hnext c hc with hblank | rfl
        · exact isWord_of_isBlank hblank
        · decide
      rw [hword]
      cases hrest : gap ++ (arrow ++ rest) with
      | nil =>
          simp [arrow] at hrest
      | cons c more =>
          have hopens : Shape.opens c = false := by
            rcases hnext c (by rw [hrest]; rfl) with hblank | rfl
            · cases hopens : Shape.opens c with
              | false =>
                  rfl
              | true =>
                  exact absurd (hblank.symm.trans (of_opens hopens).2.2) (by decide)
            · decide
          rw [hrest] at harrow
          simp [hopens, harrow]
  | cons c suffix =>
      have hbrackets : (Shape.enclosing? (c :: suffix)).isSome = true :=
        hsuffix.resolve_left (List.cons_ne_nil c suffix)
      obtain ⟨⟨_, ⟨⟩, hopens⟩, last, hlast, hcloses⟩ := Shape.ends_of_enclosing? hbrackets
      have hword :
          word (EdgeEnd.text ⟨first :: id, c :: suffix⟩ ++ (gap ++ (arrow ++ rest))) =
            (first :: id, c :: (suffix ++ (gap ++ (arrow ++ rest)))) := by
        refine word_eq_iff.mpr ⟨by simp [EdgeEnd.text], hall, ?_⟩
        exact head?_cons_stops (of_opens hopens).1 _
      have hnone :
          ∀ tail, tail ≠ [] → tail <:+ suffix →
            arrow? (tail ++ (gap ++ (arrow ++ rest))) = none := by
        rintro tail htail ⟨front, rfl⟩
        apply arrow?_append_eq_none htail
        · intro sign hsign
          have hsame : (c :: (front ++ tail)).getLast? = tail.getLast? := by
            rw [← List.cons_append, getLast?_append_of_ne_nil htail]
          have hsigns : Shape.closers.all (fun c => !isBlank c && c != '-') = true := by
            decide
          obtain rfl : last = sign := Option.some.inj (hlast.symm.trans (hsame.trans hsign))
          simpa using List.all_eq_true.mp hsigns last hcloses
        · intro hpart
          exact hnoArrow (hpart.trans ⟨c :: front, [], by simp⟩)
      have huntil :
          untilArrow? (suffix ++ (gap ++ (arrow ++ rest))) = some (suffix, arrowEnd) :=
        untilArrow?_append (fun hmem => hline (List.mem_cons_of_mem c hmem)) hnone harrow
      rw [hword]
      simp [hopens, huntil]

/-- Every line is its core, with blanks around it and one semicolon between them at most. -/
theorem exists_core
    (cs : List Char) :
    ∃ indent gap trail, ∃ semicolon : Bool,
      AreBlank indent ∧ AreBlank gap ∧ AreBlank trail ∧
        cs = indent ++ (core cs ++ (gap ++ ((if semicolon then [';'] else []) ++ trail))) := by
  obtain ⟨indent, hindent, hstart⟩ := (trimStart_eq_iff.mp (rfl : trimStart cs = _)).2
  obtain ⟨trail, htrail, hend⟩ := exists_trimEnd (trimStart cs)
  rw [core_eq]
  split
  · rename_i hlast
    obtain ⟨front, hfront⟩ := List.getLast?_eq_some_iff.mp hlast
    obtain ⟨gap, hgap, hcore⟩ := exists_trimEnd front
    refine ⟨indent, gap, trail, true, hindent, hgap, htrail, ?_⟩
    have hline : trimStart cs = front ++ [';'] ++ trail := by
      rw [← hfront]
      exact hend
    have hbody : front ++ [';'] ++ trail = trimEnd front ++ (gap ++ ([';'] ++ trail)) := by
      rw [← List.append_assoc (trimEnd front), ← hcore, List.append_assoc]
    rw [hfront, List.dropLast_concat]
    exact hstart.trans (congrArg (indent ++ ·) (hline.trans hbody))
  · exact ⟨indent, [], trail, false, hindent, nofun, htrail,
      hstart.trans (congrArg (indent ++ ·) hend)⟩

/-- Blanks and one semicolon around a core leave it as it is. -/
theorem core_append
    {indent body gap trail : List Char} {semicolon : Bool}
    (hne : body ≠ [])
    (hstart : StartsTight body)
    (hend : ∀ c ∈ body.getLast?, isBlank c = false ∧ c ≠ ';')
    (hindent : AreBlank indent)
    (hgap : AreBlank gap)
    (htrail : AreBlank trail) :
    core (indent ++ (body ++ (gap ++ ((if semicolon then [';'] else []) ++ trail)))) = body := by
  have htight : EndsTight body := fun c hc => (hend c hc).1
  have htrim : ∀ back, trim (body ++ back) = trimEnd (body ++ back) := by
    intro back
    unfold trim
    rw [trimStart_eq_self (startsTight_append hne hstart)]
  rw [core_append_of_blank hindent, core_eq, htrim]
  cases semicolon with
  | false =>
      have hblank : AreBlank (gap ++ ([] ++ trail)) := by
        intro c hc
        rcases List.mem_append.mp hc with hc | hc
        · exact hgap c hc
        · exact htrail c hc
      rw [if_neg (by decide : ¬false = true), trimEnd_append_of_blank htight hblank,
        if_neg fun hlast : body.getLast? = some ';' => (hend ';' hlast).2 rfl]
  | true =>
      have hsemicolon : EndsTight (body ++ gap ++ [';']) := by
        intro c hc
        rw [List.getLast?_concat] at hc
        cases hc
        decide
      have hsplit :
          body ++ (gap ++ ([';'] ++ trail)) = (body ++ gap ++ [';']) ++ trail := by
        simp only [List.append_assoc]
      rw [if_pos rfl, hsplit, trimEnd_append_of_blank hsemicolon htrail,
        if_pos List.getLast?_concat, List.dropLast_concat, trimEnd_append_of_blank htight hgap]

end WholeLine

end Line

theorem EdgeEnd.IsWritten.text_ne_nil
    {e : EdgeEnd}
    (h : e.IsWritten) :
    e.text ≠ [] := by
  unfold EdgeEnd.text
  simp [(isIdentifier_iff.mp h.id).1]

/-- An end of an edge can stand at the end of the core of a line. -/
theorem EdgeEnd.IsWritten.getLast?_text
    {e : EdgeEnd}
    (h : e.IsWritten) :
    ∀ c ∈ e.text.getLast?, isBlank c = false ∧ c ≠ ';' := by
  obtain ⟨id, suffix⟩ := e
  intro c hc
  rcases h.suffix with hnil | hbrackets
  · dsimp only at hnil
    rw [EdgeEnd.text, hnil, List.append_nil] at hc
    exact tight_of_isWord ((isIdentifier_iff.mp h.id).2 c (List.mem_of_getLast? hc))
  · obtain ⟨hne, hlast⟩ := Shape.getLast?_of_enclosing? hbrackets
    rw [EdgeEnd.text, getLast?_append_of_ne_nil hne] at hc
    exact hlast c hc

namespace EdgeWriting

variable {w : EdgeWriting}

section ReadAndWritten

/-- What stands behind the arrow is read as it is written. -/
theorem IsWritten.arrowEnd?_afterwards
    (h : w.IsWritten)
    (hline : '\n' ∉ w.target.suffix) :
    Line.arrowEnd? w.afterwards = some ⟨w.label, w.target.id, w.target.suffix⟩ := by
  refine Line.arrowEnd?_eq_some_iff.mpr
    ⟨h.label, h.target.id, ⟨?_, hline⟩, w.afterArrow, w.beforeTarget, h.afterArrow,
      h.beforeTarget, rfl⟩
  intro c hc
  rcases h.target.suffix with hnil | hbrackets
  · rw [hnil] at hc
    cases hc
  · obtain ⟨⟨d, hd, hopens⟩, _⟩ := Shape.ends_of_enclosing? hbrackets
    obtain rfl : d = c := Option.some.inj (hd.symm.trans hc)
    exact hopens

/-- What is written around an edge line does not belong to its core. -/
theorem IsWritten.core_line
    (h : w.IsWritten) :
    Line.core w.line.toList = w.core := by
  have htarget := h.target.text_ne_nil
  have hlast : w.core.getLast? = w.target.text.getLast? := by
    unfold core afterwards
    simp only [← List.append_assoc]
    exact getLast?_append_of_ne_nil htarget
  unfold line
  rw [String.toList_ofList]
  apply Line.core_append
  · unfold core
    simp [h.source.text_ne_nil]
  · exact startsTight_append h.source.text_ne_nil (Line.startsTight_end h.source.id _)
  · rw [hlast]
    exact h.target.getLast?_text
  · exact h.indent
  · exact h.beforeSemicolon
  · exact h.trail

/-- What follows the id of the source is no part of a style line of either kind. -/
theorem IsWritten.directive?_core
    (h : w.IsWritten)
    {keyword : String} {inRun : Char → Bool}
    (hkeyword : ∀ c ∈ keyword.toList, isWord c = true)
    (harrow : inRun '-' = false)
    (hopens : ∀ c, Shape.opens c = true → inRun c = false) :
    Line.directive? keyword inRun w.core = none := by
  have hid := (isIdentifier_iff.mp h.source.id).2
  have hrest :
      w.core =
        w.source.id ++ (w.source.suffix ++ (w.beforeArrow ++ (Line.arrow ++ w.afterwards))) := by
    rw [core, EdgeEnd.text, List.append_assoc]
  rw [hrest]
  rcases h.source.suffix with hnil | hbrackets
  · rw [hnil, List.nil_append]
    apply Line.directive?_eq_none hkeyword hid
    · intro c hc
      rcases Line.head?_arrow h.beforeArrow w.afterwards c hc with hblank | rfl
      · exact isWord_of_isBlank hblank
      · decide
    · intro c hc
      rw [trimStart_append_of_blank h.beforeArrow,
        trimStart_eq_self (Line.startsTight_arrow _)] at hc
      cases hc
      exact harrow
  · obtain ⟨⟨c, hc, hc'⟩, _⟩ := Shape.ends_of_enclosing? hbrackets
    obtain ⟨rest, hsuffix⟩ := List.head?_eq_some_iff.mp hc
    rw [hsuffix, List.cons_append]
    have hblank := (Line.of_opens hc').2.2
    apply Line.directive?_eq_none hkeyword hid
    · exact head?_cons_stops (Line.of_opens hc').1 _
    · rw [trimStart_eq_self (head?_cons_stops hblank _)]
      exact head?_cons_stops (hopens c hc') _

/-- The core of an edge line is read as that edge. -/
theorem IsWritten.kind?_core
    (h : w.IsWritten)
    (hplain : w.HasPlainBrackets) :
    Line.kind? w.core = some (.edge w.edge) := by
  have hheader : Line.header? w.core = none := by
    refine Line.header?_eq_none_of_mem (c := '>') ?_ (by decide)
    simp [core, Line.arrow]
  have hstyle : Line.style? w.core = none := by
    unfold Line.style?
    rw [h.directive?_core (List.all_eq_true.mp (by decide)) (by decide)
      fun c hc => (Line.of_opens hc).1]
    rfl
  have hlink : Line.linkStyle? w.core = none := by
    unfold Line.linkStyle?
    rw [h.directive?_core (List.all_eq_true.mp (by decide)) (by decide)
      fun c hc => (Line.of_opens hc).2.1]
    rfl
  have hsuffix : ∀ {e : EdgeEnd}, e.IsWritten → Line.isSuffix e.suffix = true := by
    intro e he
    unfold Line.isSuffix
    rcases he.suffix with hnil | hbrackets
    · simp [hnil]
    · simp [hbrackets]
  have hedge : Line.edge? w.core = some (.edge w.edge) := by
    unfold Line.edge? core
    rw [Line.edgeReading?_append h.source hplain.source_oneLine hplain.source_noArrow
      h.beforeArrow (h.arrowEnd?_afterwards hplain.target_oneLine)]
    simp only [Option.bind_some, hsuffix h.source, hsuffix h.target, Bool.and_self, if_true]
    rfl
  unfold Line.kind?
  rw [hheader, hstyle, hlink, hedge]
  rfl

/-- A line that is written as an edge line is that edge line. -/
theorem IsWritten.classify_line
    (h : w.IsWritten)
    (hplain : w.HasPlainBrackets) :
    Line.classify w.line = .edge w.edge := by
  rw [Line.classify_eq, h.core_line, h.kind?_core hplain]
  rfl

/-- An edge line is written as one, and its brackets break no line. -/
theorem exists_of_classify
    {line : String} {e : EdgeLine}
    (h : Line.classify line = .edge e) :
    ∃ w : EdgeWriting, w.IsWritten ∧ w.line = line ∧ w.edge = e ∧
      '\n' ∉ w.source.suffix ∧ '\n' ∉ w.target.suffix := by
  obtain ⟨⟨source, suffix, arrowEnd⟩, hreading, hedge⟩ :=
    Option.bind_eq_some_iff.mp (Line.reader?_of_classify h (by simp))
  obtain ⟨hsource, hopened, rest, hcore, harrow⟩ := Line.edgeReading?_spec hreading
  obtain ⟨gap, rest, hgap, rfl, hend⟩ := Line.arrow?_eq_some_iff.mp harrow
  obtain ⟨hlabel, htarget, hopened', gap', gap'', hgap', hgap'', rfl⟩ :=
    Line.arrowEnd?_eq_some_iff.mp hend
  obtain ⟨indent, gap₁, trail, semicolon, hindent, hgap₁, htrail, hline⟩ :=
    Line.exists_core line.toList
  have hbrackets :
      ∀ {cs : List Char},
        Line.isSuffix cs = true → cs = [] ∨ (Shape.enclosing? cs).isSome = true := by
    intro cs hcs
    simpa [Line.isSuffix] using hcs
  dsimp only at hedge
  split at hedge
  · rename_i hsuffixes
    rw [Bool.and_eq_true] at hsuffixes
    refine ⟨{
        indent, source := ⟨source, suffix⟩, beforeArrow := gap, afterArrow := gap',
        label := arrowEnd.label, beforeTarget := gap'',
        target := ⟨arrowEnd.target, arrowEnd.suffix⟩, beforeSemicolon := gap₁, semicolon,
        trail }, ?_, ?_, ?_, hopened.oneLine, hopened'.oneLine⟩
    · exact ⟨⟨hsource, hbrackets hsuffixes.1⟩, ⟨htarget, hbrackets hsuffixes.2⟩, hlabel, hindent,
        hgap, hgap', hgap'', hgap₁, htrail⟩
    · rw [← String.toList_inj, hline, hcore]
      simp [EdgeWriting.line, core, afterwards, EdgeEnd.text]
    · cases hedge
      rfl
  · cases hedge

end ReadAndWritten

end EdgeWriting

/--
Edge lines follow their grammar.  What is classified as an edge line is two ends, each
an id alone or with known brackets, with an arrow and perhaps a label between them;
blanks and one semicolon may stand around it.  What is written so is classified as an
edge line with exactly these parts if no bracket breaks the line and those of the
source hold no other arrow, whatever the ids are.
-/
theorem edge_lines_follow_grammar :
    (∀ (line : String) (e : EdgeLine), Line.classify line = .edge e →
      ∃ w : EdgeWriting, w.IsWritten ∧ w.line = line ∧ w.edge = e) ∧
    ∀ w : EdgeWriting, w.IsWritten → w.HasPlainBrackets →
      Line.classify w.line = .edge w.edge := by
  constructor
  · intro line e h
    obtain ⟨w, hw, hline, hedge, _⟩ := EdgeWriting.exists_of_classify h
    exact ⟨w, hw, hline, hedge⟩
  · exact fun w hw hplain => hw.classify_line hplain

/-- Keywords as ids, bars in the brackets of the source, and arrows in all that follows it. -/
theorem edge_lines_follow_grammar_of_keywords :
    let line := " style[a|b] -->|x --> y| graph\x7b-->\x7d ; "
    let w : EdgeWriting := {
      indent := [' ']
      source := ⟨"style".toList, "[a|b]".toList⟩
      beforeArrow := [' ']
      afterArrow := []
      label := some "x --> y".toList
      beforeTarget := [' ']
      target := ⟨"graph".toList, "\x7b-->\x7d".toList⟩
      beforeSemicolon := [' ']
      semicolon := true
      trail := [' '] }
    w.IsWritten ∧ w.HasPlainBrackets ∧ w.line = line ∧
      Line.classify line =
        .edge ⟨"style", "graph", some "x --> y", "style[a|b]", "graph\x7b-->\x7d"⟩ ∧
      ∃ w' : EdgeWriting, w'.IsWritten ∧ w'.line = line ∧ w'.edge = w.edge := by
  intro line w
  have hwritten : w.IsWritten :=
    { source := ⟨by decide, .inr (by decide)⟩
      target := ⟨by decide, .inr (by decide)⟩
      label := by decide
      indent := List.all_eq_true.mp (by decide)
      beforeArrow := List.all_eq_true.mp (by decide)
      afterArrow := nofun
      beforeTarget := List.all_eq_true.mp (by decide)
      beforeSemicolon := List.all_eq_true.mp (by decide)
      trail := List.all_eq_true.mp (by decide) }
  have hplain : w.HasPlainBrackets := ⟨by decide, by decide, by decide⟩
  have hline : w.line = line := by
    decide
  have hclassify : Line.classify line = .edge w.edge :=
    hline ▸ edge_lines_follow_grammar.2 w hwritten hplain
  exact ⟨hwritten, hplain, hline, hclassify, edge_lines_follow_grammar.1 line w.edge hclassify⟩

end Flowchart
