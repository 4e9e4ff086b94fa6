import Flowchart.Proofs.Decimals
import Flowchart.Proofs.WrittenLines
import Mathlib.Data.List.Basic

/-!
# Written styles are read back

A property list is read back chunk by chunk, since neither keys nor values hold
the characters that structure it.  A colour is read back as it is, and a width as
one of the same value, for its decimal is read as the value it stands for.

* `read?_pixels`: a width is read back by value.
* `Properties.read_listOf`: a property list is read back.
* `NodeStyle.classify_write`: a style line is read as one of its node.
* `NodeStyle.overwrite_properties`: a written style is read back, up to the sign of
  a zero width.
* `EdgeStyle.classify_write`: a link-style line is read as one of its index.
* `style_lines_read_back`: the styles that written lines give.
-/

namespace Flowchart

open Text

section Widths

theorem isDigit_point :
    isDigit '.' = false ∧ isDigit 'p' = false := by
  decide

theorem read?_whole
    {whole : List Char}
    (hne : whole ≠ [])
    (hall : ∀ c ∈ whole, isDigit c = true) :
    Width.read? (whole ++ ['p', 'x']) = some ⟨number whole, 0⟩ := by
  have htake : (whole ++ ['p', 'x']).takeWhile isDigit = whole :=
    takeWhile_append_of_stop hall (head?_cons_stops isDigit_point.2 _)
  have hdrop : (whole ++ ['p', 'x']).dropWhile isDigit = ['p', 'x'] :=
    dropWhile_append_of_stop hall (head?_cons_stops isDigit_point.2 _)
  unfold Width.read?
  simp only [htake, hdrop]
  simp [hne]

theorem read?_fraction
    {whole fraction : List Char}
    (hne : whole ≠ [])
    (hall : ∀ c ∈ whole, isDigit c = true)
    (hfraction : fraction ≠ [])
    (hallFraction : ∀ c ∈ fraction, isDigit c = true) :
    Width.read? (whole ++ '.' :: (fraction ++ ['p', 'x'])) =
      some ⟨number (whole ++ fraction), -(fraction.length : Int)⟩ := by
  have hstop : ∀ c ∈ ('.' :: (fraction ++ ['p', 'x'])).head?, isDigit c = false :=
    head?_cons_stops isDigit_point.1 _
  have htake : (whole ++ '.' :: (fraction ++ ['p', 'x'])).takeWhile isDigit = whole :=
    takeWhile_append_of_stop hall hstop
  have hdrop :
      (whole ++ '.' :: (fraction ++ ['p', 'x'])).dropWhile isDigit =
        '.' :: (fraction ++ ['p', 'x']) :=
    dropWhile_append_of_stop hall hstop
  have htakeFraction : (fraction ++ ['p', 'x']).takeWhile isDigit = fraction :=
    takeWhile_append_of_stop hallFraction (head?_cons_stops isDigit_point.2 _)
  have hdropFraction : (fraction ++ ['p', 'x']).dropWhile isDigit = ['p', 'x'] :=
    dropWhile_append_of_stop hallFraction (head?_cons_stops isDigit_point.2 _)
  unfold Width.read?
  simp only [htake, hdrop, htakeFraction, hdropFraction]
  simp [hne, hfraction]

/-- How a width is written: in whole pixels, or with a fraction if it is not whole. -/
theorem toList_pixels
    (w : Width) :
    w.toDouble.pixels.toList =
      if Binary64.units w.rank % Nat.pow 2 1074 = 0 then
        Nat.toDigits 10 (Binary64.units w.rank / Nat.pow 2 1074) ++ ['p', 'x']
      else
        (Decimal.shortest w.rank).parts.1 ++
          '.' :: ((Decimal.shortest w.rank).parts.2 ++ ['p', 'x']) := by
  have hfinite : ¬Binary64.infinity ≤ w.rank := Nat.not_le_of_lt w.finite
  have hsign : (w.negative && w.rank != 0) = false := by
    cases hnegative : w.negative with
    | false =>
        rfl
    | true =>
        simp [w.zero_of_negative hnegative]
  have htext : ∀ n : Nat, (toString n).toList = Nat.toDigits 10 n := fun _ => Nat.toList_repr
  have hunit : "px".toList = ['p', 'x'] := by
    rfl
  unfold Width.toDouble
  rw [Double.pixels]
  generalize (Decimal.shortest w.rank).parts = parts
  obtain ⟨digits, fraction⟩ := parts
  rw [if_neg hfinite, hsign, if_neg Bool.false_ne_true]
  by_cases hwhole : Binary64.units w.rank % Nat.pow 2 1074 = 0
  · rw [if_pos hwhole, if_pos hwhole, String.toList_append, String.toList_append, htext, hunit]
    rfl
  · rw [if_neg hwhole, if_neg hwhole, String.toList_append, String.toList_append, hunit]
    simp

/-- The rank of a whole number. -/
theorem rank_of_whole
    (n : Nat) :
    (Decimal.mk n 0).rank = Binary64.nearest (n * Nat.pow 2 1074) 1 := by
  unfold Decimal.rank
  generalize Nat.pow 2 1074 = one
  change Binary64.nearest (n * 1 * one) 1 = _
  rw [Nat.mul_one]

/-- The fraction of a width that is not whole has digits. -/
theorem fraction_ne_nil
    {rank : Nat}
    (hfinite : rank < Binary64.infinity)
    (h : Binary64.units rank % Nat.pow 2 1074 ≠ 0) :
    (Decimal.shortest rank).parts.2 ≠ [] := by
  intro hnil
  obtain ⟨_, _, hrank⟩ := Decimal.rank_parts (Decimal.shortest rank)
  rw [hnil, Decimal.rank_shortest hfinite, List.length_nil, Int.natCast_zero, Int.neg_zero,
    rank_of_whole] at hrank
  generalize number ((Decimal.shortest rank).parts.1 ++ []) = n at hrank
  have hbits : (53 : Nat) ≤ 1074 := by
    omega
  generalize (1074 : Nat) = size at *
  have hdvd := @Binary64.dvd_units_nearest (n * Nat.pow 2 size) size hbits
    (Nat.dvd_mul_left _ _) (by rw [hrank]; exact hfinite)
  rw [hrank] at hdvd
  exact h (Nat.mod_eq_zero_of_dvd hdvd)

/-- A width is read back by value. -/
theorem read?_pixels
    (w : Width) :
    ∃ d, Width.read? w.toDouble.pixels.toList = some d ∧ d.rank = w.rank := by
  rw [toList_pixels]
  split
  · rename_i hwhole
    refine ⟨_, read?_whole Nat.toDigits_ne_nil fun c hc => isDigit_of_mem_toDigits hc, ?_⟩
    rw [number_toDigits, rank_of_whole,
      Nat.div_mul_cancel (Nat.dvd_of_mod_eq_zero hwhole)]
    exact Binary64.nearest_units w.finite
  · rename_i hfraction
    obtain ⟨⟨hne, hall⟩, hallFraction, hrank⟩ :=
      Decimal.rank_parts (Decimal.shortest w.rank)
    refine ⟨_, read?_fraction hne hall (fraction_ne_nil w.finite hfraction) hallFraction, ?_⟩
    rw [hrank, Decimal.rank_shortest w.finite]

end Widths

namespace Properties

/-- A property as it stands in a list. -/
def chunk (p : String × String) : List Char :=
  p.1.toList ++ ':' :: p.2.toList

/-- Some properties as a list of them is written. -/
def listOf (ps : Properties) : List Char :=
  [','].intercalate (ps.map chunk)

theorem listOf_singleton
    (p : String × String) :
    listOf [p] = chunk p := by
  simp [listOf]

theorem listOf_cons_cons
    (p p' : String × String) (ps : Properties) :
    listOf (p :: p' :: ps) = chunk p ++ ',' :: listOf (p' :: ps) := by
  simp [listOf]

/-- Key and value hold no characters that a property list would read otherwise. -/
structure IsPlain (p : String × String) : Prop where
  key_ne_nil : p.1.toList ≠ []
  key_all : ∀ c ∈ p.1.toList, isColorChar c = true
  value_comma : ',' ∉ p.2.toList
  value_oneLine : '\n' ∉ p.2.toList
  value_starts : StartsTight p.2.toList
  value_ends : ∀ c ∈ p.2.toList.getLast?, isBlank c = false ∧ c ≠ ';'

theorem isColorChar_eq_true_iff
    {c : Char} :
    isColorChar c = true ↔ c ≠ ',' ∧ c ≠ ':' ∧ c ≠ ';' ∧ isBlank c = false := by
  simp [isColorChar, and_assoc]

/-- A text of such characters can be a value. -/
theorem isPlain_of_all
    {key value : String}
    (hne : key.toList ≠ [])
    (hkey : ∀ c ∈ key.toList, isColorChar c = true)
    (hvalue : ∀ c ∈ value.toList, isColorChar c = true) :
    IsPlain (key, value) := by
  have hmem : ∀ c, isColorChar c = false → c ∉ value.toList := by
    intro c hc hmem
    rw [hvalue c hmem] at hc
    cases hc
  refine ⟨hne, hkey, hmem ',' (by decide), hmem '\n' (by decide), ?_, ?_⟩
  · intro c hc
    exact (isColorChar_eq_true_iff.mp (hvalue c (List.mem_of_mem_head? hc))).2.2.2
  · intro c hc
    obtain ⟨_, _, hsemicolon, hblank⟩ :=
      isColorChar_eq_true_iff.mp (hvalue c (List.mem_of_getLast? hc))
    exact ⟨hblank, hsemicolon⟩

section Chunks

variable {p : String × String} (h : IsPlain p)

include h

theorem chunk_ends :
    chunk p ≠ [] ∧ ∀ c ∈ (chunk p).getLast?, isBlank c = false ∧ c ≠ ';' := by
  unfold chunk
  refine ⟨by simp, ?_⟩
  rw [getLast?_append_of_ne_nil (List.cons_ne_nil _ _)]
  cases hvalue : p.2.toList with
  | nil =>
      intro c hc
      have hcolon : ':' = c := by simpa using hc
      rw [← hcolon]
      decide
  | cons first rest =>
      have hends := h.value_ends
      rw [hvalue] at hends
      rw [List.getLast?_cons_cons]
      exact hends

theorem startsTight_chunk :
    StartsTight (chunk p) := by
  refine startsTight_append h.key_ne_nil ?_
  intro c hc
  exact (isColorChar_eq_true_iff.mp (h.key_all c (List.mem_of_mem_head? hc))).2.2.2

theorem not_mem_chunk
    {c : Char}
    (hc : c = ',' ∨ c = '\n') :
    c ∉ chunk p := by
  intro hmem
  rcases List.mem_append.mp hmem with hkey | hmem
  · obtain ⟨hcomma, _, _, hblank⟩ := isColorChar_eq_true_iff.mp (h.key_all c hkey)
    rcases hc with rfl | rfl
    · exact hcomma rfl
    · exact absurd hblank (by decide)
  · rcases List.mem_cons.mp hmem with hcolon | hvalue
    · rcases hc with rfl | rfl
      · cases hcolon
      · cases hcolon
    · rcases hc with rfl | rfl
      · exact h.value_comma hvalue
      · exact h.value_oneLine hvalue

theorem readChunk?_chunk :
    readChunk? (chunk p) = some p := by
  have hkey : ∀ c ∈ p.1.toList, (c != ':') = true := by
    intro c hc
    exact bne_iff_ne.mpr (isColorChar_eq_true_iff.mp (h.key_all c hc)).2.1
  have hcut : cut ':' (chunk p) = (p.1.toList, some p.2.toList) := by
    unfold cut chunk
    rw [takeWhile_append_of_stop hkey (head?_cons_stops (by decide) _),
      dropWhile_append_of_stop hkey (head?_cons_stops (by decide) _)]
    rfl
  have htrim : trim p.1.toList = p.1.toList := by
    have hblank : ∀ c ∈ p.1.toList, isBlank c = false := fun c hc =>
      (isColorChar_eq_true_iff.mp (h.key_all c hc)).2.2.2
    apply trim_eq_self
    · exact fun c hc => hblank c (List.mem_of_mem_head? hc)
    · exact fun c hc => hblank c (List.mem_of_getLast? hc)
  have htrim' : trim p.2.toList = p.2.toList :=
    trim_eq_self h.value_starts fun c hc => (h.value_ends c hc).1
  obtain ⟨first, rest, hfirst⟩ := List.exists_cons_of_ne_nil h.key_ne_nil
  unfold readChunk?
  rw [hcut]
  dsimp only
  rw [htrim, htrim', hfirst]
  dsimp only
  rw [← hfirst, String.ofList_toList, String.ofList_toList]

end Chunks

section Lists

variable {ps : Properties} (h : ∀ p ∈ ps, IsPlain p) (hne : ps ≠ [])

include h

theorem isOneLine_listOf :
    '\n' ∉ listOf ps := by
  induction ps with
  | nil =>
      exact List.not_mem_nil
  | cons p ps ih =>
      have hp := not_mem_chunk (h p List.mem_cons_self) (Or.inr rfl)
      have hps := ih fun q hq => h q (List.mem_cons_of_mem _ hq)
      cases ps with
      | nil =>
          rw [listOf_singleton]
          exact hp
      | cons p' ps =>
          rw [listOf_cons_cons]
          simp [hp, hps]

include hne

theorem listOf_ends :
    listOf ps ≠ [] ∧ ∀ c ∈ (listOf ps).getLast?, isBlank c = false ∧ c ≠ ';' := by
  induction ps with
  | nil =>
      exact absurd rfl hne
  | cons p ps ih =>
      have hp := chunk_ends (h p List.mem_cons_self)
      cases ps with
      | nil =>
          rw [listOf_singleton]
          exact hp
      | cons p' ps =>
          obtain ⟨hrest, hends⟩ :=
            ih (fun q hq => h q (List.mem_cons_of_mem _ hq)) (List.cons_ne_nil _ _)
          rw [listOf_cons_cons, List.append_cons, getLast?_append_of_ne_nil hrest]
          exact ⟨List.append_ne_nil_of_right_ne_nil _ hrest, hends⟩

theorem startsTight_listOf :
    StartsTight (listOf ps) := by
  obtain ⟨p, ps, rfl⟩ := List.exists_cons_of_ne_nil hne
  have hp := h p List.mem_cons_self
  cases ps with
  | nil =>
      rw [listOf_singleton]
      exact startsTight_chunk hp
  | cons p' ps =>
      rw [listOf_cons_cons]
      exact startsTight_append (chunk_ends hp).1 (startsTight_chunk hp)

/-- A property list is read back. -/
theorem read_listOf :
    read (listOf ps) = ps := by
  obtain ⟨_, hends⟩ := listOf_ends h hne
  have htrim : trim (listOf ps) = listOf ps :=
    trim_eq_self (startsTight_listOf h hne) fun c hc => (hends c hc).1
  have hsemicolons : dropSemicolons (listOf ps) = listOf ps := by
    have hstop : ∀ c ∈ (listOf ps).reverse.head?, (c == ';') = false := by
      intro c hc
      rw [List.head?_reverse] at hc
      exact beq_eq_false_iff_ne.mpr (hends c hc).2
    have hdrop : (listOf ps).reverse.dropWhile (· == ';') = (listOf ps).reverse :=
      @dropWhile_append_of_stop (· == ';') [] _ (fun _ hc => absurd hc List.not_mem_nil) hstop
    unfold dropSemicolons
    rw [hdrop, List.reverse_reverse]
  have hsplit : (listOf ps).splitOn ',' = ps.map chunk := by
    refine List.splitOn_intercalate ',' ?_ ?_
    · intro piece hpiece
      obtain ⟨p, hp, rfl⟩ := List.mem_map.mp hpiece
      exact not_mem_chunk (h p hp) (Or.inl rfl)
    · simpa using hne
  unfold read
  rw [htrim, hsemicolons, hsplit, List.filterMap_map]
  have hread : ps.filterMap (readChunk? ∘ chunk) = ps.filterMap some :=
    List.filterMap_congr fun p hp => readChunk?_chunk (h p hp)
  rw [hread, List.filterMap_some]

end Lists

end Properties

section Directive

variable {ps : Properties} (hplain : ∀ p ∈ ps, Properties.IsPlain p) (hne : ps ≠ [])

include hplain hne

/-- A run and a property list with a blank before each are the parts of a style line. -/
theorem isDirective_listOf
    {inRun : Char → Bool} {run : List Char}
    (hrun : run ≠ [])
    (hall : ∀ c ∈ run, inRun c = true) :
    Line.IsDirective inRun [' '] run [' '] (Properties.listOf ps) := by
  have hgap : ∀ c ∈ [' '], isBlank c = true := List.all_eq_true.mp (by decide)
  constructor
  · exact hgap
  · exact List.cons_ne_nil _ _
  · exact hall
  · exact hrun
  · exact hgap
  · exact List.cons_ne_nil _ _
  · exact Properties.startsTight_listOf hplain hne
  · exact (Properties.listOf_ends hplain hne).1
  · exact Properties.isOneLine_listOf hplain

/-- A style line that is not indented is its own core. -/
theorem core_directive
    {keyword : List Char}
    (hkeyword : keyword ≠ [] ∧ StartsTight keyword)
    (run : List Char) :
    Line.core (keyword ++ ([' '] ++ (run ++ [' '] ++ Properties.listOf ps))) =
      keyword ++ ([' '] ++ (run ++ [' '] ++ Properties.listOf ps)) := by
  obtain ⟨hlist, hends⟩ := Properties.listOf_ends hplain hne
  apply Line.core_eq_self
  · exact startsTight_append hkeyword.1 hkeyword.2
  · rw [← List.append_assoc, ← List.append_assoc, getLast?_append_of_ne_nil hlist]
    exact hends

/-- A style line gives the node of its id the properties in its list. -/
theorem classify_styleLine
    {id indent line : String}
    (hid : isIdentifier id.toList = true)
    (hindent : ∀ c ∈ indent.toList, isBlank c = true)
    (hline :
      line.toList =
        indent.toList ++
          ("style".toList ++ ([' '] ++ (id.toList ++ [' '] ++ Properties.listOf ps)))) :
    Line.classify line = .style id ps := by
  obtain ⟨hid, hall⟩ := isIdentifier_iff.mp hid
  have hparts := isDirective_listOf hplain hne hid hall
  have hkeyword : "style".toList ≠ [] ∧ StartsTight "style".toList :=
    ⟨by decide, head?_cons_stops (by decide) _⟩
  have hcore := core_directive hplain hne hkeyword id.toList
  generalize hbody :
    [' '] ++ (id.toList ++ [' '] ++ Properties.listOf ps) = body at hcore hline
  have hstyle :
      Line.style? ("style".toList ++ body) = some (.style id ps) := by
    have hdirective :
        Line.directive? "style" isWord ("style".toList ++ body) =
          some (id.toList, Properties.listOf ps) := by
      rw [← hbody]
      exact (Line.directive?_eq_some_iff fun _ hc => isWord_of_isBlank hc).mpr
        ⟨[' '], [' '], rfl, hparts⟩
    unfold Line.style?
    rw [hdirective, Option.map_some]
    dsimp only
    rw [Properties.read_listOf hplain hne, String.ofList_toList]
  have hheader : Line.header? ("style".toList ++ body) = none := by
    rfl
  rw [Line.classify_eq, hline, Line.core_append_of_blank hindent, hcore]
  unfold Line.kind?
  rw [hheader, hstyle]
  rfl

end Directive

/-- A colour can be the value of a property. -/
theorem isPlain_color
    {key : String}
    (hne : key.toList ≠ [])
    (hkey : key.toList.all isColorChar = true)
    (color : Color) :
    Properties.IsPlain (key, color.text) :=
  Properties.isPlain_of_all hne (List.all_eq_true.mp hkey) (List.all_eq_true.mp color.writable)

theorem ofText?_text
    (color : Color) :
    Color.ofText? color.text = some color := by
  unfold Color.ofText?
  rw [dif_pos color.writable]

namespace NodeStyle

/-- The properties that a style is written as. -/
def properties (s : NodeStyle) : Properties :=
  [
    ("stroke-width", s.borderWidth.toDouble.pixels), ("stroke", s.borderColor.text),
    ("color", s.textColor.text), ("fill", s.backgroundColor.text) ] ++
    match s.border with
    | .dashed => [("stroke-dasharray", "5 5")]
    | .solid => []

theorem isColorChar_of_isDigit
    {c : Char}
    (h : isDigit c = true) :
    isColorChar c = true := by
  refine Properties.isColorChar_eq_true_iff.mpr ⟨?_, ?_, ?_, isBlank_of_isDigit h⟩
  all_goals
    rintro rfl
    exact absurd h (by decide)

theorem isColorChar_of_mem_pixels
    (w : Width) :
    ∀ c ∈ w.toDouble.pixels.toList, isColorChar c = true := by
  have hunit : ∀ c ∈ ['p', 'x'], isColorChar c = true := List.all_eq_true.mp (by decide)
  rw [toList_pixels]
  split
  · intro c hc
    rcases List.mem_append.mp hc with hc | hc
    · exact isColorChar_of_isDigit (isDigit_of_mem_toDigits hc)
    · exact hunit c hc
  · obtain ⟨⟨_, hwhole⟩, hfraction, _⟩ := Decimal.rank_parts (Decimal.shortest w.rank)
    intro c hc
    rcases List.mem_append.mp hc with hc | hc
    · exact isColorChar_of_isDigit (hwhole c hc)
    · rcases List.mem_cons.mp hc with rfl | hc
      · decide
      · rcases List.mem_append.mp hc with hc | hc
        · exact isColorChar_of_isDigit (hfraction c hc)
        · exact hunit c hc

theorem isPlain_properties
    (s : NodeStyle) :
    ∀ p ∈ s.properties, Properties.IsPlain p := by
  intro p hp
  unfold properties at hp
  rcases List.mem_append.mp hp with hp | hp
  · simp only [List.mem_cons, List.not_mem_nil, or_false] at hp
    rcases hp with rfl | rfl | rfl | rfl
    · exact Properties.isPlain_of_all (by decide) (List.all_eq_true.mp (by decide))
        (isColorChar_of_mem_pixels s.borderWidth)
    · exact isPlain_color (by decide) (by decide) _
    · exact isPlain_color (by decide) (by decide) _
    · exact isPlain_color (by decide) (by decide) _
  · split at hp
    · rw [List.mem_singleton.mp hp]
      constructor
      · decide
      · exact List.all_eq_true.mp (by decide)
      · decide
      · decide
      · exact head?_cons_stops (by decide) _
      · intro c hc
        have hfive : '5' = c := by simpa using hc
        rw [← hfive]
        decide
    · exact absurd hp List.not_mem_nil

theorem properties_ne_nil
    (s : NodeStyle) :
    s.properties ≠ [] :=
  List.cons_ne_nil _ _

theorem toList_write
    (s : NodeStyle) (id indent : String) :
    (s.write id indent).toList =
      indent.toList ++
        ("style".toList ++
          ([' '] ++ (id.toList ++ [' '] ++ Properties.listOf s.properties))) := by
  unfold write properties Properties.listOf Properties.chunk
  cases s.border with
  | solid =>
      simp [String.toList_append]
  | dashed =>
      simp [String.toList_append]

section Written

variable {id indent : String}
  (hid : isIdentifier id.toList = true)
  (s : NodeStyle)

include hid

/-- A style line gives the node of its id the properties that are written. -/
theorem classify_write
    (hindent : ∀ c ∈ indent.toList, isBlank c = true) :
    Line.classify (s.write id indent) = .style id s.properties :=
  classify_styleLine (isPlain_properties s) (properties_ne_nil s) hid hindent
    (toList_write s id indent)

theorem isOneLine_write
    (hindent : IsOneLine indent) :
    IsOneLine (s.write id indent) := by
  have hword : '\n' ∉ id.toList := isOneLine_of_isIdentifier hid
  have hlist := Properties.isOneLine_listOf (isPlain_properties s)
  unfold IsOneLine at *
  rw [toList_write]
  simp [hindent, hword, hlist]

end Written

section WrittenStyles

theorem agrees_iff
    {s t : NodeStyle} :
    s.agrees t = true ↔
      s.textColor = t.textColor ∧ s.backgroundColor = t.backgroundColor ∧
        s.borderColor = t.borderColor ∧ s.borderWidth.rank = t.borderWidth.rank ∧
        s.border = t.border := by
  simp [agrees, Width.agrees, and_assoc]

theorem agrees_symm
    {s t : NodeStyle}
    (h : s.agrees t = true) :
    t.agrees s = true := by
  obtain ⟨htext, hbackground, hcolor, hwidth, hborder⟩ := agrees_iff.mp h
  exact agrees_iff.mpr
    ⟨htext.symm, hbackground.symm, hcolor.symm, hwidth.symm, hborder.symm⟩

theorem color?_properties
    (s : NodeStyle) :
    s.properties.color? "stroke" = some s.borderColor ∧
      s.properties.color? "color" = some s.textColor ∧
      s.properties.color? "fill" = some s.backgroundColor := by
  unfold Properties.color? Record.last? properties
  cases s.border <;> simp [ofText?_text]

/-- A written style is read back, with a width of the same value. -/
theorem overwrite_properties
    (s start : NodeStyle) (hstart : start.border = .solid) :
    ∃ s', start.overwrite s.properties = .ok s' ∧ s'.agrees s = true := by
  obtain ⟨d, hread, hrank⟩ := read?_pixels s.borderWidth
  have hfinite : d.rank < Binary64.infinity := by
    rw [hrank]
    exact s.borderWidth.finite
  have hcheck :
      Width.check (Double.ofDecimal false d) = .ok ⟨d.rank, false, hfinite, nofun⟩ := by
    have hof : Width.ofDouble? (.signed false d.rank) = some ⟨d.rank, false, hfinite, nofun⟩ := by
      rw [Width.ofDouble?, dif_pos (And.intro hfinite nofun)]
    unfold Width.check Double.ofDecimal
    rw [hof]
  have hwidth :
      Record.last? "stroke-width" s.properties = some s.borderWidth.toDouble.pixels := by
    unfold Record.last? properties
    cases s.border <;> simp
  obtain ⟨hborderColor, htextColor, hbackground⟩ := color?_properties s
  have hborder :
      Record.last? "stroke-dasharray" s.properties =
        match s.border with
        | .dashed => some "5 5"
        | .solid => none := by
    unfold Record.last? properties
    cases s.border <;> simp
  have hdashes : isSolidPattern (trim "5 5".toList) = false := by
    decide
  unfold overwrite
  rw [hwidth, Option.bind_some, hread]
  dsimp only
  rw [hcheck, hborderColor, htextColor, hbackground, hborder]
  refine ⟨_, rfl, agrees_iff.mpr ⟨rfl, rfl, rfl, hrank, ?_⟩⟩
  cases s.border with
  | solid =>
      exact hstart
  | dashed =>
      dsimp only
      rw [hdashes]
      rfl

end WrittenStyles

end NodeStyle

namespace EdgeStyle

/-- The properties that a style is written as. -/
def properties (s : EdgeStyle) : Properties :=
  [("stroke", s.lineColor.text), ("color", s.labelColor.text)]

theorem isPlain_properties
    (s : EdgeStyle) :
    ∀ p ∈ s.properties, Properties.IsPlain p := by
  intro p hp
  simp only [properties, List.mem_cons, List.not_mem_nil, or_false] at hp
  rcases hp with rfl | rfl
  · exact isPlain_color (by decide) (by decide) _
  · exact isPlain_color (by decide) (by decide) _

theorem toList_write
    (s : EdgeStyle) (index : Nat) (indent : String) :
    (s.write index indent).toList =
      indent.toList ++
        ("linkStyle".toList ++
          ([' '] ++ (Nat.toDigits 10 index ++ [' '] ++ Properties.listOf s.properties))) := by
  have hindex : (index : Int).repr.toList = Nat.toDigits 10 index := Nat.toList_repr
  unfold write properties Properties.listOf Properties.chunk
  simp [String.toList_append, hindex]

/-- A link-style line gives the edge of its index the properties that are written. -/
theorem classify_write
    {index : Nat} {indent : String}
    (hindex : (Nat.toDigits 10 index).length ≤ Line.indexLimit)
    (hindent : ∀ c ∈ indent.toList, isBlank c = true)
    (s : EdgeStyle) :
    Line.classify (s.write index indent) = .linkStyle index s.properties := by
  have hplain := isPlain_properties s
  have hne : s.properties ≠ [] := List.cons_ne_nil _ _
  have hparts :=
    isDirective_listOf hplain hne Nat.toDigits_ne_nil
      fun c hc => @isDigit_of_mem_toDigits index c hc
  have hkeyword : "linkStyle".toList ≠ [] ∧ StartsTight "linkStyle".toList :=
    ⟨by decide, head?_cons_stops (by decide) _⟩
  rw [Line.classify_eq, toList_write, Line.core_append_of_blank hindent,
    core_directive hplain hne hkeyword, kind?_linkStyle hparts hindex, number_toDigits,
    Properties.read_listOf hplain hne]
  rfl

theorem isOneLine_write
    {indent : String}
    (hindent : IsOneLine indent)
    (s : EdgeStyle) (index : Nat) :
    IsOneLine (s.write index indent) := by
  have hdigits : '\n' ∉ Nat.toDigits 10 index := by
    intro hmem
    exact absurd (isDigit_of_mem_toDigits hmem) (by decide)
  have hlist := Properties.isOneLine_listOf (isPlain_properties s)
  unfold IsOneLine at *
  rw [toList_write]
  simp [hindent, hdigits, hlist]

/-- A written style is read back, whatever it overwrites. -/
theorem overwrite_properties
    (s start : EdgeStyle) :
    start.overwrite s.properties = s := by
  have hline : s.properties.color? "stroke" = some s.lineColor := by
    simp [Properties.color?, Record.last?, properties, ofText?_text]
  have hlabel : s.properties.color? "color" = some s.labelColor := by
    simp [Properties.color?, Record.last?, properties, ofText?_text]
  unfold overwrite
  rw [hline, hlabel]
  rfl

end EdgeStyle

/--
The line of a style is a style line of the same node or edge, and reading it gives the
style back.  A style of a node is read into the default style and comes back up to the
sign of a zero width; a style of an edge takes the place of any other, for every index
that can be read at all.
-/
theorem style_lines_read_back :
    (∀ (s : NodeStyle) (id indent : String),
      isIdentifier id.toList = true →
      (∀ c ∈ indent.toList, isBlank c = true) →
      ∃ properties s',
        Line.classify (s.write id indent) = .style id properties ∧
          ({} : NodeStyle).overwrite properties = .ok s' ∧
          s'.agrees s = true) ∧
    ∀ (s : EdgeStyle) (index : Nat) (indent : String),
      (Nat.toDigits 10 index).length ≤ Line.indexLimit →
      (∀ c ∈ indent.toList, isBlank c = true) →
      ∃ properties,
        Line.classify (s.write index indent) = .linkStyle index properties ∧
          ∀ start : EdgeStyle, start.overwrite properties = s := by
  constructor
  · intro s id indent hid hindent
    obtain ⟨s', hread, hagrees⟩ := s.overwrite_properties {} rfl
    exact ⟨s.properties, s', s.classify_write hid hindent, hread, hagrees⟩
  · intro s index indent hindex hindent
    exact ⟨s.properties, s.classify_write hindex hindent, s.overwrite_properties⟩

/-- A keyword as id, an arrow and nothing as colours, and the smallest width and a negative zero. -/
theorem style_lines_read_back_of_arrows :
    let arrow : Color := ⟨"-->|[x]", by decide⟩
    let empty : Color := ⟨"", by decide⟩
    let tiny : Width := ⟨1, false, by decide, by decide⟩
    let zero : Width := ⟨0, true, by decide, by decide⟩
    let s : NodeStyle := ⟨arrow, empty, arrow, tiny, .dashed⟩
    let t : NodeStyle := { s with borderWidth := zero }
    let u : EdgeStyle := ⟨empty, arrow⟩
    isIdentifier "style".toList = true ∧
    t.write "style" "\t" =
      "\tstyle style stroke-width:0px,stroke:-->|[x],color:-->|[x],fill:,stroke-dasharray:5 5" ∧
    u.write 10 "" = "linkStyle 10 stroke:,color:-->|[x]" ∧
    (∃ properties s',
      Line.classify (s.write "style" "\t") = .style "style" properties ∧
        ({} : NodeStyle).overwrite properties = .ok s' ∧ s'.agrees s = true) ∧
    (∃ properties t',
      Line.classify (t.write "style" "\t") = .style "style" properties ∧
        ({} : NodeStyle).overwrite properties = .ok t' ∧ t'.agrees t = true) ∧
    ∃ properties,
      Line.classify (u.write 10 "") = .linkStyle 10 properties ∧
        ∀ start : EdgeStyle, start.overwrite properties = u := by
  intro arrow empty tiny zero s t u
  have hid : isIdentifier "style".toList = true := by
    decide
  have htab : ∀ c ∈ "\t".toList, isBlank c = true := List.all_eq_true.mp (by decide)
  obtain ⟨hnodes, hedges⟩ := style_lines_read_back
  exact ⟨hid, by decide +kernel, by decide +kernel, hnodes s "style" "\t" hid htab,
    hnodes t "style" "\t" hid htab, hedges u 10 "" (by decide) (by simp)⟩

end Flowchart
