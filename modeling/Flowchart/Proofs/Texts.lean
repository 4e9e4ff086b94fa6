import Flowchart.Text.Character
import Flowchart.Text.Path
import Flowchart.Text.Word
import Mathlib.Algebra.Group.Nat.Defs

/-!
# Characters, the ends of texts, and lines

Blanks are neither word characters nor digits, so a word or a number that stands
between blanks is delimited on both sides.  Trimming removes exactly the blanks
around a text whose own ends are not blank.  A natural number is written in ASCII
digits, which are read back as it.

`splitLines_joinLines`: lines without line feeds are the lines of their text,
except that a single empty line is no line at all.
-/

namespace Flowchart
namespace Text

section Blanks

/-- A number held by a list of ranges lies in one of them. -/
theorem exists_range_of_inRanges
    {n : Nat} {ranges : List (Nat × Nat)}
    (h : inRanges n ranges = true) :
    ∃ r ∈ ranges, r.1 ≤ n ∧ n ≤ r.2 := by
  induction ranges with
  | nil =>
      simp [inRanges] at h
  | cons r rest ih =>
      obtain ⟨low, high⟩ := r
      unfold inRanges at h
      split at h
      · simp at h
      · rename_i hlow
        split at h
        · rename_i hhigh
          exact ⟨(low, high), List.mem_cons_self, by simpa using hlow, hhigh⟩
        · obtain ⟨r, hr, hn⟩ := ih h
          exact ⟨r, List.mem_cons_of_mem _ hr, hn⟩

/-- What holds of the few characters of the blank ranges holds of every blank. -/
theorem of_isBlank
    {p : Char → Prop}
    (h : ∀ r ∈ blankRanges, ∀ k < r.2 - r.1 + 1, p (Char.ofNat (r.1 + k)))
    {c : Char}
    (hc : isBlank c = true) :
    p c := by
  obtain ⟨r, hr, hlow, hhigh⟩ := exists_range_of_inRanges hc
  have hp := h r hr (c.toNat - r.1) (by omega)
  rw [Nat.add_sub_cancel' hlow, Char.ofNat_toNat] at hp
  exact hp

theorem isWord_of_isBlank
    {c : Char}
    (h : isBlank c = true) :
    isWord c = false :=
  of_isBlank (p := fun c => isWord c = false) (by decide +kernel) h

theorem isDigit_of_isBlank
    {c : Char}
    (h : isBlank c = true) :
    isDigit c = false :=
  of_isBlank (p := fun c => isDigit c = false) (by decide +kernel) h

theorem isBlank_of_isWord
    {c : Char}
    (h : isWord c = true) :
    isBlank c = false := by
  cases hb : isBlank c with
  | false =>
      rfl
  | true =>
      rw [isWord_of_isBlank hb] at h
      exact h.symm

theorem isBlank_of_isDigit
    {c : Char}
    (h : isDigit c = true) :
    isBlank c = false := by
  cases hb : isBlank c with
  | false =>
      rfl
  | true =>
      rw [isDigit_of_isBlank hb] at h
      exact h.symm

end Blanks

section LeadingRuns

theorem head?_cons_stops
    {p : Char → Bool} {c : Char}
    (h : p c = false)
    (rest : List Char) :
    ∀ d ∈ (c :: rest).head?, p d = false := by
  intro d hd
  rw [List.head?_cons, Option.mem_def, Option.some.injEq] at hd
  rw [← hd]
  exact h

theorem head?_append_stops
    {p : Char → Bool} {run : List Char}
    (hne : run ≠ [])
    (h : ∀ c ∈ run, p c = false)
    (rest : List Char) :
    ∀ d ∈ (run ++ rest).head?, p d = false := by
  obtain ⟨c, run, rfl⟩ := List.exists_cons_of_ne_nil hne
  exact head?_cons_stops (h c List.mem_cons_self) (run ++ rest)

theorem takeWhile_append_of_stop
    {p : Char → Bool} {run rest : List Char}
    (hrun : ∀ c ∈ run, p c = true)
    (hrest : ∀ c ∈ rest.head?, p c = false) :
    (run ++ rest).takeWhile p = run := by
  rw [List.takeWhile_append_of_pos hrun]
  cases rest with
  | nil =>
      simp
  | cons c rest =>
      have hc : p c = false := hrest c rfl
      simp [hc]

theorem dropWhile_append_of_stop
    {p : Char → Bool} {run rest : List Char}
    (hrun : ∀ c ∈ run, p c = true)
    (hrest : ∀ c ∈ rest.head?, p c = false) :
    (run ++ rest).dropWhile p = rest := by
  rw [List.dropWhile_append_of_pos hrun]
  cases rest with
  | nil =>
      rfl
  | cons c rest =>
      have hc : p c = false := hrest c rfl
      simp [hc]

/-- Two runs that go as far as they can are the same if the texts are. -/
theorem eq_of_append_eq_append
    {p : Char → Bool} {run run' rest rest' : List Char}
    (hrun : ∀ c ∈ run, p c = true)
    (hrun' : ∀ c ∈ run', p c = true)
    (hrest : ∀ c ∈ rest.head?, p c = false)
    (hrest' : ∀ c ∈ rest'.head?, p c = false)
    (h : run ++ rest = run' ++ rest') :
    run = run' ∧ rest = rest' := by
  have htake := congrArg (List.takeWhile p) h
  rw [takeWhile_append_of_stop hrun hrest, takeWhile_append_of_stop hrun' hrest']
    at htake
  subst htake
  exact ⟨rfl, List.append_cancel_left h⟩

/-- A text without its first run does not go on with that run. -/
theorem head?_dropWhile
    {p : Char → Bool} {cs : List Char} {c : Char}
    (h : c ∈ (cs.dropWhile p).head?) :
    p c = false := by
  have := List.head?_dropWhile_not p cs
  rw [Option.mem_def] at h
  simpa [h] using this

theorem of_mem_takeWhile
    {p : Char → Bool} {cs : List Char} {c : Char}
    (h : c ∈ cs.takeWhile p) :
    p c = true :=
  List.all_eq_true.mp List.all_takeWhile c h

end LeadingRuns

section Trimming

/-- A text of blanks, or no text. -/
def AreBlank (cs : List Char) : Prop := ∀ c ∈ cs, isBlank c = true

/-- A text starts with no blank. -/
def StartsTight (cs : List Char) : Prop :=
  ∀ c ∈ cs.head?, isBlank c = false

/-- A text ends with no blank. -/
def EndsTight (cs : List Char) : Prop :=
  ∀ c ∈ cs.getLast?, isBlank c = false

theorem startsTight_append
    {front back : List Char}
    (hne : front ≠ [])
    (h : StartsTight front) :
    StartsTight (front ++ back) := by
  obtain ⟨c, front, rfl⟩ := List.exists_cons_of_ne_nil hne
  exact h

theorem getLast?_append_of_ne_nil
    {front back : List Char}
    (hne : back ≠ []) :
    (front ++ back).getLast? = back.getLast? := by
  rw [List.getLast?_append, List.getLast?_eq_some_getLast hne, Option.some_or]

theorem trimStart_eq_self
    {cs : List Char}
    (h : StartsTight cs) :
    trimStart cs = cs := by
  cases cs with
  | nil =>
      rfl
  | cons c cs =>
      have hc : isBlank c = false := h c rfl
      simp [trimStart, hc]

theorem trimEnd_eq_self
    {cs : List Char}
    (h : EndsTight cs) :
    trimEnd cs = cs := by
  have hrev : trimStart cs.reverse = cs.reverse :=
    trimStart_eq_self (by simpa [StartsTight, EndsTight] using h)
  unfold trimEnd
  rw [show cs.reverse.dropWhile isBlank = cs.reverse from hrev, List.reverse_reverse]

theorem trim_eq_self
    {cs : List Char}
    (hstart : StartsTight cs)
    (hend : EndsTight cs) :
    trim cs = cs := by
  unfold trim
  rw [trimStart_eq_self hstart, trimEnd_eq_self hend]

theorem trimStart_append_of_blank
    {indent : List Char}
    (h : ∀ c ∈ indent, isBlank c = true)
    (cs : List Char) :
    trimStart (indent ++ cs) = trimStart cs :=
  List.dropWhile_append_of_pos h

theorem trim_append_of_blank
    {indent : List Char}
    (h : ∀ c ∈ indent, isBlank c = true)
    (cs : List Char) :
    trim (indent ++ cs) = trim cs := by
  unfold trim
  rw [trimStart_append_of_blank h]

theorem trimStart_eq_nil
    {cs : List Char}
    (h : ∀ c ∈ cs, isBlank c = true) :
    trimStart cs = [] := by
  have := trimStart_append_of_blank h []
  simpa [trimStart] using this

theorem trimEnd_append
    (front back : List Char) :
    trimEnd (front ++ back) =
      if trimEnd back = [] then trimEnd front else front ++ trimEnd back := by
  unfold trimEnd
  rw [List.reverse_append, List.dropWhile_append]
  simp only [List.isEmpty_iff, List.reverse_eq_nil_iff]
  split
  · rfl
  · rw [List.reverse_append, List.reverse_reverse]

/-- A text without the blanks at its end, and these blanks. -/
theorem exists_trimEnd
    (cs : List Char) :
    ∃ gap, AreBlank gap ∧ cs = trimEnd cs ++ gap := by
  refine ⟨(cs.reverse.takeWhile isBlank).reverse, ?_, ?_⟩
  · intro c hc
    exact of_mem_takeWhile (List.mem_reverse.mp hc)
  · unfold trimEnd
    rw [← List.reverse_append, List.takeWhile_append_dropWhile, List.reverse_reverse]

theorem trimEnd_append_of_blank
    {cs gap : List Char}
    (hends : EndsTight cs)
    (hgap : AreBlank gap) :
    trimEnd (cs ++ gap) = cs := by
  have hnil : trimEnd gap = [] :=
    congrArg List.reverse (trimStart_eq_nil fun c hc => hgap c (List.mem_reverse.mp hc))
  rw [trimEnd_append, if_pos hnil, trimEnd_eq_self hends]

theorem prefix_trimEnd
    (cs : List Char) :
    trimEnd cs <+: cs := by
  have hsuffix : cs.reverse.dropWhile isBlank <:+ cs.reverse := List.dropWhile_suffix _
  rw [← List.reverse_prefix, List.reverse_reverse] at hsuffix
  exact hsuffix

/-- A text that starts with no blank is all that is left when blanks before it are trimmed. -/
theorem trimStart_eq_iff
    {cs rest : List Char} :
    trimStart cs = rest ↔ StartsTight rest ∧ ∃ gap, AreBlank gap ∧ cs = gap ++ rest := by
  constructor
  · rintro rfl
    exact ⟨fun c hc => head?_dropWhile hc, cs.takeWhile isBlank,
      fun c hc => of_mem_takeWhile hc, List.takeWhile_append_dropWhile.symm⟩
  · rintro ⟨htight, gap, hgap, rfl⟩
    rw [trimStart_append_of_blank hgap, trimStart_eq_self htight]

end Trimming

section Pieces

/-- A part is held by a text if it stands somewhere in it. -/
theorem holds_eq_true_iff
    {part cs : List Char} :
    holds part cs = true ↔ part <:+: cs := by
  induction cs with
  | nil =>
      simp [holds]
  | cons c cs ih =>
      rw [holds, Bool.or_eq_true, List.isPrefixOf_iff_prefix, ih, List.infix_cons_iff]

/-- A text is cut at a separator if it has one, and then the separator stands at the cut. -/
theorem cut_eq_some_iff
    {sep : Char} {cs front back : List Char} :
    cut sep cs = (front, some back) ↔ cs = front ++ sep :: back ∧ sep ∉ front := by
  constructor
  · intro h
    obtain ⟨hfront, hback⟩ := Prod.mk.inj h
    have hsplit : cs.takeWhile (· != sep) ++ cs.dropWhile (· != sep) = cs :=
      List.takeWhile_append_dropWhile
    rw [← hfront]
    refine ⟨?_, fun hmem => absurd (of_mem_takeWhile hmem) (by simp)⟩
    cases hdrop : cs.dropWhile (· != sep) with
    | nil =>
        rw [hdrop] at hback
        cases hback
    | cons c rest =>
        have hhead : c ∈ (cs.dropWhile (· != sep)).head? := by
          rw [hdrop]
          rfl
        have hc : (c != sep) = false := head?_dropWhile (p := (· != sep)) hhead
        rw [bne_eq_false_iff_eq] at hc
        rw [hdrop, hc] at hsplit
        rw [hdrop] at hback
        cases hback
        exact hsplit.symm
  · rintro ⟨rfl, hfront⟩
    have hrun : ∀ c ∈ front, (c != sep) = true := by
      intro c hc
      rw [bne_iff_ne]
      rintro rfl
      exact hfront hc
    have hstop : ∀ c ∈ (sep :: back).head?, (c != sep) = false :=
      head?_cons_stops (p := (· != sep)) (by simp) back
    unfold cut
    rw [takeWhile_append_of_stop hrun hstop, dropWhile_append_of_stop hrun hstop]
    rfl

theorem cut_eq_none_iff
    {sep : Char} {cs front : List Char} :
    cut sep cs = (front, none) ↔ cs = front ∧ sep ∉ cs := by
  cases hcut : cut sep cs with
  | mk front' back =>
      cases back with
      | none =>
          have hdrop : cs.dropWhile (· != sep) = [] := by
            have htail : (cs.dropWhile (· != sep)).tail? = none := congrArg Prod.snd hcut
            cases hdrop : cs.dropWhile (· != sep) with
            | nil =>
                rfl
            | cons c rest =>
                rw [hdrop] at htail
                cases htail
          have hsplit : cs.takeWhile (· != sep) ++ cs.dropWhile (· != sep) = cs :=
            List.takeWhile_append_dropWhile
          have hfront : cs.takeWhile (· != sep) = front' := congrArg Prod.fst hcut
          rw [hdrop, List.append_nil] at hsplit
          have hsep : sep ∉ cs := by
            intro hmem
            rw [← hsplit] at hmem
            exact absurd (of_mem_takeWhile hmem) (by simp)
          simp [← hfront, hsplit, hsep]
      | some back =>
          obtain ⟨rfl, _⟩ := cut_eq_some_iff.mp hcut
          simp

/-- Pieces between separators, when one of the separators is known. -/
theorem splitOn_append
    (sep : Char) (front back : List Char) :
    (front ++ sep :: back).splitOn sep = front.splitOn sep ++ back.splitOn sep := by
  induction front with
  | nil =>
      rw [List.nil_append, List.splitOn_cons_eq_if_modifyHead, if_pos (beq_self_eq_true sep),
        List.splitOn_nil, List.singleton_append]
  | cons c front ih =>
      rw [List.cons_append, List.splitOn_cons_eq_if_modifyHead,
        List.splitOn_cons_eq_if_modifyHead, ih]
      split
      · rfl
      · obtain ⟨first, rest, hsplit⟩ :=
          List.exists_cons_of_ne_nil (List.splitOn_ne_nil sep front)
        rw [hsplit]
        rfl

/-- A text without separators is one piece. -/
theorem splitOn_eq_singleton
    {sep : Char} {cs : List Char}
    (h : sep ∉ cs) :
    cs.splitOn sep = [cs] := by
  have hsplit : ([sep].intercalate [cs]).splitOn sep = [cs] :=
    List.splitOn_intercalate sep (by simpa using h) (by simp)
  simpa using hsplit

end Pieces

section Numbers

/-- The value of an ASCII digit is its distance from zero. -/
theorem digit?_of_isAsciiDigit
    {c : Char}
    (h : c.isDigit = true) :
    digit? c = some (c.toNat - '0'.toNat) := by
  have hrange := Char.isDigit_iff_toNat.mp h
  have hascii : c.toNat < 0x80 := by
    have : '9'.toNat = 0x39 := rfl
    omega
  simp [digit?, hascii, h]

theorem isDigit_of_mem_toDigits
    {n : Nat} {c : Char}
    (h : c ∈ Nat.toDigits 10 n) :
    isDigit c = true := by
  have hc := Nat.isDigit_of_mem_toDigits (by decide) (by decide) h
  simp [isDigit, digit?_of_isAsciiDigit hc]

/-- A digit is less than ten. -/
theorem digit?_lt
    {c : Char} {d : Nat}
    (h : digit? c = some d) :
    d < 10 := by
  unfold digit? at h
  split at h
  · split at h
    · rename_i hc
      have hrange := Char.isDigit_iff_toNat.mp hc
      have : '9'.toNat = 0x39 := rfl
      cases h
      omega
    · simp at h
  · obtain ⟨first, hfirst, hd⟩ := Option.map_eq_some_iff.mp h
    have hrange := List.find?_some hfirst
    simp only [Bool.and_eq_true, decide_eq_true_eq] at hrange
    omega

/-- The digits of a natural number write that number. -/
theorem number_toDigits
    (n : Nat) :
    number (Nat.toDigits 10 n) = n := by
  have hfold :
      ∀ (digits : List Char) (start : Nat),
        (∀ c ∈ digits, c.isDigit = true) →
        digits.foldl (fun n c => 10 * n + (digit? c).getD 0) start =
          Nat.ofDigitChars 10 digits start := by
    intro digits
    induction digits with
    | nil =>
        intro start _
        rfl
    | cons c digits ih =>
        intro start hall
        have hc := digit?_of_isAsciiDigit (hall c List.mem_cons_self)
        rw [List.foldl_cons, Nat.ofDigitChars_cons, hc]
        exact ih _ fun c' hc' => hall c' (List.mem_cons_of_mem _ hc')
  unfold number
  rw [hfold _ 0 fun c hc => Nat.isDigit_of_mem_toDigits (by decide) (by decide) hc]
  exact Nat.ofDigitChars_ten_toDigits

theorem number_foldl
    (digits : List Char) (start : Nat) :
    digits.foldl (fun n c => 10 * n + (digit? c).getD 0) start =
      start * 10 ^ digits.length + number digits := by
  induction digits generalizing start with
  | nil =>
      simp [number]
  | cons c digits ih =>
      unfold number
      rw [List.foldl_cons, List.foldl_cons, ih, ih, List.length_cons, Nat.pow_succ]
      generalize number digits = m
      generalize 10 ^ digits.length = p
      generalize (digit? c).getD 0 = d
      grind

/-- A run of digits after another one moves it by as many places as it has digits. -/
theorem number_append
    (front back : List Char) :
    number (front ++ back) = number front * 10 ^ back.length + number back := by
  unfold number
  rw [List.foldl_append]
  exact number_foldl back _

theorem number_lt
    (digits : List Char) :
    number digits < 10 ^ digits.length := by
  induction digits with
  | nil =>
      simp [number]
  | cons c digits ih =>
      have hd : number [c] < 10 := by
        cases hc : digit? c with
        | none =>
            simp [number, hc]
        | some d =>
            simpa [number, hc] using digit?_lt hc
      have happend := number_append [c] digits
      rw [List.singleton_append] at happend
      rw [happend, List.length_cons, Nat.pow_succ]
      have hmul : number [c] * 10 ^ digits.length ≤ 9 * 10 ^ digits.length :=
        Nat.mul_le_mul_right _ (by omega)
      omega

/-- A smaller number than that of a run of digits needs no more digits. -/
theorem length_toDigits_le
    {n : Nat} {digits : List Char}
    (hne : digits ≠ [])
    (h : n ≤ number digits) :
    (Nat.toDigits 10 n).length ≤ digits.length := by
  rw [Nat.length_toDigits_le_iff (by decide) (List.length_pos_iff.mpr hne)]
  exact Nat.lt_of_le_of_lt h (number_lt digits)

end Numbers

end Text

section Lines

/-- A line that no line feed breaks in two. -/
def IsOneLine (line : String) : Prop :=
  '\n' ∉ line.toList

instance (line : String) : Decidable (IsOneLine line) :=
  inferInstanceAs (Decidable ('\n' ∉ line.toList))

theorem isOneLine_append
    {front back : String} :
    IsOneLine (front ++ back) ↔ IsOneLine front ∧ IsOneLine back := by
  unfold IsOneLine
  rw [String.toList_append, List.mem_append, not_or]

theorem isOneLine_ofList
    {cs : List Char} :
    IsOneLine (String.ofList cs) ↔ '\n' ∉ cs := by
  unfold IsOneLine
  rw [String.toList_ofList]

/-- No piece of a text cut at all separators holds the separator. -/
theorem not_mem_of_mem_splitOn
    {sep : Char} {cs piece : List Char}
    (h : piece ∈ cs.splitOn sep) :
    sep ∉ piece := by
  induction cs generalizing piece with
  | nil =>
      simp only [List.splitOn_nil, List.mem_singleton] at h
      simp [h]
  | cons c cs ih =>
      rw [List.splitOn_cons_eq_if_modifyHead] at h
      split at h
      · rcases List.mem_cons.mp h with rfl | h
        · exact List.not_mem_nil
        · exact ih h
      · rename_i hc
        cases hsplit : cs.splitOn sep with
        | nil =>
            exact absurd hsplit (List.splitOn_ne_nil _ _)
        | cons first rest =>
            rw [hsplit] at h ih
            rcases List.mem_cons.mp h with rfl | h
            · have hfirst := ih List.mem_cons_self
              simp only [List.mem_cons, not_or]
              exact ⟨fun hsep => hc (by simp [hsep]), hfirst⟩
            · exact ih (List.mem_cons_of_mem _ h)

theorem isOneLine_of_mem_splitLines
    {text line : String}
    (h : line ∈ splitLines text) :
    IsOneLine line := by
  unfold splitLines at h
  split at h
  · simp at h
  · obtain ⟨piece, hpiece, rfl⟩ := List.mem_map.mp h
    exact isOneLine_ofList.mpr (not_mem_of_mem_splitOn hpiece)

/-- The lines of the text of some lines; one empty line alone is lost. -/
theorem splitLines_joinLines
    {lines : List String}
    (h : ∀ line ∈ lines, IsOneLine line)
    (hne : lines ≠ [""]) :
    splitLines (joinLines lines) = lines := by
  have htext :
      (joinLines lines).toList = ['\n'].intercalate (lines.map String.toList) := by
    unfold joinLines
    rw [String.toList_intercalate]
    rfl
  cases lines with
  | nil =>
      rfl
  | cons line lines =>
      have hpieces :
          (joinLines (line :: lines)).toList.splitOn '\n' =
            (line :: lines).map String.toList := by
        rw [htext]
        refine List.splitOn_intercalate '\n' ?_ (by simp)
        intro piece hpiece
        obtain ⟨other, hother, rfl⟩ := List.mem_map.mp hpiece
        exact h other hother
      unfold splitLines
      split
      · rename_i hempty
        rw [String.isEmpty_iff] at hempty
        rw [hempty] at hpieces
        have hsingle : (line :: lines).map String.toList = [[]] := hpieces.symm
        simp only [List.map_cons, List.cons.injEq, List.map_eq_nil_iff] at hsingle
        obtain ⟨hline, hlines⟩ := hsingle
        subst hlines
        rw [String.toList_eq_nil_iff] at hline
        exact absurd (by rw [hline]) hne
      · rw [hpieces, List.map_map]
        simp

end Lines

section Identifiers

open Text

theorem isIdentifier_iff
    {cs : List Char} :
    isIdentifier cs = true ↔ cs ≠ [] ∧ ∀ c ∈ cs, isWord c = true := by
  simp [isIdentifier]

/-- A word character can stand at either end of the core of a line. -/
theorem tight_of_isWord
    {c : Char}
    (h : isWord c = true) :
    isBlank c = false ∧ c ≠ ';' := by
  refine ⟨isBlank_of_isWord h, ?_⟩
  rintro rfl
  exact absurd h (by decide)

theorem not_mem_of_isIdentifier
    {cs : List Char} {c : Char}
    (h : isIdentifier cs = true)
    (hc : isWord c = false) :
    c ∉ cs := by
  intro hmem
  rw [(isIdentifier_iff.mp h).2 c hmem] at hc
  exact absurd hc (by decide)

theorem isOneLine_of_isIdentifier
    {id : String}
    (h : isIdentifier id.toList = true) :
    IsOneLine id :=
  not_mem_of_isIdentifier h (by decide)

theorem startsTight_of_isIdentifier
    {cs : List Char}
    (h : isIdentifier cs = true) :
    StartsTight cs := by
  intro c hc
  exact isBlank_of_isWord ((isIdentifier_iff.mp h).2 c (List.mem_of_mem_head? hc))

end Identifiers

end Flowchart
