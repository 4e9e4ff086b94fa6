import Flowchart.Proofs.Announcements

/-!
# What late overlays show

An overlay that listens for renderings shows the boxes of the answer that was accepted
last, and none if that answer failed.  One that is opened late starts with the layout
that was accepted last, even if a failure was accepted after it.

* `Renders.shown`: what an overlay should show, by the state of rendering alone.
* `Moment.Settles`: what holds of an overlay at a moment of a session whose listeners
  make no changes; it is kept by every task and by every command.
* `late_overlay_agrees_iff`: a late overlay answers as an early one exactly if no failure
  was accepted last, or if there is nothing on it.
-/

namespace Flowchart

/-- The boxes that an overlay shows. -/
def Overlay.layout (o : Overlay) : Layout := ⟨o.nodes, o.edges⟩

/-- The boxes that an overlay takes from a layout: one for each id. -/
def Layout.boxes (layout : Layout) : Layout :=
  ⟨Record.ofPairs layout.nodes, Record.ofPairs layout.edges⟩

/-- The boxes of an answer: there are none if it failed. -/
def Rendering.boxes (r : Rendering) : Layout :=
  match r.result with
  | .ok layout => layout.boxes
  | .error _ => {}

namespace Renders

/-- The boxes of the answer that was accepted last. -/
def shown (renders : Renders) : Layout :=
  match renders.lastError, renders.current with
  | none, some (_, layout) => layout.boxes
  | _, _ => {}

theorem shown_of_failed
    {renders : Renders}
    (h : renders.lastError.isSome = true) :
    renders.shown = {} := by
  obtain ⟨failure, hfailure⟩ := Option.isSome_iff_exists.mp h
  unfold shown
  rw [hfailure]

theorem shown_publish
    (renders : Renders) (r : Rendering) :
    (renders.publish r).shown = r.boxes := by
  unfold publish Rendering.boxes
  cases r.result with
  | ok layout =>
      rfl
  | error reason =>
      rfl

/-- A request shows nothing new. -/
theorem request_shown
    (renders : Renders) (revision : Int) (text : String) :
    (renders.request revision text).1.shown = renders.shown ∧
      (renders.request revision text).1.lastError = renders.lastError := by
  rw [request_eq]
  exact ⟨rfl, rfl⟩

end Renders

namespace Overlay

theorem layout_follow
    (o : Overlay) (r : Rendering) :
    (o.follow r).layout = r.boxes := by
  unfold follow Rendering.boxes
  cases r.result with
  | ok layout =>
      rfl
  | error reason =>
      rfl

/-- A click changes what is selected, not what is shown. -/
theorem layout_click
    (o : Overlay) (x y : Double) :
    (o.click x y).1.layout = o.layout := by
  unfold click
  split
  · rfl
  · rfl
  · rfl

/-- Two overlays answer alike at every point. -/
def AgreesWith (o o' : Overlay) : Prop :=
  ∀ x y, o.nodeAt? x y = o'.nodeAt? x y ∧ o.edgeAt? x y = o'.edgeAt? x y

/-- Nothing can be found at any point. -/
def IsBlank (o : Overlay) : Prop :=
  ∀ x y, o.nodeAt? x y = none ∧ o.edgeAt? x y = none

theorem agreesWith_of_layout_eq
    {o o' : Overlay}
    (h : o.layout = o'.layout) :
    o.AgreesWith o' := by
  obtain ⟨hnodes, hedges⟩ := Layout.mk.inj h
  intro x y
  unfold nodeAt? edgeAt?
  rw [hnodes, hedges]
  exact ⟨rfl, rfl⟩

theorem isBlank_of_layout_eq
    {o : Overlay}
    (h : o.layout = {}) :
    o.IsBlank := by
  obtain ⟨hnodes, hedges⟩ := Layout.mk.inj h
  intro x y
  unfold nodeAt? edgeAt?
  rw [hnodes, hedges]
  exact ⟨rfl, rfl⟩

end Overlay

/--
What holds of the overlay of a number at a moment of a session whose listeners make no
changes.  Answers are announced in turn, and what is still to be announced to the overlay
is the answer that was accepted last.  If the overlay listens, and if a condition on the
last error holds, the overlay shows that answer or is still to hear of it.
-/
structure Moment.Settles (condition : Option (Int × String) → Prop) (number : Nat) (m : Moment) :
    Prop where
  quiet : m.session.reactionCount = 0
  inTurn : Task.InTurn m.agenda
  pending : ∀ r,
    .announceRender (.overlay number) r ∈ m.agenda → r.boxes = m.session.renders.shown
  shows : ∃ o,
    m.session.overlays[number]? = some o ∧
      (.overlay number ∈ m.session.renderListeners →
        condition m.session.renders.lastError →
          o.layout = m.session.renders.shown ∨
            ∃ r, .announceRender (.overlay number) r ∈ m.agenda)

namespace Moment

variable {condition : Option (Int × String) → Prop} {number : Nat}
  {s t : Session} {task : Task} {tasks rest : List Task}

/-- A task that is nothing to the overlay. -/
theorem Settles.skip
    (h : Settles condition number ⟨s, task :: rest⟩)
    (htask : ∀ r, task ≠ .announceRender (.overlay number) r)
    (hreactions : t.reactions = s.reactions)
    (hrenders : t.renders = s.renders)
    (hlisteners : t.renderListeners = s.renderListeners)
    (hoverlay : t.overlays[number]? = s.overlays[number]?) :
    Settles condition number ⟨t, rest⟩ := by
  obtain ⟨o, ho, hshows⟩ := h.shows
  refine ⟨?_, (List.pairwise_cons.mp h.inTurn).2, ?_, o, hoverlay.trans ho, ?_⟩
  · rw [Session.reactionCount, hreactions]
    exact h.quiet
  · intro r hr
    rw [hrenders]
    exact h.pending r (List.mem_cons_of_mem _ hr)
  · dsimp only
    rw [hlisteners, hrenders]
    intro hlistens hcondition
    refine (hshows hlistens hcondition).imp_right ?_
    rintro ⟨r, hr⟩
    exact ⟨r, (List.mem_cons.mp hr).resolve_left fun heq => htask r heq.symm⟩

/--
Every task keeps what holds of an overlay.  An answer that is accepted while the overlay
listens is still to be announced to it.
-/
theorem Settles.work
    (h : Settles condition number ⟨s, task :: rest⟩)
    (hwork : s.work task = .ok (t, tasks)) :
    Settles condition number ⟨t, tasks ++ rest⟩ := by
  cases task with
  | announceChange name d =>
      rw [Session.work, @Session.react_of_quiet (s.emit (.changed name d.text)) h.quiet] at hwork
      cases hwork
      exact h.skip (by simp) rfl rfl rfl rfl
  | announceRender listener r =>
      cases listener with
      | named name =>
          rw [Session.work, @Session.react_of_quiet
            (s.emit (.rendered name r.revision r.failure?)) h.quiet] at hwork
          cases hwork
          exact h.skip (by simp) rfl rfl rfl rfl
      | overlay other =>
          cases hwork
          by_cases hother : other = number
          · subst hother
            obtain ⟨o, ho, _⟩ := h.shows
            have hr := h.pending r List.mem_cons_self
            refine ⟨h.quiet, (List.pairwise_cons.mp h.inTurn).2,
              fun r' hr' => h.pending r' (List.mem_cons_of_mem _ hr'), o.follow r, ?_, ?_⟩
            · simp [ho]
            · exact fun _ _ => .inl ((Overlay.layout_follow o r).trans hr)
          · exact h.skip (by simp [hother]) rfl rfl rfl (by simp [hother])
  | accept r =>
      simp only [Session.work] at hwork
      split at hwork
      · cases hwork
        obtain ⟨o, ho, _⟩ := h.shows
        refine ⟨h.quiet, h.inTurn.work h.quiet (if_pos ‹_›), ?_, o, ho, ?_⟩
        · intro r' hr'
          dsimp only
          rw [Renders.shown_publish]
          rcases List.mem_append.mp hr' with hnew | hold
          · obtain ⟨_, _, heq⟩ := List.mem_map.mp hnew
            cases heq
            rfl
          · exact absurd rfl (h.inTurn.ne_announceRender rfl hold)
        · intro hlistens _
          exact .inr ⟨r, List.mem_append_left _ (List.mem_map.mpr ⟨_, hlistens, rfl⟩)⟩
      · cases hwork
        exact h.skip (by simp) rfl rfl rfl rfl
  | report event =>
      cases hwork
      exact h.skip (by simp) rfl rfl rfl rfl

/-- What holds of an overlay holds when all tasks are done. -/
theorem Settles.finish
    {m : Moment}
    (h : Settles condition number m) :
    Settles condition number ⟨Session.finish m, []⟩ := by
  obtain ⟨s, tasks⟩ := m
  unfold Session.finish
  induction s, tasks using Session.run.induct with
  | case1 s =>
      rw [Session.run_nil]
      exact h
  | case2 s task rest t fault hwork =>
      obtain ⟨u, tasks, hwork', _⟩ := Session.work_of_quiet h.quiet task
      cases hwork.symm.trans hwork'
  | case3 s task rest t tasks hwork ih =>
      rw [Session.run_cons, hwork]
      exact ih (h.work hwork)

end Moment

/-- The commands by which no listener gets a reaction. -/
def Session.Command.IsQuiet : Session.Command → Prop
  | .subscribe _ _ reactions => Session.supply reactions = 0
  | _ => True

namespace Session

/-- What the beginning of a command keeps of the overlay of a number. -/
structure Keeps (number : Nat) (s t : Session) : Prop where
  quiet : s.reactionCount = 0 → t.reactionCount = 0
  shown : t.renders.shown = s.renders.shown
  lastError : t.renders.lastError = s.renders.lastError
  listens : .overlay number ∈ t.renderListeners → .overlay number ∈ s.renderListeners
  overlay : ∀ o, s.overlays[number]? = some o →
    ∃ o', t.overlays[number]? = some o' ∧ o'.layout = o.layout

variable {s t u : Session} {number : Nat}

theorem Keeps.refl
    (number : Nat) (s : Session) :
    Keeps number s s where
  quiet := id
  shown := rfl
  lastError := rfl
  listens := id
  overlay := fun o ho => ⟨o, ho, rfl⟩

theorem Keeps.trans
    (h : Keeps number s t)
    (h' : Keeps number t u) :
    Keeps number s u where
  quiet := fun hs => h'.quiet (h.quiet hs)
  shown := h'.shown.trans h.shown
  lastError := h'.lastError.trans h.lastError
  listens := fun hu => h.listens (h'.listens hu)
  overlay := by
    intro o ho
    obtain ⟨o', ho', heq⟩ := h.overlay o ho
    obtain ⟨o'', ho'', heq'⟩ := h'.overlay o' ho'
    exact ⟨o'', ho'', heq'.trans heq⟩

/-- A request keeps all overlays as they are. -/
theorem keeps_request
    (number : Nat) (s : Session) (revision : Int) (text : String) :
    Keeps number s { s with renders := (s.renders.request revision text).1 } where
  quiet := id
  shown := (s.renders.request_shown revision text).1
  lastError := (s.renders.request_shown revision text).2
  listens := id
  overlay := fun o ho => ⟨o, ho, rfl⟩

theorem perform_keeps
    {change : Change} {tasks : List Task} {effect : Effect}
    (h : s.perform change = .ok (t, tasks, effect))
    (number : Nat) :
    Keeps number s t := by
  obtain ⟨diagnostics, ⟨rfl, _⟩ | ⟨d, hcommit⟩⟩ := perform_eq_ok h
  · exact ⟨id, rfl, rfl, id, fun o ho => ⟨o, ho, rfl⟩⟩
  · have hkeeps := keeps_request number s (s.revision + 1 : Nat) d.text
    cases hcommit
    exact ⟨hkeeps.quiet, hkeeps.shown, hkeeps.lastError, hkeeps.listens, hkeeps.overlay⟩

theorem beginChange_keeps
    (number : Nat) (s : Session) (reaction : Reaction) :
    Keeps number s (s.beginChange reaction).session := by
  obtain h | ⟨change, t, tasks, effect, hperform, h⟩ := beginChange_cases s reaction
  · rw [h]
    exact Keeps.refl number s
  · rw [h]
    exact perform_keeps hperform number

/-- A click may select something on an overlay, but leaves all boxes in place. -/
theorem beginClick_keeps
    (number : Nat) (s : Session) (other : Fin s.overlays.length) (x y : Double) :
    Keeps number s (s.beginClick other x y).session := by
  unfold beginClick
  dsimp only
  have hset : Keeps number s
      { s with overlays := s.overlays.set other ((s.overlays.get other).click x y).1 } := by
    refine ⟨id, rfl, rfl, id, ?_⟩
    intro o ho
    by_cases heq : (other : Nat) = number
    · subst heq
      have hother : s.overlays.get other = o := by
        rw [List.get_eq_getElem]
        exact (List.getElem?_eq_some_iff.mp ho).2
      refine ⟨_, List.getElem?_set_self other.isLt, ?_⟩
      rw [hother]
      exact Overlay.layout_click o x y
    · exact ⟨o, by simp [heq, ho], rfl⟩
  cases ((s.overlays.get other).click x y).2 with
  | none =>
      exact hset
  | some ends =>
      exact hset.trans (beginChange_keeps number _ _)

theorem LosesListeners.keeps
    (h : LosesListeners s t)
    (number : Nat) :
    Keeps number s t := by
  obtain ⟨changes, renders, rfl, hrenders⟩ := h
  exact ⟨id, rfl, rfl, hrenders _, fun o ho => ⟨o, ho, rfl⟩⟩

theorem countReactions_append
    (xs ys : List ((Signal × String) × Reactions)) :
    countReactions (xs ++ ys) = countReactions xs + countReactions ys := by
  induction xs with
  | nil =>
      simp [countReactions]
  | cons x xs ih =>
      simp only [List.cons_append, countReactions, ih]
      omega

theorem subscribe_keeps
    {reactions : Reactions}
    (h : supply reactions = 0)
    (number : Nat) (s : Session) (signal : Signal) (name : String) :
    Keeps number s (s.subscribe signal name reactions).1 := by
  have hquiet : s.reactionCount = 0 → (s.subscribe signal name reactions).1.reactionCount = 0 := by
    intro hs
    unfold reactionCount at hs ⊢
    unfold subscribe
    cases signal <;>
    · dsimp only
      split
      · exact hs
      · rw [countReactions_append, hs]
        simp [countReactions, h]
  cases signal with
  | change =>
      exact ⟨hquiet, rfl, rfl, id, fun o ho => ⟨o, ho, rfl⟩⟩
  | render =>
      refine ⟨hquiet, rfl, rfl, ?_, fun o ho => ⟨o, ho, rfl⟩⟩
      simp [subscribe]

/-- Another overlay is opened. -/
theorem openOverlay_keeps
    (h : number < s.overlays.length) :
    Keeps number s s.openOverlay.1 where
  quiet := id
  shown := rfl
  lastError := rfl
  listens := by
    have hne : number ≠ s.overlays.length := Nat.ne_of_lt h
    simp [openOverlay, hne]
  overlay := by
    intro o ho
    exact ⟨o, by simp [openOverlay, List.getElem?_append_left h, ho], rfl⟩

/-- A command without reactions keeps every overlay that there is. -/
theorem begin_keeps
    {c : Command}
    (hquiet : c.IsQuiet)
    (h : number < s.overlays.length) :
    Keeps number s (s.begin c).session := by
  have hbegins := begins s c
  generalize s.begin c = m at hbegins ⊢
  cases hbegins with
  | change reaction =>
      exact beginChange_keeps number s reaction
  | order revision text =>
      exact keeps_request number s revision text
  | accept _ r =>
      exact Keeps.refl number s
  | click _ other x y =>
      exact beginClick_keeps number s other x y
  | subscribe signal name reactions =>
      exact subscribe_keeps hquiet number s signal name
  | openOverlay =>
      exact openOverlay_keeps h
  | rest _ hloses =>
      exact hloses.keeps number

/-- No command begins with the announcement of an answer. -/
theorem begin_ne_announceRender
    (s : Session) (c : Command) :
    ∀ task ∈ (s.begin c).agenda, ∀ listener r, task ≠ .announceRender listener r := by
  rintro task htask listener r rfl
  by_cases hown : c.IsOwn
  · cases (((begin_announces hown s).renders listener r).mp htask).1
  · cases c with
    | order revision text =>
        simp [begin] at htask
    | _ =>
        exact hown trivial

end Session

namespace Moment

variable {condition : Option (Int × String) → Prop} {number : Nat} {s t : Session}

/-- What holds of an overlay between two commands is kept by each of them. -/
theorem Settles.step
    {c : Session.Command}
    (h : Settles condition number ⟨s, []⟩)
    (hquiet : c.IsQuiet) :
    Settles condition number ⟨(s.step c).1, []⟩ := by
  obtain ⟨o, ho, hshows⟩ := h.shows
  have hnumber : number < s.overlays.length := (List.getElem?_eq_some_iff.mp ho).1
  have hkeeps := @Session.begin_keeps { s with log := [] } number c hquiet hnumber
  have htasks := Session.begin_ne_announceRender { s with log := [] } c
  have hbegun : Settles condition number (Session.begin { s with log := [] } c) := by
    obtain ⟨o', ho', hlayout⟩ := hkeeps.overlay o ho
    refine ⟨hkeeps.quiet h.quiet, Task.inTurn_of_forall_ne htasks, ?_, o', ho', ?_⟩
    · exact fun r hr => absurd rfl (htasks _ hr _ r)
    · rw [hkeeps.shown, hkeeps.lastError, hlayout]
      intro hlistens hcondition
      rcases hshows (hkeeps.listens hlistens) hcondition with hshown | ⟨r, hr⟩
      · exact .inl hshown
      · cases hr
  have hfinish := hbegun.finish
  rwa [← Session.obey_fst] at hfinish

theorem Settles.after
    {commands : List Session.Command}
    (h : Settles condition number ⟨s, []⟩)
    (hquiet : ∀ c ∈ commands, c.IsQuiet) :
    Settles condition number ⟨s.after commands, []⟩ := by
  induction commands generalizing s with
  | nil =>
      exact h
  | cons c commands ih =>
      rw [List.forall_mem_cons] at hquiet
      exact ih (h.step hquiet.1) hquiet.2

/-- A new overlay shows the answer that was accepted last, unless a failure hides a layout. -/
theorem settles_openOverlay
    (hquiet : s.reactionCount = 0)
    (hopened :
      condition s.renders.lastError → s.renders.lastError = none ∨ s.renders.current = none) :
    Settles condition s.overlays.length ⟨(s.step .openOverlay).1, []⟩ := by
  refine ⟨hquiet, List.Pairwise.nil, nofun, _, List.getElem?_concat_length, ?_⟩
  intro _ hcondition
  left
  have hshown := hopened hcondition
  unfold Renders.shown
  dsimp only [Session.step, Session.obey, Session.openOverlay]
  cases hcurrent : s.renders.current with
  | none =>
      cases s.renders.lastError with
      | none =>
          rfl
      | some failure =>
          rfl
  | some current =>
      rw [hcurrent] at hshown
      rw [hshown.resolve_right nofun]
      rfl

end Moment

namespace Session

section StartOfSessions

/-- If nobody listens and at most one answer is taken, no failure hides a layout. -/
theorem run_accept_of_unheard
    {s t : Session} {answers : List Rendering}
    (honce : answers.length ≤ 1)
    (hlisteners : s.renderListeners = [])
    (hcurrent : s.renders.current = none)
    (hrun : s.run (answers.map .accept) = (t, none)) :
    t.reactions = s.reactions ∧ (t.renders.lastError = none ∨ t.renders.current = none) := by
  match answers with
  | [] =>
      rw [List.map_nil, run_nil] at hrun
      cases hrun
      exact ⟨rfl, .inr hcurrent⟩
  | [r] =>
      rw [List.map_singleton, run_cons, work] at hrun
      by_cases haccepts : s.renders.accepts r = true
      · rw [if_pos haccepts, hlisteners] at hrun
        dsimp only at hrun
        rw [List.map_nil, List.append_nil, run_nil] at hrun
        cases hrun
        refine ⟨rfl, ?_⟩
        dsimp only
        unfold Renders.publish
        cases r.result with
        | ok layout =>
            exact .inl rfl
        | error reason =>
            exact .inr hcurrent
      · rw [if_neg haccepts] at hrun
        dsimp only at hrun
        rw [List.append_nil, run_nil] at hrun
        cases hrun
        exact ⟨rfl, .inr hcurrent⟩
  | _ :: _ :: _ =>
      simp at honce

theorem start_rests
    {editor : Editor} {renderer : Option Renderer} {given : Option String} {type : String}
    {s : Session}
    (h : start editor renderer given type = .ok s)
    (honce : ∀ r ∈ renderer, ∀ order, (r.answers order).length ≤ 1) :
    s.reactionCount = 0 ∧ (s.renders.lastError = none ∨ s.renders.current = none) := by
  obtain ⟨text, reply, hchange⟩ := start_eq_ok h
  have hrun := change_eq_ok hchange
  unfold change at hchange
  unfold beginChange at hrun
  cases hperform :
      (Except.ok (Change.text text) : Reaction).bind
        (perform { editor, renders := { renderer } }) with
  | error fault =>
      rw [hperform] at hchange
      cases hchange
  | ok result =>
      rw [hperform] at hrun
      have hperformed : performText { editor, renders := { renderer } } text = .ok result :=
        hperform
      obtain ⟨reading, _, hcommit⟩ := bind_eq_ok_iff.mp hperformed
      cases hcommit
      cases renderer with
      | none =>
          have hrest :=
            @run_accept_of_unheard _ s [] (by simp) rfl rfl hrun
          exact ⟨congrArg countReactions hrest.1, hrest.2⟩
      | some renderer =>
          have hrest :=
            run_accept_of_unheard (honce renderer rfl ⟨1, reading.diagram.text⟩) rfl rfl
              (by simpa using hrun)
          exact ⟨congrArg countReactions hrest.1, hrest.2⟩

end StartOfSessions

end Session

/--
A late overlay agrees with an early one.  The one is opened when the session has
started, the other later, listeners make no changes, and both overlays listen at the
end.  Then the early one shows the answer that was accepted last, so nothing is to be
found on it if that answer failed; they answer alike if no failure hid a layout when the
late one was opened, and else exactly if no failure was accepted last or nothing is to be
found on the late one.
-/
theorem late_overlay_agrees_iff
    {editor : Editor} {renderer : Option Renderer} {given : Option String} {type : String}
    {s middle last : Session} {before more : List Session.Command}
    (hs : Session.start editor renderer given type = .ok s)
    (honce : ∀ r ∈ renderer, ∀ order, (r.answers order).length ≤ 1)
    (hquiet : ∀ c ∈ before ++ more, c.IsQuiet)
    (hmiddle : s.after (.openOverlay :: before) = middle)
    (hlast : middle.after (.openOverlay :: more) = last)
    (hearly : .overlay s.overlays.length ∈ last.renderListeners)
    (hlate : .overlay middle.overlays.length ∈ last.renderListeners) :
    ∃ early late,
      last.overlays[s.overlays.length]? = some early ∧
      last.overlays[middle.overlays.length]? = some late ∧
      early.layout = last.renders.shown ∧
      (last.renders.lastError.isSome = true → early.IsBlank) ∧
      (middle.renders.lastError = none ∨ middle.renders.current = none →
        late.AgreesWith early) ∧
      (late.AgreesWith early ↔ last.renders.lastError = none ∨ late.IsBlank) := by
  obtain ⟨hstart, hfresh⟩ := Session.start_rests hs honce
  obtain ⟨hbefore, hmore⟩ := List.forall_mem_append.mp hquiet
  have hopen : ∀ c ∈ Session.Command.openOverlay :: more, c.IsQuiet :=
    List.forall_mem_cons.mpr ⟨trivial, hmore⟩
  have hmoment : Moment.Settles (fun _ => True) s.overlays.length ⟨middle, []⟩ := by
    rw [← hmiddle]
    exact (Moment.settles_openOverlay hstart fun _ => hfresh).after hbefore
  have hsettles := hmoment.after hopen
  rw [hlast] at hsettles
  obtain ⟨early, hfound, hshows⟩ := hsettles.shows
  have hlayout : early.layout = last.renders.shown :=
    (hshows hearly trivial).resolve_right nofun
  have hblank : last.renders.lastError.isSome = true → early.IsBlank := fun hfailed =>
    Overlay.isBlank_of_layout_eq (hlayout.trans (Renders.shown_of_failed hfailed))
  have hopened : ∀ condition : Option (Int × String) → Prop,
      (condition middle.renders.lastError →
        middle.renders.lastError = none ∨ middle.renders.current = none) →
      Moment.Settles condition middle.overlays.length ⟨last, []⟩ := by
    intro condition hcondition
    rw [← hlast]
    exact (Moment.settles_openOverlay hmoment.quiet hcondition).after hmore
  obtain ⟨late, hfound', hshows'⟩ := (hopened (· = none) .inl).shows
  have hagrees : late.layout = last.renders.shown → late.AgreesWith early := fun heq =>
    Overlay.agreesWith_of_layout_eq (heq.trans hlayout.symm)
  have hnone : last.renders.lastError = none → late.AgreesWith early := fun hnone =>
    hagrees ((hshows' hlate hnone).resolve_right nofun)
  refine ⟨early, late, hfound, hfound', hlayout, hblank, ?_, ?_⟩
  · intro hhidden
    obtain ⟨late', hlate', hshows''⟩ := (hopened (fun _ => True) fun _ => hhidden).shows
    cases hfound'.symm.trans hlate'
    exact hagrees ((hshows'' hlate trivial).resolve_right nofun)
  · constructor
    · intro halike
      cases hfailed : last.renders.lastError with
      | none =>
          exact .inl rfl
      | some failure =>
          right
          intro x y
          obtain ⟨hnode, hedge⟩ := hblank (by simp [hfailed]) x y
          exact ⟨(halike x y).1.trans hnode, (halike x y).2.trans hedge⟩
    · rintro (hfree | hlate)
      · exact hnone hfree
      · cases hfailed : last.renders.lastError with
        | none =>
            exact hnone hfailed
        | some failure =>
            intro x y
            obtain ⟨hnode, hedge⟩ := hblank (by simp [hfailed]) x y
            exact ⟨(hlate x y).1.trans hnode.symm, (hlate x y).2.trans hedge.symm⟩

/--
An overlay that is opened after a failure and after a layout before it: both overlays
show the layout that is accepted next.
-/
theorem late_overlay_agrees_iff_of_next_layout :
    ∃ s middle last : Session,
      let manual : Renderer := ⟨fun _ => []⟩
      let zero : Double := .signed false 0
      let before : List Session.Command := [
        .complete ⟨1, .ok { nodes := [("A", ⟨zero, zero, zero, zero⟩)] }⟩,
        .change (.ok (.text "B[y]")),
        .complete ⟨2, .error "no layout"⟩ ]
      let more : List Session.Command := [
        .complete ⟨2, .ok { nodes := [("B", ⟨zero, zero, zero, zero⟩)] }⟩ ]
      Session.start {} (some manual) (some "A[x]") "flowchart" = .ok s ∧
      (∀ order, (manual.answers order).length ≤ 1) ∧
      (∀ c ∈ before ++ more, c.IsQuiet) ∧
      s.after (.openOverlay :: before) = middle ∧
      middle.after (.openOverlay :: more) = last ∧
      .overlay s.overlays.length ∈ last.renderListeners ∧
      .overlay middle.overlays.length ∈ last.renderListeners ∧
      middle.renders.lastError = some (2, "no layout") ∧
      last.overlays.map (·.nodeAt? zero zero) = [some "B", some "B"] ∧
      ∃ early late,
        last.overlays[s.overlays.length]? = some early ∧
        last.overlays[middle.overlays.length]? = some late ∧
        late.AgreesWith early := by
  obtain ⟨s, hs, hvalue⟩ :=
    @Session.exists_start_after _ {} (some ⟨fun _ => []⟩) "A[x]" "flowchart" 9 []
      (fun s => (s.afterFor 9 [
        .openOverlay,
        .complete ⟨1, .ok { nodes := [
          ("A", ⟨.signed false 0, .signed false 0, .signed false 0, .signed false 0⟩)] }⟩,
        .change (.ok (.text "B[y]")),
        .complete ⟨2, .error "no layout"⟩ ]).any fun middle => (middle.afterFor 9 [
          .openOverlay,
          .complete ⟨2, .ok { nodes := [
            ("B", ⟨.signed false 0, .signed false 0, .signed false 0, .signed false 0⟩)] }⟩
          ]).any fun last => decide (
            .overlay s.overlays.length ∈ last.renderListeners ∧
            .overlay middle.overlays.length ∈ last.renderListeners ∧
            middle.renders.lastError = some (2, "no layout") ∧
            last.renders.lastError = none ∧
            last.overlays.map (·.nodeAt? (.signed false 0) (.signed false 0)) =
              [some "B", some "B"]))
      true rfl (by decide +kernel)
  obtain ⟨middle, hmiddle, hvalue⟩ := (Option.any_eq_true _ _).mp hvalue
  obtain ⟨last, hlast, hvalue⟩ := (Option.any_eq_true _ _).mp hvalue
  obtain ⟨hearly, hlate, hfailed, hfree, hboxes⟩ := of_decide_eq_true hvalue
  replace hmiddle := Session.after_of_afterFor hmiddle
  replace hlast := Session.after_of_afterFor hlast
  have honce : ∀ r ∈ some (Renderer.mk fun _ => []), ∀ order, (r.answers order).length ≤ 1 := by
    rintro r ⟨⟩ order
    exact Nat.zero_le 1
  obtain ⟨early, late, hfound, hfound', _, _, _, hiff⟩ :=
    late_overlay_agrees_iff hs honce (by simp [Session.Command.IsQuiet]) hmiddle hlast hearly hlate
  exact ⟨s, middle, last, hs, fun _ => Nat.zero_le 1, by simp [Session.Command.IsQuiet], hmiddle,
    hlast, hearly, hlate, hfailed, hboxes, early, late, hfound, hfound', hiff.mpr (.inl hfree)⟩

/--
A late overlay shows an old layout: the early one is opened at the start, revision 1 is
rendered with a box for the node, revision 2 fails, and the late one is opened then.
Nothing is to be found on the early one, and the node on the late one.
-/
theorem late_overlay_shows_old_layout :
    ∃ s : Session,
      let manual : Renderer := ⟨fun _ => []⟩
      let zero : Double := .signed false 0
      let commands : List Session.Command := [
        .openOverlay,
        .complete ⟨1, .ok { nodes := [("A", ⟨zero, zero, zero, zero⟩)] }⟩,
        .change (.ok (.text "B[y]")),
        .complete ⟨2, .error "no layout"⟩,
        .openOverlay ]
      Session.start {} (some manual) (some "A[x]") "flowchart" = .ok s ∧
      (∀ c ∈ commands, c.IsQuiet) ∧
      (s.after commands).renders.lastError = some (2, "no layout") ∧
      (s.after commands).renderListeners = [.overlay 0, .overlay 1] ∧
      (s.after commands).overlays.map (·.nodeAt? zero zero) = [none, some "A"] := by
  obtain ⟨s, hs, hafter⟩ :=
    @Session.exists_start_after _ {} (some ⟨fun _ => []⟩) "A[x]" "flowchart" 9 [
      .openOverlay,
      .complete ⟨1, .ok { nodes := [
        ("A", ⟨.signed false 0, .signed false 0, .signed false 0, .signed false 0⟩)] }⟩,
      .change (.ok (.text "B[y]")),
      .complete ⟨2, .error "no layout"⟩,
      .openOverlay ]
      (fun last => (last.renders.lastError, last.renderListeners,
        last.overlays.map (·.nodeAt? (.signed false 0) (.signed false 0))))
      (some (2, "no layout"), [.overlay 0, .overlay 1], [none, some "A"])
      rfl (by decide +kernel)
  simp only [Prod.mk.injEq] at hafter
  obtain ⟨herror, hlisteners, hboxes⟩ := hafter
  exact ⟨s, hs, by simp [Session.Command.IsQuiet], herror, hlisteners, hboxes⟩

end Flowchart
