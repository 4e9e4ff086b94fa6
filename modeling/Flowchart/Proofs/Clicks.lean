import Flowchart.Proofs.LateOverlays
import Flowchart.Proofs.Revisions

/-!
# Clicks

What is selected on an overlay need not be shown on it: a failed rendering takes all
boxes away and leaves the selection.  But then a click finds no node, and the next
layout drops a selection that it has no box for.  So whenever a click asks for an edge,
the selected node and the clicked one are different and both on the screen.

* `Overlay.click_eq_some`: what is known of the ends that a click asks for.
* `Session.getElem?_overlays_work` and `Session.getElem?_overlays_begin`: all that tasks
  and commands do to an overlay.
* `clicks_connect_what_is_shown`: clicks connect nodes of the answer heard last.
-/

namespace Flowchart

namespace Overlay

variable {o o' : Overlay} {x y : Double}

/-- What is selected on an overlay is shown on it, unless nothing is. -/
def SelectsShown (o : Overlay) : Prop :=
  o.selected = none ∨ o.nodes = [] ∨ ∃ id ∈ o.nodes.map (·.1), o.selected = some id

theorem mem_of_nodeAt?
    {id : String}
    (h : o.nodeAt? x y = some id) :
    id ∈ o.nodes.map (·.1) := by
  obtain ⟨box, hbox, rfl⟩ := Option.map_eq_some_iff.mp h
  exact List.mem_map_of_mem (List.mem_of_find?_eq_some hbox)

/-- A layout drops a selection that it has no box for. -/
theorem selectsShown_readBoxes
    (o : Overlay) (layout : Layout) :
    (o.readBoxes layout).SelectsShown := by
  cases hselected : (o.readBoxes layout).selected with
  | none =>
      exact Or.inl hselected
  | some id =>
      have hshown : (Record.ofPairs layout.nodes).any (·.1 == id) = true :=
        (Option.filter_eq_some_iff.mp hselected).2
      obtain ⟨box, hbox, hid⟩ := List.any_eq_true.mp hshown
      refine Or.inr (Or.inr ⟨id, ?_, hselected⟩)
      rw [← beq_iff_eq.mp hid]
      exact List.mem_map_of_mem hbox

theorem selectsShown_follow
    (o : Overlay) (r : Rendering) :
    (o.follow r).SelectsShown := by
  unfold follow
  cases r.result with
  | ok layout =>
      exact selectsShown_readBoxes o layout
  | error reason =>
      exact Or.inr (Or.inl rfl)

/-- A click selects what it finds, if it selects anything. -/
theorem SelectsShown.click
    (h : o.SelectsShown)
    (x y : Double) :
    (o.click x y).1.SelectsShown := by
  unfold Overlay.click
  split
  · exact h
  · rename_i id hfound _
    exact Or.inr (Or.inr ⟨id, mem_of_nodeAt? hfound, rfl⟩)
  · exact Or.inl rfl

/-- The ends that a click asks for are different and shown, and nothing stays selected. -/
theorem click_eq_some
    {source target : String}
    (h : o.SelectsShown)
    (hclick : o.click x y = (o', some (source, target))) :
    source ≠ target ∧ source ∈ o.nodes.map (·.1) ∧ target ∈ o.nodes.map (·.1) ∧
      o'.selected = none := by
  unfold Overlay.click at hclick
  split at hclick
  · cases hclick
  · cases hclick
  · rename_i id selected hfound hselected
    obtain ⟨rfl, hends⟩ := Prod.mk.inj hclick
    split at hends
    · cases hends
    · rename_i hne
      obtain ⟨rfl, rfl⟩ := Prod.mk.inj (Option.some.inj hends)
      have hmem := mem_of_nodeAt? hfound
      refine ⟨fun heq => hne (beq_iff_eq.mpr heq), ?_, hmem, rfl⟩
      rcases h with hnone | hblank | ⟨other, hother, hsome⟩
      · cases hselected.symm.trans hnone
      · rw [hblank] at hmem
        cases hmem
      · cases hselected.symm.trans hsome
        exact hother

end Overlay

/-- The answer that a task announces to the overlay of a number. -/
def Task.heardBy (number : Nat) : Task → Option Rendering
  | .announceRender (.overlay other) r => if other = number then some r else none
  | _ => none

namespace Session

variable {s t : Session} {number : Nat}

theorem perform_overlays
    {change : Change} {tasks : List Task} {effect : Effect}
    (h : s.perform change = .ok (t, tasks, effect)) :
    t.overlays = s.overlays := by
  obtain ⟨diagnostics, ⟨rfl, _⟩ | ⟨d, hcommit⟩⟩ := perform_eq_ok h
  · rfl
  · cases hcommit
    rfl

/-- A reaction leaves the overlays as they are, also if it fails. -/
theorem react_overlays
    (s : Session) (signal : Signal) (name : String) :
    (reached (s.react signal name)).overlays = s.overlays := by
  obtain ⟨reactions, h | ⟨change, tasks, effect, hperform⟩⟩ := reached_react_cases s signal name
  · rw [h]
  · exact (perform_overlays hperform).trans rfl

/-- Of all tasks only an announcement to an overlay changes it: it follows the answer. -/
theorem getElem?_overlays_work
    (s : Session) (task : Task) (number : Nat) :
    (reached (s.work task)).overlays[number]? =
      s.overlays[number]?.map fun o => (task.heardBy number).elim o o.follow := by
  cases task with
  | announceChange name d =>
      have hreact := react_overlays (s.emit (.changed name d.text)) .change name
      rw [work, hreact]
      exact Option.map_id'.symm
  | announceRender listener r =>
      cases listener with
      | named name =>
          have hreact := react_overlays (s.emit (.rendered name r.revision r.failure?)) .render name
          rw [work, hreact]
          exact Option.map_id'.symm
      | overlay other =>
          simp only [work, reached, Task.heardBy, List.getElem?_modify]
          by_cases hother : other = number
          · simp [hother]
          · simp [hother]
  | accept r =>
      simp only [work]
      split
      · exact Option.map_id'.symm
      · exact Option.map_id'.symm
  | report event =>
      exact Option.map_id'.symm

theorem beginChange_overlays
    (s : Session) (reaction : Reaction) :
    (s.beginChange reaction).session.overlays = s.overlays := by
  obtain h | ⟨change, t, tasks, effect, hperform, h⟩ := beginChange_cases s reaction
  · rw [h]
  · rw [h]
    exact perform_overlays hperform

/-- A click changes the overlay that it is on, and no other. -/
theorem getElem?_overlays_beginClick
    {o : Overlay}
    (ho : s.overlays[number]? = some o)
    (other : Fin s.overlays.length) (x y : Double) :
    ∃ o', (s.beginClick other x y).session.overlays[number]? = some o' ∧
      (o' = o ∨ o' = (o.click x y).1) := by
  have hoverlays :
      (s.beginClick other x y).session.overlays =
        s.overlays.set other ((s.overlays.get other).click x y).1 := by
    unfold beginClick
    dsimp only
    cases ((s.overlays.get other).click x y).2 with
    | none =>
        rfl
    | some ends =>
        exact beginChange_overlays _ _
  rw [hoverlays]
  by_cases heq : (other : Nat) = number
  · subst heq
    have hother : s.overlays.get other = o := (List.getElem?_eq_some_iff.mp ho).2
    rw [hother]
    exact ⟨_, List.getElem?_set_self other.isLt, Or.inr rfl⟩
  · rw [List.getElem?_set_ne heq]
    exact ⟨o, ho, Or.inl rfl⟩

/-- At the beginning of a command only a click changes an overlay that there is. -/
theorem getElem?_overlays_begin
    {o : Overlay}
    (ho : s.overlays[number]? = some o)
    (c : Command) :
    ∃ o', (s.begin c).session.overlays[number]? = some o' ∧
      (o' = o ∨ ∃ x y, o' = (o.click x y).1) := by
  have hsame : ∀ t : Session, t.overlays = s.overlays →
      ∃ o', t.overlays[number]? = some o' ∧ (o' = o ∨ ∃ x y, o' = (o.click x y).1) := by
    intro t ht
    rw [ht]
    exact ⟨o, ho, Or.inl rfl⟩
  have hbegins := begins s c
  generalize s.begin c = m at hbegins ⊢
  cases hbegins with
  | change reaction =>
      exact hsame _ (beginChange_overlays s reaction)
  | click _ other x y =>
      obtain ⟨o', ho', h⟩ := getElem?_overlays_beginClick ho other x y
      exact ⟨o', ho', h.imp_right fun h => ⟨x, y, h⟩⟩
  | subscribe signal name reactions =>
      cases signal with
      | change =>
          exact hsame _ rfl
      | render =>
          exact hsame _ rfl
  | openOverlay =>
      have hnumber : number < s.overlays.length := (List.getElem?_eq_some_iff.mp ho).1
      refine ⟨o, ?_, Or.inl rfl⟩
      simp only [openOverlay, List.getElem?_append_left hnumber, ho]
  | rest _ hloses =>
      obtain ⟨changes, renders, rfl, _⟩ := hloses
      exact hsame _ rfl
  | _ =>
      exact hsame _ rfl

section IdleOverlays

/-- Nothing is selected on the overlay of a number. -/
def IsUnselected (number : Nat) (s : Session) : Prop :=
  ∃ o, s.overlays[number]? = some o ∧ o.selected = none

theorem selected_follow_of_none
    {o : Overlay}
    (h : o.selected = none)
    (r : Rendering) :
    (o.follow r).selected = none := by
  unfold Overlay.follow
  cases r.result with
  | ok layout =>
      unfold Overlay.readBoxes
      rw [h]
      rfl
  | error reason =>
      exact h

theorem IsUnselected.work
    (h : s.IsUnselected number)
    (task : Task) :
    (reached (s.work task)).IsUnselected number := by
  obtain ⟨o, ho, hselected⟩ := h
  refine ⟨_, by rw [getElem?_overlays_work, ho]; rfl, ?_⟩
  cases task.heardBy number with
  | none =>
      exact hselected
  | some r =>
      exact selected_follow_of_none hselected r

/-- No task selects anything, so nothing is selected when all tasks are done. -/
theorem IsUnselected.finish
    {m : Moment}
    (h : m.session.IsUnselected number) :
    (finish m).IsUnselected number := by
  obtain ⟨s, tasks⟩ := m
  unfold Session.finish
  induction s, tasks using Session.run.induct with
  | case1 s =>
      rw [run_nil]
      exact h
  | case2 s task rest t fault hwork =>
      have hnext := IsUnselected.work h task
      rw [hwork] at hnext
      rw [run_cons, hwork]
      exact hnext
  | case3 s task rest t tasks hwork ih =>
      have hnext := IsUnselected.work h task
      rw [hwork] at hnext
      rw [run_cons, hwork]
      exact ih hnext

end IdleOverlays

end Session

/-- The boxes that an overlay starts with. -/
def Renders.opening (renders : Renders) : Layout :=
  renders.current.elim {} fun current => current.2.boxes

namespace Moment

/-- The boxes of the answer that the overlay of a number heard last, or those it had before. -/
def heard (number : Nat) (before : Layout) (trace : List (Session × Task)) : Layout :=
  trace.foldl (fun boxes done => (done.2.heardBy number).elim boxes Rendering.boxes) before

/-- An overlay shows some boxes, and what is selected on it is among them unless there are none. -/
def Shows (number : Nat) (boxes : Layout) (m : Moment) : Prop :=
  ∃ o, m.session.overlays[number]? = some o ∧ o.layout = boxes ∧ o.SelectsShown

variable {number : Nat} {boxes : Layout} {s : Session} {tasks : List Task}

/-- A task that announces an answer to the overlay gives it the boxes of that answer. -/
theorem Shows.work
    (h : Shows number boxes ⟨s, tasks⟩)
    (task : Task) (rest : List Task) :
    Shows number ((task.heardBy number).elim boxes Rendering.boxes)
      ⟨Session.reached (s.work task), rest⟩ := by
  obtain ⟨o, ho, hlayout, hselects⟩ := h
  refine ⟨_, by rw [Session.getElem?_overlays_work, ho]; rfl, ?_⟩
  cases task.heardBy number with
  | none =>
      exact ⟨hlayout, hselects⟩
  | some r =>
      exact ⟨o.layout_follow r, o.selectsShown_follow r⟩

/-- No command gives an overlay other boxes at once. -/
theorem Shows.begin
    (h : Shows number boxes ⟨s, tasks⟩)
    (c : Session.Command) :
    Shows number boxes (Session.begin { s with log := [] } c) := by
  obtain ⟨o, ho, hlayout, hselects⟩ := h
  obtain ⟨o', ho', rfl | ⟨x, y, rfl⟩⟩ :=
    @Session.getElem?_overlays_begin { s with log := [] } number o ho c
  · exact ⟨o', ho', hlayout, hselects⟩
  · exact ⟨_, ho', (o.layout_click x y).trans hlayout, hselects.click x y⟩

theorem shows_openOverlay
    (s : Session) (tasks : List Task) :
    Shows s.overlays.length s.renders.opening ⟨s.openOverlay.1, tasks⟩ := by
  refine ⟨_, List.getElem?_concat_length, ?_⟩
  unfold Renders.opening
  cases s.renders.current with
  | none =>
      exact ⟨rfl, Or.inl rfl⟩
  | some current =>
      exact ⟨rfl, Overlay.selectsShown_readBoxes {} current.2⟩

/-- On a course an overlay shows the boxes of the answer that it heard last. -/
theorem Course.shows
    {first m : Moment} {trace : List (Session × Task)}
    (hfirst : Shows number boxes first)
    (h : first.Course trace m) :
    Shows number (heard number boxes trace) m := by
  induction h with
  | nothing =>
      exact hfirst
  | @work trace s t task tasks rest _ hwork ih =>
      have hnext := ih.work task (tasks ++ rest)
      rw [hwork] at hnext
      unfold heard
      rw [List.foldl_concat]
      exact hnext
  | @fail trace s t task rest fault _ hwork ih =>
      have hnext := ih.work task []
      rw [hwork] at hnext
      unfold heard
      rw [List.foldl_concat]
      exact hnext
  | obey _ _ ih =>
      exact ih.begin _

end Moment

/--
Clicks connect what is shown.  On every course from the moment at which an overlay is
opened, it shows the boxes of the answer that it heard last, and what is selected on it
is among them unless there are none.  A click changes the diagram only if it asks for an
edge; then the ends are different nodes of that answer, and nothing is selected, neither
when the change is made nor when all is done that follows from it.
-/
theorem clicks_connect_what_is_shown
    {s : Session} {trace : List (Session × Task)} {m : Moment}
    (h : (Moment.mk s.openOverlay.1 []).Course trace m) :
    ∃ number : Fin m.session.overlays.length,
      let o := m.session.overlays.get number
      let boxes := Moment.heard number s.renders.opening trace
      (number : Nat) = s.openOverlay.2 ∧
      o.layout = boxes ∧
      (o.selected = none ∨ o.nodes = [] ∨ ∃ id ∈ o.nodes.map (·.1), o.selected = some id) ∧
      (∀ x y o', o.click x y = (o', none) →
        m.session.click number x y =
          ({ m.session with overlays := m.session.overlays.set number o' }, .ok .done)) ∧
      ∀ x y o' source target, o.click x y = (o', some (source, target)) →
        source ≠ target ∧
        source ∈ boxes.nodes.map (·.1) ∧
        target ∈ boxes.nodes.map (·.1) ∧
        o'.selected = none ∧
        m.session.click number x y =
          ({ m.session with overlays := m.session.overlays.set number o' } : Session).change
            (.ok (.edit (.createEdge (some source) (some target)))) ∧
        (m.session.click number x y).1.IsUnselected number := by
  obtain ⟨o, ho, hlayout, hselects⟩ := h.shows (Moment.shows_openOverlay s [])
  obtain ⟨hnumber, rfl⟩ := List.getElem?_eq_some_iff.mp ho
  refine ⟨⟨s.overlays.length, hnumber⟩, rfl, hlayout, hselects, ?_, ?_⟩
  · intro x y o' hclick
    unfold Session.click
    rw [Fin.getElem_fin, ← List.get_eq_getElem, hclick]
  · intro x y o' source target hclick
    obtain ⟨hne, hsource, htarget, hcleared⟩ := Overlay.click_eq_some hselects hclick
    have hchange :
        m.session.click ⟨s.overlays.length, hnumber⟩ x y =
          ({ m.session with overlays := m.session.overlays.set s.overlays.length o' } :
            Session).change (.ok (.edit (.createEdge (some source) (some target)))) := by
      unfold Session.click
      rw [Fin.getElem_fin, ← List.get_eq_getElem, hclick]
    rw [← hlayout]
    refine ⟨hne, hsource, htarget, hcleared, hchange, ?_⟩
    rw [hchange, Session.change_fst]
    apply Session.IsUnselected.finish
    refine ⟨o', ?_, hcleared⟩
    rw [Session.beginChange_overlays]
    exact List.getElem?_set_self hnumber

/--
A renderer that answers at once has boxes for two nodes.  The first click selects the one;
the second asks for an edge to the other, and the answer to that change comes in between.
-/
theorem clicks_connect_what_is_shown_of_two_clicks :
    ∃ s last : Session,
      let zero : Double := .signed false 0
      let next : Double := .signed false 1
      let boxes : Layout := {
        nodes := [("A", ⟨zero, zero, zero, zero⟩), ("B", ⟨next, next, zero, zero⟩)] }
      Session.start {} (some ⟨fun order => [⟨order.revision, .ok boxes⟩]⟩) (some "A[x]\nB[y]")
          "flowchart" = .ok s ∧
      s.openOverlay.1.after [.click 0 zero zero] = last ∧
      (∃ trace, (Moment.mk s.openOverlay.1 []).Course trace ⟨last, []⟩) ∧
      last.overlays.map (·.selected) = [some "A"] ∧
      ∃ number : Fin last.overlays.length,
        ((last.overlays.get number).click next next).2 = some ("A", "B") ∧
        (last.click number next next).1.IsUnselected number := by
  obtain ⟨s, hs, hvalue⟩ :=
    @Session.exists_start_after _ {}
      (some ⟨fun order => [⟨order.revision, .ok {
        nodes := [
          ("A", ⟨.signed false 0, .signed false 0, .signed false 0, .signed false 0⟩),
          ("B", ⟨.signed false 1, .signed false 1, .signed false 0, .signed false 0⟩)] }⟩]⟩)
      "A[x]\nB[y]" "flowchart" 9 []
      (fun s : Session =>
        (s.openOverlay.1.afterFor 9 [.click 0 (.signed false 0) (.signed false 0)]).any
          fun last : Session => decide (
            last.overlays.map (fun o : Overlay => o.selected) = [some "A"] ∧
            last.overlays.map (fun o : Overlay =>
                (o.click (.signed false 1) (.signed false 1)).2) = [some ("A", "B")]))
      true rfl (by decide +kernel)
  obtain ⟨last, hlast, hvalue⟩ := (Option.any_eq_true _ _).mp hvalue
  obtain ⟨hselected, hends⟩ := of_decide_eq_true hvalue
  replace hlast : s.openOverlay.1.after [.click 0 (.signed false 0) (.signed false 0)] = last :=
    Session.after_of_afterFor hlast
  obtain ⟨trace, hcourse⟩ :=
    @Moment.course_after [.click 0 (.signed false 0) (.signed false 0)]
      (by simp [Session.Command.IsOwn]) s.openOverlay.1
  rw [hlast] at hcourse
  obtain ⟨number, _, _, _, _, hconnects⟩ := clicks_connect_what_is_shown hcourse
  have hasks :
      ((last.overlays.get number).click (.signed false 1) (.signed false 1)).2 =
        some ("A", "B") := by
    rw [← List.mem_singleton, ← hends]
    exact List.mem_map_of_mem (List.get_mem _ number)
  obtain ⟨_, _, _, _, _, hcleared⟩ := hconnects _ _ _ _ _ (Prod.ext rfl hasks)
  exact ⟨s, last, hs, hlast, ⟨trace, hcourse⟩, hselected, number, hasks, hcleared⟩

end Flowchart
