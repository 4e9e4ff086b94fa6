import Flowchart.Proofs.ReadingFaults
import Flowchart.Proofs.SessionCourse

/-!
# Edits that are rejected

An edit is rejected if it cannot be carried out, if it is refused, or if it gives a
diagram equal to the current one.  Then the session is what it was, whole: nothing is
requested, nobody is told, and nothing is left to be done.  Any other edit is committed
once.  As long as those who are told of it make no changes of their own, all that follows
is rendering, and one announcement for each listener.

* `leavesAsItWas_of_perform`: a change that gives the session itself leaves it as it was.
* `Session.Completes`: an agenda with all that is done until nothing is left.
* `exists_hasCommitted`: what follows on a diagram that is committed.
* `rejected_edits_leave_session`: both, for every edit of every session.
-/

namespace Flowchart

/-- Whether a task announces a diagram. -/
def Task.tellsChange : Task → Bool
  | .announceChange _ _ => true
  | _ => false

/-- Whether an event is that of a listener who was told of a diagram. -/
def Event.isChange : Event → Bool
  | .changed _ _ => true
  | _ => false

namespace Session

variable {s t u : Session} {tasks done more later : List Task}

section IdleChanges

/--
A change leaves a session as it was, and only its answer comes back; if it is the
reaction of a listener, then that reaction is used up, and its answer is still to be
reported.
-/
structure LeavesAsItWas (s : Session) (reaction : Reaction) (answer : Except Fault Effect) :
    Prop where
  asked : s.change reaction = (s, answer.map .effect)
  reacted : ∀ signal name reactions,
    takeReaction (signal, name) s.reactions = some (reaction, reactions) →
      s.react signal name =
        match answer with
        | .error fault => .error ({ s with reactions }, fault)
        | .ok effect => .ok ({ s with reactions }, [.report (reactionEvent name effect)])

/-- It does so if it gives the same session and no tasks, whatever reactions are left. -/
theorem leavesAsItWas_of_perform
    {reaction : Reaction} {answer : Except Fault Effect}
    (h : ∀ reactions,
      reaction.bind (perform { s with reactions }) =
        answer.map fun effect => ({ s with reactions }, [], effect)) :
    s.LeavesAsItWas reaction answer where
  asked := by
    have hperform := h s.reactions
    unfold change
    cases answer with
    | error fault =>
        rw [show reaction.bind s.perform = .error fault from hperform]
        rfl
    | ok effect =>
        rw [show reaction.bind s.perform = .ok (s, [], effect) from hperform]
        dsimp only
        unfold conclude
        rw [run_nil]
        rfl
  reacted := by
    intro signal name reactions htake
    unfold react
    rw [htake]
    dsimp only
    rw [h reactions]
    cases answer with
    | error fault =>
        rfl
    | ok effect =>
        rfl

end IdleChanges

section Outcomes

variable {edit : Edit} {d : Diagram} {created : Option String}

theorem performEdit_of_fault
    {fault : Fault}
    (h : s.editor.apply s.diagram edit = .error fault) :
    s.performEdit edit = .error fault := by
  unfold performEdit
  rw [h]
  rfl

theorem performEdit_of_refused
    {problem : Problem}
    (h : s.editor.apply s.diagram edit = .ok (.refused problem)) :
    s.performEdit edit = .ok (s, [], .outcome (.refused problem)) := by
  unfold performEdit
  rw [h]
  rfl

theorem performEdit_of_agrees
    (h : s.editor.apply s.diagram edit = .ok (.changed d created))
    (hagrees : d.agrees s.diagram = true) :
    s.performEdit edit = .ok (s, [], .outcome (.changed d created)) := by
  unfold performEdit
  rw [h]
  exact if_pos hagrees

theorem performEdit_of_differs
    (h : s.editor.apply s.diagram edit = .ok (.changed d created))
    (hdiffers : d.agrees s.diagram = false) :
    s.performEdit edit =
      .ok ((s.commit d).1, (s.commit d).2, .outcome (.changed d created)) := by
  unfold performEdit
  rw [h]
  exact if_neg (ne_true_of_eq_false hdiffers)

end Outcomes

theorem performText_of_fault
    {text : String} {fault : Fault}
    (h : Reading.ofText text = .error fault) :
    s.performText text = .error fault := by
  unfold performText
  rw [h]
  rfl

section EndingAgendas

/--
An agenda comes to an end without a fault: the tasks that are done, those included that
other tasks lead to, and the session that is reached.
-/
inductive Completes : Session → List Task → List Task → Session → Prop
  | nothing {s : Session} : Completes s [] [] s
  | work {s t u : Session} {task : Task} {tasks rest done : List Task} :
      s.work task = .ok (t, tasks) →
      Completes t (tasks ++ rest) done u →
      Completes s (task :: rest) (task :: done) u

theorem Completes.run_eq
    (h : s.Completes tasks done t) :
    s.run tasks = (t, none) := by
  induction h with
  | nothing =>
      exact run_nil _
  | work hwork _ ih =>
      rw [run_cons, hwork]
      exact ih

/-- What is done first leads to nothing that is done after the tasks that follow. -/
theorem Completes.append
    (h : s.Completes tasks done t)
    (hmore : t.Completes more later u) :
    s.Completes (tasks ++ more) (done ++ later) u := by
  induction h with
  | nothing =>
      exact hmore
  | work hwork _ ih =>
      have hall := ih hmore
      rw [List.append_assoc] at hall
      exact .work hwork hall

end EndingAgendas

section OtherTasks

/--
Something has happened, but no change: only what is shown of the renderings and what the
listeners report can be different, and no listener was told of a diagram.
-/
structure GoesOn (s t : Session) : Prop where
  rest : t = { s with renders := t.renders, overlays := t.overlays, log := t.log }
  renders :
    t.renders =
      { s.renders with current := t.renders.current, lastError := t.renders.lastError }
  log : ∃ events, t.log = s.log ++ events ∧ events.filter Event.isChange = []

theorem GoesOn.refl
    (s : Session) :
    s.GoesOn s where
  rest := rfl
  renders := rfl
  log := ⟨[], (List.append_nil _).symm, rfl⟩

theorem GoesOn.trans
    (h : s.GoesOn t)
    (h' : t.GoesOn u) :
    s.GoesOn u where
  rest := by
    rw [h'.rest, h.rest]
  renders := by
    rw [h'.renders, h.renders]
  log := by
    obtain ⟨events, hevents, hnone⟩ := h.log
    obtain ⟨more, hmore, hnone'⟩ := h'.log
    refine ⟨events ++ more, ?_, ?_⟩
    · rw [hmore, hevents, List.append_assoc]
    · rw [List.filter_append, hnone, hnone', List.append_nil]

/-- The listeners are the same, with the same reactions. -/
theorem GoesOn.isSilent
    {signal : Signal} {name : String}
    (h : s.GoesOn t)
    (hsilent : s.IsSilent signal name) :
    t.IsSilent signal name := by
  rw [h.rest]
  exact hsilent

/-- A listener that makes no change is told of a rendering. -/
theorem work_announceRender
    {listener : RenderListener}
    (h : ∀ name, listener = .named name → s.IsSilent .render name)
    (r : Rendering) :
    ∃ t, s.work (.announceRender listener r) = .ok (t, []) ∧ s.GoesOn t := by
  cases listener with
  | named name =>
      have hsilent : (s.emit (.rendered name r.revision r.failure?)).IsSilent .render name :=
        h name rfl
      exact ⟨_, react_of_silent hsilent, ⟨rfl, rfl, ⟨_, rfl, rfl⟩⟩⟩
  | overlay number =>
      exact ⟨_, rfl, ⟨rfl, rfl, ⟨[], (List.append_nil _).symm, rfl⟩⟩⟩

/-- A rendering is announced to listeners that make no changes. -/
theorem exists_completes_renders
    {listeners : List RenderListener}
    (h : ∀ name, .named name ∈ listeners → s.IsSilent .render name)
    (r : Rendering) :
    ∃ t,
      s.Completes (listeners.map (.announceRender · r)) (listeners.map (.announceRender · r)) t ∧
        s.GoesOn t := by
  induction listeners generalizing s with
  | nil =>
      exact ⟨s, .nothing, .refl s⟩
  | cons listener listeners ih =>
      obtain ⟨t, hwork, ht⟩ :=
        work_announceRender (fun name hname => h name (hname ▸ List.mem_cons_self)) r
      obtain ⟨u, hcompletes, hu⟩ :=
        ih fun name hname => ht.isSilent (h name (List.mem_cons_of_mem _ hname))
      exact ⟨u, .work hwork hcompletes, ht.trans hu⟩

/-- An accepted answer is taken over. -/
theorem goesOn_publish
    (s : Session) (r : Rendering) :
    s.GoesOn { s with renders := s.renders.publish r } where
  rest := rfl
  renders := by
    unfold Renders.publish
    cases r.result with
    | ok layout =>
        rfl
    | error reason =>
        rfl
  log := ⟨[], (List.append_nil _).symm, rfl⟩

/--
The answers of a renderer are taken, and the accepted ones announced: all listeners
hear of an answer before the next one is taken.
-/
theorem exists_completes_answers
    {answers : List Rendering}
    (h :
      ∀ r ∈ answers, r.revision = s.renders.latest →
        ∀ name, .named name ∈ s.renderListeners → s.IsSilent .render name) :
    ∃ done t,
      s.Completes (answers.map .accept) done t ∧
        s.GoesOn t ∧ done.filter Task.tellsChange = [] := by
  induction answers generalizing s with
  | nil =>
      exact ⟨[], s, .nothing, .refl s, rfl⟩
  | cons r answers ih =>
      rw [List.forall_mem_cons] at h
      obtain ⟨hfirst, hrest⟩ := h
      by_cases haccepts : s.renders.accepts r = true
      · have hpublish := goesOn_publish s r
        obtain ⟨t, htold, ht⟩ :=
          @exists_completes_renders { s with renders := s.renders.publish r } s.renderListeners
            (hfirst (beq_iff_eq.mp haccepts)) r
        have hgoes := hpublish.trans ht
        obtain ⟨done, u, hdone, hu, hnone⟩ := @ih t (by
          intro answer hanswer hrevision name hname
          rw [hgoes.renders] at hrevision
          rw [hgoes.rest] at hname
          exact hgoes.isSilent (hrest answer hanswer hrevision name hname))
        refine ⟨_, u, .work (if_pos haccepts) (htold.append hdone), hgoes.trans hu, ?_⟩
        simp [Task.tellsChange, hnone]
      · obtain ⟨done, t, hdone, ht, hnone⟩ := ih hrest
        exact ⟨_, t, .work (if_neg haccepts) hdone, ht, by simpa [Task.tellsChange] using hnone⟩

/-- A diagram is announced to listeners that make no changes of their own. -/
theorem completes_changes
    {names : List String}
    (h : ∀ name ∈ names, s.IsSilent .change name)
    (d : Diagram) :
    s.Completes (names.map (.announceChange · d)) (names.map (.announceChange · d))
      { s with log := s.log ++ names.map (.changed · d.text) } := by
  induction names generalizing s with
  | nil =>
      rw [List.map_nil, List.map_nil, List.append_nil]
      exact .nothing
  | cons name names ih =>
      rw [List.forall_mem_cons] at h
      obtain ⟨hfirst, hrest⟩ := h
      have htold : (s.emit (.changed name d.text)).IsSilent .change name :=
        hfirst
      have hothers := @ih (s.emit (.changed name d.text)) hrest
      unfold emit at hothers
      rw [List.append_assoc] at hothers
      exact .work (react_of_silent htold) hothers

end OtherTasks

section CommittedEdits

/--
No listener that is told of a diagram makes a change of its own: none of those for changes,
and none of those for renderings if the renderer answers at once.
-/
structure IsUndisturbed (s : Session) (d : Diagram) : Prop where
  changes : ∀ name ∈ s.changeListeners, s.IsSilent .change name
  renders :
    ∀ r ∈ (s.renders.request (s.revision + 1 : Nat) d.text).2,
      r.revision = (s.revision + 1 : Nat) →
        ∀ name, .named name ∈ s.renderListeners → s.IsSilent .render name

/--
A diagram was committed once, and everything was done that follows from it.  The renderer,
if there is one, got one order more; every listener was told once of that diagram, in
turn, and of no other.
-/
structure HasCommitted (s : Session) (d : Diagram) (done : List Task) (t : Session) : Prop where
  follows : (s.commit d).1.Completes (s.commit d).2 done t
  rest :
    t =
      { s with
        diagram := d
        revision := s.revision + 1
        renders := t.renders
        overlays := t.overlays
        log := t.log }
  requested :
    t.renders =
      { s.renders with
        latest := (s.revision + 1 : Nat)
        orders :=
          s.renders.orders ++
            if s.renders.renderer.isSome then [⟨(s.revision + 1 : Nat), d.text⟩] else []
        current := t.renders.current
        lastError := t.renders.lastError }
  announced : done.filter Task.tellsChange = s.changeListeners.map (.announceChange · d)
  heard :
    ∃ events,
      t.log = s.log ++ events ∧
        events.filter Event.isChange = s.changeListeners.map (.changed · d.text)

/--
What follows on a diagram that is committed, if nobody makes another change: what the
renderer answers at once is taken before the diagram is announced.
-/
theorem exists_hasCommitted
    {d : Diagram}
    (h : s.IsUndisturbed d) :
    ∃ done t, s.HasCommitted d done t := by
  have hlatest : (s.commit d).1.renders.latest = (s.revision + 1 : Nat) := by
    unfold commit
    dsimp only
    rw [Renders.request_eq]
  obtain ⟨answered, u, hanswered, hu, hnone⟩ :=
    @exists_completes_answers (s.commit d).1 _ (by
      intro r hr hrevision
      rw [hlatest] at hrevision
      exact h.renders r hr hrevision)
  have htold :=
    @completes_changes u s.changeListeners (fun name hname => hu.isSilent (h.changes name hname)) d
  obtain ⟨events, hevents, hquiet⟩ := hu.log
  have hlog :
      u.log ++ s.changeListeners.map (.changed · d.text) =
        s.log ++ (events ++ s.changeListeners.map (.changed · d.text)) := by
    rw [hevents, List.append_assoc]
    rfl
  refine ⟨_, _, hanswered.append htold, ?_, ?_, ?_, ⟨_, hlog, ?_⟩⟩
  · rw [hu.rest]
    rfl
  · dsimp only
    rw [hu.renders]
    unfold commit
    dsimp only
    rw [Renders.request_eq]
  · simp [List.filter_append, hnone, Task.tellsChange]
  · simp [List.filter_append, hquiet, Event.isChange]

/-- A change that commits a diagram returns when all that follows from it is done. -/
theorem HasCommitted.change_eq
    {d : Diagram} {reaction : Reaction} {effect : Effect}
    (h : s.HasCommitted d done t)
    (hperform : reaction.bind s.perform = .ok ((s.commit d).1, (s.commit d).2, effect)) :
    s.change reaction = (t, .ok (.effect effect)) := by
  unfold change
  rw [hperform]
  dsimp only
  unfold conclude
  rw [h.follows.run_eq]

/--
An edit that cannot be carried out, that is refused or that gives a diagram equal to the
current one leaves the session as it was, and so does a text that cannot be read.  Every
other edit is committed once, if those who are told of it make no changes of their own.
-/
theorem rejected_edits_leave_session
    (s : Session) :
    (∀ fault, s.LeavesAsItWas (.error fault) (.error fault)) ∧
    (∀ edit fault,
      s.editor.apply s.diagram edit = .error fault →
        s.LeavesAsItWas (.ok (.edit edit)) (.error fault)) ∧
    (∀ edit problem,
      s.editor.apply s.diagram edit = .ok (.refused problem) →
        s.LeavesAsItWas (.ok (.edit edit)) (.ok (.outcome (.refused problem)))) ∧
    (∀ edit d created,
      s.editor.apply s.diagram edit = .ok (.changed d created) →
        (d.agrees s.diagram = true →
          s.LeavesAsItWas (.ok (.edit edit)) (.ok (.outcome (.changed d created)))) ∧
        (d.agrees s.diagram = false → s.IsUndisturbed d →
          ∃ done t,
            s.change (.ok (.edit edit)) = (t, .ok (.effect (.outcome (.changed d created)))) ∧
              s.HasCommitted d done t)) ∧
    (∀ text fault,
      Reading.ofText text = .error fault →
        s.LeavesAsItWas (.ok (.text text)) (.error fault)) := by
  refine ⟨?_, ?_, ?_, ?_, ?_⟩
  · intro fault
    exact leavesAsItWas_of_perform fun _ => rfl
  · intro edit fault happly
    exact leavesAsItWas_of_perform fun reactions =>
      @performEdit_of_fault { s with reactions } edit fault happly
  · intro edit problem happly
    exact leavesAsItWas_of_perform fun reactions =>
      @performEdit_of_refused { s with reactions } edit problem happly
  · intro edit d created happly
    constructor
    · intro hagrees
      exact leavesAsItWas_of_perform fun reactions =>
        @performEdit_of_agrees { s with reactions } edit d created happly hagrees
    · intro hdiffers hundisturbed
      obtain ⟨done, t, hcommitted⟩ := exists_hasCommitted hundisturbed
      exact ⟨done, t, hcommitted.change_eq (performEdit_of_differs happly hdiffers), hcommitted⟩
  · intro text fault hread
    exact leavesAsItWas_of_perform fun reactions =>
      @performText_of_fault { s with reactions } text fault hread

/--
Two listeners for changes, one of them twice, one for renderings and an overlay; a third
listener would put another text in the place of the diagram, but is not subscribed any
more.  The renderer answers every order at once, for the last revision and for the new one.
-/
theorem rejected_edits_leave_session_of_two_nodes :
    ∃ opened s : Session,
      let renderer : Renderer :=
        ⟨fun order => [⟨order.revision - 1, .ok {}⟩, ⟨order.revision, .ok {}⟩]⟩
      start {} (some renderer) (some "A[x]\nB[y]") "flowchart" = .ok opened ∧
      opened.after
          [.subscribe .change "first" [], .subscribe .change "gone" [(1, .ok (.text "C[z]"))],
            .subscribe .change "second" [], .subscribe .change "first" [],
            .subscribe .render "watch" [], .openOverlay, .unsubscribe 1] =
        s ∧
      s.changeListeners = ["first", "second", "first"] ∧
      s.LeavesAsItWas (.error (.unknownEdit "Fold")) (.error (.unknownEdit "Fold")) ∧
      s.LeavesAsItWas (.ok (.edit (.createNode (.unknown (.text "cube")) none)))
        (.error (.unknownShape (.text "cube"))) ∧
      s.LeavesAsItWas (.ok (.edit (.deleteNode "Q")))
        (.ok (.outcome (.refused (.noLinesOfNode "Q")))) ∧
      (∃ d,
        d.agrees s.diagram = true ∧
        s.LeavesAsItWas (.ok (.edit (.updateNode "A" "x" (.known .rectangle) {})))
          (.ok (.outcome (.changed d none)))) ∧
      (∃ d done t,
        d.text = "A[x]\nB[y]\n    A --> B" ∧
        s.IsUndisturbed d ∧
        s.change (.ok (.edit (.createEdge (some "A") (some "B")))) =
          (t, .ok (.effect (.outcome (.changed d (some "edge_A_B"))))) ∧
        s.HasCommitted d done t) ∧
      s.LeavesAsItWas (.ok (.text (joinLines ["A[x]", wideLine "A" 309])))
        (.error .infiniteWidth) := by
  obtain ⟨opened, hopened, hvalue⟩ :=
    @exists_start_after _ {}
      (some ⟨fun order => [⟨order.revision - 1, .ok {}⟩, ⟨order.revision, .ok {}⟩]⟩)
      "A[x]\nB[y]" "flowchart" 9
      [.subscribe .change "first" [], .subscribe .change "gone" [(1, .ok (.text "C[z]"))],
        .subscribe .change "second" [], .subscribe .change "first" [],
        .subscribe .render "watch" [], .openOverlay, .unsubscribe 1]
      (fun s : Session =>
        decide (
          s.changeListeners = ["first", "second", "first"] ∧
          s.renderListeners = [.named "watch", .overlay 0] ∧
          (∀ name ∈ s.changeListeners,
            (takeReaction (.change, name) s.reactions).isNone = true) ∧
          (takeReaction (.render, "watch") s.reactions).isNone = true) &&
        ((s.editor.apply s.diagram (.deleteNode "Q")).toOption.any fun outcome =>
          match outcome with
          | .refused problem => problem == .noLinesOfNode "Q"
          | .changed _ _ => false) &&
        ((s.editor.apply s.diagram (.updateNode "A" "x" (.known .rectangle) {})).toOption.any
          fun outcome =>
            match outcome with
            | .refused _ => false
            | .changed d created => d.agrees s.diagram && created.isNone) &&
        ((s.editor.apply s.diagram (.createEdge (some "A") (some "B"))).toOption.any
          fun outcome =>
            match outcome with
            | .refused _ => false
            | .changed d created =>
                !d.agrees s.diagram &&
                  decide (d.text = "A[x]\nB[y]\n    A --> B" ∧ created = some "edge_A_B")))
      true rfl (by decide +kernel)
  simp only [Bool.and_eq_true, decide_eq_true_eq, Option.isNone_iff_eq_none] at hvalue
  obtain ⟨⟨⟨⟨hchanges, hrenders, hsilent, hwatch⟩, hdelete⟩, hupdate⟩, hcreate⟩ := hvalue
  generalize hs : opened.after _ = s at *
  obtain ⟨unbuilt, failed, refused, other, unread⟩ := rejected_edits_leave_session s
  refine ⟨opened, s, hopened, hs, hchanges, unbuilt _, failed _ _ rfl, ?_, ?_, ?_,
    unread _ _ ofText_wide⟩
  · obtain ⟨outcome, happly, hproblem⟩ := exists_of_any_toOption hdelete
    cases outcome with
    | changed d created =>
        cases hproblem
    | refused problem =>
        cases eq_of_beq hproblem
        exact refused _ _ happly
  · obtain ⟨outcome, happly, hsame⟩ := exists_of_any_toOption hupdate
    cases outcome with
    | changed d created =>
        obtain ⟨hagrees, hnone⟩ := (Bool.and_eq_true _ _).mp hsame
        cases Option.isNone_iff_eq_none.mp hnone
        exact ⟨d, hagrees, (other _ d none happly).1 hagrees⟩
    | refused problem =>
        cases hsame
  · obtain ⟨outcome, happly, hnew⟩ := exists_of_any_toOption hcreate
    cases outcome with
    | changed d created =>
        simp only [Bool.and_eq_true, Bool.not_eq_true', decide_eq_true_eq] at hnew
        obtain ⟨hdiffers, htext, rfl⟩ := hnew
        have hundisturbed : s.IsUndisturbed d := by
          refine ⟨hsilent, fun _ _ _ name hname => ?_⟩
          rw [hrenders] at hname
          cases (by simpa using hname : name = "watch")
          exact hwatch
        obtain ⟨done, t, hchange, hcommitted⟩ :=
          (other _ d _ happly).2 hdiffers hundisturbed
        exact ⟨d, done, t, htext, hundisturbed, hchange, hcommitted⟩
    | refused problem =>
        cases hnew

end CommittedEdits

end Session

end Flowchart
