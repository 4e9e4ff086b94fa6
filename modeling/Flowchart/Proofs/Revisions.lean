import Flowchart.Proofs.SessionCourse

/-!
# The newest revision wins

Whatever a session does, diagram, revision and rendering change together: the
session rests, it commits a diagram under the next revision and requests its
rendering, or it publishes an answer for the revision requested last.  There is no
other way (`Advances`), so what these three keep holds at every moment of a course,
inside the reactions of listeners as well as between commands.

* `Session.IsCurrent`: what holds of a session at every moment.
* `Session.Precedes`: what holds between a moment and a later one.
* `newest_rendering_wins`: both, for all courses of a session.
-/

namespace Flowchart

namespace Session

section WaysOn

/--
How diagram, revision and rendering change at once, with the answer that is
accepted if there is one.
-/
inductive Advances (s t : Session) : Option Rendering → Prop
  | rest :
      t.diagram = s.diagram →
      t.revision = s.revision →
      t.renders = s.renders →
      Advances s t none
  | commit :
      t.revision = s.revision + 1 →
      t.renders = (s.renders.request (s.revision + 1 : Nat) t.diagram.text).1 →
      Advances s t none
  | publish {r : Rendering} :
      s.renders.accepts r = true →
      t.diagram = s.diagram →
      t.revision = s.revision →
      t.renders = s.renders.publish r →
      Advances s t (some r)

variable {s t u : Session} {answer : Option Rendering}

theorem Advances.of_rest
    (h : Advances t u answer)
    (hdiagram : t.diagram = s.diagram)
    (hrevision : t.revision = s.revision)
    (hrenders : t.renders = s.renders) :
    Advances s u answer := by
  cases h with
  | rest hd hr hs =>
      exact .rest (hd.trans hdiagram) (hr.trans hrevision) (hs.trans hrenders)
  | commit hr hs =>
      rw [hrevision] at hr hs
      rw [hrenders] at hs
      exact .commit hr hs
  | publish ha hd hr hs =>
      rw [hrenders] at ha hs
      exact .publish ha (hd.trans hdiagram) (hr.trans hrevision) hs

theorem commit_advances
    (s : Session) (d : Diagram) :
    Advances s (s.commit d).1 none :=
  .commit rfl rfl

/-- A change rests, or commits the diagram that it gives. -/
theorem perform_advances
    {change : Change} {tasks : List Task} {effect : Effect}
    (h : s.perform change = .ok (t, tasks, effect)) :
    Advances s t none := by
  obtain ⟨diagnostics, ⟨rfl, rfl⟩ | ⟨d, hcommit⟩⟩ := perform_eq_ok h
  · exact .rest rfl rfl rfl
  · have hadvances := commit_advances { s with diagnostics } d
    rw [hcommit] at hadvances
    exact hadvances.of_rest rfl rfl rfl

/-- The session that is reached, whether there is a fault or not. -/
def reached {α : Type} : Except (Session × Fault) (Session × α) → Session
  | .ok (t, _) => t
  | .error (t, _) => t

/-- A reaction only uses itself up, or its change is carried out as well. -/
theorem reached_react_cases
    (s : Session) (signal : Signal) (name : String) :
    ∃ reactions,
      reached (s.react signal name) = { s with reactions } ∨
        ∃ change tasks effect,
          perform { s with reactions } change =
            .ok (reached (s.react signal name), tasks, effect) := by
  unfold react
  cases takeReaction (signal, name) s.reactions with
  | none =>
      exact ⟨s.reactions, .inl rfl⟩
  | some taken =>
      obtain ⟨reaction, reactions⟩ := taken
      refine ⟨reactions, ?_⟩
      dsimp only
      cases hperform : reaction.bind (perform { s with reactions }) with
      | error fault =>
          exact .inl rfl
      | ok result =>
          obtain ⟨t, tasks, effect⟩ := result
          cases reaction with
          | error fault =>
              cases hperform
          | ok change =>
              exact .inr ⟨change, tasks, effect, hperform⟩

/-- A reaction advances as its change does; one that fails is used up all the same. -/
theorem react_advances
    (s : Session) (signal : Signal) (name : String) :
    Advances s (reached (s.react signal name)) none := by
  obtain ⟨reactions, h | ⟨change, tasks, effect, hperform⟩⟩ := reached_react_cases s signal name
  · rw [h]
    exact .rest rfl rfl rfl
  · exact (perform_advances hperform).of_rest rfl rfl rfl

/-- The answer that a session accepts by a task. -/
def accepted? (s : Session) : Task → Option Rendering
  | .accept r => if s.renders.accepts r then some r else none
  | _ => none

/-- A task that is an answer publishes it if it is accepted; others rest or commit. -/
theorem work_advances
    (s : Session) (task : Task) :
    Advances s (reached (s.work task)) (s.accepted? task) := by
  cases task with
  | announceChange name d =>
      exact (react_advances (s.emit (.changed name d.text)) .change name).of_rest rfl rfl rfl
  | announceRender listener r =>
      cases listener with
      | named name =>
          exact (react_advances (s.emit (.rendered name r.revision r.failure?)) .render name).of_rest
            rfl rfl rfl
      | overlay number =>
          exact .rest rfl rfl rfl
  | accept r =>
      simp only [work, accepted?]
      split
      · rename_i haccepts
        exact .publish haccepts rfl rfl rfl
      · exact .rest rfl rfl rfl
  | report event =>
      exact .rest rfl rfl rfl

theorem beginChange_advances
    (s : Session) (reaction : Reaction) :
    Advances s (s.beginChange reaction).session none := by
  obtain h | ⟨change, t, tasks, effect, hperform, h⟩ := beginChange_cases s reaction
  · rw [h]
    exact .rest rfl rfl rfl
  · rw [h]
    exact perform_advances hperform

theorem beginClick_advances
    (s : Session) (number : Fin s.overlays.length) (x y : Double) :
    Advances s (s.beginClick number x y).session none := by
  unfold beginClick
  dsimp only
  cases (s.overlays[number].click x y).2 with
  | none =>
      exact .rest rfl rfl rfl
  | some ends =>
      exact (beginChange_advances _ _).of_rest rfl rfl rfl

theorem LosesListeners.advances
    (h : LosesListeners s t) :
    Advances s t none := by
  obtain ⟨changes, renders, rfl, _⟩ := h
  exact .rest rfl rfl rfl

/-- A command of the session itself begins with a change, or rests. -/
theorem begin_advances
    {c : Command}
    (hown : c.IsOwn)
    (s : Session) :
    Advances s (s.begin c).session none := by
  have h := begins s c
  generalize s.begin c = m at h ⊢
  cases h with
  | change reaction =>
      exact beginChange_advances s reaction
  | order revision text =>
      exact absurd hown id
  | click _ number x y =>
      exact beginClick_advances s number x y
  | subscribe signal name reactions =>
      cases signal with
      | change =>
          exact .rest rfl rfl rfl
      | render =>
          exact .rest rfl rfl rfl
  | rest _ hloses =>
      exact hloses.advances
  | _ =>
      exact .rest rfl rfl rfl

end WaysOn

end Session

/-- The failure that an answer leaves as the last error. -/
def Rendering.failed? (r : Rendering) : Option (Int × String) :=
  r.failure?.map fun reason => (r.revision, reason)

namespace Renders

/--
What holds of rendering at a revision with a text, after some accepted answers: all
revisions up to this one were requested, each once and the last with the text.
-/
structure IsCurrent (renders : Renders) (revision : Nat) (text : String)
    (accepted : List Rendering) : Prop where
  latest : renders.latest = revision
  orders :
    renders.renderer.isSome = true →
      renders.orders.map (·.revision) = (List.range' 1 revision).map Int.ofNat
  ordered :
    renders.renderer.isSome = true → renders.orders.getLast? = some ⟨revision, text⟩
  current : ∀ c ∈ renders.current, c.1 ≤ revision
  lastError : renders.lastError = accepted.getLast?.bind Rendering.failed?

/-- What rendering keeps: no order is withdrawn, and the layout is never of an older revision. -/
structure Precedes (renders renders' : Renders) : Prop where
  renderer : renders'.renderer = renders.renderer
  orders : renders.orders <+: renders'.orders
  current : ∀ c ∈ renders.current, ∃ c' ∈ renders'.current, c.1 ≤ c'.1

variable {renders renders' renders'' : Renders} {revision : Nat} {text : String}
  {accepted : List Rendering} {r : Rendering}

theorem Precedes.refl
    (renders : Renders) :
    Precedes renders renders where
  renderer := rfl
  orders := List.prefix_rfl
  current := fun c hc => ⟨c, hc, Int.le_refl _⟩

theorem Precedes.trans
    (h : Precedes renders renders')
    (h' : Precedes renders' renders'') :
    Precedes renders renders'' where
  renderer := h'.renderer.trans h.renderer
  orders := h.orders.trans h'.orders
  current := by
    intro c hc
    obtain ⟨c', hc', hle⟩ := h.current c hc
    obtain ⟨c'', hc'', hle'⟩ := h'.current c' hc'
    exact ⟨c'', hc'', Int.le_trans hle hle'⟩

/-- Without a renderer only the revision is noted. -/
theorem request_of_none
    (h : renders.renderer = none)
    (revision : Int) (text : String) :
    (renders.request revision text).1 = { renders with latest := revision } := by
  unfold request
  rw [h]

/-- The order is placed behind all others. -/
theorem request_of_some
    {renderer : Renderer}
    (h : renders.renderer = some renderer)
    (revision : Int) (text : String) :
    (renders.request revision text).1 =
      { renders with latest := revision, orders := renders.orders ++ [⟨revision, text⟩] } := by
  unfold request
  rw [h]

/-- The next revision is requested with its text, behind all others. -/
theorem IsCurrent.request
    (h : renders.IsCurrent revision text accepted)
    (text' : String) :
    (renders.request (revision + 1 : Nat) text').1.IsCurrent (revision + 1) text' accepted ∧
      Precedes renders (renders.request (revision + 1 : Nat) text').1 := by
  have hcurrent : ∀ c ∈ renders.current, c.1 ≤ ((revision + 1 : Nat) : Int) := by
    intro c hc
    have hle := h.current c hc
    omega
  cases hrenderer : renders.renderer with
  | none =>
      rw [request_of_none hrenderer]
      refine ⟨⟨rfl, ?_, ?_, hcurrent, h.lastError⟩, ⟨rfl, List.prefix_rfl, ?_⟩⟩
      · simp [hrenderer]
      · simp [hrenderer]
      · exact fun c hc => ⟨c, hc, Int.le_refl _⟩
  | some renderer =>
      rw [request_of_some hrenderer]
      refine ⟨⟨rfl, ?_, ?_, hcurrent, h.lastError⟩, ⟨rfl, List.prefix_append _ _, ?_⟩⟩
      · intro _
        rw [List.map_append, h.orders (by simp [hrenderer]), List.range'_1_concat,
          List.map_append, Nat.add_comm]
        rfl
      · exact fun _ => List.getLast?_concat
      · exact fun c hc => ⟨c, hc, Int.le_refl _⟩

/-- An accepted answer is one for the newest revision. -/
theorem IsCurrent.publish
    (h : renders.IsCurrent revision text accepted)
    (haccepts : renders.accepts r = true) :
    (renders.publish r).IsCurrent revision text (accepted ++ [r]) ∧
      Precedes renders (renders.publish r) := by
  have hr : r.revision = revision := by
    rw [← h.latest]
    exact beq_iff_eq.mp haccepts
  have hlast : (accepted ++ [r]).getLast?.bind Rendering.failed? = r.failed? := by
    rw [List.getLast?_concat]
    rfl
  unfold Renders.publish
  cases hresult : r.result with
  | ok layout =>
      have hnone : r.failed? = none := by
        simp [Rendering.failed?, Rendering.failure?, hresult]
      refine ⟨⟨h.latest, h.orders, h.ordered, ?_, ?_⟩, ⟨rfl, List.prefix_rfl, ?_⟩⟩
      · rintro c ⟨⟩
        exact Int.le_of_eq hr
      · exact (hlast.trans hnone).symm
      · exact fun c hc => ⟨_, rfl, hr ▸ h.current c hc⟩
  | error reason =>
      have hsome : r.failed? = some (r.revision, reason) := by
        simp [Rendering.failed?, Rendering.failure?, hresult]
      refine ⟨⟨h.latest, h.orders, h.ordered, h.current, ?_⟩, ⟨rfl, List.prefix_rfl, ?_⟩⟩
      · exact (hlast.trans hsome).symm
      · exact fun c hc => ⟨c, hc, Int.le_refl _⟩

/-- What was requested at an earlier revision is requested still, in its place. -/
theorem IsCurrent.getElem?_orders
    (h : renders.IsCurrent revision text accepted)
    (hprecedes : Precedes renders renders')
    (hrenderer : renders.renderer.isSome = true) :
    renders'.orders[revision - 1]? = some ⟨revision, text⟩ := by
  have hlength : renders.orders.length = revision := by
    simpa using congrArg List.length (h.orders hrenderer)
  have hlast := h.ordered hrenderer
  rw [List.getLast?_eq_getElem?, hlength] at hlast
  obtain ⟨more, hmore⟩ := hprecedes.orders
  rw [← hmore, List.getElem?_append_left (List.getElem?_eq_some_iff.mp hlast).1]
  exact hlast

end Renders

namespace Session

variable {s t : Session} {answer : Option Rendering} {before : List Rendering}

/-- What holds of a session at a moment, after some accepted answers. -/
def IsCurrent (s : Session) (before : List Rendering) : Prop :=
  s.renders.IsCurrent s.revision s.diagram.text before

/-- Every way to go on keeps what holds at a moment. -/
theorem Advances.isCurrent
    (h : Advances s t answer)
    (hs : s.IsCurrent before) :
    t.IsCurrent (before ++ answer.toList) ∧ s.renders.Precedes t.renders := by
  unfold IsCurrent at hs ⊢
  cases h with
  | rest hdiagram hrevision hrenders =>
      rw [hdiagram, hrevision, hrenders, Option.toList_none, List.append_nil]
      exact ⟨hs, Renders.Precedes.refl _⟩
  | commit hrevision hrenders =>
      rw [hrevision, hrenders, Option.toList_none, List.append_nil]
      exact hs.request t.diagram.text
  | publish haccepts hdiagram hrevision hrenders =>
      rw [hdiagram, hrevision, hrenders, Option.toList_some]
      exact hs.publish haccepts

/-- The answers that are accepted on the way, in order. -/
def accepted (trace : List (Session × Task)) : List Rendering :=
  trace.filterMap fun (s, task) => s.accepted? task

theorem accepted_concat
    (trace : List (Session × Task)) (s : Session) (task : Task) :
    accepted (trace ++ [(s, task)]) = accepted trace ++ (s.accepted? task).toList := by
  unfold accepted
  rw [List.filterMap_append]
  cases h : s.accepted? task with
  | none =>
      simp [h]
  | some r =>
      simp [h]

end Session

namespace Moment

variable {first m : Moment} {trace : List (Session × Task)}

/-- What holds of a moment holds all along a course that starts from it. -/
theorem Course.isCurrent
    {before : List Rendering}
    (h : first.Course trace m)
    (hfirst : first.session.IsCurrent before) :
    m.session.IsCurrent (before ++ Session.accepted trace) ∧
      first.session.renders.Precedes m.session.renders := by
  induction h with
  | nothing =>
      rw [Session.accepted, List.filterMap_nil, List.append_nil]
      exact ⟨hfirst, Renders.Precedes.refl _⟩
  | @work _ s _ task _ _ _ hwork ih =>
      obtain ⟨hcurrent, hprecedes⟩ := (Session.work_advances s task).isCurrent ih.1
      rw [hwork] at hcurrent hprecedes
      rw [Session.accepted_concat, ← List.append_assoc]
      exact ⟨hcurrent, ih.2.trans hprecedes⟩
  | @fail _ s _ task _ _ _ hwork ih =>
      obtain ⟨hcurrent, hprecedes⟩ := (Session.work_advances s task).isCurrent ih.1
      rw [hwork] at hcurrent hprecedes
      rw [Session.accepted_concat, ← List.append_assoc]
      exact ⟨hcurrent, ih.2.trans hprecedes⟩
  | @obey _ s c _ hown ih =>
      have hadvances := (Session.begin_advances hown { s with log := [] }).of_rest rfl rfl rfl
      obtain ⟨hcurrent, hprecedes⟩ := hadvances.isCurrent ih.1
      rw [Option.toList_none, List.append_nil] at hcurrent
      exact ⟨hcurrent, ih.2.trans hprecedes⟩

/-- A session opens at its first revision, whose text is requested. -/
theorem Opens.isCurrent
    {editor : Editor} {renderer : Option Renderer}
    (h : Opens editor renderer first) :
    first.session.IsCurrent [] ∧ first.session.renders.renderer = renderer := by
  obtain ⟨text, effect, hperform⟩ := h
  obtain ⟨reading, _, hcommit⟩ := bind_eq_ok_iff.mp hperform
  obtain ⟨s, agenda⟩ := first
  cases hcommit
  cases renderer with
  | none =>
      exact ⟨⟨rfl, nofun, nofun, nofun, rfl⟩, rfl⟩
  | some renderer =>
      exact ⟨⟨rfl, fun _ => rfl, fun _ => rfl, nofun, rfl⟩, rfl⟩

end Moment

/--
A moment at which the newest revision counts, after some accepted answers.  The
revision requested last is the one that the session has.  If there is a renderer,
every revision was requested once, and stays requested with the text that it had.
An answer is taken over and announced if it is for that revision, and changes
nothing if it is not.  The layout that is shown is not of a later revision, and
later never of an earlier one.  There is a last error exactly if the answer that was
accepted last failed.
-/
structure Moment.ShowsNewest (m : Moment) (accepted : List Rendering) : Prop where
  latest : m.session.renders.latest = m.session.revision
  once :
    m.session.renders.renderer.isSome = true →
      m.session.renders.orders.map (·.revision) =
        (List.range' 1 m.session.revision).map Int.ofNat
  requested :
    m.session.renders.renderer.isSome = true →
      ∀ later m', m.Course later m' →
        m'.session.renders.orders[m.session.revision - 1]? =
          some ⟨m.session.revision, m.session.diagram.text⟩
  accepts :
    ∀ r,
      m.session.work (.accept r) =
        if r.revision = m.session.revision then
          .ok ({ m.session with renders := m.session.renders.publish r },
            m.session.renderListeners.map (.announceRender · r))
        else .ok (m.session, [])
  current : ∀ c ∈ m.session.renders.current, c.1 ≤ m.session.revision
  monotone :
    ∀ c ∈ m.session.renders.current, ∀ later m', m.Course later m' →
      ∃ c' ∈ m'.session.renders.current, c.1 ≤ c'.1
  lastError :
    m.session.renders.lastError.isSome = true ↔
      ∃ r ∈ accepted.getLast?, r.failure?.isSome = true

/-- What holds of a session at a moment, and is kept from there, shows the newest revision. -/
theorem Moment.showsNewest_of_isCurrent
    {m : Moment} {accepted : List Rendering}
    (h : m.session.IsCurrent accepted) :
    m.ShowsNewest accepted where
  latest := h.latest
  once := h.orders
  requested := fun hrenderer _ _ hlater =>
    h.getElem?_orders (hlater.isCurrent h).2 hrenderer
  accepts := by
    intro r
    simp only [Session.work, Renders.accepts, h.latest, beq_iff_eq]
  current := h.current
  monotone := fun c hc _ _ hlater => (hlater.isCurrent h).2.current c hc
  lastError := by
    rw [h.lastError, Option.isSome_bind, Option.any_eq_true]
    simp [Rendering.failed?]

/--
The newest rendering wins.  Opening a session and carrying out commands is a course
from the first moment of the session, and every moment of every such course, between
commands as well as inside the reactions of listeners, shows the newest revision.
-/
theorem newest_rendering_wins
    {editor : Editor} {renderer : Option Renderer} {given : Option String} {type : String}
    {s : Session} {commands : List Session.Command}
    (hs : Session.start editor renderer given type = .ok s)
    (hown : ∀ c ∈ commands, c.IsOwn) :
    ∃ first : Moment,
      first.Opens editor renderer ∧
      (∃ trace, first.Course trace ⟨s.after commands, []⟩) ∧
      ∀ trace m, first.Course trace m →
        m.session.renders.renderer = renderer ∧ m.ShowsNewest (Session.accepted trace) := by
  obtain ⟨first, opening, hopens, hopening⟩ := Moment.course_start hs
  obtain ⟨hfirst, hrenderer⟩ := hopens.isCurrent
  obtain ⟨trace, hcourse⟩ := Moment.course_after hown s
  refine ⟨first, hopens, ⟨_, hopening.trans hcourse⟩, ?_⟩
  intro trace m hm
  obtain ⟨hcurrent, hprecedes⟩ := hm.isCurrent hfirst
  exact ⟨hprecedes.renderer.trans hrenderer, Moment.showsNewest_of_isCurrent hcurrent⟩

/--
A renderer that answers at once, for an old revision and for the new one, a listener
that replaces the text when it hears of the second revision, and two late answers.
-/
theorem newest_rendering_wins_of_reentry :
    ∃ s : Session,
      let prompt : Renderer :=
        ⟨fun order => [⟨order.revision - 1, .error "late"⟩, ⟨order.revision, .ok {}⟩]⟩
      let commands : List Session.Command := [
        .subscribe .render "watch" [(1, .ok (.text "B[y]"))],
        .change (.ok (.edit (.deleteNode "A"))),
        .complete ⟨2, .ok {}⟩,
        .complete ⟨3, .error "no layout"⟩ ]
      Session.start {} (some prompt) (some "A[x]") "flowchart" = .ok s ∧
      (∀ c ∈ commands, c.IsOwn) ∧
      (s.after commands).renders.orders = [⟨1, "A[x]"⟩, ⟨2, ""⟩, ⟨3, "B[y]"⟩] ∧
      (s.after commands).renders.current.map (·.1) = some 3 ∧
      (s.after commands).renders.lastError = some (3, "no layout") ∧
      ∃ first : Moment,
        first.Opens {} (some prompt) ∧
        (∃ trace, first.Course trace ⟨s.after commands, []⟩) ∧
        ∀ trace m, first.Course trace m →
          m.session.renders.renderer = some prompt ∧
            m.ShowsNewest (Session.accepted trace) := by
  have hrun :
      (({ renders := {
            renderer := some ⟨fun order =>
              [⟨order.revision - 1, .error "late"⟩, ⟨order.revision, .ok {}⟩]⟩ } } :
          Session).performText "A[x]").toOption.bind (fun opened =>
        (opened.1.runFor 9 opened.2.1).bind fun first =>
          (first.1.afterFor 9 [
            .subscribe .render "watch" [(1, .ok (.text "B[y]"))],
            .change (.ok (.edit (.deleteNode "A"))),
            .complete ⟨2, .ok {}⟩,
            .complete ⟨3, .error "no layout"⟩ ]).map fun last =>
              (first.2.isNone, last.renders.orders, last.renders.current.map (·.1),
                last.renders.lastError)) =
        some (true, [⟨1, "A[x]"⟩, ⟨2, ""⟩, ⟨3, "B[y]"⟩], some 3, some (3, "no layout")) := by
    decide +kernel
  obtain ⟨opened, hopened, hrun⟩ := Option.bind_eq_some_iff.mp hrun
  obtain ⟨⟨s, fault⟩, hfirst, hrun⟩ := Option.bind_eq_some_iff.mp hrun
  obtain ⟨last, hlast, hrun⟩ := Option.map_eq_some_iff.mp hrun
  simp only [Prod.mk.injEq, Option.isNone_iff_eq_none] at hrun
  obtain ⟨rfl, horders, hcurrent, herror⟩ := hrun
  have hs :=
    @Session.start_of_runFor {} _ "A[x]" "flowchart" 9 _ _ _ _ rfl
      (toOption_eq_some_iff.mp hopened) hfirst
  have hafter := Session.after_of_afterFor hlast
  refine ⟨s, hs, by simp [Session.Command.IsOwn], ?_, ?_, ?_,
    newest_rendering_wins hs (by simp [Session.Command.IsOwn])⟩
  · rw [hafter]
    exact horders
  · rw [hafter]
    exact hcurrent
  · rw [hafter]
    exact herror

end Flowchart
