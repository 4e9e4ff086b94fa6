import Flowchart.Edit
import Flowchart.Render
import Flowchart.Template

/-!
# Editing sessions

A session owns a diagram and is the only one that changes it.  Every accepted
change gets the next revision number, is handed to the renderer, and is then
announced to the listeners for changes; accepted renderings are announced to the
listeners for renderings and to the overlays.

A listener may react to a signal by a change of its own, which takes place before
the signal goes to the next listener.  What is still to be done is therefore an
agenda: a change puts its announcements in front of those that are waiting.  Every
reaction is used once, so an agenda comes to an end (`work_progress`).  A reaction
that cannot be carried out at all ends the whole agenda at that point.
-/

namespace Flowchart

/-- The signals that one can listen to. -/
inductive Signal
  | change
  | render
deriving DecidableEq, Repr

/-- What a listener reports. -/
inductive Event
  | changed (name text : String)
  | rendered (name : String) (revision : Int) (error : Option String)
  | reacted (name : String) (ok : Bool) (created : Option String)
deriving DecidableEq, Repr

/-- Who hears of a rendering. -/
inductive RenderListener
  | named (name : String)
  | overlay (number : Nat)
deriving DecidableEq, Repr

/-- A change of the diagram: an edit, or another text in its place. -/
inductive Change
  | edit (e : Edit)
  | text (t : String)
deriving Repr

/-- What comes of a change: what an edit gives, or what there is to report of a text. -/
inductive Effect
  | outcome (o : Outcome)
  | diagnostics (all : List Diagnostic)
deriving Repr

/-- A reaction: a change, or why there is none. -/
abbrev Reaction := Except Fault Change

/-- Reactions in the order in which they are used up, each with how often in a row. -/
abbrev Reactions := List (Nat × Reaction)

/-- A session with its listeners, their reactions to come, its overlays, and the reported events. -/
structure Session where
  editor : Editor := {}
  diagram : Diagram := {}
  revision : Nat := 0
  diagnostics : List Diagnostic := []
  renders : Renders := {}
  subscriptions : List (Signal × String) := []
  changeListeners : List String := []
  renderListeners : List RenderListener := []
  reactions : List ((Signal × String) × Reactions) := []
  overlays : List Overlay := []
  log : List Event := []

/-- Something still to be done. -/
inductive Task
  | announceChange (name : String) (diagram : Diagram)
  | announceRender (listener : RenderListener) (r : Rendering)
  | accept (r : Rendering)
  | report (event : Event)

namespace Session

/-- How many reactions there are, counted as often as they are used. -/
def supply : Reactions → Nat
  | [] => 0
  | (times, _) :: later => times + supply later

/-- The next reaction, and those after it. -/
def nextReaction : Reactions → Option (Reaction × Reactions)
  | [] => none
  | (0, _) :: later => nextReaction later
  | (times + 1, reaction) :: later => some (reaction, (times, reaction) :: later)

/-- One reaction less is left. -/
theorem supply_nextReaction
    {reactions later : Reactions}
    {reaction : Reaction}
    (h : nextReaction reactions = some (reaction, later)) :
    supply later + 1 = supply reactions := by
  induction reactions with
  | nil =>
      simp [nextReaction] at h
  | cons first rest ih =>
      obtain ⟨times, r⟩ := first
      cases times with
      | zero =>
          simp only [nextReaction] at h
          simp only [supply, ih h, Nat.zero_add]
      | succ times =>
          simp only [nextReaction, Option.some.injEq, Prod.mk.injEq] at h
          obtain ⟨_, rfl⟩ := h
          simp only [supply]
          omega

/-- The number of reactions in a list of listeners. -/
def countReactions : List ((Signal × String) × Reactions) → Nat
  | [] => 0
  | (_, reactions) :: rest => supply reactions + countReactions rest

/-- The number of reactions to come. -/
def reactionCount (s : Session) : Nat := countReactions s.reactions

/-- Reports an event. -/
def emit (s : Session) (event : Event) : Session :=
  { s with log := s.log ++ [event] }

/-- Takes the next reaction of a listener out of all reactions. -/
def takeReaction (key : Signal × String) :
    List ((Signal × String) × Reactions) →
    Option (Reaction × List ((Signal × String) × Reactions))
  | [] => none
  | (other, reactions) :: rest =>
      if other = key then
        (nextReaction reactions).map fun (reaction, later) =>
          (reaction, (other, later) :: rest)
      else
        (takeReaction key rest).map fun (reaction, rest) =>
          (reaction, (other, reactions) :: rest)

/-- Taking a reaction leaves one less. -/
theorem countReactions_takeReaction
    {key : Signal × String}
    {all rest : List ((Signal × String) × Reactions)}
    {reaction : Reaction}
    (h : takeReaction key all = some (reaction, rest)) :
    countReactions rest + 1 = countReactions all := by
  induction all generalizing rest with
  | nil =>
      simp [takeReaction] at h
  | cons entry all ih =>
      obtain ⟨other, reactions⟩ := entry
      unfold takeReaction at h
      split at h
      · simp only [Option.map_eq_some_iff, Prod.exists, Prod.mk.injEq] at h
        obtain ⟨_, later, h, rfl, rfl⟩ := h
        have := supply_nextReaction h
        simp only [countReactions]
        omega
      · simp only [Option.map_eq_some_iff, Prod.exists, Prod.mk.injEq] at h
        obtain ⟨_, rest', h, rfl, rfl⟩ := h
        have := ih h
        simp only [countReactions]
        omega

/-- Makes a diagram the current one; the announcements are still to be made. -/
def commit (s : Session) (d : Diagram) : Session × List Task :=
  let revision := s.revision + 1
  let (renders, answers) := s.renders.request revision d.text
  ({ s with diagram := d, revision, renders },
    answers.map .accept ++ s.changeListeners.map (.announceChange · d))

/-- Carries an edit out; only a diagram that differs from the current one is committed. -/
def performEdit (s : Session) (edit : Edit) : Except Fault (Session × List Task × Effect) := do
  let outcome ← s.editor.apply s.diagram edit
  match outcome with
  | .changed d _ =>
      if d.agrees s.diagram then return (s, [], .outcome outcome)
      else
        let (s, tasks) := s.commit d
        return (s, tasks, .outcome outcome)
  | .refused _ => return (s, [], .outcome outcome)

/-- Puts a text in the place of the whole diagram, and keeps what there is to report of it. -/
def performText (s : Session) (text : String) : Except Fault (Session × List Task × Effect) := do
  let reading ← Reading.ofText text
  let s := { s with diagnostics := reading.diagnostics }
  let (s, tasks) := s.commit reading.diagram
  return (s, tasks, .diagnostics reading.diagnostics)

/-- Carries a change out; the announcements are still to be made. -/
def perform (s : Session) : Change → Except Fault (Session × List Task × Effect)
  | .edit e => s.performEdit e
  | .text t => s.performText t

/-- A change leaves the reactions as they are. -/
theorem perform_reactions
    {s t : Session}
    {change : Change}
    {tasks : List Task}
    {effect : Effect}
    (h : s.perform change = .ok (t, tasks, effect)) :
    t.reactions = s.reactions := by
  cases change with
  | edit e =>
      simp only [perform, performEdit, bind, Except.bind] at h
      cases ha : s.editor.apply s.diagram e with
      | error fault =>
          simp [ha] at h
      | ok outcome =>
          simp only [ha] at h
          split at h
          · split at h
            · simp only [pure, Except.pure, Except.ok.injEq, Prod.mk.injEq] at h
              rw [← h.1]
            · simp only [pure, Except.pure, Except.ok.injEq, Prod.mk.injEq] at h
              rw [← h.1]
              rfl
          · simp only [pure, Except.pure, Except.ok.injEq, Prod.mk.injEq] at h
            rw [← h.1]
  | text text =>
      simp only [perform, performText, bind, Except.bind] at h
      cases hr : Reading.ofText text with
      | error fault =>
          simp [hr] at h
      | ok reading =>
          simp only [hr, pure, Except.pure, Except.ok.injEq, Prod.mk.injEq] at h
          rw [← h.1]
          rfl

/-- What a listener reports of its reaction. -/
def reactionEvent (name : String) : Effect → Event
  | .outcome (.changed _ created) => .reacted name true created
  | .outcome (.refused _) => .reacted name false none
  | .diagnostics _ => .reacted name true none

/-- A listener reacts to a signal, if it has a reaction left. -/
def react (s : Session) (signal : Signal) (name : String) :
    Except (Session × Fault) (Session × List Task) :=
  match takeReaction (signal, name) s.reactions with
  | none => .ok (s, [])
  | some (reaction, reactions) =>
      let s := { s with reactions }
      match reaction.bind s.perform with
      | .error fault => .error (s, fault)
      | .ok (s, tasks, effect) => .ok (s, tasks ++ [.report (reactionEvent name effect)])

/-- Does one task; new tasks come before the ones that are waiting. -/
def work (s : Session) : Task → Except (Session × Fault) (Session × List Task)
  | .announceChange name d =>
      (s.emit (.changed name d.text)).react .change name
  | .announceRender (.named name) r =>
      (s.emit (.rendered name r.revision r.failure?)).react .render name
  | .announceRender (.overlay number) r =>
      .ok ({ s with overlays := s.overlays.modify number (·.follow r) }, [])
  | .accept r =>
      if s.renders.accepts r then
        .ok ({ s with renders := s.renders.publish r },
          s.renderListeners.map (.announceRender · r))
      else .ok (s, [])
  | .report event => .ok (s.emit event, [])

/-- How many tasks a task may lead to without a reaction, for a number of listeners. -/
def weight (listeners : Nat) : Task → Nat
  | .accept _ => listeners + 1
  | _ => 1

/-- How many tasks an agenda may lead to without a reaction. -/
def load (listeners : Nat) : List Task → Nat
  | [] => 0
  | task :: rest => weight listeners task + load listeners rest

/-- The load of two agendas is the load of both together. -/
theorem load_append
    (n : Nat)
    (xs ys : List Task) :
    load n (xs ++ ys) = load n xs + load n ys := by
  induction xs with
  | nil =>
      simp [load]
  | cons x xs ih =>
      simp only [List.cons_append, load, ih]
      omega

/-- Every announcement of a rendering counts once. -/
theorem load_announceRender
    (n : Nat)
    (listeners : List RenderListener)
    (r : Rendering) :
    load n (listeners.map (.announceRender · r)) = listeners.length := by
  induction listeners with
  | nil =>
      rfl
  | cons l listeners ih =>
      simp only [List.map_cons, load, weight, ih, List.length_cons]
      omega

/-- A reaction adds tasks only in exchange for one of the reactions to come. -/
theorem react_progress
    {s t : Session}
    {signal : Signal}
    {name : String}
    {tasks : List Task}
    (h : s.react signal name = .ok (t, tasks)) :
    t.reactionCount < s.reactionCount ∨ t = s ∧ tasks = [] := by
  unfold react at h
  split at h
  · simp only [Except.ok.injEq, Prod.mk.injEq] at h
    exact .inr ⟨h.1.symm, h.2.symm⟩
  · rename_i reaction reactions hr
    have hcount := countReactions_takeReaction hr
    simp only at h
    split at h
    · simp at h
    · rename_i u tasks' effect hp
      simp only [Except.ok.injEq, Prod.mk.injEq] at h
      left
      cases reaction with
      | error f =>
          simp [Except.bind] at hp
      | ok change =>
          have hu := perform_reactions hp
          simp only at hu
          rw [← h.1, reactionCount, reactionCount, hu]
          omega

/-- Every task uses up a reaction or lowers the load. -/
theorem work_progress
    {s t : Session}
    {task : Task}
    {tasks : List Task}
    (h : s.work task = .ok (t, tasks)) :
    t.reactionCount < s.reactionCount ∨
      t.reactionCount = s.reactionCount ∧
        t.renderListeners = s.renderListeners ∧
        load s.renderListeners.length tasks < weight s.renderListeners.length task := by
  cases task with
  | announceChange name d =>
      simp only [work] at h
      rcases react_progress h with hlt | ⟨rfl, rfl⟩
      · exact .inl hlt
      · exact .inr ⟨rfl, rfl, by simp [load, weight]⟩
  | announceRender listener r =>
      cases listener with
      | named name =>
          simp only [work] at h
          rcases react_progress h with hlt | ⟨rfl, rfl⟩
          · exact .inl hlt
          · exact .inr ⟨rfl, rfl, by simp [load, weight]⟩
      | overlay number =>
          simp only [work, Except.ok.injEq, Prod.mk.injEq] at h
          obtain ⟨rfl, rfl⟩ := h
          exact .inr ⟨rfl, rfl, by simp [load, weight]⟩
  | accept r =>
      simp only [work] at h
      split at h
      · simp only [Except.ok.injEq, Prod.mk.injEq] at h
        obtain ⟨rfl, rfl⟩ := h
        exact .inr ⟨rfl, rfl, by simp [load_announceRender, weight]⟩
      · simp only [Except.ok.injEq, Prod.mk.injEq] at h
        obtain ⟨rfl, rfl⟩ := h
        exact .inr ⟨rfl, rfl, by simp [load, weight]⟩
  | report event =>
      simp only [work, Except.ok.injEq, Prod.mk.injEq] at h
      obtain ⟨rfl, rfl⟩ := h
      exact .inr ⟨rfl, rfl, by simp [load, weight]⟩

/-- Does all tasks, the new ones of each before the ones that are waiting. -/
def run (s : Session) : List Task → Session × Option Fault
  | [] => (s, none)
  | task :: rest =>
      match _h : s.work task with
      | .error (t, fault) => (t, some fault)
      | .ok (t, tasks) => t.run (tasks ++ rest)
termination_by tasks => (s.reactionCount, load s.renderListeners.length tasks)
decreasing_by
  rcases work_progress _h with hlt | ⟨heq, hl, hload⟩
  · exact Prod.Lex.left _ _ hlt
  · rw [heq, hl]
    apply Prod.Lex.right
    rw [load_append]
    simp only [load]
    omega

/-- Nothing is left to be done. -/
theorem run_nil
    (s : Session) :
    s.run [] = (s, none) := by
  rw [run]

/-- The first task is done, and its new tasks come before the others. -/
theorem run_cons
    (s : Session)
    (task : Task)
    (rest : List Task) :
    s.run (task :: rest) =
      match s.work task with
      | .error (t, fault) => (t, some fault)
      | .ok (t, tasks) => t.run (tasks ++ rest) := by
  rw [run]
  cases hw : s.work task with
  | error e =>
      simp
  | ok r =>
      simp

section Commands

/-- What a session can be told to do, or asked. -/
inductive Command
  | change (change : Reaction)
  | complete (r : Rendering)
  | order (revision : Int) (text : String)
  /-- Answers the order of a number. -/
  | finish (number : Int) (result : Except String Layout)
  | subscribe (signal : Signal) (name : String) (reactions : Reactions)
  | unsubscribe (number : Int)
  | openOverlay
  | closeOverlay (number : Int)
  | lookAt (number : Int) (x y : Double)
  | click (number : Int) (x y : Double)
  | node (id : String)
  | edge (id : String)

/-- What a session replies. -/
inductive Reply
  | done
  | effect (e : Effect)
  | accepted (yes : Bool)
  | finished (order : RenderOrder) (accepted : Bool)
  | number (n : Nat)
  | seen (node edge : Option String)
  | node (n : Option Node)
  | edge (e : Option Edge)

/-- Runs an agenda and replies, unless the agenda ended early. -/
def conclude (s : Session) (tasks : List Task) (reply : Reply) :
    Session × Except Fault Reply :=
  match s.run tasks with
  | (t, none) => (t, .ok reply)
  | (t, some fault) => (t, .error fault)

/-- Carries a change out and everything that follows from it. -/
def change (s : Session) (reaction : Reaction) : Session × Except Fault Reply :=
  match reaction.bind s.perform with
  | .error fault => (s, .error fault)
  | .ok (s, tasks, effect) => s.conclude tasks (.effect effect)

/-- Takes an answer of the renderer, and tells whether it was accepted. -/
def complete (s : Session) (r : Rendering) : Session × Except Fault Reply :=
  s.conclude [.accept r] (.accepted (s.renders.accepts r))

/-- Orders a rendering of any text. -/
def order (s : Session) (revision : Int) (text : String) : Session × Except Fault Reply :=
  let (renders, answers) := s.renders.request revision text
  { s with renders }.conclude (answers.map .accept) .done

/-- Subscribes a listener; its reactions are those that it was first subscribed with. -/
def subscribe (s : Session) (signal : Signal) (name : String) (reactions : Reactions) :
    Session × Nat :=
  let known := s.reactions.any (·.1 == (signal, name))
  let s := {
    s with
    subscriptions := s.subscriptions ++ [(signal, name)]
    reactions := if known then s.reactions else s.reactions ++ [((signal, name), reactions)] }
  let s :=
    match signal with
    | .change => { s with changeListeners := s.changeListeners ++ [name] }
    | .render => { s with renderListeners := s.renderListeners ++ [.named name] }
  (s, s.subscriptions.length - 1)

/-- A list without the first of some equal members, if it has one. -/
def withdraw {α : Type} [BEq α] (x : α) (xs : List α) : Except Fault (List α) :=
  if xs.contains x then .ok (xs.erase x) else .error .notSubscribed

/-- Takes the first listener that is equal to that of a subscription off its list. -/
def unsubscribe (s : Session) : Signal × String → Except Fault Session
  | (.change, name) => do
      return { s with changeListeners := ← withdraw name s.changeListeners }
  | (.render, name) => do
      return { s with renderListeners := ← withdraw (.named name) s.renderListeners }

/-- Opens an overlay, which starts with the last accepted layout. -/
def openOverlay (s : Session) : Session × Nat :=
  let number := s.overlays.length
  let overlay : Overlay :=
    match s.renders.current with
    | some (_, layout) => Overlay.readBoxes {} layout
    | none => {}
  ({ s with
      overlays := s.overlays ++ [overlay]
      renderListeners := s.renderListeners ++ [.overlay number] }, number)

/-- Takes an overlay off the listeners for renderings; it keeps what it shows. -/
def closeOverlay (s : Session) (number : Nat) : Except Fault Session := do
  return { s with renderListeners := ← withdraw (.overlay number) s.renderListeners }

/-- A click on an overlay, and the edge that it may ask for. -/
def click (s : Session) (number : Fin s.overlays.length) (x y : Double) :
    Session × Except Fault Reply :=
  let (overlay, ends) := s.overlays[number].click x y
  let t := { s with overlays := s.overlays.set number overlay }
  match ends with
  | none => (t, .ok .done)
  | some (source, target) =>
      t.change (.ok (.edit (.createEdge (some source) (some target))))

/-- The session after a change that may be refused. -/
def orKeep (s : Session) : Except Fault Session → Session × Except Fault Reply
  | .ok t => (t, .ok .done)
  | .error fault => (s, .error fault)

/-- Carries out a command. -/
def obey (s : Session) : Command → Session × Except Fault Reply
  | .change reaction => s.change reaction
  | .complete r => s.complete r
  | .order revision text => s.order revision text
  | .finish number result =>
      match member s.renders.orders number with
      | .error fault => (s, .error fault)
      | .ok order =>
          let r : Rendering := ⟨order.revision, result⟩
          s.conclude [.accept r] (.finished order (s.renders.accepts r))
  | .subscribe signal name reactions =>
      let (t, number) := s.subscribe signal name reactions
      (t, .ok (.number number))
  | .unsubscribe number =>
      match member s.subscriptions number with
      | .error fault => (s, .error fault)
      | .ok subscription => s.orKeep (s.unsubscribe subscription)
  | .openOverlay =>
      let (t, number) := s.openOverlay
      (t, .ok (.number number))
  | .closeOverlay number =>
      match place s.overlays number with
      | .error fault => (s, .error fault)
      | .ok number => s.orKeep (s.closeOverlay number)
  | .lookAt number x y =>
      match member s.overlays number with
      | .error fault => (s, .error fault)
      | .ok overlay => (s, .ok (.seen (overlay.nodeAt? x y) (overlay.edgeAt? x y)))
  | .click number x y =>
      match place s.overlays number with
      | .error fault => (s, .error fault)
      | .ok number => s.click number x y
  | .node id => (s, .ok (.node (s.diagram.model.node? id)))
  | .edge id => (s, .ok (.edge (s.diagram.model.edge? id)))

/-- Carries out a command with an empty log, so that the log holds the events of that command. -/
def step (s : Session) (c : Command) : Session × Except Fault Reply :=
  { s with log := [] }.obey c

/-- A new session with a text, or with the template of a type if the text is empty or missing. -/
def start (editor : Editor) (renderer : Option Renderer) (text : Option String)
    (type : String) : Except Fault Session := do
  let text ←
    match text with
    | some text => if text.isEmpty then template type else .ok text
    | none => template type
  let session : Session := { editor, renders := { renderer } }
  match session.change (.ok (.text text)) with
  | (s, .ok _) => return s
  | (_, .error fault) => throw fault

end Commands

end Session
end Flowchart
