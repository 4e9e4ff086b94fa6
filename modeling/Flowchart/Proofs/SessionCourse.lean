import Flowchart.Proofs.ModelReading
import Flowchart.Session

/-!
# The course of a session

Between two tasks of an agenda a session is at a moment: what it is then, and what
is still to be done.  A course goes from moment to moment.  It does the first task
of the agenda, it drops the agenda if that task fails, and when nothing is left to
be done it begins with a command.  Listeners that make changes of their own are part
of it, since their changes are on the agenda.

* `begins`: the few ways in which the commands begin.
* `course_after`: carrying out commands one after the other is a course.
* `course_start`: so is the opening of a session.
* `runFor`: runs of a bounded number of tasks, which can be evaluated.
* `work_of_quiet`: what is done in a session whose listeners make no changes.
-/

namespace Flowchart

/-- A session with what is still to be done. -/
structure Moment where
  session : Session
  agenda : List Task

/-- The commands that go through the session; the others order renderings of their own. -/
def Session.Command.IsOwn : Session.Command → Prop
  | .order _ _ => False
  | _ => True

namespace Session

section CommandStart

/-- A change that was carried out, with the announcements still to be made. -/
def beginChange (s : Session) (reaction : Reaction) : Moment :=
  match reaction.bind s.perform with
  | .error _ => ⟨s, []⟩
  | .ok (t, tasks, _) => ⟨t, tasks⟩

/-- A click on an overlay, with the change that it may ask for. -/
def beginClick (s : Session) (number : Fin s.overlays.length) (x y : Double) : Moment :=
  let clicked := (s.overlays.get number).click x y
  let t := { s with overlays := s.overlays.set number clicked.1 }
  clicked.2.elim ⟨t, []⟩ fun ends =>
    t.beginChange (.ok (.edit (.createEdge (some ends.1) (some ends.2))))

/-- What a command does at once, and what it leaves to be done. -/
def begin (s : Session) : Command → Moment
  | .change reaction => s.beginChange reaction
  | .complete r => ⟨s, [.accept r]⟩
  | .order revision text =>
      let (renders, answers) := s.renders.request revision text
      ⟨{ s with renders }, answers.map .accept⟩
  | .finish number result =>
      match member s.renders.orders number with
      | .error _ => ⟨s, []⟩
      | .ok order => ⟨s, [.accept ⟨order.revision, result⟩]⟩
  | .click number x y =>
      match place s.overlays number with
      | .error _ => ⟨s, []⟩
      | .ok number => s.beginClick number x y
  | c => ⟨(s.obey c).1, []⟩

theorem conclude_fst
    (s : Session) (tasks : List Task) (reply : Reply) :
    (s.conclude tasks reply).1 = (s.run tasks).1 := by
  unfold conclude
  split
  · rename_i h
    rw [h]
  · rename_i h
    rw [h]

/-- All that is left to be done at a moment is done. -/
def finish (m : Moment) : Session := (m.session.run m.agenda).1

theorem change_fst
    (s : Session) (reaction : Reaction) :
    (s.change reaction).1 = finish (s.beginChange reaction) := by
  unfold change beginChange
  cases reaction.bind s.perform with
  | error fault =>
      exact (congrArg Prod.fst (run_nil s)).symm
  | ok result =>
      exact conclude_fst _ _ _

theorem click_fst
    (s : Session) (number : Fin s.overlays.length) (x y : Double) :
    (s.click number x y).1 = finish (s.beginClick number x y) := by
  unfold click beginClick
  dsimp only
  cases (s.overlays[number].click x y).2 with
  | none =>
      exact (congrArg Prod.fst (run_nil _)).symm
  | some ends =>
      exact change_fst _ _

/-- A command is carried out by doing all that it leaves to be done. -/
theorem obey_fst
    (s : Session) (c : Command) :
    (s.obey c).1 = finish (s.begin c) := by
  cases c with
  | change reaction =>
      exact change_fst s reaction
  | complete r =>
      exact conclude_fst _ _ _
  | order revision text =>
      exact conclude_fst _ _ _
  | finish number result =>
      unfold obey begin
      dsimp only
      cases member s.renders.orders number with
      | error fault =>
          exact (congrArg Prod.fst (run_nil s)).symm
      | ok order =>
          exact conclude_fst _ _ _
  | click number x y =>
      unfold obey begin
      dsimp only
      cases place s.overlays number with
      | error fault =>
          exact (congrArg Prod.fst (run_nil s)).symm
      | ok number =>
          exact click_fst s number x y
  | _ =>
      exact (congrArg Prod.fst (run_nil _)).symm

/-- A session that was started has carried out the change to its first text. -/
theorem start_eq_ok
    {editor : Editor} {renderer : Option Renderer} {given : Option String} {type : String}
    {s : Session}
    (h : start editor renderer given type = .ok s) :
    ∃ text reply,
      ({ editor, renders := { renderer } } : Session).change (.ok (.text text)) =
        (s, .ok reply) := by
  unfold start at h
  extract_lets session opened at h
  obtain ⟨text, h⟩ : ∃ text, opened text = .ok s := by
    split at h
    · split at h
      · obtain ⟨text, _, h⟩ := bind_eq_ok_iff.mp h
        exact ⟨text, h⟩
      · exact ⟨_, h⟩
    · obtain ⟨text, _, h⟩ := bind_eq_ok_iff.mp h
      exact ⟨text, h⟩
  unfold opened session at h
  split at h
  · rename_i reply hreply
    cases h
    exact ⟨text, reply, hreply⟩
  · cases h

/-- The session after some commands. -/
def after (s : Session) (commands : List Command) : Session :=
  commands.foldl (fun s c => (s.step c).1) s

end CommandStart

section Inversion

variable {s t : Session} {tasks : List Task} {reply : Reply}

/-- A change that is carried out changes nothing but the diagnostics, or commits a diagram. -/
theorem perform_eq_ok
    {change : Change} {effect : Effect}
    (h : s.perform change = .ok (t, tasks, effect)) :
    ∃ diagnostics,
      t = { s with diagnostics } ∧ tasks = [] ∨
        ∃ d, ({ s with diagnostics } : Session).commit d = (t, tasks) := by
  cases change with
  | edit edit =>
      obtain ⟨outcome, _, h⟩ := bind_eq_ok_iff.mp h
      cases outcome with
      | refused problem =>
          cases h
          exact ⟨_, .inl ⟨rfl, rfl⟩⟩
      | changed d created =>
          dsimp only at h
          split at h
          · cases h
            exact ⟨_, .inl ⟨rfl, rfl⟩⟩
          · cases h
            exact ⟨_, .inr ⟨d, rfl⟩⟩
  | text text =>
      obtain ⟨reading, _, h⟩ := bind_eq_ok_iff.mp h
      cases h
      exact ⟨_, .inr ⟨_, rfl⟩⟩

/-- A change that is not carried out leaves the session as it is, and nothing to be done. -/
theorem beginChange_cases
    (s : Session) (reaction : Reaction) :
    s.beginChange reaction = ⟨s, []⟩ ∨
      ∃ change t tasks effect,
        s.perform change = .ok (t, tasks, effect) ∧ s.beginChange reaction = ⟨t, tasks⟩ := by
  unfold beginChange
  cases hperform : reaction.bind s.perform with
  | error fault =>
      exact .inl rfl
  | ok result =>
      obtain ⟨t, tasks, effect⟩ := result
      cases reaction with
      | error fault =>
          cases hperform
      | ok change =>
          exact .inr ⟨change, t, tasks, effect, hperform, rfl⟩

/-- A listener that reacts without a fault has no reaction left, or its change is carried out. -/
theorem react_eq_ok
    {signal : Signal} {name : String}
    (h : s.react signal name = .ok (t, tasks)) :
    t = s ∧ tasks = [] ∨
      ∃ reactions change more effect,
        ({ s with reactions } : Session).perform change = .ok (t, more, effect) ∧
          tasks = more ++ [.report (reactionEvent name effect)] := by
  unfold react at h
  cases htake : takeReaction (signal, name) s.reactions with
  | none =>
      rw [htake] at h
      cases h
      exact .inl ⟨rfl, rfl⟩
  | some taken =>
      obtain ⟨reaction, reactions⟩ := taken
      rw [htake] at h
      dsimp only at h
      cases reaction with
      | error fault =>
          cases h
      | ok change =>
          cases hperform : perform { s with reactions } change with
          | error fault =>
              simp only [Except.bind, hperform] at h
              cases h
          | ok result =>
              obtain ⟨u, more, effect⟩ := result
              simp only [Except.bind, hperform] at h
              cases h
              exact .inr ⟨reactions, change, more, effect, hperform, rfl⟩

section CommandStarts

theorem mem_of_withdraw
    {α : Type} [BEq α] {x y : α} {xs ys : List α}
    (h : withdraw x xs = .ok ys)
    (hy : y ∈ ys) :
    y ∈ xs := by
  unfold withdraw at h
  split at h
  · cases h
    exact List.mem_of_mem_erase hy
  · cases h

/-- Some listeners may be gone, and nothing else has changed. -/
def LosesListeners (s t : Session) : Prop :=
  ∃ changes renders,
    t = { s with changeListeners := changes, renderListeners := renders } ∧
      ∀ listener ∈ renders, listener ∈ s.renderListeners

theorem LosesListeners.refl
    (s : Session) :
    LosesListeners s s :=
  ⟨s.changeListeners, s.renderListeners, rfl, fun _ hlistener => hlistener⟩

theorem losesListeners_orKeep
    {changed : Except Fault Session}
    (h : ∀ t, changed = .ok t → LosesListeners s t) :
    LosesListeners s (s.orKeep changed).1 := by
  cases changed with
  | error fault =>
      exact LosesListeners.refl s
  | ok t =>
      exact h t rfl

theorem losesListeners_unsubscribe
    (s : Session) (subscription : Signal × String) :
    LosesListeners s (s.orKeep (s.unsubscribe subscription)).1 := by
  apply losesListeners_orKeep
  intro t h
  obtain ⟨_ | _, name⟩ := subscription
  · obtain ⟨listeners, _, h⟩ := bind_eq_ok_iff.mp h
    cases h
    exact ⟨listeners, s.renderListeners, rfl, fun _ hlistener => hlistener⟩
  · obtain ⟨listeners, hwithdraw, h⟩ := bind_eq_ok_iff.mp h
    cases h
    exact ⟨s.changeListeners, listeners, rfl, fun _ => mem_of_withdraw hwithdraw⟩

theorem losesListeners_closeOverlay
    (s : Session) (number : Nat) :
    LosesListeners s (s.orKeep (s.closeOverlay number)).1 := by
  apply losesListeners_orKeep
  intro t h
  obtain ⟨listeners, hwithdraw, h⟩ := bind_eq_ok_iff.mp h
  cases h
  exact ⟨s.changeListeners, listeners, rfl, fun _ => mem_of_withdraw hwithdraw⟩

/-- What commands begin with: a change, a request, an answer or a click, or nothing to be done. -/
inductive Begins (s : Session) : Command → Moment → Prop
  | change (reaction : Reaction) :
      Begins s (.change reaction) (s.beginChange reaction)
  | order (revision : Int) (text : String) :
      Begins s (.order revision text)
        ⟨{ s with renders := (s.renders.request revision text).1 },
          (s.renders.request revision text).2.map .accept⟩
  | accept (c : Command) (r : Rendering) :
      Begins s c ⟨s, [.accept r]⟩
  | click (c : Command) (number : Fin s.overlays.length) (x y : Double) :
      Begins s c (s.beginClick number x y)
  | subscribe (signal : Signal) (name : String) (reactions : Reactions) :
      Begins s (.subscribe signal name reactions) ⟨(s.subscribe signal name reactions).1, []⟩
  | openOverlay :
      Begins s .openOverlay ⟨s.openOverlay.1, []⟩
  | rest (c : Command) {t : Session} :
      LosesListeners s t →
      Begins s c ⟨t, []⟩

theorem begins
    (s : Session) (c : Command) :
    s.Begins c (s.begin c) := by
  have hrest : s.Begins c ⟨s, []⟩ := .rest c (LosesListeners.refl s)
  cases c with
  | change reaction =>
      exact .change reaction
  | complete r =>
      exact .accept _ r
  | order revision text =>
      exact .order revision text
  | finish number result =>
      simp only [begin]
      cases member s.renders.orders number with
      | error fault =>
          exact hrest
      | ok order =>
          exact .accept _ _
  | subscribe signal name reactions =>
      exact .subscribe signal name reactions
  | unsubscribe number =>
      simp only [begin, obey]
      cases member s.subscriptions number with
      | error fault =>
          exact hrest
      | ok subscription =>
          exact .rest _ (losesListeners_unsubscribe s subscription)
  | openOverlay =>
      exact .openOverlay
  | closeOverlay number =>
      simp only [begin, obey]
      cases place s.overlays number with
      | error fault =>
          exact hrest
      | ok number =>
          exact .rest _ (losesListeners_closeOverlay s number)
  | lookAt number x y =>
      simp only [begin, obey]
      cases member s.overlays number with
      | error fault =>
          exact hrest
      | ok overlay =>
          exact hrest
  | click number x y =>
      simp only [begin]
      cases place s.overlays number with
      | error fault =>
          exact hrest
      | ok number =>
          exact .click _ number x y
  | _ =>
      exact hrest

end CommandStarts

section ReturningCalls

theorem conclude_eq_ok
    {given : Reply}
    (h : s.conclude tasks given = (t, .ok reply)) :
    s.run tasks = (t, none) := by
  unfold conclude at h
  split at h
  · rename_i hrun
    cases h
    exact hrun
  · cases h

theorem change_eq_ok
    {reaction : Reaction}
    (h : s.change reaction = (t, .ok reply)) :
    (s.beginChange reaction).session.run (s.beginChange reaction).agenda = (t, none) := by
  unfold change at h
  unfold beginChange
  cases hperform : reaction.bind s.perform with
  | error fault =>
      rw [hperform] at h
      cases h
  | ok result =>
      rw [hperform] at h
      exact conclude_eq_ok h

theorem click_eq_ok
    {number : Fin s.overlays.length} {x y : Double}
    (h : s.click number x y = (t, .ok reply)) :
    (s.beginClick number x y).session.run (s.beginClick number x y).agenda = (t, none) := by
  unfold click at h
  unfold beginClick
  rw [Fin.getElem_fin, ← List.get_eq_getElem] at h
  dsimp only at h ⊢
  cases hends : ((s.overlays.get number).click x y).2 with
  | none =>
      rw [hends] at h
      cases h
      exact run_nil _
  | some ends =>
      rw [hends] at h
      exact change_eq_ok h

/-- A command that returns has done all that it left to be done. -/
theorem run_begin_of_obey
    {c : Command}
    (h : s.obey c = (t, .ok reply)) :
    (s.begin c).session.run (s.begin c).agenda = (t, none) := by
  have hrest : ∀ u, u = t → u.run [] = (t, none) := by
    rintro u rfl
    exact run_nil u
  cases c with
  | change reaction =>
      exact change_eq_ok h
  | complete r =>
      exact conclude_eq_ok h
  | order revision text =>
      exact conclude_eq_ok h
  | finish number result =>
      simp only [obey, begin] at h ⊢
      cases hmember : member s.renders.orders number with
      | error fault =>
          rw [hmember] at h
          cases h
      | ok order =>
          rw [hmember] at h
          exact conclude_eq_ok h
  | click number x y =>
      simp only [obey, begin] at h ⊢
      cases hplace : place s.overlays number with
      | error fault =>
          rw [hplace] at h
          cases h
      | ok number =>
          rw [hplace] at h
          exact click_eq_ok h
  | _ =>
      exact hrest _ (congrArg Prod.fst h)

end ReturningCalls

end Inversion

section BoundedRuns

/-- A run of at most some number of tasks, by recursion on that number. -/
def runFor : Nat → Session → List Task → Option (Session × Option Fault)
  | _, s, [] => some (s, none)
  | 0, _, _ :: _ => none
  | n + 1, s, task :: rest =>
      match s.work task with
      | .error (t, fault) => some (t, some fault)
      | .ok (t, tasks) => runFor n t (tasks ++ rest)

theorem run_of_runFor
    {n : Nat} {s : Session} {tasks : List Task} {result : Session × Option Fault}
    (h : runFor n s tasks = some result) :
    s.run tasks = result := by
  induction n generalizing s tasks with
  | zero =>
      cases tasks with
      | nil =>
          rw [run_nil]
          exact Option.some.inj h
      | cons task rest =>
          cases h
  | succ n ih =>
      cases tasks with
      | nil =>
          rw [run_nil]
          exact Option.some.inj h
      | cons task rest =>
          rw [run_cons]
          unfold runFor at h
          cases hwork : s.work task with
          | error fault =>
              rw [hwork] at h
              exact Option.some.inj h
          | ok next =>
              rw [hwork] at h
              exact ih h

/-- The session after some commands, each with at most some number of tasks. -/
def afterFor (n : Nat) (s : Session) : List Command → Option Session
  | [] => some s
  | c :: commands =>
      let m := begin { s with log := [] } c
      (runFor n m.session m.agenda).bind fun result => afterFor n result.1 commands

theorem after_of_afterFor
    {n : Nat} {s t : Session} {commands : List Command}
    (h : afterFor n s commands = some t) :
    s.after commands = t := by
  induction commands generalizing s with
  | nil =>
      exact Option.some.inj h
  | cons c commands ih =>
      obtain ⟨result, hrun, h⟩ := Option.bind_eq_some_iff.mp h
      have hstep : (s.step c).1 = result.1 := by
        unfold step
        rw [obey_fst, finish, run_of_runFor hrun]
      rw [← ih h, ← hstep]
      rfl

/-- A session with a text of its own starts when all that follows on that text is done. -/
theorem start_of_runFor
    {editor : Editor} {renderer : Option Renderer} {text type : String} {n : Nat}
    {s t : Session} {tasks : List Task} {effect : Effect}
    (htext : text.isEmpty = false)
    (hperform :
      ({ editor, renders := { renderer } } : Session).performText text = .ok (t, tasks, effect))
    (hrun : runFor n t tasks = some (s, none)) :
    start editor renderer (some text) type = .ok s := by
  have hchange :
      ({ editor, renders := { renderer } } : Session).change (.ok (.text text)) =
        (s, .ok (.effect effect)) := by
    have hbind :
        (Except.ok (Change.text text) : Reaction).bind
            (perform { editor, renders := { renderer } }) = .ok (t, tasks, effect) :=
      hperform
    unfold change
    rw [hbind]
    dsimp only
    unfold conclude
    rw [run_of_runFor hrun]
  unfold start
  simp only [htext, Bool.false_eq_true, if_false, bind, Except.bind, hchange]
  rfl

/-- What can be computed of a session that was started and has carried out some commands. -/
theorem exists_start_after
    {α : Type} {editor : Editor} {renderer : Option Renderer} {text type : String} {n : Nat}
    {commands : List Command} {f : Session → α} {value : α}
    (htext : text.isEmpty = false)
    (hrun :
      (({ editor, renders := { renderer } } : Session).performText text).toOption.bind
          (fun opened => (runFor n opened.1 opened.2.1).bind fun first =>
            (afterFor n first.1 commands).map fun last => (first.2.isNone, f last)) =
        some (true, value)) :
    ∃ s, start editor renderer (some text) type = .ok s ∧ f (s.after commands) = value := by
  obtain ⟨opened, hopened, hrun⟩ := Option.bind_eq_some_iff.mp hrun
  obtain ⟨⟨s, fault⟩, hfirst, hrun⟩ := Option.bind_eq_some_iff.mp hrun
  obtain ⟨last, hlast, hrun⟩ := Option.map_eq_some_iff.mp hrun
  simp only [Prod.mk.injEq, Option.isNone_iff_eq_none] at hrun
  obtain ⟨rfl, hvalue⟩ := hrun
  refine ⟨s, start_of_runFor htext (toOption_eq_some_iff.mp hopened) hfirst, ?_⟩
  rw [after_of_afterFor hlast]
  exact hvalue

end BoundedRuns

section NoReactions

/-- A listener has no reaction left to a signal. -/
def IsSilent (s : Session) (signal : Signal) (name : String) : Prop :=
  takeReaction (signal, name) s.reactions = none

theorem react_of_silent
    {s : Session} {signal : Signal} {name : String}
    (h : s.IsSilent signal name) :
    s.react signal name = .ok (s, []) := by
  unfold IsSilent at h
  unfold react
  rw [h]

/-- Without reactions every listener is silent. -/
theorem isSilent_of_quiet
    {s : Session}
    (h : s.reactionCount = 0)
    (signal : Signal) (name : String) :
    s.IsSilent signal name := by
  unfold IsSilent
  cases htake : takeReaction (signal, name) s.reactions with
  | none =>
      rfl
  | some taken =>
      have hcount := countReactions_takeReaction htake
      unfold reactionCount at h
      omega

theorem react_of_quiet
    {s : Session}
    (h : s.reactionCount = 0)
    (signal : Signal) (name : String) :
    s.react signal name = .ok (s, []) :=
  react_of_silent (isSilent_of_quiet h signal name)

/-- Without reactions every task is done, and only answers lead to something. -/
theorem work_of_quiet
    {s : Session}
    (h : s.reactionCount = 0)
    (task : Task) :
    ∃ t tasks,
      s.work task = .ok (t, tasks) ∧
        t.revision = s.revision ∧
          (t.renders = s.renders ∧ tasks = [] ∨
            ∃ r, task = .accept r ∧ tasks = s.renderListeners.map (.announceRender · r)) := by
  cases task with
  | announceChange name d =>
      have hreact := @react_of_quiet (s.emit (.changed name d.text)) h .change name
      exact ⟨_, _, hreact, rfl, .inl ⟨rfl, rfl⟩⟩
  | announceRender listener r =>
      cases listener with
      | named name =>
          have hreact :=
            @react_of_quiet (s.emit (.rendered name r.revision r.failure?)) h .render name
          exact ⟨_, _, hreact, rfl, .inl ⟨rfl, rfl⟩⟩
      | overlay number =>
          exact ⟨_, _, rfl, rfl, .inl ⟨rfl, rfl⟩⟩
  | accept r =>
      by_cases haccepts : s.renders.accepts r = true
      · exact ⟨_, _, if_pos haccepts, rfl, .inr ⟨r, rfl, rfl⟩⟩
      · exact ⟨_, _, if_neg haccepts, rfl, .inl ⟨rfl, rfl⟩⟩
  | report event =>
      exact ⟨_, _, rfl, rfl, .inl ⟨rfl, rfl⟩⟩

end NoReactions

end Session

namespace Task

/-- No announcement of an answer waits until another answer was taken. -/
def InTurn (tasks : List Task) : Prop :=
  tasks.Pairwise fun x y => ∀ r, x = .accept r → ∀ listener r', y ≠ .announceRender listener r'

theorem inTurn_of_forall_ne
    {tasks : List Task}
    (h : ∀ task ∈ tasks, ∀ listener r, task ≠ .announceRender listener r) :
    InTurn tasks :=
  List.pairwise_of_forall_mem_list fun _ _ y hy _ _ listener r => h y hy listener r

theorem InTurn.ne_announceRender
    {task later : Task} {rest : List Task} {r r' : Rendering} {listener : RenderListener}
    (h : InTurn (task :: rest))
    (htask : task = .accept r)
    (hlater : later ∈ rest) :
    later ≠ .announceRender listener r' :=
  (List.pairwise_cons.mp h).1 later hlater r htask listener r'

/-- Without reactions everything is announced in turn. -/
theorem InTurn.work
    {s t : Session} {task : Task} {tasks rest : List Task}
    (h : InTurn (task :: rest))
    (hquiet : s.reactionCount = 0)
    (hwork : s.work task = .ok (t, tasks)) :
    InTurn (tasks ++ rest) := by
  obtain ⟨u, tasks', hwork', _, hcases⟩ := Session.work_of_quiet hquiet task
  cases hwork.symm.trans hwork'
  have hrest : InTurn rest := (List.pairwise_cons.mp h).2
  rcases hcases with ⟨_, rfl⟩ | ⟨r, _, rfl⟩
  · exact hrest
  · have hnone : ∀ x ∈ s.renderListeners.map (Task.announceRender · r), ∀ r', x ≠ .accept r' := by
      simp
    refine List.pairwise_append.mpr ⟨List.pairwise_of_forall_mem_list ?_, hrest, ?_⟩
    · exact fun x hx _ _ r' hr' => absurd hr' (hnone x hx r')
    · exact fun x hx _ _ r' hr' => absurd hr' (hnone x hx r')

end Task

namespace Moment

/--
What follows on a moment: the tasks that are done on the way, each with the session
that does it, and the moment that is reached.
-/
inductive Course (first : Moment) : List (Session × Task) → Moment → Prop
  | nothing : Course first [] first
  | work {trace : List (Session × Task)} {s t : Session} {task : Task} {tasks rest : List Task} :
      Course first trace ⟨s, task :: rest⟩ →
      s.work task = .ok (t, tasks) →
      Course first (trace ++ [(s, task)]) ⟨t, tasks ++ rest⟩
  | fail {trace : List (Session × Task)} {s t : Session} {task : Task} {rest : List Task}
      {fault : Fault} :
      Course first trace ⟨s, task :: rest⟩ →
      s.work task = .error (t, fault) →
      Course first (trace ++ [(s, task)]) ⟨t, []⟩
  | obey {trace : List (Session × Task)} {s : Session} {c : Session.Command} :
      Course first trace ⟨s, []⟩ →
      c.IsOwn →
      Course first trace (Session.begin { s with log := [] } c)

/-- The first moment of a session: it has its first text, and announces it. -/
def Opens (editor : Editor) (renderer : Option Renderer) (first : Moment) : Prop :=
  ∃ text effect,
    ({ editor, renders := { renderer } } : Session).performText text =
      .ok (first.session, first.agenda, effect)

variable {first m m' : Moment} {trace later : List (Session × Task)}

/-- A course can be continued by another. -/
theorem Course.trans
    (h : first.Course trace m)
    (h' : m.Course later m') :
    first.Course (trace ++ later) m' := by
  induction h' with
  | nothing =>
      rwa [List.append_nil]
  | work _ hwork ih =>
      rw [← List.append_assoc]
      exact .work ih hwork
  | fail _ hwork ih =>
      rw [← List.append_assoc]
      exact .fail ih hwork
  | obey _ hown ih =>
      exact .obey ih hown

/-- Doing all tasks of an agenda is a course. -/
theorem exists_course_finish
    (m : Moment) :
    ∃ trace, m.Course trace ⟨Session.finish m, []⟩ := by
  obtain ⟨s, tasks⟩ := m
  unfold Session.finish
  induction s, tasks using Session.run.induct with
  | case1 s =>
      rw [Session.run_nil]
      exact ⟨[], .nothing⟩
  | case2 s task rest t fault hwork =>
      rw [Session.run_cons, hwork]
      exact ⟨_, .fail .nothing hwork⟩
  | case3 s task rest t tasks hwork ih =>
      obtain ⟨later, hlater⟩ := ih
      rw [Session.run_cons, hwork]
      exact ⟨_, (Course.work .nothing hwork).trans hlater⟩

theorem course_step
    {c : Session.Command}
    (hown : c.IsOwn)
    (s : Session) :
    ∃ trace, (Moment.mk s []).Course trace ⟨(s.step c).1, []⟩ := by
  obtain ⟨trace, h⟩ := exists_course_finish (Session.begin { s with log := [] } c)
  rw [← Session.obey_fst] at h
  exact ⟨_, (Course.obey .nothing hown).trans h⟩

/-- Carrying out commands one after the other is a course. -/
theorem course_after
    {commands : List Session.Command}
    (hown : ∀ c ∈ commands, c.IsOwn)
    (s : Session) :
    ∃ trace, (Moment.mk s []).Course trace ⟨s.after commands, []⟩ := by
  induction commands generalizing s with
  | nil =>
      exact ⟨[], .nothing⟩
  | cons c commands ih =>
      rw [List.forall_mem_cons] at hown
      obtain ⟨trace, hfirst⟩ := course_step hown.1 s
      obtain ⟨later, hrest⟩ := ih hown.2 (s.step c).1
      exact ⟨trace ++ later, hfirst.trans hrest⟩

/-- Opening a session is a course from its first moment. -/
theorem course_start
    {editor : Editor} {renderer : Option Renderer} {given : Option String} {type : String}
    {s : Session}
    (h : Session.start editor renderer given type = .ok s) :
    ∃ first trace, Opens editor renderer first ∧ first.Course trace ⟨s, []⟩ := by
  obtain ⟨text, reply, hchange⟩ := Session.start_eq_ok h
  have hfinish := Session.change_fst { editor, renders := { renderer } } (.ok (.text text))
  rw [hchange] at hfinish
  have hbind :
      (Except.ok (Change.text text) : Reaction).bind
          (Session.perform { editor, renders := { renderer } }) =
        Session.performText { editor, renders := { renderer } } text := by
    rfl
  unfold Session.change at hchange
  unfold Session.beginChange at hfinish
  rw [hbind] at hchange hfinish
  cases hperform : Session.performText { editor, renders := { renderer } } text with
  | error fault =>
      rw [hperform] at hchange
      cases hchange
  | ok result =>
      obtain ⟨t, tasks, effect⟩ := result
      obtain ⟨trace, hcourse⟩ := exists_course_finish ⟨t, tasks⟩
      rw [hperform] at hfinish
      dsimp only at hfinish
      rw [← hfinish] at hcourse
      exact ⟨⟨t, tasks⟩, trace, ⟨text, effect, hperform⟩, hcourse⟩

end Moment

end Flowchart
