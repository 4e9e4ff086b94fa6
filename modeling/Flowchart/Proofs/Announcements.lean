import Flowchart.Proofs.Revisions

/-!
# Announcements

A listener is told of diagrams and renderings by tasks of an agenda.  These tasks get
dates here: each is kept together with the session that issued it.

* `Issued`: a task with the session that issued it.
* `Session.Announces`: what is announced when a session goes on; every task and every
  command announces what it changes (`work_announces`, `begin_announces`).
* `Session.Renews`: what that means for one listener.
-/

namespace Flowchart

/-- Who is told of something: a listener for changes, or one for renderings. -/
inductive Audience
  | change (name : String)
  | render (listener : RenderListener)
deriving DecidableEq

namespace Renders

/-- The revision of the answer that was accepted last. -/
def answered? (renders : Renders) : Option Int :=
  (renders.lastError.map (·.1)).or (renders.current.map (·.1))

theorem answered?_request
    (renders : Renders) (revision : Int) (text : String) :
    (renders.request revision text).1.answered? = renders.answered? := by
  unfold request
  split
  · rfl
  · rfl

theorem answered?_publish
    (renders : Renders) (r : Rendering) :
    (renders.publish r).answered? = some r.revision := by
  unfold publish
  split
  · rfl
  · rfl

end Renders

namespace Session

/-- The newest revision of which there is something to tell. -/
def news? (s : Session) : Audience → Option Int
  | .change _ => some s.revision
  | .render _ => s.renders.answered?

def Tells (s : Session) : Audience → Prop
  | .change name => name ∈ s.changeListeners
  | .render listener => listener ∈ s.renderListeners

end Session

/-- A task with the session that issued it. -/
structure Issued where
  issuer : Session
  task : Task

namespace Issued

/-- The revision of which a task tells someone: the issuer's own, or that of an answer. -/
def tells? (x : Issued) : Audience → Option Int
  | .change name =>
      match x.task with
      | .announceChange other _ => if other = name then some x.issuer.revision else none
      | _ => none
  | .render listener =>
      match x.task with
      | .announceRender other r => if other = listener then some r.revision else none
      | _ => none

theorem tells?_change_eq_some_iff
    {x : Issued} {name : String} {n : Int} :
    x.tells? (.change name) = some n ↔
      (∃ d, x.task = .announceChange name d) ∧ (x.issuer.revision : Int) = n := by
  unfold tells?
  cases x.task with
  | announceChange other d =>
      by_cases h : other = name
      · simp [h]
      · simp [h]
  | _ =>
      simp

theorem tells?_render_eq_some_iff
    {x : Issued} {listener : RenderListener} {n : Int} :
    x.tells? (.render listener) = some n ↔
      ∃ r, x.task = .announceRender listener r ∧ r.revision = n := by
  unfold tells?
  cases x.task with
  | announceRender other r =>
      by_cases h : other = listener
      · simp [h]
      · simp [h]
  | _ =>
      simp

/--
What a task hands over is what its issuer had: the diagram that it has just committed,
or the answer that it has just accepted.
-/
def IsTruthful (x : Issued) : Prop :=
  match x.task with
  | .announceChange _ d => d = x.issuer.diagram
  | .announceRender _ r =>
      ∃ before : Renders, before.accepts r = true ∧ x.issuer.renders = before.publish r
  | _ => True

end Issued

/-- The revisions of which tasks tell someone, in order. -/
def told (a : Audience) (xs : List Issued) : List Int :=
  xs.filterMap (·.tells? a)

theorem mem_told_iff
    {a : Audience} {xs : List Issued} {n : Int} :
    n ∈ told a xs ↔ ∃ x ∈ xs, x.tells? a = some n :=
  List.mem_filterMap

theorem told_append
    (a : Audience) (xs ys : List Issued) :
    told a (xs ++ ys) = told a xs ++ told a ys :=
  List.filterMap_append

theorem told_cons
    (a : Audience) (x : Issued) (xs : List Issued) :
    told a (x :: xs) = (x.tells? a).toList ++ told a xs := by
  unfold told
  cases h : x.tells? a with
  | none =>
      simp [h]
  | some n =>
      simp [h]

namespace Session

section IssuedNews

/-- The tasks as a session issues them. -/
def issues (s : Session) (tasks : List Task) : List Issued :=
  tasks.map (⟨s, ·⟩)

/--
What is announced when a session goes on, with the answer that is accepted if there is
one: a new diagram to all listeners for changes, an answer to all for renderings.
-/
structure Announces (s t : Session) (answer : Option Rendering) (tasks : List Task) : Prop where
  changes : ∀ name d,
    .announceChange name d ∈ tasks ↔
      t.revision ≠ s.revision ∧ name ∈ t.changeListeners ∧ d = t.diagram
  renders : ∀ listener r,
    .announceRender listener r ∈ tasks ↔ answer = some r ∧ listener ∈ t.renderListeners

variable {s t u : Session} {answer : Option Rendering} {tasks : List Task}

/-- Nothing is announced. -/
theorem announces_rest
    (h : t.revision = s.revision) :
    Announces s t none [] where
  changes := by simp [h]
  renders := by simp

/-- A diagram that is committed is announced. -/
theorem announces_commit
    (s : Session) (d : Diagram) :
    Announces s (s.commit d).1 none (s.commit d).2 where
  changes := by
    intro name d'
    unfold commit
    simp [eq_comm]
  renders := by
    intro listener r
    unfold commit
    simp

/-- A report announces nothing. -/
theorem Announces.report
    (h : Announces s t answer tasks)
    (event : Event) :
    Announces s t answer (tasks ++ [.report event]) where
  changes := by
    intro name d
    rw [← h.changes]
    simp
  renders := by
    intro listener r
    rw [← h.renders]
    simp

theorem perform_announces
    {change : Change} {effect : Effect}
    (h : s.perform change = .ok (t, tasks, effect)) :
    Announces s t none tasks := by
  obtain ⟨diagnostics, ⟨rfl, rfl⟩ | ⟨d, hcommit⟩⟩ := perform_eq_ok h
  · exact announces_rest rfl
  · have hannounces := announces_commit { s with diagnostics } d
    rw [hcommit] at hannounces
    exact ⟨hannounces.changes, hannounces.renders⟩

theorem react_announces
    {signal : Signal} {name : String}
    (h : s.react signal name = .ok (t, tasks)) :
    Announces s t none tasks := by
  obtain ⟨rfl, rfl⟩ | ⟨reactions, change, more, effect, hperform, rfl⟩ := react_eq_ok h
  · exact announces_rest rfl
  · have hannounces := (perform_announces hperform).report (reactionEvent name effect)
    exact ⟨hannounces.changes, hannounces.renders⟩

/-- What a task leads to is announced. -/
theorem work_announces
    {task : Task}
    (h : s.work task = .ok (t, tasks)) :
    Announces s t (s.accepted? task) tasks := by
  cases task with
  | announceChange name d =>
      have hannounces := react_announces h
      exact ⟨hannounces.changes, hannounces.renders⟩
  | announceRender listener r =>
      cases listener with
      | named name =>
          have hannounces := react_announces h
          exact ⟨hannounces.changes, hannounces.renders⟩
      | overlay number =>
          cases h
          exact announces_rest rfl
  | accept r =>
      simp only [work] at h
      simp only [accepted?]
      split at h
      · rename_i haccepts
        cases h
        rw [if_pos haccepts]
        exact ⟨by simp, by simp [eq_comm, and_comm]⟩
      · rename_i haccepts
        cases h
        rw [if_neg haccepts]
        exact announces_rest rfl
  | report event =>
      cases h
      exact announces_rest rfl

theorem beginChange_announces
    (s : Session) (reaction : Reaction) :
    Announces s (s.beginChange reaction).session none (s.beginChange reaction).agenda := by
  obtain h | ⟨change, t, tasks, effect, hperform, h⟩ := beginChange_cases s reaction
  · rw [h]
    exact announces_rest rfl
  · rw [h]
    exact perform_announces hperform

theorem beginClick_announces
    (s : Session) (number : Fin s.overlays.length) (x y : Double) :
    Announces s (s.beginClick number x y).session none (s.beginClick number x y).agenda := by
  unfold beginClick
  dsimp only
  cases ((s.overlays.get number).click x y).2 with
  | none =>
      exact announces_rest rfl
  | some ends =>
      have hannounces := beginChange_announces
        { s with overlays := s.overlays.set number ((s.overlays.get number).click x y).1 }
        (.ok (.edit (.createEdge (some ends.1) (some ends.2))))
      exact ⟨hannounces.changes, hannounces.renders⟩

theorem LosesListeners.announces
    (h : LosesListeners s t) :
    Announces s t none [] := by
  obtain ⟨changes, renders, rfl, _⟩ := h
  exact announces_rest rfl

/-- An answer that is still to be accepted announces nothing yet. -/
theorem announces_accept
    (s : Session) (r : Rendering) :
    Announces s s none [.accept r] where
  changes := by simp
  renders := by simp

/-- What a command begins with is announced. -/
theorem begin_announces
    {c : Command}
    (hown : c.IsOwn)
    (s : Session) :
    Announces s (s.begin c).session none (s.begin c).agenda := by
  have h := begins s c
  generalize s.begin c = m at h ⊢
  cases h with
  | change reaction =>
      exact beginChange_announces s reaction
  | order revision text =>
      exact absurd hown id
  | accept _ r =>
      exact announces_accept s r
  | click _ number x y =>
      exact beginClick_announces s number x y
  | subscribe signal name reactions =>
      cases signal with
      | change =>
          exact announces_rest rfl
      | render =>
          exact announces_rest rfl
  | openOverlay =>
      exact announces_rest rfl
  | rest _ hloses =>
      exact hloses.announces

end IssuedNews

section Listeners

/-- The same listeners are told. -/
structure SameListeners (s t : Session) : Prop where
  changes : t.changeListeners = s.changeListeners
  renders : t.renderListeners = s.renderListeners

theorem perform_listeners
    {change : Change} {effect : Effect}
    (h : s.perform change = .ok (t, tasks, effect)) :
    SameListeners s t := by
  obtain ⟨diagnostics, ⟨rfl, rfl⟩ | ⟨d, hcommit⟩⟩ := perform_eq_ok h
  · exact ⟨rfl, rfl⟩
  · cases hcommit
    exact ⟨rfl, rfl⟩

theorem react_listeners
    {signal : Signal} {name : String}
    (h : s.react signal name = .ok (t, tasks)) :
    SameListeners s t := by
  obtain ⟨rfl, rfl⟩ | ⟨reactions, change, more, effect, hperform, rfl⟩ := react_eq_ok h
  · exact ⟨rfl, rfl⟩
  · have hsame := perform_listeners hperform
    exact ⟨hsame.changes, hsame.renders⟩

/-- No task changes who is told. -/
theorem work_listeners
    {task : Task}
    (h : s.work task = .ok (t, tasks)) :
    SameListeners s t := by
  cases task with
  | announceChange name d =>
      have hsame := react_listeners h
      exact ⟨hsame.changes, hsame.renders⟩
  | announceRender listener r =>
      cases listener with
      | named name =>
          have hsame := react_listeners h
          exact ⟨hsame.changes, hsame.renders⟩
      | overlay number =>
          cases h
          exact ⟨rfl, rfl⟩
  | accept r =>
      simp only [work] at h
      split at h
      · cases h
        exact ⟨rfl, rfl⟩
      · cases h
        exact ⟨rfl, rfl⟩
  | report event =>
      cases h
      exact ⟨rfl, rfl⟩

theorem SameListeners.tells
    (h : SameListeners s t)
    {a : Audience}
    (ha : s.Tells a) :
    t.Tells a := by
  unfold Tells at ha ⊢
  rwa [h.changes, h.renders]

end Listeners

section News

variable {s : Session}

theorem mem_told_change_issues
    {name : String} {n : Int} :
    n ∈ told (.change name) (s.issues tasks) ↔
      (∃ d, .announceChange name d ∈ tasks) ∧ (s.revision : Int) = n := by
  simp only [mem_told_iff, issues, List.mem_map, Issued.tells?_change_eq_some_iff]
  constructor
  · rintro ⟨_, ⟨task, htask, rfl⟩, ⟨d, rfl⟩, hn⟩
    exact ⟨⟨d, htask⟩, hn⟩
  · rintro ⟨⟨d, htask⟩, hn⟩
    exact ⟨_, ⟨_, htask, rfl⟩, ⟨d, rfl⟩, hn⟩

theorem mem_told_render_issues
    {listener : RenderListener} {n : Int} :
    n ∈ told (.render listener) (s.issues tasks) ↔
      ∃ r, .announceRender listener r ∈ tasks ∧ r.revision = n := by
  simp only [mem_told_iff, issues, List.mem_map, Issued.tells?_render_eq_some_iff]
  constructor
  · rintro ⟨_, ⟨task, htask, rfl⟩, r, rfl, hn⟩
    exact ⟨r, htask, hn⟩
  · rintro ⟨r, htask, hn⟩
    exact ⟨_, ⟨_, htask, rfl⟩, r, rfl, hn⟩

/-- Rendering is at the revision of the session, and no answer is for a later one. -/
structure IsUpToDate (s : Session) : Prop where
  latest : s.renders.latest = s.revision
  answered : ∀ n ∈ s.renders.answered?, n ≤ s.revision

theorem Advances.isUpToDate
    (h : Advances s t answer)
    (hs : s.IsUpToDate) :
    t.IsUpToDate := by
  cases h with
  | rest _ hrevision hrenders =>
      exact ⟨by rw [hrenders, hrevision, hs.latest], by rw [hrenders, hrevision]; exact hs.answered⟩
  | commit hrevision hrenders =>
      constructor
      · rw [hrenders, hrevision]
        unfold Renders.request
        split
        · rfl
        · rfl
      · rw [hrenders, hrevision, Renders.answered?_request]
        intro n hn
        have hle := hs.answered n hn
        omega
  | publish haccepts _ hrevision hrenders =>
      have hr : _ = s.renders.latest := beq_iff_eq.mp haccepts
      constructor
      · rw [hrenders, hrevision, ← hs.latest]
        unfold Renders.publish
        split
        · rfl
        · rfl
      · rw [hrenders, hrevision, Renders.answered?_publish]
        rintro n ⟨⟩
        exact Int.le_of_eq (hr.trans hs.latest)

/-- News never gets older. -/
theorem Advances.news_le
    (h : Advances s t answer)
    (hs : s.IsUpToDate)
    {a : Audience} {n : Int}
    (hn : n ∈ s.news? a) :
    ∃ n' ∈ t.news? a, n ≤ n' := by
  cases a with
  | change name =>
      cases hn
      refine ⟨_, rfl, ?_⟩
      cases h with
      | rest _ hrevision _ =>
          omega
      | commit hrevision _ =>
          omega
      | publish _ _ hrevision _ =>
          omega
  | render listener =>
      unfold news? at hn ⊢
      cases h with
      | rest _ _ hrenders =>
          exact ⟨n, by rwa [hrenders], Int.le_refl _⟩
      | commit _ hrenders =>
          exact ⟨n, by rwa [hrenders, Renders.answered?_request], Int.le_refl _⟩
      | publish haccepts _ _ hrenders =>
          have hr : _ = s.renders.latest := beq_iff_eq.mp haccepts
          refine ⟨_, by rw [hrenders]; exact Renders.answered?_publish _ _, ?_⟩
          rw [hr, hs.latest]
          exact hs.answered n hn

/-- What there is to tell stays, and nothing is issued; or it is issued to all who are told. -/
inductive Renews (s t : Session) (a : Audience) (issued : List Int) : Prop
  | rest :
      t.news? a = s.news? a →
      issued = [] →
      Renews s t a issued
  | news {n : Int} :
      t.news? a = some n →
      (∀ n' ∈ issued, n' = n ∧ t.Tells a) →
      (t.Tells a → n ∈ issued) →
      Renews s t a issued

/-- Whatever is issued to someone is the news, and that one is told. -/
theorem Renews.of_mem
    {a : Audience} {issued : List Int} {n : Int}
    (h : Renews s t a issued)
    (hn : n ∈ issued) :
    t.news? a = some n ∧ t.Tells a := by
  cases h with
  | rest _ hnil =>
      rw [hnil] at hn
      cases hn
  | news hnews hissued _ =>
      obtain ⟨rfl, htells⟩ := hissued n hn
      exact ⟨hnews, htells⟩

/-- What was the news is so still, or other news is issued to those who are told. -/
theorem Renews.news_or
    {a : Audience} {issued : List Int} {n : Int}
    (h : Renews s t a issued)
    (hnews : s.news? a = some n)
    (htells : t.Tells a) :
    t.news? a = some n ∨ ∃ n' ∈ issued, t.news? a = some n' := by
  cases h with
  | rest heq _ =>
      exact .inl (heq.trans hnews)
  | news hnews' _ hissued =>
      exact .inr ⟨_, hissued htells, hnews'⟩

/-- Every way to go on announces what there is to tell. -/
theorem Advances.renews
    (h : Advances s t answer)
    (hannounces : Announces s t answer tasks)
    (a : Audience) :
    Renews s t a (told a (t.issues tasks)) := by
  cases a with
  | change name =>
      by_cases hrevision : t.revision = s.revision
      · refine .rest (by rw [news?, news?, hrevision]) ?_
        rw [List.eq_nil_iff_forall_not_mem]
        intro n hn
        obtain ⟨⟨d, hd⟩, _⟩ := mem_told_change_issues.mp hn
        exact ((hannounces.changes name d).mp hd).1 hrevision
      · refine .news rfl ?_ ?_
        · intro n hn
          obtain ⟨⟨d, hd⟩, hn⟩ := mem_told_change_issues.mp hn
          exact ⟨hn.symm, ((hannounces.changes name d).mp hd).2.1⟩
        · intro htells
          exact mem_told_change_issues.mpr
            ⟨⟨_, (hannounces.changes name _).mpr ⟨hrevision, htells, rfl⟩⟩, rfl⟩
  | render listener =>
      have hissued : ∀ n ∈ told (.render listener) (t.issues tasks),
          ∃ r, answer = some r ∧ r.revision = n ∧ t.Tells (.render listener) := by
        intro n hn
        obtain ⟨r, hr, hn⟩ := mem_told_render_issues.mp hn
        obtain ⟨hanswer, htells⟩ := (hannounces.renders listener r).mp hr
        exact ⟨r, hanswer, hn, htells⟩
      cases h with
      | rest _ _ hrenders =>
          refine .rest (by rw [news?, news?, hrenders]) ?_
          rw [List.eq_nil_iff_forall_not_mem]
          intro n hn
          obtain ⟨r, hr, _⟩ := hissued n hn
          cases hr
      | commit _ hrenders =>
          refine .rest (by rw [news?, news?, hrenders, Renders.answered?_request]) ?_
          rw [List.eq_nil_iff_forall_not_mem]
          intro n hn
          obtain ⟨r, hr, _⟩ := hissued n hn
          cases hr
      | @publish r _ _ _ hrenders =>
          refine .news (by rw [news?, hrenders, Renders.answered?_publish]) ?_ ?_
          · intro n hn
            obtain ⟨_, ⟨⟩, hn, htells⟩ := hissued n hn
            exact ⟨hn.symm, htells⟩
          · intro htells
            exact mem_told_render_issues.mpr
              ⟨r, (hannounces.renders listener r).mpr ⟨rfl, htells⟩, rfl⟩

/-- What is issued is truthful, and it tells the news. -/
theorem Advances.issues
    (h : Advances s t answer)
    (hannounces : Announces s t answer tasks)
    {x : Issued}
    (hx : x ∈ t.issues tasks) :
    x.issuer = t ∧ x.IsTruthful ∧ ∀ a n, x.tells? a = some n → t.news? a = some n := by
  obtain ⟨task, htask, rfl⟩ := List.mem_map.mp hx
  refine ⟨rfl, ?_, ?_⟩
  · unfold Issued.IsTruthful
    cases task with
    | announceChange name d =>
        exact ((hannounces.changes name d).mp htask).2.2
    | announceRender listener r =>
        obtain ⟨rfl, _⟩ := (hannounces.renders listener r).mp htask
        cases h with
        | publish haccepts _ _ hrenders =>
            exact ⟨s.renders, haccepts, hrenders⟩
    | _ =>
        trivial
  · intro a n hn
    have htold : n ∈ told a (t.issues tasks) := mem_told_iff.mpr ⟨_, hx, hn⟩
    exact ((h.renews hannounces a).of_mem htold).1

end News

end Session

end Flowchart
