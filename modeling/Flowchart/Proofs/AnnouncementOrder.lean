import Flowchart.Proofs.Announcements

/-!
# The order of announcements

A change that is made while an announcement is waiting puts its own announcements in
front of it, so the waiting one is made later, and is then older than what was announced
before.

* `Docket.Course`: the course of a session that keeps who issued each task.
* `Docket.Owes`: what holds of one listener at a moment of such a course; its
  announcements are the news when their turn comes, or come after newer ones.
* `announcements_in_order_iff`: a listener is told in order exactly if nothing that it
  is told was overtaken before.
-/

namespace Flowchart

/-- A session with the issued tasks that are still to be done. -/
structure Docket where
  session : Session
  waiting : List Issued

/-- A task that is done, with the session that does it and the tasks that are waiting. -/
structure Doing where
  session : Session
  done : Issued
  waiting : List Issued

/-- A moment whose tasks were issued by its session. -/
def Moment.docket (m : Moment) : Docket := ⟨m.session, m.session.issues m.agenda⟩

namespace Docket

/-- The moment, without the dates. -/
def moment (m : Docket) : Moment := ⟨m.session, m.waiting.map (·.task)⟩

/-- A course that keeps who issued each task. -/
inductive Course (first : Docket) : List Doing → Docket → Prop
  | nothing : Course first [] first
  | work {trace : List Doing} {s t : Session} {x : Issued} {rest : List Issued}
      {tasks : List Task} :
      Course first trace ⟨s, x :: rest⟩ →
      s.work x.task = .ok (t, tasks) →
      Course first (trace ++ [⟨s, x, rest⟩]) ⟨t, t.issues tasks ++ rest⟩
  | fail {trace : List Doing} {s t : Session} {x : Issued} {rest : List Issued} {fault : Fault} :
      Course first trace ⟨s, x :: rest⟩ →
      s.work x.task = .error (t, fault) →
      Course first (trace ++ [⟨s, x, rest⟩]) ⟨t, []⟩
  | obey {trace : List Doing} {s : Session} {c : Session.Command} :
      Course first trace ⟨s, []⟩ →
      c.IsOwn →
      Course first trace (Session.begin { s with log := [] } c).docket

variable {first m m' : Docket} {trace later : List Doing}

theorem moment_docket
    (m : Moment) :
    m.docket.moment = m := by
  obtain ⟨s, agenda⟩ := m
  simp [Moment.docket, moment, Session.issues, Function.comp_def]

theorem map_task_issues
    (s : Session) (tasks : List Task) :
    (s.issues tasks).map (·.task) = tasks := by
  simp [Session.issues, Function.comp_def]

/-- The dates change nothing of a course. -/
theorem Course.moment
    (h : first.Course trace m) :
    first.moment.Course (trace.map fun e => (e.session, e.done.task)) m.moment := by
  induction h with
  | nothing =>
      exact .nothing
  | work _ hwork ih =>
      have hnext := Moment.Course.work ih hwork
      simpa [Docket.moment, map_task_issues] using hnext
  | fail _ hwork ih =>
      have hnext := Moment.Course.fail ih hwork
      simpa [Docket.moment] using hnext
  | obey _ hown ih =>
      rw [moment_docket]
      exact .obey ih hown

/-- Every course can be given dates. -/
theorem exists_course
    {pairs : List (Session × Task)} {m : Moment}
    (h : first.moment.Course pairs m) :
    ∃ trace m', first.Course trace m' ∧ m'.moment = m ∧
      (trace.map fun e => (e.session, e.done.task)) = pairs := by
  induction h with
  | nothing =>
      exact ⟨[], first, .nothing, rfl, rfl⟩
  | work _ hwork ih =>
      obtain ⟨trace, ⟨s, waiting⟩, hcourse, hm, rfl⟩ := ih
      simp only [Docket.moment, Moment.mk.injEq, List.map_eq_cons_iff] at hm
      obtain ⟨rfl, x, rest, rfl, rfl, rfl⟩ := hm
      exact ⟨_, _, .work hcourse hwork, by simp [Docket.moment, map_task_issues], by simp⟩
  | fail _ hwork ih =>
      obtain ⟨trace, ⟨s, waiting⟩, hcourse, hm, rfl⟩ := ih
      simp only [Docket.moment, Moment.mk.injEq, List.map_eq_cons_iff] at hm
      obtain ⟨rfl, x, rest, rfl, rfl, rfl⟩ := hm
      exact ⟨_, _, .fail hcourse hwork, rfl, by simp⟩
  | obey _ hown ih =>
      obtain ⟨trace, ⟨s, waiting⟩, hcourse, hm, rfl⟩ := ih
      simp only [Docket.moment, Moment.mk.injEq, List.map_eq_nil_iff] at hm
      obtain ⟨rfl, rfl⟩ := hm
      exact ⟨_, _, .obey hcourse hown, moment_docket _, rfl⟩

/-- A place in a list to which something was added is the last one, or one before. -/
theorem append_cons_eq_concat
    {α : Type} {front back trace : List α} {e x : α}
    (h : front ++ e :: back = trace ++ [x]) :
    front = trace ∧ e = x ∨ ∃ back, front ++ e :: back = trace := by
  rcases List.eq_nil_or_concat' back with rfl | ⟨back, last, rfl⟩
  · obtain ⟨hfront, hlast⟩ := List.append_inj' h rfl
    cases hlast
    exact .inl ⟨hfront, rfl⟩
  · rw [← List.cons_append, ← List.append_assoc] at h
    exact .inr ⟨back, (List.append_inj' h rfl).1⟩

/-- A task that is done was the first that was waiting. -/
theorem Course.before
    {front back : List Doing} {e : Doing}
    (h : first.Course (front ++ e :: back) m) :
    first.Course front ⟨e.session, e.done :: e.waiting⟩ := by
  generalize htrace : front ++ e :: back = trace at h
  induction h generalizing back with
  | nothing =>
      simp at htrace
  | work hcourse _ ih =>
      rcases append_cons_eq_concat htrace with ⟨rfl, rfl⟩ | ⟨_, htrace⟩
      · exact hcourse
      · exact ih htrace
  | fail hcourse _ ih =>
      rcases append_cons_eq_concat htrace with ⟨rfl, rfl⟩ | ⟨_, htrace⟩
      · exact hcourse
      · exact ih htrace
  | obey _ _ ih =>
      exact ih htrace

theorem Course.trans
    (h : first.Course trace m)
    (h' : m.Course later m') :
    first.Course (trace ++ later) m' := by
  induction h' with
  | nothing =>
      rwa [List.append_nil]
  | work _ hwork ih =>
      rw [← List.append_assoc]
      exact .work ih hwork
  | fail _ hwork ih =>
      rw [← List.append_assoc]
      exact .fail ih hwork
  | obey _ hown ih =>
      exact .obey ih hown

variable {s t : Session} {a : Audience} {before : List Int} {x : Issued} {rest : List Issued}
  {answer : Option Rendering} {tasks : List Task}

section OwedNews

/--
What is owed to a listener that was told of some revisions.  Nothing that it was told
or will be told of is newer than the news.  It is still listening if it will be told of
something, and whatever that is, it is the news, or it will have been told of something
newer by then.
-/
structure Owes (m : Docket) (a : Audience) (before : List Int) : Prop where
  known : ∀ n ∈ before ++ told a m.waiting, ∃ n' ∈ m.session.news? a, n ≤ n'
  tells : told a m.waiting ≠ [] → m.session.Tells a
  due : ∀ front n back,
    told a m.waiting = front ++ n :: back →
      m.session.news? a = some n ∨ ∃ n' ∈ before ++ front, n < n'

/-- A place in two lists is one in the first, or one in the second. -/
theorem mem_or_of_append_eq
    {α : Type} {xs ys front back : List α} {x : α}
    (h : xs ++ ys = front ++ x :: back) :
    x ∈ xs ∨ ∃ more, front = xs ++ more ∧ ys = more ++ x :: back := by
  rcases List.append_eq_append_iff.mp h with ⟨more, hfront, hys⟩ | ⟨more, hxs, hx⟩
  · exact .inr ⟨more, hfront, hys⟩
  · cases more with
    | nil =>
        rw [List.append_nil] at hxs
        exact .inr ⟨[], by simp [hxs], hx.symm⟩
    | cons y more =>
        cases hx
        exact .inl (by simp [hxs])

/--
What is owed after some tasks at the head were done and others issued in their place,
unless a listener that waits is dropped.  What was the news is still so unless something
newer was issued.
-/
theorem Owes.step
    {done : List Issued}
    (h : Owes ⟨s, done ++ rest⟩ a before)
    (hs : s.IsUpToDate)
    (hadvances : s.Advances t answer)
    (hannounces : s.Announces t answer tasks)
    (hsame : told a rest ≠ [] → s.Tells a → t.Tells a) :
    Owes ⟨t, t.issues tasks ++ rest⟩ a (before ++ told a done) := by
  have hrenews := hadvances.renews hannounces a
  have hwaited : told a (done ++ rest) = told a done ++ told a rest := told_append a done rest
  have htells : told a rest ≠ [] → t.Tells a := fun hne =>
    hsame hne (h.tells (by simp [hwaited, hne]))
  constructor
  · intro n hn
    dsimp only at hn
    rw [told_append] at hn
    have hcases : n ∈ told a (t.issues tasks) ∨ n ∈ before ++ told a (done ++ rest) := by
      rw [hwaited]
      simp only [List.mem_append] at hn ⊢
      tauto
    rcases hcases with hnew | hold
    · exact ⟨n, (hrenews.of_mem hnew).1, Int.le_refl n⟩
    · obtain ⟨n', hn', hle⟩ := h.known n hold
      obtain ⟨n'', hn'', hle'⟩ := hadvances.news_le hs hn'
      exact ⟨n'', hn'', Int.le_trans hle hle'⟩
  · intro hne
    dsimp only at hne
    rw [told_append] at hne
    by_cases hold : told a rest = []
    · rw [hold, List.append_nil] at hne
      obtain ⟨n, hn⟩ := List.exists_mem_of_ne_nil _ hne
      exact (hrenews.of_mem hn).2
    · exact htells hold
  · intro front n back hsplit
    dsimp only at hsplit
    rw [told_append] at hsplit
    rcases mem_or_of_append_eq hsplit with hnew | ⟨more, rfl, hback⟩
    · exact .inl (hrenews.of_mem hnew).1
    · have hsplit' : told a (done ++ rest) = (told a done ++ more) ++ n :: back := by
        rw [hwaited, hback, List.append_assoc]
      rcases h.due _ n back hsplit' with hnews | ⟨n', hn', hlt⟩
      · rcases hrenews.news_or hnews (htells (by simp [hback])) with hstill | ⟨m, hm, hnew⟩
        · exact .inl hstill
        · obtain ⟨n', hn', hle⟩ := hadvances.news_le hs hnews
          cases hnew.symm.trans hn'
          rcases Int.lt_or_eq_of_le hle with hlt | rfl
          · exact .inr ⟨m, by simp [hm], hlt⟩
          · exact .inl hnew
      · refine .inr ⟨n', ?_, hlt⟩
        simp only [List.mem_append] at hn' ⊢
        tauto

/-- What is owed after a task that fails, and drops all that was waiting. -/
theorem Owes.fail
    (h : Owes ⟨s, x :: rest⟩ a before)
    (hs : s.IsUpToDate)
    (hadvances : s.Advances t answer) :
    Owes ⟨t, []⟩ a (before ++ told a [x]) where
  known := by
    intro n hn
    have hold : n ∈ before ++ told a (x :: rest) := by
      rw [← List.singleton_append, told_append]
      simp only [told, List.filterMap_nil, List.mem_append, List.not_mem_nil, or_false] at hn ⊢
      tauto
    obtain ⟨n', hn', hle⟩ := h.known n hold
    obtain ⟨n'', hn'', hle'⟩ := hadvances.news_le hs hn'
    exact ⟨n'', hn'', Int.le_trans hle hle'⟩
  tells := fun hne => absurd rfl hne
  due := by
    intro front n back hsplit
    simp [told] at hsplit

/-- To be told the news is to be told in order. -/
theorem Owes.pairwise_concat
    (h : Owes ⟨s, x :: rest⟩ a before)
    (hbefore : before.Pairwise (· ≤ ·))
    (hnews : ∀ n, x.tells? a = some n → s.news? a = some n) :
    (before ++ told a [x]).Pairwise (· ≤ ·) := by
  rw [told_cons]
  cases htells : x.tells? a with
  | none =>
      simpa [told] using hbefore
  | some n =>
      rw [List.pairwise_append]
      refine ⟨hbefore, by simp [told], ?_⟩
      intro n' hn' _ hmem
      obtain rfl : _ = n := by simpa [told] using hmem
      obtain ⟨m, hm, hle⟩ := h.known n' (List.mem_append_left _ hn')
      cases (hnews _ htells).symm.trans hm
      exact hle

/-- The revisions that a listener was told of in the course of a session. -/
def heard (a : Audience) (trace : List Doing) : List Int :=
  told a (trace.map (·.done))

theorem heard_concat
    (a : Audience) (trace : List Doing) (e : Doing) :
    heard a (trace ++ [e]) = heard a trace ++ told a [e.done] := by
  unfold heard
  rw [List.map_append, told_append, List.map_singleton]

/-- What is owed at every moment of a course. -/
theorem Course.owes
    (h : first.Course trace m)
    (hcurrent : first.session.IsUpToDate)
    (hfirst : first.Owes a []) :
    m.session.IsUpToDate ∧ m.Owes a (heard a trace) := by
  induction h with
  | nothing =>
      exact ⟨hcurrent, hfirst⟩
  | @work _ s t x rest tasks _ hwork ih =>
      have hadvances := Session.work_advances s x.task
      rw [hwork] at hadvances
      rw [heard_concat]
      have hnext := @Owes.step s t a _ rest _ tasks [x] ih.2 ih.1 hadvances
        (Session.work_announces hwork) fun _ => (Session.work_listeners hwork).tells
      exact ⟨hadvances.isUpToDate ih.1, hnext⟩
  | @fail _ s t x rest fault _ hwork ih =>
      have hadvances := Session.work_advances s x.task
      rw [hwork] at hadvances
      rw [heard_concat]
      exact ⟨hadvances.isUpToDate ih.1, ih.2.fail ih.1 hadvances⟩
  | @obey _ s c _ hown ih =>
      have hadvances := Session.begin_advances hown { s with log := [] }
      have hlog : Session.IsUpToDate { s with log := [] } := ⟨ih.1.latest, ih.1.answered⟩
      have howes : Owes ⟨{ s with log := [] }, []⟩ a (heard a _) :=
        ⟨ih.2.known, ih.2.tells, ih.2.due⟩
      have hnext := @Owes.step _ _ a _ [] _ _ [] howes hlog hadvances
        (Session.begin_announces hown _) fun hne => absurd rfl hne
      simp only [told, List.filterMap_nil, List.append_nil] at hnext
      exact ⟨hadvances.isUpToDate hlog, hnext⟩

/--
A listener is told in order exactly if all that it is told is the news when it is told:
if it were not, something newer would have been told before.
-/
theorem Course.pairwise_heard_iff
    (h : first.Course trace m)
    (hcurrent : first.session.IsUpToDate)
    (hfirst : first.Owes a []) :
    (heard a trace).Pairwise (· ≤ ·) ↔
      ∀ e ∈ trace, ∀ n, e.done.tells? a = some n → e.session.news? a = some n := by
  constructor
  · intro horder e he n hn
    obtain ⟨front, back, rfl⟩ := List.append_of_mem he
    obtain ⟨_, howes⟩ := h.before.owes hcurrent hfirst
    have hdue : told a (e.done :: e.waiting) = [] ++ n :: told a e.waiting := by
      rw [told_cons, hn]
      rfl
    rcases howes.due [] n _ hdue with hnews | ⟨n', hn', hlt⟩
    · exact hnews
    · rw [List.append_nil] at hn'
      have hsplit : heard a (front ++ e :: back) =
          heard a front ++ n :: told a (back.map (·.done)) := by
        unfold heard
        rw [List.map_append, told_append, List.map_cons, told_cons, hn]
        rfl
      rw [hsplit, List.pairwise_append] at horder
      have hle := horder.2.2 n' hn' n List.mem_cons_self
      omega
  · intro hnews
    induction h with
    | nothing =>
        exact List.Pairwise.nil
    | obey _ _ ih =>
        exact ih hnews
    | work hcourse _ ih =>
        rw [heard_concat]
        obtain ⟨hnews, hlast⟩ := List.forall_mem_append.mp hnews
        exact (hcourse.owes hcurrent hfirst).2.pairwise_concat (ih hnews) (by simpa using hlast)
    | fail hcourse _ ih =>
        rw [heard_concat]
        obtain ⟨hnews, hlast⟩ := List.forall_mem_append.mp hnews
        exact (hcourse.owes hcurrent hfirst).2.pairwise_concat (ih hnews) (by simpa using hlast)

end OwedNews

section AnnouncementSource

/-- Whatever waits is truthful, and was issued at an earlier moment of the course. -/
theorem Course.issued
    (h : first.Course trace m)
    (hfirst : ∀ x ∈ first.waiting, x.issuer = first.session ∧ x.IsTruthful) :
    ∀ x ∈ m.waiting,
      x.IsTruthful ∧
        ∃ front waiting, front <+: trace ∧ first.Course front ⟨x.issuer, waiting⟩ := by
  induction h with
  | nothing =>
      intro x hx
      obtain ⟨hissuer, htruthful⟩ := hfirst x hx
      rw [hissuer]
      exact ⟨htruthful, [], _, List.prefix_rfl, .nothing⟩
  | @work trace s t x rest tasks hcourse hwork ih =>
      intro y hy
      rcases List.mem_append.mp hy with hnew | hold
      · have hadvances := Session.work_advances s x.task
        rw [hwork] at hadvances
        obtain ⟨hissuer, htruthful, _⟩ :=
          hadvances.issues (Session.work_announces hwork) hnew
        rw [hissuer]
        exact ⟨htruthful, _, _, List.prefix_rfl, .work hcourse hwork⟩
      · obtain ⟨htruthful, front, waiting, hfront, hissued⟩ := ih y (List.mem_cons_of_mem _ hold)
        exact ⟨htruthful, front, waiting, hfront.trans (List.prefix_append _ _), hissued⟩
  | fail _ _ _ =>
      simp
  | @obey trace s c hcourse hown ih =>
      intro y hy
      obtain ⟨hissuer, htruthful, _⟩ :=
        (Session.begin_advances hown _).issues (Session.begin_announces hown _) hy
      rw [hissuer]
      exact ⟨htruthful, _, _, List.prefix_rfl, .obey hcourse hown⟩

/--
What waits is the news, or some task made other news while it was waiting: the one by
which it ceased to be the news.
-/
theorem Course.overtaken
    (h : first.Course trace m)
    (hfirst : ∀ x ∈ first.waiting, ∀ n, x.tells? a = some n → first.session.news? a = some n) :
    ∀ x ∈ m.waiting, ∀ n,
      x.tells? a = some n →
      m.session.news? a = some n ∨
        ∃ e ∈ trace, x ∈ e.waiting ∧ e.session.news? a = some n ∧
          (Session.reached (e.session.work e.done.task)).news? a ≠ some n := by
  induction h with
  | nothing =>
      exact fun x hx n hn => .inl (hfirst x hx n hn)
  | @work trace s t x rest tasks _ hwork ih =>
      intro y hy n hn
      rcases List.mem_append.mp hy with hnew | hold
      · have hadvances := Session.work_advances s x.task
        rw [hwork] at hadvances
        exact .inl ((hadvances.issues (Session.work_announces hwork) hnew).2.2 a n hn)
      · rcases ih y (List.mem_cons_of_mem _ hold) n hn with hnews | ⟨e, he, hovertaken⟩
        · by_cases hnews' : t.news? a = some n
          · exact .inl hnews'
          · refine .inr ⟨⟨s, x, rest⟩, by simp, hold, hnews, ?_⟩
            rwa [hwork]
        · exact .inr ⟨e, List.mem_append_left _ he, hovertaken⟩
  | fail _ _ _ =>
      simp
  | @obey trace s c hcourse hown ih =>
      intro y hy n hn
      exact .inl (((Session.begin_advances hown _).issues (Session.begin_announces hown _) hy).2.2
        a n hn)

end AnnouncementSource

section HeardAtRest

/--
A listener for changes was told of the diagram that the session has now, or will be,
unless the session is still at an old revision.
-/
def Reaches (m : Docket) (name : String) (old : Nat) (before : List Int) : Prop :=
  m.session.revision = old ∨
    (m.session.revision : Int) ∈ before ++ told (.change name) m.waiting

theorem Reaches.work
    {name : String} {old : Nat}
    (h : Reaches ⟨s, x :: rest⟩ name old before)
    (hwork : s.work x.task = .ok (t, tasks))
    (hlistens : name ∈ t.changeListeners) :
    Reaches ⟨t, t.issues tasks ++ rest⟩ name old (before ++ told (.change name) [x]) := by
  unfold Reaches at h ⊢
  dsimp only at h ⊢
  rw [told_append]
  by_cases hrevision : t.revision = s.revision
  · rw [hrevision]
    refine h.imp_right fun hmem => ?_
    rw [← List.singleton_append, told_append] at hmem
    simp only [List.mem_append] at hmem ⊢
    tauto
  · have hannounces := ((Session.work_announces hwork).changes name _).mpr
      ⟨hrevision, hlistens, rfl⟩
    have htold : (t.revision : Int) ∈ told (.change name) (t.issues tasks) :=
      Session.mem_told_change_issues.mpr ⟨⟨_, hannounces⟩, rfl⟩
    exact .inr (by simp [htold])

/-- A run without a fault is a course, at the end of which all listeners are up to date. -/
theorem exists_course_run
    {waiting : List Issued}
    (h : s.run (waiting.map (·.task)) = (t, none)) :
    ∃ later,
      Course ⟨s, waiting⟩ later ⟨t, []⟩ ∧
        s.SameListeners t ∧
        ∀ name ∈ t.changeListeners, ∀ old before,
          Reaches ⟨s, waiting⟩ name old before →
            Reaches ⟨t, []⟩ name old (before ++ heard (.change name) later) := by
  generalize htasks : waiting.map (·.task) = tasks at h
  induction s, tasks using Session.run.induct generalizing waiting with
  | case1 s =>
      rw [Session.run_nil] at h
      cases h
      obtain rfl := List.map_eq_nil_iff.mp htasks
      exact ⟨[], .nothing, ⟨rfl, rfl⟩, by simp [heard, told]⟩
  | case2 s task rest u fault hwork =>
      rw [Session.run_cons, hwork] at h
      cases h
  | case3 s task rest u tasks hwork ih =>
      rw [Session.run_cons, hwork] at h
      obtain ⟨x, waiting, rfl, rfl, rfl⟩ := List.map_eq_cons_iff.mp htasks
      obtain ⟨later, hcourse, hsame, hreaches⟩ :=
        @ih (u.issues tasks ++ waiting) (by simp [map_task_issues]) h
      have hfirst := Session.work_listeners hwork
      have hstep : Course ⟨s, x :: waiting⟩ [⟨s, x, waiting⟩] ⟨u, u.issues tasks ++ waiting⟩ :=
        .work .nothing hwork
      refine ⟨_, hstep.trans hcourse,
        ⟨hsame.changes.trans hfirst.changes, hsame.renders.trans hfirst.renders⟩, ?_⟩
      intro name hname old before hold
      have hlistens : name ∈ u.changeListeners := hsame.changes ▸ hname
      have hnext := hreaches name hname old _ (hold.work hwork hlistens)
      have hheard :
          heard (.change name) (⟨s, x, waiting⟩ :: later) =
            told (.change name) [x] ++ heard (.change name) later :=
        told_append _ [x] _
      rwa [List.singleton_append, hheard, ← List.append_assoc]

end HeardAtRest

end Docket

namespace Docket

variable {first m : Docket} {trace : List Doing}

/-- Nothing is overtaken: what waits is the news, and nothing is announced out of turn. -/
structure IsFresh (m : Docket) : Prop where
  news : ∀ x ∈ m.waiting, ∀ a n, x.tells? a = some n → m.session.news? a = some n
  answers : Task.InTurn (m.waiting.map (·.task))

/-- What a change or a command issues is fresh. -/
theorem isFresh_issues
    {s t : Session} {tasks : List Task}
    (hadvances : s.Advances t none)
    (hannounces : s.Announces t none tasks) :
    IsFresh ⟨t, t.issues tasks⟩ where
  news := fun _ hx => (hadvances.issues hannounces hx).2.2
  answers := by
    refine Task.inTurn_of_forall_ne ?_
    rw [map_task_issues]
    rintro _ htask listener r rfl
    cases ((hannounces.renders listener r).mp htask).1

/-- Without reactions a task leaves everything fresh. -/
theorem IsFresh.work
    {s t : Session} {x : Issued} {rest : List Issued} {tasks : List Task}
    (h : IsFresh ⟨s, x :: rest⟩)
    (hquiet : s.reactionCount = 0)
    (hwork : s.work x.task = .ok (t, tasks)) :
    IsFresh ⟨t, t.issues tasks ++ rest⟩ := by
  obtain ⟨u, tasks', hwork', hrevision, hcases⟩ := Session.work_of_quiet hquiet x.task
  cases hwork.symm.trans hwork'
  have hadvances := Session.work_advances s x.task
  rw [hwork] at hadvances
  have hannounces := Session.work_announces hwork
  constructor
  · intro y hy a n hn
    rcases List.mem_append.mp hy with hnew | hold
    · exact (hadvances.issues hannounces hnew).2.2 a n hn
    · have hnews := h.news y (List.mem_cons_of_mem _ hold) a n hn
      cases a with
      | change name =>
          rw [← hnews]
          exact congrArg (fun k : Nat => some (k : Int)) hrevision
      | render listener =>
          rcases hcases with ⟨hrenders, _⟩ | ⟨r, hx, _⟩
          · rw [← hnews]
            exact congrArg Renders.answered? hrenders
          · obtain ⟨r', hy', _⟩ := Issued.tells?_render_eq_some_iff.mp hn
            exact absurd hy' (h.answers.ne_announceRender hx (List.mem_map_of_mem hold))
  · rw [List.map_append, map_task_issues]
    exact h.answers.work hquiet hwork

theorem Course.isFresh
    (h : first.Course trace m)
    (hfirst : first.IsFresh)
    (hquiet : ∀ e ∈ trace, e.session.reactionCount = 0) :
    m.IsFresh := by
  induction h with
  | nothing =>
      exact hfirst
  | work _ hwork ih =>
      obtain ⟨hbefore, hlast⟩ := List.forall_mem_append.mp hquiet
      exact (ih hbefore).work (by simpa using hlast) hwork
  | fail _ _ _ =>
      exact ⟨by simp, List.Pairwise.nil⟩
  | obey _ hown _ =>
      exact isFresh_issues (Session.begin_advances hown _) (Session.begin_announces hown _)

section OrderOfAnnouncements

/-- The last of an ascending list is one that none exceeds. -/
theorem getLast?_of_pairwise
    {ns : List Int} {n : Int}
    (horder : ns.Pairwise (· ≤ ·))
    (hmem : n ∈ ns)
    (hmax : ∀ n' ∈ ns, n' ≤ n) :
    ns.getLast? = some n := by
  rcases List.eq_nil_or_concat' ns with rfl | ⟨front, last, rfl⟩
  · cases hmem
  · have hle : n ≤ last := by
      rcases List.mem_append.mp hmem with hfront | hlast
      · exact (List.pairwise_append.mp horder).2.2 n hfront last (by simp)
      · exact Int.le_of_eq (List.mem_singleton.mp hlast)
    have hge := hmax last (by simp)
    rw [List.getLast?_concat, Int.le_antisymm hge hle]

/--
What holds of announcements at a moment of a course.  Whatever waits hands over what its
issuer had at an earlier moment of the course.  No listener has heard of anything that
is newer than the news.  An announcement that is not the news when its turn comes comes
after a newer one to the same listener, and it was overtaken by a task that was done
while it was waiting.  A listener hears of everything in order exactly if all that it
hears of was the news at that time; without reactions that is so.  When a command
returns that has changed the diagram, every listener for changes has heard of the
current one, and has heard of it last if it has heard in order.
-/
structure KeepsAccount (first : Docket) (trace : List Doing) (m : Docket) : Prop where
  issued : ∀ x ∈ m.waiting,
    x.IsTruthful ∧ ∃ front waiting, front <+: trace ∧ first.Course front ⟨x.issuer, waiting⟩
  newest : ∀ a, ∀ n ∈ heard a trace, ∃ n' ∈ m.session.news? a, n ≤ n'
  late : ∀ x rest,
    m.waiting = x :: rest →
    ∀ a n,
      x.tells? a = some n →
      m.session.news? a ≠ some n →
      (∃ n' ∈ heard a trace, n < n') ∧
        ∃ e ∈ trace, x ∈ e.waiting ∧ e.session.news? a = some n ∧
          (Session.reached (e.session.work e.done.task)).news? a ≠ some n
  inOrder : ∀ a,
    (heard a trace).Pairwise (· ≤ ·) ↔
      ∀ e ∈ trace, ∀ n, e.done.tells? a = some n → e.session.news? a = some n
  quiet :
    (∀ e ∈ trace, e.session.reactionCount = 0) → ∀ a, (heard a trace).Pairwise (· ≤ ·)
  upToDate : ∀ c t reply,
    m.waiting = [] →
    c.IsOwn →
    m.session.step c = (t, .ok reply) →
    ∃ later,
      first.Course (trace ++ later) ⟨t, []⟩ ∧
        (t.revision ≠ m.session.revision →
          ∀ name ∈ t.changeListeners,
            (t.revision : Int) ∈ heard (.change name) later ∧
              ((heard (.change name) later).Pairwise (· ≤ ·) →
                (heard (.change name) later).getLast? = some (t.revision : Int)))

/-- When a command returns, all listeners have heard of the diagram. -/
theorem Course.upToDate
    {s t : Session} {c : Session.Command} {reply : Session.Reply}
    (h : first.Course trace ⟨s, []⟩)
    (hcurrent : first.session.IsUpToDate)
    (hfirst : ∀ a, first.Owes a [])
    (hown : c.IsOwn)
    (hstep : s.step c = (t, .ok reply)) :
    ∃ later,
      first.Course (trace ++ later) ⟨t, []⟩ ∧
        (t.revision ≠ s.revision →
          ∀ name ∈ t.changeListeners,
            (t.revision : Int) ∈ heard (.change name) later ∧
              ((heard (.change name) later).Pairwise (· ≤ ·) →
                (heard (.change name) later).getLast? = some (t.revision : Int))) := by
  have hbegun := h.obey hown
  have hannounces := Session.begin_announces hown { s with log := [] }
  have hrun := Session.run_begin_of_obey hstep
  generalize Session.begin { s with log := [] } c = begun at hbegun hannounces hrun
  obtain ⟨u, tasks⟩ := begun
  obtain ⟨later, hlater, hsame, hreaches⟩ :=
    @exists_course_run u t (u.issues tasks) (by rw [map_task_issues]; exact hrun)
  have hcourse := hbegun.trans hlater
  refine ⟨later, hcourse, ?_⟩
  intro hrevision name hname
  have hstart : Reaches ⟨u, u.issues tasks⟩ name s.revision [] := by
    by_cases hu : u.revision = s.revision
    · exact .inl hu
    · have htask := (hannounces.changes name _).mpr ⟨hu, hsame.changes ▸ hname, rfl⟩
      exact .inr (Session.mem_told_change_issues.mpr ⟨⟨_, htask⟩, rfl⟩)
  have hheard : (t.revision : Int) ∈ heard (.change name) later := by
    rcases hreaches name hname _ _ hstart with hold | hmem
    · exact absurd hold hrevision
    · simpa [told] using hmem
  refine ⟨hheard, fun horder => getLast?_of_pairwise horder hheard ?_⟩
  intro n hn
  obtain ⟨_, howes⟩ := hcourse.owes hcurrent (hfirst (.change name))
  have hmem : n ∈ heard (.change name) (trace ++ later) := by
    unfold heard at hn ⊢
    rw [List.map_append, told_append]
    exact List.mem_append_right _ hn
  obtain ⟨_, ⟨⟩, hle⟩ := howes.known n (List.mem_append_left _ hmem)
  exact hle

/-- Every moment of a course keeps account, if the first one does. -/
theorem Course.keepsAccount
    (h : first.Course trace m)
    (hcurrent : first.session.IsUpToDate)
    (howes : ∀ a, first.Owes a [])
    (hissued : ∀ x ∈ first.waiting, x.issuer = first.session ∧ x.IsTruthful)
    (hfresh : first.IsFresh) :
    KeepsAccount first trace m where
  issued := h.issued hissued
  newest := by
    intro a n hn
    exact (h.owes hcurrent (howes a)).2.known n (List.mem_append_left _ hn)
  late := by
    intro x rest hwaiting a n hn hstale
    constructor
    · have hdue : told a m.waiting = [] ++ n :: told a rest := by
        rw [hwaiting, told_cons, hn]
        rfl
      rcases (h.owes hcurrent (howes a)).2.due [] n _ hdue with hnews | hold
      · exact absurd hnews hstale
      · rwa [List.append_nil] at hold
    · have hx : x ∈ m.waiting := by
        rw [hwaiting]
        exact List.mem_cons_self
      exact (h.overtaken (fun y hy k hk => hfresh.news y hy a k hk) x hx n hn).resolve_left hstale
  inOrder := fun a => h.pairwise_heard_iff hcurrent (howes a)
  quiet := by
    intro hquiet a
    rw [h.pairwise_heard_iff hcurrent (howes a)]
    intro e he n hn
    obtain ⟨front, back, rfl⟩ := List.append_of_mem he
    have hbefore := h.before.isFresh hfresh fun e' he' => hquiet e' (List.mem_append_left _ he')
    exact hbefore.news e.done List.mem_cons_self a n hn
  upToDate := by
    obtain ⟨s, waiting⟩ := m
    rintro c t reply rfl hown hstep
    exact h.upToDate hcurrent howes hown hstep

end OrderOfAnnouncements

end Docket

/-- A session opens with nothing owed to anyone. -/
theorem Moment.Opens.docket
    {editor : Editor} {renderer : Option Renderer} {first : Moment}
    (h : first.Opens editor renderer) :
    first.docket.session.IsUpToDate ∧
      (∀ a, first.docket.Owes a []) ∧
      (∀ x ∈ first.docket.waiting, x.issuer = first.session ∧ x.IsTruthful) ∧
      first.docket.IsFresh := by
  have hcurrent := h.isCurrent.1
  obtain ⟨text, effect, hperform⟩ := h
  have hperform' :
      Session.perform { editor, renders := { renderer } } (.text text) =
        .ok (first.session, first.agenda, effect) :=
    hperform
  have hannounces := Session.perform_announces hperform'
  have hadvances := Session.perform_advances hperform'
  have hsame := Session.perform_listeners hperform'
  have hnobody : ∀ a, ¬ first.session.Tells a := by
    intro a ha
    unfold Session.Tells at ha
    rw [hsame.changes, hsame.renders] at ha
    cases a with
    | change name =>
        cases ha
    | render listener =>
        cases ha
  have hnothing : ∀ a, told a (first.session.issues first.agenda) = [] := fun a =>
    List.eq_nil_iff_forall_not_mem.mpr fun n hn =>
      hnobody a ((hadvances.renews hannounces a).of_mem hn).2
  refine ⟨⟨hcurrent.latest, ?_⟩, fun a => ⟨?_, ?_, ?_⟩, ?_,
    Docket.isFresh_issues hadvances hannounces⟩
  · intro n hn
    have hanswered : first.session.renders.answered? = first.session.renders.current.map (·.1) := by
      unfold Renders.answered?
      rw [hcurrent.lastError]
      rfl
    rw [Moment.docket, hanswered] at hn
    obtain ⟨c, hc, rfl⟩ := Option.map_eq_some_iff.mp hn
    exact hcurrent.current c hc
  · simp [Moment.docket, hnothing]
  · exact fun hne => absurd (hnothing a) hne
  · intro front n back hsplit
    rw [Moment.docket, hnothing] at hsplit
    simp at hsplit
  · intro x hx
    obtain ⟨hissuer, htruthful, _⟩ := hadvances.issues hannounces hx
    exact ⟨hissuer, htruthful⟩

/--
When listeners are told in order.  Opening a session and carrying out commands is a
course from the first moment of the session, in which every task has its date, and
every moment of every such course keeps account of what listeners hear.
-/
theorem announcements_in_order_iff
    {editor : Editor} {renderer : Option Renderer} {given : Option String} {type : String}
    {s : Session} {commands : List Session.Command}
    (hs : Session.start editor renderer given type = .ok s)
    (hown : ∀ c ∈ commands, c.IsOwn) :
    ∃ first : Moment,
      first.Opens editor renderer ∧
      (∃ trace, first.docket.Course trace ⟨s.after commands, []⟩) ∧
      ∀ trace m, first.docket.Course trace m → first.docket.KeepsAccount trace m := by
  obtain ⟨first, opening, hopens, hopening⟩ := Moment.course_start hs
  obtain ⟨hcurrent, howes, hissued, hfresh⟩ := hopens.docket
  obtain ⟨later, hlater⟩ := Moment.course_after hown s
  have hcourse : first.docket.moment.Course (opening ++ later) ⟨s.after commands, []⟩ := by
    rw [Docket.moment_docket]
    exact hopening.trans hlater
  obtain ⟨trace, ⟨t, waiting⟩, htrace, hm, _⟩ := Docket.exists_course hcourse
  simp only [Docket.moment, Moment.mk.injEq, List.map_eq_nil_iff] at hm
  obtain ⟨rfl, rfl⟩ := hm
  exact ⟨first, hopens, ⟨trace, htrace⟩, fun _ _ hm =>
    hm.keepsAccount hcurrent howes hissued hfresh⟩

/-- Two listeners, of which the second one replaces the text: both are told in order. -/
theorem announcements_in_order_iff_of_last_listener :
    ∃ s : Session,
      let commands : List Session.Command := [
        .subscribe .change "first" [],
        .subscribe .change "second" [(1, .ok (.text "C[z]"))],
        .change (.ok (.text "B[y]")) ]
      Session.start {} none (some "A[x]") "flowchart" = .ok s ∧
      (∀ c ∈ commands, c.IsOwn) ∧
      (s.after commands).log = [
        .changed "first" "B[y]", .changed "second" "B[y]", .changed "first" "C[z]",
        .changed "second" "C[z]", .reacted "second" true none ] ∧
      ∃ first : Moment,
        first.Opens {} none ∧
        (∃ trace, first.docket.Course trace ⟨s.after commands, []⟩) ∧
        ∀ trace m, first.docket.Course trace m → first.docket.KeepsAccount trace m := by
  obtain ⟨s, hs, hlog⟩ :=
    @Session.exists_start_after _ {} none "A[x]" "flowchart" 9 [
        .subscribe .change "first" [],
        .subscribe .change "second" [(1, .ok (.text "C[z]"))],
        .change (.ok (.text "B[y]")) ]
      (·.log) [
        .changed "first" "B[y]", .changed "second" "B[y]", .changed "first" "C[z]",
        .changed "second" "C[z]", .reacted "second" true none ]
      rfl (by decide +kernel)
  exact ⟨s, hs, by simp [Session.Command.IsOwn], hlog,
    announcements_in_order_iff hs (by simp [Session.Command.IsOwn])⟩

/--
Announcements go backwards: the first listener for renderings creates a node when it
hears of the second revision, whose text is `B[y]`.  The second one then hears of the
third revision and of the second one after it, and the listener for changes hears of the
current diagram first and of `B[y]` last.
-/
theorem announcements_go_backwards :
    ∃ s : Session,
      let prompt : Renderer := ⟨fun order => [⟨order.revision, .ok {}⟩]⟩
      let commands : List Session.Command := [
        .subscribe .render "first" [(1, .ok (.edit (.createNode (.known .rectangle) none)))],
        .subscribe .render "second" [],
        .subscribe .change "third" [],
        .change (.ok (.text "B[y]")) ]
      Session.start {} (some prompt) (some "A[x]") "flowchart" = .ok s ∧
      (∀ c ∈ commands, c.IsOwn) ∧
      (s.after commands).diagram.text = "B[y]\n    node1[New Node]" ∧
      (s.after commands).log = [
        .rendered "first" 2 none, .rendered "first" 3 none, .rendered "second" 3 none,
        .changed "third" "B[y]\n    node1[New Node]", .reacted "first" true (some "node1"),
        .rendered "second" 2 none, .changed "third" "B[y]" ] := by
  obtain ⟨s, hs, hafter⟩ :=
    @Session.exists_start_after _ {} (some ⟨fun order => [⟨order.revision, .ok {}⟩]⟩)
      "A[x]" "flowchart" 12 [
        .subscribe .render "first" [(1, .ok (.edit (.createNode (.known .rectangle) none)))],
        .subscribe .render "second" [],
        .subscribe .change "third" [],
        .change (.ok (.text "B[y]")) ]
      (fun last => (last.diagram.text, last.log))
      ("B[y]\n    node1[New Node]", [
        .rendered "first" 2 none, .rendered "first" 3 none, .rendered "second" 3 none,
        .changed "third" "B[y]\n    node1[New Node]", .reacted "first" true (some "node1"),
        .rendered "second" 2 none, .changed "third" "B[y]" ])
      rfl (by decide +kernel)
  obtain ⟨htext, hlog⟩ := Prod.mk.inj hafter
  exact ⟨s, hs, by simp [Session.Command.IsOwn], htext, hlog⟩

end Flowchart
