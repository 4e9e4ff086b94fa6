import Flowchart.Fault
import Mathlib.Data.List.Forall2

/-!
# Answers that are not faults

What can be carried out gives an answer, and what cannot gives a fault.  Steps that
follow each other give an answer if every one of them does, and the members of a list
are answered one after the other, up to the first fault.

* `bind_eq_ok_iff` and `bind_eq_error_iff`: two steps, one after the other.
* `mapM_eq_ok_iff` and `mapM_eq_error`: the members of a list.
-/

namespace Flowchart

theorem bind_eq_ok_iff
    {α β : Type} {x : Except Fault α} {f : α → Except Fault β} {b : β} :
    x >>= f = .ok b ↔ ∃ a, x = .ok a ∧ f a = .ok b := by
  cases x with
  | error fault =>
      constructor
      · intro h
        cases h
      · rintro ⟨a, h, _⟩
        cases h
  | ok a =>
      constructor
      · intro h
        exact ⟨a, rfl, h⟩
      · rintro ⟨a', h, h'⟩
        cases h
        exact h'

theorem toOption_eq_some_iff
    {α : Type} {x : Except Fault α} {a : α} :
    x.toOption = some a ↔ x = .ok a := by
  cases x with
  | error fault =>
      simp [Except.toOption]
  | ok b =>
      simp [Except.toOption]

theorem exists_of_any_toOption
    {α : Type} {x : Except Fault α} {p : α → Bool}
    (h : x.toOption.any p = true) :
    ∃ a, x = .ok a ∧ p a = true := by
  obtain ⟨a, ha, hp⟩ := (Option.any_eq_true _ _).mp h
  exact ⟨a, toOption_eq_some_iff.mp ha, hp⟩

/-- An answer that goes on with an answer. -/
theorem exists_bind_eq_ok
    {α β : Type} {x : Except Fault α} {f : α → Except Fault β} {a : α}
    (hx : x = .ok a)
    (hf : ∃ b, f a = .ok b) :
    ∃ b, x >>= f = .ok b := by
  obtain ⟨b, hb⟩ := hf
  exact ⟨b, bind_eq_ok_iff.mpr ⟨a, hx, hb⟩⟩

theorem bind_eq_error_iff
    {α β : Type} {x : Except Fault α} {f : α → Except Fault β} {fault : Fault} :
    x >>= f = .error fault ↔ x = .error fault ∨ ∃ a, x = .ok a ∧ f a = .error fault := by
  cases x with
  | error other =>
      constructor
      · intro h
        cases h
        exact Or.inl rfl
      · rintro (h | ⟨a, h, _⟩)
        · cases h
          rfl
        · cases h
  | ok a =>
      constructor
      · intro h
        exact Or.inr ⟨a, rfl, h⟩
      · rintro (h | ⟨a', h, h'⟩)
        · cases h
        · cases h
          exact h'

/-- The answers for a list are the answers for its members. -/
theorem mapM_eq_ok_iff
    {α β : Type} {f : α → Except Fault β} {xs : List α} {ys : List β} :
    xs.mapM f = .ok ys ↔ List.Forall₂ (fun x y => f x = .ok y) xs ys := by
  induction xs generalizing ys with
  | nil =>
      rw [List.mapM_nil, List.forall₂_nil_left_iff, eq_comm]
      constructor
      · intro h
        cases h
        rfl
      · rintro rfl
        rfl
  | cons x xs ih =>
      rw [List.mapM_cons, List.forall₂_cons_left_iff, bind_eq_ok_iff]
      constructor
      · rintro ⟨y, hy, hrest⟩
        obtain ⟨ys', hys', hpure⟩ := bind_eq_ok_iff.mp hrest
        cases hpure
        exact ⟨y, ys', hy, ih.mp hys', rfl⟩
      · rintro ⟨y, ys', hy, hys', rfl⟩
        exact ⟨y, hy, bind_eq_ok_iff.mpr ⟨ys', ih.mpr hys', rfl⟩⟩

/-- There is an answer for a list if there is one for every member. -/
theorem exists_mapM_eq_ok_iff
    {α β : Type} {f : α → Except Fault β} {xs : List α} :
    (∃ ys, xs.mapM f = .ok ys) ↔ ∀ x ∈ xs, ∃ y, f x = .ok y := by
  simp only [mapM_eq_ok_iff]
  constructor
  · rintro ⟨ys, h⟩ x hx
    obtain ⟨n, hn, rfl⟩ := List.mem_iff_getElem.mp hx
    have hn' : n < ys.length := h.length_eq ▸ hn
    exact ⟨ys.get ⟨n, hn'⟩, h.get hn hn'⟩
  · intro h
    induction xs with
    | nil =>
        exact ⟨[], List.Forall₂.nil⟩
    | cons x xs ih =>
        rw [List.forall_mem_cons] at h
        obtain ⟨y, hy⟩ := h.1
        obtain ⟨ys, hys⟩ := ih h.2
        exact ⟨y :: ys, List.Forall₂.cons hy hys⟩

/-- The fault for a list is the fault for one of its members. -/
theorem exists_of_mapM_eq_error
    {α β : Type} {f : α → Except Fault β} {xs : List α} {fault : Fault}
    (h : xs.mapM f = .error fault) :
    ∃ x ∈ xs, f x = .error fault := by
  induction xs with
  | nil =>
      cases h
  | cons x xs ih =>
      rw [List.mapM_cons, bind_eq_error_iff] at h
      rcases h with hfirst | ⟨y, _, h⟩
      · exact ⟨x, List.mem_cons_self, hfirst⟩
      · rcases bind_eq_error_iff.mp h with hrest | ⟨ys, _, hpure⟩
        · obtain ⟨x', hx', hfault⟩ := ih hrest
          exact ⟨x', List.mem_cons_of_mem _ hx', hfault⟩
        · cases hpure

/-- Two functions with the same answers for all members have the same answers for the list. -/
theorem mapM_congr
    {α β : Type} {f g : α → Except Fault β} {xs : List α}
    (h : ∀ x ∈ xs, f x = g x) :
    xs.mapM f = xs.mapM g := by
  induction xs with
  | nil =>
      rfl
  | cons x xs ih =>
      rw [List.forall_mem_cons] at h
      rw [List.mapM_cons, List.mapM_cons, h.1, ih h.2]

/-- Where only one fault is possible, it does not matter which member it comes from first. -/
theorem mapM_eq_error
    {α β : Type} {f : α → Except Fault β} {xs : List α} {x : α} {fault : Fault}
    (hfault : ∀ y ∈ xs, ∀ other, f y = .error other → other = fault)
    (hx : x ∈ xs)
    (h : f x = .error fault) :
    xs.mapM f = .error fault := by
  cases hall : xs.mapM f with
  | error other =>
      obtain ⟨y, hy, hother⟩ := exists_of_mapM_eq_error hall
      rw [hfault y hy other hother]
  | ok ys =>
      obtain ⟨y, hy⟩ := exists_mapM_eq_ok_iff.mp ⟨ys, hall⟩ x hx
      rw [h] at hy
      cases hy

theorem exists_of_forall₂
    {α β : Type} {R : α → β → Prop} {xs : List α} {ys : List β} {y : β}
    (h : List.Forall₂ R xs ys)
    (hy : y ∈ ys) :
    ∃ x ∈ xs, R x y := by
  induction h with
  | nil =>
      cases hy
  | @cons x y' xs ys hR _ ih =>
      rcases List.mem_cons.mp hy with rfl | hy
      · exact ⟨x, List.mem_cons_self, hR⟩
      · obtain ⟨x', hx', hR'⟩ := ih hy
        exact ⟨x', List.mem_cons_of_mem _ hx', hR'⟩

theorem map_eq_map_of_forall₂
    {α β : Type} {f : α → β} {R : α → α → Prop} {xs ys : List α}
    (h : List.Forall₂ R xs ys)
    (hf : ∀ x ∈ xs, ∀ y, R x y → f y = f x) :
    ys.map f = xs.map f := by
  induction h with
  | nil =>
      rfl
  | @cons x y xs ys hR _ ih =>
      rw [List.map_cons, List.map_cons, hf x List.mem_cons_self y hR,
        ih fun z hz => hf z (List.mem_cons_of_mem _ hz)]

end Flowchart
