import Flowchart.Diagram.Reading
import Flowchart.Proofs.FiniteWidths
import Mathlib.Data.List.Nodup

/-!
# Styles in text order

Reading goes through all style lines in the order of the text, whatever nodes they are
for, and changes one node after the other where it stands; with the link-style lines
and the edges it does the same.  What this comes to is, for every node and for every
edge, what its own lines give to it one after the other.  The lines of the others may
stand before, between or behind them.

* `styleNodes_eq`: the nodes after all style lines, and the fault if there is one.
* `styleEdges_eq`: the edges after all link-style lines.
-/

namespace Flowchart
namespace Line

/-- What some style lines give to one id. -/
def ofKey {κ : Type} [BEq κ] (key : κ) (given : List (κ × Properties)) : List Properties :=
  given.filterMap fun (owner, properties) => if owner == key then some properties else none

section OfKey

variable {κ : Type} [BEq κ] [LawfulBEq κ]

theorem ofKey_cons_self
    (key : κ) (properties : Properties) (given : List (κ × Properties)) :
    ofKey key ((key, properties) :: given) = properties :: ofKey key given := by
  simp [ofKey]

theorem ofKey_cons_of_ne
    {key owner : κ}
    (h : owner ≠ key)
    (properties : Properties) (given : List (κ × Properties)) :
    ofKey key ((owner, properties) :: given) = ofKey key given := by
  simp [ofKey, h]

end OfKey

theorem ofKey_styles
    (id : String) (lines : List Line) :
    ofKey id (styles lines) = nodeProperties id lines := by
  unfold ofKey styles nodeProperties
  rw [List.filterMap_filterMap]
  congr 1
  funext line
  cases line <;> rfl

theorem ofKey_linkStyles
    (index : Nat) (lines : List Line) :
    ofKey index (linkStyles lines) = edgeProperties index lines := by
  unfold ofKey linkStyles edgeProperties
  rw [List.filterMap_filterMap]
  congr 1
  funext line
  cases line <;> simp

end Line

section Edges

/-- Edges with their styles changed by rank. -/
def restyle (f : Nat → EdgeStyle → EdgeStyle) (edges : List Edge) : List Edge :=
  edges.mapIdx fun rank e => { e with style := f rank e.style }

theorem restyle_restyle
    (f g : Nat → EdgeStyle → EdgeStyle) (edges : List Edge) :
    restyle f (restyle g edges) = restyle (fun rank s => f rank (g rank s)) edges := by
  unfold restyle
  rw [List.mapIdx_mapIdx]
  rfl

theorem restyle_self
    (edges : List Edge) :
    restyle (fun _ s => s) edges = edges := by
  apply List.ext_getElem?
  intro rank
  simp [restyle]

/-- One link-style line changes the style of its rank only. -/
theorem applyLinkStyle_eq
    (edges : List Edge) (index : Nat) (properties : Properties) :
    Reading.applyLinkStyle edges (index, properties) =
      restyle (fun rank s => if index = rank then s.overwrite properties else s) edges := by
  apply List.ext_getElem?
  intro rank
  unfold Reading.applyLinkStyle restyle
  rw [List.getElem?_modify, List.getElem?_mapIdx]
  by_cases h : index = rank
  · simp [h]
  · simp [h]

/-- The link-style lines of other ranks may stand anywhere among those of a rank. -/
theorem foldl_applyLinkStyle
    (given : List (Nat × Properties)) (edges : List Edge) :
    given.foldl Reading.applyLinkStyle edges =
      restyle (fun rank s => s.overwriteAll (Line.ofKey rank given)) edges := by
  induction given generalizing edges with
  | nil =>
      exact (restyle_self edges).symm
  | cons first given ih =>
      obtain ⟨index, properties⟩ := first
      rw [List.foldl_cons, ih, applyLinkStyle_eq, restyle_restyle]
      congr 1
      funext rank s
      by_cases h : index = rank
      · subst h
        rw [if_pos rfl, Line.ofKey_cons_self]
        rfl
      · rw [if_neg h, Line.ofKey_cons_of_ne h]

theorem Reading.styleEdges_eq
    (lines : List Line) (edges : List Edge) :
    styleEdges lines edges =
      restyle (fun rank s => s.overwriteAll (Line.edgeProperties rank lines)) edges := by
  unfold styleEdges
  rw [foldl_applyLinkStyle]
  simp only [Line.ofKey_linkStyles]

end Edges

namespace Reading

section Nodes

/-- The place of an id is where a node of that id stands. -/
def IsPlaced (places : List (String × Nat)) (nodes : List Node) : Prop :=
  ∀ id place, Record.last? id places = some place ↔ (nodes.map (·.id))[place]? = some id

theorem isPlaced_nodePlaces
    {nodes : List Node}
    (hnodup : (nodes.map (·.id)).Nodup) :
    IsPlaced (nodePlaces nodes) nodes := by
  have hmem :
      ∀ id place, (id, place) ∈ nodePlaces nodes ↔ (nodes.map (·.id))[place]? = some id := by
    intro id place
    simp [nodePlaces, List.mem_zipIdx_iff_getElem?]
  intro id place
  unfold Record.last?
  constructor
  · intro h
    obtain ⟨⟨owner, place'⟩, hfind, rfl⟩ := Option.map_eq_some_iff.mp h
    have howner := List.find?_some hfind
    rw [beq_iff_eq] at howner
    cases howner
    exact (hmem _ _).mp (List.mem_reverse.mp (List.mem_of_find?_eq_some hfind))
  · intro h
    have hfound : ((nodePlaces nodes).reverse.find? (·.1 == id)).isSome = true := by
      rw [List.find?_isSome]
      exact ⟨(id, place), List.mem_reverse.mpr ((hmem id place).mpr h), beq_self_eq_true id⟩
    obtain ⟨⟨owner, place'⟩, hfind⟩ := Option.isSome_iff_exists.mp hfound
    have howner := List.find?_some hfind
    rw [beq_iff_eq] at howner
    cases howner
    have hplace' := (hmem _ _).mp (List.mem_reverse.mp (List.mem_of_find?_eq_some hfind))
    have hlt := (List.getElem?_eq_some_iff.mp h).1
    rw [hfind, Option.map_some, (List.getElem?_inj hlt hnodup).mp (h.trans hplace'.symm)]

/-- A style line for an id that no node has changes nothing. -/
theorem applyStyle_of_not_mem
    {places : List (String × Nat)} {nodes : List Node} {id : String}
    (hplaces : IsPlaced places nodes)
    (hid : id ∉ nodes.map (·.id))
    (properties : Properties) :
    applyStyle places nodes (id, properties) = .ok nodes := by
  have hnone : Record.last? id places = none := by
    rw [Option.eq_none_iff_forall_ne_some]
    intro place hplace
    exact hid (List.mem_of_getElem? ((hplaces id place).mp hplace))
  unfold applyStyle
  rw [hnone]
  rfl

/-- A style line changes the node of its id where it stands. -/
theorem applyStyle_of_mem
    {places : List (String × Nat)} {front back : List Node} {n : Node}
    (hplaces : IsPlaced places (front ++ n :: back))
    (properties : Properties) :
    applyStyle places (front ++ n :: back) (n.id, properties) =
      n.style.overwrite properties >>= fun style => .ok (front ++ { n with style } :: back) := by
  have hplace : Record.last? n.id places = some front.length := by
    rw [hplaces]
    simp
  unfold applyStyle
  simp only [hplace, List.getElem?_append_right (Nat.le_refl _), Nat.sub_self,
    List.getElem?_cons_zero, List.set_append_right _ _ (Nat.le_refl _), List.set_cons_zero]
  rfl

/-- The style of a node after some style lines, most of which may be for others. -/
def styleNode (given : List (String × Properties)) (n : Node) : Except Fault Node := do
  return { n with style := ← n.style.overwriteAll (Line.ofKey n.id given) }

theorem styleNode_cons_of_ne
    {n : Node} {id : String}
    (h : id ≠ n.id)
    (properties : Properties) (given : List (String × Properties)) :
    styleNode ((id, properties) :: given) n = styleNode given n := by
  unfold styleNode
  rw [Line.ofKey_cons_of_ne h]

theorem styleNode_cons_self
    (n : Node) (properties : Properties) (given : List (String × Properties)) :
    styleNode ((n.id, properties) :: given) n =
      n.style.overwrite properties >>= fun style => styleNode given { n with style } := by
  unfold styleNode NodeStyle.overwriteAll
  rw [Line.ofKey_cons_self, List.foldlM_cons, bind_assoc]

/-- The only fault is an infinite width. -/
theorem fault_of_styleNode
    {given : List (String × Properties)} {n : Node} {fault : Fault}
    (h : styleNode given n = .error fault) :
    fault = .infiniteWidth := by
  rcases bind_eq_error_iff.mp h with h | ⟨_, _, h⟩
  · by_cases hfinite : ∀ ps ∈ Line.ofKey n.id given, ps.HasFiniteWidth
    · obtain ⟨style, hstyle⟩ := NodeStyle.overwriteAll_of_finite hfinite n.style
      rw [hstyle] at h
      cases h
    · rw [NodeStyle.overwriteAll_of_infinite hfinite] at h
      cases h
      rfl
  · cases h

/-- A style line for one of several nodes is passed over by the others. -/
theorem mapM_styleNode_cons
    {front back : List Node} {n : Node}
    (hnodup : ((front ++ n :: back).map (·.id)).Nodup)
    (properties : Properties) (given : List (String × Properties)) :
    (front ++ n :: back).mapM (styleNode ((n.id, properties) :: given)) =
      n.style.overwrite properties >>= fun style =>
        (front ++ { n with style } :: back).mapM (styleNode given) := by
  have hothers :
      ∀ m ∈ front ++ back, styleNode ((n.id, properties) :: given) m = styleNode given m := by
    rw [List.map_append, List.map_cons, List.nodup_middle, List.nodup_cons,
      ← List.map_append] at hnodup
    intro m hm
    have hne : n.id ≠ m.id := by
      intro hsame
      rw [hsame] at hnodup
      exact hnodup.1 (List.mem_map_of_mem hm)
    exact styleNode_cons_of_ne hne properties given
  rw [List.forall_mem_append] at hothers
  cases hstyle : n.style.overwrite properties with
  | error fault =>
      have herror : styleNode ((n.id, properties) :: given) n = .error fault := by
        rw [styleNode_cons_self, hstyle]
        rfl
      refine mapM_eq_error ?_ (List.mem_append_right _ List.mem_cons_self) herror
      intro m _ other hother
      rw [fault_of_styleNode hother, fault_of_styleNode herror]
  | ok style =>
      have hself :
          styleNode ((n.id, properties) :: given) n = styleNode given { n with style } := by
        rw [styleNode_cons_self, hstyle]
        rfl
      rw [List.mapM_append, List.mapM_cons, mapM_congr hothers.1, mapM_congr hothers.2, hself,
        ← List.mapM_cons, ← List.mapM_append]
      rfl

/-- The style lines of other ids may stand anywhere among those of an id. -/
theorem foldlM_applyStyle
    {places : List (String × Nat)} {nodes : List Node}
    (hnodup : (nodes.map (·.id)).Nodup)
    (hplaces : IsPlaced places nodes)
    (given : List (String × Properties)) :
    given.foldlM (applyStyle places) nodes = nodes.mapM (styleNode given) := by
  induction given generalizing nodes with
  | nil =>
      have hsame : nodes.mapM (styleNode []) = .ok (nodes.map id) := List.mapM_pure
      rw [hsame, List.map_id]
      rfl
  | cons first given ih =>
      obtain ⟨id, properties⟩ := first
      rw [List.foldlM_cons]
      by_cases hid : id ∈ nodes.map (·.id)
      · obtain ⟨n, hn, rfl⟩ := List.mem_map.mp hid
        obtain ⟨front, back, rfl⟩ := List.append_of_mem hn
        rw [applyStyle_of_mem hplaces, mapM_styleNode_cons hnodup, bind_assoc]
        congr 1
        funext style
        have hids :
            (front ++ { n with style } :: back).map (·.id) =
              (front ++ n :: back).map (·.id) := by
          simp
        apply ih
        · rwa [hids]
        · unfold IsPlaced
          rwa [hids]
      · rw [applyStyle_of_not_mem hplaces hid]
        refine (ih hnodup hplaces).trans (mapM_congr ?_)
        intro n hn
        rw [styleNode_cons_of_ne]
        rintro rfl
        exact hid (List.mem_map_of_mem hn)

/--
The nodes after all style lines are the nodes with their own style lines applied, each
on its own account.
-/
theorem styleNodes_eq
    {nodes : List Node}
    (hnodup : (nodes.map (·.id)).Nodup)
    (lines : List Line) :
    styleNodes lines nodes =
      nodes.mapM fun n => do
        return { n with style := ← n.style.overwriteAll (Line.nodeProperties n.id lines) } := by
  unfold styleNodes
  rw [foldlM_applyStyle hnodup (isPlaced_nodePlaces hnodup)]
  unfold styleNode
  simp only [Line.ofKey_styles]

theorem fault_of_styleNodes
    {nodes : List Node} {lines : List Line} {fault : Fault}
    (hnodup : (nodes.map (·.id)).Nodup)
    (h : styleNodes lines nodes = .error fault) :
    fault = .infiniteWidth := by
  unfold styleNodes at h
  rw [foldlM_applyStyle hnodup (isPlaced_nodePlaces hnodup)] at h
  obtain ⟨n, _, hn⟩ := exists_of_mapM_eq_error h
  exact fault_of_styleNode hn

end Nodes

end Reading

end Flowchart
