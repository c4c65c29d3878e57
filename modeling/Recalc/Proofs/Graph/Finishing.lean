import Recalc.Proofs.Graph.Arrows

/-!
# The forward search

The search finishes a node once all that it leads to has been visited. What matters of the order in
which nodes are finished is one property: an arrow that leaves the nodes finished so far ends in an
open node, and every open node leads to the node finished last. It follows that a component is
finished last by a node from which no earlier component is left over.
-/

namespace Recalc

open Relation

/-- Read from the node finished last: an arrow that leaves the nodes finished up to some moment ends
in a node that leads back to the one finished at that moment. -/
def FinishingOrder {α : Type} (arrow : α → α → Prop) : List α → Prop
  | [] => True
  | last :: earlier =>
      (∀ x ∈ last :: earlier, ∀ y, arrow x y → y ∉ last :: earlier → ReflTransGen arrow y last)
        ∧ FinishingOrder arrow earlier

/-- A path that leaves a set of nodes crosses its border. -/
theorem exists_crossing {α : Type} {arrow : α → α → Prop} (inside : α → Prop) {x z : α}
    (path : ReflTransGen arrow x z) (hx : inside x) (hz : ¬ inside z) :
    ∃ u v, inside u ∧ ¬ inside v ∧ ReflTransGen arrow x u ∧ arrow u v := by
  induction path with
  | refl => exact absurd hx hz
  | @tail y z hxy hyz ih =>
      by_cases hy : inside y
      · exact ⟨y, z, hy, hz, hxy, hyz⟩
      · exact ih hy

/-- Where a path leaves the nodes finished so far, the component of its start is not finished. -/
theorem FinishingOrder.exists_unfinished {α : Type} {arrow : α → α → Prop} {order : List α}
    (h : FinishingOrder arrow order) {x z : α} (hx : x ∈ order) (hz : z ∉ order)
    (path : ReflTransGen arrow x z) :
    ∃ w, w ∉ order ∧ ReflTransGen arrow x w ∧ ReflTransGen arrow w x := by
  induction order generalizing x with
  | nil => cases hx
  | cons last earlier ih =>
      -- the node finished last: its way out crosses the border into its own component
      have fromLast : ∀ {y}, ReflTransGen arrow last y → y ∉ last :: earlier →
          ∃ w, w ∉ last :: earlier ∧ ReflTransGen arrow last w ∧ ReflTransGen arrow w last := by
        intro y hy hout
        obtain ⟨u, v, hu, hv, hlu, huv⟩ := exists_crossing (· ∈ last :: earlier) hy
          List.mem_cons_self hout
        exact ⟨v, hv, hlu.tail huv, h.1 u hu v huv hv⟩
      rcases List.mem_cons.mp hx with rfl | hx
      · exact fromLast path hz
      · have hz' : z ∉ earlier := fun hmem => hz (List.mem_cons_of_mem _ hmem)
        obtain ⟨w, hw, hxw, hwx⟩ := ih h.2 hx hz' path
        by_cases hlast : w = last
        · subst hlast
          obtain ⟨v, hv, hwv, hvw⟩ := fromLast (hwx.trans path) hz
          exact ⟨v, hv, hxw.trans hwv, hvw.trans hwx⟩
        · exact ⟨w, by simp [hlast, hw], hxw, hwx⟩

namespace Search

/-- A node that has been visited and is not yet finished. -/
def Open (s : Search) (i : Nat) : Prop := s.visited.has i = true ∧ i ∉ s.finished

/-- What the search has done so far is right. -/
structure Sound (arrows : Arrows) (gone : Marks) (s : Search) : Prop where
  size : s.visited.size = arrows.size
  nodup : s.finished.Nodup
  visited : ∀ i ∈ s.finished, s.visited.has i = true
  left : ∀ i ∈ s.finished, gone.has i = false
  closed : ∀ i ∈ s.finished, ∀ j, arrows.Live gone i j → s.visited.has j = true
  order : FinishingOrder (arrows.Live gone) s.finished

/-- The search has gone on, and the open nodes are the same as before. -/
structure Continues (s t : Search) : Prop where
  visited : ∀ i, s.visited.has i = true → t.visited.has i = true
  same : ∀ i, t.Open i ↔ s.Open i

theorem Continues.refl (s : Search) : s.Continues s := ⟨fun _ h => h, fun _ => Iff.rfl⟩

theorem Continues.trans {s t u : Search} (h : s.Continues t) (h' : t.Continues u) :
    s.Continues u :=
  ⟨fun i hi => h'.visited i (h.visited i hi), fun i => (h'.same i).trans (h.same i)⟩

theorem Continues.card_absent_le {arrows : Arrows} {gone : Marks} {s t : Search}
    (h : s.Continues t) (hs : s.Sound arrows gone) (ht : t.Sound arrows gone) :
    t.visited.absent.card ≤ s.visited.absent.card :=
  Finset.card_le_card (Marks.absent_subset (ht.size.trans hs.size.symm) h.visited)

end Search

namespace Arrows

variable {arrows : Arrows} {gone : Marks}

/-- What a visit of a node has to bring about. -/
structure Visited (arrows : Arrows) (gone : Marks) (node : Nat) (s t : Search) : Prop where
  sound : t.Sound arrows gone
  continues : s.Continues t
  done : gone.has node = false → t.visited.has node = true

/-- When a visit may begin: every open node leads to the node, and the depth is enough for all nodes
not yet visited. -/
structure MayVisit (arrows : Arrows) (gone : Marks) (depth node : Nat) (s : Search) : Prop where
  sound : s.Sound arrows gone
  ways : ∀ i, s.Open i → arrows.Reaches gone i node
  bounded : node < arrows.size
  enough : s.visited.absent.card ≤ depth

/-- Visits of nodes that an open node leads to, one after the other. -/
theorem foldl_visit {node depth : Nat}
    (visit_one : ∀ next s, MayVisit arrows gone depth next s →
      Visited arrows gone next s (arrows.visit gone depth next s))
    (hnode : gone.has node = false) (targets : List Nat)
    (ht : ∀ j ∈ targets, j ∈ arrows.next node ∧ j < arrows.size) (s : Search)
    (hs : MayVisit arrows gone depth node s) :
    let t := targets.foldl (fun s next => arrows.visit gone depth next s) s
    t.Sound arrows gone ∧ s.Continues t
      ∧ ∀ j ∈ targets, gone.has j = false → t.visited.has j = true := by
  induction targets generalizing s with
  | nil => exact ⟨hs.sound, .refl s, by simp⟩
  | cons next rest ih =>
      obtain ⟨hnext, hlt⟩ := ht next List.mem_cons_self
      have first : Visited arrows gone next s (arrows.visit gone depth next s) := by
        by_cases hgone : gone.has next = true
        · cases depth with
          | zero => exact ⟨hs.sound, .refl s, fun h => by simp [hgone] at h⟩
          | succ depth =>
              simp only [visit, hgone, Bool.true_or, if_true]
              exact ⟨hs.sound, .refl s, fun h => by simp [hgone] at h⟩
        · have step : arrows.Live gone node next := ⟨hnode, by simpa using hgone, hnext⟩
          exact visit_one next s ⟨hs.sound, fun i hi => (hs.ways i hi).tail step, hlt, hs.enough⟩
      have later : MayVisit arrows gone depth node (arrows.visit gone depth next s) :=
        ⟨first.sound, fun i hi => hs.ways i ((first.continues.same i).mp hi), hs.bounded,
          (first.continues.card_absent_le hs.sound first.sound).trans hs.enough⟩
      obtain ⟨sound, continues, done⟩ := ih (fun j hj => ht j (List.mem_cons_of_mem _ hj)) _ later
      refine ⟨sound, first.continues.trans continues, fun j hj hleft => ?_⟩
      rcases List.mem_cons.mp hj with rfl | hj
      · exact continues.visited _ (first.done hleft)
      · exact done j hj hleft

/-- A node opened for a visit. -/
theorem mayVisit_open {depth node : Nat} {s : Search} (hs : MayVisit arrows gone (depth + 1) node s)
    (hnew : s.visited.has node = false) :
    MayVisit arrows gone depth node { s with visited := s.visited.add node } := by
  have hsize : node < s.visited.size := hs.sound.size ▸ hs.bounded
  refine ⟨⟨by simpa using hs.sound.size, hs.sound.nodup,
    fun i hi => Marks.has_add_of_has _ (hs.sound.visited i hi), hs.sound.left,
    fun i hi j hij => Marks.has_add_of_has _ (hs.sound.closed i hi j hij), hs.sound.order⟩,
    fun i hi => ?_, hs.bounded, ?_⟩
  · rcases (Marks.has_add_iff _ _ _).mp hi.1 with hvisited | ⟨rfl, _⟩
    · exact hs.ways i ⟨hvisited, hi.2⟩
    · exact ReflTransGen.refl
  · have := Marks.card_absent_add_lt hsize hnew
    have := hs.enough
    change (s.visited.add node).absent.card ≤ depth
    omega

section Finishing

variable {depth node : Nat} {s t : Search}

/-- Going on from a state where a node has been opened, the other open nodes are those of before. -/
theorem open_of_continues (continues : Search.Continues { s with visited := s.visited.add node } t)
    {i : Nat} (hi : t.Open i) (hne : i ≠ node) : s.Open i := by
  obtain ⟨h, hfinished⟩ := (continues.same i).mp hi
  rcases (Marks.has_add_iff _ _ _).mp h with h | ⟨rfl, _⟩
  · exact ⟨h, hfinished⟩
  · exact absurd rfl hne

/-- With the opened node finished, the open nodes are those of before. -/
theorem continues_finish (hnew : s.visited.has node = false)
    (continues : Search.Continues { s with visited := s.visited.add node } t) :
    s.Continues { t with finished := node :: t.finished } where
  visited i hi := continues.visited i (Marks.has_add_of_has _ hi)
  same i := by
    constructor
    · intro hi
      obtain ⟨hne, hi'⟩ := not_or.mp (fun h => hi.2 (List.mem_cons.mpr h))
      exact open_of_continues continues ⟨hi.1, hi'⟩ hne
    · intro hi
      have hi' : t.Open i := (continues.same i).mpr ⟨Marks.has_add_of_has _ hi.1, hi.2⟩
      refine ⟨hi'.1, fun h => ?_⟩
      rcases List.mem_cons.mp h with rfl | h
      · exact Bool.eq_false_iff.mp hnew hi.1
      · exact hi'.2 h

/-- A node may be finished once all that it leads to has been visited. -/
theorem sound_finish (hs : MayVisit arrows gone depth node s) (hleft : gone.has node = false)
    (sound : t.Sound arrows gone)
    (continues : Search.Continues { s with visited := s.visited.add node } t) (hopen : t.Open node)
    (done : ∀ j ∈ arrows.next node, gone.has j = false → t.visited.has j = true) :
    Search.Sound arrows gone { t with finished := node :: t.finished } := by
  have hclosed : ∀ x ∈ node :: t.finished, ∀ y, arrows.Live gone x y →
      t.visited.has y = true := by
    intro x hx y hxy
    rcases List.mem_cons.mp hx with rfl | hx
    · exact done y hxy.2.2 hxy.2.1
    · exact sound.closed x hx y hxy
  constructor
  case size => exact sound.size
  case nodup => exact List.nodup_cons.mpr ⟨hopen.2, sound.nodup⟩
  case visited => exact List.forall_mem_cons.mpr ⟨hopen.1, sound.visited⟩
  case left => exact List.forall_mem_cons.mpr ⟨hleft, sound.left⟩
  case closed => exact hclosed
  case order =>
    refine ⟨fun x hx y hxy hy => ?_, sound.order⟩
    obtain ⟨hne, hy'⟩ := not_or.mp (fun h => hy (List.mem_cons.mpr h))
    exact hs.ways y (open_of_continues continues ⟨hclosed x hx y hxy, hy'⟩ hne)

/-- Finishing an open node once all that it leads to has been visited. -/
theorem finish_visited (hs : MayVisit arrows gone depth node s) (hleft : gone.has node = false)
    (hnew : s.visited.has node = false) (sound : t.Sound arrows gone)
    (continues : Search.Continues { s with visited := s.visited.add node } t)
    (done : ∀ j ∈ arrows.next node, gone.has j = false → t.visited.has j = true) :
    Visited arrows gone node s { t with finished := node :: t.finished } := by
  have hsize : node < s.visited.size := hs.sound.size ▸ hs.bounded
  have hopen : t.Open node := (continues.same node).mpr
    ⟨Marks.has_add_self hsize, fun h => Bool.eq_false_iff.mp hnew (hs.sound.visited _ h)⟩
  exact ⟨sound_finish hs hleft sound continues hopen done, continues_finish hnew continues,
    fun _ => hopen.1⟩

end Finishing

theorem visit_visited (wf : arrows.WellFormed) (depth : Nat) :
    ∀ node s, MayVisit arrows gone depth node s →
      Visited arrows gone node s (arrows.visit gone depth node s) := by
  induction depth with
  | zero =>
      intro node s hs
      refine ⟨hs.sound, .refl s, fun _ => ?_⟩
      by_contra hnew
      have : node ∈ s.visited.absent :=
        Marks.mem_absent.mpr ⟨hs.sound.size ▸ hs.bounded, by simpa [visit] using hnew⟩
      have := Finset.card_pos.mpr ⟨node, this⟩
      have := hs.enough
      omega
  | succ depth ih =>
      intro node s hs
      by_cases hgone : gone.has node = true
      · simp only [visit, hgone, Bool.true_or, if_true]
        exact ⟨hs.sound, .refl s, fun h => by simp [hgone] at h⟩
      by_cases hold : s.visited.has node = true
      · simp only [visit, hold, Bool.or_true, if_true]
        exact ⟨hs.sound, .refl s, fun _ => hold⟩
      have hleft : gone.has node = false := by simpa using hgone
      have hnew : s.visited.has node = false := by simpa using hold
      obtain ⟨sound, continues, done⟩ := foldl_visit ih hleft (arrows.next node)
        (fun j hj => ⟨hj, wf.bounded hj⟩) _ (mayVisit_open hs hnew)
      simp only [visit, hleft, hnew, Bool.or_self, Bool.false_eq_true, if_false]
      exact finish_visited hs hleft hnew sound continues done

/-- What is known of the nodes that the forward search finishes, the last in front. -/
structure Finishes (arrows : Arrows) (gone : Marks) (finished : List Nat) : Prop where
  nodup : finished.Nodup
  mem_iff : ∀ i, i ∈ finished ↔ i < arrows.size ∧ gone.has i = false
  order : FinishingOrder (arrows.Live gone) finished

/-- Visits from one root after the other leave no node open. -/
theorem foldl_roots (wf : arrows.WellFormed) (roots : List Nat)
    (hroots : ∀ i ∈ roots, i < arrows.size) (s : Search) (hs : s.Sound arrows gone)
    (hopen : ∀ i, ¬ s.Open i) :
    let t := roots.foldl (fun s root => arrows.visit gone arrows.size root s) s
    t.Sound arrows gone ∧ s.Continues t
      ∧ ∀ i ∈ roots, gone.has i = false → t.visited.has i = true := by
  induction roots generalizing s with
  | nil => exact ⟨hs, .refl s, by simp⟩
  | cons root rest ih =>
      have first := visit_visited wf arrows.size root s
        ⟨hs, fun i hi => absurd hi (hopen i), hroots root List.mem_cons_self,
          hs.size ▸ s.visited.card_absent_le⟩
      obtain ⟨sound, continues, done⟩ := ih (fun i hi => hroots i (List.mem_cons_of_mem _ hi)) _
        first.sound fun i hi => hopen i ((first.continues.same i).mp hi)
      refine ⟨sound, first.continues.trans continues, fun i hi hleft => ?_⟩
      rcases List.mem_cons.mp hi with rfl | hi
      · exact continues.visited _ (first.done hleft)
      · exact done i hi hleft

/-- The forward search finishes every node that is left, and so that only open nodes are led to. -/
theorem finishes_finished (wf : arrows.WellFormed) (gone : Marks) :
    Finishes arrows gone (arrows.finished gone) := by
  have hstart : Search.Sound arrows gone ⟨Marks.none arrows.size, []⟩ :=
    ⟨by simp, List.nodup_nil, by simp, by simp, by simp, trivial⟩
  obtain ⟨sound, continues, done⟩ := foldl_roots wf (List.range arrows.size)
    (fun i hi => List.mem_range.mp hi) _ hstart (fun i hi => by simp [Search.Open] at hi)
  refine ⟨sound.nodup, fun i => ⟨fun hi => ⟨?_, sound.left i hi⟩, fun hi => ?_⟩, sound.order⟩
  · exact sound.size ▸ Marks.lt_size_of_has (sound.visited i hi)
  · by_contra hunfinished
    have hopen := (continues.same i).mp ⟨done i (List.mem_range.mpr hi.1) hi.2, hunfinished⟩
    simp [Search.Open] at hopen

end Arrows

end Recalc
