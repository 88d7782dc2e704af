import Mathlib.Data.List.Basic

/-!
# Streams with a detour

The items of a stream reach a receiver over a lane.  An item that has been
read and is still held goes to the lane at once, or to a store that is emptied
into the lane later.  The order of the stream is kept as long as nothing is put
on the lane while a store that holds items is still to be emptied into it.
-/

namespace Byteln.Library

/-- What has been received, what is on the lane and what is held are parts of
the stream in its order.  So are the items of each store, which come after
those on the lane when the store is to be emptied into it. -/
structure InOrder {α ι : Type*} (sent received lane held : List α)
    (stored : ι → List α) (drains : ι → Prop) : Prop where
  direct : (received ++ lane ++ held).Sublist sent
  pending : ∀ i, drains i → (received ++ lane ++ stored i ++ held).Sublist sent
  alone : ∀ i, drains i → lane ≠ [] → stored i = []
  buffered : ∀ i, (stored i ++ held).Sublist sent

namespace InOrder

variable {α ι : Type*} {sent received lane lane' held held' : List α}
  {stored stored' : ι → List α} {drains drains' : ι → Prop} {item : α}

theorem received_sublist
    (order : InOrder sent received lane held stored drains) :
    received.Sublist sent := by
  have whole := order.direct
  rw [List.append_assoc] at whole
  exact (List.sublist_append_left _ _).trans whole

/-- Before anything is sent, all is in order. -/
theorem start (empty : ∀ i, stored i = []) :
    InOrder [] [] [] [] stored drains where
  direct := List.Sublist.refl []
  pending := by
    intro i _
    rw [empty]
    exact List.Sublist.refl []
  alone := fun i _ => absurd rfl
  buffered := by
    intro i
    rw [empty]
    exact List.Sublist.refl []

/-- Items may be lost anywhere. -/
theorem loses (order : InOrder sent received lane held stored drains)
    (onLane : lane'.Sublist lane) (inHand : held'.Sublist held)
    (inStore : ∀ i, (stored' i).Sublist (stored i))
    (fewer : ∀ i, drains' i → drains i) :
    InOrder sent received lane' held' stored' drains' where
  direct :=
    (((List.Sublist.refl _).append onLane).append inHand).trans order.direct
  pending := by
    intro i drained
    exact ((((List.Sublist.refl _).append onLane).append (inStore i)).append
      inHand).trans (order.pending i (fewer i drained))
  alone := by
    intro i drained some
    have empty := order.alone i (fewer i drained) (by
      rintro rfl
      exact some (List.sublist_nil.mp onLane))
    have shorter := inStore i
    rw [empty] at shorter
    exact List.sublist_nil.mp shorter
  buffered := fun i => ((inStore i).append inHand).trans (order.buffered i)

/-- The first item on the lane is received. -/
theorem delivers
    (order : InOrder sent received (item :: lane) held stored drains) :
    InOrder sent (received ++ [item]) lane held stored drains where
  direct := by
    have whole := order.direct
    rwa [List.append_cons] at whole
  pending := by
    intro i drained
    have whole := order.pending i drained
    rwa [List.append_cons] at whole
  alone := fun i drained _ => order.alone i drained (List.cons_ne_nil _ _)
  buffered := order.buffered

/-- An item is read. -/
theorem reads (order : InOrder sent received lane [] stored drains) :
    InOrder (sent ++ [item]) received lane [item] stored drains where
  direct := by
    have whole := order.direct
    rw [List.append_nil] at whole
    exact whole.append (List.Sublist.refl _)
  pending := by
    intro i drained
    have whole := order.pending i drained
    rw [List.append_nil] at whole
    exact whole.append (List.Sublist.refl _)
  alone := order.alone
  buffered := by
    intro i
    have whole := order.buffered i
    rw [List.append_nil] at whole
    exact whole.append (List.Sublist.refl _)

/-- The item in hand is put on the empty lane, and no store that holds items
will be emptied into it. -/
theorem forwards (order : InOrder sent received [] [item] stored drains)
    (clear : ∀ i, drains i → stored i = []) :
    InOrder sent received [item] [] stored drains where
  direct := by
    have whole := order.direct
    rwa [List.append_nil, ← List.append_nil (received ++ [item])] at whole
  pending := by
    intro i drained
    have whole := order.direct
    rw [List.append_nil] at whole
    rw [clear i drained, List.append_nil, List.append_nil]
    exact whole
  alone := fun i drained _ => clear i drained
  buffered := by
    intro i
    rw [List.append_nil]
    exact (List.sublist_append_left _ _).trans (order.buffered i)

/-- The item in hand is put into a store. -/
theorem stores {target : ι}
    (order : InOrder sent received lane [item] stored drains)
    (idle : ∀ i, drains i → lane = [])
    (added : (stored' target).Sublist (stored target ++ [item]))
    (others : ∀ i, i ≠ target → (stored' i).Sublist (stored i)) :
    InOrder sent received lane [] stored' drains := by
  have either : ∀ i, (stored' i).Sublist (stored i ++ [item]) := by
    intro i
    by_cases same : i = target
    · rw [same]
      exact added
    · exact (others i same).trans (List.sublist_append_left _ _)
  constructor
  · rw [List.append_nil]
    exact (List.sublist_append_left _ _).trans order.direct
  · intro i drained
    have whole := order.pending i drained
    rw [List.append_assoc] at whole
    rw [List.append_nil]
    exact ((List.Sublist.refl _).append (either i)).trans whole
  · intro i drained some
    exact absurd (idle i drained) some
  · intro i
    rw [List.append_nil]
    exact (either i).trans (order.buffered i)

/-- A store is emptied into the lane, and it was the last one to be. -/
theorem empties {target : ι}
    (order : InOrder sent received lane held stored drains)
    (drained : drains target)
    (moved : lane'.Sublist (lane ++ stored target))
    (inStore : ∀ i, (stored' i).Sublist (stored i))
    (last : ∀ i, ¬ drains' i) :
    InOrder sent received lane' held stored' drains' where
  direct := by
    have whole := order.pending target drained
    rw [List.append_assoc received] at whole
    exact (((List.Sublist.refl _).append moved).append
      (List.Sublist.refl _)).trans whole
  pending := fun i drained => absurd drained (last i)
  alone := fun i drained => absurd drained (last i)
  buffered := fun i =>
    ((inStore i).append (List.Sublist.refl _)).trans (order.buffered i)

/-- Any store may be emptied into a lane that nothing has been put on. -/
theorem opens (order : InOrder sent [] [] held stored drains) :
    InOrder sent [] [] held stored drains' where
  direct := order.direct
  pending := fun i _ => order.buffered i
  alone := fun _ _ => absurd rfl
  buffered := order.buffered

end InOrder

/-! ## Values of some members -/

theorem filterMap_cons_toList {α β : Type*} (f : α → Option β) (a : α)
    (l : List α) : (a :: l).filterMap f = (f a).toList ++ l.filterMap f := by
  cases found : f a with
  | none => exact List.filterMap_cons_none found
  | some b => exact List.filterMap_cons_some found

theorem filterMap_sublist_filterMap {α β : Type*} {f g : α → Option β}
    (le : ∀ a b, f a = some b → g a = some b) (l : List α) :
    (l.filterMap f).Sublist (l.filterMap g) := by
  induction l with
  | nil => exact List.Sublist.refl []
  | cons a l induction =>
      cases found : f a with
      | none =>
          rw [List.filterMap_cons_none found]
          exact induction.trans ((List.sublist_cons_self a l).filterMap g)
      | some b =>
          rw [List.filterMap_cons_some found,
            List.filterMap_cons_some (le a b found)]
          exact induction.cons_cons b

theorem eq_of_nodup_filterMap {α β : Type*} {f : α → Option β} {l : List α}
    (distinct : (l.filterMap f).Nodup) {a b : α} {c : β} (first : a ∈ l)
    (second : b ∈ l) (left : f a = some c) (right : f b = some c) :
    a = b := by
  induction l with
  | nil => cases first
  | cons d l induction =>
      rw [filterMap_cons_toList] at distinct
      obtain ⟨-, later, apart⟩ := List.nodup_append.mp distinct
      rcases List.mem_cons.mp first with rfl | inFirst
      · rcases List.mem_cons.mp second with rfl | inSecond
        · rfl
        · exact absurd rfl (apart c (by simp [left]) c
            (List.mem_filterMap.mpr ⟨b, inSecond, right⟩))
      · rcases List.mem_cons.mp second with rfl | inSecond
        · exact absurd rfl (apart c (by simp [right]) c
            (List.mem_filterMap.mpr ⟨a, inFirst, left⟩))
        · exact induction later inFirst inSecond

/-- At most one member of a list is not free, and stays so when that member is
replaced, or any member once all others are free. -/
theorem pairwise_replace {α : Type*} {free : α → Prop}
    {before after started : List α} {x y : α}
    (apart : (before ++ x :: after).Pairwise fun a b => free a ∨ free b)
    (idle : ∀ a ∈ started, free a)
    (replaced : (free x → free y) ∨ ∀ a ∈ before ++ after, free a) :
    (before ++ y :: (after ++ started)).Pairwise fun a b =>
      free a ∨ free b := by
  simp only [List.pairwise_append, List.pairwise_cons, List.mem_cons,
    List.mem_append] at apart replaced ⊢
  obtain ⟨early, ⟨here, late⟩, across⟩ := apart
  refine ⟨early, ⟨?_, late, ?_, ?_⟩, ?_⟩
  · rintro b (later | new)
    · rcases replaced with kept | others
      · exact (here b later).imp_left kept
      · exact .inr (others b (.inr later))
    · exact .inr (idle b new)
  · exact List.pairwise_of_forall_mem_list fun a member b _ =>
      .inl (idle a member)
  · exact fun _ _ b new => .inr (idle b new)
  · rintro a earlier b (rfl | later | new)
    · rcases replaced with kept | others
      · exact (across a earlier x (.inl rfl)).imp_right kept
      · exact .inl (others a (.inl earlier))
    · exact across a earlier b (.inr later)
    · exact .inr (idle b new)

end Byteln.Library
