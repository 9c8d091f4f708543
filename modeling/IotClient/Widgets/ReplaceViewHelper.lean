import IotClient.Foundation.Runs
import IotClient.Foundation.Siblings

/-!
# Replacing a view

`ReplaceViewHelper.toReplaceView` hides a view and puts another one in its place, and `removeView`
takes it out again. The helper remembers one target and one replacement. When a replacement is still
there, `toReplaceView` looks up the index of the new target first and removes the old replacement
afterwards, from the parent of the new target; the old target stays hidden.

So a call shows just its own replacement exactly when none is there (`meets_iff`), and every call of
a run leaves the views as it should exactly when `toReplaceView` is only called with none there
(`reversible_iff`). `second_replacement_after_target` replaces the same view twice in a row.
-/

set_option autoImplicit false

namespace IotClient.Widgets.ReplaceViewHelper

open IotClient.Foundation.Runs
open IotClient.Foundation.Siblings

/-! ## Views and groups -/

/-- `View.VISIBLE`, `View.INVISIBLE` and `View.GONE`. -/
inductive Visibility where
  | VISIBLE
  | INVISIBLE
  | GONE
deriving DecidableEq, Repr

/-- What `addView` may throw. -/
inductive JavaException where
  | illegalState
  | indexOutOfBounds
deriving DecidableEq, Repr

/-- The state of the views: the children of each group, the parent of each view (`none` without a
parent that is a `ViewGroup`), and its visibility and layout parameters. -/
structure Views (G V P : Type) where
  children : G → List V
  parent : V → Option G
  visibility : V → Visibility
  layoutParams : V → P

variable {G V P : Type}

/-- Some groups with their children, all visible. -/
structure Layout (G V P : Type) where
  views : Views G V P
  isRelativeLayout : G → Bool
  nodup : ∀ g, (views.children g).Nodup
  parent_iff : ∀ g v, views.parent v = some g ↔ v ∈ views.children g
  allVisible : ∀ v, views.visibility v = .VISIBLE

namespace Layout

variable {t r : V} {g : G}

theorem mem_of_parent (l : Layout G V P) (ht : l.views.parent t = some g) :
    t ∈ l.views.children g := (l.parent_iff g t).1 ht

theorem not_mem_of_parent (l : Layout G V P) (hr : l.views.parent r = none) (g : G) :
    r ∉ l.views.children g := by
  intro hmem
  rw [(l.parent_iff g r).2 hmem] at hr
  cases hr

/-- A view is a child of one group only. -/
theorem not_mem_of_ne (l : Layout G V P) (ht : l.views.parent t = some g) {g' : G}
    (hg : g' ≠ g) : t ∉ l.views.children g' := by
  intro hmem
  rw [(l.parent_iff g' t).2 hmem] at ht
  exact hg (Option.some.inj ht)

end Layout

variable [DecidableEq G] [DecidableEq V]

namespace Views

/-- `ViewGroup.indexOfChild`. -/
def indexOfChild (w : Views G V P) (g : G) (child : V) : Int :=
  if child ∈ w.children g then ((w.children g).idxOf child : Int) else -1

/-- `ViewGroup.removeView`: a view that is no child of the group is left alone. -/
def removeView (w : Views G V P) (g : G) (child : V) : Views G V P :=
  if child ∈ w.children g then
    { w with
      children := Function.update w.children g ((w.children g).erase child)
      parent := Function.update w.parent child none }
  else w

/-- `ViewGroup.addInArray`, with the new parent. -/
def addInArray (w : Views G V P) (g : G) (child : V) (index : Nat) : Views G V P :=
  { w with
    children := Function.update w.children g ((w.children g).insertIdx index child)
    parent := Function.update w.parent child (some g) }

/-- `ViewGroup.addView`: a negative index is the end. -/
def addView (w : Views G V P) (g : G) (child : V) (index : Int) :
    Except JavaException (Views G V P) :=
  if w.parent child ≠ none then .error .illegalState
  else if index < 0 then .ok (w.addInArray g child (w.children g).length)
  else if index ≤ (w.children g).length then .ok (w.addInArray g child index.toNat)
  else .error .indexOutOfBounds

/-- `View.setVisibility`. -/
def setVisibility (w : Views G V P) (v : V) (visibility : Visibility) : Views G V P :=
  { w with visibility := Function.update w.visibility v visibility }

/-- `View.setLayoutParams`. -/
def setLayoutParams (w : Views G V P) (v : V) (params : P) : Views G V P :=
  { w with layoutParams := Function.update w.layoutParams v params }

end Views

/-! ## The helper -/

/-- `ReplaceViewHelper`, with the views it works on. -/
structure Helper (G V P : Type) where
  mTargetView : Option V
  mReplaceView : Option V
  views : Views G V P

namespace Helper

/-- `ReplaceViewHelper.toReplaceView`. -/
def toReplaceView (isRelativeLayout : G → Bool) (s : Helper G V P) (targetView : Option V)
    (replaceView : V) : Except JavaException (Helper G V P) :=
  let s := { s with mTargetView := targetView }
  match targetView with
  | none => .ok s
  | some target =>
      match s.views.parent target with
      | none => .ok s
      | some parentViewGroup => do
          let index := s.views.indexOfChild parentViewGroup target
          let views := match s.mReplaceView with
            | some old => s.views.removeView parentViewGroup old
            | none => s.views
          let views := views.setLayoutParams replaceView (views.layoutParams target)
          let views ← views.addView parentViewGroup replaceView index
          let views := views.setVisibility target
            (if isRelativeLayout parentViewGroup then .INVISIBLE else .GONE)
          return { s with mReplaceView := some replaceView, views := views }

/-- `ReplaceViewHelper.removeView`. -/
def removeView (s : Helper G V P) : Helper G V P :=
  match s.mReplaceView, s.mTargetView with
  | some replace, some target =>
      match s.views.parent target with
      | some parentViewGroup =>
          { s with
            mReplaceView := none
            views := (s.views.removeView parentViewGroup replace).setVisibility target .VISIBLE }
      | none => s
  | _, _ => s

end Helper

/-- The calls on the helper. -/
inductive Call (V : Type) where
  | toReplaceView (t r : V)
  | removeView
deriving DecidableEq

/-- A new helper on a layout. -/
def machine (l : Layout G V P) : Machine (Helper G V P) (Call V) where
  init := ⟨none, none, l.views⟩
  step := fun s c =>
    match c with
    | .toReplaceView t r => (s.toReplaceView l.isRelativeLayout (some t) r).toOption
    | .removeView => some s.removeView

/-! ## The property and the condition -/

/-- The children and the visibilities of the layout. -/
def Restored (l : Layout G V P) (w : Views G V P) : Prop :=
  w.children = l.views.children ∧ w.visibility = l.views.visibility

/-- The children of the layout with `r` immediately before `t`, and only `t` hidden. -/
def Replaced (l : Layout G V P) (t r : V) (w : Views G V P) : Prop :=
  (∀ g, w.children g = insertBefore t r (l.views.children g)) ∧
    w.visibility t ≠ .VISIBLE ∧ ∀ v, v ≠ t → w.visibility v = .VISIBLE

/-- A target is a child in the layout, and a replacement is not. -/
def Legal (l : Layout G V P) : Guard (Helper G V P) (Call V) := fun _ c =>
  ∀ t r, c = .toReplaceView t r → l.views.parent t ≠ none ∧ l.views.parent r = none

/-- The call completes and leaves the views as it should. -/
def Meets (l : Layout G V P) : Guard (Helper G V P) (Call V) := fun s c =>
  ∃ s', (machine l).step s c = some s' ∧
    match c with
    | .toReplaceView t r => Replaced l t r s'.views
    | .removeView => Restored l s'.views

/-- A replacement is asked for only when none is there. -/
def NoneShown : Guard (Helper G V P) (Call V) := fun s c =>
  ∀ t r, c = .toReplaceView t r → s.mReplaceView = none

/-! ## What the view calls do -/

namespace Views

variable {w w' : Views G V P} {g : G} {v : V}

omit [DecidableEq G] in
theorem indexOfChild_of_mem (hv : v ∈ w.children g) :
    w.indexOfChild g v = ((w.children g).idxOf v : Int) := if_pos hv

omit [DecidableEq G] in
theorem setVisibility_self (x : Visibility) : (w.setVisibility v x).visibility v = x :=
  Function.update_self _ _ _

omit [DecidableEq G] in
theorem setVisibility_of_ne {u : V} (hu : u ≠ v) (x : Visibility) :
    (w.setVisibility v x).visibility u = w.visibility u := Function.update_of_ne hu _ _

theorem removeView_visibility : (w.removeView g v).visibility = w.visibility := by
  rw [removeView]
  split_ifs
  · rfl
  · rfl

theorem removeView_of_mem (hv : v ∈ w.children g) :
    w.removeView g v = { w with
      children := Function.update w.children g ((w.children g).erase v)
      parent := Function.update w.parent v none } := if_pos hv

/-- At an index of the group a view without a parent is inserted. -/
theorem addView_of_le {i : Nat} (hv : w.parent v = none) (hi : i ≤ (w.children g).length) :
    w.addView g v i = .ok (w.addInArray g v i) := by
  rw [addView, if_neg (not_not.2 hv), if_neg (by omega), if_pos (by omega)]
  rfl

/-- When `addView` completes at an index, it has inserted the view there. -/
theorem addView_ok {i : Nat} (h : w.addView g v i = .ok w') : w' = w.addInArray g v i := by
  rw [addView] at h
  split_ifs at h with hparent hneg hle
  · omega
  · exact (Except.ok.inj h).symm

/-- When `addView` completes, it has left the visibilities alone. -/
theorem addView_visibility {i : Int} (h : w.addView g v i = .ok w') :
    w'.visibility = w.visibility := by
  rw [addView] at h
  split_ifs at h
  · cases h
    rfl
  · cases h
    rfl

end Views

/-! ## What the two methods do -/

/-- A call that completes. -/
theorem ok_of_toOption {ε α : Type} {x : Except ε α} {a : α} (h : x.toOption = some a) :
    x = .ok a := by
  cases x with
  | error e => cases h
  | ok b =>
      obtain rfl : b = a := Option.some.inj h
      rfl

variable {l : Layout G V P} {s s' : Helper G V P} {t r : V} {g : G}

/-- The helper shows nothing, and the views are those of the layout. -/
structure Clean (l : Layout G V P) (s : Helper G V P) : Prop where
  replace : s.mReplaceView = none
  children : s.views.children = l.views.children
  parent : s.views.parent = l.views.parent
  visibility : s.views.visibility = l.views.visibility

/-- The helper shows `r` for the child `t` of `g`, and nothing else has changed. -/
structure Shown (l : Layout G V P) (s : Helper G V P) (t r : V) (g : G) : Prop where
  target : s.mTargetView = some t
  replace : s.mReplaceView = some r
  child : l.views.parent t = some g
  fresh : l.views.parent r = none
  replaced : Replaced l t r s.views
  parent : s.views.parent = Function.update l.views.parent r (some g)

/-- The children of the groups, with `r` put before `t` in the group of `t` alone. -/
theorem update_insertBefore (ht : l.views.parent t = some g) (g' : G) :
    Function.update l.views.children g (insertBefore t r (l.views.children g)) g' =
      insertBefore t r (l.views.children g') := by
  by_cases hg : g' = g
  · rw [hg, Function.update_self]
  · rw [Function.update_of_ne hg, insertBefore_of_not_mem (l.not_mem_of_ne ht hg)]

/-- The views once `toReplaceView` has removed the old replacement from the group `g`. -/
def Helper.cleared (s : Helper G V P) (g : G) : Views G V P :=
  match s.mReplaceView with
  | some old => s.views.removeView g old
  | none => s.views

/-- The views that the replacement is added to. -/
def Helper.prepared (s : Helper G V P) (t r : V) (g : G) : Views G V P :=
  (s.cleared g).setLayoutParams r ((s.cleared g).layoutParams t)

/-- How a target is hidden. -/
def Layout.hiddenIn (l : Layout G V P) (g : G) : Visibility :=
  if l.isRelativeLayout g then .INVISIBLE else .GONE

omit [DecidableEq G] [DecidableEq V] in
theorem Layout.hiddenIn_ne (l : Layout G V P) (g : G) : l.hiddenIn g ≠ .VISIBLE := by
  rw [Layout.hiddenIn]
  split_ifs
  · decide
  · decide

/-- `toReplaceView` on a target in the group `g`. -/
theorem toReplaceView_eq (ht : s.views.parent t = some g) :
    s.toReplaceView l.isRelativeLayout (some t) r =
      (s.prepared t r g).addView g r (s.views.indexOfChild g t) >>= fun w =>
        .ok ⟨some t, some r, w.setVisibility t (l.hiddenIn g)⟩ := by
  rw [Helper.toReplaceView]
  dsimp only
  rw [ht]
  rfl

/-- With nothing shown, `toReplaceView` shows its replacement. -/
theorem toReplaceView_clean (h : Clean l s) (ht : l.views.parent t = some g)
    (hr : l.views.parent r = none) :
    ∃ s', s.toReplaceView l.isRelativeLayout (some t) r = .ok s' ∧ Shown l s' t r g := by
  have hmem := l.mem_of_parent ht
  -- there is no old replacement to remove
  have hcleared : s.cleared g = s.views := by
    rw [Helper.cleared, h.replace]
  have hindex : s.views.indexOfChild g t = ((l.views.children g).idxOf t : Int) := by
    rw [Views.indexOfChild_of_mem (by rw [h.children]; exact hmem), h.children]
  have hparent : (s.prepared t r g).parent r = none := by
    show (s.cleared g).parent r = none
    rw [hcleared, h.parent]
    exact hr
  have hchildren : (s.prepared t r g).children = l.views.children := by
    show (s.cleared g).children = _
    rw [hcleared, h.children]
  have hle : (l.views.children g).idxOf t ≤ ((s.prepared t r g).children g).length := by
    rw [hchildren]
    exact Nat.le_of_lt (List.idxOf_lt_length_of_mem hmem)
  refine ⟨⟨some t, some r, ((s.prepared t r g).addInArray g r
    ((l.views.children g).idxOf t)).setVisibility t (l.hiddenIn g)⟩, ?_, ?_⟩
  · rw [toReplaceView_eq (by rw [h.parent]; exact ht), hindex, Views.addView_of_le hparent hle]
    rfl
  · refine ⟨rfl, rfl, ht, hr, ⟨?_, ?_, ?_⟩, ?_⟩
    · intro g'
      show Function.update (s.prepared t r g).children g
        (((s.prepared t r g).children g).insertIdx _ r) g' = _
      rw [hchildren, insertIdx_idxOf (l.nodup g) hmem]
      exact update_insertBefore ht g'
    · rw [Views.setVisibility_self]
      exact l.hiddenIn_ne g
    · intro v hv
      rw [Views.setVisibility_of_ne hv]
      show (s.cleared g).visibility v = _
      rw [hcleared, h.visibility]
      exact l.allVisible v
    · show Function.update (s.cleared g).parent r (some g) = _
      rw [hcleared, h.parent]

omit [DecidableEq G] in
/-- The parents of the children of the layout stay as they are while a replacement is shown. -/
theorem Shown.parent_of_child {g' : G} {t' r' : V} (h : Shown l s t r g)
    (ht' : l.views.parent t' = some g') (hr' : l.views.parent r' = none) :
    s.views.parent t' = some g' ∧ t' ≠ r' := by
  have hne : ∀ {v : V}, l.views.parent v = none → t' ≠ v := by
    rintro v hv rfl
    rw [ht'] at hv
    cases hv
  refine ⟨?_, hne hr'⟩
  rw [h.parent, Function.update_of_ne (hne h.fresh)]
  exact ht'

/-- `removeView` takes the replacement out again. -/
theorem removeView_shown (h : Shown l s t r g) : Clean l s.removeView := by
  have ht := (h.parent_of_child h.child h.fresh).1
  have heq : s.removeView =
      ⟨s.mTargetView, none, (s.views.removeView g r).setVisibility t .VISIBLE⟩ := by
    rw [Helper.removeView, h.replace, h.target]
    dsimp only
    rw [ht]
  -- the replacement is where the target is, so it is found and removed
  have hmem : r ∈ s.views.children g := by
    rw [h.replaced.1]
    exact mem_insertBefore (l.mem_of_parent h.child)
  rw [heq, Views.removeView_of_mem hmem]
  refine ⟨rfl, ?_, ?_, ?_⟩
  · funext g'
    show Function.update s.views.children g ((s.views.children g).erase r) g' = _
    by_cases hg : g' = g
    · rw [hg, Function.update_self, h.replaced.1,
        erase_insertBefore (l.nodup g) (l.not_mem_of_parent h.fresh g)]
    · rw [Function.update_of_ne hg, h.replaced.1,
        insertBefore_of_not_mem (l.not_mem_of_ne h.child hg)]
  · funext v
    show Function.update s.views.parent r none v = _
    by_cases hv : v = r
    · rw [hv, Function.update_self, h.fresh]
    · rw [Function.update_of_ne hv, h.parent, Function.update_of_ne hv]
  · funext v
    rw [l.allVisible v]
    by_cases hv : v = t
    · rw [hv, Views.setVisibility_self]
    · rw [Views.setVisibility_of_ne hv]
      exact h.replaced.2.2 v hv

/-- With nothing shown, `removeView` does nothing. -/
theorem removeView_clean (h : Clean l s) : s.removeView = s := by
  rw [Helper.removeView, h.replace]

/-- Replacing the target that is replaced already: its index is looked up before the old replacement
is removed, and is one more than its place afterwards. -/
theorem children_of_same_target {w : Views G V P} {r' : V} (h : Shown l s t r g)
    (hadd : (s.prepared t r' g).addView g r' (s.views.indexOfChild g t) = .ok w) :
    w.children g = (l.views.children g).insertIdx ((l.views.children g).idxOf t + 1) r' := by
  have hmem := l.mem_of_parent h.child
  have hne : r ≠ t := (h.parent_of_child h.child h.fresh).2.symm
  have hindex : s.views.indexOfChild g t = ((l.views.children g).idxOf t + 1 : Nat) := by
    rw [Views.indexOfChild_of_mem (by rw [h.replaced.1]; exact mem_insertBefore_of_mem hmem),
      h.replaced.1, idxOf_insertBefore hmem hne]
  have hold : r ∈ s.views.children g := by
    rw [h.replaced.1]
    exact mem_insertBefore hmem
  -- removing the old replacement leaves the children of the layout
  have hcleared : (s.cleared g).children g = l.views.children g := by
    rw [Helper.cleared, h.replace]
    show (s.views.removeView g r).children g = _
    rw [Views.removeView_of_mem hold]
    show Function.update s.views.children g ((s.views.children g).erase r) g = _
    rw [Function.update_self, h.replaced.1,
      erase_insertBefore (l.nodup g) (l.not_mem_of_parent h.fresh g)]
  rw [hindex] at hadd
  rw [Views.addView_ok hadd]
  show Function.update (s.prepared t r' g).children g
    (((s.prepared t r' g).children g).insertIdx _ r') g = _
  rw [Function.update_self]
  show ((s.cleared g).children g).insertIdx _ r' = _
  rw [hcleared]

/-- With a replacement shown, no further one is shown as it should: for another target the first
one stays hidden, and for the same target the index is that of before the removal. -/
theorem not_replaced_of_shown {g' : G} {t' r' : V} (h : Shown l s t r g)
    (ht' : l.views.parent t' = some g') (hr' : l.views.parent r' = none)
    (hs' : s.toReplaceView l.isRelativeLayout (some t') r' = .ok s') :
    ¬ Replaced l t' r' s'.views := by
  obtain ⟨hparent, hne⟩ := h.parent_of_child ht' hr'
  rw [toReplaceView_eq hparent] at hs'
  cases hadd : (s.prepared t' r' g').addView g' r' (s.views.indexOfChild g' t') with
  | error e =>
      rw [hadd] at hs'
      cases hs'
  | ok w =>
      rw [hadd] at hs'
      cases hs'
      intro hreplaced
      by_cases htarget : t = t'
      · -- the new replacement comes after its target
        subst htarget
        obtain rfl : g = g' := Option.some.inj (h.child.symm.trans ht')
        have hchildren := hreplaced.1 g
        rw [show (w.setVisibility t (l.hiddenIn g)).children g = w.children g from rfl,
          children_of_same_target h hadd] at hchildren
        exact insertIdx_succ_ne (l.nodup g) (l.mem_of_parent h.child) hne.symm hchildren
      · -- the first target is hidden, and nothing has shown it again
        have hvisible := hreplaced.2.2 t htarget
        rw [Views.setVisibility_of_ne htarget, Views.addView_visibility hadd] at hvisible
        apply h.replaced.2.1
        rw [← hvisible]
        show _ = (s.cleared g').visibility t
        rw [Helper.cleared, h.replace]
        exact congrFun Views.removeView_visibility.symm t

/-! ## Runs -/

/-- The helper shows nothing, or one replacement. -/
def Settled (l : Layout G V P) (s : Helper G V P) : Prop :=
  Clean l s ∨ ∃ t r g, Shown l s t r g

theorem settled_removeView (h : Settled l s) : Clean l s.removeView := by
  rcases h with h | ⟨t, r, g, h⟩
  · rw [removeView_clean h]
    exact h
  · exact removeView_shown h

/-- From a settled state, a call leaves the views as it should exactly when it does not ask for a
replacement while one is there. -/
theorem meets_iff {c : Call V} (h : Settled l s) (hc : Legal l s c) :
    NoneShown s c ↔ Meets l s c := by
  cases c with
  | removeView =>
      have hclean := settled_removeView h
      refine ⟨fun _ => ⟨_, rfl, hclean.children, hclean.visibility⟩, ?_⟩
      intro _ t r hcall
      cases hcall
  | toReplaceView t r =>
      obtain ⟨ht, hr⟩ := hc t r rfl
      obtain ⟨g, hg⟩ := Option.ne_none_iff_exists'.1 ht
      constructor
      · intro hnone
        rcases h with h | ⟨t0, r0, g0, h⟩
        · obtain ⟨s', hs', hshown⟩ := toReplaceView_clean h hg hr
          refine ⟨s', ?_, hshown.replaced⟩
          show (s.toReplaceView l.isRelativeLayout (some t) r).toOption = some s'
          rw [hs']
          rfl
        · have hnone' := hnone t r rfl
          rw [h.replace] at hnone'
          cases hnone'
      · rintro ⟨s', hs', hreplaced⟩ t' r' hcall
        rcases h with h | ⟨t0, r0, g0, h⟩
        · exact h.replace
        · exact absurd hreplaced (not_replaced_of_shown h hg hr (ok_of_toOption hs'))

theorem settled_step {c : Call V} (h : Settled l s) (hc : Legal l s c) (hnone : NoneShown s c)
    (hst : (machine l).step s c = some s') : Settled l s' := by
  cases c with
  | removeView =>
      obtain rfl : s.removeView = s' := Option.some.inj hst
      exact Or.inl (settled_removeView h)
  | toReplaceView t r =>
      obtain ⟨ht, hr⟩ := hc t r rfl
      obtain ⟨g, hg⟩ := Option.ne_none_iff_exists'.1 ht
      rcases h with h | ⟨t0, r0, g0, h⟩
      · obtain ⟨u, hu, hshown⟩ := toReplaceView_clean h hg hr
        rw [ok_of_toOption hst] at hu
        obtain rfl := Except.ok.inj hu
        exact Or.inr ⟨t, r, g, hshown⟩
      · have hnone' := hnone t r rfl
        rw [h.replace] at hnone'
        cases hnone'

theorem settled_of_run {es : List (Call V)}
    (h : RunUnder (machine l) (fun s c => Legal l s c ∧ NoneShown s c) es s) : Settled l s := by
  apply h.invariant
  · exact Or.inl ⟨rfl, rfl, rfl, rfl⟩
  · intro s c s' hs hg hst
    exact settled_step hs hg.1 hg.2 hst

/-- View replacement is reversible exactly in the runs that never ask for a replacement while one is
there: in those every call completes and leaves the views as it should, and in no others. -/
theorem reversible_iff (l : Layout G V P) (es : List (Call V)) (s : Helper G V P) :
    RunUnder (machine l) (fun s c => Legal l s c ∧ Meets l s c) es s ↔
      RunUnder (machine l) (fun s c => Legal l s c ∧ NoneShown s c) es s := by
  symm
  apply runUnder_congr
  intro es s c s' hrun hst
  apply and_congr_right
  intro hlegal
  exact meets_iff (settled_of_run hrun) hlegal

/-! ## The same view replaced twice in a row -/

/-- One group with the child 0. -/
def oneChild : Layout Unit Nat Unit where
  views :=
    { children := fun _ => [0]
      parent := fun v => if v = 0 then some () else none
      visibility := fun _ => .VISIBLE
      layoutParams := fun _ => () }
  isRelativeLayout := fun _ => false
  nodup := fun _ => by simp
  parent_iff := by
    intro g v
    rw [List.mem_singleton]
    by_cases hv : v = 0
    · simp [hv]
    · simp [hv]
  allVisible := fun _ => rfl

/-- The child is replaced by the view 1, and then by the view 2. -/
def replacedTwice : List (Call Nat) := [.toReplaceView 0 1] ++ [.toReplaceView 0 2]

/-- The second replacement ends up after its target. -/
theorem second_replacement_after_target :
    ∃ s, RunUnder (machine oneChild) (Legal oneChild) replacedTwice s ∧
      s.views.children () = [0, 2] ∧
      ¬ RunUnder (machine oneChild) (fun s c => Legal oneChild s c ∧ Meets oneChild s c)
        replacedTwice s := by
  have hexec : (((machine oneChild).restrict fun _ c => decide (c ∈ replacedTwice)).exec
      replacedTwice).map (fun s => s.views.children ()) = some [0, 2] := by decide
  obtain ⟨s, hrun, hchildren⟩ := exists_run_of_exec _ _ _ hexec
  have hlegal : RunUnder (machine oneChild) (Legal oneChild) replacedTwice s := by
    apply runUnder_of_restrict _ hrun
    intro s c hc t r hcall
    have hmem := of_decide_eq_true hc
    rw [hcall] at hmem
    rcases List.mem_cons.1 hmem with h | h
    · cases h
      decide
    · cases List.mem_singleton.1 h
      decide
  refine ⟨s, hlegal, hchildren, ?_⟩
  -- the second call should have left its replacement before the target
  intro hmeets
  obtain ⟨u, -, ⟨-, s', hst', hreplaced⟩, hst⟩ := hmeets.last
  obtain rfl : s' = s := Option.some.inj (hst'.symm.trans hst)
  have hbefore : s'.views.children () = [2, 0] := hreplaced.1 ()
  rw [hchildren] at hbefore
  cases hbefore

end IotClient.Widgets.ReplaceViewHelper
