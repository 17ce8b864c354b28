import Mathlib.Data.List.Nodup

/-! # Intrusive circular doubly linked lists

    Every node carries a `next` and a `prev` link, and a list is a ring of
    nodes through a head node. The memory holds all rings at once, so the
    operations are updates of the two link functions.

    `Seg` follows the links from one node to another through a list of
    nodes; `Ring` is the segment from a head back to itself. An operation on
    one ring writes links of that ring's nodes only, which is what the frame
    lemmas `Ring.addTail_other` and `Ring.delInit_other` say.
-/

namespace Dlist

/-- The links of all nodes. -/
structure Links (ν : Type) where
  next : ν → ν
  prev : ν → ν

namespace Links

variable {ν : Type}

/-! ### Segments and rings -/

/-- `x` is directly followed by `y`. -/
def Linked (l : Links ν) (x y : ν) : Prop :=
  l.next x = y ∧ l.prev y = x

/-- The links lead from `x` through `xs` to `y`. -/
def Seg (l : Links ν) (x : ν) (xs : List ν) (y : ν) : Prop :=
  match xs with
  | [] => l.Linked x y
  | a :: as => l.Linked x a ∧ l.Seg a as y

/-- `xs` is what the ring through `head` holds, in order. -/
structure Ring (l : Links ν) (head : ν) (xs : List ν) : Prop where
  nodup : (head :: xs).Nodup
  seg : l.Seg head xs head

/-- A segment depends on the `next` links of its nodes but the last and on
    the `prev` links of its nodes but the first. -/
theorem Seg.congr {l l' : Links ν} {x y : ν} {xs : List ν} (h : l.Seg x xs y)
    (hnext : ∀ z ∈ x :: xs, l'.next z = l.next z)
    (hprev : ∀ z ∈ y :: xs, l'.prev z = l.prev z) : l'.Seg x xs y := by
  induction xs generalizing x with
  | nil =>
    obtain ⟨h₁, h₂⟩ := h
    constructor
    · rw [hnext x (by simp), h₁]
    · rw [hprev y (by simp), h₂]
  | cons a as ih =>
    obtain ⟨⟨h₁, h₂⟩, hrest⟩ := h
    constructor
    · constructor
      · rw [hnext x (by simp), h₁]
      · rw [hprev a (by simp), h₂]
    · apply ih hrest
      · intro z hz
        exact hnext z (List.mem_cons_of_mem _ hz)
      · intro z hz
        apply hprev z
        rcases List.mem_cons.mp hz with rfl | hz
        · simp
        · simp [hz]

theorem seg_append (l : Links ν) (x y a : ν) (xs ys : List ν) :
    l.Seg x (xs ++ a :: ys) y ↔ l.Seg x xs a ∧ l.Seg a ys y := by
  induction xs generalizing x with
  | nil => simp [Seg]
  | cons b bs ih => simp [Seg, ih, and_assoc]

/-- The node before the end of a segment is one of its nodes. -/
theorem Seg.prev_mem {l : Links ν} {x y : ν} {xs : List ν} (h : l.Seg x xs y) :
    l.prev y ∈ x :: xs := by
  induction xs generalizing x with
  | nil => simp [h.2]
  | cons a as ih => exact List.mem_cons_of_mem _ (ih h.2)

/-- The node after the start of a segment is one of its nodes. -/
theorem Seg.next_mem {l : Links ν} {x y : ν} {xs : List ν} (h : l.Seg x xs y) :
    l.next x ∈ y :: xs := by
  cases xs with
  | nil => simp [h.1]
  | cons a as => simp [h.1.1]

/-- Moving the end of a segment: its last node is linked to `z` instead of `y`. -/
theorem Seg.relink_end {l l' : Links ν} {x y z : ν} {xs : List ν} (h : l.Seg x xs y)
    (hnd : (x :: xs).Nodup) (hlink : l'.Linked (l.prev y) z)
    (hnext : ∀ w ∈ x :: xs, w ≠ l.prev y → l'.next w = l.next w)
    (hprev : ∀ w ∈ xs, l'.prev w = l.prev w) : l'.Seg x xs z := by
  induction xs generalizing x with
  | nil =>
    have hx : l.prev y = x := h.2
    rw [hx] at hlink
    exact hlink
  | cons a as ih =>
    have hx : x ∉ a :: as := (List.nodup_cons.mp hnd).1
    -- `x` is not the last node, so its `next` link stays
    have hne : x ≠ l.prev y := by
      intro heq
      exact hx (heq ▸ h.2.prev_mem)
    constructor
    · constructor
      · rw [hnext x (by simp) hne, h.1.1]
      · rw [hprev a (by simp), h.1.2]
    · apply ih h.2 (List.nodup_cons.mp hnd).2
      · intro w hw
        exact hnext w (List.mem_cons_of_mem _ hw)
      · intro w hw
        exact hprev w (List.mem_cons_of_mem _ hw)

/-! ### The operations -/

variable [DecidableEq ν]

/-- Write `x->next`. -/
def setNext (l : Links ν) (x y : ν) : Links ν :=
  { l with next := fun z => if z = x then y else l.next z }

/-- Write `x->prev`. -/
def setPrev (l : Links ν) (x y : ν) : Links ν :=
  { l with prev := fun z => if z = x then y else l.prev z }

/-- Make `x` a ring of its own. -/
def init (l : Links ν) (x : ν) : Links ν :=
  (l.setNext x x).setPrev x x

/-- Link `new` in before `head`, which makes it the last node of the ring. -/
def addTail (l : Links ν) (new head : ν) : Links ν :=
  (((l.setPrev head new).setNext new head).setPrev new (l.prev head)).setNext (l.prev head) new

/-- Unlink `e` and leave it as a ring of its own. -/
def delInit (l : Links ν) (e : ν) : Links ν :=
  ((l.setPrev (l.next e) (l.prev e)).setNext (l.prev e) (l.next e)).init e

@[simp] theorem init_next (l : Links ν) (x z : ν) :
    (l.init x).next z = if z = x then x else l.next z := rfl

@[simp] theorem init_prev (l : Links ν) (x z : ν) :
    (l.init x).prev z = if z = x then x else l.prev z := rfl

@[simp] theorem addTail_next (l : Links ν) (new head z : ν) :
    (l.addTail new head).next z =
      if z = l.prev head then new else if z = new then head else l.next z := rfl

@[simp] theorem addTail_prev (l : Links ν) (new head z : ν) :
    (l.addTail new head).prev z =
      if z = new then l.prev head else if z = head then new else l.prev z := rfl

@[simp] theorem delInit_next (l : Links ν) (e z : ν) :
    (l.delInit e).next z =
      if z = e then e else if z = l.prev e then l.next e else l.next z := rfl

@[simp] theorem delInit_prev (l : Links ν) (e z : ν) :
    (l.delInit e).prev z =
      if z = e then e else if z = l.next e then l.prev e else l.prev z := rfl

/-! ### What the operations do to the rings -/

theorem ring_init (l : Links ν) (head : ν) : (l.init head).Ring head [] where
  nodup := by simp
  seg := by simp [Seg, Linked]

theorem Ring.init_other {l : Links ν} {head x : ν} {xs : List ν} (h : l.Ring head xs)
    (hx : x ∉ head :: xs) : (l.init x).Ring head xs where
  nodup := h.nodup
  seg := by
    apply h.seg.congr
    · intro z hz
      rw [init_next, if_neg (ne_of_mem_of_not_mem hz hx)]
    · intro z hz
      rw [init_prev, if_neg (ne_of_mem_of_not_mem hz hx)]

theorem Ring.addTail {l : Links ν} {head new : ν} {xs : List ν} (h : l.Ring head xs)
    (hnew : new ∉ head :: xs) : (l.addTail new head).Ring head (xs ++ [new]) := by
  have hlast : l.prev head ∈ head :: xs := h.seg.prev_mem
  have hne : l.prev head ≠ new := ne_of_mem_of_not_mem hlast hnew
  have hhead : head ≠ new := fun heq => hnew (by simp [heq])
  constructor
  · rw [← List.cons_append]
    apply List.Nodup.append h.nodup (by simp)
    simpa using hnew
  · rw [seg_append]
    constructor
    -- the old nodes: the last one now leads to `new`
    · apply h.seg.relink_end h.nodup
      · constructor <;> simp
      · intro w hw hwl
        rw [addTail_next, if_neg hwl, if_neg (ne_of_mem_of_not_mem hw hnew)]
      · intro w hw
        have hwh : w ≠ head := fun heq => (List.nodup_cons.mp h.nodup).1 (heq ▸ hw)
        rw [addTail_prev, if_neg (fun heq => hnew (by simp [← heq, hw])), if_neg hwh]
    · constructor
      · rw [addTail_next, if_neg (Ne.symm hne), if_pos rfl]
      · rw [addTail_prev, if_neg hhead, if_pos rfl]

/-- Linking a node into one ring leaves a ring that shares no node with it. -/
theorem Ring.addTail_other {l : Links ν} {head new other : ν} {xs ys : List ν}
    (h : l.Ring head xs) (ho : l.Ring other ys)
    (hdisj : ∀ z ∈ other :: ys, z ∉ head :: xs) (hnew : new ∉ other :: ys) :
    (l.addTail new head).Ring other ys where
  nodup := ho.nodup
  seg := by
    have hlast : l.prev head ∈ head :: xs := h.seg.prev_mem
    apply ho.seg.congr
    · intro z hz
      rw [addTail_next, if_neg (ne_of_mem_of_not_mem hlast (hdisj z hz)).symm,
        if_neg (ne_of_mem_of_not_mem hz hnew)]
    · intro z hz
      rw [addTail_prev, if_neg (ne_of_mem_of_not_mem hz hnew),
        if_neg (fun heq => hdisj z hz (by simp [heq]))]

theorem Ring.delInit {l : Links ν} {head e : ν} {xs ys : List ν}
    (h : l.Ring head (xs ++ e :: ys)) : (l.delInit e).Ring head (xs ++ ys) := by
  obtain ⟨hbefore, hafter⟩ := (seg_append _ _ _ _ _ _).mp h.seg
  have hnd : (head :: (xs ++ ys)).Nodup := by
    have := h.nodup
    grind
  have hexs : e ∉ head :: xs := by
    have := h.nodup
    grind
  have heys : e ∉ head :: ys := by
    have := h.nodup
    grind
  have hpe : l.prev e ∈ head :: xs := hbefore.prev_mem
  have hne : l.prev e ≠ e := ne_of_mem_of_not_mem hpe hexs
  -- the nodes before `e`, whichever node they lead to now
  have hfirst : ∀ z, l.next e = z → z ∉ xs → z ≠ e → (l.delInit e).Seg head xs z := by
    intro z hz hzx hze
    apply hbefore.relink_end (by grind)
    · constructor
      · rw [delInit_next, if_neg hne, if_pos rfl, hz]
      · rw [delInit_prev, if_neg hze, if_pos hz.symm]
    · intro w hw hwp
      rw [delInit_next, if_neg (ne_of_mem_of_not_mem hw hexs), if_neg hwp]
    · intro w hw
      rw [delInit_prev, if_neg (fun heq => hexs (by simp [← heq, hw])),
        if_neg (fun heq => hzx (by rw [← hz, ← heq]; exact hw))]
  refine ⟨hnd, ?_⟩
  cases ys with
  | nil =>
    rw [List.append_nil]
    exact hfirst head hafter.1 (by grind) (by grind)
  | cons a as =>
    rw [seg_append]
    constructor
    · exact hfirst a hafter.1.1 (by grind) (by grind)
    · apply hafter.2.congr
      · intro w hw
        rw [delInit_next, if_neg (by grind), if_neg (by grind)]
      · intro w hw
        rw [delInit_prev, if_neg (by grind), if_neg (by rw [hafter.1.1]; grind)]

/-- Unlinking a node of one ring leaves a ring that shares no node with it. -/
theorem Ring.delInit_other {l : Links ν} {head e other : ν} {xs ys zs : List ν}
    (h : l.Ring head (xs ++ e :: ys)) (ho : l.Ring other zs)
    (hdisj : ∀ z ∈ other :: zs, z ∉ head :: (xs ++ e :: ys)) :
    (l.delInit e).Ring other zs where
  nodup := ho.nodup
  seg := by
    obtain ⟨hbefore, hafter⟩ := (seg_append _ _ _ _ _ _).mp h.seg
    have hpe : l.prev e ∈ head :: (xs ++ e :: ys) := by
      have := hbefore.prev_mem
      grind
    have hne : l.next e ∈ head :: (xs ++ e :: ys) := by
      have := hafter.next_mem
      grind
    have he : e ∈ head :: (xs ++ e :: ys) := by simp
    apply ho.seg.congr
    · intro z hz
      rw [delInit_next, if_neg (ne_of_mem_of_not_mem he (hdisj z hz)).symm,
        if_neg (ne_of_mem_of_not_mem hpe (hdisj z hz)).symm]
    · intro z hz
      rw [delInit_prev, if_neg (ne_of_mem_of_not_mem he (hdisj z hz)).symm,
        if_neg (ne_of_mem_of_not_mem hne (hdisj z hz)).symm]

end Links

end Dlist
