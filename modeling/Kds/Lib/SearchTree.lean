import Mathlib.Data.List.Basic
import Mathlib.Data.List.Flatten
import Mathlib.Data.List.Nodup
import Mathlib.Data.List.Perm.Basic
import Mathlib.Order.Lattice

/-! # Multiway search trees in a store

    A tree of nodes that refer to each other by name. A node has a level,
    keys, and one slot more than keys; above level 0 a slot names a child,
    at level 0 it is a stored value.

    The in-order listing of the keys (`inorder`) carries the whole order
    invariant: a tree is ordered exactly when the listing is strictly
    increasing (`wellFormed_iff`). Operations that move keys around inside a
    subtree are therefore judged by what they do to its listing. `Focus` is
    the one-hole context: what a change inside a subtree does to the
    listing, the pages and the shape of the whole tree.
-/

namespace SearchTree

universe u v

/-- A node: slot `i` lies before key `i`, the last slot behind all keys. -/
structure Node (I : Type u) (K : Type v) where
  level : Nat
  keys : List K
  slots : List I

/-- Puts a key at position `i` and a slot behind it. -/
def Node.insertAt {I : Type u} {K : Type v} (n : Node I K) (i : Nat) (k : K) (s : I) : Node I K where
  level := n.level
  keys := n.keys.take i ++ k :: n.keys.drop i
  slots := n.slots.take (i + 1) ++ s :: n.slots.drop (i + 1)

/-- Takes out the key at position `i` and the slot behind it. -/
def Node.removeAt {I : Type u} {K : Type v} (n : Node I K) (i : Nat) : Node I K where
  level := n.level
  keys := n.keys.take i ++ n.keys.drop (i + 1)
  slots := n.slots.take (i + 1) ++ n.slots.drop (i + 2)

theorem Node.removeAt_split {I : Type u} {K : Type v} (l : Nat) {K₁ K₂ : List K} {S₁ S₂ : List I}
    (k : K) (a b : I) (h : S₁.length = K₁.length) :
    Node.removeAt ⟨l, K₁ ++ k :: K₂, S₁ ++ a :: b :: S₂⟩ K₁.length = ⟨l, K₁ ++ K₂, S₁ ++ a :: S₂⟩ := by
  have htake : (S₁ ++ a :: b :: S₂).take (S₁.length + 1) = S₁ ++ [a] := by
    rw [List.append_cons, List.take_left' (by simp)]
  have hdrop : (S₁ ++ a :: b :: S₂).drop (S₁.length + 2) = S₂ := by
    rw [List.append_cons, List.append_cons, List.drop_left' (by simp)]
  have hkeys : (K₁ ++ k :: K₂).drop (K₁.length + 1) = K₂ := by
    rw [List.append_cons, List.drop_left' (by simp)]
  rw [h] at htake hdrop
  simp [Node.removeAt, htake, hdrop, hkeys]

/-- Nodes by name. -/
abbrev Store (I : Type u) (K : Type v) := I → Node I K

variable {I : Type u} {K : Type v}

/-! ## Section 1: Interleaving -/

/-- Keys, each followed by what `f` gives for the slot behind it. -/
def behind (f : I → List K) (ks : List K) (ss : List I) : List K :=
  (ks.zip ss).flatMap fun x => x.1 :: f x.2

/-- Keys, each preceded by what `f` gives for the slot before it. -/
def before (f : I → List K) (ss : List I) (ks : List K) : List K :=
  (ss.zip ks).flatMap fun x => f x.1 ++ [x.2]

/-- The slots' lists with the keys between them. -/
def weave (f : I → List K) : List I → List K → List K
  | [], _ => []
  | s :: ss, ks => f s ++ behind f ks ss

theorem weave_cons_cons (f : I → List K) (s t : I) (ss : List I) (k : K) (ks : List K) :
    weave f (s :: t :: ss) (k :: ks) = f s ++ k :: weave f (t :: ss) ks := by
  simp [weave, behind]

theorem weave_singleton (f : I → List K) (s : I) : weave f [s] [] = f s := by
  simp [weave, behind]

/-- The listing around slot `s`. -/
theorem weave_split (f : I → List K) {s : I} {S₁ S₂ : List I} {K₁ K₂ : List K}
    (h : S₁.length = K₁.length) :
    weave f (S₁ ++ s :: S₂) (K₁ ++ K₂) = before f S₁ K₁ ++ f s ++ behind f K₂ S₂ := by
  induction S₁ generalizing K₁ with
  | nil =>
    rw [List.length_nil, eq_comm, List.length_eq_zero_iff] at h
    subst h
    simp [weave, before]
  | cons t S₁ ih =>
    obtain ⟨k, K₁, rfl⟩ := List.exists_cons_of_length_eq_add_one h.symm
    have ih := @ih K₁ (by simpa using h)
    -- the slots behind `t` start with the head of `S₁`, or with `s`
    obtain ⟨r, rs, hr⟩ : ∃ r rs, S₁ ++ s :: S₂ = r :: rs := by
      cases S₁ with
      | nil => exact ⟨s, S₂, rfl⟩
      | cons r rs => exact ⟨r, rs ++ s :: S₂, rfl⟩
    rw [hr] at ih
    rw [List.cons_append, List.cons_append, hr, weave_cons_cons, ih]
    simp [before]

/-- The listing around key `k`. -/
theorem weave_append (f : I → List K) {S₁ S₂ : List I} {k : K} {K₁ K₂ : List K}
    (h₁ : S₁.length = K₁.length + 1) (h₂ : S₂ ≠ []) :
    weave f (S₁ ++ S₂) (K₁ ++ k :: K₂) = weave f S₁ K₁ ++ k :: weave f S₂ K₂ := by
  induction S₁ generalizing K₁ with
  | nil => simp at h₁
  | cons s S₁ ih =>
    cases K₁ with
    | nil =>
      have hnil : S₁ = [] := by simpa using h₁
      subst hnil
      obtain ⟨t, ts, rfl⟩ := List.exists_cons_of_ne_nil h₂
      simp only [List.cons_append, List.nil_append]
      rw [weave_cons_cons, weave_singleton]
    | cons j K₁ =>
      obtain ⟨t, ts, rfl⟩ := List.exists_cons_of_length_eq_add_one (show S₁.length = K₁.length + 1 by
        simpa using h₁)
      have ih := @ih K₁ (by simpa using h₁)
      simp only [List.cons_append] at ih ⊢
      rw [weave_cons_cons, weave_cons_cons, ih]
      simp

theorem before_congr {f g : I → List K} {ss : List I} {ks : List K}
    (h : ∀ s ∈ ss, f s = g s) : before f ss ks = before g ss ks := by
  apply List.flatMap_congr
  intro x hx
  rw [h x.1 (List.of_mem_zip hx).1]

theorem behind_congr {f g : I → List K} {ks : List K} {ss : List I}
    (h : ∀ s ∈ ss, f s = g s) : behind f ks ss = behind g ks ss := by
  apply List.flatMap_congr
  intro x hx
  rw [h x.2 (List.of_mem_zip hx).2]

theorem weave_congr {f g : I → List K} {ss : List I} {ks : List K}
    (h : ∀ s ∈ ss, f s = g s) : weave f ss ks = weave g ss ks := by
  cases ss with
  | nil => rfl
  | cons s ss =>
    have htail : behind f ks ss = behind g ks ss :=
      behind_congr fun t ht => h t (List.mem_cons_of_mem _ ht)
    simp only [weave, htail, h s List.mem_cons_self]

theorem keys_sublist_weave {f : I → List K} {ss : List I} {ks : List K}
    (hlen : ss.length = ks.length + 1) : ks.Sublist (weave f ss ks) := by
  induction ks generalizing ss with
  | nil => exact List.nil_sublist _
  | cons k ks ih =>
    obtain ⟨s, ss, rfl⟩ := List.exists_cons_of_length_eq_add_one hlen
    rw [List.length_cons, List.length_cons, Nat.succ_inj] at hlen
    obtain ⟨t, ss, rfl⟩ := List.exists_cons_of_length_eq_add_one hlen
    rw [weave_cons_cons]
    exact ((ih hlen).cons_cons k).trans (List.sublist_append_right _ _)

theorem flatMap_sublist_weave {f : I → List K} {ss : List I} {ks : List K}
    (hlen : ss.length = ks.length + 1) : (ss.flatMap f).Sublist (weave f ss ks) := by
  induction ks generalizing ss with
  | nil =>
    obtain ⟨s, rfl⟩ := List.length_eq_one_iff.mp hlen
    rw [weave_singleton, List.flatMap_singleton]
  | cons k ks ih =>
    obtain ⟨s, ss, rfl⟩ := List.exists_cons_of_length_eq_add_one hlen
    rw [List.length_cons, List.length_cons, Nat.succ_inj] at hlen
    obtain ⟨t, ss, rfl⟩ := List.exists_cons_of_length_eq_add_one hlen
    rw [weave_cons_cons, List.flatMap_cons]
    exact (List.Sublist.refl _).append ((ih hlen).cons k)

theorem mem_weave_of_mem_keys {f : I → List K} {ss : List I} {ks : List K} {k : K}
    (hlen : ss.length = ks.length + 1) (hk : k ∈ ks) : k ∈ weave f ss ks :=
  (keys_sublist_weave hlen).subset hk

theorem mem_weave_of_mem_slot {f : I → List K} {ss : List I} {ks : List K} {s : I} {k : K}
    (hlen : ss.length = ks.length + 1) (hs : s ∈ ss) (hk : k ∈ f s) : k ∈ weave f ss ks :=
  (flatMap_sublist_weave hlen).subset (List.mem_flatMap.mpr ⟨s, hs, hk⟩)

/-- What a listing contains: the keys and the slots' lists. -/
theorem mem_weave {f : I → List K} {ss : List I} {ks : List K} {k : K}
    (h : k ∈ weave f ss ks) : k ∈ ks ∨ ∃ s ∈ ss, k ∈ f s := by
  cases ss with
  | nil => simp [weave] at h
  | cons s ss =>
    rcases List.mem_append.mp h with h | h
    · exact Or.inr ⟨s, List.mem_cons_self, h⟩
    · obtain ⟨⟨j, t⟩, hmem, hk⟩ := List.mem_flatMap.mp h
      have hzip := List.of_mem_zip hmem
      rcases List.mem_cons.mp hk with rfl | hk
      · exact Or.inl hzip.1
      · exact Or.inr ⟨t, List.mem_cons_of_mem _ hzip.2, hk⟩

/-- A list around its element `i`. -/
theorem exists_split_of_getElem? {α : Type u} {xs : List α} {i : Nat} {x : α}
    (h : xs[i]? = some x) : ∃ xs₁ xs₂, xs = xs₁ ++ x :: xs₂ ∧ xs₁.length = i := by
  obtain ⟨hlt, rfl⟩ := List.getElem?_eq_some_iff.mp h
  refine ⟨xs.take i, xs.drop (i + 1), ?_, by simp; omega⟩
  rw [← List.drop_eq_getElem_cons hlt, List.take_append_drop]

/-! ## Section 2: Trees -/

/-- The keys of the subtree of level `l` at `id`, in order. -/
def inorder (σ : Store I K) : Nat → I → List K
  | 0, id => (σ id).keys
  | l + 1, id => weave (inorder σ l) (σ id).slots (σ id).keys

/-- The nodes of the subtree. -/
def pages (σ : Store I K) : Nat → I → List I
  | 0, id => [id]
  | l + 1, id => id :: (σ id).slots.flatMap (pages σ l)

/-- The values stored in the leaves of the subtree. -/
def values (σ : Store I K) : Nat → I → List I
  | 0, id => (σ id).slots
  | l + 1, id => (σ id).slots.flatMap (values σ l)

/-- One node of the right level, with room for its keys and a slot more than keys. -/
structure NodeOk (σ : Store I K) (max l : Nat) (id : I) : Prop where
  level : (σ id).level = l
  keys_le : (σ id).keys.length ≤ max
  slots_eq : (σ id).slots.length = (σ id).keys.length + 1

/-- All nodes of the subtree are of the right form, and levels drop by one to 0. -/
def Shape (σ : Store I K) (max : Nat) : Nat → I → Prop
  | 0, id => NodeOk σ max 0 id
  | l + 1, id => NodeOk σ max (l + 1) id ∧ ∀ s ∈ (σ id).slots, Shape σ max l s

instance (σ : Store I K) (max l : Nat) (id : I) : Decidable (NodeOk σ max l id) :=
  decidable_of_iff ((σ id).level = l ∧ (σ id).keys.length ≤ max ∧
      (σ id).slots.length = (σ id).keys.length + 1)
    ⟨fun h => ⟨h.1, h.2.1, h.2.2⟩, fun h => ⟨h.level, h.keys_le, h.slots_eq⟩⟩

instance decidableShape (σ : Store I K) (max : Nat) : (l : Nat) → (id : I) →
    Decidable (Shape σ max l id)
  | 0, id => inferInstanceAs (Decidable (NodeOk σ max 0 id))
  | l + 1, id =>
      have : ∀ s, Decidable (Shape σ max l s) := fun s => decidableShape σ max l s
      inferInstanceAs (Decidable (NodeOk σ max (l + 1) id ∧ ∀ s ∈ (σ id).slots, Shape σ max l s))

theorem nodeOk_congr {σ σ' : Store I K} {max l : Nat} {id : I} (h : σ' id = σ id) :
    NodeOk σ' max l id ↔ NodeOk σ max l id := by
  constructor <;> rintro ⟨h₁, h₂, h₃⟩ <;> refine ⟨?_, ?_, ?_⟩ <;> simp_all

theorem Shape.nodeOk {σ : Store I K} {max l : Nat} {id : I} (h : Shape σ max l id) :
    NodeOk σ max l id := by
  cases l with
  | zero => exact h
  | succ l => exact h.1

theorem self_mem_pages (σ : Store I K) (l : Nat) (id : I) : id ∈ pages σ l id := by
  cases l <;> simp [pages]

theorem pages_subset_of_slot {σ : Store I K} {l : Nat} {id s : I} (hs : s ∈ (σ id).slots) :
    ∀ j ∈ pages σ l s, j ∈ pages σ (l + 1) id := by
  intro j hj
  exact List.mem_cons_of_mem _ (List.mem_flatMap.mpr ⟨s, hs, hj⟩)

theorem mem_inorder_of_mem_keys {σ : Store I K} {max l : Nat} {id : I} {key : K}
    (hshape : Shape σ max l id) (hkey : key ∈ (σ id).keys) : key ∈ inorder σ l id := by
  cases l with
  | zero => exact hkey
  | succ l => exact mem_weave_of_mem_keys hshape.nodeOk.slots_eq hkey

/-- The keys of a tree are those its nodes hold. -/
theorem mem_inorder_iff {σ : Store I K} {max : Nat} {key : K} (l : Nat) (id : I)
    (hshape : Shape σ max l id) : key ∈ inorder σ l id ↔ ∃ j ∈ pages σ l id, key ∈ (σ j).keys := by
  induction l generalizing id with
  | zero => simp [inorder, pages]
  | succ l ih =>
    constructor
    · intro h
      rcases mem_weave h with h | ⟨s, hs, h⟩
      · exact ⟨id, self_mem_pages σ (l + 1) id, h⟩
      · obtain ⟨j, hj, hkey⟩ := (ih s (hshape.2 s hs)).mp h
        exact ⟨j, pages_subset_of_slot hs j hj, hkey⟩
    · rintro ⟨j, hj, hkey⟩
      rcases List.mem_cons.mp hj with rfl | hj
      · exact mem_inorder_of_mem_keys hshape hkey
      · obtain ⟨s, hs, hj⟩ := List.mem_flatMap.mp hj
        exact mem_weave_of_mem_slot hshape.nodeOk.slots_eq hs
          ((ih s (hshape.2 s hs)).mpr ⟨j, hj, hkey⟩)

/-- A subtree depends on its own nodes only. -/
theorem subtree_congr {σ σ' : Store I K} (l : Nat) (id : I)
    (h : ∀ j ∈ pages σ l id, σ' j = σ j) :
    inorder σ' l id = inorder σ l id ∧ pages σ' l id = pages σ l id ∧
      values σ' l id = values σ l id ∧ ∀ max, Shape σ' max l id ↔ Shape σ max l id := by
  induction l generalizing id with
  | zero =>
    have h0 : σ' id = σ id := h id (by simp [pages])
    exact ⟨by simp [inorder, h0], rfl, by simp [values, h0], fun max => nodeOk_congr h0⟩
  | succ l ih =>
    have h0 : σ' id = σ id := h id (self_mem_pages _ _ _)
    have hs : ∀ s ∈ (σ id).slots, _ := fun s hs =>
      ih s fun j hj => h j (pages_subset_of_slot hs j hj)
    refine ⟨?_, ?_, ?_, fun max => ?_⟩
    · simp only [inorder, h0]
      exact weave_congr fun s hmem => (hs s hmem).1
    · simp only [pages, h0]
      congr 1
      exact List.flatMap_congr fun s hmem => (hs s hmem).2.1
    · simp only [values, h0]
      exact List.flatMap_congr fun s hmem => (hs s hmem).2.2.1
    · simp only [Shape, nodeOk_congr h0, h0]
      exact and_congr_right fun _ => forall₂_congr fun s hmem => (hs s hmem).2.2.2 max

/-! ## Section 3: Order -/

section order

variable [LinearOrder K]

/-- The keys of the slots' lists lie strictly between the neighbouring keys. -/
def Bounded (f : I → List K) (ss : List I) (ks : List K) : Prop :=
  ∀ i s, ss[i]? = some s → ∀ x ∈ f s,
    (∀ j a, i = j + 1 → ks[j]? = some a → a < x) ∧ (∀ b, ks[i]? = some b → x < b)

/-- Nodes with strictly increasing keys that bound their subtrees. -/
def Ordered (σ : Store I K) : Nat → I → Prop
  | 0, id => (σ id).keys.Pairwise (· < ·)
  | l + 1, id => (σ id).keys.Pairwise (· < ·) ∧
      Bounded (inorder σ l) (σ id).slots (σ id).keys ∧ ∀ s ∈ (σ id).slots, Ordered σ l s

/-- **Well-formed tree**: at most `max` keys in a node, levels dropping by
    one to 0 at the leaves, strictly increasing keys that strictly bound the
    subtrees between them, and no node reached twice. -/
structure WellFormed (σ : Store I K) (max l : Nat) (id : I) : Prop where
  shape : Shape σ max l id
  ordered : Ordered σ l id
  nodup : (pages σ l id).Nodup

theorem mem_behind {f : I → List K} {ks : List K} {ss : List I} {x : K}
    (hs : (behind f ks ss).Pairwise (· < ·)) (hx : x ∈ behind f ks ss) : ∃ k ∈ ks, k ≤ x := by
  obtain ⟨⟨k, s⟩, hmem, hx⟩ := List.mem_flatMap.mp hx
  refine ⟨k, (List.of_mem_zip hmem).1, ?_⟩
  obtain ⟨Z₁, Z₂, hz⟩ := List.append_of_mem hmem
  unfold behind at hs
  rw [hz, List.flatMap_append, List.flatMap_cons] at hs
  have hchunk := (List.pairwise_append.mp (List.pairwise_append.mp hs).2.1).1
  rcases List.mem_cons.mp hx with rfl | hx
  · exact le_refl _
  · exact le_of_lt ((List.pairwise_cons.mp hchunk).1 x hx)

theorem mem_before {f : I → List K} {ss : List I} {ks : List K} {x : K}
    (hs : (before f ss ks).Pairwise (· < ·)) (hx : x ∈ before f ss ks) : ∃ k ∈ ks, x ≤ k := by
  obtain ⟨⟨s, k⟩, hmem, hx⟩ := List.mem_flatMap.mp hx
  refine ⟨k, (List.of_mem_zip hmem).2, ?_⟩
  obtain ⟨Z₁, Z₂, hz⟩ := List.append_of_mem hmem
  unfold before at hs
  rw [hz, List.flatMap_append, List.flatMap_cons] at hs
  have hchunk := (List.pairwise_append.mp (List.pairwise_append.mp hs).2.1).1
  rcases List.mem_append.mp hx with hx | hx
  · exact le_of_lt ((List.pairwise_append.mp hchunk).2.2 x hx k (List.mem_singleton.mpr rfl))
  · exact le_of_eq (List.mem_singleton.mp hx)

theorem bounded_cons {f : I → List K} {s t : I} {ss : List I} {k : K} {ks : List K} :
    Bounded f (s :: t :: ss) (k :: ks) ↔
      (∀ x ∈ f s, x < k) ∧ (∀ x ∈ f t, k < x) ∧ Bounded f (t :: ss) ks := by
  constructor
  · intro h
    refine ⟨fun x hx => ?_, fun x hx => ?_, fun i u hu x hx => ⟨?_, ?_⟩⟩
    · exact (h 0 s rfl x hx).2 k rfl
    · exact (h 1 t rfl x hx).1 0 k rfl rfl
    · intro j a hj ha
      exact (h (i + 1) u hu x hx).1 (j + 1) a (by omega) ha
    · intro b hb
      exact (h (i + 1) u hu x hx).2 b hb
  · rintro ⟨h₁, h₂, h₃⟩ i u hu x hx
    cases i with
    | zero =>
      obtain rfl : s = u := by simpa using hu
      refine ⟨fun j a hj => by omega, fun b hb => ?_⟩
      obtain rfl : k = b := by simpa using hb
      exact h₁ x hx
    | succ i =>
      have hu' : (t :: ss)[i]? = some u := by simpa using hu
      refine ⟨fun j a hj ha => ?_, fun b hb => (h₃ i u hu' x hx).2 b (by simpa using hb)⟩
      obtain rfl : i = j := by omega
      cases i with
      | zero =>
        obtain rfl : t = u := by simpa using hu'
        obtain rfl : k = a := by simpa using ha
        exact h₂ x hx
      | succ i => exact (h₃ (i + 1) u hu' x hx).1 i a rfl (by simpa using ha)

/-- A listing is increasing exactly when the keys are, the slots' lists are,
    and the keys bound the lists. -/
theorem weave_sorted_iff {f : I → List K} {ss : List I} {ks : List K}
    (hlen : ss.length = ks.length + 1) :
    (weave f ss ks).Pairwise (· < ·) ↔
      ks.Pairwise (· < ·) ∧ Bounded f ss ks ∧ ∀ s ∈ ss, (f s).Pairwise (· < ·) := by
  -- one separator at a time: what is left of it, itself, what is right of it
  induction ks generalizing ss with
  | nil =>
    obtain ⟨s, rfl⟩ := List.length_eq_one_iff.mp hlen
    rw [weave_singleton]
    refine ⟨fun h => ⟨List.Pairwise.nil, ?_, by simpa using h⟩, fun h => h.2.2 s (by simp)⟩
    rintro i t ht x hx
    exact ⟨fun j a _ ha => by simp at ha, fun b hb => by simp at hb⟩
  | cons k ks ih =>
    obtain ⟨s, ss, rfl⟩ := List.exists_cons_of_length_eq_add_one hlen
    obtain ⟨t, ss, rfl⟩ := List.exists_cons_of_length_eq_add_one (show ss.length = ks.length + 1 by
      simpa using hlen)
    have ih := @ih (t :: ss) (by simpa using hlen)
    rw [weave_cons_cons, bounded_cons, List.pairwise_append, List.pairwise_cons, ih,
      List.pairwise_cons]
    constructor
    · rintro ⟨hs, ⟨hk, hks, hb, hrest⟩, hcross⟩
      refine ⟨⟨fun x hx => hk x ?_, hks⟩, ⟨fun x hx => hcross x hx k List.mem_cons_self,
        fun x hx => hk x ?_, hb⟩, ?_⟩
      · exact mem_weave_of_mem_keys (by simpa using hlen) hx
      · exact mem_weave_of_mem_slot (by simpa using hlen) List.mem_cons_self hx
      · intro u hu
        rcases List.mem_cons.mp hu with rfl | hu
        · exact hs
        · exact hrest u hu
    · rintro ⟨⟨hk, hks⟩, ⟨hsk, htk, hb⟩, hrest⟩
      have hsorted : (weave f (t :: ss) ks).Pairwise (· < ·) :=
        ih.mpr ⟨hks, hb, fun u hu => hrest u (List.mem_cons_of_mem _ hu)⟩
      -- `k` is under its right neighbour and under every later separator
      have hkall : ∀ x ∈ weave f (t :: ss) ks, k < x := by
        intro x hx
        rcases List.mem_append.mp hx with hx | hx
        · exact htk x hx
        · obtain ⟨k', hk', hle⟩ := mem_behind (List.pairwise_append.mp hsorted).2.1 hx
          exact lt_of_lt_of_le (hk k' hk') hle
      refine ⟨hrest s List.mem_cons_self, ⟨hkall, ih.mp hsorted⟩, ?_⟩
      intro x hx y hy
      rcases List.mem_cons.mp hy with rfl | hy
      · exact hsk x hx
      · exact lt_trans (hsk x hx) (hkall y hy)

/-- A tree is ordered exactly when its listing is increasing. -/
theorem ordered_iff {σ : Store I K} {max l : Nat} {id : I} (hshape : Shape σ max l id) :
    Ordered σ l id ↔ (inorder σ l id).Pairwise (· < ·) := by
  induction l generalizing id with
  | zero => exact Iff.rfl
  | succ l ih =>
    simp only [Ordered, inorder]
    rw [weave_sorted_iff hshape.nodeOk.slots_eq]
    have hsub : (∀ s ∈ (σ id).slots, Ordered σ l s) ↔
        ∀ s ∈ (σ id).slots, (inorder σ l s).Pairwise (· < ·) :=
      forall₂_congr fun s hs => ih (hshape.2 s hs)
    rw [hsub]

theorem wellFormed_iff {σ : Store I K} {max l : Nat} {id : I} :
    WellFormed σ max l id ↔
      Shape σ max l id ∧ (inorder σ l id).Pairwise (· < ·) ∧ (pages σ l id).Nodup :=
  ⟨fun h => ⟨h.shape, (ordered_iff h.shape).mp h.ordered, h.nodup⟩,
    fun h => ⟨h.1, (ordered_iff h.1).mpr h.2.1, h.2.2⟩⟩

instance [DecidableEq I] (σ : Store I K) (max l : Nat) (id : I) :
    Decidable (WellFormed σ max l id) :=
  decidable_of_iff _ wellFormed_iff.symm

end order

/-! ## Section 4: The one-hole context -/

/-- What surrounds a subtree: the keys, nodes and values before and behind it. -/
structure Context (I : Type u) (K : Type v) where
  keysL : List K
  keysR : List K
  pagesL : List I
  pagesR : List I
  valuesL : List I
  valuesR : List I

/-- The subtree of level `l` at `id` sits in the tree of level `L` at `root`
    with `c` around it, whatever is done to the subtree's own nodes. -/
structure Focus (σ : Store I K) (max L : Nat) (root : I) (l : Nat) (id : I) (c : Context I K) :
    Prop where
  inorder_eq : ∀ σ' : Store I K, (∀ j, j ∉ pages σ l id → σ' j = σ j) →
    inorder σ' L root = c.keysL ++ inorder σ' l id ++ c.keysR
  pages_eq : ∀ σ' : Store I K, (∀ j, j ∉ pages σ l id → σ' j = σ j) →
    pages σ' L root = c.pagesL ++ pages σ' l id ++ c.pagesR
  values_eq : ∀ σ' : Store I K, (∀ j, j ∉ pages σ l id → σ' j = σ j) →
    values σ' L root = c.valuesL ++ values σ' l id ++ c.valuesR
  shape : ∀ σ' : Store I K, (∀ j, j ∉ pages σ l id → σ' j = σ j) →
    Shape σ' max l id → Shape σ' max L root

theorem Focus.refl (σ : Store I K) (max L : Nat) (root : I) :
    Focus σ max L root L root ⟨[], [], [], [], [], []⟩ :=
  ⟨fun _ _ => by simp, fun _ _ => by simp, fun _ _ => by simp, fun _ _ h => h⟩

/-- The context of a child, inside the context of its node. -/
def Context.child (c : Context I K) (σ : Store I K) (l : Nat) (id : I) (S₁ S₂ : List I)
    (K₁ K₂ : List K) : Context I K where
  keysL := c.keysL ++ before (inorder σ l) S₁ K₁
  keysR := behind (inorder σ l) K₂ S₂ ++ c.keysR
  pagesL := c.pagesL ++ id :: S₁.flatMap (pages σ l)
  pagesR := S₂.flatMap (pages σ l) ++ c.pagesR
  valuesL := c.valuesL ++ S₁.flatMap (values σ l)
  valuesR := S₂.flatMap (values σ l) ++ c.valuesR

/-- The nodes of two children are different. -/
theorem children_disjoint {σ : Store I K} {l : Nat} {id s : I} {S₁ S₂ : List I}
    (hnd : (pages σ (l + 1) id).Nodup) (hslots : (σ id).slots = S₁ ++ s :: S₂) :
    id ∉ pages σ l s ∧ (pages σ l s).Nodup ∧
      ∀ t, t ∈ S₁ ∨ t ∈ S₂ → ∀ j ∈ pages σ l t, j ∉ pages σ l s := by
  simp only [pages, hslots, List.flatMap_append, List.flatMap_cons, List.nodup_cons,
    List.mem_append, not_or] at hnd
  obtain ⟨⟨_, hid, _⟩, hall⟩ := hnd
  rw [List.nodup_append] at hall
  obtain ⟨_, hright, hcross⟩ := hall
  rw [List.nodup_append] at hright
  obtain ⟨hs, _, hcross'⟩ := hright
  refine ⟨hid, hs, ?_⟩
  rintro t (ht | ht) j hj hj'
  · exact hcross j (List.mem_flatMap.mpr ⟨t, ht, hj⟩) j (List.mem_append.mpr (Or.inl hj')) rfl
  · exact hcross' j hj' j (List.mem_flatMap.mpr ⟨t, ht, hj⟩) rfl

/-- From a node's context to a child's. -/
theorem Focus.child {σ : Store I K} {max L : Nat} {root : I} {l : Nat} {id s : I}
    {c : Context I K} {S₁ S₂ : List I} {K₁ K₂ : List K}
    (h : Focus σ max L root (l + 1) id c) (hshape : Shape σ max (l + 1) id)
    (hnd : (pages σ (l + 1) id).Nodup) (hslots : (σ id).slots = S₁ ++ s :: S₂)
    (hkeys : (σ id).keys = K₁ ++ K₂) (hlen : S₁.length = K₁.length) :
    Focus σ max L root l s (c.child σ l id S₁ S₂ K₁ K₂) := by
  obtain ⟨hid, _, hother⟩ := children_disjoint hnd hslots
  have hmem : s ∈ (σ id).slots := by rw [hslots]; simp
  -- a store that differs below `s` only differs below `id` only, and agrees on the other children
  have hout : ∀ σ' : Store I K, (∀ j, j ∉ pages σ l s → σ' j = σ j) →
      ∀ j, j ∉ pages σ (l + 1) id → σ' j = σ j :=
    fun σ' hσ j hj => hσ j fun hjs => hj (pages_subset_of_slot hmem j hjs)
  have hsib : ∀ σ' : Store I K, (∀ j, j ∉ pages σ l s → σ' j = σ j) →
      ∀ t, t ∈ S₁ ∨ t ∈ S₂ → _ :=
    fun σ' hσ t ht => subtree_congr l t fun j hj => hσ j (hother t ht j hj)
  refine ⟨fun σ' hσ => ?_, fun σ' hσ => ?_, fun σ' hσ => ?_, fun σ' hσ hs => ?_⟩
  · rw [h.inorder_eq σ' (hout σ' hσ)]
    simp only [inorder, hσ id hid, hslots, hkeys, Context.child]
    rw [weave_split _ hlen]
    have hb : before (inorder σ' l) S₁ K₁ = before (inorder σ l) S₁ K₁ :=
      before_congr fun t ht => (hsib σ' hσ t (Or.inl ht)).1
    have hr : behind (inorder σ' l) K₂ S₂ = behind (inorder σ l) K₂ S₂ :=
      behind_congr fun t ht => (hsib σ' hσ t (Or.inr ht)).1
    rw [hb, hr]
    simp
  · rw [h.pages_eq σ' (hout σ' hσ)]
    have hb : S₁.flatMap (pages σ' l) = S₁.flatMap (pages σ l) :=
      List.flatMap_congr fun t ht => (hsib σ' hσ t (Or.inl ht)).2.1
    have hr : S₂.flatMap (pages σ' l) = S₂.flatMap (pages σ l) :=
      List.flatMap_congr fun t ht => (hsib σ' hσ t (Or.inr ht)).2.1
    simp only [pages, hσ id hid, hslots, List.flatMap_append, List.flatMap_cons, hb, hr,
      Context.child]
    simp
  · rw [h.values_eq σ' (hout σ' hσ)]
    have hb : S₁.flatMap (values σ' l) = S₁.flatMap (values σ l) :=
      List.flatMap_congr fun t ht => (hsib σ' hσ t (Or.inl ht)).2.2.1
    have hr : S₂.flatMap (values σ' l) = S₂.flatMap (values σ l) :=
      List.flatMap_congr fun t ht => (hsib σ' hσ t (Or.inr ht)).2.2.1
    simp only [values, hσ id hid, hslots, List.flatMap_append, List.flatMap_cons, hb, hr,
      Context.child]
    simp
  · refine h.shape σ' (hout σ' hσ) ⟨(nodeOk_congr (hσ id hid)).mpr hshape.nodeOk, ?_⟩
    intro t ht
    rw [hσ id hid] at ht
    have hst := hshape.2 t ht
    rw [hslots] at ht
    rcases List.mem_append.mp ht with ht | ht
    · exact ((hsib σ' hσ t (Or.inl ht)).2.2.2 max).mpr hst
    · rcases List.mem_cons.mp ht with rfl | ht
      · exact hs
      · exact ((hsib σ' hσ t (Or.inr ht)).2.2.2 max).mpr hst

/-! ## Section 5: Searching -/

section search

variable [LinearOrder K]

/-- The first position whose key is not smaller than `key`. -/
def position (key : K) : List K → Nat
  | [] => 0
  | k :: ks => if key ≤ k then 0 else position key ks + 1

/-- The nodes a search for `key` goes through, down to a node that holds
    `key` or to a leaf. -/
def searchPath (σ : Store I K) (key : K) : Nat → I → List I
  | 0, id => [id]
  | l + 1, id =>
      id :: if key ∈ (σ id).keys then [] else
        match (σ id).slots[position key (σ id).keys]? with
        | some s => searchPath σ key l s
        | none => []

theorem position_le (key : K) (ks : List K) : position key ks ≤ ks.length := by
  induction ks with
  | nil => simp [position]
  | cons k ks ih =>
    simp only [position]
    split
    · omega
    · simpa using ih

theorem lt_of_mem_take_position {key : K} {ks : List K} :
    ∀ k ∈ ks.take (position key ks), k < key := by
  induction ks with
  | nil => simp
  | cons j ks ih =>
    simp only [position]
    split
    · simp
    · rename_i hj
      intro k hk
      rcases List.mem_cons.mp hk with rfl | hk
      · exact not_le.mp hj
      · exact ih k hk

theorem le_of_mem_drop_position {key : K} {ks : List K} (hs : ks.Pairwise (· ≤ ·)) :
    ∀ k ∈ ks.drop (position key ks), key ≤ k := by
  induction ks with
  | nil => simp
  | cons j ks ih =>
    have hs := List.pairwise_cons.mp hs
    simp only [position]
    split
    · rename_i hj
      intro k hk
      rcases List.mem_cons.mp hk with rfl | hk
      · exact hj
      · exact le_trans hj (hs.1 k hk)
    · exact ih hs.2

theorem pairwise_insert_position {ks : List K} (hs : ks.Pairwise (· ≤ ·)) (key : K) :
    (ks.take (position key ks) ++ key :: ks.drop (position key ks)).Pairwise (· ≤ ·) := by
  have hcut := hs
  rw [← List.take_append_drop (position key ks) ks] at hcut
  obtain ⟨hl, hr, hcross⟩ := List.pairwise_append.mp hcut
  refine List.pairwise_append.mpr ⟨hl, List.pairwise_cons.mpr ⟨le_of_mem_drop_position hs, hr⟩, ?_⟩
  intro a ha b hb
  rcases List.mem_cons.mp hb with rfl | hb
  · exact le_of_lt (lt_of_mem_take_position a ha)
  · exact hcross a ha b hb

/-- The position behind key `n`: it is smaller than `key`, the next one is not. -/
theorem position_eq_succ_iff {key k : K} {ks : List K} (hs : ks.Pairwise (· ≤ ·)) :
    ∀ {n : Nat}, ks[n]? = some k →
      (position key ks = n + 1 ↔ k < key ∧ ∀ k', ks[n + 1]? = some k' → key ≤ k') := by
  induction ks with
  | nil => simp
  | cons j ks ih =>
    have hs := List.pairwise_cons.mp hs
    intro n hn
    simp only [position]
    by_cases hj : key ≤ j
    · rw [if_pos hj]
      refine iff_of_false (by omega) fun h => ?_
      rcases List.mem_cons.mp (List.mem_of_getElem? hn) with rfl | hk
      · exact absurd h.1 (not_lt.mpr hj)
      · exact absurd h.1 (not_lt.mpr (le_trans hj (hs.1 k hk)))
    · rw [if_neg hj, Nat.add_right_cancel_iff]
      cases n with
      | succ n => exact ih hs.2 (by simpa using hn)
      | zero =>
        obtain rfl : j = k := by simpa using hn
        cases ks with
        | nil => simpa [position] using hj
        | cons i ks => simp [position, not_le.mp hj]

/-- A key that is present stands at its position. -/
theorem getElem?_position {key : K} {ks : List K} (hs : ks.Pairwise (· < ·)) (hk : key ∈ ks) :
    ks[position key ks]? = some key := by
  induction ks with
  | nil => simp at hk
  | cons j ks ih =>
    have hs := List.pairwise_cons.mp hs
    simp only [position]
    rcases List.mem_cons.mp hk with rfl | hk
    · simp
    · have hlt := hs.1 key hk
      rw [if_neg (not_le.mpr hlt)]
      simpa using ih hs.2 hk

/-- The position is the number of smaller keys. -/
theorem position_eq_countP {key : K} [DecidablePred (· < key)] {ks : List K}
    (hs : ks.Pairwise (· < ·)) :
    position key ks = ks.countP (· < key) := by
  rw [← List.take_append_drop (position key ks) ks, List.countP_append,
    List.countP_eq_length.mpr, List.countP_eq_zero.mpr, List.take_append_drop, Nat.add_zero,
    List.length_take_of_le (position_le key ks)]
  · intro k hk
    simpa using le_of_mem_drop_position (hs.imp le_of_lt) k hk
  · intro k hk
    simpa using lt_of_mem_take_position k hk

/-- A smaller key is before the position. -/
theorem lt_position {key k : K} {ks : List K} (hs : ks.Pairwise (· ≤ ·)) {i : Nat}
    (hi : ks[i]? = some k) (hk : k < key) : i < position key ks := by
  by_contra hle
  have hdrop : (ks.drop (position key ks))[i - position key ks]? = some k := by
    rw [List.getElem?_drop, Nat.add_sub_cancel' (Nat.not_lt.mp hle)]
    exact hi
  exact absurd hk (not_lt.mpr (le_of_mem_drop_position hs k (List.mem_of_getElem? hdrop)))

/-- A key that is not smaller is not before the position. -/
theorem position_le_of_le {key k : K} {ks : List K} {i : Nat} (hi : ks[i]? = some k)
    (hk : key ≤ k) : position key ks ≤ i := by
  by_contra hlt
  have htake : (ks.take (position key ks))[i]? = some k := by
    rw [List.getElem?_take_of_lt (Nat.not_le.mp hlt)]
    exact hi
  exact absurd (lt_of_mem_take_position k (List.mem_of_getElem? htake)) (not_lt.mpr hk)

/-- The position is the only place between the smaller keys and the others. -/
theorem position_unique {key : K} {ks : List K} :
    ∀ {i : Nat}, i ≤ ks.length → (∀ k ∈ ks.take i, k < key) → (∀ k, ks[i]? = some k → key ≤ k) →
      position key ks = i := by
  induction ks with
  | nil =>
    intro i hi _ _
    rw [position]
    exact (Nat.le_zero.mp hi).symm
  | cons j ks ih =>
    intro i hi hlt hle
    cases i with
    | zero => rw [position, if_pos (hle j rfl)]
    | succ i =>
      have hj : j < key := hlt j (by simp)
      rw [position, if_neg (not_le.mpr hj), ih (Nat.le_of_succ_le_succ hi)]
      · exact fun k hk => hlt k (by simp [hk])
      · exact fun k hk => hle k (by simpa using hk)

/-- The position of a key that is present. -/
theorem position_of_getElem? {key : K} {ks : List K} (hs : ks.Pairwise (· < ·)) {i : Nat}
    (hi : ks[i]? = some key) : position key ks = i := by
  have hcut := hs
  rw [← List.take_append_drop i ks] at hcut
  have hdrop : (ks.drop i)[0]? = some key := by
    rw [List.getElem?_drop]
    exact hi
  have hlt := (List.getElem?_eq_some_iff.mp hi).1
  refine position_unique (Nat.le_of_lt hlt) (fun k hk => ?_) fun k hk => ?_
  · exact (List.pairwise_append.mp hcut).2.2 k hk key (List.mem_of_getElem? hdrop)
  · rw [hi] at hk
    exact le_of_eq (Option.some.inj hk)

/-- A key below slot `i` of an ordered node has position `i` there, and the
    node does not hold it. -/
theorem position_of_mem_slot {σ : Store I K} {max l i : Nat} {id t : I} {key : K}
    (hok : NodeOk σ max (l + 1) id) (hord : Ordered σ (l + 1) id)
    (ht : (σ id).slots[i]? = some t) (hkey : key ∈ inorder σ l t) :
    position key (σ id).keys = i ∧ key ∉ (σ id).keys := by
  obtain ⟨hsorted, hbounded, -⟩ := hord
  obtain ⟨hbelow, habove⟩ := hbounded i t ht key hkey
  have hi : i ≤ (σ id).keys.length := by
    have hlt := (List.getElem?_eq_some_iff.mp ht).1
    have hslots := hok.slots_eq
    omega
  have hpos : position key (σ id).keys = i := by
    refine position_unique hi (fun k hk => ?_) fun k hk => le_of_lt (habove k hk)
    obtain ⟨j, hj, rfl⟩ := List.mem_iff_getElem.mp hk
    rw [List.length_take] at hj
    rw [List.getElem_take]
    -- key `i - 1` is the largest of those before the slot
    have hlast := hbelow (i - 1) (σ id).keys[i - 1] (by omega) (List.getElem?_eq_getElem (by omega))
    rcases Nat.lt_or_ge j (i - 1) with hlt | hge
    · exact lt_trans (List.pairwise_iff_getElem.mp hsorted j (i - 1) (by omega) (by omega) hlt) hlast
    · obtain rfl : j = i - 1 := by omega
      exact hlast
  refine ⟨hpos, fun hmem => ?_⟩
  have hget := getElem?_position hsorted hmem
  rw [hpos] at hget
  exact absurd (habove key hget) (lt_irrefl key)

/-- The context of a node on the way to `key`: smaller keys before it, larger ones behind it. -/
structure Towards (key : K) (c : Context I K) : Prop where
  before_lt : ∀ a ∈ c.keysL, a < key
  behind_gt : ∀ b ∈ c.keysR, key < b

/-- The listing of a node that does not hold `key`, cut at the slot the search takes. -/
theorem descend_split {σ : Store I K} {max l : Nat} {id s : I} {key : K}
    (hshape : Shape σ max (l + 1) id) (hsorted : (inorder σ (l + 1) id).Pairwise (· < ·))
    (hkey : key ∉ (σ id).keys) (hs : (σ id).slots[position key (σ id).keys]? = some s) :
    ∃ S₁ S₂ K₁ K₂, (σ id).slots = S₁ ++ s :: S₂ ∧ (σ id).keys = K₁ ++ K₂ ∧
      S₁.length = K₁.length ∧ (∀ a ∈ before (inorder σ l) S₁ K₁, a < key) ∧
      ∀ b ∈ behind (inorder σ l) K₂ S₂, key < b := by
  obtain ⟨S₁, S₂, hslots, hS₁⟩ := exists_split_of_getElem? hs
  have hpos := position_le key (σ id).keys
  set K₁ := (σ id).keys.take (position key (σ id).keys) with hK₁
  set K₂ := (σ id).keys.drop (position key (σ id).keys) with hK₂
  have hkeys : (σ id).keys = K₁ ++ K₂ := (List.take_append_drop _ _).symm
  have hlen : S₁.length = K₁.length := by
    rw [hS₁, hK₁, List.length_take]
    omega
  have hsort := (weave_sorted_iff hshape.nodeOk.slots_eq).mp hsorted
  rw [inorder, hslots] at hsorted
  nth_rewrite 1 [hkeys] at hsorted
  rw [weave_split _ hlen] at hsorted
  obtain ⟨hleft, hright, _⟩ := List.pairwise_append.mp hsorted
  have hbefore := (List.pairwise_append.mp hleft).1
  refine ⟨S₁, S₂, K₁, K₂, hslots, hkeys, hlen, fun a ha => ?_, fun b hb => ?_⟩
  · obtain ⟨k, hk, hle⟩ := mem_before hbefore ha
    exact lt_of_le_of_lt hle (lt_of_mem_take_position k hk)
  · obtain ⟨k, hk, hle⟩ := mem_behind hright hb
    have hkk := le_of_mem_drop_position (hsort.1.imp le_of_lt) k hk
    have hne : key ≠ k := fun he => hkey (he ▸ List.mem_of_mem_drop hk)
    exact lt_of_lt_of_le (lt_of_le_of_ne hkk hne) hle

/-- A step of the descent. -/
theorem Focus.descend {σ : Store I K} {max L : Nat} {root : I} {l : Nat} {id s : I}
    {c : Context I K} {key : K} (h : Focus σ max L root (l + 1) id c) (ht : Towards key c)
    (hshape : Shape σ max (l + 1) id) (hnd : (pages σ (l + 1) id).Nodup)
    (hsorted : (inorder σ (l + 1) id).Pairwise (· < ·)) (hkey : key ∉ (σ id).keys)
    (hs : (σ id).slots[position key (σ id).keys]? = some s) :
    ∃ c', Focus σ max L root l s c' ∧ Towards key c' := by
  obtain ⟨S₁, S₂, K₁, K₂, hslots, hkeys, hlen, hlt, hgt⟩ := descend_split hshape hsorted hkey hs
  refine ⟨_, h.child hshape hnd hslots hkeys hlen, ?_⟩
  constructor
  · intro a ha
    rcases List.mem_append.mp ha with ha | ha
    · exact ht.before_lt a ha
    · exact hlt a ha
  · intro b hb
    rcases List.mem_append.mp hb with hb | hb
    · exact hgt b hb
    · exact ht.behind_gt b hb

/-- A key that a node does not hold is below it exactly when it is below the
    slot the search takes. -/
theorem mem_inorder_descend {σ : Store I K} {max l : Nat} {id s : I} {key : K}
    (hshape : Shape σ max (l + 1) id) (hord : Ordered σ (l + 1) id) (hkey : key ∉ (σ id).keys)
    (hs : (σ id).slots[position key (σ id).keys]? = some s) :
    key ∈ inorder σ (l + 1) id ↔ key ∈ inorder σ l s := by
  obtain ⟨S₁, S₂, K₁, K₂, hslots, hkeys, hlen, hlt, hgt⟩ :=
    descend_split hshape ((ordered_iff hshape).mp hord) hkey hs
  rw [inorder, hslots, hkeys, weave_split _ hlen, List.mem_append, List.mem_append]
  constructor
  · rintro ((h | h) | h)
    · exact absurd (hlt key h) (lt_irrefl key)
    · exact h
    · exact absurd (hgt key h) (lt_irrefl key)
  · exact fun h => Or.inl (Or.inr h)

/-- A subtree of a well-formed tree, in its context. -/
theorem Focus.wellFormed {σ : Store I K} {max L : Nat} {root : I} {l : Nat} {id : I}
    {c : Context I K} (h : Focus σ max L root l id c) (hwf : WellFormed σ max L root) :
    (inorder σ l id).Pairwise (· < ·) ∧ (pages σ l id).Nodup := by
  obtain ⟨_, hsorted, hnd⟩ := wellFormed_iff.mp hwf
  rw [h.inorder_eq σ fun _ _ => rfl] at hsorted
  rw [h.pages_eq σ fun _ _ => rfl] at hnd
  exact ⟨(List.pairwise_append.mp (List.pairwise_append.mp hsorted).1).2.1,
    (List.nodup_append.mp (List.nodup_append.mp hnd).1).2.1⟩

/-- A search in a node that does not hold the key finds a slot to follow. -/
theorem exists_slot_of_position {σ : Store I K} {max l : Nat} {id : I} (h : NodeOk σ max l id)
    (key : K) : ∃ s, (σ id).slots[position key (σ id).keys]? = some s := by
  have hpos := position_le key (σ id).keys
  have := h.slots_eq
  exact ⟨_, List.getElem?_eq_getElem (show position key (σ id).keys < (σ id).slots.length by omega)⟩

theorem searchPath_ne_nil (σ : Store I K) (key : K) (l : Nat) (id : I) :
    searchPath σ key l id ≠ [] := by
  cases l <;> simp [searchPath]

/-- The path from a node that does not hold the key: the node, then the path from the child. -/
theorem searchPath_descend {σ : Store I K} {key : K} {l : Nat} {id s : I}
    (hkey : key ∉ (σ id).keys) (hs : (σ id).slots[position key (σ id).keys]? = some s) :
    searchPath σ key (l + 1) id = id :: searchPath σ key l s := by
  simp [searchPath, hkey, hs]

theorem searchPath_found {σ : Store I K} {key : K} {l : Nat} {id : I} (hkey : key ∈ (σ id).keys) :
    searchPath σ key l id = [id] := by
  cases l <;> simp [searchPath, hkey]

/-- Induction along a search path: at the node where the search stops, and from a child to its node. -/
@[elab_as_elim]
theorem search_induction {σ : Store I K} {max : Nat} (key : K) {motive : Nat → I → Prop}
    (hstop : ∀ l id, Shape σ max l id → searchPath σ key l id = [id] →
      key ∈ (σ id).keys ∨ l = 0 → motive l id)
    (hstep : ∀ l id s, Shape σ max (l + 1) id → key ∉ (σ id).keys →
      (σ id).slots[position key (σ id).keys]? = some s →
      searchPath σ key (l + 1) id = id :: searchPath σ key l s → motive l s → motive (l + 1) id)
    (l : Nat) (id : I) (hshape : Shape σ max l id) : motive l id := by
  induction l generalizing id with
  | zero => exact hstop 0 id hshape rfl (Or.inr rfl)
  | succ l ih =>
    by_cases hkey : key ∈ (σ id).keys
    · exact hstop (l + 1) id hshape (searchPath_found hkey) (Or.inl hkey)
    · obtain ⟨s, hs⟩ := exists_slot_of_position hshape.nodeOk key
      exact hstep l id s hshape hkey hs (searchPath_descend hkey hs)
        (ih s (hshape.2 s (List.mem_of_getElem? hs)))

/-- Every node on a search path, in its context. -/
theorem focus_of_searchPath {σ : Store I K} {max L : Nat} {root : I} (key : K)
    (hwf : WellFormed σ max L root) (l : Nat) (id : I) (hshape : Shape σ max l id) :
    ∀ c, Focus σ max L root l id c → Towards key c →
      ∀ i n, (searchPath σ key l id)[i]? = some n →
        i ≤ l ∧ Shape σ max (l - i) n ∧ ∃ c', Focus σ max L root (l - i) n c' ∧ Towards key c' := by
  refine search_induction key ?_ ?_ l id hshape
  · intro l id hshape hpath _ c hf ht i n hn
    rw [hpath] at hn
    obtain ⟨rfl, rfl⟩ : i = 0 ∧ id = n := by
      cases i <;> simp_all
    exact ⟨Nat.zero_le _, hshape, c, hf, ht⟩
  · intro l id s hshape hkey hs hpath ih c hf ht i n hn
    obtain ⟨hsorted, hnd⟩ := hf.wellFormed hwf
    obtain ⟨c', hf', ht'⟩ := hf.descend ht hshape hnd hsorted hkey hs
    rw [hpath] at hn
    cases i with
    | zero =>
      obtain rfl : id = n := by simpa using hn
      exact ⟨Nat.zero_le _, hshape, c, hf, ht⟩
    | succ i =>
      obtain ⟨hle, h⟩ := ih c' hf' ht' i n (by simpa using hn)
      rw [Nat.add_sub_add_right]
      exact ⟨by omega, h⟩

theorem searchPath_head (σ : Store I K) (key : K) (l : Nat) (id : I) :
    (searchPath σ key l id)[0]? = some id := by
  cases l <;> simp [searchPath]

/-- The nodes of a search path: of the tree, one level down at each step, in order. -/
theorem node_of_searchPath {σ : Store I K} {max : Nat} (key : K) (l : Nat) (id : I)
    (hshape : Shape σ max l id) :
    Ordered σ l id → ∀ i n, (searchPath σ key l id)[i]? = some n →
      n ∈ pages σ l id ∧ NodeOk σ max (l - i) n ∧ (σ n).keys.Pairwise (· < ·) := by
  have hsorted : ∀ l id, Ordered σ l id → (σ id).keys.Pairwise (· < ·) := by
    intro l id hord
    cases l with
    | zero => exact hord
    | succ l => exact hord.1
  refine search_induction key ?_ ?_ l id hshape
  · intro l id hshape hpath _ hord i n hn
    rw [hpath] at hn
    obtain ⟨rfl, rfl⟩ : i = 0 ∧ id = n := by
      cases i <;> simp_all
    exact ⟨self_mem_pages σ l id, hshape.nodeOk, hsorted l id hord⟩
  · intro l id s hshape hkey hs hpath ih hord i n hn
    rw [hpath] at hn
    have hmem := List.mem_of_getElem? hs
    cases i with
    | zero =>
      obtain rfl : id = n := by simpa using hn
      exact ⟨self_mem_pages σ (l + 1) id, hshape.nodeOk, hord.1⟩
    | succ i =>
      obtain ⟨hpage, hok, hkeys⟩ := ih (hord.2.2 s hmem) i n (by simpa using hn)
      rw [Nat.add_sub_add_right]
      exact ⟨pages_subset_of_slot hmem n hpage, hok, hkeys⟩

/-- Consecutive nodes of a search path. -/
theorem searchPath_link {σ : Store I K} {max : Nat} (key : K) (l : Nat) (id : I)
    (hshape : Shape σ max l id) :
    ∀ i n m, (searchPath σ key l id)[i]? = some n → (searchPath σ key l id)[i + 1]? = some m →
      key ∉ (σ n).keys ∧ (σ n).slots[position key (σ n).keys]? = some m := by
  refine search_induction key ?_ ?_ l id hshape
  · intro l id _ hpath _ i n m _ hm
    rw [hpath] at hm
    simp at hm
  · intro l id s _ hkey hs hpath ih i n m hn hm
    rw [hpath] at hn hm
    cases i with
    | zero =>
      obtain rfl : id = n := by simpa using hn
      rw [List.getElem?_cons_succ, searchPath_head] at hm
      exact ⟨hkey, hm ▸ hs⟩
    | succ i => exact ih i n m (by simpa using hn) (by simpa using hm)

/-- A search path ends where the key is, or at a leaf. -/
theorem searchPath_last {σ : Store I K} {max : Nat} (key : K) (l : Nat) (id : I)
    (hshape : Shape σ max l id) :
    ∃ pre n, searchPath σ key l id = pre ++ [n] ∧ (key ∈ (σ n).keys ∨ pre.length = l) := by
  refine search_induction key ?_ ?_ l id hshape
  · intro l id _ hpath hstop
    refine ⟨[], id, hpath, ?_⟩
    rcases hstop with h | rfl
    · exact Or.inl h
    · exact Or.inr rfl
  · intro l id s _ _ _ hpath ih
    obtain ⟨pre, n, hpre, hend⟩ := ih
    exact ⟨id :: pre, n, by rw [hpath, hpre]; rfl, hend.imp_right fun h => by simp [h]⟩

theorem length_searchPath_le {σ : Store I K} {max : Nat} (key : K) (l : Nat) (id : I)
    (hshape : Shape σ max l id) : (searchPath σ key l id).length ≤ l + 1 := by
  refine search_induction key ?_ ?_ l id hshape
  · intro l id _ hpath _
    rw [hpath, List.length_singleton]
    omega
  · intro l id s _ _ _ hpath ih
    rw [hpath, List.length_cons]
    omega

/-- The node where the search for `key` stops. -/
def searchEnd (σ : Store I K) (key : K) (l : Nat) (id : I) : I :=
  (searchPath σ key l id).getLast (searchPath_ne_nil σ key l id)

theorem searchEnd_eq {σ : Store I K} {key : K} {l : Nat} {id n : I} {pre : List I}
    (h : searchPath σ key l id = pre ++ [n]) : searchEnd σ key l id = n := by
  simp [searchEnd, h]

/-- A key is in the tree exactly when the node its search stops at holds it. -/
theorem mem_inorder_iff_last {σ : Store I K} {max : Nat} {key : K} (l : Nat) (id : I)
    (hshape : Shape σ max l id) :
    Ordered σ l id → ∀ {pre n}, searchPath σ key l id = pre ++ [n] →
      (key ∈ inorder σ l id ↔ key ∈ (σ n).keys) := by
  refine search_induction key ?_ ?_ l id hshape
  · intro l id hshape hpath hstop _ pre n hpre
    rw [hpath] at hpre
    obtain ⟨rfl, rfl⟩ : pre = [] ∧ id = n := by
      cases pre <;> simp_all
    refine ⟨fun h => ?_, mem_inorder_of_mem_keys hshape⟩
    rcases hstop with hkey | rfl
    · exact hkey
    · exact h
  · intro l id s hshape hkey hs hpath ih hord pre n hpre
    rw [hpath] at hpre
    cases pre with
    | nil => exact absurd (List.cons.inj hpre).2 (searchPath_ne_nil σ key l s)
    | cons i pre =>
      rw [mem_inorder_descend hshape hord hkey hs]
      exact ih (hord.2.2 s (List.mem_of_getElem? hs)) (List.cons.inj hpre).2

/-- The keys the nodes at depth `d` hold. -/
def keysAt (σ : Store I K) : Nat → Nat → I → List K
  | 0, _, id => (σ id).keys
  | d + 1, l + 1, id => (σ id).slots.flatMap (keysAt σ d l)
  | _ + 1, 0, _ => []

omit [LinearOrder K] in
/-- The keys at one depth are listed in the order of the whole tree. -/
theorem keysAt_sublist_inorder {σ : Store I K} {max : Nat} (d : Nat) :
    ∀ {l : Nat} {id : I}, Shape σ max l id → (keysAt σ d l id).Sublist (inorder σ l id) := by
  induction d with
  | zero =>
    intro l id hshape
    cases l with
    | zero => exact List.Sublist.refl _
    | succ l => exact keys_sublist_weave hshape.nodeOk.slots_eq
  | succ d ih =>
    intro l id hshape
    cases l with
    | zero => exact List.nil_sublist _
    | succ l =>
      exact (List.Sublist.flatMap_right _ fun t ht => ih (hshape.2 t ht)).trans
        (flatMap_sublist_weave hshape.nodeOk.slots_eq)

omit [LinearOrder K] in
theorem mem_inorder_of_mem_keysAt {σ : Store I K} {max : Nat} {key : K} (d : Nat) {l : Nat} {id : I}
    (hshape : Shape σ max l id) (hkey : key ∈ keysAt σ d l id) : key ∈ inorder σ l id :=
  (keysAt_sublist_inorder d hshape).subset hkey

/-- The keys below a node are below the slot at their position. -/
theorem mem_keysAt_descend {σ : Store I K} {max d l : Nat} {id s : I} {key : K}
    (hshape : Shape σ max (l + 1) id) (hord : Ordered σ (l + 1) id)
    (hs : (σ id).slots[position key (σ id).keys]? = some s) :
    key ∈ keysAt σ (d + 1) (l + 1) id ↔ key ∈ keysAt σ d l s := by
  constructor
  · intro h
    obtain ⟨t, ht, hkey⟩ := List.mem_flatMap.mp h
    obtain ⟨i, hi, rfl⟩ := List.mem_iff_getElem.mp ht
    have hget := List.getElem?_eq_getElem hi
    have hmem := mem_inorder_of_mem_keysAt d (hshape.2 _ ht) hkey
    obtain ⟨hpos, -⟩ := position_of_mem_slot hshape.nodeOk hord hget hmem
    rw [hpos, hget] at hs
    exact Option.some.inj hs ▸ hkey
  · exact fun h => List.mem_flatMap.mpr ⟨s, List.mem_of_getElem? hs, h⟩

/-- A key of a tree is held at the depth where its search stops, and at no other. -/
theorem mem_keysAt_iff {σ : Store I K} {max : Nat} {key : K} (l : Nat) (id : I)
    (hshape : Shape σ max l id) :
    Ordered σ l id → ∀ {pre n} (d : Nat), searchPath σ key l id = pre ++ [n] →
      (key ∈ keysAt σ d l id ↔ pre.length = d ∧ key ∈ (σ n).keys) := by
  refine search_induction key ?_ ?_ l id hshape
  · intro l id hshape hpath hstop hord pre n d hpre
    rw [hpath] at hpre
    obtain ⟨rfl, rfl⟩ : pre = [] ∧ id = n := by
      cases pre <;> simp_all
    cases d with
    | zero => simp [keysAt]
    | succ d =>
      refine iff_of_false (fun h => ?_) (by simp)
      cases l with
      | zero => exact absurd h List.not_mem_nil
      | succ l =>
        obtain ⟨t, ht, hkey⟩ := List.mem_flatMap.mp h
        obtain ⟨i, hi, rfl⟩ := List.mem_iff_getElem.mp ht
        have hmem := mem_inorder_of_mem_keysAt d (hshape.2 _ ht) hkey
        obtain ⟨-, hnot⟩ :=
          position_of_mem_slot hshape.nodeOk hord (List.getElem?_eq_getElem hi) hmem
        exact hnot (hstop.resolve_right (Nat.succ_ne_zero l))
  · intro l id s hshape hkey hs hpath ih hord pre n d hpre
    rw [hpath] at hpre
    cases pre with
    | nil => exact absurd (List.cons.inj hpre).2 (searchPath_ne_nil σ key l s)
    | cons i pre =>
      cases d with
      | zero => simp [keysAt, hkey]
      | succ d =>
        rw [mem_keysAt_descend hshape hord hs,
          ih (hord.2.2 s (List.mem_of_getElem? hs)) d (List.cons.inj hpre).2, List.length_cons,
          Nat.add_right_cancel_iff]

end search

/-! ## Section 6: Rewriting a subtree -/

/-- The nodes of a chain of slots from the root, each in its context and
    outside the subtrees of the later ones. -/
theorem focus_of_chain {σ : Store I K} {max L m : Nat} {root : I} {path : Nat → I}
    (hshape : Shape σ max L root) (hnd : (pages σ L root).Nodup) (hroot : path 0 = root)
    (hlink : ∀ i < m, path (i + 1) ∈ (σ (path i)).slots) (hm : m ≤ L) :
    ∀ i ≤ m, Shape σ max (L - i) (path i) ∧ (pages σ (L - i) (path i)).Nodup ∧
      (∃ c, Focus σ max L root (L - i) (path i) c) ∧
      ∀ j < i, path j ∉ pages σ (L - i) (path i) := by
  intro i hi
  induction i with
  | zero =>
    rw [Nat.sub_zero, hroot]
    exact ⟨hshape, hnd, ⟨_, Focus.refl σ max L root⟩, fun j hj => absurd hj (Nat.not_lt_zero j)⟩
  | succ i ih =>
    obtain ⟨hs, hn, ⟨c, hf⟩, hnot⟩ := ih (by omega)
    have hslot := hlink i (by omega)
    obtain ⟨l, hl⟩ : ∃ l, L - i = l + 1 := ⟨L - (i + 1), by omega⟩
    rw [show L - (i + 1) = l by omega]
    rw [hl] at hs hn hf hnot
    obtain ⟨S₁, S₂, hslots⟩ := List.append_of_mem hslot
    obtain ⟨hid, hnd', _⟩ := children_disjoint hn hslots
    have hkeys := (List.take_append_drop S₁.length (σ (path i)).keys).symm
    have hlen : S₁.length = ((σ (path i)).keys.take S₁.length).length := by
      have := hs.nodeOk.slots_eq
      rw [hslots, List.length_append, List.length_cons] at this
      rw [List.length_take]
      omega
    refine ⟨hs.2 _ hslot, hnd', ⟨_, hf.child hs hn hslots hkeys hlen⟩, fun j hj hmem => ?_⟩
    rcases Nat.lt_succ_iff_lt_or_eq.mp hj with hj | rfl
    · exact hnot j hj (pages_subset_of_slot hslot _ hmem)
    · exact hid hmem

/-- The listing around a run of slots and the keys between them. -/
theorem weave_segment (f : I → List K) {S₁ M S₂ : List I} {K₁ KM K₂ : List K}
    (h₁ : S₁.length = K₁.length) (hM : M.length = KM.length + 1) :
    weave f (S₁ ++ M ++ S₂) (K₁ ++ KM ++ K₂) =
      before f S₁ K₁ ++ weave f M KM ++ behind f K₂ S₂ := by
  obtain ⟨t, ts, rfl⟩ := List.exists_cons_of_length_eq_add_one hM
  have hzip : behind f (KM ++ K₂) (ts ++ S₂) = behind f KM ts ++ behind f K₂ S₂ := by
    unfold behind
    rw [List.zip_append (by simpa using hM.symm), List.flatMap_append]
  rw [List.append_assoc, List.append_assoc, List.cons_append, weave_split f h₁, hzip]
  simp [weave]

/-- From `σ` to `σ'` the subtree at `id` is rewritten into one with listing
    `ks`, out of its own nodes and with the same first slot at the top. -/
structure Rewritten (σ σ' : Store I K) (max l : Nat) (id : I) (ks : List K) : Prop where
  outside : ∀ j, j ∉ pages σ l id → σ' j = σ j
  inorder_eq : inorder σ' l id = ks
  shape : Shape σ' max l id
  subset : ∀ j ∈ pages σ' l id, j ∈ pages σ l id
  nodup : (pages σ' l id).Nodup
  head : (σ' id).slots.head? = (σ id).slots.head?

theorem Rewritten.refl {σ : Store I K} {max l : Nat} {id : I} (hshape : Shape σ max l id)
    (hnd : (pages σ l id).Nodup) : Rewritten σ σ max l id (inorder σ l id) :=
  ⟨fun _ _ => rfl, rfl, hshape, fun _ h => h, hnd, rfl⟩

theorem Rewritten.trans {σ σ' σ'' : Store I K} {max l : Nat} {id : I} {ks ks' : List K}
    (h : Rewritten σ σ' max l id ks) (h' : Rewritten σ' σ'' max l id ks') :
    Rewritten σ σ'' max l id ks' := by
  refine ⟨fun j hj => ?_, h'.inorder_eq, h'.shape, fun j hj => h.subset j (h'.subset j hj),
    h'.nodup, h'.head.trans h.head⟩
  rw [h'.outside j fun hj' => hj (h.subset j hj'), h.outside j hj]

/-- A rewritten subtree, seen from the root. -/
theorem Rewritten.lift {σ σ' : Store I K} {max L l : Nat} {root id : I} {c : Context I K}
    {ks : List K} (h : Rewritten σ σ' max l id ks) (hf : Focus σ max L root l id c)
    (hnd : (pages σ L root).Nodup) (htop : (l = L ∧ id = root) ∨ root ∉ pages σ l id) :
    Rewritten σ σ' max L root (c.keysL ++ ks ++ c.keysR) := by
  have hold := hf.pages_eq σ fun _ _ => rfl
  have hnew := hf.pages_eq σ' h.outside
  refine ⟨fun j hj => h.outside j fun hj' => hj ?_, ?_, hf.shape σ' h.outside h.shape, ?_, ?_, ?_⟩
  · rw [hold]; simp [hj']
  · rw [hf.inorder_eq σ' h.outside, h.inorder_eq]
  · intro j hj
    rw [hnew] at hj
    rw [hold]
    simp only [List.mem_append] at hj ⊢
    exact hj.imp_left fun hj => hj.imp_right (h.subset j)
  · rw [hold] at hnd
    rw [hnew]
    obtain ⟨hlm, hr, hcross⟩ := List.nodup_append.mp hnd
    obtain ⟨hl, _, hcross'⟩ := List.nodup_append.mp hlm
    refine List.nodup_append.mpr ⟨List.nodup_append.mpr ⟨hl, h.nodup, ?_⟩, hr, ?_⟩
    · exact fun a ha b hb => hcross' a ha b (h.subset b hb)
    · intro a ha b hb
      refine hcross a ?_ b hb
      simp only [List.mem_append] at ha ⊢
      exact ha.imp_right (h.subset a)
  · rcases htop with ⟨rfl, rfl⟩ | hroot
    · exact h.head
    · rw [h.outside root hroot]

/-- The children `M` of a node, with the keys between them, are replaced by `M'`. -/
theorem rewritten_segment {σ σ' : Store I K} {max l : Nat} {id : I} {S₁ M M' S₂ : List I}
    {K₁ KM KM' K₂ : List K} (hshape : Shape σ max (l + 1) id) (hnd : (pages σ (l + 1) id).Nodup)
    (hold : σ id = ⟨l + 1, K₁ ++ KM ++ K₂, S₁ ++ M ++ S₂⟩)
    (hnew : σ' id = ⟨l + 1, K₁ ++ KM' ++ K₂, S₁ ++ M' ++ S₂⟩)
    (h₁ : S₁.length = K₁.length) (hM : M.length = KM.length + 1)
    (hM' : M'.length = KM'.length + 1) (hmax : (K₁ ++ KM' ++ K₂).length ≤ max)
    (hout : ∀ j, j ≠ id → j ∉ M.flatMap (pages σ l) → σ' j = σ j)
    (hshape' : ∀ t ∈ M', Shape σ' max l t)
    (hsub : ∀ j ∈ M'.flatMap (pages σ' l), j ∈ M.flatMap (pages σ l))
    (hnd' : (M'.flatMap (pages σ' l)).Nodup)
    (hhead : (S₁ ++ M' ++ S₂).head? = (S₁ ++ M ++ S₂).head?) :
    inorder σ (l + 1) id = before (inorder σ l) S₁ K₁ ++ weave (inorder σ l) M KM ++
        behind (inorder σ l) K₂ S₂ ∧
      Rewritten σ σ' max (l + 1) id (before (inorder σ l) S₁ K₁ ++ weave (inorder σ' l) M' KM' ++
        behind (inorder σ l) K₂ S₂) := by
  have hpages : pages σ (l + 1) id = id :: (S₁.flatMap (pages σ l) ++ M.flatMap (pages σ l) ++
      S₂.flatMap (pages σ l)) := by
    simp [pages, hold]
  rw [hpages, List.nodup_cons] at hnd
  obtain ⟨hid, hnd⟩ := hnd
  obtain ⟨hlm, hr, hcross⟩ := List.nodup_append.mp hnd
  obtain ⟨hl, _, hcross'⟩ := List.nodup_append.mp hlm
  simp only [List.mem_append, not_or] at hid
  -- the other children are as they were
  have hsib : ∀ t, t ∈ S₁ ∨ t ∈ S₂ → ∀ j ∈ pages σ l t, σ' j = σ j := by
    rintro t ht j hj
    refine hout j ?_ ?_
    · rintro rfl
      rcases ht with ht | ht
      · exact hid.1.1 (List.mem_flatMap.mpr ⟨t, ht, hj⟩)
      · exact hid.2 (List.mem_flatMap.mpr ⟨t, ht, hj⟩)
    · intro hm
      rcases ht with ht | ht
      · exact hcross' j (List.mem_flatMap.mpr ⟨t, ht, hj⟩) j hm rfl
      · exact hcross j (List.mem_append.mpr (Or.inr hm)) j (List.mem_flatMap.mpr ⟨t, ht, hj⟩) rfl
  have hcongr : ∀ t, t ∈ S₁ ∨ t ∈ S₂ → _ := fun t ht => subtree_congr l t (hsib t ht)
  have hpages₁ : S₁.flatMap (pages σ' l) = S₁.flatMap (pages σ l) :=
    List.flatMap_congr fun t ht => (hcongr t (Or.inl ht)).2.1
  have hpages₂ : S₂.flatMap (pages σ' l) = S₂.flatMap (pages σ l) :=
    List.flatMap_congr fun t ht => (hcongr t (Or.inr ht)).2.1
  have hpages' : pages σ' (l + 1) id = id :: (S₁.flatMap (pages σ l) ++ M'.flatMap (pages σ' l) ++
      S₂.flatMap (pages σ l)) := by
    simp [pages, hnew, hpages₁, hpages₂]
  refine ⟨by rw [inorder, hold, weave_segment _ h₁ hM], ⟨fun j hj => ?_, ?_, ⟨⟨?_, ?_, ?_⟩, ?_⟩, ?_,
    ?_, ?_⟩⟩
  · rw [hpages] at hj
    simp only [List.mem_cons, List.mem_append, not_or] at hj
    exact hout j hj.1 hj.2.1.2
  · rw [inorder, hnew, weave_segment _ h₁ hM']
    have hb : before (inorder σ' l) S₁ K₁ = before (inorder σ l) S₁ K₁ :=
      before_congr fun t ht => (hcongr t (Or.inl ht)).1
    have hr : behind (inorder σ' l) K₂ S₂ = behind (inorder σ l) K₂ S₂ :=
      behind_congr fun t ht => (hcongr t (Or.inr ht)).1
    rw [hb, hr]
  · rw [hnew]
  · rw [hnew]; exact hmax
  · have := hshape.nodeOk.slots_eq
    rw [hold] at this
    rw [hnew]
    simp only [List.length_append] at this ⊢
    omega
  · intro t ht
    have hst : t ∈ S₁ ∨ t ∈ S₂ → Shape σ' max l t := fun h =>
      ((hcongr t h).2.2.2 max).mpr (hshape.2 t (by rw [hold]; rcases h with h | h <;> simp [h]))
    rw [hnew] at ht
    simp only [List.mem_append] at ht
    rcases ht with (ht | ht) | ht
    · exact hst (Or.inl ht)
    · exact hshape' t ht
    · exact hst (Or.inr ht)
  · intro j hj
    rw [hpages'] at hj
    rw [hpages]
    simp only [List.mem_cons, List.mem_append] at hj ⊢
    exact hj.imp_right fun hj => hj.imp_left fun hj => hj.imp_right (hsub j)
  · rw [hpages', List.nodup_cons]
    refine ⟨?_, List.nodup_append.mpr ⟨List.nodup_append.mpr ⟨hl, hnd', ?_⟩, hr, ?_⟩⟩
    · simp only [List.mem_append, not_or]
      exact ⟨⟨hid.1.1, fun h => hid.1.2 (hsub id h)⟩, hid.2⟩
    · exact fun a ha b hb => hcross' a ha b (hsub b hb)
    · intro a ha b hb
      refine hcross a ?_ b hb
      simp only [List.mem_append] at ha ⊢
      exact ha.imp_right (hsub a)
  · rw [hnew, hold]; exact hhead

/-! ### Two neighbouring children -/

section neighbours

variable {σ σ' : Store I K} {max l : Nat} {id a b : I} {S₁ S₂ : List I} {K₁ K₂ : List K} {s : K}

theorem pages_neighbours (σ : Store I K) (l : Nat) (a b : I) :
    ([a, b].flatMap (pages σ (l + 1))).Perm
      (a :: b :: ((σ a).slots ++ (σ b).slots).flatMap (pages σ l)) := by
  simp only [List.flatMap_cons, List.flatMap_nil, List.append_nil, pages, List.flatMap_append,
    List.cons_append]
  exact List.Perm.cons _ List.perm_middle

/-- When only two neighbouring children and their parent change, the change
    stays inside the children's subtrees and nothing below them changes. -/
theorem neighbours_congr (hnd : (pages σ (l + 2) id).Nodup)
    (hold : σ id = ⟨l + 2, K₁ ++ s :: K₂, S₁ ++ a :: b :: S₂⟩)
    (hother : ∀ j, j ≠ id → j ≠ a → j ≠ b → σ' j = σ j) :
    (a :: b :: ((σ a).slots ++ (σ b).slots).flatMap (pages σ l)).Nodup ∧
      (∀ t ∈ (σ a).slots ++ (σ b).slots, ∀ j ∈ pages σ l t, σ' j = σ j) ∧
      ∀ j, j ≠ id → j ∉ [a, b].flatMap (pages σ (l + 1)) → σ' j = σ j := by
  have hpages : pages σ (l + 2) id = id :: (S₁.flatMap (pages σ (l + 1)) ++
      [a, b].flatMap (pages σ (l + 1)) ++ S₂.flatMap (pages σ (l + 1))) := by
    simp [pages, hold]
  rw [hpages, List.nodup_cons] at hnd
  obtain ⟨hid, hnd⟩ := hnd
  have hpair := (List.nodup_append.mp (List.nodup_append.mp hnd).1).2.1
  have hperm := pages_neighbours σ l a b
  have hnd' := hperm.nodup_iff.mp hpair
  refine ⟨hnd', fun t ht j hj => ?_, fun j hj hmem => hother j hj ?_ ?_⟩
  · have hmem : j ∈ ((σ a).slots ++ (σ b).slots).flatMap (pages σ l) :=
      List.mem_flatMap.mpr ⟨t, ht, hj⟩
    obtain ⟨hja, hnd''⟩ := List.nodup_cons.mp hnd'
    apply hother j
    · rintro rfl
      apply hid
      have := hperm.mem_iff.mpr (List.mem_cons_of_mem _ (List.mem_cons_of_mem _ hmem))
      simp only [List.mem_append]
      exact Or.inl (Or.inr this)
    · rintro rfl
      exact hja (List.mem_cons_of_mem _ hmem)
    · rintro rfl
      exact (List.nodup_cons.mp hnd'').1 hmem
  · rintro rfl
    exact hmem (hperm.mem_iff.mpr List.mem_cons_self)
  · rintro rfl
    exact hmem (hperm.mem_iff.mpr (List.mem_cons_of_mem _ List.mem_cons_self))

/-- The listing of two neighbours is that of all their slots and keys, with the separator. -/
theorem weave_neighbours (σ : Store I K) {max l : Nat} {a b : I} (s : K)
    (ha : NodeOk σ max (l + 1) a) (hb : NodeOk σ max (l + 1) b) :
    weave (inorder σ (l + 1)) [a, b] [s] =
      weave (inorder σ l) ((σ a).slots ++ (σ b).slots) ((σ a).keys ++ s :: (σ b).keys) := by
  have hne : (σ b).slots ≠ [] := by
    intro h0
    have := hb.slots_eq
    rw [h0] at this
    simp at this
  rw [weave_cons_cons, weave_singleton, weave_append _ ha.slots_eq hne]
  rfl

/-- Keys and slots moved between two neighbours and their separator. -/
theorem rewritten_redistribute {s' : K} {AK BK : List K} {AS BS : List I}
    (hshape : Shape σ max (l + 2) id) (hnd : (pages σ (l + 2) id).Nodup)
    (hold : σ id = ⟨l + 2, K₁ ++ s :: K₂, S₁ ++ a :: b :: S₂⟩) (h₁ : S₁.length = K₁.length)
    (hother : ∀ j, j ≠ id → j ≠ a → j ≠ b → σ' j = σ j)
    (hnew : σ' id = ⟨l + 2, K₁ ++ s' :: K₂, S₁ ++ a :: b :: S₂⟩)
    (ha : σ' a = ⟨l + 1, AK, AS⟩) (hb : σ' b = ⟨l + 1, BK, BS⟩)
    (hkeys : (σ a).keys ++ s :: (σ b).keys = AK ++ s' :: BK)
    (hslots : (σ a).slots ++ (σ b).slots = AS ++ BS) (hA : AS.length = AK.length + 1)
    (hB : BS.length = BK.length + 1) (hAmax : AK.length ≤ max) (hBmax : BK.length ≤ max) :
    Rewritten σ σ' max (l + 2) id (inorder σ (l + 2) id) := by
  obtain ⟨hnd', hbelow, hout⟩ := neighbours_congr hnd hold hother
  have hsa : Shape σ max (l + 1) a := hshape.2 a (by rw [hold]; simp)
  have hsb : Shape σ max (l + 1) b := hshape.2 b (by rw [hold]; simp)
  have hslots' : (σ' a).slots ++ (σ' b).slots = (σ a).slots ++ (σ b).slots := by
    rw [ha, hb, hslots]
  have hcongr : ∀ t ∈ (σ a).slots ++ (σ b).slots, _ := fun t ht => subtree_congr l t (hbelow t ht)
  have hsub : ∀ t ∈ (σ a).slots ++ (σ b).slots, Shape σ' max l t := by
    intro t ht
    refine ((hcongr t ht).2.2.2 max).mpr ?_
    rcases List.mem_append.mp ht with ht | ht
    · exact hsa.2 t ht
    · exact hsb.2 t ht
  rw [hslots] at hsub
  have hsa' : Shape σ' max (l + 1) a := by
    refine ⟨⟨by rw [ha], by rw [ha]; exact hAmax, by rw [ha]; exact hA⟩, fun t ht => ?_⟩
    rw [ha] at ht
    exact hsub t (List.mem_append.mpr (Or.inl ht))
  have hsb' : Shape σ' max (l + 1) b := by
    refine ⟨⟨by rw [hb], by rw [hb]; exact hBmax, by rw [hb]; exact hB⟩, fun t ht => ?_⟩
    rw [hb] at ht
    exact hsub t (List.mem_append.mpr (Or.inr ht))
  -- the nodes below the two children are the same, in another grouping
  have hpages : ([a, b].flatMap (pages σ' (l + 1))).Perm ([a, b].flatMap (pages σ (l + 1))) := by
    refine (pages_neighbours σ' l a b).trans ((pages_neighbours σ l a b).trans ?_).symm
    rw [hslots', List.flatMap_congr fun t ht => (hcongr t ht).2.1]
  have hnodup := (hpages.trans (pages_neighbours σ l a b)).nodup_iff.mpr hnd'
  have hold' : σ id = ⟨l + 1 + 1, K₁ ++ [s] ++ K₂, S₁ ++ [a, b] ++ S₂⟩ := by rw [hold]; simp
  have hnew' : σ' id = ⟨l + 1 + 1, K₁ ++ [s'] ++ K₂, S₁ ++ [a, b] ++ S₂⟩ := by rw [hnew]; simp
  have hmax : (K₁ ++ [s'] ++ K₂).length ≤ max := by
    have := hshape.nodeOk.keys_le
    rw [hold] at this
    simpa using this
  obtain ⟨hin, hrew⟩ := rewritten_segment hshape hnd hold' hnew' h₁ rfl rfl hmax hout
    (by simpa using ⟨hsa', hsb'⟩) (fun j hj => hpages.mem_iff.mp hj) hnodup rfl
  have hseg : weave (inorder σ' (l + 1)) [a, b] [s'] = weave (inorder σ (l + 1)) [a, b] [s] := by
    rw [weave_neighbours σ' s' hsa'.nodeOk hsb'.nodeOk,
      weave_neighbours σ s hsa.nodeOk hsb.nodeOk, hslots', ha, hb, hkeys]
    exact weave_congr fun t ht => (hcongr t ht).1
  rw [hin, ← hseg]
  exact hrew

/-- The right one of two neighbours merged into the left one. -/
theorem rewritten_merge (hshape : Shape σ max (l + 2) id) (hnd : (pages σ (l + 2) id).Nodup)
    (hold : σ id = ⟨l + 2, K₁ ++ s :: K₂, S₁ ++ a :: b :: S₂⟩) (h₁ : S₁.length = K₁.length)
    (hother : ∀ j, j ≠ id → j ≠ a → j ≠ b → σ' j = σ j)
    (hnew : σ' id = ⟨l + 2, K₁ ++ K₂, S₁ ++ a :: S₂⟩)
    (ha : σ' a = ⟨l + 1, (σ a).keys ++ s :: (σ b).keys, (σ a).slots ++ (σ b).slots⟩)
    (hfit : (σ a).keys.length + (σ b).keys.length < max) :
    Rewritten σ σ' max (l + 2) id (inorder σ (l + 2) id) := by
  obtain ⟨hnd', hbelow, hout⟩ := neighbours_congr hnd hold hother
  have hsa : Shape σ max (l + 1) a := hshape.2 a (by rw [hold]; simp)
  have hsb : Shape σ max (l + 1) b := hshape.2 b (by rw [hold]; simp)
  have hcongr : ∀ t ∈ (σ a).slots ++ (σ b).slots, _ := fun t ht => subtree_congr l t (hbelow t ht)
  -- the merged node has both nodes' slots, whose subtrees were not touched
  have hsa' : Shape σ' max (l + 1) a := by
    refine ⟨⟨by rw [ha], ?_, ?_⟩, fun t ht => ?_⟩
    · rw [ha]
      simp only [List.length_append, List.length_cons]
      omega
    · have h₁ := hsa.nodeOk.slots_eq
      have h₂ := hsb.nodeOk.slots_eq
      rw [ha]
      simp only [List.length_append, List.length_cons]
      omega
    · rw [ha] at ht
      refine ((hcongr t ht).2.2.2 max).mpr ?_
      rcases List.mem_append.mp ht with ht | ht
      · exact hsa.2 t ht
      · exact hsb.2 t ht
  have hpages : pages σ' (l + 1) a = a :: ((σ a).slots ++ (σ b).slots).flatMap (pages σ l) := by
    simp only [pages, ha]
    rw [List.flatMap_congr fun t ht => (hcongr t ht).2.1]
  -- no page is gained: `b` drops out
  have hsub : ∀ j ∈ [a].flatMap (pages σ' (l + 1)), j ∈ [a, b].flatMap (pages σ (l + 1)) := by
    intro j hj
    rw [List.flatMap_singleton, hpages] at hj
    rw [(pages_neighbours σ l a b).mem_iff]
    rcases List.mem_cons.mp hj with rfl | hj
    · exact List.mem_cons_self
    · exact List.mem_cons_of_mem _ (List.mem_cons_of_mem _ hj)
  have hnodup : ([a].flatMap (pages σ' (l + 1))).Nodup := by
    rw [List.flatMap_singleton, hpages]
    obtain ⟨hna, hnb⟩ := List.nodup_cons.mp hnd'
    exact List.nodup_cons.mpr ⟨fun h => hna (List.mem_cons_of_mem _ h), (List.nodup_cons.mp hnb).2⟩
  have hold' : σ id = ⟨l + 1 + 1, K₁ ++ [s] ++ K₂, S₁ ++ [a, b] ++ S₂⟩ := by rw [hold]; simp
  have hnew' : σ' id = ⟨l + 1 + 1, K₁ ++ [] ++ K₂, S₁ ++ [a] ++ S₂⟩ := by rw [hnew]; simp
  have hmax : (K₁ ++ [] ++ K₂).length ≤ max := by
    have := hshape.nodeOk.keys_le
    rw [hold] at this
    simp only [List.length_append, List.length_cons, List.length_nil] at this ⊢
    omega
  have hhead : (S₁ ++ [a] ++ S₂).head? = (S₁ ++ [a, b] ++ S₂).head? := by cases S₁ <;> rfl
  obtain ⟨hin, hrew⟩ := rewritten_segment hshape hnd hold' hnew' h₁ rfl rfl hmax hout
    (by simpa using hsa') hsub hnodup hhead
  -- the two nodes with their separator read as the merged node does
  have hseg : weave (inorder σ' (l + 1)) [a] [] = weave (inorder σ (l + 1)) [a, b] [s] := by
    rw [weave_neighbours σ s hsa.nodeOk hsb.nodeOk, weave_singleton, inorder, ha]
    exact weave_congr fun t ht => (hcongr t ht).1
  rw [hin, ← hseg]
  exact hrew

/-- Two neighbouring leaves and their separator replaced by leaves and
    separators made out of the leaves' keys: the old separator is lost. -/
theorem separator_lost {M : List I} {KM : List K} (hshape : Shape σ max 1 id)
    (hnd : (pages σ 1 id).Nodup) (hkeys : (inorder σ 1 id).Nodup)
    (hold : σ id = ⟨1, K₁ ++ s :: K₂, S₁ ++ a :: b :: S₂⟩) (h₁ : S₁.length = K₁.length)
    (hother : ∀ j, j ≠ id → j ≠ a → j ≠ b → σ' j = σ j)
    (hnew : σ' id = ⟨1, K₁ ++ KM ++ K₂, S₁ ++ M ++ S₂⟩) (hM : M.length = KM.length + 1)
    (hsub : M.Sublist [a, b]) (hhead : M.head? = some a) (hleaf : ∀ t ∈ M, NodeOk σ' max 0 t)
    (hKM : ∀ k ∈ KM, k ∈ (σ a).keys ++ (σ b).keys)
    (hof : ∀ t ∈ M, ∀ k ∈ (σ' t).keys, k ∈ (σ a).keys ++ (σ b).keys) :
    ∃ ks, Rewritten σ σ' max 1 id ks ∧ s ∉ ks := by
  have hflat : ∀ (τ : Store I K) (ss : List I), ss.flatMap (pages τ 0) = ss := by
    intro τ ss
    simp [pages]
  have hold' : σ id = ⟨0 + 1, K₁ ++ [s] ++ K₂, S₁ ++ [a, b] ++ S₂⟩ := by rw [hold]; simp
  have hpair : [a, b].Nodup := by
    have hpages : pages σ 1 id = id :: (S₁ ++ [a, b] ++ S₂) := by
      simp [pages, hold]
    rw [hpages] at hnd
    exact (List.nodup_append.mp (List.nodup_append.mp (List.nodup_cons.mp hnd).2).1).2.1
  have hmax : (K₁ ++ KM ++ K₂).length ≤ max := by
    have hle := hshape.nodeOk.keys_le
    have hlen := hsub.length_le
    rw [hold] at hle
    simp only [List.length_append, List.length_cons, List.length_nil] at hle hlen ⊢
    omega
  have hout : ∀ j, j ≠ id → j ∉ [a, b].flatMap (pages σ 0) → σ' j = σ j := by
    intro j hj hmem
    rw [hflat] at hmem
    simp only [List.mem_cons, List.not_mem_nil, or_false, not_or] at hmem
    exact hother j hj hmem.1 hmem.2
  have hhead' : (S₁ ++ M ++ S₂).head? = (S₁ ++ [a, b] ++ S₂).head? := by
    cases S₁ with
    | cons t S₁ => rfl
    | nil =>
      obtain ⟨ts, rfl⟩ := List.head?_eq_some_iff.mp hhead
      rfl
  obtain ⟨hin, hrew⟩ := rewritten_segment hshape hnd hold' hnew h₁ rfl hM hmax hout hleaf
    (by rw [hflat, hflat]; exact fun j hj => hsub.subset hj) (by rw [hflat]; exact hpair.sublist hsub)
    hhead'
  refine ⟨_, hrew, fun hs => ?_⟩
  -- in the old listing the separator stands once, between the two leaves
  rw [hin, weave_cons_cons, weave_singleton, List.append_assoc, List.append_assoc, List.cons_append] at hkeys
  obtain ⟨_, hright, hleft⟩ := List.nodup_append.mp hkeys
  obtain ⟨_, hright, hmid⟩ := List.nodup_append.mp hright
  obtain ⟨hbehind, _⟩ := List.nodup_cons.mp hright
  simp only [List.mem_append, not_or] at hbehind
  rcases List.mem_append.mp hs with hs | hs
  · rcases List.mem_append.mp hs with hs | hs
    · exact hleft s hs s (by simp) rfl
    · have hs' : s ∈ (σ a).keys ++ (σ b).keys := by
        rcases mem_weave hs with hs | ⟨t, ht, hs⟩
        · exact hKM s hs
        · exact hof t ht s hs
      rcases List.mem_append.mp hs' with hs' | hs'
      · exact hmid s hs' s List.mem_cons_self rfl
      · exact hbehind.1 hs'
  · exact hbehind.2 hs

/-- A key taken out of a node above the leaves, with the slot behind it. -/
theorem rewritten_removeAt {key : K} (hshape : Shape σ max (l + 1) id)
    (hnd : (pages σ (l + 1) id).Nodup)
    (hold : σ id = ⟨l + 1, K₁ ++ key :: K₂, S₁ ++ a :: b :: S₂⟩) (h₁ : S₁.length = K₁.length)
    (hother : ∀ j, j ≠ id → σ' j = σ j)
    (hnew : σ' id = ⟨l + 1, K₁ ++ K₂, S₁ ++ a :: S₂⟩) :
    ∃ xs ys, inorder σ (l + 1) id = xs ++ key :: (inorder σ l b ++ ys) ∧
      Rewritten σ σ' max (l + 1) id (xs ++ ys) := by
  have hold' : σ id = ⟨l + 1, K₁ ++ [key] ++ K₂, S₁ ++ [a, b] ++ S₂⟩ := by rw [hold]; simp
  have hnew' : σ' id = ⟨l + 1, K₁ ++ [] ++ K₂, S₁ ++ [a] ++ S₂⟩ := by rw [hnew]; simp
  have hmax : (K₁ ++ [] ++ K₂).length ≤ max := by
    have := hshape.nodeOk.keys_le
    rw [hold] at this
    simp only [List.length_append, List.length_cons, List.length_nil] at this ⊢
    omega
  have hsa : (σ id).slots = S₁ ++ a :: (b :: S₂) := by rw [hold]
  obtain ⟨hid, hnda, _⟩ := children_disjoint hnd hsa
  have hcongr := subtree_congr l a fun j hj => hother j (by rintro rfl; exact hid hj)
  obtain ⟨hin, hrew⟩ := rewritten_segment hshape hnd hold' hnew' h₁ rfl rfl hmax
    (fun j hj _ => hother j hj)
    (by simpa using (hcongr.2.2.2 max).mpr (hshape.2 a (by rw [hsa]; simp)))
    (fun j hj => by
      rw [List.flatMap_singleton, hcongr.2.1] at hj
      simp [hj])
    (by rw [List.flatMap_singleton, hcongr.2.1]; exact hnda) (by cases S₁ <;> rfl)
  refine ⟨before (inorder σ l) S₁ K₁ ++ inorder σ l a, behind (inorder σ l) K₂ S₂, ?_, ?_⟩
  · rw [hin, weave_cons_cons, weave_singleton]
    simp
  · rwa [weave_singleton, hcongr.1] at hrew

/-- A changed leaf. -/
theorem rewritten_leaf (hnew : NodeOk σ' max 0 id) (hother : ∀ j, j ≠ id → σ' j = σ j)
    (hhead : (σ' id).slots.head? = (σ id).slots.head?) :
    Rewritten σ σ' max 0 id (σ' id).keys :=
  ⟨fun j hj => hother j (by simpa [pages] using hj), rfl, hnew, fun _ h => h, by simp [pages], hhead⟩

end neighbours

end SearchTree
