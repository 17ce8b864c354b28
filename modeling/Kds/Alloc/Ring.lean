import Kds.Meta
import Kds.Lib.Fifo
import Kds.Lib.Lts

/-! # The pre-allocation ring

    `page_alloc.c`: frames of new pages wait in a ring of
    `PRE_ALLOC_RING_BUFFER_SIZE` entries until `kds_page_alloc` hands them
    out. One producer, `kds_proc_prealloc`, refills the ring through
    `kds_batch_alloc`; consumers may come in between any two of its steps.

    A step is what happens under `g_alloc->lock`, or one unlocked access: the
    producer sizes its batch without the lock and creates every page outside
    of it. `ProducerPc` is where the producer stands.

    The queue and its refill are separate. `Fifo.Holds` says what is in the
    ring, and all the producer relies on is that nobody else adds to it: the
    room it has seen once only grows until it uses it.
-/

namespace Kds

/-! ## Section 1: The ring -/

@[simp] def PRE_ALLOC_RING_BUFFER_SIZE : UInt64 := 128

@[simp] def PRE_ALLOC_PAGE_THRES : UInt64 := 32

/-- The ring part of `kds_page_allocator_t`; `none` is a `NULL` entry. -/
structure Allocator (F : Type) where
  reserved : UInt64
  cursor : UInt64
  ring : Nat → Option F

namespace Allocator

variable {F : Type}

def kds_ring_is_full (g : Allocator F) : Bool :=
  (g.reserved + 1) % PRE_ALLOC_RING_BUFFER_SIZE == g.cursor

def kds_ring_count (g : Allocator F) : UInt64 :=
  (g.reserved - g.cursor + PRE_ALLOC_RING_BUFFER_SIZE) % PRE_ALLOC_RING_BUFFER_SIZE

def kds_ring_free_slots (g : Allocator F) : UInt64 :=
  PRE_ALLOC_RING_BUFFER_SIZE - 1 - g.kds_ring_count

def ring_push (g : Allocator F) (frame : F) : Allocator F where
  ring := Function.update g.ring g.reserved.toNat (some frame)
  reserved := (g.reserved + 1) % PRE_ALLOC_RING_BUFFER_SIZE
  cursor := g.cursor

/-- `kds_page_alloc` up to `unlock_g_alloc()`: the pointer it returns. -/
def kds_page_alloc (g : Allocator F) : Option F × Allocator F :=
  if g.kds_ring_count = 0 then (none, g)
  else
    (g.ring g.cursor.toNat,
      { g with
        ring := Function.update g.ring g.cursor.toNat none
        cursor := (g.cursor + 1) % PRE_ALLOC_RING_BUFFER_SIZE })

end Allocator

/-- `kds_init_g_alloc`. -/
def kds_init_g_alloc (F : Type) : Allocator F where
  reserved := 0
  cursor := 0
  ring := fun _ => none

/-! ## Section 2: Producer and consumers -/

/-- Where the producer stands. -/
inductive ProducerPc (F : Type) where
  /-- Between two calls. -/
  | idle
  /-- `kds_batch_alloc(count)` is about to read the ring. -/
  | batch (count : UInt64)
  /-- At the loop test, `i` pages done. -/
  | create (base : PageId) (want i : UInt64)
  /-- Page `base + i` is created, its frame is about to be pushed. -/
  | push (base : PageId) (want i : UInt64) (frame : F)

/-- The frame of a page that is created and not pushed yet. -/
def ProducerPc.frame {F : Type} : ProducerPc F → List F
  | .push _ _ _ frame => [frame]
  | _ => []

/-- The allocator, and what has happened to it. -/
structure AllocSys (F : Type) where
  alloc : Allocator F
  superblock : Option Superblock
  pc : ProducerPc F
  /-- `g_pool->free_frames`. -/
  free : List F
  /-- Frames that calls of `kds_buf_lookup_or_load` or failing calls of
      `kds_buf_alloc_new` have taken. -/
  loading : List F
  /-- The ids of all batches. Not part of the program. -/
  drawn : List PageId
  /-- The frames pushed, with the ids of their pages. Not part of the program. -/
  pushed : List (F × PageId)
  /-- What `kds_page_alloc` has returned from a ring that was not empty. Not part of the program. -/
  returned : List (Option F)

/-- A call of `kds_page_alloc`. -/
def AllocSys.consume {F : Type} (s : AllocSys F) : AllocSys F :=
  if s.alloc.kds_ring_count = 0 then s
  else
    { s with
      alloc := s.alloc.kds_page_alloc.2
      returned := s.returned ++ [s.alloc.kds_page_alloc.1] }

/-- The first part of `kds_batch_alloc`: the size of the batch and its ids. -/
def AllocSys.startBatch {F : Type} (s : AllocSys F) (count : UInt64) : AllocSys F :=
  let want := min count s.alloc.kds_ring_free_slots
  if count = 0 ∨ want = 0 then { s with pc := .idle }
  else
    let base := batchBase (alloc_page_id_batch want s.superblock).1
    { s with
      superblock := (alloc_page_id_batch want s.superblock).2
      pc := .create base want 0
      drawn := s.drawn ++ idRange base want }

/-- The end of a turn of the loop. A full ring ends the batch early. -/
def AllocSys.pushFrame {F : Type} (s : AllocSys F) (base : PageId) (want i : UInt64) (frame : F) :
    AllocSys F :=
  if s.alloc.kds_ring_is_full then { s with pc := .idle }
  else
    { s with
      alloc := s.alloc.ring_push frame
      pc := .create base want (i + 1)
      pushed := s.pushed ++ [(frame, base + i)] }

inductive AllocAct where
  | consume
  | prealloc
  | batch (count : UInt64)
  | produce
  | pool

/-- One step. `kds_buf_alloc_new` succeeds with the first frame of the free
    list; the pool serves other calls too, and a frame they cannot use goes
    back to the end of that list. -/
inductive AllocStep {F : Type} : AllocSys F → AllocAct → AllocSys F → Prop where
  | consume {s : AllocSys F} : AllocStep s .consume s.consume
  | prealloc {s : AllocSys F} : s.pc = .idle →
      AllocStep s .prealloc
        (if s.alloc.kds_ring_count < PRE_ALLOC_PAGE_THRES then
          { s with pc := .batch (PRE_ALLOC_RING_BUFFER_SIZE - s.alloc.kds_ring_count) }
        else s)
  | batch {s : AllocSys F} {count : UInt64} : s.pc = .idle →
      AllocStep s (.batch count) { s with pc := .batch count }
  | size {s : AllocSys F} {count : UInt64} : s.pc = .batch count →
      AllocStep s .produce (s.startBatch count)
  | create {s : AllocSys F} {base : PageId} {want i : UInt64} {frame : F} {free : List F} :
      s.pc = .create base want i → i < want → s.free = frame :: free →
      AllocStep s .produce { s with pc := .push base want i frame, free := free }
  | finish {s : AllocSys F} {base : PageId} {want i : UInt64} :
      s.pc = .create base want i → ¬ i < want → AllocStep s .produce { s with pc := .idle }
  | push {s : AllocSys F} {base : PageId} {want i : UInt64} {frame : F} :
      s.pc = .push base want i frame → AllocStep s .produce (s.pushFrame base want i frame)
  | take {s : AllocSys F} {frame : F} {free : List F} : s.free = frame :: free →
      AllocStep s .pool { s with free := free, loading := s.loading ++ [frame] }
  | giveBack {s : AllocSys F} {frame : F} {before after : List F} :
      s.loading = before ++ frame :: after →
      AllocStep s .pool { s with free := s.free ++ [frame], loading := before ++ after }
  | keep {s : AllocSys F} {frame : F} {before after : List F} :
      s.loading = before ++ frame :: after →
      AllocStep s .pool { s with loading := before ++ after }

/-- From an empty ring on, with the frames of the pool on its free list. -/
def allocSystem (F : Type) : Lts.System (AllocSys F) AllocAct where
  init := fun s => ∃ sb free, List.Nodup free ∧ s =
    { alloc := kds_init_g_alloc F
      superblock := sb
      pc := .idle
      free := free
      loading := []
      drawn := []
      pushed := []
      returned := [] }
  step := AllocStep

/-! ## Section 3: The ring holds a queue -/

/-- The frames waiting in the ring. -/
def Allocator.Queue {F : Type} (g : Allocator F) (xs : List F) : Prop :=
  Fifo.Holds g.ring PRE_ALLOC_RING_BUFFER_SIZE.toNat g.cursor.toNat g.reserved.toNat xs

section Queue

variable {F : Type} {g : Allocator F} {x : F} {xs : List F}

theorem kds_init_g_alloc_queue : (kds_init_g_alloc F).Queue [] :=
  Fifo.holds_nil (show (0 : UInt64).toNat < (128 : UInt64).toNat by decide)

theorem Allocator.Queue.length_lt (h : g.Queue xs) : xs.length < 128 :=
  Fifo.Holds.length_lt h

/-- The 64-bit count is exact: the ring size divides `2^64`. -/
theorem Allocator.Queue.count (h : g.Queue xs) : g.kds_ring_count.toNat = xs.length := by
  have hc : g.cursor.toNat < 128 := Fifo.Holds.cursor_lt h
  have hr : g.reserved.toNat < 128 := Fifo.Holds.reserved_lt h
  have hcount : (g.reserved.toNat + 128 - g.cursor.toNat) % 128 = xs.length := Fifo.Holds.count h
  unfold Allocator.kds_ring_count
  rw [UInt64.toNat_mod, UInt64.toNat_add, UInt64.toNat_sub]
  simp only [PRE_ALLOC_RING_BUFFER_SIZE, UInt64.reduceToNat]
  omega

theorem Allocator.Queue.count_eq_zero (h : g.Queue xs) : g.kds_ring_count = 0 ↔ xs = [] := by
  rw [← UInt64.toNat_inj, h.count, UInt64.toNat_zero, List.length_eq_zero_iff]

theorem Allocator.Queue.free_slots (h : g.Queue xs) :
    g.kds_ring_free_slots.toNat = 127 - xs.length := by
  have hlen := h.length_lt
  have hcount := h.count
  unfold Allocator.kds_ring_free_slots
  rw [UInt64.toNat_sub, UInt64.toNat_sub, hcount]
  simp only [PRE_ALLOC_RING_BUFFER_SIZE, UInt64.reduceToNat]
  omega

theorem toNat_next (i : UInt64) :
    ((i + 1) % PRE_ALLOC_RING_BUFFER_SIZE).toNat = (i.toNat + 1) % 128 := by
  rw [UInt64.toNat_mod, UInt64.toNat_add]
  simp only [PRE_ALLOC_RING_BUFFER_SIZE, UInt64.reduceToNat]
  omega

theorem toNat_min_le (a b : UInt64) : (min a b).toNat ≤ b.toNat := by
  have hmin : min a b = if a ≤ b then a else b := rfl
  rw [hmin]
  split
  · next hle => exact UInt64.le_iff_toNat_le.mp hle
  · exact Nat.le_refl _

theorem Allocator.Queue.is_full (h : g.Queue xs) :
    g.kds_ring_is_full = true ↔ xs.length = 127 := by
  have hfull : (g.reserved.toNat + 1) % 128 = g.cursor.toNat ↔ xs.length + 1 = 128 :=
    Fifo.Holds.full_iff h
  unfold Allocator.kds_ring_is_full
  rw [beq_iff_eq, ← UInt64.toNat_inj, toNat_next, hfull]
  omega

theorem Allocator.Queue.ring_push (h : g.Queue xs) (hroom : xs.length < 127) (x : F) :
    (g.ring_push x).Queue (xs ++ [x]) := by
  unfold Allocator.Queue Allocator.ring_push
  rw [toNat_next]
  exact Fifo.Holds.push h (show xs.length + 1 < 128 by omega) x

theorem Allocator.Queue.page_alloc (h : g.Queue (x :: xs)) :
    g.kds_page_alloc.1 = some x ∧ g.kds_page_alloc.2.Queue xs := by
  have hne : ¬ g.kds_ring_count = 0 := by
    rw [h.count_eq_zero]
    exact List.cons_ne_nil x xs
  obtain ⟨hfirst, hrest⟩ := Fifo.Holds.pop h
  unfold Allocator.kds_page_alloc
  rw [if_neg hne]
  constructor
  · exact hfirst
  · unfold Allocator.Queue
    rw [toNat_next]
    exact hrest

/-- An empty ring is the only reason for a `NULL`. -/
theorem Allocator.Queue.page_alloc_none (h : g.Queue xs) (hnone : g.kds_page_alloc.1 = none) :
    xs = [] := by
  cases xs with
  | nil => rfl
  | cons x xs =>
    rw [h.page_alloc.1] at hnone
    exact absurd hnone (Option.some_ne_none x)

end Queue

/-! ## Section 4: What every state keeps -/

section System

variable {F : Type} {s s' : AllocSys F} {xs : List F}

/-- The ids of a batch whose first `i` pages are in the ring. -/
def openIds (base : PageId) (want i : UInt64) : List PageId :=
  (idRange base want).drop i.toNat

/-- What the producer knows. The room for the rest of its batch is there
    from the start: consumers only make more. -/
def ProducerInv (s : AllocSys F) (waiting : Nat) : Prop :=
  match s.pc with
  | .idle => s.drawn = s.pushed.map Prod.snd
  | .batch _ => s.drawn = s.pushed.map Prod.snd
  | .create base want i =>
      i.toNat ≤ want.toNat ∧ waiting + (want.toNat - i.toNat) ≤ 127 ∧
        s.drawn = s.pushed.map Prod.snd ++ openIds base want i
  | .push base want i _ =>
      i.toNat < want.toNat ∧ waiting + (want.toNat - i.toNat) ≤ 127 ∧
        s.drawn = s.pushed.map Prod.snd ++ openIds base want i

/-- The frames that are nobody else's. -/
def AllocSys.frames (s : AllocSys F) : List F :=
  s.free ++ s.loading ++ s.pc.frame ++ s.pushed.map Prod.fst

structure AllocInv (s : AllocSys F) (xs : List F) : Prop where
  queue : s.alloc.Queue xs
  /-- What was pushed has been returned or waits, in this order. -/
  order : s.pushed.map (fun p => some p.1) = s.returned ++ xs.map some
  nodup : s.frames.Nodup
  pc : ProducerInv s xs.length

theorem openIds_zero (base : PageId) (want : UInt64) : openIds base want 0 = idRange base want := rfl

theorem openIds_end {base : PageId} {want i : UInt64} (h : want.toNat ≤ i.toNat) :
    openIds base want i = [] := by
  unfold openIds idRange
  rw [List.drop_eq_nil_iff, List.length_map, List.length_range]
  exact h

theorem toNat_succ_of_lt {i want : UInt64} (h : i.toNat < want.toNat) :
    (i + 1).toNat = i.toNat + 1 := by
  have hlt := want.toNat_lt
  rw [UInt64.toNat_add, UInt64.toNat_one, Nat.mod_eq_of_lt (by omega)]

theorem openIds_succ {base : PageId} {want i : UInt64} (h : i.toNat < want.toNat) :
    openIds base want i = (base + i) :: openIds base want (i + 1) := by
  have hlen : i.toNat < (idRange base want).length := by
    unfold idRange
    rwa [List.length_map, List.length_range]
  unfold openIds
  rw [List.drop_eq_getElem_cons hlen, toNat_succ_of_lt h]
  simp [idRange]

theorem ProducerInv.mono {m n : Nat} (h : ProducerInv s n) (hle : m ≤ n) : ProducerInv s m := by
  unfold ProducerInv at h ⊢
  split at h
  · exact h
  · exact h
  · obtain ⟨hi, hroom, hdrawn⟩ := h
    exact ⟨hi, by omega, hdrawn⟩
  · obtain ⟨hi, hroom, hdrawn⟩ := h
    exact ⟨hi, by omega, hdrawn⟩

open Classical in
/-- No frame gets a second place. -/
theorem nodup_of_count_le {l l' : List F} (h : l.Nodup) (hle : ∀ f, l'.count f ≤ l.count f) :
    l'.Nodup := by
  rw [List.nodup_iff_count_le_one] at h ⊢
  intro f
  exact Nat.le_trans (hle f) (h f)

open Classical in
/-- The pool's own steps only move frames about. -/
theorem AllocInv.move_frames {free loading : List F} (h : AllocInv s xs)
    (hle : ∀ f, (free ++ loading).count f ≤ (s.free ++ s.loading).count f) :
    AllocInv { s with free := free, loading := loading } xs where
  queue := h.queue
  order := h.order
  nodup := by
    refine nodup_of_count_le h.nodup fun f => ?_
    have hf := hle f
    unfold AllocSys.frames
    simp only [List.count_append] at hf ⊢
    omega
  pc := h.pc

/-- A consumer takes the first frame that waits, if one does. -/
theorem AllocInv.consume (h : AllocInv s xs) : AllocInv s.consume xs.tail := by
  unfold AllocSys.consume
  cases xs with
  | nil =>
    rw [if_pos (h.queue.count_eq_zero.mpr rfl)]
    exact h
  | cons x xs =>
    have hne : ¬ s.alloc.kds_ring_count = 0 := by
      rw [h.queue.count_eq_zero]
      exact List.cons_ne_nil x xs
    obtain ⟨hfirst, hqueue⟩ := h.queue.page_alloc
    rw [if_neg hne, hfirst]
    exact
      { queue := hqueue
        order := by
          rw [h.order, List.map_cons, List.append_assoc, List.singleton_append, List.tail_cons]
        nodup := h.nodup
        pc := ProducerInv.mono (s := s) h.pc (Nat.le_succ _) }

/-- A batch is never larger than the room in the ring. -/
theorem AllocInv.startBatch {count : UInt64} (h : AllocInv s xs) (hpc : s.pc = .batch count) :
    AllocInv (s.startBatch count) xs := by
  have hdrawn : s.drawn = s.pushed.map Prod.snd := by
    have hknow := h.pc
    unfold ProducerInv at hknow
    rwa [hpc] at hknow
  have hnodup : (s.free ++ s.loading ++ [] ++ s.pushed.map Prod.fst).Nodup := by
    have hframes := h.nodup
    unfold AllocSys.frames at hframes
    rwa [hpc] at hframes
  have hwant : (min count s.alloc.kds_ring_free_slots).toNat ≤ 127 - xs.length := by
    rw [← h.queue.free_slots]
    exact toNat_min_le count _
  have hlen := h.queue.length_lt
  unfold AllocSys.startBatch
  dsimp only
  split
  · exact ⟨h.queue, h.order, hnodup, hdrawn⟩
  · refine ⟨h.queue, h.order, hnodup, Nat.zero_le _, ?_, ?_⟩
    · rw [UInt64.toNat_zero]
      omega
    · dsimp only
      rw [openIds_zero, hdrawn]

/-- The frame goes into the ring, whatever the consumers did since the batch was sized. -/
theorem AllocInv.pushFrame {base : PageId} {want i : UInt64} {frame : F} (h : AllocInv s xs)
    (hpc : s.pc = .push base want i frame) :
    AllocInv (s.pushFrame base want i frame) (xs ++ [frame]) := by
  have hknow := h.pc
  unfold ProducerInv at hknow
  rw [hpc] at hknow
  obtain ⟨hi, hroom, hdrawn⟩ := hknow
  have hfull : ¬ s.alloc.kds_ring_is_full = true := by
    rw [h.queue.is_full]
    omega
  have hsucc := toNat_succ_of_lt hi
  unfold AllocSys.pushFrame
  rw [if_neg hfull]
  refine ⟨h.queue.ring_push (by omega) frame, ?_, ?_, ?_⟩
  · simp only [List.map_append, List.map_cons, List.map_nil]
    rw [h.order, List.append_assoc]
  · -- the frame moves from the producer's hands to the end of the list
    have hmove : (s.free ++ s.loading ++ [] ++ (s.pushed ++ [(frame, base + i)]).map Prod.fst).Perm
        s.frames := by
      unfold AllocSys.frames
      rw [hpc, List.map_append, List.append_nil]
      simp only [ProducerPc.frame, List.map_cons, List.map_nil]
      rw [List.append_assoc (s.free ++ s.loading)]
      exact (List.perm_append_comm).append_left _
    exact hmove.nodup_iff.mpr h.nodup
  · refine ⟨by omega, ?_, ?_⟩
    · rw [List.length_append, List.length_singleton]
      omega
    · dsimp only
      rw [hdrawn, openIds_succ hi, List.map_append, List.append_assoc]
      rfl

/-- Outside of a batch the producer is free to go anywhere. -/
theorem AllocInv.goto_batch (h : AllocInv s xs) (hpc : s.pc = .idle) (count : UInt64) :
    AllocInv { s with pc := .batch count } xs := by
  have hknow := h.pc
  have hnodup := h.nodup
  unfold ProducerInv at hknow
  unfold AllocSys.frames at hnodup
  rw [hpc] at hknow hnodup
  exact ⟨h.queue, h.order, hnodup, hknow⟩

/-- The page of the next id gets the first free frame. -/
theorem AllocInv.create {base : PageId} {want i : UInt64} {frame : F} {free : List F}
    (h : AllocInv s xs) (hpc : s.pc = .create base want i) (hi : i < want)
    (hfree : s.free = frame :: free) :
    AllocInv { s with pc := .push base want i frame, free := free } xs := by
  have hknow := h.pc
  have hnodup := h.nodup
  unfold ProducerInv at hknow
  unfold AllocSys.frames at hnodup
  rw [hpc] at hknow hnodup
  rw [hfree] at hnodup
  refine ⟨h.queue, h.order, ?_, UInt64.lt_iff_toNat_lt.mp hi, hknow.2.1, hknow.2.2⟩
  refine nodup_of_count_le hnodup fun f => ?_
  unfold AllocSys.frames ProducerPc.frame
  simp only [List.count_append, List.count_cons, List.count_nil]
  omega

/-- A batch ends with all its ids in the ring. -/
theorem AllocInv.finish {base : PageId} {want i : UInt64} (h : AllocInv s xs)
    (hpc : s.pc = .create base want i) (hi : ¬ i < want) :
    AllocInv { s with pc := .idle } xs := by
  have hknow := h.pc
  have hnodup := h.nodup
  unfold ProducerInv at hknow
  unfold AllocSys.frames at hnodup
  rw [hpc] at hknow hnodup
  have hend : want.toNat ≤ i.toNat := UInt64.le_iff_toNat_le.mp (UInt64.not_lt.mp hi)
  have hdrawn := hknow.2.2
  rw [openIds_end hend, List.append_nil] at hdrawn
  exact ⟨h.queue, h.order, hnodup, hdrawn⟩

open Classical in
/-- **Step lemma**. -/
theorem AllocInv.step {a : AllocAct} (h : AllocInv s xs) (hstep : AllocStep s a s') :
    ∃ ys, AllocInv s' ys := by
  cases hstep with
  | consume => exact ⟨_, h.consume⟩
  | prealloc hpc =>
    split
    · exact ⟨xs, h.goto_batch hpc _⟩
    · exact ⟨xs, h⟩
  | batch hpc => exact ⟨xs, h.goto_batch hpc _⟩
  | size hpc => exact ⟨xs, h.startBatch hpc⟩
  | create hpc hi hfree => exact ⟨xs, h.create hpc hi hfree⟩
  | finish hpc hi => exact ⟨xs, h.finish hpc hi⟩
  | push hpc => exact ⟨_, h.pushFrame hpc⟩
  | take hfree =>
    refine ⟨xs, h.move_frames fun f => ?_⟩
    rw [hfree]
    simp only [List.count_append, List.count_cons, List.count_nil]
    omega
  | giveBack hload =>
    refine ⟨xs, h.move_frames fun f => ?_⟩
    rw [hload]
    simp only [List.count_append, List.count_cons, List.count_nil]
    omega
  | keep hload =>
    refine ⟨xs, h.move_frames fun f => ?_⟩
    rw [hload]
    simp only [List.count_append, List.count_cons]
    omega

theorem allocInv_init (h : (allocSystem F).init s) : AllocInv s [] := by
  obtain ⟨sb, free, hnodup, rfl⟩ := h
  have hframes : (free ++ [] ++ [] ++ []).Nodup := by
    simpa using hnodup
  exact ⟨kds_init_g_alloc_queue, rfl, hframes, rfl⟩

theorem allocInv_reachable (h : (allocSystem F).Reachable s) : ∃ xs, AllocInv s xs :=
  Lts.System.Reachable.invariant (fun s => ∃ xs, AllocInv s xs)
    (fun _ hinit => ⟨[], allocInv_init hinit⟩)
    (fun _ _ _ hinv hstep => hinv.elim fun _ hinv => hinv.step hstep) h

/-! ## Section 5: The ring is a lossless bounded queue -/

theorem AllocInv.returned_eq (h : AllocInv s xs) :
    s.returned = (s.pushed.take s.returned.length).map (fun p => some p.1) := by
  rw [List.map_take, h.order, List.take_left]

theorem AllocInv.returned_nodup (h : AllocInv s xs) : s.returned.Nodup := by
  have hpushed : (s.pushed.map Prod.fst).Nodup := by
    have hframes := h.nodup
    unfold AllocSys.frames at hframes
    exact (List.nodup_append.mp hframes).2.1
  have hsome : (s.pushed.map (fun p => some p.1)).Nodup := by
    have hmap := hpushed.map (Option.some_injective F)
    rwa [List.map_map] at hmap
  rw [h.order] at hsome
  exact (List.nodup_append.mp hsome).1

theorem AllocInv.length_pushed (h : AllocInv s xs) :
    s.pushed.length = s.returned.length + xs.length := by
  have hlen := congrArg List.length h.order
  rwa [List.length_map, List.length_append, List.length_map] at hlen

theorem AllocInv.not_full {base : PageId} {want i : UInt64} {frame : F} (h : AllocInv s xs)
    (hpc : s.pc = .push base want i frame) : s.alloc.kds_ring_is_full = false := by
  have hknow := h.pc
  unfold ProducerInv at hknow
  rw [hpc] at hknow
  rw [← Bool.not_eq_true, h.queue.is_full]
  omega

theorem AllocInv.drawn_of_idle (h : AllocInv s xs) (hpc : s.pc = .idle) :
    s.pushed.map Prod.snd = s.drawn := by
  have hknow := h.pc
  unfold ProducerInv at hknow
  rw [hpc] at hknow
  exact hknow.symm

/-- **The ring is a lossless bounded queue**: it holds at most one frame less
    than it has entries; what `kds_page_alloc` returns is, in order, the
    frames pushed first, none of them `NULL` and none twice; it returns
    `NULL` only when everything pushed is out; the producer never meets a
    full ring, so outside of a batch every id drawn is pushed. -/
theorem alloc_ring_lossless (h : (allocSystem F).Reachable s) :
    s.alloc.kds_ring_count ≤ PRE_ALLOC_RING_BUFFER_SIZE - 1 ∧
    (∃ k, s.returned = (s.pushed.take k).map (fun p => some p.1)) ∧
    s.returned.Nodup ∧
    (s.alloc.kds_page_alloc.1 = none → s.returned.length = s.pushed.length) ∧
    (∀ base want i frame, s.pc = .push base want i frame → s.alloc.kds_ring_is_full = false) ∧
    (s.pc = .idle → s.pushed.map Prod.snd = s.drawn) := by
  obtain ⟨xs, hinv⟩ := allocInv_reachable h
  refine ⟨?_, ⟨_, hinv.returned_eq⟩, hinv.returned_nodup, ?_, ?_, hinv.drawn_of_idle⟩
  · rw [UInt64.le_iff_toNat_le, hinv.queue.count]
    exact Nat.le_of_lt_succ hinv.queue.length_lt
  · intro hnone
    rw [hinv.length_pushed, hinv.queue.page_alloc_none hnone]
    rfl
  · intro base want i frame hpc
    exact hinv.not_full hpc

end System

/-- A first boot with three frames in the pool, and a batch of two pages asked for. -/
def twoPagesAsked : AllocSys Nat where
  alloc := kds_init_g_alloc Nat
  superblock := some (init_superblock_and_fsync 0)
  pc := .batch 2
  free := [7, 9, 3]
  loading := []
  drawn := []
  pushed := []
  returned := []

/-- Page 128 is created in frame 7. -/
def firstPageMade : AllocSys Nat :=
  { twoPagesAsked.startBatch 2 with pc := .push 128 2 0 7, free := [9, 3] }

/-- It is staged and handed out in the middle of the batch. -/
def firstPageOut : AllocSys Nat := (firstPageMade.pushFrame 128 2 0 7).consume

/-- A load has taken frame 9, so page 129 is created in frame 3. -/
def secondPageMade : AllocSys Nat :=
  { firstPageOut with pc := .push 128 2 1 3, free := [], loading := [9] }

def secondPageOut : AllocSys Nat := (secondPageMade.pushFrame 128 2 1 3).consume

theorem firstPageOut_reachable : (allocSystem Nat).Reachable firstPageOut := by
  have hboot : (allocSystem Nat).Reachable { twoPagesAsked with pc := .idle } :=
    .init ⟨some (init_superblock_and_fsync 0), [7, 9, 3], by decide, rfl⟩
  have hasked : (allocSystem Nat).Reachable twoPagesAsked := hboot.step (.batch 2) (AllocStep.batch rfl)
  have hsize : (allocSystem Nat).Reachable (twoPagesAsked.startBatch 2) :=
    hasked.step .produce (AllocStep.size rfl)
  have hmade : (allocSystem Nat).Reachable firstPageMade :=
    hsize.step .produce (AllocStep.create rfl (by decide) rfl)
  have hpush : (allocSystem Nat).Reachable (firstPageMade.pushFrame 128 2 0 7) :=
    hmade.step .produce (AllocStep.push rfl)
  exact hpush.step .consume AllocStep.consume

theorem secondPageOut_reachable : (allocSystem Nat).Reachable secondPageOut := by
  have hload : (allocSystem Nat).Reachable { firstPageOut with free := [3], loading := [9] } :=
    firstPageOut_reachable.step .pool (AllocStep.take rfl)
  have hmade : (allocSystem Nat).Reachable secondPageMade :=
    hload.step .produce (AllocStep.create rfl (by decide) rfl)
  have hpush : (allocSystem Nat).Reachable (secondPageMade.pushFrame 128 2 1 3) :=
    hmade.step .produce (AllocStep.push rfl)
  exact hpush.step .consume AllocStep.consume

theorem alloc_ring_lossless_two_pages :
    (allocSystem Nat).Reachable secondPageOut ∧ secondPageOut.returned = [some 7, some 3] ∧
      secondPageOut.pushed = [(7, 128), (3, 129)] ∧ secondPageOut.returned.Nodup ∧
      ∃ k, secondPageOut.returned = (secondPageOut.pushed.take k).map fun p => some p.1 := by
  obtain ⟨-, hfifo, hnodup, -⟩ := alloc_ring_lossless secondPageOut_reachable
  exact ⟨secondPageOut_reachable, rfl, rfl, hnodup, hfifo⟩

end Kds
