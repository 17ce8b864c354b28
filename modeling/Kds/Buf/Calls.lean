import Kds.Core
import Kds.Lib.Lts
import Mathlib.Data.List.FinRange
import Mathlib.Data.List.Nodup
import Mathlib.Logic.Function.Basic

/-! # Concurrent calls into the buffer pool

    `page_mgr.c`, from its own side: frames, the free list, the page table,
    and any number of calls of `kds_buf_lookup_or_load` and
    `kds_buf_alloc_new` at the same time. A call gives up every lock while it
    is on disk, so two calls for one page race to register their frames.

    A step is one locked section (or one RCU read section) of one call,
    together with what the call does to its own frame right before or after
    it; nobody else reaches that frame. `BufPc` is where a call stands. An
    operation that can fail is decided by the `Outcome` of the step.
-/

namespace Kds

/-! ## Section 1: The pool -/

@[simp] def KDS_BUF_NR_FRAMES : Nat := 4096

/-- A `kds_frame_t` pointer: its `frame_id`. -/
abbrev FrameId := Fin KDS_BUF_NR_FRAMES

/-- `kds_frame_state_t`. -/
inductive FrameState where
  | FREE
  | LOADING
  | VALID
  deriving DecidableEq, Repr

/-- The part of `kds_frame_t` the pool works on. `kp` is the reference count
    of the `kds_page_t` it points to, `none` a `NULL` pointer. -/
structure BufFrame where
  state : FrameState
  page_id : PageId
  kp : Option Int
  deriving DecidableEq, Repr

/-- `kds_buf_pool_t`. -/
structure BufPool where
  frames : FrameId → BufFrame
  map : PageId → Option FrameId
  free_frames : List FrameId
  nr_free : Int

/-- `kds_buf_pool_init`. -/
def kds_buf_pool_init : BufPool where
  frames := fun _ => { state := .FREE, page_id := 0, kp := none }
  map := fun _ => none
  free_frames := List.finRange KDS_BUF_NR_FRAMES
  nr_free := KDS_BUF_NR_FRAMES

namespace BufPool

def setFrame (p : BufPool) (f : FrameId) (b : BufFrame) : BufPool :=
  { p with frames := Function.update p.frames f b }

def kds_buf_pin (p : BufPool) (f : FrameId) : BufPool :=
  p.setFrame f { p.frames f with kp := (p.frames f).kp.map (· + 1) }

def kds_buf_unpin (p : BufPool) (f : FrameId) : BufPool :=
  p.setFrame f { p.frames f with kp := (p.frames f).kp.map (· - 1) }

def kds_buf_lookup (p : BufPool) (page_id : PageId) : Option FrameId × BufPool :=
  match p.map page_id with
  | none => (none, p)
  | some f => (some f, p.kds_buf_pin f)

def kds_buf_take_free_frame (p : BufPool) : Option FrameId × BufPool :=
  match p.free_frames with
  | [] => (none, p)
  | f :: rest => (some f, { p with free_frames := rest, nr_free := p.nr_free - 1 })

def kds_buf_return_free_frame (p : BufPool) (f : FrameId) : BufPool :=
  { p with free_frames := p.free_frames ++ [f], nr_free := p.nr_free + 1 }

end BufPool

/-- What the operations that can fail do in a step. -/
structure Outcome where
  bdev : Bool
  alloc_pages : Bool
  vmalloc : Bool
  kzalloc : Bool
  /-- The block device read or write. -/
  disk : Option Errno
  /-- `rhashtable_insert_fast`. -/
  insert : Option Errno

/-- Everything works. -/
def Outcome.fine : Outcome where
  bdev := true
  alloc_pages := true
  vmalloc := true
  kzalloc := true
  disk := none
  insert := none

/-- `kds_frame_read_from_disk`: the error, and `f->kp` after it. -/
def kds_frame_read_from_disk (o : Outcome) (kp : Option Int) : Option Errno × Option Int :=
  if ¬ o.bdev then (some .ENODEV, kp)
  else if ¬ o.alloc_pages then (some .ENOMEM, kp)
  else
    match o.disk with
    | some e => (some e, kp)
    | none => if o.vmalloc then (none, some 0) else (some .ENOMEM, none)

/-- The part of `kds_buf_alloc_new` that makes the page and writes it out.
    Without a block device it panics. -/
def kds_buf_alloc_new_write (o : Outcome) (kp : Option Int) :
    Except Fault (Option Errno × Option Int) :=
  if ¬ o.alloc_pages then .ok (some .ENOMEM, kp)
  else if ¬ o.vmalloc then .ok (some .ENOMEM, none)
  else if ¬ o.bdev then .error .panic
  else
    match o.disk with
    | some e => .ok (some e, none)
    | none => .ok (none, some 0)

/-- `kds_buf_register_frame`. -/
def kds_buf_register_frame (p : BufPool) (f : FrameId) (o : Outcome) : Except Errno BufPool :=
  if ¬ o.kzalloc then .error .ENOMEM
  else
    match p.map (p.frames f).page_id with
    | some _ => .error .EEXIST
    | none =>
      match o.insert with
      | some e => .error e
      | none =>
        .ok
          (({ p with map := Function.update p.map (p.frames f).page_id (some f) }.setFrame f
            { p.frames f with state := .VALID }).kds_buf_pin f)

/-! ## Section 2: Calls -/

inductive BufFn where
  | kds_buf_lookup_or_load
  | kds_buf_alloc_new
  deriving DecidableEq, Repr

/-- Where a call stands. -/
inductive BufPc where
  | lookup
  /-- `kds_buf_alloc_new` found the page cached. -/
  | unpin (f : FrameId)
  | take
  /-- The frame is the call's own, no lock is held. -/
  | io (f : FrameId)
  | register (f : FrameId)
  /-- The frame goes back. A load that lost the race goes on to the winner's frame. -/
  | giveBack (f : FrameId) (e : Errno) (lost : Bool)
  | relookup
  /-- Returned, and the caller still has the frame pinned. -/
  | returned (f : FrameId)
  /-- The caller has unpinned the frame. -/
  | unpinned (f : FrameId)
  | failed (e : Errno)
  deriving DecidableEq, Repr

structure BufCall where
  fn : BufFn
  page_id : PageId
  pc : BufPc

/-- The frame a call has taken off the free list and not registered. -/
def BufPc.owned : BufPc → Option FrameId
  | .io f => some f
  | .register f => some f
  | .giveBack f _ _ => some f
  | _ => none

/-- The frame a call, or its caller, has pinned. -/
def BufPc.pinned : BufPc → Option FrameId
  | .unpin f => some f
  | .returned f => some f
  | _ => none

/-- What a call that succeeded has returned. -/
def BufPc.result : BufPc → Option FrameId
  | .returned f => some f
  | .unpinned f => some f
  | _ => none

/-- The next step of a call: the pool after it and where the call stands then.
    There is none after an error or the caller's `kds_buf_unpin`, nor after a panic. -/
def BufCall.run (c : BufCall) (p : BufPool) (o : Outcome) : Option (BufPool × BufPc) :=
  match c.pc with
  | .lookup =>
    match p.kds_buf_lookup c.page_id with
    | (none, p) => some (p, .take)
    | (some f, p) =>
      match c.fn with
      | .kds_buf_lookup_or_load => some (p, .returned f)
      | .kds_buf_alloc_new => some (p, .unpin f)
  | .unpin f => some (p.kds_buf_unpin f, .failed .EEXIST)
  | .take =>
    match p.kds_buf_take_free_frame with
    | (none, p) => some (p, .failed .ENOSPC)
    | (some f, p) =>
      some (p.setFrame f { p.frames f with state := .LOADING, page_id := c.page_id }, .io f)
  | .io f =>
    match c.fn with
    | .kds_buf_lookup_or_load =>
      match kds_frame_read_from_disk o (p.frames f).kp with
      | (some e, kp) => some (p.setFrame f { p.frames f with kp := kp }, .giveBack f e false)
      | (none, kp) => some (p.setFrame f { p.frames f with kp := kp }, .register f)
    | .kds_buf_alloc_new =>
      match kds_buf_alloc_new_write o (p.frames f).kp with
      | .error _ => none
      | .ok (some e, kp) => some (p.setFrame f { p.frames f with kp := kp }, .giveBack f e false)
      | .ok (none, kp) => some (p.setFrame f { p.frames f with kp := kp }, .register f)
  | .register f =>
    match kds_buf_register_frame p f o with
    | .ok p => some (p, .returned f)
    | .error e =>
      some (p.setFrame f { p.frames f with kp := none },
        .giveBack f e (decide (c.fn = .kds_buf_lookup_or_load ∧ e = .EEXIST)))
  | .giveBack f e lost =>
    some ((p.setFrame f { p.frames f with state := .FREE, page_id := 0 }).kds_buf_return_free_frame f,
      if lost then .relookup else .failed e)
  | .relookup =>
    match p.kds_buf_lookup c.page_id with
    | (some f, p) => some (p, .returned f)
    | (none, p) => some (p, .failed .ENOENT)
  | .returned f => some (p.kds_buf_unpin f, .unpinned f)
  | .unpinned _ => none
  | .failed _ => none

/-- The pool and all calls made so far. -/
structure BufSys where
  pool : BufPool
  calls : List BufCall

inductive BufAct where
  | call (fn : BufFn) (page_id : PageId)
  | run (c : BufCall) (o : Outcome)

inductive BufStep : BufSys → BufAct → BufSys → Prop where
  | call {s : BufSys} {fn : BufFn} {page_id : PageId} :
      BufStep s (.call fn page_id)
        { s with calls := s.calls ++ [{ fn := fn, page_id := page_id, pc := .lookup }] }
  | run {s : BufSys} {c : BufCall} {o : Outcome} {before after : List BufCall} {p : BufPool}
      {pc : BufPc} :
      s.calls = before ++ c :: after → c.run s.pool o = some (p, pc) →
      BufStep s (.run c o) { pool := p, calls := before ++ { c with pc := pc } :: after }

def bufSystem : Lts.System BufSys BufAct where
  init := fun s => s = { pool := kds_buf_pool_init, calls := [] }
  step := BufStep

/-! ## Section 3: What a step does to the pool -/

/-- The changes a call makes, and where it stands after them. -/
inductive PoolEffect (p : BufPool) (c : BufCall) : BufPool → BufPc → Prop where
  | idle {pc : BufPc} :
      c.pc.owned = none → c.pc.pinned = none → pc.owned = none → pc.pinned = none →
      pc.result = none → PoolEffect p c p pc
  | pin {f : FrameId} {pc : BufPc} :
      c.pc.owned = none → c.pc.pinned = none → p.map c.page_id = some f →
      (pc = .returned f ∨ pc = .unpin f) → PoolEffect p c (p.kds_buf_pin f) pc
  | unpin {f : FrameId} {pc : BufPc} :
      c.pc.owned = none → c.pc.pinned = some f → pc.owned = none → pc.pinned = none →
      pc.result = c.pc.result → PoolEffect p c (p.kds_buf_unpin f) pc
  | take {f : FrameId} {rest : List FrameId} :
      c.pc.owned = none → c.pc.pinned = none → p.free_frames = f :: rest →
      PoolEffect p c
        ({ p with free_frames := rest, nr_free := p.nr_free - 1 }.setFrame f
          { p.frames f with state := .LOADING, page_id := c.page_id })
        (.io f)
  | write {f : FrameId} {kp : Option Int} {pc : BufPc} :
      c.pc.owned = some f → pc.owned = some f → c.pc.pinned = none → pc.pinned = none →
      pc.result = none → (pc = .register f → kp = some 0 ∧ c.pc = .io f) →
      PoolEffect p c (p.setFrame f { p.frames f with kp := kp }) pc
  | register {f : FrameId} :
      c.pc = .register f → p.map (p.frames f).page_id = none →
      PoolEffect p c
        (({ p with map := Function.update p.map (p.frames f).page_id (some f) }.setFrame f
          { p.frames f with state := .VALID }).kds_buf_pin f)
        (.returned f)
  | giveBack {f : FrameId} {pc : BufPc} :
      c.pc.owned = some f → c.pc.pinned = none → pc.owned = none → pc.pinned = none →
      pc.result = none →
      PoolEffect p c
        ((p.setFrame f { p.frames f with state := .FREE, page_id := 0 }).kds_buf_return_free_frame f)
        pc

section Effect

variable {p p' : BufPool} {c : BufCall} {pc : BufPc} {o : Outcome} {f : FrameId}

theorem kds_buf_lookup_cases (page_id : PageId) :
    (p.map page_id = none ∧ p.kds_buf_lookup page_id = (none, p)) ∨
      ∃ f, p.map page_id = some f ∧ p.kds_buf_lookup page_id = (some f, p.kds_buf_pin f) := by
  unfold BufPool.kds_buf_lookup
  cases h : p.map page_id with
  | none => exact Or.inl ⟨rfl, rfl⟩
  | some f => exact Or.inr ⟨f, rfl, rfl⟩

/-- A page that was read in has an unused reference count. -/
theorem kds_frame_read_from_disk_kp {kp kp' : Option Int}
    (h : kds_frame_read_from_disk o kp = (none, kp')) : kp' = some 0 := by
  unfold kds_frame_read_from_disk at h
  split at h
  · simp at h
  · split at h
    · simp at h
    · split at h
      · simp at h
      · split at h
        · exact (Prod.mk.inj h).2.symm
        · simp at h

theorem kds_buf_alloc_new_write_kp {kp kp' : Option Int}
    (h : kds_buf_alloc_new_write o kp = .ok (none, kp')) : kp' = some 0 := by
  unfold kds_buf_alloc_new_write at h
  split at h
  · simp at h
  · split at h
    · simp at h
    · split at h
      · simp at h
      · split at h
        · simp at h
        · simpa using h.symm

theorem kds_buf_register_frame_ok (h : kds_buf_register_frame p f o = .ok p') :
    p.map (p.frames f).page_id = none ∧
      p' = ({ p with map := Function.update p.map (p.frames f).page_id (some f) }.setFrame f
        { p.frames f with state := .VALID }).kds_buf_pin f := by
  unfold kds_buf_register_frame at h
  split at h
  · simp at h
  · split at h
    · simp at h
    · next hmap =>
      split at h
      · simp at h
      · exact ⟨hmap, (Except.ok.inj h).symm⟩

/-- **Inversion**: the step of a call is one of the changes above. -/
theorem BufCall.run_effect (h : c.run p o = some (p', pc)) : PoolEffect p c p' pc := by
  unfold BufCall.run at h
  cases hpc : c.pc with
  | lookup =>
    rw [hpc] at h
    have howned : c.pc.owned = none := by rw [hpc]; rfl
    have hpinned : c.pc.pinned = none := by rw [hpc]; rfl
    -- a page that is there is pinned, to be returned or to be refused with -EEXIST
    rcases kds_buf_lookup_cases (p := p) c.page_id with ⟨hmap, heq⟩ | ⟨f, hmap, heq⟩
    · rw [heq] at h
      obtain ⟨rfl, rfl⟩ := Prod.mk.inj (Option.some.inj h)
      exact .idle howned hpinned rfl rfl rfl
    · rw [heq] at h
      cases hfn : c.fn with
      | kds_buf_lookup_or_load =>
        rw [hfn] at h
        obtain ⟨rfl, rfl⟩ := Prod.mk.inj (Option.some.inj h)
        exact .pin howned hpinned hmap (Or.inl rfl)
      | kds_buf_alloc_new =>
        rw [hfn] at h
        obtain ⟨rfl, rfl⟩ := Prod.mk.inj (Option.some.inj h)
        exact .pin howned hpinned hmap (Or.inr rfl)
  | unpin f =>
    rw [hpc] at h
    obtain ⟨rfl, rfl⟩ := Prod.mk.inj (Option.some.inj h)
    exact .unpin (by rw [hpc]; rfl) (by rw [hpc]; rfl) rfl rfl (by rw [hpc]; rfl)
  | take =>
    rw [hpc] at h
    have howned : c.pc.owned = none := by rw [hpc]; rfl
    have hpinned : c.pc.pinned = none := by rw [hpc]; rfl
    -- with an empty free list the call fails and owns nothing
    cases hfree : p.free_frames with
    | nil =>
      simp only [BufPool.kds_buf_take_free_frame, hfree] at h
      obtain ⟨rfl, rfl⟩ := Prod.mk.inj (Option.some.inj h)
      exact .idle howned hpinned rfl rfl rfl
    | cons f rest =>
      simp only [BufPool.kds_buf_take_free_frame, hfree] at h
      obtain ⟨rfl, rfl⟩ := Prod.mk.inj (Option.some.inj h)
      exact .take howned hpinned hfree
  -- only the frame that the call owns changes, whether the I/O works or not
  | io f =>
    rw [hpc] at h
    have howned : c.pc.owned = some f := by rw [hpc]; rfl
    have hpinned : c.pc.pinned = none := by rw [hpc]; rfl
    cases hfn : c.fn with
    | kds_buf_lookup_or_load =>
      rw [hfn] at h
      cases hread : kds_frame_read_from_disk o (p.frames f).kp with
      | mk err kp =>
        simp only [hread] at h
        cases err with
        | none =>
          obtain ⟨rfl, rfl⟩ := Prod.mk.inj (Option.some.inj h)
          exact .write howned rfl hpinned rfl rfl
            fun _ => ⟨kds_frame_read_from_disk_kp hread, hpc⟩
        | some e =>
          obtain ⟨rfl, rfl⟩ := Prod.mk.inj (Option.some.inj h)
          exact .write howned rfl hpinned rfl rfl nofun
    | kds_buf_alloc_new =>
      rw [hfn] at h
      cases hwrite : kds_buf_alloc_new_write o (p.frames f).kp with
      | error fault => simp [hwrite] at h
      | ok r =>
        obtain ⟨err, kp⟩ := r
        simp only [hwrite] at h
        cases err with
        | none =>
          obtain ⟨rfl, rfl⟩ := Prod.mk.inj (Option.some.inj h)
          exact .write howned rfl hpinned rfl rfl
            fun _ => ⟨kds_buf_alloc_new_write_kp hwrite, hpc⟩
        | some e =>
          obtain ⟨rfl, rfl⟩ := Prod.mk.inj (Option.some.inj h)
          exact .write howned rfl hpinned rfl rfl nofun
  | register f =>
    rw [hpc] at h
    cases hreg : kds_buf_register_frame p f o with
    | ok q =>
      simp only [hreg] at h
      obtain ⟨rfl, rfl⟩ := Prod.mk.inj (Option.some.inj h)
      obtain ⟨hmap, rfl⟩ := kds_buf_register_frame_ok hreg
      exact .register hpc hmap
    | error e =>
      simp only [hreg] at h
      obtain ⟨rfl, rfl⟩ := Prod.mk.inj (Option.some.inj h)
      exact .write (by rw [hpc]; rfl) rfl (by rw [hpc]; rfl) rfl rfl nofun
  | giveBack f e lost =>
    rw [hpc] at h
    obtain ⟨rfl, rfl⟩ := Prod.mk.inj (Option.some.inj h)
    cases lost <;> exact .giveBack (by rw [hpc]; rfl) (by rw [hpc]; rfl) rfl rfl rfl
  -- somebody else has registered the page meanwhile
  | relookup =>
    rw [hpc] at h
    have howned : c.pc.owned = none := by rw [hpc]; rfl
    have hpinned : c.pc.pinned = none := by rw [hpc]; rfl
    rcases kds_buf_lookup_cases (p := p) c.page_id with ⟨hmap, heq⟩ | ⟨f, hmap, heq⟩
    · rw [heq] at h
      obtain ⟨rfl, rfl⟩ := Prod.mk.inj (Option.some.inj h)
      exact .idle howned hpinned rfl rfl rfl
    · rw [heq] at h
      obtain ⟨rfl, rfl⟩ := Prod.mk.inj (Option.some.inj h)
      exact .pin howned hpinned hmap (Or.inl rfl)
  | returned f =>
    rw [hpc] at h
    obtain ⟨rfl, rfl⟩ := Prod.mk.inj (Option.some.inj h)
    exact .unpin (by rw [hpc]; rfl) (by rw [hpc]; rfl) rfl rfl (by rw [hpc]; rfl)
  | unpinned f => simp [hpc] at h
  | failed e => simp [hpc] at h

end Effect

/-! ## Section 4: What every state keeps -/

/-- How many calls have frame `f` off the free list. -/
def nrOwners (calls : List BufCall) (f : FrameId) : Nat :=
  calls.countP fun c => c.pc.owned = some f

/-- How many pins of frame `f` there are. -/
def nrPins (calls : List BufCall) (f : FrameId) : Nat :=
  calls.countP fun c => c.pc.pinned = some f

/-- What a call relies on between its steps. -/
structure CallInv (p : BufPool) (c : BufCall) : Prop where
  owned : ∀ f, c.pc.owned = some f → (p.frames f).page_id = c.page_id
  ready : ∀ f, c.pc = .register f → (p.frames f).kp = some 0
  pinned : ∀ f, c.pc.pinned = some f → p.map c.page_id = some f
  result : ∀ f, c.pc.result = some f → p.map c.page_id = some f

structure BufInv (s : BufSys) : Prop where
  nr_free : s.pool.nr_free = s.pool.free_frames.length
  nodup : s.pool.free_frames.Nodup
  free : ∀ f, f ∈ s.pool.free_frames ↔ (s.pool.frames f).state = .FREE
  owners : ∀ f, nrOwners s.calls f = if (s.pool.frames f).state = .LOADING then 1 else 0
  map : ∀ page_id f, s.pool.map page_id = some f ↔
    (s.pool.frames f).state = .VALID ∧ (s.pool.frames f).page_id = page_id
  pins : ∀ f, (s.pool.frames f).state = .VALID → (s.pool.frames f).kp = some (nrPins s.calls f : Int)
  calls : ∀ c ∈ s.calls, CallInv s.pool c

section Inv

variable {s : BufSys} {p : BufPool} {c d : BufCall} {before after : List BufCall} {pc : BufPc}
  {f g : FrameId}

/-- One call moves on; the count changes by what it had and what it has. -/
theorem owners_move (before after : List BufCall) (c : BufCall) (pc : BufPc) (f : FrameId) :
    nrOwners (before ++ { c with pc := pc } :: after) f + (if c.pc.owned = some f then 1 else 0) =
      nrOwners (before ++ c :: after) f + (if pc.owned = some f then 1 else 0) := by
  unfold nrOwners
  simp only [List.countP_append, List.countP_cons, decide_eq_true_eq]
  omega

theorem pins_move (before after : List BufCall) (c : BufCall) (pc : BufPc) (f : FrameId) :
    nrPins (before ++ { c with pc := pc } :: after) f + (if c.pc.pinned = some f then 1 else 0) =
      nrPins (before ++ c :: after) f + (if pc.pinned = some f then 1 else 0) := by
  unfold nrPins
  simp only [List.countP_append, List.countP_cons, decide_eq_true_eq]
  omega

theorem owners_pos (hmem : c ∈ s.calls) (howned : c.pc.owned = some f) : 0 < nrOwners s.calls f := by
  unfold nrOwners
  rw [List.countP_pos_iff]
  exact ⟨c, hmem, by simpa using howned⟩

/-- A frame somebody owns is being loaded. -/
theorem BufInv.loading (h : BufInv s) (hmem : c ∈ s.calls) (howned : c.pc.owned = some f) :
    (s.pool.frames f).state = .LOADING := by
  have hpos := owners_pos hmem howned
  rw [h.owners f] at hpos
  by_contra hne
  rw [if_neg hne] at hpos
  exact absurd hpos (Nat.lt_irrefl 0)

/-- Only mapped frames are pinned. -/
theorem BufInv.pins_eq_zero (h : BufInv s) (hstate : (s.pool.frames f).state ≠ .VALID) :
    nrPins s.calls f = 0 := by
  unfold nrPins
  rw [List.countP_eq_zero]
  intro c hmem hpinned
  have hmap := (h.calls c hmem).pinned f (by simpa using hpinned)
  exact hstate ((h.map _ _).mp hmap).1

/-- Frame `f` has one owner, so another call's frame is another one. -/
theorem BufInv.owner_unique (h : BufInv s) (hcalls : s.calls = before ++ c :: after)
    (hc : c.pc.owned = some f) (hmem : d ∈ before ++ after) : d.pc.owned ≠ some f := by
  intro hd
  have hload : (s.pool.frames f).state = .LOADING :=
    h.loading (by rw [hcalls]; simp) hc
  have hone := h.owners f
  rw [if_pos hload, hcalls] at hone
  have hrest : 0 < nrOwners (before ++ after) f := by
    unfold nrOwners
    rw [List.countP_pos_iff]
    exact ⟨d, hmem, by simpa using hd⟩
  unfold nrOwners at hone hrest
  simp only [List.countP_append, List.countP_cons, hc, decide_true, if_true] at hone hrest
  omega

/-- Nothing but reference counts differs. -/
structure BufPool.SameTable (p p' : BufPool) : Prop where
  state : ∀ g, (p'.frames g).state = (p.frames g).state
  page_id : ∀ g, (p'.frames g).page_id = (p.frames g).page_id
  map : p'.map = p.map
  free_frames : p'.free_frames = p.free_frames
  nr_free : p'.nr_free = p.nr_free

@[simp] theorem BufPool.frames_setFrame_self (p : BufPool) (f : FrameId) (b : BufFrame) :
    (p.setFrame f b).frames f = b := by
  simp [BufPool.setFrame]

theorem BufPool.frames_setFrame_ne (p : BufPool) (b : BufFrame) (h : g ≠ f) :
    (p.setFrame f b).frames g = p.frames g := by
  simp [BufPool.setFrame, Function.update_of_ne h]

theorem BufPool.sameTable_setKp (p : BufPool) (f : FrameId) (kp : Option Int) :
    p.SameTable (p.setFrame f { p.frames f with kp := kp }) := by
  refine ⟨fun g => ?_, fun g => ?_, rfl, rfl, rfl⟩ <;>
    · by_cases hg : g = f
      · subst hg
        rw [BufPool.frames_setFrame_self]
      · rw [BufPool.frames_setFrame_ne p _ hg]

/-- What a call relies on is still there: its own frame, and the table's entries. -/
theorem CallInv.frame {p' : BufPool} (h : CallInv p d)
    (hframes : ∀ g, d.pc.owned = some g → p'.frames g = p.frames g)
    (hmap : ∀ page_id g, p.map page_id = some g → p'.map page_id = some g) : CallInv p' d where
  owned := fun g hg => by rw [hframes g hg]; exact h.owned g hg
  ready := fun g hg => by rw [hframes g (by rw [hg]; rfl)]; exact h.ready g hg
  pinned := fun g hg => hmap _ _ (h.pinned g hg)
  result := fun g hg => hmap _ _ (h.result g hg)

theorem mem_calls_cases (h : d ∈ before ++ { c with pc := pc } :: after) :
    d = { c with pc := pc } ∨ d ∈ before ++ after := by
  simp only [List.mem_append, List.mem_cons] at h ⊢
  tauto

theorem mem_of_mem_others (hcalls : s.calls = before ++ c :: after) (h : d ∈ before ++ after) :
    d ∈ s.calls := by
  rw [hcalls]
  simp only [List.mem_append, List.mem_cons] at h ⊢
  tauto

/-- A step that changes one reference count. -/
theorem BufInv.setKp {kp : Option Int} (h : BufInv s) (hcalls : s.calls = before ++ c :: after)
    (howned : pc.owned = c.pc.owned)
    (hpins : ∀ g, (s.pool.frames g).state = .VALID →
      ((s.pool.setFrame f { s.pool.frames f with kp := kp }).frames g).kp =
        some (nrPins (before ++ { c with pc := pc } :: after) g : Int))
    (hcall : CallInv (s.pool.setFrame f { s.pool.frames f with kp := kp }) { c with pc := pc })
    (hothers : ∀ d ∈ before ++ after, d.pc.owned ≠ some f) :
    BufInv
      { pool := s.pool.setFrame f { s.pool.frames f with kp := kp }
        calls := before ++ { c with pc := pc } :: after } := by
  have hsame := s.pool.sameTable_setKp f kp
  exact
    { nr_free := by rw [hsame.nr_free, hsame.free_frames]; exact h.nr_free
      nodup := by rw [hsame.free_frames]; exact h.nodup
      free := fun g => by rw [hsame.free_frames, hsame.state g]; exact h.free g
      owners := fun g => by
        have hmove := owners_move before after c pc g
        have hold := h.owners g
        rw [hcalls] at hold
        rw [howned] at hmove
        rw [hsame.state g]
        dsimp only
        omega
      map := fun page_id g => by
        rw [hsame.map, hsame.state g, hsame.page_id g]
        exact h.map page_id g
      pins := fun g hg => by
        rw [hsame.state g] at hg
        exact hpins g hg
      calls := fun d hd => by
        rcases mem_calls_cases hd with rfl | hd
        · exact hcall
        · refine (h.calls d (mem_of_mem_others hcalls hd)).frame (fun g hg => ?_) fun _ _ hm => hm
          have hne : g ≠ f := fun heq => hothers d hd (heq ▸ hg)
          exact BufPool.frames_setFrame_ne _ _ hne }

theorem BufInv.pins_old (h : BufInv s) (hcalls : s.calls = before ++ c :: after)
    (hstate : (s.pool.frames g).state = .VALID) :
    (s.pool.frames g).kp = some (nrPins (before ++ c :: after) g : Int) := by
  rw [← hcalls]
  exact h.pins g hstate

/-- Looking a page up that is there. -/
theorem BufInv.pin (h : BufInv s) (hcalls : s.calls = before ++ c :: after)
    (howned : c.pc.owned = none) (hpinned : c.pc.pinned = none)
    (hmap : s.pool.map c.page_id = some f) (hpc : pc = .returned f ∨ pc = .unpin f) :
    BufInv
      { pool := s.pool.kds_buf_pin f, calls := before ++ { c with pc := pc } :: after } := by
  have hvalid := ((h.map _ _).mp hmap).1
  have howned' : pc.owned = none := by rcases hpc with rfl | rfl <;> rfl
  have hpinned' : pc.pinned = some f := by rcases hpc with rfl | rfl <;> rfl
  refine h.setKp hcalls (by rw [howned, howned']) (fun g hg => ?_) ?_ fun d hd hdf => ?_
  · have hmove := pins_move before after c pc g
    have hold := h.pins_old hcalls hg
    rw [hpinned, hpinned'] at hmove
    by_cases hgf : g = f
    · subst hgf
      simp only [reduceCtorEq, if_false, if_true, Nat.add_zero] at hmove
      rw [BufPool.frames_setFrame_self, hmove, hold]
      rfl
    · have hne : ¬ some f = some g := fun heq => hgf (Option.some.inj heq).symm
      simp only [reduceCtorEq, if_false, if_neg hne, Nat.add_zero] at hmove
      rw [BufPool.frames_setFrame_ne _ _ hgf, hold, hmove]
  · refine ⟨fun g hg => ?_, fun g hg => ?_, fun g hg => ?_, fun g hg => ?_⟩
    · rw [howned'] at hg
      cases hg
    · rcases hpc with rfl | rfl <;> cases hg
    · rw [hpinned'] at hg
      exact hmap.trans hg
    · rcases hpc with rfl | rfl
      · exact hmap.trans hg
      · cases hg
  · -- an owned frame is not in the table
    have hload := h.loading (mem_of_mem_others hcalls hd) hdf
    rw [hvalid] at hload
    cases hload

theorem BufInv.unpin (h : BufInv s) (hcalls : s.calls = before ++ c :: after)
    (howned : c.pc.owned = none) (hpinned : c.pc.pinned = some f) (howned' : pc.owned = none)
    (hpinned' : pc.pinned = none) (hresult : pc.result = c.pc.result) :
    BufInv
      { pool := s.pool.kds_buf_unpin f, calls := before ++ { c with pc := pc } :: after } := by
  have hc : CallInv s.pool c := h.calls c (by rw [hcalls]; simp)
  have hvalid := ((h.map _ _).mp (hc.pinned f hpinned)).1
  refine h.setKp hcalls (by rw [howned, howned']) (fun g hg => ?_) ?_ fun d hd hdf => ?_
  · have hmove := pins_move before after c pc g
    have hold := h.pins_old hcalls hg
    rw [hpinned, hpinned'] at hmove
    by_cases hgf : g = f
    · subst hgf
      simp only [reduceCtorEq, if_false, if_true, Nat.add_zero] at hmove
      rw [BufPool.frames_setFrame_self, hold, ← hmove]
      simp
    · have hne : ¬ some f = some g := fun heq => hgf (Option.some.inj heq).symm
      simp only [reduceCtorEq, if_false, if_neg hne, Nat.add_zero] at hmove
      rw [BufPool.frames_setFrame_ne _ _ hgf, hold, hmove]
  · refine ⟨fun g hg => ?_, fun g hg => ?_, fun g hg => ?_, fun g hg => ?_⟩
    · rw [howned'] at hg
      cases hg
    · have hg' : pc = .register g := hg
      rw [hg'] at howned'
      cases howned'
    · rw [hpinned'] at hg
      cases hg
    · rw [hresult] at hg
      exact hc.result g hg
  · have hload := h.loading (mem_of_mem_others hcalls hd) hdf
    rw [hvalid] at hload
    cases hload

/-- A call fills, or drops, the page of its own frame. -/
theorem BufInv.write {kp : Option Int} (h : BufInv s) (hcalls : s.calls = before ++ c :: after)
    (howned : c.pc.owned = some f) (howned' : pc.owned = some f) (hpinned : c.pc.pinned = none)
    (hpinned' : pc.pinned = none) (hresult : pc.result = none)
    (hready : pc = .register f → kp = some 0) :
    BufInv
      { pool := s.pool.setFrame f { s.pool.frames f with kp := kp }
        calls := before ++ { c with pc := pc } :: after } := by
  have hmem : c ∈ s.calls := by rw [hcalls]; simp
  have hload := h.loading hmem howned
  refine h.setKp hcalls (by rw [howned, howned']) (fun g hg => ?_) ?_
    fun d hd => h.owner_unique hcalls howned hd
  · have hgf : g ≠ f := by
      intro heq
      rw [heq, hload] at hg
      cases hg
    have hmove := pins_move before after c pc g
    rw [hpinned, hpinned'] at hmove
    rw [BufPool.frames_setFrame_ne _ _ hgf, h.pins_old hcalls hg, Nat.add_right_cancel hmove]
  · refine ⟨fun g hg => ?_, fun g hg => ?_, fun g hg => ?_, fun g hg => ?_⟩
    · rw [howned'] at hg
      cases hg
      rw [BufPool.frames_setFrame_self]
      exact (h.calls c hmem).owned f howned
    · have hg' : pc = .register g := hg
      rw [hg'] at howned'
      cases howned'
      rw [BufPool.frames_setFrame_self]
      exact hready hg'
    · rw [hpinned'] at hg
      cases hg
    · rw [hresult] at hg
      cases hg

/-- A call without a frame relies on nothing. -/
theorem callInv_of_none (howned : c.pc.owned = none) (hpinned : c.pc.pinned = none)
    (hresult : c.pc.result = none) : CallInv p c := by
  refine ⟨fun g hg => ?_, fun g hg => ?_, fun g hg => ?_, fun g hg => ?_⟩
  · rw [howned] at hg
    cases hg
  · rw [hg] at howned
    cases howned
  · rw [hpinned] at hg
    cases hg
  · rw [hresult] at hg
    cases hg

/-- A step without effect on the pool. -/
theorem BufInv.idle (h : BufInv s) (hcalls : s.calls = before ++ c :: after)
    (howned : c.pc.owned = none) (hpinned : c.pc.pinned = none) (howned' : pc.owned = none)
    (hpinned' : pc.pinned = none) (hresult : pc.result = none) :
    BufInv { pool := s.pool, calls := before ++ { c with pc := pc } :: after } where
  nr_free := h.nr_free
  nodup := h.nodup
  free := h.free
  owners := fun g => by
    have hmove := owners_move before after c pc g
    rw [howned, howned', ← hcalls] at hmove
    rw [Nat.add_right_cancel hmove]
    exact h.owners g
  map := h.map
  pins := fun g hg => by
    have hmove := pins_move before after c pc g
    rw [hpinned, hpinned', ← hcalls] at hmove
    rw [Nat.add_right_cancel hmove]
    exact h.pins g hg
  calls := fun d hd => by
    rcases mem_calls_cases hd with rfl | hd
    · exact callInv_of_none howned' hpinned' hresult
    · exact h.calls d (mem_of_mem_others hcalls hd)

/-- A frame leaves the free list for its one new owner. -/
theorem BufInv.take {rest : List FrameId} (h : BufInv s) (hcalls : s.calls = before ++ c :: after)
    (howned : c.pc.owned = none) (hpinned : c.pc.pinned = none)
    (hfree : s.pool.free_frames = f :: rest) :
    BufInv
      { pool :=
          { s.pool with free_frames := rest, nr_free := s.pool.nr_free - 1 }.setFrame f
            { s.pool.frames f with state := .LOADING, page_id := c.page_id }
        calls := before ++ { c with pc := .io f } :: after } := by
  have hstate : (s.pool.frames f).state = .FREE := (h.free f).mp (by rw [hfree]; simp)
  have hnodup := h.nodup
  rw [hfree] at hnodup
  obtain ⟨hnotin, hrest⟩ := List.nodup_cons.mp hnodup
  refine ⟨?_, hrest, fun g => ?_, fun g => ?_, fun page_id g => ?_, fun g hg => ?_, fun d hd => ?_⟩
  · have hlen := h.nr_free
    rw [hfree, List.length_cons] at hlen
    simp only [BufPool.setFrame]
    omega
  -- the free list and the state FREE lose the same frame
  · have hmem := h.free g
    rw [hfree, List.mem_cons] at hmem
    by_cases hgf : g = f
    · subst hgf
      rw [BufPool.frames_setFrame_self]
      exact iff_of_false hnotin nofun
    · rw [BufPool.frames_setFrame_ne _ _ hgf, ← hmem]
      exact ⟨Or.inr, fun hor => hor.resolve_left hgf⟩
  -- the frame had no owner and has one now
  · have hmove := owners_move before after c (.io f) g
    have hold := h.owners g
    rw [hcalls] at hold
    rw [howned, hold] at hmove
    dsimp only at hmove ⊢
    by_cases hgf : g = f
    · subst hgf
      rw [BufPool.frames_setFrame_self]
      rw [hstate] at hmove
      simpa [BufPc.owned] using hmove
    · have hne : ¬ (BufPc.io f).owned = some g := fun heq => hgf (Option.some.inj heq).symm
      rw [BufPool.frames_setFrame_ne _ _ hgf]
      simpa [if_neg hne] using hmove
  · by_cases hgf : g = f
    · subst hgf
      rw [BufPool.frames_setFrame_self]
      refine iff_of_false (fun hmap => ?_) nofun
      have hvalid := ((h.map page_id g).mp hmap).1
      rw [hstate] at hvalid
      cases hvalid
    · rw [BufPool.frames_setFrame_ne _ _ hgf]
      exact h.map page_id g
  · by_cases hgf : g = f
    · subst hgf
      rw [BufPool.frames_setFrame_self] at hg
      cases hg
    · rw [BufPool.frames_setFrame_ne _ _ hgf] at hg ⊢
      have hmove := pins_move before after c (.io f) g
      rw [hpinned, ← hcalls] at hmove
      rw [Nat.add_right_cancel hmove]
      exact h.pins g hg
  -- the other calls own other frames
  · rcases mem_calls_cases hd with rfl | hd
    · refine ⟨fun g hg => ?_, nofun, nofun, nofun⟩
      cases hg
      rw [BufPool.frames_setFrame_self]
    · have hmem := mem_of_mem_others hcalls hd
      refine (h.calls d hmem).frame (fun g hg => ?_) fun _ _ hm => hm
      have hgf : g ≠ f := by
        intro heq
        have hload := h.loading hmem hg
        rw [heq, hstate] at hload
        cases hload
      exact BufPool.frames_setFrame_ne _ _ hgf

/-- Every failure exit: the frame is free again and at the end of the list. -/
theorem BufInv.giveBack (h : BufInv s) (hcalls : s.calls = before ++ c :: after)
    (howned : c.pc.owned = some f) (hpinned : c.pc.pinned = none) (howned' : pc.owned = none)
    (hpinned' : pc.pinned = none) (hresult : pc.result = none) :
    BufInv
      { pool := (s.pool.setFrame f
          { s.pool.frames f with state := .FREE, page_id := 0 }).kds_buf_return_free_frame f
        calls := before ++ { c with pc := pc } :: after } := by
  have hmemc : c ∈ s.calls := by rw [hcalls]; simp
  have hstate := h.loading hmemc howned
  -- a frame that is owned is LOADING, so it is not in the free list
  have hnotin : f ∉ s.pool.free_frames := by
    intro hin
    have hfree := (h.free f).mp hin
    rw [hstate] at hfree
    cases hfree
  have hself : ((s.pool.setFrame f { s.pool.frames f with state := .FREE, page_id := 0 }
      ).kds_buf_return_free_frame f).frames f =
        { s.pool.frames f with state := .FREE, page_id := 0 } :=
    BufPool.frames_setFrame_self _ _ _
  have hother : ∀ {g}, g ≠ f → ((s.pool.setFrame f { s.pool.frames f with state := .FREE, page_id := 0 }
      ).kds_buf_return_free_frame f).frames g = s.pool.frames g :=
    fun hgf => BufPool.frames_setFrame_ne _ _ hgf
  refine ⟨?_, ?_, fun g => ?_, fun g => ?_, fun page_id g => ?_, fun g hg => ?_, fun d hd => ?_⟩
  · have hlen := h.nr_free
    simp only [BufPool.kds_buf_return_free_frame, BufPool.setFrame, List.length_append,
      List.length_singleton]
    omega
  · exact List.nodup_append.mpr ⟨h.nodup, List.nodup_singleton f, fun a ha b hb heq =>
      hnotin (by rw [List.mem_singleton] at hb; rw [← hb, ← heq]; exact ha)⟩
  -- the free list and the state FREE gain the same frame
  · have hmem := h.free g
    simp only [BufPool.kds_buf_return_free_frame, BufPool.setFrame, List.mem_append,
      List.mem_singleton]
    by_cases hgf : g = f
    · subst hgf
      simp
    · rw [Function.update_of_ne hgf, ← hmem]
      exact ⟨fun hor => hor.resolve_right hgf, Or.inl⟩
  -- its owner has let go of it
  · have hmove := owners_move before after c pc g
    have hold := h.owners g
    rw [hcalls] at hold
    rw [howned, howned', hold] at hmove
    dsimp only at hmove ⊢
    by_cases hgf : g = f
    · subst hgf
      rw [hself]
      rw [hstate] at hmove
      simpa using hmove
    · rw [hother hgf]
      simpa [Ne.symm hgf] using hmove
  · by_cases hgf : g = f
    · subst hgf
      rw [hself]
      refine iff_of_false (fun hmap => ?_) nofun
      have hvalid := ((h.map page_id g).mp hmap).1
      rw [hstate] at hvalid
      cases hvalid
    · rw [hother hgf]
      exact h.map page_id g
  · by_cases hgf : g = f
    · subst hgf
      rw [hself] at hg
      cases hg
    · rw [hother hgf] at hg ⊢
      have hmove := pins_move before after c pc g
      rw [hpinned, hpinned', ← hcalls] at hmove
      rw [Nat.add_right_cancel hmove]
      exact h.pins g hg
  -- nobody else owned it
  · rcases mem_calls_cases hd with rfl | hd
    · exact callInv_of_none howned' hpinned' hresult
    · have hmem := mem_of_mem_others hcalls hd
      refine (h.calls d hmem).frame (fun g hg => ?_) fun _ _ hm => hm
      have hgf : g ≠ f := fun heq => h.owner_unique hcalls howned hd (heq ▸ hg)
      exact hother hgf

/-- The frame enters the table, pinned once: nobody else could pin it before. -/
theorem BufInv.register (h : BufInv s) (hcalls : s.calls = before ++ c :: after)
    (hpc : c.pc = .register f) (hmap : s.pool.map (s.pool.frames f).page_id = none) :
    BufInv
      { pool :=
          ({ s.pool with map := Function.update s.pool.map (s.pool.frames f).page_id (some f)
            }.setFrame f { s.pool.frames f with state := .VALID }).kds_buf_pin f
        calls := before ++ { c with pc := .returned f } :: after } := by
  have hmemc : c ∈ s.calls := by rw [hcalls]; simp
  have howned : c.pc.owned = some f := by rw [hpc]; rfl
  have hpinned : c.pc.pinned = none := by rw [hpc]; rfl
  -- until now the frame was LOADING, owned, and pinned by nobody
  have hstate := h.loading hmemc howned
  have hpage := (h.calls c hmemc).owned f howned
  have hzero := (h.calls c hmemc).ready f hpc
  have hself : (({ s.pool with map := Function.update s.pool.map (s.pool.frames f).page_id (some f)
      }.setFrame f { s.pool.frames f with state := .VALID }).kds_buf_pin f).frames f =
        { state := .VALID, page_id := (s.pool.frames f).page_id, kp := some 1 } := by
    unfold BufPool.kds_buf_pin
    rw [BufPool.frames_setFrame_self, BufPool.frames_setFrame_self, hzero]
    rfl
  have hother : ∀ {g}, g ≠ f →
      (({ s.pool with map := Function.update s.pool.map (s.pool.frames f).page_id (some f)
        }.setFrame f { s.pool.frames f with state := .VALID }).kds_buf_pin f).frames g =
          s.pool.frames g := by
    intro g hgf
    unfold BufPool.kds_buf_pin
    rw [BufPool.frames_setFrame_ne _ _ hgf, BufPool.frames_setFrame_ne _ _ hgf]
  refine ⟨h.nr_free, h.nodup, fun g => ?_, fun g => ?_, fun page_id g => ?_, fun g hg => ?_,
    fun d hd => ?_⟩
  · by_cases hgf : g = f
    · subst hgf
      rw [hself]
      refine iff_of_false (fun hin => ?_) nofun
      have hfree := (h.free g).mp hin
      rw [hstate] at hfree
      cases hfree
    · rw [hother hgf]
      exact h.free g
  · have hmove := owners_move before after c (.returned f) g
    have hold := h.owners g
    rw [hcalls] at hold
    rw [howned, hold] at hmove
    dsimp only at hmove ⊢
    by_cases hgf : g = f
    · subst hgf
      rw [hself]
      rw [hstate] at hmove
      simpa [BufPc.owned] using hmove
    · rw [hother hgf]
      simpa [Ne.symm hgf, BufPc.owned] using hmove
  · -- the table had no entry for this page, and this frame was in none
    show Function.update s.pool.map (s.pool.frames f).page_id (some f) page_id = some g ↔ _
    -- the owner gives the frame up to the table
    by_cases hgf : g = f
    · subst hgf
      rw [hself]
      by_cases hid : page_id = (s.pool.frames g).page_id
      · subst hid
        simp
      · rw [Function.update_of_ne hid]
        refine iff_of_false (fun hm => ?_) fun hr => hid hr.2.symm
        have hvalid := ((h.map page_id g).mp hm).1
        rw [hstate] at hvalid
        cases hvalid
    · rw [hother hgf]
      by_cases hid : page_id = (s.pool.frames f).page_id
      · subst hid
        rw [Function.update_self]
        refine iff_of_false (fun heq => hgf (Option.some.inj heq).symm) fun hr => ?_
        have hm := (h.map _ _).mpr hr
        rw [hmap] at hm
        cases hm
      · rw [Function.update_of_ne hid]
        exact h.map page_id g
  · have hmove := pins_move before after c (.returned f) g
    rw [hpinned, ← hcalls] at hmove
    by_cases hgf : g = f
    · subst hgf
      -- the caller's pin is the first
      have hnone := h.pins_eq_zero (f := g) (by rw [hstate]; nofun)
      rw [hnone] at hmove
      rw [hself]
      simp only [BufPc.pinned, reduceCtorEq, if_false, if_true, Nat.add_zero, Nat.zero_add] at hmove
      rw [hmove]
      rfl
    · rw [hother hgf] at hg ⊢
      have hne : ¬ (BufPc.returned f).pinned = some g := fun heq => hgf (Option.some.inj heq).symm
      rw [if_neg hne] at hmove
      rw [Nat.add_right_cancel hmove]
      exact h.pins g hg
  · have hnew : ∀ page_id g, s.pool.map page_id = some g →
        Function.update s.pool.map (s.pool.frames f).page_id (some f) page_id = some g := by
      intro page_id g hm
      have hid : page_id ≠ (s.pool.frames f).page_id := by
        intro heq
        rw [heq, hmap] at hm
        cases hm
      rw [Function.update_of_ne hid]
      exact hm
    -- the entries of the other calls stay
    rcases mem_calls_cases hd with rfl | hd
    · have hentry : Function.update s.pool.map (s.pool.frames f).page_id (some f) c.page_id =
          some f := by
        rw [hpage, Function.update_self]
      exact ⟨nofun, nofun, fun g hg => hentry.trans hg, fun g hg => hentry.trans hg⟩
    · have hmem := mem_of_mem_others hcalls hd
      refine (h.calls d hmem).frame (fun g hg => ?_) hnew
      exact hother fun heq => h.owner_unique hcalls howned hd (heq ▸ hg)

/-- **Step lemma**. -/
theorem BufInv.step {s' : BufSys} {a : BufAct} (h : BufInv s) (hstep : BufStep s a s') :
    BufInv s' := by
  cases hstep with
  | call =>
    refine ⟨h.nr_free, h.nodup, h.free, fun g => ?_, h.map, fun g hg => ?_, fun d hd => ?_⟩
    · rw [← h.owners g]
      simp [nrOwners, BufPc.owned]
    · rw [h.pins g hg]
      simp [nrPins, BufPc.pinned]
    · rcases List.mem_append.mp hd with hd | hd
      · exact h.calls d hd
      · rw [List.mem_singleton.mp hd]
        exact callInv_of_none rfl rfl rfl
  | run hcalls hrun =>
    cases BufCall.run_effect hrun with
    | idle howned hpinned howned' hpinned' hresult =>
      exact h.idle hcalls howned hpinned howned' hpinned' hresult
    | pin howned hpinned hmap hpc => exact h.pin hcalls howned hpinned hmap hpc
    | unpin howned hpinned howned' hpinned' hresult =>
      exact h.unpin hcalls howned hpinned howned' hpinned' hresult
    | take howned hpinned hfree => exact h.take hcalls howned hpinned hfree
    | write howned howned' hpinned hpinned' hresult hready =>
      exact h.write hcalls howned howned' hpinned hpinned' hresult fun hpc => (hready hpc).1
    | register hpc hmap => exact h.register hcalls hpc hmap
    | giveBack howned hpinned howned' hpinned' hresult =>
      exact h.giveBack hcalls howned hpinned howned' hpinned' hresult

theorem kds_buf_pool_init_state (f : FrameId) : (kds_buf_pool_init.frames f).state = .FREE := rfl

theorem bufInv_init : BufInv { pool := kds_buf_pool_init, calls := [] } := by
  refine ⟨?_, ?_, fun f => ?_, fun f => ?_, fun page_id f => ?_, fun f hf => ?_, nofun⟩
  · unfold kds_buf_pool_init
    rw [List.length_finRange]
  · dsimp only [kds_buf_pool_init]
    exact List.nodup_finRange KDS_BUF_NR_FRAMES
  · refine iff_of_true ?_ (kds_buf_pool_init_state f)
    dsimp only [kds_buf_pool_init]
    exact List.mem_finRange f
  · rw [kds_buf_pool_init_state]
    rfl
  · rw [kds_buf_pool_init_state]
    exact iff_of_false nofun nofun
  · rw [kds_buf_pool_init_state] at hf
    cases hf

theorem bufInv_reachable (h : bufSystem.Reachable s) : BufInv s := by
  refine h.invariant BufInv (fun s hinit => ?_) fun _ _ _ hinv hstep => hinv.step hstep
  have heq : s = { pool := kds_buf_pool_init, calls := [] } := hinit
  rw [heq]
  exact bufInv_init

/-- The three places a frame can be in. -/
inductive FramePlace (s : BufSys) (f : FrameId) : Prop where
  | free : (s.pool.frames f).state = .FREE → f ∈ s.pool.free_frames → nrOwners s.calls f = 0 →
      (∀ page_id, s.pool.map page_id ≠ some f) → FramePlace s f
  | loading : (s.pool.frames f).state = .LOADING → f ∉ s.pool.free_frames →
      nrOwners s.calls f = 1 → (∀ page_id, s.pool.map page_id ≠ some f) → FramePlace s f
  | valid : (s.pool.frames f).state = .VALID → f ∉ s.pool.free_frames → nrOwners s.calls f = 0 →
      s.pool.map (s.pool.frames f).page_id = some f → FramePlace s f

theorem BufInv.place (h : BufInv s) (f : FrameId) : FramePlace s f := by
  have hfree := h.free f
  have howners := h.owners f
  have hmap : ∀ page_id, s.pool.map page_id = some f → (s.pool.frames f).state = .VALID :=
    fun page_id hm => ((h.map page_id f).mp hm).1
  cases hstate : (s.pool.frames f).state with
  | FREE =>
    rw [hstate] at hfree howners hmap
    exact .free hstate (hfree.mpr rfl) howners fun page_id hm => nomatch hmap page_id hm
  | LOADING =>
    rw [hstate] at hfree howners hmap
    exact .loading hstate (fun hin => nomatch hfree.mp hin) howners
      fun page_id hm => nomatch hmap page_id hm
  | VALID =>
    rw [hstate] at hfree howners
    exact .valid hstate (fun hin => nomatch hfree.mp hin) howners
      ((h.map _ f).mpr ⟨hstate, rfl⟩)

/-- **The buffer pool is consistent** at any point of any number of calls:
    every frame is free, in the hands of one call, or valid and in the table;
    the table is injective and has exactly the valid frames; the counter is
    the length of the free list; the calls that return a frame for one page
    return one frame, and its reference count is the number of pins. -/
theorem buffer_pool_consistent (h : bufSystem.Reachable s) :
    (∀ f, FramePlace s f) ∧
    (∀ page_id page_id' f, s.pool.map page_id = some f → s.pool.map page_id' = some f →
      page_id = page_id') ∧
    (∀ page_id f, s.pool.map page_id = some f ↔
      (s.pool.frames f).state = .VALID ∧ (s.pool.frames f).page_id = page_id) ∧
    s.pool.nr_free = s.pool.free_frames.length ∧
    s.pool.free_frames.Nodup ∧
    (∀ c ∈ s.calls, ∀ d ∈ s.calls, ∀ f g, c.page_id = d.page_id → c.pc.result = some f →
      d.pc.result = some g → f = g) ∧
    (∀ c ∈ s.calls, ∀ f, c.pc.result = some f →
      (s.pool.frames f).kp = some (nrPins s.calls f : Int)) := by
  have hinv := bufInv_reachable h
  refine ⟨hinv.place, ?_, hinv.map, hinv.nr_free, hinv.nodup, ?_, ?_⟩
  · intro page_id page_id' f hp hp'
    rw [← ((hinv.map _ _).mp hp).2, ((hinv.map _ _).mp hp').2]
  · intro c hc d hd f g hid hcf hdg
    have hf := (hinv.calls c hc).result f hcf
    have hg := (hinv.calls d hd).result g hdg
    rw [hid, hg] at hf
    exact (Option.some.inj hf).symm
  · intro c hc f hcf
    exact hinv.pins f ((hinv.map _ _).mp ((hinv.calls c hc).result f hcf)).1

end Inv

/-! ### Two loads of one page -/

/-- Call number `i` takes its next step, in which nothing fails. -/
def BufSys.turn (s : BufSys) (i : Nat) : BufSys :=
  match s.calls[i]? with
  | none => s
  | some c =>
      match c.run s.pool .fine with
      | none => s
      | some (p, pc) => { pool := p, calls := s.calls.set i { c with pc := pc } }

theorem turn_reachable {s : BufSys} (h : bufSystem.Reachable s) (i : Nat) :
    bufSystem.Reachable (s.turn i) := by
  unfold BufSys.turn
  cases hcall : s.calls[i]? with
  | none => exact h
  | some c =>
    dsimp only
    cases hrun : c.run s.pool .fine with
    | none => exact h
    | some out =>
      obtain ⟨p, pc⟩ := out
      obtain ⟨hi, hget⟩ := List.getElem?_eq_some_iff.mp hcall
      have hsplit : s.calls = s.calls.take i ++ c :: s.calls.drop (i + 1) := by
        rw [← hget, ← List.drop_eq_getElem_cons hi, List.take_append_drop]
      dsimp only
      rw [List.set_eq_take_append_cons_drop, if_pos hi]
      exact h.step (.run c .fine) (BufStep.run hsplit hrun)

theorem turns_reachable (turns : List Nat) : ∀ {s : BufSys}, bufSystem.Reachable s →
    bufSystem.Reachable (turns.foldl BufSys.turn s) := by
  induction turns with
  | nil => exact fun h => h
  | cons i turns ih => exact fun h => ih (turn_reachable h i)

/-- Two loads of page 5 begin. -/
def twoLoads : BufSys where
  pool := kds_buf_pool_init
  calls := [⟨.kds_buf_lookup_or_load, 5, .lookup⟩, ⟨.kds_buf_lookup_or_load, 5, .lookup⟩]

/-- They take turns up to the registration, which the second call loses. -/
def twoLoadsReturned : BufSys := [0, 1, 0, 1, 0, 1, 0, 1, 1, 1].foldl BufSys.turn twoLoads

theorem twoLoadsReturned_reachable : bufSystem.Reachable twoLoadsReturned := by
  have hinit : bufSystem.Reachable { pool := kds_buf_pool_init, calls := [] } := .init rfl
  have hfirst : bufSystem.Reachable
      { pool := kds_buf_pool_init, calls := [⟨.kds_buf_lookup_or_load, 5, .lookup⟩] } :=
    hinit.step (.call .kds_buf_lookup_or_load 5) BufStep.call
  have hboth : bufSystem.Reachable twoLoads :=
    hfirst.step (.call .kds_buf_lookup_or_load 5) BufStep.call
  exact turns_reachable _ hboth

/-- Both return the frame of the first, which then has two references. -/
theorem buffer_pool_consistent_two_loads :
    bufSystem.Reachable twoLoadsReturned ∧
      twoLoadsReturned.calls.map BufCall.pc = [.returned ⟨0, by decide⟩, .returned ⟨0, by decide⟩] ∧
      (twoLoadsReturned.pool.frames ⟨0, by decide⟩).kp = some 2 ∧
      ∀ f, FramePlace twoLoadsReturned f := by
  have hpcs : twoLoadsReturned.calls.map BufCall.pc =
      [.returned ⟨0, by decide⟩, .returned ⟨0, by decide⟩] := by decide +kernel
  have hnr : nrPins twoLoadsReturned.calls ⟨0, by decide⟩ = 2 := by decide +kernel
  have hmem : BufPc.returned ⟨0, by decide⟩ ∈ twoLoadsReturned.calls.map BufCall.pc := by
    rw [hpcs]
    exact List.mem_cons_self
  obtain ⟨c, hc, hpc⟩ := List.mem_map.mp hmem
  obtain ⟨hplace, -, -, -, -, -, hpins⟩ := buffer_pool_consistent twoLoadsReturned_reachable
  have hkp := hpins c hc ⟨0, by decide⟩ (by rw [hpc]; rfl)
  rw [hnr] at hkp
  exact ⟨twoLoadsReturned_reachable, hpcs, hkp, hplace⟩

end Kds
