import Kds.Page
import Kds.Meta
import Mathlib.Logic.Function.Basic

/-! # The buffer pool, as its clients use it

    `page_mgr.c` and `page.c`: looking a page up pins it and brings it into
    the pool, a new page starts as a zeroed and written-out frame, and the
    rest changes one frame in place. A frame is found again through its page
    id, so the page id stands for the `kds_frame_t` pointer.

    `fail` is the outcome of the next operations that can fail (a disk read,
    a frame or memory that is not to be had): entry 0 decides the next one.
    A run without failures is one on which all its entries are `none`.
-/

open Bytes

namespace Kds

/-- The pool, the superblock its page ids come from, and the disk behind it. -/
structure Pool where
  superblock : Option Superblock
  cached : PageId → Option Frame
  refcnt : PageId → Int
  disk : PageId → Frame
  fail : Nat → Option Errno

namespace Pool

/-- The contents of a page: its frame in the pool, or what a load would bring in. -/
def frame (p : Pool) (id : PageId) : Frame :=
  (p.cached id).getD { p.disk id with id := id }

/-- Changes the frame of page `id` in place. -/
def setFrame (p : Pool) (id : PageId) (f : Frame) : Pool :=
  { p with cached := Function.update p.cached id (some f) }

/-- Takes the next outcome off the failure pattern. -/
def nextFail (p : Pool) : Pool := { p with fail := fun n => p.fail (n + 1) }

/-- No operation fails from here on. -/
def NoFailure (p : Pool) : Prop := ∀ n, p.fail n = none

@[simp] theorem frame_setFrame_self (p : Pool) (id : PageId) (f : Frame) :
    (p.setFrame id f).frame id = f := by
  simp [frame, setFrame]

theorem frame_setFrame_ne (p : Pool) {id j : PageId} (f : Frame) (h : j ≠ id) :
    (p.setFrame id f).frame j = p.frame j := by
  simp [frame, setFrame, Function.update_of_ne h]

@[simp] theorem fail_setFrame (p : Pool) (id : PageId) (f : Frame) :
    (p.setFrame id f).fail = p.fail := rfl

@[simp] theorem refcnt_setFrame (p : Pool) (id : PageId) (f : Frame) :
    (p.setFrame id f).refcnt = p.refcnt := rfl

theorem loaded_setFrame {p : Pool} {id j : PageId} {f : Frame} (h : (p.cached j).isSome) :
    ((p.setFrame id f).cached j).isSome := by
  by_cases hj : j = id
  · subst hj
    simp [setFrame]
  · simpa only [setFrame, Function.update_of_ne hj] using h

theorem setFrame_setFrame (p : Pool) (id : PageId) (f g : Frame) :
    (p.setFrame id f).setFrame id g = p.setFrame id g := by
  simp [setFrame]

end Pool

/-! ## Section 1: Pins -/

def kds_buf_pin (p : Pool) (id : PageId) : Pool :=
  { p with refcnt := Function.update p.refcnt id (p.refcnt id + 1) }

def kds_buf_unpin (p : Pool) (id : PageId) : Pool :=
  { p with refcnt := Function.update p.refcnt id (p.refcnt id - 1) }

@[simp] theorem frame_pin (p : Pool) (id : PageId) : (kds_buf_pin p id).frame = p.frame := rfl
@[simp] theorem frame_unpin (p : Pool) (id : PageId) : (kds_buf_unpin p id).frame = p.frame := rfl
@[simp] theorem fail_pin (p : Pool) (id : PageId) : (kds_buf_pin p id).fail = p.fail := rfl
@[simp] theorem fail_unpin (p : Pool) (id : PageId) : (kds_buf_unpin p id).fail = p.fail := rfl

/-! ## Section 2: Lookup and allocation -/

/-- `kds_buf_lookup_or_load`: the page, pinned. A page that is not in the pool
    is read from disk into a frame with no pins. -/
def kds_buf_lookup_or_load (p : Pool) (id : PageId) : Except Errno PageId × Pool :=
  match p.cached id with
  | some _ => (.ok id, kds_buf_pin p id)
  | none =>
      match p.fail 0 with
      | some e => (.error e, p.nextFail)
      | none =>
          let p := p.nextFail.setFrame id { p.disk id with id := id }
          (.ok id, kds_buf_pin { p with refcnt := Function.update p.refcnt id 0 } id)

/-- The frame `kds_buf_alloc_new` sets up: zeroed, its header at the front. -/
def newFrame (id : PageId) (flags : UInt8) : Frame :=
  let hdr : PageHdr := { type := .invalid, crc := 0, flags := flags, reserved1 := fun _ => 0 }
  { id := id
    hdr := hdr
    page := Mem.write (fun _ => 0) 0 hdr.bytes }

/-- `kds_buf_alloc_new`: the page is written to disk with `DIRTY` set, and
    the frame keeps it cleared. -/
def kds_buf_alloc_new (p : Pool) (id : PageId) : Except Errno PageId × Pool :=
  match p.cached id with
  | some _ => (.error .EEXIST, p)
  | none =>
      match p.fail 0 with
      | some e => (.error e, p.nextFail)
      | none =>
          let f := newFrame id (KDS_PAGE_FLAG_ALLOC ||| KDS_PAGE_FLAG_DIRTY)
          let p := { p.nextFail with disk := Function.update p.disk id f }
          let p := p.setFrame id { f with hdr := { f.hdr with flags := KDS_PAGE_FLAG_ALLOC } }
          (.ok id, kds_buf_pin { p with refcnt := Function.update p.refcnt id 0 } id)

/-- Without failures a lookup returns the page and changes no contents. -/
theorem lookup_or_load_ok {p : Pool} (h : p.NoFailure) (id : PageId) :
    ∃ p', kds_buf_lookup_or_load p id = (.ok id, p') ∧ p'.frame = p.frame ∧ p'.NoFailure ∧
      ∀ j, (p.cached j).isSome → (p'.cached j).isSome := by
  unfold kds_buf_lookup_or_load
  cases hc : p.cached id with
  | some f => exact ⟨_, rfl, rfl, h, fun _ hj => hj⟩
  | none =>
    simp only [h 0]
    refine ⟨_, rfl, ?_, fun n => h (n + 1), fun j hj => ?_⟩
    · funext j
      show (Function.update p.cached id _ j).getD { p.disk j with id := j } = p.frame j
      by_cases hj : j = id
      · subst hj
        simp [Pool.frame, hc]
      · simp [Pool.frame, Function.update_of_ne hj]
    · show (Function.update p.cached id _ j).isSome
      by_cases hji : j = id
      · subst hji
        rw [Function.update_self]
        rfl
      · rwa [Function.update_of_ne hji]

/-- A page in the pool is pinned and nothing else happens. -/
theorem lookup_or_load_cached {p : Pool} {id : PageId} (h : (p.cached id).isSome) :
    kds_buf_lookup_or_load p id = (.ok id, kds_buf_pin p id) := by
  obtain ⟨f, hf⟩ := Option.isSome_iff_exists.mp h
  simp only [kds_buf_lookup_or_load, hf]

@[simp] theorem unpin_pin (p : Pool) (id : PageId) : kds_buf_unpin (kds_buf_pin p id) id = p := by
  simp [kds_buf_unpin, kds_buf_pin]

/-- Nothing happened but that pages were read from disk. -/
structure Pool.LoadOnly (p p' : Pool) : Prop where
  superblock : p'.superblock = p.superblock
  disk : p'.disk = p.disk
  frame : p'.frame = p.frame
  cached : ∀ j f, p'.cached j = some f → p.cached j = some f ∨ f = { p.disk j with id := j }

theorem Pool.LoadOnly.refl (p : Pool) : p.LoadOnly p := ⟨rfl, rfl, rfl, fun _ _ h => Or.inl h⟩

theorem Pool.LoadOnly.trans {p p' p'' : Pool} (h : p.LoadOnly p') (h' : p'.LoadOnly p'') :
    p.LoadOnly p'' where
  superblock := h'.superblock.trans h.superblock
  disk := h'.disk.trans h.disk
  frame := h'.frame.trans h.frame
  cached := by
    intro j f hf
    rcases h'.cached j f hf with hf | hf
    · exact h.cached j f hf
    · rw [h.disk] at hf
      exact Or.inr hf

/-- A lookup, whatever it returns. -/
theorem lookup_or_load_loadOnly {p p' : Pool} {id : PageId} {res : Except Errno PageId}
    (h : kds_buf_lookup_or_load p id = (res, p')) :
    p.LoadOnly p' ∧ ∀ frame, res = .ok frame → frame = id ∧ (p'.cached id).isSome := by
  unfold kds_buf_lookup_or_load at h
  cases hc : p.cached id with
  | some f =>
    rw [hc] at h
    obtain ⟨rfl, rfl⟩ := Prod.mk.inj h
    refine ⟨⟨rfl, rfl, rfl, fun _ _ h => Or.inl h⟩, fun frame hf => ⟨(Except.ok.inj hf).symm, ?_⟩⟩
    exact Option.isSome_iff_exists.mpr ⟨f, hc⟩
  | none =>
    rw [hc] at h
    dsimp only at h
    cases hfail : p.fail 0 with
    | some e =>
      rw [hfail] at h
      obtain ⟨rfl, rfl⟩ := Prod.mk.inj h
      exact ⟨⟨rfl, rfl, rfl, fun _ _ h => Or.inl h⟩, fun frame hf => by simp at hf⟩
    | none =>
      rw [hfail] at h
      obtain ⟨rfl, rfl⟩ := Prod.mk.inj h
      refine ⟨⟨rfl, rfl, ?_, ?_⟩, fun frame hf => ⟨(Except.ok.inj hf).symm, ?_⟩⟩
      · funext j
        show (Function.update p.cached id _ j).getD { p.disk j with id := j } = p.frame j
        by_cases hj : j = id
        · subst hj
          simp [Pool.frame, hc]
        · simp [Pool.frame, Function.update_of_ne hj]
      · intro j f hf
        change Function.update p.cached id _ j = some f at hf
        by_cases hj : j = id
        · subst hj
          rw [Function.update_self] at hf
          exact Or.inr (Option.some.inj hf).symm
        · rw [Function.update_of_ne hj] at hf
          exact Or.inl hf
      · show (Function.update p.cached id _ id).isSome
        rw [Function.update_self]
        rfl

/-- A lookup takes no page out of the pool. -/
theorem lookup_or_load_keeps {p p' : Pool} {id : PageId} {res : Except Errno PageId}
    (h : kds_buf_lookup_or_load p id = (res, p')) (j : PageId) (hj : (p.cached j).isSome) :
    (p'.cached j).isSome := by
  unfold kds_buf_lookup_or_load at h
  cases hc : p.cached id with
  | some f =>
    rw [hc] at h
    obtain ⟨-, rfl⟩ := Prod.mk.inj h
    exact hj
  | none =>
    rw [hc] at h
    dsimp only at h
    cases hfail : p.fail 0 with
    | some e =>
      rw [hfail] at h
      obtain ⟨-, rfl⟩ := Prod.mk.inj h
      exact hj
    | none =>
      rw [hfail] at h
      obtain ⟨-, rfl⟩ := Prod.mk.inj h
      exact Pool.loaded_setFrame (p := p.nextFail) hj

/-- A new page: on disk and in the pool, and nothing else changes. -/
theorem alloc_new_cases {p p' : Pool} {id : PageId} {res : Except Errno PageId}
    (h : kds_buf_alloc_new p id = (res, p')) :
    p'.superblock = p.superblock ∧
      (∀ e, res = .error e → p'.cached = p.cached ∧ p'.disk = p.disk) ∧
      (∀ frame, res = .ok frame → frame = id ∧ p.cached id = none ∧
        p'.disk = Function.update p.disk id
          (newFrame id (KDS_PAGE_FLAG_ALLOC ||| KDS_PAGE_FLAG_DIRTY)) ∧
        p'.cached = Function.update p.cached id
          (some (let f := newFrame id (KDS_PAGE_FLAG_ALLOC ||| KDS_PAGE_FLAG_DIRTY)
            { f with hdr := { f.hdr with flags := KDS_PAGE_FLAG_ALLOC } }))) := by
  unfold kds_buf_alloc_new at h
  cases hc : p.cached id with
  | some f =>
    rw [hc] at h
    obtain ⟨rfl, rfl⟩ := Prod.mk.inj h
    exact ⟨rfl, fun e _ => ⟨rfl, rfl⟩, fun frame hf => by simp at hf⟩
  | none =>
    rw [hc] at h
    dsimp only at h
    cases hfail : p.fail 0 with
    | some e =>
      rw [hfail] at h
      obtain ⟨rfl, rfl⟩ := Prod.mk.inj h
      exact ⟨rfl, fun e _ => ⟨rfl, rfl⟩, fun frame hf => by simp at hf⟩
    | none =>
      rw [hfail] at h
      obtain ⟨rfl, rfl⟩ := Prod.mk.inj h
      exact ⟨rfl, fun e he => by simp at he, fun frame hf => ⟨(Except.ok.inj hf).symm, rfl, rfl, rfl⟩⟩

theorem alloc_new_frame {p p' : Pool} {id : PageId} {res : Except Errno PageId}
    (h : kds_buf_alloc_new p id = (res, p')) {j : PageId} (hj : j ≠ id) :
    p'.frame j = p.frame j := by
  obtain ⟨-, herr, hok⟩ := alloc_new_cases h
  unfold Pool.frame
  cases res with
  | error e => rw [(herr e rfl).1, (herr e rfl).2]
  | ok frame =>
    obtain ⟨-, -, hdisk, hcached⟩ := hok frame rfl
    rw [hcached, hdisk, Function.update_of_ne hj, Function.update_of_ne hj]

/-! ## Section 3: Which loads fail -/

/-- The page is in the pool, or the load after `k` others does not fail. -/
def LoadsAt (p : Pool) (k : Nat) (id : PageId) : Prop := (p.cached id).isSome ∨ p.fail k = none

/-- Loads made for a page. -/
def loadCount (p : Pool) (id : PageId) : Nat := if (p.cached id).isSome then 0 else 1

/-- What work on one page does to the pool elsewhere. -/
structure RowElsewhere (p p' : Pool) (page_id : PageId) : Prop where
  cached : ∀ id ≠ page_id, p'.cached id = p.cached id
  frame : ∀ id ≠ page_id, p'.frame id = p.frame id
  fail : ∀ k, p'.fail k = p.fail (k + loadCount p page_id)

theorem RowElsewhere.loadsAt {p p' : Pool} {page_id id : PageId} {k : Nat}
    (h : RowElsewhere p p' page_id) (hne : id ≠ page_id) :
    LoadsAt p' k id ↔ LoadsAt p (k + loadCount p page_id) id := by
  unfold LoadsAt
  rw [h.cached id hne, h.fail]

theorem RowElsewhere.loadCount_eq {p p' : Pool} {page_id id : PageId}
    (h : RowElsewhere p p' page_id) (hne : id ≠ page_id) : loadCount p' id = loadCount p id := by
  unfold loadCount
  rw [h.cached id hne]

/-- **A lookup** returns the page exactly if it can be loaded. -/
theorem lookup_or_load_iff {p p' : Pool} {page_id : PageId} {res : Except Errno PageId}
    (h : kds_buf_lookup_or_load p page_id = (res, p')) :
    RowElsewhere p p' page_id ∧ p'.frame page_id = p.frame page_id ∧
      ((∃ e, res = .error e ∧ ¬ LoadsAt p 0 page_id) ∨
        (res = .ok page_id ∧ LoadsAt p 0 page_id ∧ (p'.cached page_id).isSome)) := by
  have hframe := (lookup_or_load_loadOnly h).1.frame
  unfold kds_buf_lookup_or_load at h
  cases hc : p.cached page_id with
  | some f =>
    rw [hc] at h
    obtain ⟨rfl, rfl⟩ := Prod.mk.inj h
    have hcached : (p.cached page_id).isSome := by simp [hc]
    refine ⟨⟨fun _ _ => rfl, fun _ _ => rfl, fun k => ?_⟩, rfl, .inr ⟨rfl, .inl hcached, hcached⟩⟩
    rw [loadCount, if_pos hcached]
    rfl
  | none =>
    have hcount : loadCount p page_id = 1 := by simp [loadCount, hc]
    rw [hc] at h
    dsimp only at h
    cases hfail : p.fail 0 with
    | some e =>
      rw [hfail] at h
      obtain ⟨rfl, rfl⟩ := Prod.mk.inj h
      refine ⟨⟨fun _ _ => rfl, fun _ _ => rfl, fun k => ?_⟩, rfl, .inl ⟨e, rfl, ?_⟩⟩
      · rw [hcount]
        rfl
      · simp [LoadsAt, hc, hfail]
    | none =>
      rw [hfail] at h
      obtain ⟨rfl, rfl⟩ := Prod.mk.inj h
      refine ⟨⟨fun id hne => Function.update_of_ne hne _ _, fun id _ => congrFun hframe id,
        fun k => ?_⟩, congrFun hframe page_id, .inr ⟨rfl, .inr hfail, ?_⟩⟩
      · rw [hcount]
        rfl
      · show (Function.update p.cached page_id _ page_id).isSome
        rw [Function.update_self]
        rfl

/-- The page itself may be changed in place. -/
theorem RowElsewhere.setFrame {p p' : Pool} {page_id : PageId} (h : RowElsewhere p p' page_id)
    (f : Frame) : RowElsewhere p (kds_buf_unpin (p'.setFrame page_id f) page_id) page_id where
  cached := fun id hne => (Function.update_of_ne hne _ _).trans (h.cached id hne)
  frame := fun id hne => (Pool.frame_setFrame_ne p' f hne).trans (h.frame id hne)
  fail := h.fail

/-! ## Section 4: Changing a frame -/

/-- `kds_set_page_dirty(frame->kp)`. -/
def setPageDirty (p : Pool) (id : PageId) : Pool :=
  p.setFrame id (kds_set_page_dirty (p.frame id))

/-- `kds_commit_page_hdr`: the header copy goes to the front of the buffer. -/
def kds_commit_page_hdr (p : Pool) (id : PageId) : Pool :=
  let f := p.frame id
  p.setFrame id { f with page := f.page.write 0 f.hdr.bytes }

/-- `frame->kp->hdr.type = type`. -/
def setPageType (p : Pool) (id : PageId) (type : PageType) : Pool :=
  let f := p.frame id
  p.setFrame id { f with hdr := { f.hdr with type := type } }

/-- `kds_free_page`: zeroes the buffer, header included; the header copy
    keeps its type and gets `DIRTY` and `FREE`. -/
def kds_free_page (p : Pool) (id : PageId) : Pool :=
  let f := kds_set_page_dirty { p.frame id with page := fun _ => 0 }
  p.setFrame id { f with hdr := { f.hdr with flags := f.hdr.flags ||| KDS_PAGE_FLAG_FREE } }

end Kds
