import Kds.Heap.Undo

/-! # The undo chain holds the history of a tuple

    One tuple is followed from its insertion through all its updates, with
    the list of its versions as a ghost. In between, other calls work on the
    same pages: updates of other tuples, inserts, retires and deletes of other
    slots, undo entries of other writers, and new undo pages.

    Undo pages only grow. So an entry, once written, stays readable at the
    address packed into the version that replaced it, and the links lead
    through all earlier versions.
-/

open Bytes Lts

namespace Kds

/-! ## Section 1: The system -/

/-- A version of a tuple: its payload and the transaction that wrote it. -/
structure Version where
  data : List UInt8
  xmin : UInt64
  deriving DecidableEq, Repr

structure UndoWorld where
  pages : PageId → Frame
  /-- The tuple that is followed. -/
  current : HeapTid
  /-- Its versions, newest first. -/
  history : List Version

def setPage (pages : PageId → Frame) (id : PageId) (f : Frame) : PageId → Frame :=
  fun p => if p = id then f else pages p

@[simp] theorem setPage_self (pages : PageId → Frame) (id : PageId) (f : Frame) :
    setPage pages id f id = f := by
  simp [setPage]

@[simp] theorem setPage_ne (pages : PageId → Frame) {id p : PageId} (f : Frame) (h : p ≠ id) :
    setPage pages id f p = pages p := by
  simp [setPage, h]

/-- An undo page with an id that fits its packed address. -/
structure UndoPage (pages : PageId → Frame) (id : PageId) : Prop where
  type : (pages id).hdr.type = .undo
  ne_zero : id ≠ 0
  lt : id.toNat < 2 ^ 48

inductive UndoAct where
  /-- `kds_heap_update_tuple` on the followed tuple. -/
  | update (new_data : Option Mem) (new_data_len : UInt16) (xid owner_oid : UInt64)
      (undo : PageId) (kmalloc : Bool)
  /-- `kds_heap_update_tuple` on another one. -/
  | update_other (tid : HeapTid) (new_data : Option Mem) (new_data_len : UInt16)
      (xid owner_oid : UInt64) (undo : PageId) (kmalloc : Bool)
  /-- Any other call on a heap page that does not address the followed tuple. -/
  | heap (id : PageId) (op : HeapOp)
  | undo_write (undo : PageId) (owner_oid : UInt64) (old_tid : HeapTid)
      (prev_undo_ptr xmin xmax : UInt64) (operation : UInt8) (old_data : Option Mem)
      (old_data_len : UInt16) (write_xid : UInt64) (out_tid : Bool)
  /-- `heap_init_page_as` on a page that is not in use. -/
  | init_page (id : PageId) (type : PageType)

/-- Updates of the followed tuple succeed, or fail and leave it in place. -/
def UndoWorld.step (s : UndoWorld) (act : UndoAct) (s' : UndoWorld) : Prop :=
  match act with
  | .update new_data new_data_len xid owner_oid undo kmalloc =>
    undo ≠ s.current.page_id ∧ UndoPage s.pages undo ∧
      ∃ res f u, kds_heap_update_tuple (s.pages s.current.page_id) s.current.slot new_data
          new_data_len xid owner_oid (s.pages undo) kmalloc = (res, f, u) ∧
        match res with
        | .ok tid => s' =
            { pages := setPage (setPage s.pages s.current.page_id f) undo u
              current := tid
              history := ⟨payload new_data new_data_len, xid⟩ :: s.history }
        | .error _ => LiveSlot f.page s.current.slot.toNat ∧
            s' = { s with pages := setPage (setPage s.pages s.current.page_id f) undo u }
  | .update_other tid new_data new_data_len xid owner_oid undo kmalloc =>
    tid ≠ s.current ∧ (s.pages tid.page_id).hdr.type = .heap ∧ undo ≠ tid.page_id ∧
      UndoPage s.pages undo ∧
      ∃ res f u, kds_heap_update_tuple (s.pages tid.page_id) tid.slot new_data
          new_data_len xid owner_oid (s.pages undo) kmalloc = (res, f, u) ∧
        s' = { s with pages := setPage (setPage s.pages tid.page_id f) undo u }
  | .heap id op =>
    (s.pages id).hdr.type = .heap ∧ op.Bounded ∧
      (id = s.current.page_id → op.target (s.pages id) ≠ some s.current.slot.toNat) ∧
      s' = { s with pages := setPage s.pages id (op.run (s.pages id)) }
  | .undo_write undo owner_oid old_tid prev_undo_ptr xmin xmax operation old_data old_data_len
      write_xid out_tid =>
    (s.pages undo).hdr.type = .undo ∧
      s' = { s with
        pages := setPage s.pages undo (kds_undo_write_entry (s.pages undo) owner_oid old_tid
          prev_undo_ptr xmin xmax operation old_data old_data_len write_xid out_tid).2 }
  | .init_page id type =>
    id ≠ s.current.page_id ∧ (s.pages id).hdr.type ≠ .undo ∧
      s' = { s with pages := setPage s.pages id (heap_init_page_as (s.pages id) type) }

/-- Right after `heap_insert_tuple` put the tuple on a heap page. -/
def undoSystem : System UndoWorld UndoAct where
  init s :=
    (∀ id, (s.pages id).id = id) ∧
      (∀ id, (s.pages id).hdr.type = .heap ∨ (s.pages id).hdr.type = .undo →
        heapSystem.Reachable (s.pages id)) ∧
      (s.pages s.current.page_id).hdr.type = .heap ∧
      ∃ f data data_len xmin, heapSystem.Reachable f ∧
        heap_insert_tuple f data data_len xmin = (.ok s.current, s.pages s.current.page_id) ∧
        s.history = [⟨payload data data_len, xmin⟩]
  step := UndoWorld.step

/-! ## Section 2: Following the links -/

/-- What a reader finds who follows `prev_undo_ptr` from `ptr` to 0. -/
def undoChain (pages : PageId → Frame) : Nat → UInt64 → Option (List UndoEntry)
  | fuel, ptr =>
    if ptr = 0 then some []
    else
      match fuel with
      | 0 => none
      | fuel + 1 =>
        let tid := kds_heap_tid_unpack ptr
        match kds_undo_read_entry (pages tid.page_id) tid.slot with
        | .error _ => none
        | .ok entry => (undoChain pages fuel entry.prev_undo_ptr).map (entry :: ·)

/-- The earlier versions as undo entries show them: payload, `xmin`, and as
    `xmax` the transaction of the next newer version. -/
def replaced (newer : UInt64) : List Version → List (List UInt8 × UInt64 × UInt64)
  | [] => []
  | v :: older => (v.data, v.xmin, newer) :: replaced v.xmin older

/-- The entries from `ptr` on are those of the versions `older`. -/
def Chain (pages : PageId → Frame) (ptr newer : UInt64) (older : List Version) : Prop :=
  match older with
  | [] => ptr = 0
  | v :: rest =>
    ptr ≠ 0 ∧ (pages (kds_heap_tid_unpack ptr).page_id).hdr.type = .undo ∧
      ∃ t entry, (slotTable (pages (kds_heap_tid_unpack ptr).page_id)).Holds
          (kds_heap_tid_unpack ptr).slot.toNat t ∧
        t.data = UndoEntry.bytes entry ∧ entry.data = v.data ∧ entry.xmin = v.xmin ∧
        entry.xmax = newer ∧ Chain pages entry.prev_undo_ptr v.xmin rest

/-- Undo pages stay undo pages and keep their entries. -/
def UndoGrows (pages pages' : PageId → Frame) : Prop :=
  ∀ id, (pages id).hdr.type = .undo → (pages' id).hdr.type = .undo ∧
    ∀ i t, (slotTable (pages id)).Holds i t → (slotTable (pages' id)).Holds i t

theorem UndoGrows.refl (pages : PageId → Frame) : UndoGrows pages pages :=
  fun _ h => ⟨h, fun _ _ ht => ht⟩

theorem UndoGrows.trans {p₁ p₂ p₃ : PageId → Frame} (h₁ : UndoGrows p₁ p₂)
    (h₂ : UndoGrows p₂ p₃) : UndoGrows p₁ p₃ := by
  intro id htype
  obtain ⟨htype₂, hkeep₁⟩ := h₁ id htype
  obtain ⟨htype₃, hkeep₂⟩ := h₂ id htype₂
  exact ⟨htype₃, fun i t ht => hkeep₂ i t (hkeep₁ i t ht)⟩

/-- Writing a page that is no undo page, or adding entries to one that is. -/
theorem UndoGrows.setPage {pages : PageId → Frame} {id : PageId} {f : Frame}
    (h : (pages id).hdr.type = .undo → f.hdr.type = .undo ∧
      ∀ i t, (slotTable (pages id)).Holds i t → (slotTable f).Holds i t) :
    UndoGrows pages (setPage pages id f) := by
  intro p htype
  by_cases hp : p = id
  · subst hp
    rw [setPage_self]
    exact h htype
  · rw [setPage_ne _ _ hp]
    exact ⟨htype, fun _ _ ht => ht⟩

theorem Chain.grows {pages pages' : PageId → Frame} (hg : UndoGrows pages pages')
    {ptr newer : UInt64} {older : List Version} (h : Chain pages ptr newer older) :
    Chain pages' ptr newer older := by
  induction older generalizing ptr newer with
  | nil => exact h
  | cons v rest ih =>
    obtain ⟨hne, htype, t, entry, hholds, ht, hdata, hxmin, hxmax, hrest⟩ := h
    obtain ⟨htype', hkeep⟩ := hg _ htype
    exact ⟨hne, htype', t, entry, hkeep _ _ hholds, ht, hdata, hxmin, hxmax, ih hrest⟩

/-- Following a chain reads its versions, one unit of fuel each. -/
theorem Chain.read {pages : PageId → Frame}
    (hinv : ∀ id, (pages id).hdr.type = .undo → HeapInv (pages id).page)
    {ptr newer : UInt64} {older : List Version} (h : Chain pages ptr newer older) :
    ∃ entries, (∀ fuel, older.length ≤ fuel → undoChain pages fuel ptr = some entries) ∧
      entries.map (fun entry => (entry.data, entry.xmin, entry.xmax)) = replaced newer older := by
  induction older generalizing ptr newer with
  | nil =>
    refine ⟨[], ?_, rfl⟩
    intro fuel _
    have hzero : ptr = 0 := h
    unfold undoChain
    rw [if_pos hzero]
  | cons v rest ih =>
    obtain ⟨hne, htype, t, entry, hholds, ht, hdata, hxmin, hxmax, hrest⟩ := h
    obtain ⟨entries, hfuel, hmap⟩ := ih hrest
    refine ⟨entry :: entries, ?_, ?_⟩
    · intro fuel hle
      cases fuel with
      | zero => simp at hle
      | succ fuel =>
        unfold undoChain
        rw [if_neg hne]
        simp only [kds_undo_read_spec (hinv _ htype) hholds ht,
          hfuel fuel (by simpa using hle), Option.map_some]
    · rw [List.map_cons, hmap, hdata, hxmin, hxmax]
      rfl

/-! ## Section 3: The invariant -/

structure HistoryInv (s : UndoWorld) : Prop where
  id : ∀ id, (s.pages id).id = id
  inv : ∀ id, (s.pages id).hdr.type = .heap ∨ (s.pages id).hdr.type = .undo →
    HeapInv (s.pages id).page
  type : (s.pages s.current.page_id).hdr.type = .heap
  versions : ∃ v older ptr, s.history = v :: older ∧
    (slotTable (s.pages s.current.page_id)).Holds s.current.slot.toNat ⟨v.xmin, 0, ptr, v.data⟩ ∧
    Chain s.pages ptr v.xmin older

/-- What the pages must be like after a call that is not about the followed tuple. -/
structure PagesKept (s : UndoWorld) (pages : PageId → Frame) : Prop where
  id : ∀ id, (pages id).id = id
  inv : ∀ id, (pages id).hdr.type = .heap ∨ (pages id).hdr.type = .undo → HeapInv (pages id).page
  type : (pages s.current.page_id).hdr.type = .heap
  grows : UndoGrows s.pages pages

theorem HistoryInv.pagesKept {s : UndoWorld} (h : HistoryInv s) : PagesKept s s.pages :=
  ⟨h.id, h.inv, h.type, .refl _⟩

/-- One page changes and stays what it was. -/
theorem PagesKept.setPage {s : UndoWorld} {pages : PageId → Frame} (h : PagesKept s pages)
    {id : PageId} {f : Frame} (hf : (pages id).Kept f)
    (hgrow : (pages id).hdr.type = .undo →
      ∀ i t, (slotTable (pages id)).Holds i t → (slotTable f).Holds i t) :
    PagesKept s (setPage pages id f) := by
  constructor
  · intro p
    by_cases hp : p = id
    · subst hp
      rw [setPage_self, hf.id, h.id]
    · rw [setPage_ne _ _ hp, h.id]
  · intro p
    by_cases hp : p = id
    · subst hp
      rw [setPage_self]
      exact fun _ => hf.inv
    · rw [setPage_ne _ _ hp]
      exact h.inv p
  · by_cases hp : s.current.page_id = id
    · subst hp
      rw [setPage_self, hf.type, h.type]
    · rw [setPage_ne _ _ hp, h.type]
  · apply h.grows.trans
    apply UndoGrows.setPage
    intro htype
    exact ⟨hf.type.trans htype, hgrow htype⟩

/-- The followed tuple is as before. -/
theorem HistoryInv.frame {s : UndoWorld} (h : HistoryInv s) {pages : PageId → Frame}
    (hp : PagesKept s pages)
    (hholds : ∀ t, (slotTable (s.pages s.current.page_id)).Holds s.current.slot.toNat t →
      (slotTable (pages s.current.page_id)).Holds s.current.slot.toNat t) :
    HistoryInv { s with pages := pages } := by
  obtain ⟨v, older, ptr, hhist, hcur, hchain⟩ := h.versions
  exact ⟨hp.id, hp.inv, hp.type, v, older, ptr, hhist, hholds _ hcur, hchain.grows hp.grows⟩

theorem SlotTable.Holds.unique {T : SlotTable} {i : Nat} {t t' : Tuple} (h : T.Holds i t)
    (h' : T.Holds i t') : t = t' := by
  unfold SlotTable.Holds at h h'
  rw [h] at h'
  simpa using h'

/-- A call does not change the entries of slots it does not address. -/
theorem HeapOp.Outcome.holds_other {f f' : Frame} {op : HeapOp} (hinv : HeapInv f.page)
    (h : op.Outcome f f') {i : Nat} {t : Tuple} (ht : (slotTable f).Holds i t)
    (htarget : op.target f ≠ some i) : (slotTable f').Holds i t := by
  cases h with
  | failed => exact ht
  | inserted tid _ _ heff =>
    rw [heff.slotTable_eq hinv]
    exact ht.append _
  | overwritten heff =>
    rw [heff.slotTable_eq hinv]
    exact ht.put_other (fun heq => htarget (congrArg some heq)) _
  | retired heff =>
    rw [heff.slotTable_eq hinv]
    exact ht.put_other (fun heq => htarget (congrArg some heq)) _
  | deleted heff =>
    rw [heff.slotTable_stamp hinv]
    exact ht.put_other (fun heq => htarget (congrArg some heq)) _
  | linked heff =>
    rw [heff.slotTable_eq hinv]
    unfold SlotTable.Holds at ht ⊢
    exact ht

/-- The pages after an update: the target page keeps its type, the undo page
    at most grows. -/
theorem PagesKept.updated {s : UndoWorld} (h : PagesKept s s.pages) {target undo : PageId}
    {f u : Frame} (htarget : (s.pages target).hdr.type = .heap) (hne : undo ≠ target)
    (hf : (s.pages target).Kept f) (hu : (s.pages undo).Kept u)
    (hgrow : ∀ i t, (slotTable (s.pages undo)).Holds i t → (slotTable u).Holds i t) :
    PagesKept s (Kds.setPage (Kds.setPage s.pages target f) undo u) := by
  have h₁ : PagesKept s (Kds.setPage s.pages target f) := by
    apply h.setPage hf
    intro htype
    rw [htarget] at htype
    cases htype
  apply h₁.setPage
  · rw [setPage_ne _ _ hne]
    exact hu
  · intro _
    rw [setPage_ne _ _ hne]
    exact hgrow

/-- **Update of the followed tuple**: the old version moves into the chain. -/
theorem HistoryInv.update {s s' : UndoWorld} (h : HistoryInv s) {new_data : Option Mem}
    {new_data_len : UInt16} {xid owner_oid : UInt64} {undo : PageId} {kmalloc : Bool}
    (hstep : s.step (.update new_data new_data_len xid owner_oid undo kmalloc) s') :
    HistoryInv s' := by
  obtain ⟨hne, hundo, res, f, u, hrun, hres⟩ := hstep
  obtain ⟨hf, hu, hcase⟩ := kds_heap_update_spec (h.inv _ (.inl h.type))
    (h.inv _ (.inr hundo.type)) hrun
  have hpages := fun hgrow => h.pagesKept.updated h.type hne hf hu hgrow
  cases res with
  | error e =>
    obtain ⟨hlive, rfl⟩ := hres
    rcases hcase with ⟨e', -, rfl, rfl⟩ | ⟨old, tid, entry, -, -, -, htable, -, -, -, -, hplaced⟩
    · apply h.frame (hpages fun _ _ ht => ht)
      intro t ht
      rw [setPage_ne _ _ (Ne.symm hne), setPage_self]
      exact ht
    · apply h.frame (hpages fun _ _ ht => by rw [htable]; exact ht.append _)
      intro t ht
      rw [setPage_ne _ _ (Ne.symm hne), setPage_self]
      -- the slot was not retired, since the tuple is still there
      generalize hT : slotTable f = T at hplaced
      cases hplaced with
      | untouched => exact ht
      | retired =>
        have hdead := slotTable_holds_iff.mpr ⟨hlive, rfl⟩
        rw [hT] at hdead
        unfold SlotTable.Holds SlotTable.put at hdead
        rw [List.getElem?_set_self ht.lt] at hdead
        cases hdead
  | ok tid =>
    subst hres
    rcases hcase with ⟨e', hbad, -, -⟩ | ⟨old, utid, entry, hold, hid, hslot, htable, hprev, hxmin,
      hxmax, hdata, hplaced⟩
    · cases hbad
    have hkept := hpages fun _ _ ht => by rw [htable]; exact ht.append _
    obtain ⟨v, older, ptr, hhist, hcur, hchain⟩ := h.versions
    have hvold := hcur.unique hold
    subst hvold
    -- the new version, wherever it was placed
    have hnew : tid.page_id = s.current.page_id ∧ (slotTable f).Holds tid.slot.toNat
        ⟨xid, 0, kds_heap_tid_pack utid, payload new_data new_data_len⟩ := by
      generalize slotTable f = T at hplaced
      cases hplaced with
      | overwritten hlt => exact ⟨h.id _, SlotTable.put_holds hlt _⟩
      | relocated slot hlen hlt =>
        refine ⟨h.id _, ?_⟩
        have := SlotTable.append_holds ((slotTable (s.pages s.current.page_id)).put
          s.current.slot.toNat none)
          ⟨xid, 0, kds_heap_tid_pack utid, payload new_data new_data_len⟩
        rw [SlotTable.length_put, ← hlen] at this
        exact this
    rw [h.id] at hid
    have hlt : utid.page_id.toNat < 2 ^ 48 := by rw [hid]; exact hundo.lt
    have hunpack := kds_heap_tid_unpack_pack hlt
    constructor
    · exact hkept.id
    · exact hkept.inv
    · dsimp only
      rw [hnew.1]
      exact hkept.type
    · refine ⟨⟨payload new_data new_data_len, xid⟩, v :: older, kds_heap_tid_pack utid, ?_, ?_, ?_⟩
      · rw [← hhist]
      · dsimp only
        rw [hnew.1, setPage_ne _ _ (Ne.symm hne), setPage_self]
        exact hnew.2
      · refine ⟨kds_heap_tid_pack_ne_zero hlt (by rw [hid]; exact hundo.ne_zero), ?_, ?_⟩
        · dsimp only
          rw [hunpack, hid, setPage_self]
          exact hu.type.trans hundo.type
        · refine ⟨⟨xid, 0, 0, entry.bytes⟩, entry, ?_, rfl, hdata, hxmin, hxmax, ?_⟩
          · dsimp only
            rw [hunpack, hid, setPage_self, htable, hslot]
            exact SlotTable.append_holds _ _
          · rw [hprev]
            exact hchain.grows hkept.grows

/-- **Step**: no call on the pages disturbs the chain. -/
theorem HistoryInv.step {s s' : UndoWorld} {act : UndoAct} (h : HistoryInv s)
    (hstep : s.step act s') : HistoryInv s' := by
  cases act with
  | update => exact h.update hstep
  | update_other tid new_data new_data_len xid owner_oid undo kmalloc =>
    obtain ⟨hother, htype, hne, hundo, res, f, u, hrun, rfl⟩ := hstep
    obtain ⟨hf, hu, hcase⟩ := kds_heap_update_spec (h.inv _ (.inl htype))
      (h.inv _ (.inr hundo.type)) hrun
    have hcurrent : s.current.page_id ≠ undo := by
      intro heq
      have hbad := h.type
      rw [heq, hundo.type] at hbad
      cases hbad
    -- both outcomes give a page whose undo entries only grow and that keeps the current version
    have hframe : (∀ i t, (slotTable (s.pages undo)).Holds i t → (slotTable u).Holds i t) →
        (tid.page_id = s.current.page_id → ∀ t,
          (slotTable (s.pages s.current.page_id)).Holds s.current.slot.toNat t →
          (slotTable f).Holds s.current.slot.toNat t) →
        HistoryInv { s with pages := setPage (setPage s.pages tid.page_id f) undo u } := by
      intro hgrow hkeep
      apply h.frame (h.pagesKept.updated htype hne hf hu hgrow)
      intro t ht
      rw [setPage_ne _ _ hcurrent]
      by_cases hpage : s.current.page_id = tid.page_id
      · rw [hpage, setPage_self]
        exact hkeep hpage.symm t ht
      · rw [setPage_ne _ _ hpage]
        exact ht
    rcases hcase with ⟨e', -, rfl, rfl⟩ | ⟨old, utid, entry, -, -, -, htable, -, -, -, -, hplaced⟩
    · apply hframe (fun _ _ ht => ht)
      intro hpage t ht
      rw [hpage]
      exact ht
    · apply hframe (fun _ _ ht => by rw [htable]; exact ht.append _)
      intro hpage t ht
      -- the other tuple has another slot of the same page
      have hslot : tid.slot.toNat ≠ s.current.slot.toNat := by
        intro heq
        apply hother
        rw [show tid = ⟨tid.page_id, tid.slot⟩ from rfl, hpage, UInt16.toNat_inj.mp heq]
      rw [← hpage] at ht
      generalize slotTable f = T at hplaced
      cases hplaced with
      | overwritten => exact ht.put_other hslot _
      | relocated => exact (ht.put_other hslot _).append _
      | untouched => exact ht
      | retired => exact ht.put_other hslot _
  | heap id op =>
    obtain ⟨htype, hb, htarget, rfl⟩ := hstep
    have hinv := h.inv _ (.inl htype)
    -- a heap page is not an undo page, so only the current version is at stake
    have hkept := HeapOp.run_kept op hinv hb
    apply h.frame
    · apply h.pagesKept.setPage hkept
      intro hundo
      rw [htype] at hundo
      cases hundo
    · intro t ht
      by_cases hpage : s.current.page_id = id
      · subst hpage
        rw [setPage_self]
        exact (HeapOp.outcome hinv hb).holds_other hinv ht (htarget rfl)
      · rw [setPage_ne _ _ hpage]
        exact ht
  | undo_write undo owner_oid old_tid prev xmin xmax operation old_data old_data_len write_xid out =>
    obtain ⟨htype, rfl⟩ := hstep
    cases hrun : kds_undo_write_entry (s.pages undo) owner_oid old_tid prev xmin xmax operation
        old_data old_data_len write_xid out with
    | mk res u =>
      -- an entry more, and the current version lies on another page
      obtain ⟨hkept, hcase⟩ := kds_undo_write_spec (h.inv _ (.inr htype)) hrun
      have hne : s.current.page_id ≠ undo := by
        intro heq
        have hbad := h.type
        rw [heq, htype] at hbad
        cases hbad
      apply h.frame
      · apply h.pagesKept.setPage hkept
        intro _ i t ht
        rcases hcase with ⟨e, -, rfl⟩ | ⟨tid, entry, -, -, -, htable, -⟩
        · exact ht
        · rw [htable]
          exact ht.append _
      · intro t ht
        rw [setPage_ne _ _ hne]
        exact ht
  | init_page id type =>
    obtain ⟨hne, hundo, rfl⟩ := hstep
    apply h.frame
    · constructor
      · intro p
        by_cases hp : p = id
        · subst hp
          rw [setPage_self]
          exact h.id p
        · rw [setPage_ne _ _ hp]
          exact h.id p
      · intro p hp'
        by_cases hp : p = id
        · subst hp
          rw [setPage_self]
          exact heapInv_init _ _
        · rw [setPage_ne _ _ hp] at hp' ⊢
          exact h.inv p hp'
      · rw [setPage_ne _ _ (Ne.symm hne)]
        exact h.type
      -- a page set up anew is not one that holds entries of the chain
      · apply UndoGrows.setPage
        intro hbad
        exact absurd hbad hundo
    · intro t ht
      rw [setPage_ne _ _ (Ne.symm hne)]
      exact ht

theorem HistoryInv.init {s : UndoWorld} (h : undoSystem.init s) : HistoryInv s := by
  obtain ⟨hid, hreach, htype, f, data, data_len, xmin, hf, hins, hhist⟩ := h
  have hinv := heapInv_of_reachable hf
  refine ⟨hid, fun p hp => heapInv_of_reachable (hreach p hp), htype,
    ⟨payload data data_len, xmin⟩, [], 0, hhist, ?_, rfl⟩
  obtain ⟨-, ⟨e, hbad, -⟩ | ⟨tid, htid, -, hslot, htable⟩⟩ := heap_insert_table hinv hins
  · cases hbad
  · cases htid
    rw [htable, hslot]
    exact SlotTable.append_holds _ _

/-- **Undo chain**: the current tuple reads as the last version written, and
    the entries behind its `undo_ptr` are all earlier versions, newest first. -/
theorem undo_chain_full_history {s : UndoWorld} (h : undoSystem.Reachable s) :
    ∃ v older, s.history = v :: older ∧
      ∀ out_buf_size : UInt16, v.data.length ≤ out_buf_size.toNat →
        ∃ hdr buf, heap_read_tuple (s.pages s.current.page_id) s.current.slot true out_buf_size =
            .ok (hdr, buf) ∧
          buf.take v.data.length = v.data ∧ hdr.data_len.toNat = v.data.length ∧
          hdr.xmin = v.xmin ∧ hdr.xmax = 0 ∧
          ∃ entries, (∀ fuel, older.length ≤ fuel →
              undoChain s.pages fuel hdr.undo_ptr = some entries) ∧
            entries.map (fun entry => (entry.data, entry.xmin, entry.xmax)) =
              replaced v.xmin older := by
  have hinv : HistoryInv s :=
    h.invariant HistoryInv (fun _ hs => .init hs) fun _ _ _ hs hstep => hs.step hstep
  obtain ⟨v, older, ptr, hhist, hcur, hchain⟩ := hinv.versions
  refine ⟨v, older, hhist, ?_⟩
  intro out_buf_size hsize
  obtain ⟨hdr, buf, hread, hxmin, hxmax, hptr, hlen, -, htake⟩ :=
    (heapRefines_of_inv (hinv.inv _ (.inl hinv.type))).read s.current.slot out_buf_size _ hcur hsize
  obtain ⟨entries, hfuel, hmap⟩ := hchain.read fun id htype => hinv.inv id (.inr htype)
  refine ⟨hdr, buf, hread, htake, hlen, hxmin, hxmax, entries, ?_, hmap⟩
  rw [hptr]
  exact hfuel

/-! ## Section 4: A row with three versions -/

/-- Page 200 with one row, pages 300 and 301 for undo entries. -/
def firstVersion : UndoWorld where
  pages id :=
    if id = 200 then (heap_insert_tuple (heap_init_page (blankFrame 200)) (some fun _ => 7) 8 1).2
    else if id = 300 ∨ id = 301 then heap_init_page_as (blankFrame id) .undo
    else blankFrame id
  current := ⟨200, 0⟩
  history := [⟨payload (some fun _ => 7) 8, 1⟩]

theorem firstVersion_reachable : undoSystem.Reachable firstVersion := by
  apply System.Reachable.init
  refine ⟨?_, ?_, rfl, heap_init_page (blankFrame 200), some fun _ => 7, 8, 1,
    .init ⟨blankFrame 200, .heap, rfl⟩, ?_, rfl⟩
  · intro id
    unfold firstVersion
    by_cases h : id = 200
    · subst h; rfl
    · by_cases h' : id = 300 ∨ id = 301
      · simp only [h, if_false]
        rw [if_pos h']
        rfl
      · simp only [h, h', if_false]; rfl
  · intro id htype
    by_cases h : id = 200
    · subst h
      exact .step (.insert (some fun _ => 7) 8 1 0 0 true) (.init ⟨blankFrame 200, .heap, rfl⟩)
        ⟨trivial, rfl⟩
    · by_cases h' : id = 300 ∨ id = 301
      · obtain rfl | rfl := h'
        · exact .init ⟨blankFrame 300, .undo, rfl⟩
        · exact .init ⟨blankFrame 301, .undo, rfl⟩
      · simp [firstVersion, h, not_or.mp h', blankFrame] at htype
  · apply Prod.ext <;> rfl

/-- An update in place. -/
def secondUpdate : Except Errno HeapTid × Frame × Frame :=
  kds_heap_update_tuple (firstVersion.pages 200) 0 (some fun _ => 9) 8 2 5
    (firstVersion.pages 300) true

def secondVersion : UndoWorld where
  pages := setPage (setPage firstVersion.pages 200 secondUpdate.2.1) 300 secondUpdate.2.2
  current := ⟨200, 0⟩
  history := [⟨payload (some fun _ => 9) 8, 2⟩, ⟨payload (some fun _ => 7) 8, 1⟩]

/-- An update by a longer row, which gets a slot of its own. Its undo entry is on the other page. -/
def thirdUpdate : Except Errno HeapTid × Frame × Frame :=
  kds_heap_update_tuple (secondVersion.pages 200) 0 (some fun _ => 11) 12 3 5
    (secondVersion.pages 301) true

def thirdVersion : UndoWorld where
  pages := setPage (setPage secondVersion.pages 200 thirdUpdate.2.1) 301 thirdUpdate.2.2
  current := ⟨200, 1⟩
  history :=
    [⟨payload (some fun _ => 11) 12, 3⟩, ⟨payload (some fun _ => 9) 8, 2⟩,
      ⟨payload (some fun _ => 7) 8, 1⟩]

theorem secondVersion_reachable : undoSystem.Reachable secondVersion := by
  apply System.Reachable.step (.update (some fun _ => 9) 8 2 5 300 true) firstVersion_reachable
  refine ⟨by decide, ⟨rfl, by decide, by decide⟩, .ok ⟨200, 0⟩, secondUpdate.2.1,
    secondUpdate.2.2, ?_, rfl⟩
  apply Prod.ext <;> rfl

theorem thirdVersion_reachable : undoSystem.Reachable thirdVersion := by
  apply System.Reachable.step (.update (some fun _ => 11) 12 3 5 301 true) secondVersion_reachable
  refine ⟨by decide, ⟨rfl, by decide, by decide⟩, .ok ⟨200, 1⟩, thirdUpdate.2.1,
    thirdUpdate.2.2, ?_, rfl⟩
  have hmoved : thirdUpdate.1.toOption = some ⟨200, 1⟩ := by decide +kernel
  have hok : thirdUpdate.1 = .ok ⟨200, 1⟩ := by
    cases hres : thirdUpdate.1 with
    | error e =>
      rw [hres] at hmoved
      cases hmoved
    | ok tid =>
      rw [hres] at hmoved
      rw [← Option.some.inj hmoved]
  exact Prod.ext hok rfl

/-- Both earlier versions are found, from the one undo page to the other. -/
theorem undo_chain_three_versions :
    ∃ hdr buf, heap_read_tuple (thirdVersion.pages 200) 1 true 12 = .ok (hdr, buf) ∧
      buf.take 12 = List.replicate 12 11 ∧ hdr.xmin = 3 ∧ hdr.xmax = 0 ∧
      ∃ entries, undoChain thirdVersion.pages 2 hdr.undo_ptr = some entries ∧
        entries.map (fun entry => (entry.data, entry.xmin, entry.xmax)) =
          [(List.replicate 8 9, 2, 3), (List.replicate 8 7, 1, 2)] := by
  obtain ⟨v, older, hhist, hread⟩ := undo_chain_full_history thirdVersion_reachable
  obtain ⟨rfl, rfl⟩ := List.cons.inj hhist
  obtain ⟨hdr, buf, hok, htake, -, hxmin, hxmax, entries, hfuel, hmap⟩ := hread 12 (by decide)
  exact ⟨hdr, buf, hok, htake, hxmin, hxmax, entries, hfuel 2 (by decide), hmap⟩

end Kds
