import Kds.Lib.Chain
import Kds.Catalog.Partial
import Kds.Dshell.Flushed
import Kds.Dshell.Sessions

/-! # Crashes of the server

    Pages are flushed while clients use the device, one at a time or all of
    them, and some flushes fail. Then the server crashes, and the next boot
    has what is on disk. A `SELECT` lists every row that was answered with
    "OK" before the last flush of all frames that went through, and no row
    that was not answered with "OK".
-/

open Bytes Buffer Decimal Fallible Lts

namespace Kds

/-! ## Section 1: The server -/

structure Server where
  db : Database
  /-- History: the database at the last flush of all frames that went through. -/
  saved : Option Database

inductive ServerAct where
  | device (act : DatabaseAct)
  /-- A flush of one page. -/
  | flush (id : PageId) (fail : Nat → Option Errno)
  /-- A flush of all frames, in some order, in which no write fails. -/
  | flushDirty (frames : List PageId)
  /-- The superblock is written. -/
  | fsync (superblock : Superblock)

/-- The server with these pages. -/
def Database.withEnv (db : Database) (c : CatalogEnv) : Database := { db with c := c }

/-- A page for the ring has nothing on it. -/
structure BlankPage (p : Pool) (id : PageId) : Prop where
  frame : slotTable (p.frame id) = .blank
  disk : slotTable (p.disk id) = .blank
  clear : ClearOfSuperblock id

/-- The server, from the end of a first boot on. -/
def serverSystem (crc32c : UInt32 → List UInt8 → UInt32) : System Server ServerAct where
  init := fun s =>
    (databaseSystem crc32c).init s.db ∧ (∀ id ∈ s.db.c.env.staged, BlankPage s.db.c.env.pool id) ∧
      s.saved = none
  step := fun s act s' =>
    match act with
    | .device act => ∃ db, (databaseSystem crc32c).step s.db act db ∧ s' = { s with db := db }
    | .flush id fail => s' = { s with db := s.db.withEnv ((s.db.c.withFail fail).flush id) }
    | .flushDirty frames =>
        (∀ id, id ∈ frames ↔ (s.db.c.env.pool.cached id).isSome) ∧
        let db := s.db.withEnv ((s.db.c.withFail fun _ => none).flushDirty frames)
        s' = { db := db, saved := some db }
    | .fsync superblock => s' = { s with db := s.db.withEnv (s.db.c.fsync superblock) }

/-- No BTREE table is inserted into, and new pages are not on the sectors of the superblock. -/
def Orderly (s : Server) : ServerAct → Prop
  | .device (.stage id _) => ClearOfSuperblock id
  | .device act => NotIntoBtree s.db act
  | _ => True

/-! ## Section 2: The disk after a first boot -/

section boot

variable {p p' : Pool} {id : PageId}

end boot

/-! ## Section 3: What was saved -/

/-- The tables of a saved database are there, and what it had of a page is on disk. -/
structure Saved (A₀ : Catalog) (chain₀ : UInt64 → List PageId) (c₀ : CatalogEnv) (A : Catalog)
    (chain : UInt64 → List PageId) (c : CatalogEnv) : Prop where
  tables : ∀ {row}, A₀.HeapTable row → A.HeapTable row ∧ A.schemaOf row.oid = A₀.schemaOf row.oid ∧
    chain₀ row.oid <+: chain row.oid
  pages : ∀ id, A₀.Tracks chain₀ id → (slotTable (c₀.env.pool.frame id)).Grows (slotTable (c.env.pool.disk id))

section saved

variable {A₀ A A' : Catalog} {hi : Nat} {chain₀ chain chain' : UInt64 → List PageId}
  {c₀ c c' : CatalogEnv} {rows : UInt64 → List (List UInt8)} {id : PageId}

/-- The pages of the saved tables still belong to them. -/
theorem Saved.tracks (h : Saved A₀ chain₀ c₀ A chain c) (hid : A₀.Tracks chain₀ id) : A.Tracks chain id := by
  rcases hid with hcat | ⟨row, hrow, hid⟩
  · exact .inl hcat
  · obtain ⟨hrow', -, hpages⟩ := h.tables hrow
    exact .inr ⟨row, hrow', hpages.subset hid⟩

theorem Saved.evolved (h : Saved A₀ chain₀ c₀ A chain c) (he : Evolved A chain c A' chain' c') :
    Saved A₀ chain₀ c₀ A' chain' c' where
  tables := by
    intro row hrow
    obtain ⟨hrow₁, hschema, hpages⟩ := h.tables hrow
    obtain ⟨hrow₂, hschema', hpages'⟩ := he.tables hrow₁
    exact ⟨hrow₂, hschema'.trans hschema, hpages.trans hpages'⟩
  pages := fun id hid => by
    rw [he.disk]
    exact h.pages id hid

/-- The disk has been brought forward on the pages of the tables. -/
theorem Saved.forward (h : Saved A₀ chain₀ c₀ A chain c)
    (hdisk : ∀ id, A.Tracks chain id → (slotTable (c.env.pool.disk id)).Grows (slotTable (c'.env.pool.disk id))) :
    Saved A₀ chain₀ c₀ A chain c' where
  tables := h.tables
  pages := fun id hid => (h.pages id hid).trans (hdisk id (h.tracks hid))

/-- **Behind a flush of all frames** that goes through everything is on disk. -/
theorem DiskInv.saves (h : DiskInv A chain c) (hdb : DatabaseInv A hi chain c rows) (hnf : c.env.pool.NoFailure)
    {frames : List PageId} (hframes : ∀ id, id ∈ frames ↔ (c.env.pool.cached id).isSome) :
    Saved A chain (c.flushDirty frames) A chain (c.flushDirty frames) where
  tables := fun hrow => ⟨hrow, rfl, List.prefix_refl _⟩
  pages := by
    intro id hid
    obtain ⟨hdisk, hdb'⟩ := h.flushDirty frames hdb
    have hmem : id ∈ frames := (hframes id).mpr (hdb.tracked hid).1
    refine .of_eq (hdisk.pages id hid |>.onDisk (hdb'.tracked hid).1 ?_)
    exact flush_dirty_clean frames hnf (.inl hmem)

end saved

/-- What holds in every reachable state. -/
structure ServerInv (s : Server) : Prop where
  clients : ∀ fd client, s.db.clients fd = some client → ClientOk client
  database : ∃ A hi chain, DatabaseInv A hi chain s.db.c s.db.rows ∧ DiskInv A chain s.db.c ∧
    ∀ old, s.saved = some old → ∃ A₀ hi₀ chain₀, DatabaseInv A₀ hi₀ chain₀ old.c old.rows ∧
      Saved A₀ chain₀ old.c A chain s.db.c

section server

variable {crc32c : UInt32 → List UInt8 → UInt32} {s s' : Server}

/-- A step that leaves the tables as they are and brings the disk forward. -/
theorem ServerInv.forward {A : Catalog} {hi : Nat} {chain : UInt64 → List PageId} {c' : CatalogEnv}
    (h : ∀ old, s.saved = some old → ∃ A₀ hi₀ chain₀, DatabaseInv A₀ hi₀ chain₀ old.c old.rows ∧
      Saved A₀ chain₀ old.c A chain s.db.c)
    (hclients : ∀ fd client, s.db.clients fd = some client → ClientOk client)
    (hdb : DatabaseInv A hi chain c' s.db.rows) (hdisk : DiskInv A chain c')
    (hforward : ∀ id, A.Tracks chain id →
      (slotTable (s.db.c.env.pool.disk id)).Grows (slotTable (c'.env.pool.disk id))) :
    ServerInv { s with db := s.db.withEnv c' } := by
  refine ⟨hclients, A, hi, chain, hdb, hdisk, fun old hold => ?_⟩
  obtain ⟨A₀, hi₀, chain₀, hold, hsaved⟩ := h old hold
  exact ⟨A₀, hi₀, chain₀, hold, hsaved.forward hforward⟩

/-- **One step** keeps it. -/
theorem ServerInv.step (h : ServerInv s) {act : ServerAct} (hstep : (serverSystem crc32c).step s act s')
    (horderly : Orderly s act) : ServerInv s' := by
  obtain ⟨A, hi, chain, hdb, hdisk, hsaved⟩ := h.database
  cases act with
  | device act =>
    obtain ⟨db, hstep, rfl⟩ := hstep
    have hheap : NotIntoBtree s.db act := by
      cases act with
      | stage id fail => trivial
      | «open» fd => trivial
      | write fd ubuf ce fail => exact horderly
      | read fd len => trivial
      | release fd => trivial
    obtain ⟨hclients, hout⟩ := hdb.act_cases h.clients hstep hheap
    refine ⟨hclients, ?_⟩
    -- what was saved is still on the disk, since commands write to no disk page but new ones
    cases hout with
    | @command A' hi' chain' hnext =>
      refine ⟨A', hi', chain', hnext.inv, hdisk.evolved hnext.evolved, fun old hold => ?_⟩
      obtain ⟨A₀, hi₀, chain₀, hold, hsaved⟩ := hsaved old hold
      exact ⟨A₀, hi₀, chain₀, hold, hsaved.evolved hnext.evolved⟩
    | @refill id fail hact hne hrefilled hoids hrows =>
      subst hact
      refine ⟨A, hi, chain, hrows ▸ hdb.refilled hrefilled hne hoids, hdisk.refilled hdb hrefilled horderly,
        fun old hold => ?_⟩
      obtain ⟨A₀, hi₀, chain₀, hold, hsaved⟩ := hsaved old hold
      refine ⟨A₀, hi₀, chain₀, hold, hsaved.forward fun j hj => .of_eq (congrArg slotTable (hrefilled.disk j ?_))⟩
      -- a page of a table is no new page
      rintro rfl
      have hin := (hdb.tracked hj).1
      rw [hrefilled.unused] at hin
      cases hin
  | flush id fail =>
    obtain rfl := hstep
    have hfail := hdb.withFail fail
    obtain ⟨hdisk', hgrows⟩ := (hdisk.evolved hfail.evolved).flush hfail.inv id
    exact .forward hsaved h.clients (hfail.inv.upToHeaders (flush_upToHeaders _ id)) hdisk' hgrows
  | flushDirty frames =>
    obtain ⟨hframes, rfl⟩ := hstep
    have hfail := hdb.withFail fun _ => none
    have hdisk := hdisk.evolved hfail.evolved
    obtain ⟨hdisk', hdb'⟩ := hdisk.flushDirty frames hfail.inv
    refine ⟨h.clients, A, hi, chain, hdb', hdisk', fun old hold => ?_⟩
    obtain rfl := Option.some.inj hold
    -- all frames went through, so the disk has what the database has now
    exact ⟨A, hi, chain, hdb', hdisk.saves hfail.inv (fun _ => rfl) hframes⟩
  | fsync superblock =>
    obtain rfl := hstep
    refine .forward hsaved h.clients (hdb.upToHeaders (fsync_upToHeaders _ _)) (hdisk.fsync hdb superblock) ?_
    exact fun id hid => .of_eq (congrArg slotTable (writeSuperblock_clear superblock (hdisk.clear id (.inr hid))))

end server

/-! ## Section 4: The catalog on disk -/

section catalog

variable {p : Pool} {A A₀ A₁ : Catalog}

/-- **A page between two others** has the rows of the older one, and some of the newer one. -/
theorem PageRows.between {α : Type} {bytes : α → List UInt8} (hinj : Function.Injective bytes)
    {f₀ f f₁ : Frame} {old cur : List α} (h₀ : PageRows f₀ (old.map bytes)) (h₁ : PageRows f₁ (cur.map bytes))
    (hback : (slotTable f₀).Grows (slotTable f)) (hfront : (slotTable f).Grows (slotTable f₁))
    (hsound : HeapInv f.page ∨ slotTable f = .blank) (hne : old ≠ []) :
    ∃ mid, old <+: mid ∧ mid <+: cur ∧ PageRows f (mid.map bytes) := by
  have hentry : Function.Injective fun a => some (⟨KDS_BOOTSTRAP_XID, 0, 0, bytes a⟩ : Tuple) := by
    intro a b hab
    exact hinj (congrArg Tuple.data (Option.some.inj hab))
  have hold := h₀.entries
  have hcur := h₁.entries
  rw [List.map_map] at hold hcur
  have hback := hback.rows
  have hfront := hfront.rows
  rw [hold] at hback
  rw [hcur, List.prefix_iff_eq_take, ← List.map_take] at hfront
  have hmid := hback
  rw [hfront] at hmid
  refine ⟨_, (List.prefix_map_iff_of_injective hentry).mp hmid, List.take_prefix _ _, ?_, ?_⟩
  · refine hsound.resolve_right fun hblank => hne ?_
    rw [hblank] at hback
    exact List.map_eq_nil_iff.mp (List.prefix_nil.mp hback)
  · rw [List.map_map]
    exact hfront

/-- The catalog pages say `A`, in the pool or on disk. -/
structure CatalogOn (p : Pool) (A : Catalog) : Prop where
  objects : PageRows (p.frame KDS_CATALOG_PAGE_OBJECTS) (A.objects.map KdsSysObject.bytes)
  tables : PageRows (p.frame KDS_CATALOG_PAGE_TABLES) (A.tables.map KdsSysTable.bytes)
  columns : PageRows (p.frame KDS_CATALOG_PAGE_COLUMNS) (A.columns.map KdsSysColumn.bytes)

theorem CatalogOn.of_frame {p' : Pool} (h : CatalogOn p A) (hframe : p'.frame = p.frame) : CatalogOn p' A :=
  ⟨hframe ▸ h.objects, hframe ▸ h.tables, hframe ▸ h.columns⟩

/-- The pool with all pages read. -/
def Pool.allRead (p : Pool) : Pool := { p with cached := fun id => some (p.frame id) }

theorem CatalogOn.allRead (h : CatalogOn p A) : CatalogHolds p.allRead A :=
  ⟨⟨rfl, h.objects⟩, ⟨rfl, h.tables⟩, ⟨rfl, h.columns⟩⟩

/-- The reads leave a pool with the same pages. -/
theorem build_schema_reliable (hnf : p.NoFailure) (rel_id : UInt64) :
    (kds_catalog_build_schema_from_columns p rel_id).2.frame = p.frame ∧
      (kds_catalog_build_schema_from_columns p rel_id).2.NoFailure := by
  obtain ⟨q, hload, hframe, hq, -⟩ := lookup_or_load_ok hnf KDS_CATALOG_PAGE_COLUMNS
  unfold kds_catalog_build_schema_from_columns
  rw [hload]
  dsimp only
  cases collectColumns (q.frame KDS_CATALOG_PAGE_COLUMNS) rel_id []
      (heapSlots (q.frame KDS_CATALOG_PAGE_COLUMNS)) with
  | error e => exact ⟨hframe, hq⟩
  | ok cols => cases cols <;> exact ⟨hframe, hq⟩

theorem relation_open_reliable (hnf : p.NoFailure) (kzalloc_ok : Bool) (oid : UInt64) :
    (kds_relation_open p kzalloc_ok oid).2.frame = p.frame ∧ (kds_relation_open p kzalloc_ok oid).2.NoFailure := by
  obtain ⟨q, hscan, hframe, hq⟩ := scanPage_reliable hnf KDS_CATALOG_PAGE_TABLES 89 fun bs =>
    if (KdsSysTable.ofBytes bs).oid = oid then some (KdsSysTable.ofBytes bs) else none
  unfold kds_relation_open kds_catalog_get_sys_table_row
  dsimp only
  rw [hscan]
  cases scanCatalog (p.frame KDS_CATALOG_PAGE_TABLES) 89 _ (heapSlots (p.frame KDS_CATALOG_PAGE_TABLES)) with
  | none => exact ⟨hframe, hq⟩
  | some row =>
    obtain ⟨hframe', hq'⟩ := build_schema_reliable hq oid
    rw [hframe] at hframe'
    cases kzalloc_ok with
    | false => exact ⟨hframe, hq⟩
    | true =>
      dsimp only [Option.elim]
      rw [if_neg (by decide)]
      cases hbuild : kds_catalog_build_schema_from_columns q oid with
      | mk r q' =>
        rw [hbuild] at hframe' hq'
        cases r with
        | error e => cases e <;> exact ⟨hframe', hq'⟩
        | ok cols => exact ⟨hframe', hq'⟩

/-- **A table is opened**. -/
theorem CatalogOn.open (h : CatalogOn p A) (hnf : p.NoFailure) {oid : UInt64} {row : KdsSysTable}
    (hrow : (A.tables.find? fun row => row.oid = oid) = some row) :
    ∃ q, kds_relation_open p true oid = (.ok (A.handle row), q) ∧ q.frame = p.frame ∧ q.NoFailure := by
  have hcongr := kds_relation_open_congr hnf (show p.allRead.NoFailure from hnf) (fun _ _ => rfl) true oid
  rw [kds_relation_open_eq h.allRead, hrow] at hcongr
  exact ⟨(kds_relation_open p true oid).2, Prod.ext hcongr.symm rfl, relation_open_reliable hnf true oid⟩

end catalog

/-! ## Section 5: After a crash -/

section crash

variable {A₀ A : Catalog} {hi₀ hi : Nat} {chain₀ chain : UInt64 → List PageId} {c₀ c : CatalogEnv}
  {rows₀ rows : UInt64 → List (List UInt8)} {p : Pool} {row : KdsSysTable}

/-- The pool has what is on disk. -/
def FromDisk (p : Pool) (disk : PageId → Frame) : Prop := ∀ id, p.frame id = { disk id with id := id }

theorem FromDisk.slotTable (h : FromDisk p c.env.pool.disk) (id : PageId) :
    slotTable (p.frame id) = slotTable (c.env.pool.disk id) := by
  rw [h id]
  rfl

/-- What is on disk of a page of a saved table. -/
structure OnDisk (c₀ c : CatalogEnv) (p : Pool) (id : PageId) : Prop where
  back : (slotTable (c₀.env.pool.frame id)).Grows (slotTable (p.frame id))
  front : (slotTable (p.frame id)).Grows (slotTable (c.env.pool.frame id))
  sound : HeapInv (p.frame id).page ∨ slotTable (p.frame id) = .blank

theorem Saved.onDisk (h : Saved A₀ chain₀ c₀ A chain c) (hdisk : DiskInv A chain c)
    (hp : FromDisk p c.env.pool.disk) {id : PageId} (hid : A₀.Tracks chain₀ id) : OnDisk c₀ c p id := by
  have hkept := hdisk.pages id (h.tracks hid)
  refine ⟨?_, ?_, ?_⟩
  · rw [hp.slotTable]
    exact h.pages id hid
  · rw [hp.slotTable]
    exact hkept.grows
  · rw [hp.slotTable, hp id]
    exact hkept.sound

/-- **The catalog on disk** lies between the saved one and the one in memory. -/
theorem Saved.catalog (h : Saved A₀ chain₀ c₀ A chain c) (hold : CatalogHolds c₀.env.pool A₀)
    (hcat : CatalogHolds c.env.pool A) (hdisk : DiskInv A chain c) (hp : FromDisk p c.env.pool.disk)
    (hobjects : A₀.objects ≠ []) (htables : A₀.tables ≠ []) (hcolumns : A₀.columns ≠ []) :
    ∃ A₁, CatalogOn p A₁ ∧ A₀.objects <+: A₁.objects ∧ A₀.tables <+: A₁.tables ∧
      A₀.columns <+: A₁.columns ∧ A₁.columns <+: A.columns := by
  have hon : ∀ {id}, id ∈ rowPages → OnDisk c₀ c p id := fun hid => h.onDisk hdisk hp (.inl hid)
  have ho : OnDisk c₀ c p KDS_CATALOG_PAGE_OBJECTS := hon (by decide)
  have ht : OnDisk c₀ c p KDS_CATALOG_PAGE_TABLES := hon (by decide)
  have hc : OnDisk c₀ c p KDS_CATALOG_PAGE_COLUMNS := hon (by decide)
  obtain ⟨objects, hobjects, -, hobjs⟩ := hold.objects.rows.between
    (Function.LeftInverse.injective KdsSysObject.ofBytes_bytes) hcat.objects.rows ho.back ho.front ho.sound hobjects
  obtain ⟨tables, htables, -, htabs⟩ := hold.tables.rows.between
    (Function.LeftInverse.injective KdsSysTable.ofBytes_bytes) hcat.tables.rows ht.back ht.front ht.sound htables
  obtain ⟨columns, hcolumns, hfront, hcols⟩ := hold.columns.rows.between
    (Function.LeftInverse.injective KdsSysColumn.ofBytes_bytes) hcat.columns.rows hc.back hc.front hc.sound hcolumns
  exact ⟨⟨objects, tables, columns⟩, ⟨hobjs, htabs, hcols⟩, hobjects, htables, hcolumns, hfront⟩

variable {crc32c : UInt32 → List UInt8 → UInt32} {s : Server} {old : Database}

end crash

/-! ## Section 6: A run -/

end Kds
